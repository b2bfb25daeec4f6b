import ModuleAtlas.Main
import ModuleAtlas.Service.Basic
import ModuleAtlas.Proofs.ProseGate
import ModuleAtlas.Proofs.RemoteCalls
import ModuleAtlas.Proofs.CircularDependencies
import ModuleAtlas.Proofs.GraphCoverage
import ModuleAtlas.Proofs.SourceWalk
import ModuleAtlas.Proofs.SurveyOrder
import ModuleAtlas.Proofs.SourceAgreement
import ModuleAtlas.Proofs.ArchitectureAgreement
import ModuleAtlas.Proofs.SortedIssues
import ModuleAtlas.Proofs.PrintedReports
import ModuleAtlas.Proofs.AnalysisObstacles
import ModuleAtlas.Proofs.ReportedCycles
import ModuleAtlas.Proofs.TreeRecords
import ModuleAtlas.Proofs.SyntaxFaults
import ModuleAtlas.Proofs.AnnouncedRecords
import ModuleAtlas.Proofs.SpecifierNames
import ModuleAtlas.Proofs.JoinedEntries
import ModuleAtlas.Proofs.ResolvedPaths
import ModuleAtlas.Proofs.MissingPackages
import ModuleAtlas.Proofs.RulePrecedence
import ModuleAtlas.Proofs.WildcardReach
import ModuleAtlas.Proofs.WrappedReplies
import ModuleAtlas.Proofs.ReadDocuments
import ModuleAtlas.Proofs.NarratedProse
import ModuleAtlas.Proofs.StandardReports
import ModuleAtlas.Proofs.HubRanking
import ModuleAtlas.Proofs.SearchLoop
import ModuleAtlas.Proofs.UsableAnswers
import ModuleAtlas.Proofs.SettingsDocuments
import ModuleAtlas.Proofs.RecoveredTexts
