import ModuleAtlas.Graph.Patterns
import ModuleAtlas.Project.Confidence
import ModuleAtlas.Project.Issue
import ModuleAtlas.Project.Workflow
import ModuleAtlas.Report.Enrichment

/-!
# Reports

The report on a project: as a document, as text, and in excerpts.
-/

namespace ModuleAtlas

/-- When and of what a report was made. -/
structure Provenance where
  analyzedAt : String
  projectPath : String
  analysisVersion : String
  deriving DecidableEq, Repr

structure Report where
  summary : String
  projectType : String
  stack : List Technology
  table : Table
  graph : Graph
  patterns : Graph.Patterns
  issues : SortedIssues
  commands : List Command
  workflow : Workflow
  confidence : Binary64
  provenance : Provenance
  enrichment : Option Enrichment := none

namespace Report

def analysisVersion : String := "1.0.0"

def breakdown (files : List (String × Entry)) : Json :=
  .object (files.map fun file => (file.1, file.2.digest))

def toJson (report : Report) : Json :=
  .object
    [("project_summary", .string report.summary), ("project_type", .string report.projectType),
      ("tech_stack", Json.ofList Technology.toJson report.stack),
      ("file_breakdown", breakdown report.table.entries),
      ("workflow", report.workflow.toJson),
      ("dependency_graph",
        .object (report.graph.fields ++ [(("patterns" : RawText), report.patterns.toJson)])),
      ("issues", report.issues.toJson),
      ("recommended_commands", Json.ofList Command.toJson report.commands),
      ("dev_workflow", Json.ofList SetupStep.toJson report.workflow.setupSteps),
      ("deployment_recommendations", Json.ofList Deployment.toJson report.workflow.deployments),
      ("enrichment", Json.ofOption Enrichment.toJson report.enrichment),
      ("metadata", .object
        [("analyzed_at", .string report.provenance.analyzedAt),
          ("project_path", .string report.provenance.projectPath),
          ("analysis_version", .string report.provenance.analysisVersion),
          ("confidence", .float report.confidence)])]

def overview (report : Report) : List RawText :=
  let stats := report.graph.stats
  [report.summary, "", s!"Project type: {report.projectType}",
    s!"Architecture: {report.workflow.architecture.name} ({report.workflow.summary})",
    s!"Files: {stats.totalFiles}, connections: {stats.totalConnections}, "
      ++ s!"isolated: {stats.isolatedFiles}",
    s!"Confidence: {Decimal.fixedText 2 report.confidence}"]

def stackLines (report : Report) : List RawText :=
  if report.stack.isEmpty then []
  else
    let technologies := report.stack.map fun technology =>
      (s!"{technology.name} " : RawText) ++ technology.version
    [("Tech stack: " : RawText) ++ RawText.join ", " technologies]

def lines (report : Report) : List RawText :=
  let issues := report.issues.all
  let problems : List String :=
    ["", s!"Issues ({issues.length}):"]
      ++ issues.map (fun issue => s!"  [{issue.severity.name}] {issue.file}: {issue.description}")
      ++ ["", "Commands:"]
      ++ report.commands.map fun command => s!"  {command.command}  # {command.description}"
  report.overview ++ report.stackLines ++ problems.map .proper

def text (report : Report) : RawText :=
  RawText.join "\n" report.lines

structure Insight where
  kind : String
  message : String
  deriving DecidableEq, Repr

def Insight.toJson (insight : Insight) : Json :=
  .object [("type", .string insight.kind), ("message", .string insight.message)]

def insights (report : Report) : List Insight :=
  let names := String.intercalate ", " ((report.stack.take 3).map (·.name))
  let criticals := report.issues.critical.length
  (if report.stack.isEmpty then []
    else [⟨"tech-stack", s!"Uses modern stack: {names}"⟩])
    ++ (if criticals = 0 then [⟨"health", "No critical issues detected"⟩]
      else [⟨"issues", s!"{criticals} critical issues need attention"⟩])
    ++ [⟨"architecture", s!"Follows {report.workflow.architecture.name} pattern"⟩]

def recommendations (report : Report) : Json :=
  .object
    [("commands", Json.ofList Command.toJson report.commands),
      ("workflow", Json.ofList SetupStep.toJson report.workflow.setupSteps),
      ("deployment", Json.ofList Deployment.toJson report.workflow.deployments),
      ("issues", report.issues.toJson)]

def mendingAdvice : Json :=
  .object
    [("category", .string "code-quality"), ("priority", .string "medium"),
      ("description", .string "Address static analysis issues found"),
      ("implementation", .string "Review and fix the identified code quality issues")]

/-- The prose that needs no model, with the reason why none was asked. -/
def basicEnrichment (report : Report) (reason : String) : Enrichment :=
  let issues := report.issues.all
  { source := "fallback"
    isBasic := true
    insights := "Analysis performed using static heuristics (LLM unavailable)"
    fileDescriptions := (Enrichment.describeFiles report.table.paths).map fun description =>
      (description.1, description.2)
    interfaceFlow := "API flow analysis requires LLM integration"
    componentFlow := "Component flow analysis requires LLM integration"
    criticalIssues := issues.map Issue.toJson
    recommendations := if issues.isEmpty then [] else [mendingAdvice]
    frameworkInsights := "Framework-specific insights require LLM integration"
    remark := some s!"basic analysis only: {reason}" }

end Report

end ModuleAtlas
