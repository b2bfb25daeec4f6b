import ModuleAtlas.Graph.Patterns
import ModuleAtlas.Package.Manifest
import ModuleAtlas.Package.Names

/-!
# Issues

Problems of a project, each with its severity and a remedy.
-/

namespace ModuleAtlas

/-- The words for the severities that are told apart, the worst first. -/
def severityWords : List String := ["critical", "high", "medium", "low"]

inductive Severity where
  | critical
  | high
  | medium
  | low
  | other (name : String) (unknown : name ∉ severityWords)
  deriving DecidableEq, Repr, Inhabited

namespace Severity

def name : Severity → String
  | .critical => "critical"
  | .high => "high"
  | .medium => "medium"
  | .low => "low"
  | .other name _ => name

def ofName (name : String) : Severity :=
  if critical : name = "critical" then .critical
  else if high : name = "high" then .high
  else if medium : name = "medium" then .medium
  else if low : name = "low" then .low
  else .other name (by simp [severityWords, critical, high, medium, low])

end Severity

/-- What a problem is about. -/
inductive IssueKind where
  | missingDependency
  | missingScript
  | circularDependency
  | missingEntryPoint
  | noSourceDirectory
  | tooManyImports
  | misplacedRoutes
  | unexportedModel
  | unreadableDirectory
  | other (name : String)
  deriving DecidableEq, Repr, Inhabited

namespace IssueKind

def name : IssueKind → String
  | .missingDependency => "missing-dependency"
  | .missingScript => "missing-script"
  | .circularDependency => "circular-dependency"
  | .missingEntryPoint => "missing-entry-point"
  | .noSourceDirectory => "no-src-directory"
  | .tooManyImports => "too-many-imports"
  | .misplacedRoutes => "misplaced-routes"
  | .unexportedModel => "unexported-model"
  | .unreadableDirectory => "unreadable-directory"
  | .other name => name

end IssueKind

structure Issue where
  kind : IssueKind
  severity : Severity
  file : String
  description : String
  remediation : String
  deriving DecidableEq, Repr

namespace Issue

def toJson (issue : Issue) : Json :=
  .object
    [("type", .string issue.kind.name), ("severity", .string issue.severity.name),
      ("file", .string issue.file), ("description", .string issue.description),
      ("remediation", .string issue.remediation)]

def entryNames : List String := ["index.js", "app.js", "server.js", "main.js"]

/-- A file should not import more modules than this. -/
def mostImports : Nat := 20

/-- A project with more files than this should keep them in a source directory. -/
def smallProject : Nat := 5

/-! ## Checks -/

def importedPackages (table : Table) : List String :=
  let sources := table.analyses.flatMap fun entry => entry.imports.map (·.source)
  let foreign := sources.filter fun source => !Package.isPlatform source
  (foreign.filterMap Package.nameOf?).eraseDups

def missingDependency (name : String) : Issue :=
  { kind := .missingDependency
    severity := .high
    file := "package.json"
    description := s!"Package '{name}' is imported but not listed in dependencies"
    remediation := s!"Run: npm install {name}" }

/-- One problem for every imported package that the manifest does not declare. -/
def missingDependencies (table : Table) (manifest : Option Manifest) : List Issue :=
  let declared : List RawText := (Manifest.dependenciesOf manifest).map (·.1)
  let missing := (importedPackages table).filter fun name => !declared.contains (.proper name)
  missing.map missingDependency

def missingStart : Issue :=
  { kind := .missingScript
    severity := .medium
    file := "package.json"
    description := "No start or dev script found"
    remediation := "Add \"start\" or \"dev\" script to package.json" }

def missingTest : Issue :=
  { kind := .missingScript
    severity := .low
    file := "package.json"
    description := "No test script found"
    remediation := "Add \"test\" script to package.json" }

def missingScripts (manifest : Option Manifest) : List Issue :=
  let starts := Manifest.hasScript manifest "start" || Manifest.hasScript manifest "dev"
  (if starts then [] else [missingStart])
    ++ (if Manifest.hasScript manifest "test" then [] else [missingTest])

def circularDependency (first : String) (files : List String) : Issue :=
  { kind := .circularDependency
    severity := .high
    file := first
    description := "Circular dependency detected: " ++ String.intercalate " → " files
    remediation := "Refactor to remove circular dependency" }

/-- The problem of a cycle; a walk over less than two files is none. -/
def ofCycle? (cycle : Graph.Cycle) : Option Issue :=
  match cycle.files with
  | first :: second :: rest => some (circularDependency first (first :: second :: rest))
  | _ => none

/-- One problem for every cycle. -/
def circularDependencies (patterns : Graph.Patterns) : List Issue :=
  patterns.cycles.filterMap ofCycle?

def missingEntryPoint : Issue :=
  { kind := .missingEntryPoint
    severity := .medium
    file := "project-root"
    description := "No clear entry point found (index.js, app.js, server.js)"
    remediation := "Create a main entry point file" }

def noSourceDirectory : Issue :=
  { kind := .noSourceDirectory
    severity := .low
    file := "project-root"
    description := "No src/ directory found for larger project"
    remediation := "Consider organizing code in src/ directory" }

def structural (table : Table) : List Issue :=
  let paths := table.paths
  let starts := paths.any fun path => entryNames.contains (Path.fileName path)
  let sorted := paths.any fun path => Text.beginsWith path "src/"
  (if starts then [] else [missingEntryPoint])
    ++ (if smallProject < paths.length && !sorted then [noSourceDirectory] else [])

def antiPatterns (path : String) (entry : Entry) : List Issue :=
  let crowded : Issue :=
    { kind := .tooManyImports
      severity := .medium
      file := path
      description := s!"File has {entry.imports.length} imports (consider refactoring)"
      remediation := "Break down into smaller modules" }
  let misplaced : Issue :=
    { kind := .misplacedRoutes
      severity := .low
      file := path
      description := "Express routes found outside route files"
      remediation := "Move routes to dedicated route files" }
  let hidden : Issue :=
    { kind := .unexportedModel
      severity := .high
      file := path
      description := "Mongoose schema defined but not exported"
      remediation := "Export the model: module.exports = mongoose.model(...)" }
  let outside := !Text.contains path "route" && !Text.contains path "server"
  (if mostImports < entry.imports.length then [crowded] else [])
    ++ (if !entry.routes.isEmpty && outside then [misplaced] else [])
    ++ (if !entry.schemas.isEmpty && entry.exports.isEmpty then [hidden] else [])

def unreadableDirectory (directory : String) : Issue :=
  { kind := .unreadableDirectory
    severity := .low
    file := directory
    description := s!"Directory '{directory}' could not be read; its files were not analysed"
    remediation := "Check the directory permissions and re-run the analysis" }

def detect (table : Table) (manifest : Option Manifest) (patterns : Graph.Patterns)
    (unreadable : List String) : List Issue :=
  missingDependencies table manifest ++ missingScripts manifest ++ circularDependencies patterns
    ++ structural table ++ table.entries.flatMap (fun file => antiPatterns file.1 file.2)
    ++ unreadable.map unreadableDirectory

end Issue

/-! ## Sorted by severity and by kind -/

/-- Problems by severity and by what they are about. -/
structure SortedIssues where
  critical : List Issue := []
  high : List Issue := []
  medium : List Issue := []
  low : List Issue := []
  byKind : List (String × List Issue) := []
  deriving Repr

namespace SortedIssues

def withSeverity (severity : Severity) (issues : List Issue) : List Issue :=
  issues.filter fun issue => issue.severity == severity

def addToKind (groups : List (String × List Issue)) (issue : Issue) :
    List (String × List Issue) :=
  let known := (groups.lookup issue.kind.name).getD []
  Json.putField groups issue.kind.name (known ++ [issue])

/-- The problems of a list, sorted. -/
def ofList (issues : List Issue) : SortedIssues :=
  { critical := withSeverity .critical issues
    high := withSeverity .high issues
    medium := withSeverity .medium issues
    low := withSeverity .low issues
    byKind := issues.foldl addToKind [] }

/-- All problems of a known severity, the worst first. -/
def all (issues : SortedIssues) : List Issue :=
  issues.critical ++ issues.high ++ issues.medium ++ issues.low

def toJson (issues : SortedIssues) : Json :=
  .object
    [("critical", Json.ofList Issue.toJson issues.critical),
      ("high", Json.ofList Issue.toJson issues.high),
      ("medium", Json.ofList Issue.toJson issues.medium),
      ("low", Json.ofList Issue.toJson issues.low),
      ("by_type", .object (issues.byKind.map fun group =>
        (group.1, Json.ofList Issue.toJson group.2)))]

end SortedIssues

end ModuleAtlas
