import ModuleAtlas.Analysis.Narrative
import ModuleAtlas.Survey.Basic

/-!
# Analysis of a project

The analysis of a project, from the survey to the report. Whatever goes wrong on the way becomes a
result that tells so.
-/

namespace ModuleAtlas.Analysis

open Journal

/-- Everything around an analysis that is not the project itself. -/
structure Setting where
  surroundings : Surroundings
  wishes : Survey.Wishes := {}
  examiner : Survey.Examiner := Survey.usualExaminer
  /-- The time of the analysis as it stands in the report. -/
  clock : String
  /-- Who is asked for prose, in place of the one in the settings of the project. -/
  narrator : Option Narrator := none
  /-- What comes back for a call to a model. -/
  exchange : Model.Call → Model.Reply := fun _ => .answered []
  /-- Whether the analysis ever ends. -/
  ends : Bool := true
  limits : Json.Limits := .usual

/-- Why there is no report. -/
inductive Fault where
  | lost (fault : Disk.Lost)
  | survey (fault : Survey.Fault)
  | trouble (trouble : Disk.Trouble)
  | unknownNode (node : Graph.UnknownNode)

def Fault.message : Fault → String
  | .lost fault => fault.message
  | .survey fault => fault.message
  | .trouble cause => cause.message
  | .unknownNode node => Text.Quoted.quote node.id

/-! ## The report -/

/-- The paths of a table whose identity in the graph is taken by a file before them. -/
def shadowed : List String → List (String × Entry) → List String
  | _, [] => []
  | taken, (path, _) :: rest =>
    if taken.contains (nodeId path) then path :: shadowed taken rest
    else shadowed (nodeId path :: taken) rest

def graphOf (disk : Disk.Item) (survey : Survey) : Recorded Fault Graph := do
  Recorded.takeNotes ((shadowed [] survey.table.entries).map fun path =>
    ⟨.debug, "graph", s!"Skipping {path}: node id {nodeId path} already taken", .main⟩)
  let resolve := Resolution.resolve (Resolution.isFileUnder disk survey.root)
  let graph ← Recorded.ofExcept ((Graph.build resolve survey.table).mapError .trouble)
  Recorded.takeNote .debug "graph"
    (s!"Graph built with {graph.stats.totalFiles} nodes and "
      ++ s!"{graph.stats.totalConnections} edges")
  return graph

def patternsOf (graph : Graph) : Recorded Fault Graph.Patterns := do
  let patterns ← Recorded.ofExcept (graph.patterns.mapError .unknownNode)
  Recorded.takeNote .debug "orchestrator"
    (s!"Found {patterns.entryPoints.length} entry points, {patterns.hubs.length} hubs, "
      ++ s!"{patterns.cycles.length} cycles")
  return patterns

def issuesOf (survey : Survey) (patterns : Graph.Patterns) : Recorded Fault (List Issue) := do
  let issues := Issue.detect survey.table survey.manifest patterns survey.unreadable
  Recorded.takeNote .debug "issues" s!"Detected {issues.length} issues"
  return issues

def reportOf (clock path : String) (survey : Survey) (graph : Graph) (patterns : Graph.Patterns)
    (issues : List Issue) : Report :=
  let sorted := SortedIssues.ofList issues
  let stack := Stack.detect survey.manifest survey.markers
  let workflow := Workflow.classify stack survey.table
  let projectType := (ProjectType.determine survey.table survey.manifest).name
  { summary := projectSummary projectType survey.table stack workflow.architecture.name
    projectType := projectType
    stack := stack
    table := survey.table
    graph := graph
    patterns := patterns
    issues := sorted
    commands := Stack.commands survey.manifest survey.lockFiles
    workflow := { workflow with setupSteps := Workflow.setup survey.manifest survey.lockFiles }
    confidence := Confidence.of survey.table.size stack.length sorted.critical.length
    provenance := ⟨clock, path, Report.analysisVersion⟩ }

def compose (setting : Setting) (path : String) : Recorded Fault Report := do
  let resolved ← Recorded.ofExcept ((setting.surroundings.resolve path).mapError .lost)
  Recorded.takeNote .info "orchestrator" s!"Starting analysis of {resolved}"
  let survey ← (Survey.survey setting.surroundings setting.wishes setting.examiner
    resolved).adapt .survey
  Recorded.takeNote .debug "orchestrator" s!"Scanner analysed {survey.table.size} files"
  let graph ← graphOf setting.surroundings.disk survey
  let patterns ← patternsOf graph
  let issues ← issuesOf survey patterns
  let report := reportOf setting.clock resolved survey graph patterns issues
  Recorded.takeNote .info "orchestrator"
    s!"Analysis complete: {report.stack.length} technologies, {issues.length} issues"
  return report

/-! ## The result -/

inductive Result where
  | success (report : Report)
  | failure (message : String)

def Result.toJson : Result → Json
  | .success report =>
    .object [("success", .bool true), ("message", .null), ("data", report.toJson)]
  | .failure message =>
    .object [("success", .bool false), ("message", .string message), ("data", .null)]

def Result.prose? : Result → Option Enrichment
  | .success report => report.enrichment
  | .failure _ => none

/-- The document that a result is made into. Prose is copied for it part by part; there is no document
when one of them is nested too deeply for that. -/
def Result.document? (limits : Json.Limits) (result : Result) : Option Json :=
  if result.prose?.all fun prose => prose.isCopied limits.calls then some result.toJson else none

/-- A result with the calls to a model that were made for it. -/
structure Outcome where
  result : Result
  calls : List Model.Call := []

/-- What breaks an analysis off without a result. -/
inductive Breakdown where
  | narrator (fault : NarratorFault)
  | budgetTooLarge (budget : Quantity)
  deriving DecidableEq, Repr

def Breakdown.message : Breakdown → String
  | .narrator fault => fault.message
  | .budgetTooLarge (.whole _) => "timestamp too large to convert to C _PyTime_t"
  | .budgetTooLarge (.real _) => "timestamp out of range for platform time_t"

def narrate (setting : Setting) (report : Report) : Recorded Breakdown Outcome := do
  let narrator ←
    match setting.narrator with
    | some narrator => pure (some narrator)
    | none =>
      (Narrator.configured setting.surroundings setting.exchange
        report.provenance.projectPath).adapt .narrator
  let (enrichment, calls) ← report.narrate narrator
  return ⟨.success { report with enrichment := some enrichment }, calls⟩

/-- The result for the project at a path. A report that cannot be made is a failure. -/
def resultOf (setting : Setting) (path : String) (enriched : Bool) : Recorded Breakdown Outcome := do
  match (compose setting path).outcome with
  | (.error fault, notes) =>
    Recorded.takeNotes notes
    Recorded.takeNote .error "orchestrator" s!"Analysis failed for {path}"
    return ⟨.failure s!"Analysis failed: {fault.message}", []⟩
  | (.ok report, notes) =>
    Recorded.takeNotes notes
    if enriched then narrate setting report else return ⟨.success report, []⟩

/-! ## Time budgets -/

/-- The least number of seconds that is too large for a budget. -/
def boundlessBudget : Binary64 := Binary64.ofDecimal false 9223372036854775807 (-9)

def isTooLarge (budget : Quantity) : Bool :=
  budget.toFloat == boundlessBudget || boundlessBudget.below budget.toFloat

/-- Whether a budget is used up before the analysis ends. No time at all is never enough. -/
def isExceeded (ends : Bool) (budget : Quantity) : Bool :=
  !ends || !(Binary64.zero false).below budget.toFloat

/-- The result for the project at a path, within a time budget if there is one. -/
def run (setting : Setting) (path : String) (budget : Option Quantity) (enriched : Bool) :
    Recorded Breakdown Outcome :=
  match budget with
  | none => resultOf setting path enriched
  | some limit =>
    if isTooLarge limit then throw (.budgetTooLarge limit)
    else if isExceeded setting.ends limit then do
      Recorded.takeNote .error "orchestrator"
        s!"Analysis of {path} exceeded {Decimal.fixedText 1 limit.toFloat}s budget"
      return ⟨.failure s!"Analysis failed: exceeded time budget of {limit.generalText}s", []⟩
    else do
      let (outcome, notes) := (resultOf setting path enriched).outcome
      Recorded.takeNotes (notes.map fun note =>
        if note.hand = .main then { note with hand := .timed } else note)
      Recorded.ofExcept outcome

end ModuleAtlas.Analysis
