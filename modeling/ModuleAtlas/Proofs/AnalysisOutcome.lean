import ModuleAtlas.Analysis.Basic
import ModuleAtlas.Proofs.SurveyOutcome

/-!
# The outcome of an analysis

What an analysis comes to, without the notes that it takes on the way: the
report, the narrator that the settings of the project name, the prose, and the
result within a time budget.
-/

namespace ModuleAtlas

open Journal
open Journal.Recorded

/-! ## Prose -/

/-- The prose about a report by the answer to a question, with the calls that were
made for it. -/
def Report.proseBy (report : Report) (question : Except String Prompt.Request) :
    Option Narrator → Enrichment × List Model.Call
  | none => (report.basicEnrichment "LLM runner not configured", [])
  | some narrator =>
      let answered := narrator.answerTo question
      match Narrator.fieldsFor answered.2.2 with
      | .error reason => (report.basicEnrichment reason, answered.2.1)
      | .ok fields => (Enrichment.ofReply fields, answered.2.1)

/-- The prose about a report, with the calls that were made for it. -/
def Report.prose (report : Report) (narrator : Option Narrator) :
    Enrichment × List Model.Call :=
  report.proseBy report.question narrator

/-- Whatever is asked, asking for prose never fails. -/
theorem Report.narrateBy_gives
    {ε : Type} (report : Report) (question : Except String Prompt.Request)
    (narrator : Option Narrator) :
    Gives (report.narrateBy question narrator : Recorded ε (Enrichment × List Model.Call))
      (.ok (report.proseBy question narrator)) := by
  cases narrator with
  | none =>
      exact gives_pure _
  | some narrator =>
      unfold Report.narrateBy Report.proseBy
      dsimp only
      generalize narrator.answerTo question = answered
      rcases answered with ⟨notes, calls, answer⟩
      refine Gives.afterNotes ?_
      dsimp only
      cases Narrator.fieldsFor answer with
      | error reason => exact Gives.afterNote (gives_pure _)
      | ok fields => exact Gives.afterNote (gives_pure _)

/-- Asking for prose never fails. -/
theorem Report.narrate_gives
    {ε : Type} (report : Report) (narrator : Option Narrator) :
    Gives (report.narrate narrator : Recorded ε (Enrichment × List Model.Call))
      (.ok (report.prose narrator)) :=
  report.narrateBy_gives report.question narrator

/-- Prose is that of a model or that which needs none. -/
theorem Report.source_prose (report : Report) (narrator : Option Narrator) :
    (report.prose narrator).1.source = "llm" ∨
      (report.prose narrator).1.source = "fallback" := by
  cases narrator with
  | none =>
      exact Or.inr rfl
  | some narrator =>
      unfold Report.prose Report.proseBy
      dsimp only
      split
      · exact Or.inr rfl
      · exact Or.inl rfl

/-! ## Narrators -/

/-- The address at which the settings of a project let a model be asked. -/
def ModelSettings.wishedAddress
    (settings : ModelSettings) (environment : List (String × String)) : String :=
  settings.address.getD
    ((Model.environmentValue? environment "BASE_URL").getD Model.usualAddress)

theorem ModelSettings.wishedAddress_options
    (settings : ModelSettings) (environment : List (String × String)) :
    settings.options.wishedAddress environment = some (settings.wishedAddress environment) := by
  unfold ModelSettings.options Model.Options.wishedAddress ModelSettings.wishedAddress
  cases settings.address with
  | none => rfl
  | some text => rfl

/-- A choice is refused for its address alone. -/
theorem Model.Runner.ofOptions_eq_error_iff
    {environment : List (String × String)} {options : Model.Options}
    {refusal : Net.AddressRefusal} :
    Model.Runner.ofOptions environment options = .error refusal ↔
      ∃ url, options.wishedAddress environment = some url ∧
        Net.ensureLocal url = .error refusal := by
  unfold Model.Runner.ofOptions
  rw [bind_pure_eq_error_iff]
  cases options.wishedAddress environment with
  | none => simp [pure, Except.pure]
  | some url =>
      simp only [Option.mapM_some, Option.some.injEq, exists_eq_left']
      cases Net.ensureLocal url with
      | error other => simp [Functor.map, Except.map]
      | ok address => simp [Functor.map, Except.map]

/-- What stops the settings of a project from being asked for a narrator. -/
inductive Narrator.StoppedBy
    (surroundings : Surroundings) (project : String) : NarratorFault → Prop
  /-- A fault in the settings that nothing forgives. -/
  | settings {fault : Settings.Fault} :
      Settings.load surroundings.disk project = .error fault →
      fault.isForgiven = false →
      StoppedBy surroundings project (.settings fault)
  /-- An address that cannot be taken apart, where a model is to be asked. -/
  | address {settings : Settings} {malformation : Net.UrlFault} :
      Settings.load surroundings.disk project = .ok settings →
      settings.model.enabled = true →
      Net.ensureLocal (settings.model.wishedAddress surroundings.environment) =
        .error (.malformed malformation) →
      StoppedBy surroundings project (.address malformation)

/-- The narrator that the settings of a project name. -/
def Narrator.configuredResult (surroundings : Surroundings)
    (exchange : Model.Call → Model.Reply) (project : String) :
    Except NarratorFault (Option Narrator) :=
  match Settings.load surroundings.disk project with
  | .error fault => if fault.isForgiven then .ok none else .error (.settings fault)
  | .ok settings =>
      if settings.model.enabled then
        match Model.Runner.ofOptions surroundings.environment settings.model.options with
        | .ok runner => .ok (some (Narrator.ofRunner exchange runner))
        | .error (.malformed fault) => .error (.address fault)
        | .error (.remote _) => .ok none
      else .ok none

theorem Narrator.configured_gives
    (surroundings : Surroundings) (exchange : Model.Call → Model.Reply) (project : String) :
    Gives (Narrator.configured surroundings exchange project)
      (Narrator.configuredResult surroundings exchange project) := by
  unfold Narrator.configured Narrator.configuredResult
  dsimp only
  cases Settings.load surroundings.disk project with
  | error fault =>
      dsimp only
      cases fault.isForgiven with
      | true => exact Gives.afterNote (gives_pure none)
      | false => exact gives_throw (NarratorFault.settings fault)
  | ok settings =>
      dsimp only
      cases settings.model.enabled with
      | false => exact Gives.afterNote (gives_pure none)
      | true =>
          simp only [Bool.not_true, Bool.false_eq_true, if_false, if_true]
          cases Model.Runner.ofOptions surroundings.environment settings.model.options with
          | ok runner => exact gives_pure (some (Narrator.ofRunner exchange runner))
          | error refusal =>
              cases refusal with
              | malformed fault => exact gives_throw (NarratorFault.address fault)
              | remote url => exact Gives.afterNote (gives_pure none)

/-- The settings of a project name no narrator, and not none either, exactly
when something stops them. -/
theorem Narrator.configuredResult_eq_error_iff
    {surroundings : Surroundings} {exchange : Model.Call → Model.Reply}
    {project : String} {fault : NarratorFault} :
    Narrator.configuredResult surroundings exchange project = .error fault ↔
      Narrator.StoppedBy surroundings project fault := by
  unfold Narrator.configuredResult
  constructor
  · intro stops
    cases loaded : Settings.load surroundings.disk project with
    | error own =>
        cases forgiven : own.isForgiven with
        | true =>
            simp [loaded, forgiven] at stops
        | false =>
            simp only [loaded, forgiven, Bool.false_eq_true, if_false] at stops
            exact Except.error.inj stops ▸ .settings loaded forgiven
    | ok settings =>
        cases enabled : settings.model.enabled with
        | false =>
            simp [loaded, enabled] at stops
        | true =>
            simp only [loaded, enabled, if_true] at stops
            cases made : Model.Runner.ofOptions surroundings.environment
                settings.model.options with
            | ok runner =>
                simp [made] at stops
            | error refusal =>
                obtain ⟨url, wished, refused⟩ :=
                  Model.Runner.ofOptions_eq_error_iff.mp made
                rw [ModelSettings.wishedAddress_options, Option.some.injEq] at wished
                rw [← wished] at refused
                cases refusal with
                | remote url =>
                    simp [made] at stops
                | malformed malformation =>
                    simp only [made] at stops
                    exact Except.error.inj stops ▸ .address loaded enabled refused
  · intro stopped
    cases stopped with
    | settings loaded unforgiven =>
        simp [loaded, unforgiven]
    | address loaded enabled refused =>
        have made :=
          Model.Runner.ofOptions_eq_error_iff.mpr
            ⟨_, ModelSettings.wishedAddress_options _ _, refused⟩
        simp [loaded, enabled, made]

/-! ## Workflows -/

/-- A workflow is made for the architecture of its signals, and carries them. -/
theorem Workflow.classify_spec (stack : List Technology) (table : Table) :
    (Workflow.classify stack table).architecture =
        (Workflow.Signals.ofProject stack table).architecture ∧
      (Workflow.classify stack table).flags =
        (Workflow.Signals.ofProject stack table).flags := by
  unfold Workflow.classify
  dsimp only
  generalize (Workflow.Signals.ofProject stack table).architecture = architecture
  cases architecture with
  | next => exact ⟨rfl, rfl⟩
  | mern => exact ⟨rfl, rfl⟩
  | expressMongo => exact ⟨rfl, rfl⟩
  | express => exact ⟨rfl, rfl⟩
  | react => exact ⟨rfl, rfl⟩
  | generic => exact ⟨rfl, rfl⟩

namespace Analysis

/-! ## Reports -/

/-- The graph of a survey, or why there is none. -/
def graphResult (disk : Disk.Item) (survey : Survey) : Except Fault Graph :=
  (Graph.build (Resolution.resolve (Resolution.isFileUnder disk survey.root))
    survey.table).mapError .trouble

theorem graphOf_gives (disk : Disk.Item) (survey : Survey) :
    Gives (graphOf disk survey) (graphResult disk survey) :=
  Gives.afterNotes (gives_ofExcept (graphResult disk survey)).thenNote

theorem patternsOf_gives (graph : Graph) :
    Gives (patternsOf graph) (graph.patterns.mapError Fault.unknownNode) :=
  (gives_ofExcept _).thenNote

theorem issuesOf_gives (survey : Survey) (patterns : Graph.Patterns) :
    Gives (issuesOf survey patterns)
      (.ok (Issue.detect survey.table survey.manifest patterns survey.unreadable)) :=
  Gives.afterNote (gives_pure _)

/-- The report on the project at a path, or why there is none. -/
def composeResult (setting : Setting) (path : String) : Except Fault Report := do
  let resolved ← (setting.surroundings.resolve path).mapError .lost
  let survey ← (Survey.surveyResult setting.surroundings setting.wishes setting.examiner
    resolved).mapError .survey
  let graph ← graphResult setting.surroundings.disk survey
  let patterns ← graph.patterns.mapError .unknownNode
  return reportOf setting.clock resolved survey graph patterns
    (Issue.detect survey.table survey.manifest patterns survey.unreadable)

theorem compose_gives (setting : Setting) (path : String) :
    Gives (compose setting path) (composeResult setting path) := by
  unfold compose composeResult
  refine (gives_ofExcept _).bind fun resolved _ => ?_
  refine Gives.afterNote ?_
  have surveyed :=
    (Survey.survey_gives setting.surroundings setting.wishes setting.examiner resolved).adapt
      Fault.survey
  refine surveyed.bind fun survey _ => ?_
  refine Gives.afterNote ?_
  refine (graphOf_gives _ survey).bind fun graph _ => ?_
  refine (patternsOf_gives graph).bind fun patterns _ => ?_
  refine (issuesOf_gives survey patterns).follow ?_
  exact Gives.afterNote (gives_pure _)

/-- A composed report is made of a survey, its graph and its problems. -/
theorem composeResult_eq_ok
    {setting : Setting} {path : String} {report : Report}
    (composed : composeResult setting path = .ok report) :
    ∃ resolved survey graph patterns,
      setting.surroundings.resolve path = .ok resolved ∧
      Survey.surveyResult setting.surroundings setting.wishes setting.examiner resolved =
        .ok survey ∧
      Graph.build
          (Resolution.resolve (Resolution.isFileUnder setting.surroundings.disk survey.root))
          survey.table = .ok graph ∧
      graph.patterns = .ok patterns ∧
      report = reportOf setting.clock resolved survey graph patterns
        (Issue.detect survey.table survey.manifest patterns survey.unreadable) := by
  obtain ⟨resolved, found, composed⟩ := bind_eq_ok_iff.mp composed
  obtain ⟨survey, surveyed, composed⟩ := bind_eq_ok_iff.mp composed
  obtain ⟨graph, built, composed⟩ := bind_eq_ok_iff.mp composed
  obtain ⟨patterns, told, composed⟩ := bind_eq_ok_iff.mp composed
  cases composed
  exact ⟨resolved, survey, graph, patterns, mapError_eq_ok_iff.mp found,
    mapError_eq_ok_iff.mp surveyed, mapError_eq_ok_iff.mp built,
    mapError_eq_ok_iff.mp told, rfl⟩

/-- A report tells the path that was surveyed, and comes without prose. -/
theorem survey_of_composeResult
    {setting : Setting} {path : String} {report : Report}
    (composed : composeResult setting path = .ok report) :
    report.enrichment = none ∧
      ∃ survey,
        Survey.surveyResult setting.surroundings setting.wishes setting.examiner
          report.provenance.projectPath = .ok survey := by
  obtain ⟨resolved, survey, graph, patterns, _, surveyed, _, _, rfl⟩ :=
    composeResult_eq_ok composed
  exact ⟨rfl, survey, surveyed⟩

/-! ## Results -/

/-- The narrator of an analysis: the one that is given, or the one that the
settings of the project name. -/
def narratorResult (setting : Setting) (project : String) :
    Except Breakdown (Option Narrator) :=
  match setting.narrator with
  | some narrator => .ok (some narrator)
  | none =>
      (Narrator.configuredResult setting.surroundings setting.exchange project).mapError
        .narrator

/-- The outcome with the prose of a narrator added to a report. -/
def narrated (report : Report) (narrator : Option Narrator) : Outcome :=
  ⟨.success { report with enrichment := some (report.prose narrator).1 },
    (report.prose narrator).2⟩

theorem narrate_gives (setting : Setting) (report : Report) :
    Gives (narrate setting report)
      (narratorResult setting report.provenance.projectPath >>= fun narrator =>
        pure (narrated report narrator)) := by
  unfold narrate narratorResult
  cases setting.narrator with
  | some narrator =>
      refine (gives_pure (some narrator)).bind fun narrator _ => ?_
      exact (report.narrate_gives narrator).follow (gives_pure _)
  | none =>
      have configured :=
        (Narrator.configured_gives setting.surroundings setting.exchange
          report.provenance.projectPath).adapt Breakdown.narrator
      refine configured.bind fun narrator _ => ?_
      exact (report.narrate_gives narrator).follow (gives_pure _)

/-- The result for the project at a path, or what breaks it off. -/
def resultFor (setting : Setting) (path : String) (enriched : Bool) :
    Except Breakdown Outcome :=
  match composeResult setting path with
  | .error fault => .ok ⟨.failure s!"Analysis failed: {fault.message}", []⟩
  | .ok report =>
      if enriched then
        narratorResult setting report.provenance.projectPath >>= fun narrator =>
          pure (narrated report narrator)
      else .ok ⟨.success report, []⟩

theorem resultFor_of_error
    {setting : Setting} {path : String} {fault : Fault}
    (composed : composeResult setting path = .error fault) (enriched : Bool) :
    resultFor setting path enriched =
      .ok ⟨.failure s!"Analysis failed: {fault.message}", []⟩ := by
  unfold resultFor
  simp only [composed]

theorem resultFor_plain
    {setting : Setting} {path : String} {report : Report}
    (composed : composeResult setting path = .ok report) :
    resultFor setting path false = .ok ⟨.success report, []⟩ := by
  unfold resultFor
  simp only [composed, Bool.false_eq_true, if_false]

theorem resultFor_enriched
    {setting : Setting} {path : String} {report : Report}
    (composed : composeResult setting path = .ok report) :
    resultFor setting path true =
      (narratorResult setting report.provenance.projectPath >>= fun narrator =>
        pure (narrated report narrator)) := by
  unfold resultFor
  simp only [composed, if_true]

theorem resultOf_gives (setting : Setting) (path : String) (enriched : Bool) :
    Gives (resultOf setting path enriched) (resultFor setting path enriched) := by
  have composed := (compose_gives setting path).outcome
  unfold resultOf resultFor
  generalize (compose setting path).outcome = outcome at composed ⊢
  rcases outcome with ⟨result, notes⟩
  dsimp only at composed
  rw [← composed]
  cases result with
  | error fault =>
      exact Gives.afterNotes (Gives.afterNote (gives_pure _))
  | ok report =>
      refine Gives.afterNotes ?_
      cases enriched with
      | false => exact gives_pure _
      | true => exact narrate_gives setting report

/-- The result within a time budget, or what breaks it off. -/
def runResult (setting : Setting) (path : String) (budget : Option Quantity)
    (enriched : Bool) : Except Breakdown Outcome :=
  match budget with
  | none => resultFor setting path enriched
  | some limit =>
      if isTooLarge limit then .error (.budgetTooLarge limit)
      else if isExceeded setting.ends limit then
        .ok ⟨.failure s!"Analysis failed: exceeded time budget of {limit.generalText}s", []⟩
      else resultFor setting path enriched

theorem run_gives
    (setting : Setting) (path : String) (budget : Option Quantity) (enriched : Bool) :
    Gives (run setting path budget enriched) (runResult setting path budget enriched) := by
  unfold run runResult
  cases budget with
  | none => exact resultOf_gives setting path enriched
  | some limit =>
      dsimp only
      split
      · exact gives_throw (Breakdown.budgetTooLarge limit)
      · split
        · exact Gives.afterNote (gives_pure _)
        · have finished := (resultOf_gives setting path enriched).outcome
          generalize (resultOf setting path enriched).outcome = outcome at finished ⊢
          rcases outcome with ⟨result, notes⟩
          dsimp only at finished
          rw [← finished]
          exact Gives.afterNotes (gives_ofExcept result)

theorem runResult_none (setting : Setting) (path : String) (enriched : Bool) :
    runResult setting path none enriched = resultFor setting path enriched := rfl

theorem run_plain
    {setting : Setting} {path : String} {report : Report}
    (composed : composeResult setting path = .ok report) :
    (run setting path none false).outcome.1 = .ok ⟨.success report, []⟩ := by
  rw [(run_gives setting path none false).outcome, runResult_none, resultFor_plain composed]

end Analysis

end ModuleAtlas
