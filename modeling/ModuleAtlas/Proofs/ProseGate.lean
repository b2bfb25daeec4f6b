import ModuleAtlas.Proofs.AnalysisOutcome
import ModuleAtlas.Proofs.Authorities

/-!
# What prose may keep from a report

Prose is added to a finished report.  An analysis with prose is therefore the
analysis without it, with the prose in its place, unless the settings of the
project cannot be asked for a narrator at all.  That is the only thing that
breaks an analysis off, apart from a time budget that cannot be measured.
-/

namespace ModuleAtlas.Analysis

/-- A budget can be measured. -/
def IsMeasured (budget : Option Quantity) : Prop :=
  ∀ limit, budget = some limit → isTooLarge limit = false

/-- Within its budget an analysis fails with prose as it does without, or comes
to what it comes to without a budget. -/
theorem runResult_of_isMeasured
    {setting : Setting} {path : String} {budget : Option Quantity}
    (measured : IsMeasured budget) :
    (∃ message, ∀ enriched,
      runResult setting path budget enriched = .ok ⟨.failure message, []⟩) ∨
      ∀ enriched, runResult setting path budget enriched = resultFor setting path enriched := by
  cases budget with
  | none =>
      exact Or.inr (runResult_none setting path)
  | some limit =>
      have measurable : isTooLarge limit = false := measured limit rfl
      cases exceeded : isExceeded setting.ends limit with
      | true =>
          refine Or.inl
            ⟨s!"Analysis failed: exceeded time budget of {limit.generalText}s",
              fun enriched => ?_⟩
          simp only [runResult, measurable, exceeded, Bool.false_eq_true, if_false, if_true]
      | false =>
          refine Or.inr fun enriched => ?_
          simp only [runResult, measurable, exceeded, Bool.false_eq_true, if_false]

/-- The narrator of an analysis is missing exactly when none is given and
something stops the settings of the project. -/
theorem narratorResult_eq_error_iff
    {setting : Setting} {project : String} {breakdown : Breakdown} :
    narratorResult setting project = .error breakdown ↔
      setting.narrator = none ∧
        ∃ fault, Narrator.StoppedBy setting.surroundings project fault ∧
          breakdown = .narrator fault := by
  unfold narratorResult
  cases setting.narrator with
  | some narrator => simp
  | none =>
      simp only [← @Narrator.configuredResult_eq_error_iff _ setting.exchange, true_and]
      cases Narrator.configuredResult setting.surroundings setting.exchange project with
      | ok narrator => simp
      | error fault => simp [eq_comm]

/-- Where a project is surveyed under its own path, its settings hold no fault
that nothing forgives. -/
theorem not_stoppedBy_settings
    {setting : Setting} {path : String} {report : Report}
    (composed : composeResult setting path = .ok report)
    (rooted :
      Survey.rootOf setting.surroundings report.provenance.projectPath =
        .ok report.provenance.projectPath)
    (fault : Settings.Fault) :
    ¬Narrator.StoppedBy setting.surroundings report.provenance.projectPath
      (.settings fault) := by
  obtain ⟨_, survey, surveyed⟩ := survey_of_composeResult composed
  obtain ⟨root, settings, _, found, configured, _⟩ :=
    Survey.ofDirectory_of_surveyResult surveyed
  rw [rooted] at found
  cases found
  unfold Survey.settingsResult at configured
  intro stopped
  cases stopped with
  | settings loaded unforgiven =>
      rw [loaded] at configured
      simp [unforgiven] at configured

/-- How the analysis with prose goes on from the report without it. -/
structure AddsProse (setting : Setting) (path : String) (budget : Option Quantity)
    (report : Report) : Prop where
  /-- Without prose the report has none. -/
  unadorned : report.enrichment = none
  /-- The analysis breaks off exactly when no narrator is given and something
  stops the settings of the project. -/
  breaksOff_iff : ∀ breakdown,
    (run setting path budget true).outcome.1 = .error breakdown ↔
      setting.narrator = none ∧
        ∃ fault,
          Narrator.StoppedBy setting.surroundings report.provenance.projectPath fault ∧
            breakdown = .narrator fault
  /-- Otherwise the report is the same but for its prose. -/
  adds : ∀ outcome,
    (run setting path budget true).outcome.1 = .ok outcome →
      ∃ enrichment,
        outcome.result = .success { report with enrichment := some enrichment } ∧
          (enrichment.source = "llm" ∨ enrichment.source = "fallback")
  /-- Where the settings can be read, only the address can break it off. -/
  breaksOff_iff_of_load : ∀ settings,
    Settings.load setting.surroundings.disk report.provenance.projectPath = .ok settings →
      ((∃ breakdown, (run setting path budget true).outcome.1 = .error breakdown) ↔
        setting.narrator = none ∧ settings.model.enabled = true ∧
          ¬Net.IsReadable
            (Net.seenPart
              (settings.model.wishedAddress setting.surroundings.environment)))
  /-- Faults in the settings break it off only where the survey has followed the
  path of the project further. -/
  settings_readable : ∀ fault,
    Survey.rootOf setting.surroundings report.provenance.projectPath =
        .ok report.provenance.projectPath →
      ¬Narrator.StoppedBy setting.surroundings report.provenance.projectPath
        (.settings fault)

/-- The settings can be read, so that only their address can stop them. -/
theorem exists_stoppedBy_iff
    {surroundings : Surroundings} {project : String} {settings : Settings}
    (loaded : Settings.load surroundings.disk project = .ok settings) :
    (∃ fault, Narrator.StoppedBy surroundings project fault) ↔
      settings.model.enabled = true ∧
        ¬Net.IsReadable
          (Net.seenPart (settings.model.wishedAddress surroundings.environment)) := by
  rw [← Net.exists_malformed_iff]
  constructor
  · intro given
    obtain ⟨fault, stopped⟩ := given
    cases stopped with
    | settings fails _ =>
        rw [loaded] at fails
        cases fails
    | address sameLoad enabled malformed =>
        rw [loaded] at sameLoad
        cases sameLoad
        exact ⟨enabled, _, malformed⟩
  · intro given
    obtain ⟨enabled, malformation, malformed⟩ := given
    exact ⟨_, .address loaded enabled malformed⟩

theorem addsProse_of_composeResult
    {setting : Setting} {path : String} {budget : Option Quantity} {report : Report}
    (composed : composeResult setting path = .ok report)
    (unlimited : runResult setting path budget true = resultFor setting path true) :
    AddsProse setting path budget report := by
  have finished :
      (run setting path budget true).outcome.1 =
        (narratorResult setting report.provenance.projectPath >>= fun narrator =>
          pure (narrated report narrator)) := by
    rw [(run_gives setting path budget true).outcome, unlimited, resultFor_enriched composed]
  have breaksOff_iff : ∀ breakdown,
      (run setting path budget true).outcome.1 = .error breakdown ↔
        setting.narrator = none ∧
          ∃ fault,
            Narrator.StoppedBy setting.surroundings report.provenance.projectPath fault ∧
              breakdown = .narrator fault := by
    intro breakdown
    rw [finished, bind_pure_eq_error_iff, narratorResult_eq_error_iff]
  constructor
  · exact (survey_of_composeResult composed).1
  · exact breaksOff_iff
  · intro outcome succeeds
    rw [finished] at succeeds
    obtain ⟨narrator, _, same⟩ := bind_eq_ok_iff.mp succeeds
    cases same
    exact ⟨(report.prose narrator).1, rfl, report.source_prose narrator⟩
  · intro settings loaded
    rw [← exists_stoppedBy_iff loaded]
    constructor
    · intro given
      obtain ⟨breakdown, breaks⟩ := given
      obtain ⟨unset, fault, stopped, _⟩ := (breaksOff_iff breakdown).mp breaks
      exact ⟨unset, fault, stopped⟩
    · intro given
      obtain ⟨unset, fault, stopped⟩ := given
      exact ⟨.narrator fault, (breaksOff_iff _).mpr ⟨unset, fault, stopped, rfl⟩⟩
  · intro fault rooted
    exact not_stoppedBy_settings composed rooted fault

/-- An analysis within a budget that can be measured fails with prose as it does
without, or has a report without prose, to which prose only adds.  Prose keeps
the report back exactly when no narrator is given and the settings of the
project are stopped. -/
theorem prose_withholds_report_iff
    (setting : Setting) (path : String) (budget : Option Quantity) :
    (∀ limit, budget = some limit → isTooLarge limit = true → ∀ enriched,
      (run setting path budget enriched).outcome.1 = .error (.budgetTooLarge limit)) ∧
      (IsMeasured budget →
        (∃ message, ∀ enriched,
          (run setting path budget enriched).outcome.1 = .ok ⟨.failure message, []⟩) ∨
          ∃ report,
            (run setting path budget false).outcome.1 = .ok ⟨.success report, []⟩ ∧
              AddsProse setting path budget report) := by
  refine ⟨?_, ?_⟩
  · rintro limit rfl tooLarge enriched
    rw [(run_gives setting path (some limit) enriched).outcome, runResult, if_pos tooLarge]
  · intro measured
    rcases @runResult_of_isMeasured setting path budget measured with
      ⟨message, fails⟩ | unlimited
    · refine Or.inl ⟨message, fun enriched => ?_⟩
      rw [(run_gives setting path budget enriched).outcome, fails]
    · cases composed : composeResult setting path with
      | error fault =>
          refine Or.inl ⟨s!"Analysis failed: {fault.message}", fun enriched => ?_⟩
          rw [(run_gives setting path budget enriched).outcome, unlimited,
            resultFor_of_error composed]
      | ok report =>
          refine Or.inr ⟨report, ?_, addsProse_of_composeResult composed (unlimited true)⟩
          rw [(run_gives setting path budget false).outcome, unlimited,
            resultFor_plain composed]

/-- The setting of a project whose settings name an address with a bracket that
is not closed. -/
def bracketSetting : Setting where
  surroundings :=
    ⟨.directory true true
        [("project", .directory true true
          [(".stackmap.yml",
            .file true "llm: \x7benabled: true, base_url: 'http://['\x7d\n".toUTF8.toList)])],
      "/", "/", []⟩
  clock := ""

theorem composeResult_bracketSetting :
    ∃ report, composeResult bracketSetting "/project" = .ok report ∧
      report.provenance.projectPath = "/project" := by
  have composed :
      (composeResult bracketSetting "/project").toOption.map
        (fun report => report.provenance.projectPath) = some "/project" := by
    decide +kernel
  exact exists_ok_of_seen composed

theorem stoppedBy_bracketSetting :
    Narrator.StoppedBy bracketSetting.surroundings "/project"
      (.address .unbalancedBrackets) := by
  have loaded :
      Settings.load bracketSetting.surroundings.disk "/project" =
        .ok { root := "/project", model := { enabled := true, address := some "http://[" } } := by
    decide +kernel
  exact .address loaded rfl (by decide)

theorem prose_withholds_report_bracketSetting :
    IsMeasured none ∧
      ∃ report,
        (run bracketSetting "/project" none false).outcome.1 = .ok ⟨.success report, []⟩ ∧
          (run bracketSetting "/project" none true).outcome.1 =
            .error (.narrator (.address .unbalancedBrackets)) := by
  have measured : IsMeasured none := by
    intro limit given
    cases given
  refine ⟨measured, ?_⟩
  obtain ⟨report, composed, projectPath⟩ := composeResult_bracketSetting
  have finished := run_plain composed
  rcases (prose_withholds_report_iff bracketSetting "/project" none).2 measured with
    ⟨message, fails⟩ | ⟨other, same, addsProse⟩
  · rw [fails false] at finished
    cases finished
  · rw [finished] at same
    cases same
    refine ⟨report, finished, ?_⟩
    rw [addsProse.breaksOff_iff, projectPath]
    exact ⟨rfl, _, stoppedBy_bracketSetting, rfl⟩

end ModuleAtlas.Analysis
