import ModuleAtlas.Proofs.AnalysisOutcome
import ModuleAtlas.Proofs.GraphCycles
import ModuleAtlas.Proofs.SettingsFaults
import ModuleAtlas.Proofs.SourceAgreement
import ModuleAtlas.Proofs.WarnedFailures

/-!
# Obstacles of an analysis

The analysis of a directory ends in a report with an entry for every source,
unless something stands in its way.  There are four kinds of such things: faults
of the settings that nothing forgives, a wish for fewer workers than none, a
manifest that cannot be looked for or on which its reader gives up, and imports
that may mean a place that cannot be looked at, because it is too long or lies
behind a directory that cannot be entered.  Sources are never in the way, nor is
what is to be left out.
-/

namespace ModuleAtlas

/-! ## Manifests -/

/-- What keeps the manifest of a project from being had. -/
inductive Manifest.Obstacle (disk : Disk.Item) (project : String) : Manifest.Fault → Prop
  /-- The path cannot be looked at. -/
  | trouble {trouble : Disk.Trouble} :
      Disk.exists? disk (Path.join project fileName) = .error trouble →
      Obstacle disk project (.trouble trouble)
  /-- The reader gives up on the text, for another reason than the grammar. -/
  | document {octets : List UInt8} {text : String} {fault : Json.Fault} :
      Disk.exists? disk (Path.join project fileName) = .ok true →
      Disk.read disk (Path.join project fileName) = .ok octets →
      Text.Utf8.decode octets = .ok text →
      Json.read text = .error fault →
      (∀ complaint index, fault ≠ .grammar complaint index) →
      Obstacle disk project (.document fault)

theorem Manifest.fieldsOfOctets_eq_error_iff {octets : List UInt8} {fault : Json.Fault} :
    Manifest.fieldsOfOctets octets = .error fault ↔
      ∃ text, Text.Utf8.decode octets = .ok text ∧ Json.read text = .error fault ∧
        ∀ complaint index, fault ≠ .grammar complaint index := by
  unfold fieldsOfOctets
  cases decoded : Text.Utf8.decode octets with
  | error broken => simp
  | ok text =>
      simp only [Except.ok.injEq, exists_eq_left']
      cases readText : Json.read text with
      | ok document => cases document <;> simp
      | error other =>
          cases other with
          | grammar complaint index => simp +contextual [eq_comm]
          | digitLimit digits => simp +contextual [eq_comm]
          | nesting container => simp +contextual [eq_comm]

theorem Manifest.load_eq_error_iff
    {disk : Disk.Item} {project : String} {fault : Manifest.Fault} :
    Manifest.load disk project = .error fault ↔ Manifest.Obstacle disk project fault := by
  rw [Manifest.load, bind_pure_eq_error_iff, fieldsAt]
  cases stands : Disk.exists? disk (Path.join project fileName) with
  | error trouble =>
      simp only [mapError_error, bind, Except.bind, Except.error.injEq]
      constructor
      · rintro rfl
        exact .trouble stands
      · intro obstacle
        cases obstacle with
        | trouble failed =>
            rw [stands] at failed
            exact congrArg Manifest.Fault.trouble (Except.error.inj failed)
        | document found _ _ _ _ =>
            rw [stands] at found
            cases found
  | ok standing =>
      simp only [mapError_ok, bind, Except.bind]
      constructor
      · intro failed
        cases standing with
        | false => cases failed
        | true =>
            cases held : Disk.read disk (Path.join project fileName) with
            | error trouble =>
                rw [held] at failed
                cases failed
            | ok octets =>
                rw [held] at failed
                obtain ⟨own, cause, rfl⟩ := mapError_eq_error_iff.mp failed
                obtain ⟨text, decoded, readText, other⟩ := fieldsOfOctets_eq_error_iff.mp cause
                exact .document stands held decoded readText other
      · intro obstacle
        cases obstacle with
        | trouble failed =>
            rw [stands] at failed
            cases failed
        | document found held decoded readText other =>
            rw [stands] at found
            cases found
            have cause := fieldsOfOctets_eq_error_iff.mpr ⟨_, decoded, readText, other⟩
            rw [held]
            exact mapError_eq_error_iff.mpr ⟨_, cause, rfl⟩

namespace Survey

/-! ## Surveys -/

/-- What stands in the way of a survey of a directory. -/
inductive Obstacle (disk : Disk.Item) (wishes : Wishes) (root : String) : Fault → Prop
  | settings {fault : Settings.Fault} :
      Settings.Unforgiven disk root fault →
      Obstacle disk wishes root (.settings fault)
  /-- Zero workers are as many as usual. -/
  | workers {workers : Int} :
      wishes.workers = some workers →
      workers < 0 →
      Obstacle disk wishes root .tooFewWorkers
  | manifest {fault : Manifest.Fault} :
      Manifest.Obstacle disk root fault →
      Obstacle disk wishes root (.manifest fault)

/-- Only what nothing forgives keeps a survey from its settings, which ask for a
worker or more. -/
theorem settingsResult_decidedBy
    {disk : Disk.Item} {root : String} (entered : Disk.isDirectory disk root = .ok true) :
    DecidedBy (fun fault => ∃ own, Settings.Unforgiven disk root own ∧ fault = .settings own)
      (fun settings => ∀ own, settings = some own → 1 ≤ own.scan.workers)
      (settingsResult disk root) := by
  have faces := Settings.faces_load entered
  unfold settingsResult
  cases loaded : Settings.load disk root with
  | ok settings =>
      rw [loaded] at faces
      cases faces with
      | had enough clear =>
          refine .succeeds ?_ ?_
          · rintro fault ⟨own, unforgiven, _⟩
            exact clear own unforgiven
          · rintro own same
            cases same
            exact enough
  | error fault =>
      rw [loaded] at faces
      dsimp only
      cases faces with
      | passedOver forgiven clear =>
          rw [if_pos forgiven]
          refine .succeeds ?_ (by simp)
          rintro other ⟨own, unforgiven, _⟩
          exact clear own unforgiven
      | stopped unforgiven stands =>
          rw [if_neg (by simp [unforgiven])]
          exact .fails ⟨fault, stands, rfl⟩

theorem workersOf_lt_one_iff
    {wishes : Wishes} {settings : Option Settings}
    (enough : ∀ own, settings = some own → 1 ≤ own.scan.workers) :
    workersOf wishes settings < 1 ↔ ∃ workers, wishes.workers = some workers ∧ workers < 0 := by
  have usual : ¬((settings.map fun own : Settings => own.scan).getD {}).workers < 1 := by
    cases settings with
    | none => decide
    | some own => exact Int.not_lt.mpr (enough own rfl)
  unfold workersOf
  cases wishes.workers with
  | none =>
      simpa using usual
  | some workers =>
      by_cases unset : workers = 0
      · simpa [Option.filter_some, unset] using usual
      · simp only [Option.filter_some, bne_iff_ne, ne_eq, unset, not_false_eq_true, if_true,
          Option.getD_some, Option.some.injEq, exists_eq_left']
        omega

/-- A survey of a directory is that of its sources, unless something stands in
its way. -/
theorem surveyResult_decidedBy
    {surroundings : Surroundings} {path root : String} (wishes : Wishes) (examiner : Examiner)
    (rooted : rootOf surroundings path = .ok root) :
    DecidedBy (Obstacle surroundings.disk wishes root)
      (fun survey => ∃ settings manifest,
        settingsResult surroundings.disk root = .ok settings ∧
        ¬workersOf wishes settings < 1 ∧
        survey = ofDirectory surroundings.disk wishes examiner root settings manifest)
      (surveyResult surroundings wishes examiner path) := by
  have decided := settingsResult_decidedBy (isDirectory_of_rootOf rooted)
  unfold surveyResult
  rw [rooted]
  simp only [bind, Except.bind]
  cases configured : settingsResult surroundings.disk root with
  | error fault =>
      rw [configured] at decided
      obtain ⟨own, unforgiven, rfl⟩ := decided.of_error
      exact .fails (.settings unforgiven)
  | ok settings =>
      rw [configured] at decided
      obtain ⟨clear, enough⟩ := decided.of_ok
      dsimp only
      by_cases few : workersOf wishes settings < 1
      · rw [if_pos few]
        obtain ⟨workers, wished, negative⟩ := (workersOf_lt_one_iff enough).mp few
        exact .fails (.workers wished negative)
      · rw [if_neg few]
        cases loaded : Manifest.load surroundings.disk root with
        | error fault =>
            exact .fails (.manifest (Manifest.load_eq_error_iff.mp loaded))
        | ok manifest =>
            refine .succeeds ?_ ⟨settings, manifest, rfl, few, rfl⟩
            intro fault obstacle
            cases obstacle with
            | settings unforgiven => exact clear _ ⟨_, unforgiven, rfl⟩
            | workers wished negative =>
                exact few ((workersOf_lt_one_iff enough).mpr ⟨_, wished, negative⟩)
            | manifest withheld =>
                have failed := Manifest.load_eq_error_iff.mpr withheld
                rw [loaded] at failed
                cases failed

end Survey

namespace Analysis

open Survey (Source sourcesUnder rulesOf settingsResult ofDirectory)

/-! ## Imports -/

/-- An import of one of the sources may mean a place that cannot be looked at. -/
def ImportsBarred (disk : Disk.Item) (examiner : Survey.Examiner) (root : String)
    (sources : List Source) (place : String) (fault : Disk.Fault) : Prop :=
  ∃ source ∈ sources, ∃ reference ∈ (Survey.examine disk examiner source).1.imports,
    Resolution.LooksAt (Resolution.isFileUnder disk root) reference.source source.path place ∧
      Disk.IsBarred disk (Path.join root place) fault

theorem isFileUnder_eq_error_iff
    {disk : Disk.Item} {root place : String} {trouble : Disk.Trouble} :
    Resolution.isFileUnder disk root place = .error trouble ↔
      ∃ fault, Disk.IsBarred disk (Path.join root place) fault ∧
        trouble = ⟨fault, Path.join root place⟩ := by
  rw [Survey.isFileUnder_eq]
  exact Disk.holds_eq_error_iff

/-- The graph of a table with the entries of the sources is there, and so are its
patterns, unless an import may mean a place that cannot be looked at. -/
theorem graphResult_decidedBy
    {disk : Disk.Item} {examiner : Survey.Examiner} {survey : Survey} {sources : List Source}
    (entries : ∀ file, file ∈ survey.table.entries ↔
      ∃ source ∈ sources, (source.path, (Survey.examine disk examiner source).1) = file) :
    DecidedBy
      (fun fault => ∃ place cause, ImportsBarred disk examiner survey.root sources place cause ∧
        fault = .trouble ⟨cause, Path.join survey.root place⟩)
      (fun graph => ∃ patterns, graph.patterns = .ok patterns)
      (graphResult disk survey) := by
  have spec :=
    Graph.build_spec (Resolution.resolve (Resolution.isFileUnder disk survey.root)) survey.table
  unfold graphResult
  cases built : Graph.build (Resolution.resolve (Resolution.isFileUnder disk survey.root))
      survey.table with
  | error trouble =>
      rw [built] at spec
      obtain ⟨file, fileMember, reference, imported, failed⟩ := spec
      obtain ⟨source, listed, rfl⟩ := (entries file).mp fileMember
      obtain ⟨place, looks, troubled⟩ := Resolution.resolve_eq_error_iff.mp failed
      obtain ⟨cause, barred, rfl⟩ := isFileUnder_eq_error_iff.mp troubled
      exact .fails ⟨place, cause, ⟨source, listed, reference, imported, looks, barred⟩, rfl⟩
  | ok graph =>
      refine .succeeds ?_ ?_
      · rintro fault ⟨place, cause, ⟨source, listed, reference, imported, looks, barred⟩, _⟩
        obtain ⟨answer, resolved⟩ :=
          Graph.resolves_of_build built _ ((entries _).mpr ⟨source, listed, rfl⟩) reference imported
        have failed :=
          Resolution.resolve_eq_error_iff.mpr
            ⟨place, looks, isFileUnder_eq_error_iff.mpr ⟨cause, barred, rfl⟩⟩
        rw [resolved] at failed
        cases failed
      · obtain ⟨cycles, told, _⟩ := Graph.cycles_spec (Graph.ends_mem_of_build built)
        exact ⟨_, by rw [Graph.patterns, told]; rfl⟩

/-! ## Analyses -/

/-- What stands in the way of the analysis of a directory. -/
inductive Obstacle (setting : Setting) (root : String) : Fault → Prop
  | survey {fault : Survey.Fault} :
      Survey.Obstacle setting.surroundings.disk setting.wishes root fault →
      Obstacle setting root (.survey fault)
  | importPath {settings : Option Settings} {place : String} {fault : Disk.Fault} :
      settingsResult setting.surroundings.disk root = .ok settings →
      ImportsBarred setting.surroundings.disk setting.examiner root
        (sourcesUnder setting.surroundings.disk root
          (rulesOf setting.surroundings.disk root setting.wishes settings)) place fault →
      Obstacle setting root (.trouble ⟨fault, Path.join root place⟩)

theorem composeResult_decidedBy
    {setting : Setting} {path resolved root : String}
    (kept : setting.surroundings.disk.WellKept)
    (found : setting.surroundings.resolve path = .ok resolved)
    (rooted : Survey.rootOf setting.surroundings resolved = .ok root) :
    DecidedBy (Obstacle setting root)
      (fun report => ∃ settings manifest,
        settingsResult setting.surroundings.disk root = .ok settings ∧
        ¬Survey.workersOf setting.wishes settings < 1 ∧
        report.table =
          (ofDirectory setting.surroundings.disk setting.wishes setting.examiner root settings
            manifest).table)
      (composeResult setting path) := by
  have surveyDecided :=
    Survey.surveyResult_decidedBy setting.wishes setting.examiner rooted
  unfold composeResult
  rw [found]
  simp only [mapError_ok, bind, Except.bind]
  cases surveyed : Survey.surveyResult setting.surroundings setting.wishes setting.examiner
      resolved with
  | error fault =>
      rw [surveyed] at surveyDecided
      exact .fails (.survey surveyDecided.of_error)
  | ok survey =>
      rw [surveyed] at surveyDecided
      obtain ⟨clear, settings, manifest, configured, enough, rfl⟩ := surveyDecided.of_ok
      have graphDecided :=
        graphResult_decidedBy fun file =>
          @Survey.mem_entries_ofDirectory_iff _ kept setting.wishes setting.examiner root
            settings manifest file
      simp only [mapError_ok]
      cases built : graphResult setting.surroundings.disk
          (ofDirectory setting.surroundings.disk setting.wishes setting.examiner root
            settings manifest) with
      | error fault =>
          rw [built] at graphDecided
          obtain ⟨place, cause, barred, rfl⟩ := graphDecided.of_error
          exact .fails (.importPath configured barred)
      | ok graph =>
          rw [built] at graphDecided
          obtain ⟨unbarred, patterns, told⟩ := graphDecided.of_ok
          simp only [told, mapError_ok]
          refine .succeeds ?_ ⟨settings, manifest, configured, enough, rfl⟩
          intro fault obstacle
          cases obstacle with
          | survey obstacle =>
              exact clear _ obstacle
          | importPath again barred =>
              rw [configured] at again
              cases again
              exact unbarred _ ⟨_, _, barred, rfl⟩

/-- How an analysis ends that nothing stands in the way of: its table has one
entry for every source, what failed is told in the entries, and there are
warnings of all that was passed over. -/
structure Completes (setting : Setting) (root : String) (settings : Option Settings)
    (report : Report) (notes : List Journal.Note) : Prop where
  configured : settingsResult setting.surroundings.disk root = .ok settings
  collected :
    Survey.IsCollected
      (sourcesUnder setting.surroundings.disk root
        (rulesOf setting.surroundings.disk root setting.wishes settings))
      (Survey.analysisOf setting.surroundings.disk setting.examiner) report.table
  failuresTold :
    ∀ source ∈ sourcesUnder setting.surroundings.disk root
        (rulesOf setting.surroundings.disk root setting.wishes settings),
      ∀ message, Survey.FailsWith setting.surroundings.disk setting.examiner source message →
        (∃ entry, (source.path, entry) ∈ report.table.entries ∧ entry.hasFailed = true ∧
          entry.error = some message) ∧
        ∃ note ∈ notes, note.level = .warning ∧ note.text ∈ Survey.warningsAbout source message
  directoriesTold :
    ∀ directory, Survey.Finding.unreadable directory ∈
        Survey.search setting.surroundings.disk root
          (rulesOf setting.surroundings.disk root setting.wishes settings) →
      Survey.unreadableNote directory ∈ notes
  /-- Settings that say something wrong are as if there were none. -/
  settingsTold :
    ∀ fault, Settings.load setting.surroundings.disk root = .error fault →
      settings = none ∧ Survey.settingsWarning fault ∈ notes

theorem completes_of_settings
    {setting : Setting} {path resolved root : String} {settings : Option Settings}
    {manifest : Option Manifest} {report : Report}
    (kept : setting.surroundings.disk.WellKept)
    (found : setting.surroundings.resolve path = .ok resolved)
    (rooted : Survey.rootOf setting.surroundings resolved = .ok root)
    (configured : settingsResult setting.surroundings.disk root = .ok settings)
    (enough : ¬Survey.workersOf setting.wishes settings < 1)
    (same : report.table =
      (ofDirectory setting.surroundings.disk setting.wishes setting.examiner root settings
        manifest).table) :
    Completes setting root settings report (run setting path none false).outcome.2 := by
  refine ⟨configured, ?_, ?_, ?_, ?_⟩
  · rw [same, ofDirectory, Survey.tableOf_sources kept]
    exact Survey.isCollected_collect (Survey.nodup_sourcesUnder kept root _)
  · intro source listed message fails
    obtain ⟨failed, told, note, noted, warns⟩ := Survey.examine_of_failsWith fails
    refine ⟨⟨_, ?_, failed, told⟩, note, ?_, warns⟩
    · rw [same]
      exact (Survey.mem_entries_ofDirectory_iff kept).mpr ⟨source, listed, rfl⟩
    · exact (takes_run (takes_compose found
        (Survey.takes_survey_source rooted configured enough listed noted))).outcome
  · intro directory unreadable
    exact (takes_run (takes_compose found
      (Survey.takes_survey_unreadable rooted configured unreadable))).outcome
  · intro fault loaded
    have forgiven : fault.isForgiven = true ∧ settings = none := by
      unfold settingsResult at configured
      rw [loaded] at configured
      cases forgiven : fault.isForgiven with
      | true => simpa [forgiven, eq_comm] using configured
      | false => simp [forgiven] at configured
    exact ⟨forgiven.2, (takes_run (takes_compose found
      (Survey.takes_survey_settings rooted loaded forgiven.1))).outcome⟩

/-- The setting of a project whose settings are an octet that begins no
character. -/
def unreadableSetting : Setting where
  surroundings :=
    ⟨.directory true true
        [("project", .directory true true
          [(".stackmap.yml", .file true [0xFF]),
            ("a.js", .file true "export const a = 1;\n".toUTF8.toList)])],
      "/", "/", []⟩
  clock := ""

theorem wellKept_unreadableSetting : unreadableSetting.surroundings.disk.WellKept := by
  simp only [unreadableSetting, Disk.Item.wellKept_directory_iff, List.forall_mem_cons,
    List.not_mem_nil, false_imp_iff, implies_true, and_true, Disk.Item.wellKept_file]
  decide

theorem obstacle_unreadableSetting :
    Obstacle unreadableSetting "/project"
      (.survey (.settings (.notText ⟨0, 1, 0xFF, .badStart⟩))) := by
  have leads :
      Disk.realPath unreadableSetting.surroundings.disk
        (Path.join "/project" Settings.fileName) = .ok "/project/.stackmap.yml" := by
    decide +kernel
  have above :
      Disk.realPath unreadableSetting.surroundings.disk
        (Path.directory "/project/.stackmap.yml") = .ok "/project" := by
    decide +kernel
  have holds :
      Settings.HoldsOctets unreadableSetting.surroundings.disk "/project"
        "/project/.stackmap.yml" [0xFF] :=
    ⟨⟨leads, _, above⟩, by decide +kernel, by decide +kernel⟩
  exact .survey (.settings (.notText holds (by decide +kernel)))

/-- The setting of a project whose settings have a bracket that is not closed. -/
def unclosedSetting : Setting where
  surroundings :=
    ⟨.directory true true
        [("project", .directory true true
          [(".stackmap.yml", .file true "exclude_paths: [oops\n".toUTF8.toList)])],
      "/", "/", []⟩
  clock := ""

theorem wellKept_unclosedSetting : unclosedSetting.surroundings.disk.WellKept := by
  simp only [unclosedSetting, Disk.Item.wellKept_directory_iff, List.forall_mem_cons,
    List.not_mem_nil, false_imp_iff, implies_true, and_true, Disk.Item.wellKept_file]
  decide

theorem composeResult_unclosedSetting :
    (composeResult unclosedSetting "/project").toBool = true := by
  decide +kernel

theorem load_unclosedSetting :
    (Settings.load unclosedSetting.surroundings.disk "/project").toBool = false := by
  decide +kernel

end Analysis

end ModuleAtlas
