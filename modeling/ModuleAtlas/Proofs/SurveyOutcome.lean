import ModuleAtlas.Proofs.KeyedLists
import ModuleAtlas.Proofs.RecordedOutcomes
import ModuleAtlas.Survey.Basic

/-!
# The outcome of a survey

What a survey comes to, without the notes that it takes on the way.
-/

namespace ModuleAtlas.Survey

open Journal
open Journal.Recorded

theorem isDirectory_of_rootOf
    {surroundings : Surroundings} {path root : String}
    (rooted : rootOf surroundings path = .ok root) :
    Disk.isDirectory surroundings.disk root = .ok true := by
  obtain ⟨found, _, rooted⟩ := bind_eq_ok_iff.mp rooted
  obtain ⟨standing, _, rooted⟩ := bind_eq_ok_iff.mp rooted
  cases standing with
  | false => cases rooted
  | true =>
      obtain ⟨entered, enters, rooted⟩ := bind_eq_ok_iff.mp rooted
      cases entered with
      | false => cases rooted
      | true =>
          cases rooted
          exact mapError_eq_ok_iff.mp enters

/-- The settings that a survey goes by, or the fault in them that nothing
forgives. -/
def settingsResult (disk : Disk.Item) (root : String) :
    Except Fault (Option Settings) :=
  match Settings.load disk root with
  | .ok settings => .ok (some settings)
  | .error fault =>
      if fault.isForgiven then .ok none else .error (.settings fault)

theorem settingsOf_gives (disk : Disk.Item) (root : String) :
    Gives (settingsOf disk root) (settingsResult disk root) := by
  unfold settingsOf settingsResult
  cases Settings.load disk root with
  | ok settings =>
      exact gives_pure (some settings)
  | error fault =>
      dsimp only
      cases fault.isForgiven with
      | true =>
          exact Gives.afterNote (gives_pure none)
      | false =>
          exact gives_throw_bind (Fault.settings fault) _

theorem rulesOf_of_computed
    {disk : Disk.Item} {root : String} {wishes : Wishes} {settings : Option Settings}
    {rules : List Ignore.Rule}
    (computed : (settingsResult disk root).map (rulesOf disk root wishes) = .ok rules)
    (configured : settingsResult disk root = .ok settings) :
    rulesOf disk root wishes settings = rules := by
  rw [configured] at computed
  exact Except.ok.inj computed

/-- The sources that a search finds under a directory. -/
def sourcesUnder (disk : Disk.Item) (root : String) (rules : List Ignore.Rule) :
    List Source :=
  (search disk root rules).filterMap Finding.source?

/-- The survey of a directory, once its settings and its manifest are known. -/
def ofDirectory (disk : Disk.Item) (wishes : Wishes) (examiner : Examiner)
    (root : String) (settings : Option Settings) (manifest : Option Manifest) :
    Survey :=
  let rules := rulesOf disk root wishes settings
  let names := fileNames disk root
  { root := root
    table := tableOf ((sourcesUnder disk root rules).map fun source =>
      (source.path, (examine disk examiner source).1))
    manifest := manifest
    markers := names.filter isMarker
    lockFiles := Package.lockFiles.filter names.contains
    unreadable :=
      ((search disk root rules).filterMap Finding.unreadable?).mergeSort
        fun left right => !(right < left) }

/-- What a survey comes to. -/
def surveyResult (surroundings : Surroundings) (wishes : Wishes)
    (examiner : Examiner) (path : String) : Except Fault Survey := do
  let root ← rootOf surroundings path
  let settings ← settingsResult surroundings.disk root
  if workersOf wishes settings < 1 then .error .tooFewWorkers
  else do
    let manifest ← (Manifest.load surroundings.disk root).mapError .manifest
    return ofDirectory surroundings.disk wishes examiner root settings manifest

theorem survey_gives
    (surroundings : Surroundings) (wishes : Wishes) (examiner : Examiner)
    (path : String) :
    Gives (survey surroundings wishes examiner path)
      (surveyResult surroundings wishes examiner path) := by
  unfold survey surveyResult
  refine (gives_ofExcept _).bind fun root _ => ?_
  refine (settingsOf_gives _ root).bind fun settings _ => ?_
  refine Gives.afterNotes (Gives.afterNote ?_)
  by_cases few : workersOf wishes settings < 1
  · simp only [few, if_true]
    exact gives_throw_bind Fault.tooFewWorkers _
  · simp only [few, if_false]
    refine Gives.afterNotes ((gives_ofExcept _).bind fun manifest _ => ?_)
    simp only [List.map_map, Function.comp_def]
    exact gives_pure (ofDirectory surroundings.disk wishes examiner root settings manifest)

/-- A survey that succeeds is that of a directory whose settings can be used. -/
theorem ofDirectory_of_surveyResult
    {surroundings : Surroundings} {wishes : Wishes} {examiner : Examiner}
    {path : String} {result : Survey}
    (surveyed : surveyResult surroundings wishes examiner path = .ok result) :
    ∃ root settings manifest,
      rootOf surroundings path = .ok root ∧
        settingsResult surroundings.disk root = .ok settings ∧
        result = ofDirectory surroundings.disk wishes examiner root settings manifest := by
  obtain ⟨root, rooted, surveyed⟩ := bind_eq_ok_iff.mp surveyed
  obtain ⟨settings, configured, surveyed⟩ := bind_eq_ok_iff.mp surveyed
  by_cases few : workersOf wishes settings < 1
  · rw [if_pos few] at surveyed
    cases surveyed
  · rw [if_neg few] at surveyed
    obtain ⟨manifest, _, surveyed⟩ := bind_eq_ok_iff.mp surveyed
    cases surveyed
    exact ⟨root, settings, manifest, rooted, configured, rfl⟩

/-- The root of a survey that succeeds is the one that was looked up. -/
theorem exists_survey_at_root
    {surroundings : Surroundings} {wishes : Wishes} {examiner : Examiner}
    {path root : String}
    (succeeds : (surveyResult surroundings wishes examiner path).toBool = true)
    (rooted : rootOf surroundings path = .ok root) :
    ∃ result, (survey surroundings wishes examiner path).outcome.1 = .ok result ∧
      result.root = root := by
  rw [(survey_gives surroundings wishes examiner path).outcome]
  cases surveyed : surveyResult surroundings wishes examiner path with
  | error fault =>
      rw [surveyed] at succeeds
      cases succeeds
  | ok result =>
      obtain ⟨other, settings, manifest, found, _, rfl⟩ :=
        ofDirectory_of_surveyResult surveyed
      rw [rooted] at found
      cases found
      exact ⟨_, rfl, rfl⟩

/-- The paths of a table are those of the files that it was made of. -/
theorem mem_paths_tableOf
    {files : List (String × Entry)} {path : String} :
    path ∈ (tableOf files).paths ↔ path ∈ files.map (·.1) := by
  have folded :=
    @Json.mem_keys_foldl_putField String Entry _ (String × Entry) []
      (files.mergeSort fun left right => !(right.1 < left.1)) (·.1) (·.2) path
  rw [List.map_nil, List.mem_nil_iff, false_or] at folded
  refine folded.trans ?_
  exact ((List.mergeSort_perm files _).map _).mem_iff

end ModuleAtlas.Survey
