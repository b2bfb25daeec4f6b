import ModuleAtlas.Proofs.AnalysisOutcome

/-!
# Warnings about failures

An analysis goes on where a source or a directory cannot be read, where a text
cannot be parsed, and where the settings of the project say something wrong.  It
warns of each of these, and nothing that comes later takes a warning away.
-/

namespace ModuleAtlas

open Journal
open Journal.Recorded

namespace Survey

/-! ## Sources that fail -/

/-- The analysis of a source fails, with a message. -/
inductive FailsWith (disk : Disk.Item) (examiner : Examiner) (source : Source) : String → Prop
  | unread {trouble : Disk.Trouble} :
      Disk.read disk source.location = .error trouble →
      FailsWith disk examiner source trouble.message
  | notText {octets : List UInt8} {fault : Text.Utf8.Fault} :
      Disk.read disk source.location = .ok octets →
      Text.Utf8.decode octets = .error fault →
      FailsWith disk examiner source fault.message
  /-- The examiner fails, which nobody expects of it. -/
  | unexpected {octets : List UInt8} {text message : String} :
      Disk.read disk source.location = .ok octets →
      Text.Utf8.decode octets = .ok text →
      examiner source text = .error message →
      FailsWith disk examiner source message
  | unparsed {octets : List UInt8} {text message : String} {entry : Entry} :
      Disk.read disk source.location = .ok octets →
      Text.Utf8.decode octets = .ok text →
      examiner source text = .ok entry →
      entry.kind = .unparsed →
      entry.error = some message →
      FailsWith disk examiner source message

/-- The wordings of a warning about a source. -/
def warningsAbout (source : Source) (message : String) : List String :=
  [s!"Unable to read {source.path}: {message}",
    s!"Failed to analyse {source.path}: {message}",
    s!"Failed to parse {source.path}: {message}"]

/-- A source that fails has an entry that tells so, and a warning. -/
theorem examine_of_failsWith
    {disk : Disk.Item} {examiner : Examiner} {source : Source} {message : String}
    (fails : FailsWith disk examiner source message) :
    (examine disk examiner source).1.hasFailed = true ∧
      (examine disk examiner source).1.error = some message ∧
      ∃ note ∈ (examine disk examiner source).2,
        note.level = .warning ∧ note.text ∈ warningsAbout source message := by
  unfold examine
  cases fails with
  | unread held =>
      rw [held]
      exact ⟨rfl, rfl, _, List.mem_singleton_self _, rfl, by simp [warningsAbout]⟩
  | notText held decoded =>
      rw [held]
      dsimp only
      rw [decoded]
      exact ⟨rfl, rfl, _, List.mem_singleton_self _, rfl, by simp [warningsAbout]⟩
  | unexpected held decoded failed =>
      rw [held]
      dsimp only
      rw [decoded]
      dsimp only
      rw [failed]
      exact ⟨rfl, rfl, _, List.mem_singleton_self _, rfl, by simp [warningsAbout]⟩
  | @unparsed octets text message entry held decoded examined isUnparsed told =>
      rw [held]
      dsimp only
      rw [decoded]
      dsimp only
      rw [examined]
      dsimp only
      rw [isUnparsed, told]
      refine ⟨?_, told, _, List.mem_singleton_self _, rfl, by simp [warningsAbout]⟩
      rw [Entry.hasFailed, isUnparsed]
      rfl

/-! ## Warnings of a survey -/

/-- The warning about settings that are passed over. -/
def settingsWarning (fault : Settings.Fault) : Note :=
  ⟨.warning, "scanner", s!"Ignoring invalid configuration: {fault.message}", .main⟩

theorem takes_settingsOf
    {disk : Disk.Item} {root : String} {fault : Settings.Fault}
    (loaded : Settings.load disk root = .error fault) (forgiven : fault.isForgiven = true) :
    Takes (settingsOf disk root) (settingsWarning fault) := by
  unfold settingsOf
  rw [loaded]
  simp only [forgiven, Bool.not_true, Bool.false_eq_true, if_false]
  exact (takes_takeNotes (List.mem_singleton_self _)).bind fun _ => keeps_pure none

section

variable {surroundings : Surroundings} {wishes : Wishes} {examiner : Examiner}
  {path root : String}

/-- The last part of a survey takes no notes away. -/
theorem keeps_examined
    (disk : Disk.Item) (root : String) (settings : Option Settings) (notes : List Note)
    (finish : Option Manifest → Survey) :
    Keeps (do
      if workersOf wishes settings < 1 then throw Fault.tooFewWorkers
      takeNotes notes
      let manifest ← ofExcept ((Manifest.load disk root).mapError Fault.manifest)
      return finish manifest) := by
  have finished : Keeps (takeNotes notes >>= fun _ =>
      ofExcept ((Manifest.load disk root).mapError Fault.manifest) >>= fun manifest =>
        pure (finish manifest)) :=
    (keeps_takeNotes notes).bind fun _ => (keeps_ofExcept _).bind fun _ => keeps_pure _
  by_cases few : workersOf wishes settings < 1
  · simp only [few, if_true]
    exact (keeps_throw Fault.tooFewWorkers).bind fun _ => finished
  · simp only [few, if_false]
    exact finished

theorem takes_survey_settings
    (rooted : rootOf surroundings path = .ok root) {fault : Settings.Fault}
    (loaded : Settings.load surroundings.disk root = .error fault)
    (forgiven : fault.isForgiven = true) :
    Takes (survey surroundings wishes examiner path) (settingsWarning fault) := by
  unfold survey
  refine Takes.afterResult ?_ rooted
  refine (takes_settingsOf loaded forgiven).bind fun settings => ?_
  refine (keeps_takeNotes _).bind fun _ => (keeps_takeNotes _).bind fun _ => ?_
  exact keeps_examined _ _ _ _ _

theorem takes_survey_unreadable
    (rooted : rootOf surroundings path = .ok root) {settings : Option Settings}
    (configured : settingsResult surroundings.disk root = .ok settings) {directory : String}
    (unreadable : Finding.unreadable directory ∈
      search surroundings.disk root (rulesOf surroundings.disk root wishes settings)) :
    Takes (survey surroundings wishes examiner path) (unreadableNote directory) := by
  have listed : unreadableNote directory ∈
      ((search surroundings.disk root (rulesOf surroundings.disk root wishes settings)).filterMap
        Finding.unreadable?).map unreadableNote :=
    List.mem_map_of_mem (List.mem_filterMap.mpr ⟨_, unreadable, rfl⟩)
  unfold survey
  refine Takes.afterResult ?_ rooted
  refine Takes.after ?_ (configured ▸ settingsOf_gives surroundings.disk root)
  refine (takes_takeNotes listed).bind fun _ => (keeps_takeNotes _).bind fun _ => ?_
  exact keeps_examined _ _ _ _ _

theorem takes_survey_source
    (rooted : rootOf surroundings path = .ok root) {settings : Option Settings}
    (configured : settingsResult surroundings.disk root = .ok settings)
    (enough : ¬workersOf wishes settings < 1) {source : Source}
    (listed : source ∈ sourcesUnder surroundings.disk root
      (rulesOf surroundings.disk root wishes settings))
    {note : Note} (noted : note ∈ (examine surroundings.disk examiner source).2) :
    Takes (survey surroundings wishes examiner path) note := by
  unfold survey
  refine Takes.afterResult ?_ rooted
  refine Takes.after ?_ (configured ▸ settingsOf_gives surroundings.disk root)
  refine Takes.afterNotes (Takes.afterNotes ?_)
  simp only [enough, if_false]
  refine Takes.bind (takes_takeNotes ?_) fun _ => (keeps_ofExcept _).bind fun _ => keeps_pure _
  rw [List.flatMap_map]
  exact List.mem_flatMap.mpr ⟨source, listed, noted⟩

end

end Survey

namespace Analysis

/-! ## Warnings of an analysis -/

theorem keeps_graphOf (disk : Disk.Item) (survey : Survey) :
    Keeps (graphOf disk survey) :=
  (keeps_takeNotes _).bind fun _ => (keeps_ofExcept _).bind fun graph =>
    (keeps_takeNotes _).bind fun _ => keeps_pure graph

theorem keeps_patternsOf (graph : Graph) : Keeps (patternsOf graph) :=
  (keeps_ofExcept _).bind fun patterns => (keeps_takeNotes _).bind fun _ => keeps_pure patterns

theorem keeps_issuesOf (survey : Survey) (patterns : Graph.Patterns) :
    Keeps (issuesOf survey patterns) :=
  (keeps_takeNotes _).bind fun _ => keeps_pure _

theorem takes_compose
    {setting : Setting} {path resolved : String} {note : Note}
    (found : setting.surroundings.resolve path = .ok resolved)
    (takes : Takes
      (Survey.survey setting.surroundings setting.wishes setting.examiner resolved) note) :
    Takes (compose setting path) note := by
  have foundHere : (setting.surroundings.resolve path).mapError Fault.lost = .ok resolved := by
    rw [found, mapError_ok]
  unfold compose
  refine Takes.afterResult (Takes.afterNotes ?_) foundHere
  refine (takes.adapt Fault.survey).bind fun survey => ?_
  refine (keeps_takeNotes _).bind fun _ => (keeps_graphOf _ survey).bind fun graph => ?_
  refine (keeps_patternsOf graph).bind fun patterns => ?_
  refine (keeps_issuesOf survey patterns).bind fun issues => ?_
  exact (keeps_takeNotes _).bind fun _ => keeps_pure _

/-- The notes about a project are those of its analysis, whether a report comes
of it or not. -/
theorem takes_run
    {setting : Setting} {path : String} {note : Note} (takes : Takes (compose setting path) note) :
    Takes (run setting path none false) note := by
  have noted := takes.outcome
  unfold run resultOf
  dsimp only
  rcases composed : (compose setting path).outcome with ⟨result, notes⟩
  rw [composed] at noted
  cases result with
  | error fault =>
      exact (takes_takeNotes noted).bind fun _ => (keeps_takeNotes _).bind fun _ => keeps_pure _
  | ok report =>
      exact (takes_takeNotes noted).bind fun _ => keeps_pure _

end Analysis

end ModuleAtlas
