import ModuleAtlas.Proofs.SurveyListing

/-!
# Surveys and the order in which sources are done

The sources of a project are analysed side by side and are done in any order.
Each puts its entry under its own path, and no two have the same path, so once
the paths are sorted the order is forgotten.  An analysis that fails leaves an
entry that tells so, and every entry depends on the analysis of its own source
only.
-/

namespace ModuleAtlas.Survey

open Disk (Item Relisted)

/-! ## Analyses -/

/-- What the analysis of a source comes to: its entry, or the text of a failure
that nobody expects. -/
def analysisOf (disk : Item) (examiner : Examiner) (source : Source) : Except String Entry :=
  match Disk.read disk source.location with
  | .error trouble => .ok (Entry.unreadable source.path trouble.message)
  | .ok octets =>
      match Text.Utf8.decode octets with
      | .error fault => .ok (Entry.unreadable source.path fault.message)
      | .ok text => examiner source text

/-- The entry of a source whose analysis is done. -/
def entryFor (source : Source) : Except String Entry → Entry
  | .ok entry => entry
  | .error message => Entry.unparsed source.path message

theorem examine_eq_entryFor (disk : Item) (examiner : Examiner) (source : Source) :
    (examine disk examiner source).1 =
      entryFor source (analysisOf disk examiner source) := by
  unfold examine analysisOf
  cases Disk.read disk source.location with
  | error trouble =>
      rfl
  | ok octets =>
      dsimp only
      cases Text.Utf8.decode octets with
      | error fault =>
          rfl
      | ok text =>
          dsimp only
          cases examiner source text with
          | error message =>
              rfl
          | ok entry =>
              dsimp only
              split
              · rfl
              · rfl

/-! ## Sources that are done one after another -/

section

variable (outcome : Source → Except String Entry)

/-- One more source is done: its entry is put under its path. -/
def settle (known : List (String × Entry)) (source : Source) : List (String × Entry) :=
  Json.putField known source.path (entryFor source (outcome source))

/-- The table of sources that are done in the given order: in the end the paths
are sorted. -/
def collect (completed : List Source) : Table :=
  ⟨(completed.foldl (settle outcome) []).mergeSort fun left right => !(right.1 < left.1)⟩

/-- The entries for sources with their paths. -/
def settled (sources : List Source) : List (String × Entry) :=
  sources.map fun source => (source.path, entryFor source (outcome source))

variable {outcome}

theorem keys_settled (sources : List Source) :
    (settled outcome sources).map (·.1) = sources.map (·.path) := by
  simp [settled, Function.comp_def]

/-- Sources with different paths do not get into each other's way. -/
theorem entries_collect
    {completed : List Source} (nodup : (completed.map (·.path)).Nodup) :
    (collect outcome completed).entries =
      (settled outcome completed).mergeSort fun left right => !(right.1 < left.1) := by
  have listed : completed.foldl (settle outcome) [] = settled outcome completed :=
    @Json.foldl_putField_of_nodup String Entry _ Source [] completed (·.path)
      (fun source => entryFor source (outcome source)) nodup
  rw [collect, listed]

theorem collect_eq_of_perm
    {completed sources : List Source} (perm : completed.Perm sources)
    (nodup : (sources.map (·.path)).Nodup) :
    collect outcome completed = collect outcome sources := by
  have completedNodup : (completed.map (·.path)).Nodup :=
    ((perm.map (·.path)).nodup_iff).mpr nodup
  have sameEntries :
      (collect outcome completed).entries = (collect outcome sources).entries := by
    rw [entries_collect completedNodup, entries_collect nodup]
    apply mergeSort_key_eq_of_perm Prod.fst (perm.map _)
    intro left leftMember right rightMember same
    have keysNodup : ((settled outcome completed).map (·.1)).Nodup := by
      rw [keys_settled]
      exact completedNodup
    exact List.inj_on_of_nodup_map keysNodup leftMember rightMember same
  exact congrArg Table.mk sameEntries

/-- A table of sources whose analyses came to the given outcomes. -/
structure IsCollected (sources : List Source) (outcome : Source → Except String Entry)
    (table : Table) : Prop where
  /-- The paths are strictly increasing. -/
  ordered : table.paths.Pairwise (· < ·)
  /-- Every source has one entry, and there are no others. -/
  complete : table.paths.Perm (sources.map (·.path))
  returned : ∀ source ∈ sources, ∀ entry, outcome source = .ok entry →
    table.entries.lookup source.path = some entry
  failed : ∀ source ∈ sources, ∀ message, outcome source = .error message →
    table.entries.lookup source.path =
      some { path := source.path, kind := .unparsed,
             summary := "Failed to parse: " ++ message, error := some message }

theorem isCollected_collect
    {sources : List Source} (nodup : (sources.map (·.path)).Nodup) :
    IsCollected sources outcome (collect outcome sources) := by
  have keysNodup : ((settled outcome sources).map (·.1)).Nodup := by
    rw [keys_settled]
    exact nodup
  have perm :
      (collect outcome sources).entries.Perm (settled outcome sources) := by
    rw [entries_collect nodup]
    exact List.mergeSort_perm _ _
  have pathsPerm : (collect outcome sources).paths.Perm (sources.map (·.path)) := by
    have mapped := perm.map (·.1)
    rwa [keys_settled] at mapped
  have entryOf :
      ∀ source ∈ sources,
        (collect outcome sources).entries.lookup source.path =
          some (entryFor source (outcome source)) := by
    intro source member
    rw [lookup_eq_some_iff_mem ((pathsPerm.nodup_iff).mpr nodup), perm.mem_iff]
    exact List.mem_map.mpr ⟨source, member, rfl⟩
  refine ⟨?_, pathsPerm, ?_, ?_⟩
  · rw [Table.paths, entries_collect nodup]
    exact pairwise_lt_mergeSort_key Prod.fst keysNodup
  · intro source member entry returned
    rw [entryOf source member, returned]
    rfl
  · intro source member message failed
    rw [entryOf source member, failed]
    rfl

end

/-- The table of files with different paths lists them by their paths. -/
theorem entries_tableOf
    {files : List (String × Entry)} (nodup : (files.map (·.1)).Nodup) :
    (tableOf files).entries = files.mergeSort fun left right => !(right.1 < left.1) := by
  have sortedNodup :
      ((files.mergeSort fun left right => !(right.1 < left.1)).map (·.1)).Nodup :=
    (((List.mergeSort_perm files _).map _).nodup_iff).mpr nodup
  have listed :=
    @Json.foldl_putField_of_nodup String Entry _ (String × Entry) []
      (files.mergeSort fun left right => !(right.1 < left.1)) (·.1) (·.2) sortedNodup
  rw [tableOf, listed]
  simp

/-! ## The sources of a survey -/

theorem nodup_sourcesUnder
    {disk : Item} (kept : disk.WellKept) (root : String) (rules : List Ignore.Rule) :
    ((sourcesUnder disk root rules).map (·.path)).Nodup := by
  cases found : Disk.find disk root with
  | error fault =>
      simp [sourcesUnder, search, found]
  | ok tree =>
      have wellNamed := (Disk.wellKept_of_find kept found).wellNamed
      rw [sourcesUnder, search_of_find found]
      exact nodup_sourcePaths (guideOf disk root rules) tree "" wellNamed

/-- The entries of a survey are those of its sources. -/
theorem mem_entries_ofDirectory_iff
    {disk : Item} (kept : disk.WellKept) {wishes : Wishes} {examiner : Examiner}
    {root : String} {settings : Option Settings} {manifest : Option Manifest}
    {file : String × Entry} :
    file ∈ (ofDirectory disk wishes examiner root settings manifest).table.entries ↔
      ∃ source ∈ sourcesUnder disk root (rulesOf disk root wishes settings),
        (source.path, (examine disk examiner source).1) = file := by
  have nodup := nodup_sourcesUnder kept root (rulesOf disk root wishes settings)
  have listed :=
    @entries_tableOf
      ((sourcesUnder disk root (rulesOf disk root wishes settings)).map fun source =>
        (source.path, (examine disk examiner source).1))
      (by rwa [List.map_map])
  rw [ofDirectory, listed, List.mem_mergeSort, List.mem_map]

theorem mem_entries_of_survey
    {surroundings : Surroundings} {wishes : Wishes} {examiner : Examiner}
    {path : String} {result : Survey} (kept : surroundings.disk.WellKept)
    (surveyed : (survey surroundings wishes examiner path).outcome.1 = .ok result) :
    ∃ settings, settingsResult surroundings.disk result.root = .ok settings ∧
      ∀ source ∈ sourcesUnder surroundings.disk result.root
          (rulesOf surroundings.disk result.root wishes settings),
        (source.path, (examine surroundings.disk examiner source).1) ∈
          result.table.entries := by
  rw [(survey_gives surroundings wishes examiner path).outcome] at surveyed
  obtain ⟨root, settings, manifest, _, configured, rfl⟩ :=
    ofDirectory_of_surveyResult surveyed
  refine ⟨settings, configured, ?_⟩
  intro source member
  exact (mem_entries_ofDirectory_iff kept).mpr ⟨source, member, rfl⟩

/-- The table of a survey is that of its sources, done in any order. -/
theorem tableOf_sources
    {disk : Item} (kept : disk.WellKept) (root : String) (rules : List Ignore.Rule)
    (examiner : Examiner) :
    tableOf ((sourcesUnder disk root rules).map fun source =>
        (source.path, (examine disk examiner source).1)) =
      collect (analysisOf disk examiner) (sourcesUnder disk root rules) := by
  have nodup := nodup_sourcesUnder kept root rules
  simp only [examine_eq_entryFor]
  have sameEntries :
      (tableOf (settled (analysisOf disk examiner) (sourcesUnder disk root rules))).entries =
        (collect (analysisOf disk examiner) (sourcesUnder disk root rules)).entries := by
    rw [entries_collect nodup]
    apply entries_tableOf
    rw [keys_settled]
    exact nodup
  exact congrArg Table.mk sameEntries

/-- Whether a survey succeeds does not depend on what the analyses come to. -/
theorem surveyResult_examiner
    {surroundings : Surroundings} {wishes : Wishes} {examiner : Examiner}
    {path : String} {result : Survey}
    (surveyed : surveyResult surroundings wishes examiner path = .ok result) :
    ∃ root settings manifest,
      settingsResult surroundings.disk root = .ok settings ∧
        ∀ other, surveyResult surroundings wishes other path =
          .ok (ofDirectory surroundings.disk wishes other root settings manifest) := by
  obtain ⟨root, rooted, surveyed⟩ := bind_eq_ok_iff.mp surveyed
  obtain ⟨settings, configured, surveyed⟩ := bind_eq_ok_iff.mp surveyed
  by_cases few : workersOf wishes settings < 1
  · rw [if_pos few] at surveyed
    cases surveyed
  · rw [if_neg few] at surveyed
    obtain ⟨manifest, loaded, _⟩ := bind_eq_ok_iff.mp surveyed
    refine ⟨root, settings, manifest, configured, ?_⟩
    intro other
    refine bind_eq_ok_iff.mpr ⟨root, rooted, bind_eq_ok_iff.mpr ⟨settings, configured, ?_⟩⟩
    rw [if_neg few]
    exact bind_eq_ok_iff.mpr ⟨manifest, loaded, rfl⟩

/-- A survey comes to the same however the directories list, and its table is
the same in whatever order its sources are done.  The table has one entry for
each source, which is what its own analysis came to; nothing else in the survey
depends on the analyses. -/
theorem survey_independent_of_order
    {surroundings : Surroundings} {disk : Item}
    (kept : surroundings.disk.WellKept) (relisted : Relisted surroundings.disk disk)
    (wishes : Wishes) (examiner : Examiner) (path : String) :
    survey { surroundings with disk := disk } wishes examiner path =
        survey surroundings wishes examiner path ∧
      ∀ result, (survey surroundings wishes examiner path).outcome.1 = .ok result →
        ∃ settings sources,
          settingsResult surroundings.disk result.root = .ok settings ∧
            sources = sourcesUnder surroundings.disk result.root
              (rulesOf surroundings.disk result.root wishes settings) ∧
            (∀ other : Examiner,
              (survey surroundings wishes other path).outcome.1 =
                .ok { result with
                  table := collect (analysisOf surroundings.disk other) sources }) ∧
            ∀ outcome,
              IsCollected sources outcome (collect outcome sources) ∧
                ∀ completed, completed.Perm sources →
                  collect outcome completed = collect outcome sources := by
  refine ⟨survey_relisted relisted kept wishes examiner path, ?_⟩
  intro result surveyed
  rw [(survey_gives surroundings wishes examiner path).outcome] at surveyed
  obtain ⟨root, settings, manifest, configured, analysed⟩ := surveyResult_examiner surveyed
  rw [analysed examiner] at surveyed
  cases surveyed
  have nodup :=
    nodup_sourcesUnder kept root (rulesOf surroundings.disk root wishes settings)
  refine ⟨settings, _, configured, rfl, ?_, ?_⟩
  · intro other
    rw [(survey_gives surroundings wishes other path).outcome, analysed other,
      ← tableOf_sources kept]
    rfl
  · intro outcome
    refine ⟨isCollected_collect nodup, ?_⟩
    intro completed perm
    exact collect_eq_of_perm perm nodup

/-! ## A project that is listed in another order -/

/-- The project of `sampleSurroundings` as directories might list it on another
day. -/
def relistedSample : Item :=
  .directory true true
    [("project", .directory true true
      [("lib", .directory true true [("notes.txt", .file true []), ("a.TS", .file true [])]),
        ("lost.js", .link "nowhere"),
        ("node_modules", .directory true true [("b.js", .file true [])])])]

/-- An examiner that fails for every script. -/
def failingExaminer : Examiner :=
  fun _ _ => .error "too deep"

theorem wellKept_sampleSurroundings : sampleSurroundings.disk.WellKept := by
  simp only [sampleSurroundings, sampleProject, Item.wellKept_directory_iff,
    List.forall_mem_cons, List.not_mem_nil, false_imp_iff, implies_true, and_true,
    Item.wellKept_file, Item.wellKept_link]
  decide

theorem relisted_sampleSurroundings :
    Relisted sampleSurroundings.disk relistedSample := by
  have inLib :
      Relisted (.directory true true [("a.TS", .file true []), ("notes.txt", .file true [])])
        (.directory true true [("notes.txt", .file true []), ("a.TS", .file true [])]) :=
    Relisted.reorder (List.Perm.swap _ _ _)
  have inProject : Relisted sampleProject
      (.directory true true
        [("lib", .directory true true [("notes.txt", .file true []), ("a.TS", .file true [])]),
          ("lost.js", .link "nowhere"),
          ("node_modules", .directory true true [("b.js", .file true [])])]) :=
    (@Relisted.within true true [] _ "lib" _ _ inLib).trans
      (Relisted.reorder (List.Perm.cons _ (List.Perm.swap _ _ _)))
  exact @Relisted.within true true [] _ "project" _ _ inProject

/-- The script of the project. -/
def sampleScript : Source :=
  ⟨"lib/a.TS", "/project/lib/a.TS", ".ts"⟩

theorem mem_sourcesUnder_sampleSurroundings :
    sampleScript ∈ sourcesUnder sampleSurroundings.disk "/project" [] := by
  have found : Disk.find sampleSurroundings.disk "/project" = .ok sampleProject := rfl
  refine List.mem_filterMap.mpr ⟨Finding.source sampleScript, ?_, rfl⟩
  rw [search_of_find found, source_mem_findings_iff]
  refine ⟨["lib"], "a.TS", ⟨.file true [], ?_, rfl⟩, by decide, by decide, trivial⟩
  exact Item.Reaches.into List.mem_cons_self (fun _ => rfl)
    (Item.Reaches.into List.mem_cons_self (fun _ => rfl) (Item.Reaches.here _))

theorem analysisOf_failingExaminer :
    analysisOf sampleSurroundings.disk failingExaminer sampleScript = .error "too deep" := by
  have read : Disk.read sampleSurroundings.disk sampleScript.location = .ok [] := rfl
  have decoded : Text.Utf8.decode [] = .ok "" := by decide +kernel
  rw [analysisOf, read]
  dsimp only
  rw [decoded]
  rfl

theorem survey_independent_of_order_sampleProject :
    sampleSurroundings.disk.WellKept ∧
      Relisted sampleSurroundings.disk relistedSample ∧
      survey { sampleSurroundings with disk := relistedSample } {} usualExaminer "/project" =
        survey sampleSurroundings {} usualExaminer "/project" ∧
      ∃ result,
        (survey sampleSurroundings {} failingExaminer "/project").outcome.1 = .ok result ∧
          result.table.entries.lookup "lib/a.TS" =
            some { path := "lib/a.TS", kind := .unparsed,
                   summary := "Failed to parse: too deep", error := some "too deep" } := by
  have kept := wellKept_sampleSurroundings
  have relisted := relisted_sampleSurroundings
  obtain ⟨usual, surveyed, rooted⟩ := survey_sampleSurroundings
  obtain ⟨same, found⟩ :=
    survey_independent_of_order kept relisted {} usualExaminer "/project"
  refine ⟨kept, relisted, same, ?_⟩
  obtain ⟨settings, sources, configured, rfl, analysed, collected⟩ := found usual surveyed
  refine ⟨_, analysed failingExaminer, ?_⟩
  rw [rooted] at configured ⊢
  have computed :
      (settingsResult sampleSurroundings.disk "/project").map
        (rulesOf sampleSurroundings.disk "/project" {}) = .ok [] := by
    decide +kernel
  have rules := rulesOf_of_computed computed configured
  have entry :=
    (collected (analysisOf sampleSurroundings.disk failingExaminer)).1.failed
  rw [rooted, rules] at entry
  rw [rules]
  exact entry _ mem_sourcesUnder_sampleSurroundings "too deep" analysisOf_failingExaminer

end ModuleAtlas.Survey
