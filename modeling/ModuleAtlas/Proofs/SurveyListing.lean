import ModuleAtlas.Proofs.ListingOrder
import ModuleAtlas.Proofs.OrderedLists

/-!
# Surveys and the order of listings

Directories list their entries in any order.  A survey sorts what it comes
upon by name, and in one directory no name comes twice, so the order makes no
difference: neither to the sources and the directories that cannot be read, nor
to the files beside the manifest.
-/

namespace ModuleAtlas.Survey

open Disk (Item Relisted)

/-! ## Branches -/

section

variable {guide : Guide} {enterable : Bool} {path : String}

theorem name_branchOf (entry : String × Item) :
    (branchOf guide enterable path entry).name = entry.1 := by
  unfold branchOf
  split
  · rfl
  · rfl

theorem sortBranches_eq_of_perm
    {branches others : List Branch} (perm : branches.Perm others)
    (nodup : (branches.map (·.name)).Nodup) :
    sortBranches branches = sortBranches others := by
  apply mergeSort_key_eq_of_perm Branch.name perm
  intro left leftMember right rightMember same
  exact List.inj_on_of_nodup_map nodup leftMember rightMember same

/-- Branches with different names are gathered in one way only. -/
theorem gather_eq_of_perm
    {branches others : List Branch} (perm : branches.Perm others)
    (nodup : (branches.map (·.name)).Nodup) :
    gather branches = gather others := by
  have partNodup
      (test : Branch → Bool) : ((branches.filter test).map (·.name)).Nodup :=
    nodup.sublist (List.filter_sublist.map _)
  unfold gather
  dsimp only
  rw [sortBranches_eq_of_perm (perm.filter _) (partNodup _),
    sortBranches_eq_of_perm (perm.filter _) (partNodup _)]

theorem isDirectory_relisted
    {item other : Item} (relisted : Relisted item other) :
    guide.isDirectory path other = guide.isDirectory path item := by
  rcases relisted.eq_or_directories with rfl | ⟨_, _, _, _, rfl, rfl⟩
  · rfl
  · rfl

end

/-- The search comes upon the same things, in the same order, however the
directories list. -/
theorem findings_relisted
    {guide : Guide} {item other : Item}
    (relisted : Relisted item other) (kept : item.WellKept) :
    ∀ reachable path,
      findings guide reachable path other = findings guide reachable path item := by
  induction relisted with
  | refl item =>
      exact fun _ _ => rfl
  | trans first _ before after =>
      intro reachable path
      exact (after (first.wellKept kept) reachable path).trans (before kept reachable path)
  | @reorder listable enterable entries others perm =>
      intro reachable path
      have nodup : ((entries.map (branchOf guide enterable path)).map (·.name)).Nodup := by
        simpa [Function.comp_def, name_branchOf] using
          (Item.wellKept_directory_iff.mp kept).1
      rw [findings, findings, branches_eq_map, branches_eq_map,
        gather_eq_of_perm (perm.map _) nodup]
  | @within listable enterable before after name item other below inductionHypothesis =>
      intro reachable path
      have itemKept : item.WellKept :=
        (Item.wellKept_directory_iff.mp kept).2.2 (name, item) (by simp)
      have sameBranch :
          branchOf guide enterable path (name, other) =
            branchOf guide enterable path (name, item) := by
        unfold branchOf
        rw [isDirectory_relisted below, inductionHypothesis itemKept]
      rw [findings, findings, branches_eq_map, branches_eq_map, List.map_append,
        List.map_append, List.map_cons, List.map_cons, sameBranch]

/-! ## What the search and the survey find -/

section

variable {disk other : Item}

theorem search_relisted
    (relisted : Relisted disk other) (kept : disk.WellKept)
    (root : String) (rules : List Ignore.Rule) :
    search other root rules = search disk root rules := by
  unfold search
  rw [Disk.isDirectory_relisted relisted kept]
  rcases Disk.find_relisted relisted kept root with
    ⟨fault, found, otherFound⟩ | ⟨item, otherItem, found, otherFound, below⟩
  · rw [found, otherFound]
  · rw [found, otherFound]
    exact findings_relisted below (Disk.wellKept_of_find kept found) true ""

/-- What a test that can fail keeps, unless it fails for one of the items. -/
theorem filterAuxM_spec
    {ε α : Type} (test : α → Except ε Bool) (items found : List α) :
    match List.filterAuxM test items found with
    | .error fault => ∃ item ∈ items, test item = .error fault
    | .ok kept =>
        kept = (items.filter fun item => (test item).toOption.getD false).reverse ++ found ∧
          ∀ item ∈ items, ∃ answer, test item = .ok answer := by
  induction items generalizing found with
  | nil =>
      exact ⟨rfl, by simp⟩
  | cons item rest inductionHypothesis =>
      cases own : test item with
      | error fault =>
          simp only [List.filterAuxM, own, bind, Except.bind]
          exact ⟨item, List.mem_cons_self, own⟩
      | ok answer =>
          have ownTest : (test item).toOption.getD false = answer := by
            simp [own, Except.toOption]
          simp only [List.filterAuxM, own, bind, Except.bind]
          have later := inductionHypothesis (cond answer (item :: found) found)
          cases others : List.filterAuxM test rest (cond answer (item :: found) found) with
          | error fault =>
              rw [others] at later
              obtain ⟨other, member, failed⟩ := later
              exact ⟨other, List.mem_cons_of_mem item member, failed⟩
          | ok kept =>
              rw [others] at later
              refine ⟨?_, List.forall_mem_cons.mpr ⟨⟨answer, own⟩, later.2⟩⟩
              rw [later.1, List.filter_cons, ownTest]
              cases answer with
              | true => simp
              | false => simp

/-- Whether a name leads to a file in a directory; a name in trouble leads to
none. -/
def isFileName (disk : Item) (root name : String) : Bool :=
  (Disk.isFile disk (Path.join root name)).toOption.getD false

/-- The names of files among those given, unless one of them is in trouble. -/
theorem fileNamesAmong_spec (disk : Item) (root : String) (names : List String) :
    match fileNamesAmong disk root names with
    | .error trouble =>
        ∃ name ∈ names, Disk.isFile disk (Path.join root name) = .error trouble
    | .ok files =>
        files = names.filter (isFileName disk root) ∧
          ∀ name ∈ names, ∃ answer, Disk.isFile disk (Path.join root name) = .ok answer := by
  have spec :=
    filterAuxM_spec (fun name => Disk.isFile disk (Path.join root name)) names []
  unfold fileNamesAmong List.filterM
  cases filtered :
      List.filterAuxM (fun name => Disk.isFile disk (Path.join root name)) names [] with
  | error trouble =>
      rw [filtered] at spec
      exact spec
  | ok files =>
      rw [filtered] at spec
      refine ⟨?_, spec.2⟩
      rw [spec.1, List.append_nil, List.reverse_reverse]
      rfl

/-- The sorted names of files among those given; none if one of them is in
trouble. -/
def sortedFileNames (disk : Item) (root : String) (names : List String) : List String :=
  match fileNamesAmong disk root names with
  | .ok files => files.mergeSort fun left right => !(right < left)
  | .error _ => []

theorem sortedFileNames_eq_of_perm
    {root : String} {names others : List String} (perm : names.Perm others) :
    sortedFileNames disk root names = sortedFileNames disk root others := by
  have spec := fileNamesAmong_spec disk root names
  have othersSpec := fileNamesAmong_spec disk root others
  unfold sortedFileNames
  cases own : fileNamesAmong disk root names with
  | error trouble =>
      rw [own] at spec
      cases same : fileNamesAmong disk root others with
      | error otherTrouble => rfl
      | ok files =>
          rw [same] at othersSpec
          obtain ⟨name, member, failed⟩ := spec
          obtain ⟨answer, answered⟩ := othersSpec.2 name (perm.mem_iff.mp member)
          rw [failed] at answered
          cases answered
  | ok files =>
      rw [own] at spec
      cases same : fileNamesAmong disk root others with
      | error trouble =>
          rw [same] at othersSpec
          obtain ⟨name, member, failed⟩ := othersSpec
          obtain ⟨answer, answered⟩ := spec.2 name (perm.mem_iff.mpr member)
          rw [failed] at answered
          cases answered
      | ok otherFiles =>
          rw [same] at othersSpec
          have sameFiles : files.Perm otherFiles := by
            rw [spec.1, othersSpec.1]
            exact perm.filter _
          exact mergeSort_eq_of_perm sameFiles

theorem fileNames_of_find
    {root : String} {enterable : Bool} {entries : List (String × Item)}
    (found : Disk.find disk root = .ok (.directory true enterable entries)) :
    fileNames disk root = sortedFileNames disk root (entries.map (·.1)) := by
  rw [fileNames, found]
  rfl

theorem fileNames_relisted
    (relisted : Relisted disk other) (kept : disk.WellKept) (root : String) :
    fileNames other root = fileNames disk root := by
  have sameAnswers (names : List String) :
      sortedFileNames other root names = sortedFileNames disk root names := by
    unfold sortedFileNames fileNamesAmong
    rw [Disk.isFile_relisted relisted kept]
  rcases Disk.find_relisted relisted kept root with
    ⟨fault, found, otherFound⟩ | ⟨item, otherItem, found, otherFound, below⟩
  · rw [fileNames, fileNames, found, otherFound]
  · have names := below.names_perm
    rcases below.eq_or_directories with rfl | ⟨listable, enterable, entries, others, rfl, rfl⟩
    · cases item with
      | directory listable enterable entries =>
          cases listable with
          | true => rw [fileNames_of_find found, fileNames_of_find otherFound, sameAnswers]
          | false => rw [fileNames, fileNames, found, otherFound]
      | file readable octets => rw [fileNames, fileNames, found, otherFound]
      | link target => rw [fileNames, fileNames, found, otherFound]
    · cases listable with
      | true =>
          rw [fileNames_of_find found, fileNames_of_find otherFound, sameAnswers]
          exact sortedFileNames_eq_of_perm names.symm
      | false => rw [fileNames, fileNames, found, otherFound]

end

section

variable {surroundings : Surroundings} {disk : Item}

theorem rootOf_relisted
    (relisted : Relisted surroundings.disk disk) (kept : surroundings.disk.WellKept)
    (path : String) :
    rootOf { surroundings with disk := disk } path = rootOf surroundings path := by
  unfold rootOf Surroundings.resolve
  rw [Disk.realPath_relisted relisted kept, Disk.exists?_relisted relisted kept,
    Disk.isDirectory_relisted relisted kept]
  rfl

theorem settings_load_relisted
    {root : String} {disk other : Item} (relisted : Relisted disk other) (kept : disk.WellKept) :
    Settings.load other root = Settings.load disk root := by
  unfold Settings.load Settings.pathFor
  rw [Disk.realPath_relisted relisted kept, Disk.exists?_relisted relisted kept,
    Disk.isDirectory_relisted relisted kept, Disk.read_relisted relisted kept]

theorem survey_relisted
    (relisted : Relisted surroundings.disk disk) (kept : surroundings.disk.WellKept)
    (wishes : Wishes) (examiner : Examiner) (path : String) :
    survey { surroundings with disk := disk } wishes examiner path =
      survey surroundings wishes examiner path := by
  unfold survey settingsOf rulesOf ignoreFileRules examine Manifest.load Manifest.fieldsAt
  simp only [rootOf_relisted relisted kept, settings_load_relisted relisted kept,
    search_relisted relisted kept, fileNames_relisted relisted kept,
    Disk.exists?_relisted relisted kept, Disk.read_relisted relisted kept]

end

end ModuleAtlas.Survey
