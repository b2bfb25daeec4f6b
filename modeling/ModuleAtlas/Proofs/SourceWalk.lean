import Mathlib.Data.List.Nodup
import Mathlib.Data.List.Flatten
import ModuleAtlas.Proofs.PathText
import ModuleAtlas.Proofs.SurveyOutcome

/-!
# Exactness of the search for sources

The search leaves out directories while it goes down, so what it finds depends
on every directory on the way.  Here the findings are told path by path: which
names lead from the directory that is searched to a source, what is asked of
the directories on the way and what of the source itself.  In a tree with
proper names every source is found once.
-/

namespace ModuleAtlas

/-! ## Trees of directories -/

namespace Disk.Item

/-- What holds of files and links, and of a directory if it holds of all its
entries, holds of every item. -/
theorem induction
    {motive : Item → Prop}
    (file : ∀ readable octets, motive (.file readable octets))
    (link : ∀ target, motive (.link target))
    (directory : ∀ listable enterable entries,
      (∀ entry ∈ entries, motive entry.2) → motive (.directory listable enterable entries)) :
    ∀ item, motive item :=
  @Item.rec motive (fun entries => ∀ entry ∈ entries, motive entry.2)
    (fun entry => motive entry.2) file directory link
    (by simp)
    (by
      intro head tail headHolds tailHolds entry member
      rcases List.mem_cons.mp member with equal | later
      · exact equal ▸ headHolds
      · exact tailHolds entry later)
    (fun _ _ holds => holds)

/-- The names lead from `tree` to `item`: every directory on the way tells its
entries, and can be entered where the way goes on below an entry. No link is
followed. -/
inductive Reaches : Item → List String → Item → Prop
  | here (item : Item) :
      Reaches item [] item
  | into {enterable : Bool} {entries : List (String × Item)} {name : String}
      {child item : Item} {names : List String} :
      (name, child) ∈ entries →
      (names ≠ [] → enterable = true) →
      Reaches child names item →
      Reaches (.directory true enterable entries) (name :: names) item

theorem reaches_nil_iff {tree item : Item} :
    Reaches tree [] item ↔ tree = item := by
  constructor
  · intro reaches
    cases reaches
    rfl
  · rintro rfl
    exact Reaches.here tree

theorem reaches_cons_iff
    {enterable : Bool} {entries : List (String × Item)} {name : String}
    {names : List String} {item : Item} :
    Reaches (.directory true enterable entries) (name :: names) item ↔
      ∃ child, (name, child) ∈ entries ∧ (names ≠ [] → enterable = true) ∧
        Reaches child names item := by
  constructor
  · intro reaches
    cases reaches with
    | into member entered further => exact ⟨_, member, entered, further⟩
  · intro given
    obtain ⟨child, member, entered, further⟩ := given
    exact Reaches.into member entered further

/-- Only a directory leads further. -/
theorem Reaches.isDirectory
    {tree item : Item} {name : String} {names : List String}
    (reaches : Reaches tree (name :: names) item) :
    ∃ enterable entries, tree = .directory true enterable entries := by
  cases reaches with
  | into _ _ _ => exact ⟨_, _, rfl⟩

/-- In every directory that is reached the names are proper, and no two are equal. -/
def WellNamed (tree : Item) : Prop :=
  ∀ names enterable entries, Reaches tree names (.directory true enterable entries) →
    (entries.map (·.1)).Nodup ∧ ∀ entry ∈ entries, Path.IsName entry.1

theorem WellNamed.child
    {entries : List (String × Item)} {entry : String × Item}
    (wellNamed : WellNamed (.directory true true entries))
    (member : entry ∈ entries) :
    WellNamed entry.2 := by
  intro names enterable below reaches
  exact wellNamed (entry.1 :: names) enterable below
    (Reaches.into member (fun _ => rfl) reaches)

@[simp]
theorem wellNamed_file (readable : Bool) (octets : List UInt8) :
    WellNamed (.file readable octets) := by
  intro names enterable entries reaches
  cases reaches

@[simp]
theorem wellNamed_link (target : String) : WellNamed (.link target) := by
  intro names enterable entries reaches
  cases reaches

/-- A directory that can be entered is well-named if its own names are proper and
distinct and its entries are well-named. -/
theorem wellNamed_directory_iff {entries : List (String × Item)} :
    WellNamed (.directory true true entries) ↔
      ((entries.map (·.1)).Nodup ∧ ∀ entry ∈ entries, Path.IsName entry.1) ∧
        ∀ entry ∈ entries, WellNamed entry.2 := by
  constructor
  · intro wellNamed
    exact ⟨wellNamed [] true entries (Reaches.here _), fun entry => wellNamed.child⟩
  · rintro ⟨own, children⟩ names enterable below reaches
    cases reaches with
    | here _ => exact own
    | into member _ further => exact children _ member _ enterable below further

/-- All names on the way to an item of a well-named tree are proper. -/
theorem WellNamed.isName
    {tree item : Item} {names : List String}
    (wellNamed : WellNamed tree) (reaches : Reaches tree names item) :
    ∀ name ∈ names, Path.IsName name := by
  induction reaches with
  | here _ =>
      simp
  | @into enterable entries name child item names member entered _ inductionHypothesis =>
      have own := wellNamed [] enterable entries (Reaches.here _)
      intro other otherMember
      rcases List.mem_cons.mp otherMember with equal | later
      · exact equal ▸ own.2 (name, child) member
      · have enterable := entered (List.ne_nil_of_mem later)
        subst enterable
        exact inductionHypothesis (wellNamed.child member) other later

end Disk.Item

namespace Survey

open Disk (Item)
open Disk.Item

/-! ## Paths of entries -/

/-- The path that names lead to from a directory with the given path. -/
def placeOf (path : String) (names : List String) : String :=
  names.foldl entryPath path

@[simp]
theorem placeOf_nil (path : String) : placeOf path [] = path := rfl

@[simp]
theorem placeOf_cons (path name : String) (names : List String) :
    placeOf path (name :: names) = placeOf (entryPath path name) names := rfl

theorem entryPath_empty (name : String) : entryPath "" name = name := by
  simp [entryPath]

theorem entryPath_of_ne_empty
    {path : String} (nonempty : path ≠ "") (name : String) :
    entryPath path name = path ++ "/" ++ name := by
  rw [entryPath, if_neg (by simpa using nonempty)]
  rfl

theorem placeOf_of_ne_empty
    {path : String} (nonempty : path ≠ "") {names : List String}
    (someName : names ≠ []) :
    placeOf path names = path ++ "/" ++ Path.ofComponents names := by
  induction names generalizing path with
  | nil =>
      exact absurd rfl someName
  | cons name rest inductionHypothesis =>
      have joined : entryPath path name = path ++ "/" ++ name :=
        entryPath_of_ne_empty nonempty name
      by_cases last : rest = []
      · simp [last, joined]
      · have joinedNonempty : path ++ "/" ++ name ≠ "" := by
          intro empty
          have characters := congrArg String.toList empty
          simp at characters
        rw [placeOf_cons, joined, inductionHypothesis joinedNonempty last,
          Path.ofComponents_cons name last]
        simp [String.append_assoc]

/-- From the directory that is searched, names lead to the path made of them. -/
theorem placeOf_empty
    {names : List String} (proper : ∀ name ∈ names, Path.IsName name) :
    placeOf "" names = Path.ofComponents names := by
  cases names with
  | nil =>
      simp
  | cons name rest =>
      have nameProper := proper name List.mem_cons_self
      by_cases last : rest = []
      · simp [last, entryPath_empty]
      · rw [placeOf_cons, entryPath_empty, placeOf_of_ne_empty nameProper.1 last,
          Path.ofComponents_cons name last]

/-- Different names lead to different paths. -/
theorem placeOf_injective
    {path : String} {names others : List String}
    (someName : names ≠ []) (someOther : others ≠ [])
    (proper : ∀ name ∈ names, Path.IsName name)
    (othersProper : ∀ name ∈ others, Path.IsName name)
    (same : placeOf path names = placeOf path others) :
    names = others := by
  have equal : Path.ofComponents names = Path.ofComponents others := by
    by_cases empty : path = ""
    · rw [empty, placeOf_empty proper, placeOf_empty othersProper] at same
      exact same
    · rw [placeOf_of_ne_empty empty someName,
        placeOf_of_ne_empty empty someOther] at same
      exact (String.append_right_inj (path ++ "/")).mp same
  exact Path.ofComponents_injective someName someOther
    (fun name member => (proper name member).2)
    (fun name member => (othersProper name member).2) equal

/-! ## What a directory contributes -/

/-- What one entry of a directory contributes. -/
def branchOf (guide : Guide) (enterable : Bool) (path : String) (entry : String × Item) :
    Branch :=
  if guide.isDirectory (entryPath path entry.1) entry.2 then
    ⟨entry.1, true,
      if guide.enters (entryPath path entry.1) entry.1 then
        findings guide enterable (entryPath path entry.1) entry.2
      else []⟩
  else
    ⟨entry.1, false,
      ((guide.source? (entryPath path entry.1) entry.1).map Finding.source).toList⟩

theorem branches_eq_map
    (guide : Guide) (enterable : Bool) (path : String) (entries : List (String × Item)) :
    branches guide enterable path entries = entries.map (branchOf guide enterable path) := by
  induction entries with
  | nil =>
      simp [branches]
  | cons entry rest inductionHypothesis =>
      obtain ⟨name, item⟩ := entry
      rw [branches, List.map_cons, inductionHypothesis]
      rfl

/-- The order in which branches are gathered adds and drops nothing. -/
theorem gather_perm (branches : List Branch) :
    (gather branches).Perm (branches.flatMap (·.findings)) := by
  apply List.Perm.flatMap_right
  have files := List.mergeSort_perm (branches.filter fun branch => !branch.isDirectory)
    fun left right => !(right.name < left.name)
  have directories := List.mergeSort_perm (branches.filter (·.isDirectory))
    fun left right => !(right.name < left.name)
  refine (files.append directories).trans (List.perm_append_comm.trans ?_)
  exact List.filter_append_perm (·.isDirectory) branches

theorem findings_perm
    (guide : Guide) (enterable : Bool) (path : String) (entries : List (String × Item)) :
    (findings guide true path (.directory true enterable entries)).Perm
      (entries.flatMap fun entry => (branchOf guide enterable path entry).findings) := by
  rw [findings, Bool.and_self, if_pos rfl, branches_eq_map]
  refine (gather_perm _).trans ?_
  rw [List.flatMap_map]

/-- All directories on the way are entered. -/
def Entered (guide : Guide) : String → List String → Prop
  | _, [] => True
  | path, name :: rest =>
      guide.enters (entryPath path name) name = true ∧
        Entered guide (entryPath path name) rest

theorem entered_iff
    {guide : Guide} {path : String} {names : List String} :
    Entered guide path names ↔
      ∀ above name further, names = above ++ name :: further →
        guide.enters (placeOf path (above ++ [name])) name = true := by
  induction names generalizing path with
  | nil =>
      simp [Entered]
  | cons first rest inductionHypothesis =>
      rw [Entered, inductionHypothesis]
      constructor
      · rintro ⟨own, later⟩ above name further shape
        cases above with
        | nil =>
            cases shape
            exact own
        | cons head above =>
            cases shape
            exact later above name further rfl
      · intro all
        refine ⟨all [] first rest rfl, ?_⟩
        rintro above name further rfl
        exact all (first :: above) name further rfl

/-- Names lead from a directory with the given path to a source. -/
structure LeadsToSource (guide : Guide) (path : String) (tree : Item)
    (above : List String) (name : String) (file : Source) : Prop where
  reaches : ∃ item, Reaches tree (above ++ [name]) item ∧
    guide.isDirectory (placeOf path (above ++ [name])) item = false
  isSource : guide.source? (placeOf path (above ++ [name])) name = some file
  entered : Entered guide path above

/-- Names lead only through directories. -/
theorem LeadsToSource.isDirectory
    {guide : Guide} {path : String} {tree : Item} {above : List String}
    {name : String} {file : Source}
    (leads : LeadsToSource guide path tree above name file) :
    ∃ enterable entries, tree = .directory true enterable entries := by
  obtain ⟨item, reaches, _⟩ := leads.reaches
  cases above with
  | nil => exact reaches.isDirectory
  | cons _ _ => exact reaches.isDirectory

theorem not_leadsToSource
    {guide : Guide} {path : String} {tree : Item} {file : Source}
    (unlisted : ∀ enterable entries, tree ≠ .directory true enterable entries) :
    ¬∃ above name, LeadsToSource guide path tree above name file := by
  intro given
  obtain ⟨above, name, leads⟩ := given
  obtain ⟨enterable, entries, shape⟩ := leads.isDirectory
  exact unlisted enterable entries shape

/-- A source in the directory itself. -/
theorem leadsToSource_nil_iff
    {guide : Guide} {path : String} {enterable : Bool} {entries : List (String × Item)}
    {name : String} {file : Source} :
    LeadsToSource guide path (.directory true enterable entries) [] name file ↔
      ∃ item, (name, item) ∈ entries ∧
        guide.isDirectory (entryPath path name) item = false ∧
        guide.source? (entryPath path name) name = some file := by
  constructor
  · intro given
    obtain ⟨⟨item, reaches, plain⟩, isSource, _⟩ := given
    obtain ⟨child, member, _, further⟩ := reaches_cons_iff.mp reaches
    rw [reaches_nil_iff] at further
    subst further
    exact ⟨child, member, plain, isSource⟩
  · intro given
    obtain ⟨item, member, plain, isSource⟩ := given
    have reaches := @Reaches.into enterable entries name item item [] member
      (absurd rfl) (Reaches.here item)
    exact ⟨⟨item, reaches, plain⟩, isSource, trivial⟩

/-- A source further down. -/
theorem leadsToSource_cons_iff
    {guide : Guide} {path : String} {enterable : Bool} {entries : List (String × Item)}
    {first name : String} {above : List String} {file : Source} :
    LeadsToSource guide path (.directory true enterable entries) (first :: above) name file ↔
      ∃ child, (first, child) ∈ entries ∧
        guide.enters (entryPath path first) first = true ∧ enterable = true ∧
        LeadsToSource guide (entryPath path first) child above name file := by
  constructor
  · intro given
    obtain ⟨⟨item, reaches, plain⟩, isSource, enters, entered⟩ := given
    obtain ⟨child, member, enterable, further⟩ := reaches_cons_iff.mp reaches
    exact ⟨child, member, enters, enterable (by simp), ⟨item, further, plain⟩, isSource, entered⟩
  · intro given
    obtain ⟨child, member, enters, enterable, ⟨item, further, plain⟩, isSource, entered⟩ := given
    exact ⟨⟨item, Reaches.into member (fun _ => enterable) further, plain⟩, isSource, enters, entered⟩

/-- What an entry contributes: the sources under a directory that is entered,
or the source that it is. -/
theorem source_mem_branchOf_iff
    {guide : Guide} {enterable : Bool} {path : String} {entry : String × Item} {file : Source} :
    Finding.source file ∈ (branchOf guide enterable path entry).findings ↔
      (guide.isDirectory (entryPath path entry.1) entry.2 = true ∧
          guide.enters (entryPath path entry.1) entry.1 = true ∧
          Finding.source file ∈ findings guide enterable (entryPath path entry.1) entry.2) ∨
        (guide.isDirectory (entryPath path entry.1) entry.2 = false ∧
          guide.source? (entryPath path entry.1) entry.1 = some file) := by
  unfold branchOf
  by_cases isDirectory : guide.isDirectory (entryPath path entry.1) entry.2 = true
  · by_cases enters : guide.enters (entryPath path entry.1) entry.1 = true
    · simp [isDirectory, enters]
    · simp [isDirectory, enters]
  · simp [isDirectory]

theorem source_not_mem_findings
    {guide : Guide} {path : String} {tree : Item} {file : Source} :
    Finding.source file ∉ findings guide false path tree := by
  cases tree <;> simp [findings]

/-- The sources among the findings are those that names lead to. -/
theorem source_mem_findings_iff
    (guide : Guide) (tree : Item) :
    ∀ path file, Finding.source file ∈ findings guide true path tree ↔
      ∃ above name, LeadsToSource guide path tree above name file := by
  induction tree using Disk.Item.induction with
  | file readable octets =>
      intro path file
      exact iff_of_false (by simp [findings]) (not_leadsToSource (by simp))
  | link target =>
      intro path file
      exact iff_of_false (by simp [findings]) (not_leadsToSource (by simp))
  | directory listable enterable entries inductionHypothesis =>
      intro path file
      cases listable with
      | false =>
          exact iff_of_false (by simp [findings]) (not_leadsToSource (by simp))
      | true =>
          rw [(findings_perm guide enterable path entries).mem_iff, List.mem_flatMap]
          constructor
          · intro given
            obtain ⟨⟨name, item⟩, member, found⟩ := given
            rcases source_mem_branchOf_iff.mp found with
              ⟨_, enters, below⟩ | ⟨plain, isSource⟩
            · cases enterable with
              | false => exact absurd below source_not_mem_findings
              | true =>
                  obtain ⟨above, last, leads⟩ :=
                    (inductionHypothesis (name, item) member _ file).mp below
                  exact ⟨name :: above, last,
                    leadsToSource_cons_iff.mpr ⟨item, member, enters, rfl, leads⟩⟩
            · exact ⟨[], name,
                leadsToSource_nil_iff.mpr ⟨item, member, plain, isSource⟩⟩
          · intro given
            obtain ⟨above, name, leads⟩ := given
            cases above with
            | nil =>
                obtain ⟨item, member, plain, isSource⟩ := leadsToSource_nil_iff.mp leads
                exact ⟨(name, item), member,
                  source_mem_branchOf_iff.mpr (Or.inr ⟨plain, isSource⟩)⟩
            | cons first above =>
                obtain ⟨child, member, enters, rfl, further⟩ :=
                  leadsToSource_cons_iff.mp leads
                obtain ⟨_, below, shape⟩ := further.isDirectory
                have isDirectory :
                    guide.isDirectory (entryPath path first) child = true := by
                  rw [shape]
                  rfl
                have found :=
                  (inductionHypothesis (first, child) member _ file).mpr
                    ⟨above, name, further⟩
                exact ⟨(first, child), member,
                  source_mem_branchOf_iff.mpr (Or.inl ⟨isDirectory, enters, found⟩)⟩

/-! ## No source twice -/

/-- The paths of the sources that a search comes upon. -/
def sourcePaths (findings : List Finding) : List String :=
  (findings.filterMap Finding.source?).map (·.path)

theorem path_of_source?
    {guide : Guide} {path name : String} {file : Source}
    (isSource : guide.source? path name = some file) :
    file.path = path := by
  unfold Guide.source? at isSource
  dsimp only at isSource
  split at isSource
  · cases isSource
    rfl
  · cases isSource

theorem mem_sourcePaths_iff
    {found : List Finding} {path : String} :
    path ∈ sourcePaths found ↔ ∃ file, Finding.source file ∈ found ∧ file.path = path := by
  simp only [sourcePaths, List.mem_map, List.mem_filterMap]
  constructor
  · intro given
    obtain ⟨file, ⟨finding, member, isSource⟩, rfl⟩ := given
    cases finding with
    | source other =>
        cases isSource
        exact ⟨file, member, rfl⟩
    | unreadable directory => cases isSource
  · intro given
    obtain ⟨file, member, rfl⟩ := given
    exact ⟨file, ⟨Finding.source file, member, rfl⟩, rfl⟩

/-- The paths of the sources under an entry begin with its name. -/
theorem placeOf_of_mem_branchOf
    {guide : Guide} {enterable : Bool} {path found : String} {entry : String × Item}
    (member : found ∈ sourcePaths (branchOf guide enterable path entry).findings) :
    ∃ names item, (names ≠ [] → enterable = true) ∧ Reaches entry.2 names item ∧
      found = placeOf path (entry.1 :: names) := by
  obtain ⟨file, fileMember, rfl⟩ := mem_sourcePaths_iff.mp member
  rcases source_mem_branchOf_iff.mp fileMember with
    ⟨_, _, below⟩ | ⟨_, isSource⟩
  · cases enterable with
    | false => exact absurd below source_not_mem_findings
    | true =>
        obtain ⟨above, name, leads⟩ := (source_mem_findings_iff guide entry.2 _ file).mp below
        obtain ⟨item, reaches, _⟩ := leads.reaches
        exact ⟨above ++ [name], item, fun _ => rfl, reaches, path_of_source? leads.isSource⟩
  · exact ⟨[], entry.2, absurd rfl, Reaches.here entry.2, path_of_source? isSource⟩

theorem nodup_sourcePaths_branchOf
    {guide : Guide} {enterable : Bool} {path : String} {entry : String × Item}
    (below :
      (sourcePaths (findings guide enterable (entryPath path entry.1) entry.2)).Nodup) :
    (sourcePaths (branchOf guide enterable path entry).findings).Nodup := by
  unfold branchOf
  split
  · dsimp only
    split
    · exact below
    · exact List.nodup_nil
  · cases guide.source? (entryPath path entry.1) entry.1 with
    | none => exact List.nodup_nil
    | some file => exact List.nodup_singleton file.path

theorem sourcePaths_of_unreachable {guide : Guide} {path : String} {tree : Item} :
    sourcePaths (findings guide false path tree) = [] := by
  cases tree <;> simp [findings, sourcePaths, Finding.source?]

/-- In a well-named tree no source is found twice. -/
theorem nodup_sourcePaths
    (guide : Guide) (tree : Item) :
    ∀ path, WellNamed tree → (sourcePaths (findings guide true path tree)).Nodup := by
  induction tree using Disk.Item.induction with
  | file readable octets =>
      intro path _
      simp [findings, sourcePaths]
  | link target =>
      intro path _
      simp [findings, sourcePaths]
  | directory listable enterable entries inductionHypothesis =>
      intro path wellNamed
      cases listable with
      | false =>
          rw [findings]
          exact List.nodup_nil
      | true =>
          have permuted :
              (sourcePaths (findings guide true path (.directory true enterable entries))).Perm
                (entries.flatMap fun entry =>
                  sourcePaths (branchOf guide enterable path entry).findings) := by
            have sources :=
              ((findings_perm guide enterable path entries).filterMap Finding.source?).map
                (fun file : Source => file.path)
            rw [List.filterMap_flatMap, List.map_flatMap] at sources
            exact sources
          obtain ⟨distinct, proper⟩ := wellNamed [] enterable entries (Reaches.here _)
          rw [permuted.nodup_iff, List.nodup_flatMap]
          refine ⟨?_, ?_⟩
          · intro entry member
            apply nodup_sourcePaths_branchOf
            cases enterable with
            | false =>
                rw [sourcePaths_of_unreachable]
                exact List.nodup_nil
            | true => exact inductionHypothesis entry member _ (wellNamed.child member)
          · have differentNames : entries.Pairwise fun left right => left.1 ≠ right.1 :=
              List.pairwise_map.mp distinct
            refine differentNames.imp_of_mem ?_
            intro left right leftMember rightMember different found foundLeft foundRight
            -- What is found under an entry begins with its name.
            obtain ⟨leftNames, _, leftEntered, leftReaches, leftPlace⟩ :=
              placeOf_of_mem_branchOf foundLeft
            obtain ⟨rightNames, _, rightEntered, rightReaches, rightPlace⟩ :=
              placeOf_of_mem_branchOf foundRight
            have leftProper :=
              wellNamed.isName (Reaches.into leftMember leftEntered leftReaches)
            have rightProper :=
              wellNamed.isName (Reaches.into rightMember rightEntered rightReaches)
            have sameNames : left.1 :: leftNames = right.1 :: rightNames :=
              placeOf_injective (List.cons_ne_nil _ _) (List.cons_ne_nil _ _)
                leftProper rightProper (leftPlace.symm.trans rightPlace)
            exact different (List.cons.inj sameNames).1

/-! ## The search on a disk -/

/-- The guide of a search on a disk. -/
def guideOf (disk : Item) (root : String) (rules : List Ignore.Rule) : Guide :=
  { root := root
    rules := rules
    leadsToDirectory := fun path => ((Disk.isDirectory disk path).toOption).getD false }

theorem search_of_find
    {disk tree : Item} {root : String} {rules : List Ignore.Rule}
    (found : Disk.find disk root = .ok tree) :
    search disk root rules = findings (guideOf disk root rules) true "" tree := by
  rw [search, found]
  rfl

/-- An entry at an absolute path that is not a directory: a file, or a link
that leads to no directory. -/
def IsPlainEntry (disk : Item) (location : String) : Item → Prop
  | .file _ _ => True
  | .link _ => Disk.isDirectory disk location ≠ .ok true
  | .directory _ _ _ => False

theorem isDirectory_guideOf_eq_false_iff
    {disk item : Item} {root path : String} {rules : List Ignore.Rule} :
    (guideOf disk root rules).isDirectory path item = false ↔
      IsPlainEntry disk (Path.join root path) item := by
  cases item with
  | file readable octets =>
      simp [Guide.isDirectory, IsPlainEntry]
  | directory listable enterable entries =>
      simp [Guide.isDirectory, IsPlainEntry]
  | link target =>
      simp only [Guide.isDirectory, IsPlainEntry, guideOf]
      cases Disk.isDirectory disk (Path.join root path) with
      | error trouble => simp [Except.toOption]
      | ok answer => simp [Except.toOption]

/-- The path is that of a source: names lead to an entry that is no directory
and has an extension of scripts, through directories none of which is skipped
or left out by the rules, and the rules do not leave out the path itself. -/
def IsSourcePath (disk : Item) (root : String) (rules : List Ignore.Rule)
    (tree : Item) (path : String) : Prop :=
  ∃ above name item,
    path = Path.ofComponents (above ++ [name]) ∧
      Reaches tree (above ++ [name]) item ∧
      IsPlainEntry disk (Path.join root path) item ∧
      Text.lower (Path.extension name) ∈ Script.extensions ∧
      (∀ before directory after, above = before ++ directory :: after →
        directory ∉ skippedDirectories ∧
          Ignore.excludes rules (Path.ofComponents (before ++ [directory])) true = false) ∧
      Ignore.excludes rules path false = false

theorem exists_source?_iff
    {guide : Guide} {path name : String} :
    (∃ file, guide.source? path name = some file ∧ file.path = path) ↔
      Text.lower (Path.extension name) ∈ Script.extensions ∧
        Ignore.excludes guide.rules path false = false := by
  have accepted_iff :
      (Script.extensions.contains (Text.lower (Path.extension name)) &&
          !Ignore.excludes guide.rules path false) = true ↔
        Text.lower (Path.extension name) ∈ Script.extensions ∧
          Ignore.excludes guide.rules path false = false := by
    rw [Bool.and_eq_true, List.contains_iff_mem, Bool.not_eq_true']
  rw [← accepted_iff]
  unfold Guide.source?
  dsimp only
  split
  · next accepted =>
      exact iff_of_true ⟨_, rfl, rfl⟩ accepted
  · next refused =>
      refine iff_of_false ?_ refused
      intro given
      obtain ⟨file, isSource, _⟩ := given
      cases isSource

theorem enters_guideOf_iff
    {disk : Item} {root path name : String} {rules : List Ignore.Rule} :
    (guideOf disk root rules).enters path name = true ↔
      name ∉ skippedDirectories ∧ Ignore.excludes rules path true = false := by
  rw [Guide.enters, Bool.and_eq_true, Bool.not_eq_true', Bool.not_eq_true',
    ← Bool.not_eq_true, List.contains_iff_mem]
  rfl

/-- What holds of the names on a way holds of those on a part of it. -/
theorem forall_mem_of_split
    {property : String → Prop} {above before after : List String} {directory name : String}
    (all : ∀ other ∈ above ++ [name], property other)
    (shape : above = before ++ directory :: after) :
    ∀ other ∈ before ++ [directory], property other := by
  intro other member
  apply all
  rw [shape, List.append_assoc]
  rcases List.mem_append.mp member with inBefore | isDirectory
  · exact List.mem_append_left _ inBefore
  · rw [List.mem_singleton.mp isDirectory]
    exact List.mem_append_right _ List.mem_cons_self

/-- The paths that a search finds are those of sources, told path by path. -/
theorem mem_sourcePaths_search_iff
    {disk tree : Item} {root : String} {rules : List Ignore.Rule}
    (found : Disk.find disk root = .ok tree) (wellNamed : WellNamed tree)
    {path : String} :
    path ∈ sourcePaths (search disk root rules) ↔
      IsSourcePath disk root rules tree path := by
  rw [search_of_find found, mem_sourcePaths_iff]
  constructor
  · intro given
    obtain ⟨file, member, rfl⟩ := given
    obtain ⟨above, name, ⟨item, reaches, plain⟩, isSource, entered⟩ :=
      (source_mem_findings_iff _ tree "" file).mp member
    have proper := wellNamed.isName reaches
    have filePath := path_of_source? isSource
    rw [placeOf_empty proper] at filePath plain isSource
    obtain ⟨supported, kept⟩ :=
      exists_source?_iff.mp ⟨file, isSource, filePath⟩
    rw [filePath]
    refine ⟨above, name, item, rfl, reaches, ?_, supported, ?_, kept⟩
    · exact isDirectory_guideOf_eq_false_iff.mp plain
    · intro before directory after shape
      have enters := entered_iff.mp entered before directory after shape
      rw [placeOf_empty (forall_mem_of_split proper shape)] at enters
      exact enters_guideOf_iff.mp enters
  · intro given
    obtain ⟨above, name, item, rfl, reaches, plain, supported, ancestors, kept⟩ := given
    have proper := wellNamed.isName reaches
    obtain ⟨file, isSource, filePath⟩ :=
      (@exists_source?_iff (guideOf disk root rules) _ name).mpr ⟨supported, kept⟩
    refine ⟨file, ?_, filePath⟩
    rw [source_mem_findings_iff]
    refine ⟨above, name, ⟨item, reaches, ?_⟩, ?_, ?_⟩
    · rw [placeOf_empty proper]
      exact isDirectory_guideOf_eq_false_iff.mpr plain
    · rw [placeOf_empty proper]
      exact isSource
    · rw [entered_iff]
      intro before directory after shape
      rw [placeOf_empty (forall_mem_of_split proper shape)]
      exact enters_guideOf_iff.mpr (ancestors before directory after shape)

/-- A search under a directory finds every source once and nothing else, and
the table of a survey has exactly the paths of these sources. -/
theorem source_paths_exact
    {disk tree : Item} {root : String}
    (found : Disk.find disk root = .ok tree) (wellNamed : WellNamed tree) :
    (∀ rules,
      (sourcePaths (search disk root rules)).Nodup ∧
        ∀ path, path ∈ sourcePaths (search disk root rules) ↔
          IsSourcePath disk root rules tree path) ∧
      ∀ surroundings wishes examiner project result,
        surroundings.disk = disk →
        (survey surroundings wishes examiner project).outcome.1 = .ok result →
        result.root = root →
        ∃ settings, settingsResult disk root = .ok settings ∧
          ∀ path, path ∈ result.table.paths ↔
            IsSourcePath disk root (rulesOf disk root wishes settings) tree path := by
  refine ⟨?_, ?_⟩
  · intro rules
    refine ⟨?_, fun path => mem_sourcePaths_search_iff found wellNamed⟩
    rw [search_of_find found]
    exact nodup_sourcePaths _ tree "" wellNamed
  · rintro surroundings wishes examiner project result rfl surveyed rfl
    rw [(survey_gives surroundings wishes examiner project).outcome] at surveyed
    obtain ⟨root, settings, manifest, _, configured, rfl⟩ :=
      ofDirectory_of_surveyResult surveyed
    refine ⟨settings, configured, ?_⟩
    intro path
    rw [← mem_sourcePaths_search_iff found wellNamed]
    refine mem_paths_tableOf.trans ?_
    rw [List.map_map]
    rfl

/-! ## A project with a link that leads nowhere -/

/-- A project with a script, a directory that is skipped and a link that leads
nowhere. -/
def sampleProject : Item :=
  .directory true true
    [("lib", .directory true true [("a.TS", .file true []), ("notes.txt", .file true [])]),
      ("node_modules", .directory true true [("b.js", .file true [])]),
      ("lost.js", .link "nowhere")]

/-- Surroundings with the project on the disk. -/
def sampleSurroundings : Surroundings :=
  ⟨.directory true true [("project", sampleProject)], "/", "/", []⟩

theorem survey_sampleSurroundings :
    ∃ result,
      (survey sampleSurroundings {} usualExaminer "/project").outcome.1 = .ok result ∧
        result.root = "/project" := by
  have succeeds :
      (surveyResult sampleSurroundings {} usualExaminer "/project").toBool = true := by
    decide +kernel
  have rooted : rootOf sampleSurroundings "/project" = .ok "/project" := by
    decide +kernel
  exact exists_survey_at_root succeeds rooted

theorem source_paths_exact_sampleProject :
    Disk.find sampleSurroundings.disk "/project" = .ok sampleProject ∧
      WellNamed sampleProject ∧
      "lib/a.TS" ∈ sourcePaths (search sampleSurroundings.disk "/project" []) ∧
      ∃ result settings,
        (survey sampleSurroundings {} usualExaminer "/project").outcome.1 = .ok result ∧
          ∀ path, path ∈ result.table.paths ↔
            IsSourcePath sampleSurroundings.disk "/project"
              (rulesOf sampleSurroundings.disk "/project" {} settings) sampleProject path := by
  have found : Disk.find sampleSurroundings.disk "/project" = .ok sampleProject := rfl
  have wellNamed : WellNamed sampleProject := by
    simp [sampleProject, wellNamed_directory_iff, Path.IsName]
  refine ⟨found, wellNamed, ?_, ?_⟩
  · rw [((source_paths_exact found wellNamed).1 []).2]
    refine ⟨["lib"], "a.TS", .file true [], by decide, ?_, trivial, by decide, ?_, by decide⟩
    · exact Reaches.into List.mem_cons_self (fun _ => rfl)
        (Reaches.into List.mem_cons_self (fun _ => rfl) (Reaches.here _))
    · intro before directory after shape
      cases before with
      | nil =>
          cases shape
          exact ⟨by decide, by decide⟩
      | cons first rest =>
          simp at shape
  · obtain ⟨result, surveyed, rooted⟩ := survey_sampleSurroundings
    obtain ⟨settings, _, samePaths⟩ :=
      (source_paths_exact found wellNamed).2 _ _ _ _ result rfl surveyed rooted
    exact ⟨result, settings, surveyed, samePaths⟩

end Survey

end ModuleAtlas
