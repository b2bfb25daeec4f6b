import ModuleAtlas.Proofs.SourceWalk

/-!
# Disks that are well kept

What every disk keeps to: the names in a directory are different, and each is
one that a directory can hold.  Every item of such a disk is well kept as well,
wherever a path leads.
-/

namespace ModuleAtlas.Disk

/-- A name that a directory can hold. -/
structure IsEntryName (name : String) : Prop where
  nonempty : name ≠ ""
  slashFree : '/' ∉ name.toList
  nullFree : '\x00' ∉ name.toList
  notHere : name ≠ "."
  notAbove : name ≠ ".."
  short : name.utf8ByteSize ≤ longestName

instance (name : String) : Decidable (IsEntryName name) :=
  decidable_of_iff
    ((name ≠ "" ∧ '/' ∉ name.toList ∧ '\x00' ∉ name.toList) ∧
      name ≠ "." ∧ name ≠ ".." ∧ name.utf8ByteSize ≤ longestName)
    ⟨fun given => ⟨given.1.1, given.1.2.1, given.1.2.2, given.2.1, given.2.2.1, given.2.2.2⟩,
      fun entryName => ⟨⟨entryName.nonempty, entryName.slashFree, entryName.nullFree⟩,
        entryName.notHere, entryName.notAbove, entryName.short⟩⟩

theorem IsEntryName.isName
    {name : String} (entryName : IsEntryName name) : Path.IsName name :=
  ⟨entryName.nonempty, entryName.slashFree⟩

namespace Item

/-- In every directory, whether it tells its entries or not, the names are
different and such as a directory can hold. -/
inductive WellKept : Item → Prop
  | file (readable : Bool) (octets : List UInt8) :
      WellKept (.file readable octets)
  | link (target : String) :
      WellKept (.link target)
  | directory {listable enterable : Bool} {entries : List (String × Item)} :
      (entries.map (·.1)).Nodup →
      (∀ entry ∈ entries, IsEntryName entry.1) →
      (∀ entry ∈ entries, WellKept entry.2) →
      WellKept (.directory listable enterable entries)

@[simp]
theorem wellKept_file (readable : Bool) (octets : List UInt8) :
    WellKept (.file readable octets) :=
  WellKept.file readable octets

@[simp]
theorem wellKept_link (target : String) : WellKept (.link target) :=
  WellKept.link target

theorem wellKept_directory_iff
    {listable enterable : Bool} {entries : List (String × Item)} :
    WellKept (.directory listable enterable entries) ↔
      (entries.map (·.1)).Nodup ∧
        (∀ entry ∈ entries, IsEntryName entry.1) ∧
        ∀ entry ∈ entries, WellKept entry.2 := by
  constructor
  · intro kept
    cases kept with
    | directory nodup names children => exact ⟨nodup, names, children⟩
  · intro given
    exact WellKept.directory given.1 given.2.1 given.2.2

/-- What can be looked up in a well kept directory stands among its entries. -/
theorem WellKept.entry
    {item child : Item} {name : String} (kept : WellKept item)
    (found : item.entry? name = some child) :
    IsEntryName name ∧ WellKept child := by
  cases kept with
  | file readable octets => cases found
  | link target => cases found
  | @directory listable enterable entries nodup names children =>
      cases enterable with
      | false => cases found
      | true =>
          have member := (lookup_eq_some_iff_mem nodup).mp found
          exact ⟨names _ member, children _ member⟩

theorem WellKept.child
    {item child : Item} {name : String} (kept : WellKept item)
    (found : item.entry? name = some child) :
    WellKept child :=
  (kept.entry found).2

theorem WellKept.at?
    {root item : Item} {place : List String} (kept : WellKept root)
    (found : root.at? place = some item) :
    WellKept item := by
  induction place generalizing root with
  | nil =>
      cases found
      exact kept
  | cons name rest inductionHypothesis =>
      rw [Item.at?] at found
      cases entry : root.entry? name with
      | none =>
          rw [entry] at found
          cases found
      | some child =>
          rw [entry] at found
          exact inductionHypothesis (kept.child entry) found

/-- The names on the way to an item are such as directories can hold. -/
theorem WellKept.isEntryName
    {tree item : Item} {names : List String} (kept : WellKept tree)
    (reaches : Reaches tree names item) :
    ∀ name ∈ names, IsEntryName name := by
  induction reaches with
  | here _ =>
      simp
  | @into enterable entries name child item names member _ _ inductionHypothesis =>
      obtain ⟨_, own, children⟩ := wellKept_directory_iff.mp kept
      intro other otherMember
      rcases List.mem_cons.mp otherMember with equal | later
      · exact equal ▸ own (name, child) member
      · exact inductionHypothesis (children (name, child) member) other later

theorem WellKept.wellNamed
    {tree : Item} (kept : WellKept tree) : WellNamed tree := by
  intro names enterable entries reaches
  induction names generalizing tree with
  | nil =>
      rw [reaches_nil_iff] at reaches
      subst reaches
      obtain ⟨nodup, own, _⟩ := wellKept_directory_iff.mp kept
      exact ⟨nodup, fun entry member => (own entry member).isName⟩
  | cons name rest inductionHypothesis =>
      cases reaches with
      | into member _ further =>
          obtain ⟨_, _, children⟩ := wellKept_directory_iff.mp kept
          exact inductionHypothesis (children _ member) further

/-- Names that lead somewhere one after another are such as directories can hold. -/
theorem WellKept.isEntryName_of_at?
    {tree item : Item} {names : List String} (kept : WellKept tree)
    (standing : tree.at? names = some item) :
    ∀ name ∈ names, IsEntryName name := by
  induction names generalizing tree with
  | nil =>
      simp
  | cons name rest inductionHypothesis =>
      rw [Item.at?] at standing
      cases entry : tree.entry? name with
      | none =>
          rw [entry] at standing
          cases standing
      | some child =>
          rw [entry] at standing
          exact List.forall_mem_cons.mpr
            ⟨(kept.entry entry).1, inductionHypothesis (kept.child entry) standing⟩

end Item

theorem find_eq_ok_iff {root item : Item} {path : String} :
    find root path = .ok item ↔
      ∃ place, locate root path = .ok place ∧ root.at? place = some item := by
  unfold find
  cases locate root path with
  | error fault =>
      simp
  | ok place =>
      cases standing : root.at? place with
      | none => simp [standing]
      | some other => simp [standing]

theorem wellKept_of_find
    {root item : Item} {path : String} (kept : root.WellKept)
    (found : find root path = .ok item) :
    item.WellKept := by
  obtain ⟨place, _, standing⟩ := find_eq_ok_iff.mp found
  exact kept.at? standing

end ModuleAtlas.Disk
