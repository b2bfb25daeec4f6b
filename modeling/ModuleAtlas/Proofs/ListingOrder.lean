import ModuleAtlas.Disk.RealPath
import ModuleAtlas.Proofs.KeptDisks

/-!
# The order in which directories list

A directory lists its entries in any order.  Where a path leads does not depend
on it: on a well kept disk a name stands for one entry, so every look-up finds
the same file, the same link, or a directory that differs in the order of its
entries only.
-/

namespace ModuleAtlas.Disk

/-- One item comes from the other by listing directories, at any depth, in
another order. -/
inductive Relisted : Item → Item → Prop
  | refl (item : Item) :
      Relisted item item
  | trans {first second third : Item} :
      Relisted first second →
      Relisted second third →
      Relisted first third
  | reorder {listable enterable : Bool} {entries others : List (String × Item)} :
      entries.Perm others →
      Relisted (.directory listable enterable entries) (.directory listable enterable others)
  | within {listable enterable : Bool} {before after : List (String × Item)}
      {name : String} {item other : Item} :
      Relisted item other →
      Relisted (.directory listable enterable (before ++ (name, item) :: after))
        (.directory listable enterable (before ++ (name, other) :: after))

/-- The names in a directory, in the order in which it lists them. -/
def Item.names : Item → List String
  | .directory _ _ entries => entries.map (·.1)
  | _ => []

namespace Relisted

open Item

/-- Only directories are listed in another order. -/
theorem eq_or_directories
    {item other : Item} (relisted : Relisted item other) :
    item = other ∨
      ∃ listable enterable entries others,
        item = .directory listable enterable entries ∧
          other = .directory listable enterable others := by
  induction relisted with
  | refl item =>
      exact Or.inl rfl
  | trans _ _ before after =>
      rcases before with rfl | ⟨listable, enterable, entries, others, rfl, rfl⟩
      · exact after
      · rcases after with rfl | ⟨_, _, _, others, shape, rfl⟩
        · exact Or.inr ⟨_, _, _, _, rfl, rfl⟩
        · cases shape
          exact Or.inr ⟨_, _, _, _, rfl, rfl⟩
  | reorder _ =>
      exact Or.inr ⟨_, _, _, _, rfl, rfl⟩
  | within _ _ =>
      exact Or.inr ⟨_, _, _, _, rfl, rfl⟩

theorem isDirectory_eq
    {item other : Item} (relisted : Relisted item other) :
    item.isDirectory = other.isDirectory := by
  rcases relisted.eq_or_directories with rfl | ⟨_, _, _, _, rfl, rfl⟩
  · rfl
  · rfl

theorem isEnterable_eq
    {item other : Item} (relisted : Relisted item other) :
    item.isEnterable = other.isEnterable := by
  rcases relisted.eq_or_directories with rfl | ⟨_, _, _, _, rfl, rfl⟩
  · rfl
  · rfl

theorem isFile_eq
    {item other : Item} (relisted : Relisted item other) : item.isFile = other.isFile := by
  rcases relisted.eq_or_directories with rfl | ⟨_, _, _, _, rfl, rfl⟩
  · rfl
  · rfl

theorem names_perm
    {item other : Item} (relisted : Relisted item other) : item.names.Perm other.names := by
  induction relisted with
  | refl item => exact List.Perm.refl _
  | trans _ _ before after => exact before.trans after
  | reorder perm => exact perm.map _
  | within _ _ => simp [names]

theorem wellKept
    {item other : Item} (relisted : Relisted item other) (kept : item.WellKept) :
    other.WellKept := by
  induction relisted with
  | refl item =>
      exact kept
  | trans _ _ before after =>
      exact after (before kept)
  | reorder perm =>
      obtain ⟨nodup, names, children⟩ := wellKept_directory_iff.mp kept
      refine wellKept_directory_iff.mpr ⟨((perm.map _).nodup_iff).mp nodup, ?_, ?_⟩
      · intro entry member
        exact names entry (perm.mem_iff.mpr member)
      · intro entry member
        exact children entry (perm.mem_iff.mpr member)
  | within _ inductionHypothesis =>
      rw [wellKept_directory_iff] at kept ⊢
      simp only [List.map_append, List.map_cons, List.forall_mem_append,
        List.forall_mem_cons] at kept ⊢
      obtain ⟨nodup, names, children, itemKept, more⟩ := kept
      exact ⟨nodup, names, children, inductionHypothesis itemKept, more⟩

end Relisted

/-! ## Looking entries up -/

/-- Both are missing, or one comes from the other by listing in another
order. -/
abbrev MaybeRelisted : Option Item → Option Item → Prop :=
  Option.Rel Relisted

theorem maybeRelisted_refl (item? : Option Item) : MaybeRelisted item? item? := by
  cases item? with
  | none => exact Option.Rel.none
  | some item => exact Option.Rel.some (Relisted.refl item)

theorem MaybeRelisted.trans
    {first second third : Option Item}
    (before : MaybeRelisted first second) (after : MaybeRelisted second third) :
    MaybeRelisted first third := by
  cases before with
  | none => exact after
  | some one =>
      cases after with
      | some other => exact Option.Rel.some (one.trans other)

theorem Relisted.child
    {item other : Item} (relisted : Relisted item other) (kept : item.WellKept)
    (name : String) :
    MaybeRelisted ( item.entry? name) ( other.entry? name) := by
  induction relisted with
  | refl item =>
      exact maybeRelisted_refl _
  | trans first _ before after =>
      exact (before kept).trans (after (first.wellKept kept))
  | @reorder listable enterable entries others perm =>
      have nodup := (Item.wellKept_directory_iff.mp kept).1
      cases enterable with
      | false => exact maybeRelisted_refl _
      | true =>
          rw [Item.entry?, Item.entry?, lookup_eq_of_perm perm nodup]
          exact maybeRelisted_refl _
  | @within listable enterable before after known item other below _ =>
      cases enterable with
      | false => exact maybeRelisted_refl _
      | true =>
          rw [Item.entry?, Item.entry?, List.lookup_append, List.lookup_append]
          cases before.lookup name with
          | some early =>
              exact maybeRelisted_refl _
          | none =>
              rw [Option.none_or, Option.none_or, List.lookup_cons, List.lookup_cons]
              cases name == known with
              | true => exact Option.Rel.some below
              | false => exact maybeRelisted_refl _

theorem Relisted.at?
    {root other : Item} (relisted : Relisted root other) (kept : root.WellKept)
    (place : List String) :
    MaybeRelisted (root.at? place) (other.at? place) := by
  induction place generalizing root other with
  | nil =>
      exact Option.Rel.some relisted
  | cons name rest inductionHypothesis =>
      have entries := relisted.child kept name
      rw [Item.at?, Item.at?]
      cases own : root.entry? name with
      | none =>
          rw [own] at entries
          cases same : other.entry? name with
          | none => exact Option.Rel.none
          | some child =>
              rw [same] at entries
              cases entries
      | some child =>
          rw [own] at entries
          cases same : other.entry? name with
          | none =>
              rw [same] at entries
              cases entries
          | some otherChild =>
              rw [same] at entries
              cases entries with
              | some below => exact inductionHypothesis below (kept.child own)

/-! ## Following paths -/

section

variable {root other : Item}

theorem walkWith_relisted
    (relisted : Relisted root other) (kept : root.WellKept)
    (follow : List String → List String → Except Fault (List String))
    (place pieces : List String) :
    walkWith other follow place pieces = walkWith root follow place pieces := by
  induction pieces generalizing place with
  | nil =>
      rw [walkWith, walkWith]
  | cons piece rest inductionHypothesis =>
      have standing := relisted.at? kept place
      rw [walkWith, walkWith]
      generalize otherAt : other.at? place = otherItem? at standing
      cases rootAt : root.at? place with
      | none =>
          rw [rootAt] at standing
          cases standing
          rfl
      | some item =>
          rw [rootAt] at standing
          cases standing with
          | @some _ otherItem below =>
              have itemKept : item.WellKept := kept.at? rootAt
              have entries := below.child itemKept piece
              dsimp only
              rw [below.isDirectory_eq, below.isEnterable_eq, inductionHypothesis,
                inductionHypothesis, inductionHypothesis]
              generalize otherItem.entry? piece = otherBelow at entries
              generalize item.entry? piece = itemBelow at entries
              cases entries with
              | none => rfl
              | @some entry otherEntry inside =>
                  rcases inside.eq_or_directories with rfl | ⟨_, _, _, _, rfl, rfl⟩
                  · rfl
                  · rfl

theorem walk_relisted
    (relisted : Relisted root other) (kept : root.WellKept) (links : Nat) :
    walk other links = walk root links := by
  induction links with
  | zero =>
      funext place pieces
      exact walkWith_relisted relisted kept _ place pieces
  | succ links inductionHypothesis =>
      funext place pieces
      rw [walk, walk, inductionHypothesis]
      exact walkWith_relisted relisted kept _ place pieces

theorem locate_relisted
    (relisted : Relisted root other) (kept : root.WellKept) :
    locate other = locate root := by
  funext path
  rw [locate, locate, walk_relisted relisted kept]

/-- A path leads to the same trouble on both disks, or to items of which one
comes from the other by listing in another order. -/
theorem find_relisted
    (relisted : Relisted root other) (kept : root.WellKept) (path : String) :
    (∃ fault, find root path = .error fault ∧ find other path = .error fault) ∨
      ∃ item otherItem, find root path = .ok item ∧ find other path = .ok otherItem ∧
        Relisted item otherItem := by
  rw [find, find, locate_relisted relisted kept]
  cases locate root path with
  | error fault =>
      exact Or.inl ⟨fault, rfl, rfl⟩
  | ok place =>
      have standing := relisted.at? kept place
      dsimp only
      generalize other.at? place = otherItem? at standing
      generalize root.at? place = item? at standing
      cases standing with
      | none => exact Or.inl ⟨.absent, rfl, rfl⟩
      | some below => exact Or.inr ⟨_, _, rfl, rfl, below⟩

theorem holds_relisted
    (relisted : Relisted root other) (kept : root.WellKept) {property : Item → Bool}
    (invariant : ∀ item otherItem, Relisted item otherItem →
      property item = property otherItem) :
    holds other property = holds root property := by
  funext path
  rw [holds, holds]
  rcases find_relisted relisted kept path with
    ⟨fault, found, otherFound⟩ | ⟨item, otherItem, found, otherFound, below⟩
  · rw [found, otherFound]
  · rw [found, otherFound]
    dsimp only
    rw [invariant item otherItem below]

theorem exists?_relisted
    (relisted : Relisted root other) (kept : root.WellKept) :
    exists? other = exists? root :=
  holds_relisted relisted kept fun _ _ _ => rfl

theorem isFile_relisted
    (relisted : Relisted root other) (kept : root.WellKept) :
    isFile other = isFile root :=
  holds_relisted relisted kept fun _ _ below => below.isFile_eq

theorem isDirectory_relisted
    (relisted : Relisted root other) (kept : root.WellKept) :
    isDirectory other = isDirectory root :=
  holds_relisted relisted kept fun _ _ below => below.isDirectory_eq

theorem read_relisted
    (relisted : Relisted root other) (kept : root.WellKept) :
    read other = read root := by
  funext path
  rw [read, read]
  rcases find_relisted relisted kept path with
    ⟨fault, found, otherFound⟩ | ⟨item, otherItem, found, otherFound, below⟩
  · rw [found, otherFound]
  · rw [found, otherFound]
    rcases below.eq_or_directories with rfl | ⟨listable, _, _, _, rfl, rfl⟩
    · rfl
    · cases listable with
      | true => rfl
      | false => rfl

/-! ## Paths without links -/

theorem realWith_relisted
    (relisted : Relisted root other) (kept : root.WellKept)
    (follow : List (List String) → List String → List String → List String × Bool)
    (pending : List (List String)) (place pieces : List String) :
    realWith other follow pending place pieces =
      realWith root follow pending place pieces := by
  induction pieces generalizing place with
  | nil =>
      rw [realWith, realWith]
  | cons piece rest inductionHypothesis =>
      have standing := relisted.at? kept (place ++ [piece])
      rw [realWith, realWith]
      simp only [inductionHypothesis]
      generalize other.at? (place ++ [piece]) = otherItem? at standing
      generalize root.at? (place ++ [piece]) = item? at standing
      cases standing with
      | none => rfl
      | @some item otherItem below =>
          rcases below.eq_or_directories with rfl | ⟨_, _, _, _, rfl, rfl⟩
          · rfl
          · rfl

theorem realFrom_relisted
    (relisted : Relisted root other) (kept : root.WellKept) (depth : Nat) :
    realFrom other depth = realFrom root depth := by
  induction depth with
  | zero =>
      funext pending place pieces
      exact realWith_relisted relisted kept _ pending place pieces
  | succ depth inductionHypothesis =>
      funext pending place pieces
      rw [realFrom, realFrom, inductionHypothesis]
      exact realWith_relisted relisted kept _ pending place pieces

theorem realPath_relisted
    (relisted : Relisted root other) (kept : root.WellKept) :
    realPath other = realPath root := by
  funext path
  rw [realPath, realPath, realFrom_relisted relisted kept]
  split
  · rfl
  · dsimp only
    rcases find_relisted relisted kept
        (absolute (Path.collapse true
          ((realFrom root deepestLinks [] [] (Path.pieces path)).1.filter
            fun piece => piece != "" && piece != "."))) with
      ⟨fault, found, otherFound⟩ | ⟨item, otherItem, found, otherFound, _⟩
    · rw [found, otherFound]
    · rw [found, otherFound]

end

end ModuleAtlas.Disk
