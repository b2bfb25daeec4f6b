import ModuleAtlas.Proofs.KeptDisks
import ModuleAtlas.Proofs.PathSteps

/-!
# Walks along joined paths

A walk along a path goes the way to its directory first and the rest of the way
from there, with the links that are left.  So the files below a directory are
found where the walk to the directory ends.
-/

namespace ModuleAtlas.Disk

theorem IsEntryName.isStep
    {name : String} (entryName : IsEntryName name) : Path.IsStep name :=
  ⟨entryName.isName, entryName.notHere, entryName.notAbove⟩

/-! ## Parts of a walk -/

section

variable {root : Item} {follow : List String → List String → Except Fault (List String)}

/-- A piece ends the walk with a fault, or it leads to another place, or into a
link, whatever comes after it. -/
theorem walkWith_cons (place : List String) (piece : String) :
    (∃ fault, ∀ rest, walkWith root follow place (piece :: rest) = .error fault) ∨
      (∃ next, ∀ rest,
        walkWith root follow place (piece :: rest) = walkWith root follow next rest) ∨
      ∃ start behind, ∀ rest,
        walkWith root follow place (piece :: rest) = follow start (behind ++ rest) := by
  simp only [walkWith]
  cases root.at? place with
  | none => exact Or.inl ⟨.absent, fun _ => rfl⟩
  | some item =>
      dsimp only
      by_cases isDirectory : item.isDirectory = true
      · simp only [isDirectory, Bool.not_true, Bool.false_eq_true, if_false]
        by_cases refused : (piece != "" && !item.isEnterable) = true
        · simp only [refused, if_true]
          exact Or.inl ⟨.denied, fun _ => rfl⟩
        · simp only [refused]
          by_cases here : (piece == "" || piece == ".") = true
          · simp only [here, if_true]
            exact Or.inr (Or.inl ⟨place, fun _ => rfl⟩)
          · by_cases above : (piece == "..") = true
            · simp only [here, above, if_true]
              exact Or.inr (Or.inl ⟨place.dropLast, fun _ => rfl⟩)
            · simp only [here, above]
              by_cases long : piece.utf8ByteSize > longestName
              · simp only [long, if_true]
                exact Or.inl ⟨.nameTooLong, fun _ => rfl⟩
              · simp only [long, if_false]
                cases item.entry? piece with
                | none => exact Or.inl ⟨.absent, fun _ => rfl⟩
                | some child =>
                    cases child with
                    | link target => exact Or.inr (Or.inr ⟨_, _, fun _ => rfl⟩)
                    | file readable octets => exact Or.inr (Or.inl ⟨_, fun _ => rfl⟩)
                    | directory listable enterable entries =>
                        exact Or.inr (Or.inl ⟨_, fun _ => rfl⟩)
      · simp only [isDirectory, Bool.not_false, if_true]
        exact Or.inl ⟨.notDirectory, fun _ => rfl⟩

/-- The first part of a walk that arrives ends somewhere, and from there every
other walk with the same first part goes on. -/
theorem walkWith_append
    {links : Nat} (own : walk root links = walkWith root follow)
    (followed : ∀ start behind rest far, follow start (behind ++ rest) = .ok far →
      ∃ fewer mid, follow start behind = .ok mid ∧
        ∀ further, follow start (behind ++ further) = walk root fewer mid further)
    {place first rest far : List String}
    (walked : walkWith root follow place (first ++ rest) = .ok far) :
    ∃ fewer mid, walkWith root follow place first = .ok mid ∧
      ∀ further, walkWith root follow place (first ++ further) = walk root fewer mid further := by
  -- Behind a link the walk has fewer links left, which `followed` accounts for.
  induction first generalizing place with
  | nil =>
      exact ⟨links, place, rfl, fun _ => by rw [own, List.nil_append]⟩
  | cons piece more inductionHypothesis =>
      rcases @walkWith_cons root follow place piece with
        ⟨fault, ends⟩ | ⟨next, goes⟩ | ⟨start, behind, goes⟩
      · rw [List.cons_append, ends] at walked
        cases walked
      · rw [List.cons_append, goes] at walked
        obtain ⟨fewer, mid, arrives, onward⟩ := inductionHypothesis walked
        refine ⟨fewer, mid, (goes more).trans arrives, ?_⟩
        intro further
        rw [List.cons_append, goes, onward]
      · rw [List.cons_append, goes, ← List.append_assoc] at walked
        obtain ⟨fewer, mid, arrives, onward⟩ := followed _ _ _ _ walked
        refine ⟨fewer, mid, (goes more).trans arrives, ?_⟩
        intro further
        rw [List.cons_append, goes, ← List.append_assoc, onward]

theorem walk_append
    {links : Nat} {place first rest far : List String}
    (walked : walk root links place (first ++ rest) = .ok far) :
    ∃ fewer mid, walk root links place first = .ok mid ∧
      ∀ further, walk root links place (first ++ further) = walk root fewer mid further := by
  induction links generalizing place first rest far with
  | zero =>
      have own : walk root 0 = walkWith root fun _ _ => .error .tooManyLinks := by
        rw [walk]
      rw [own] at walked ⊢
      refine walkWith_append own ?_ walked
      intro start behind rest far arrived
      cases arrived
  | succ links inductionHypothesis =>
      have own : walk root (links + 1) = walkWith root (walk root links) := by
        rw [walk]
      rw [own] at walked ⊢
      exact walkWith_append own (fun _ _ _ _ => inductionHypothesis) walked

theorem exists_walk_eq (root : Item) (links : Nat) :
    ∃ follow, walk root links = walkWith root follow := by
  cases links with
  | zero => exact ⟨_, by rw [walk]⟩
  | succ links => exact ⟨_, by rw [walk]⟩

theorem eq_of_walk_empty
    {links : Nat} {place far : List String} (walked : walk root links place [""] = .ok far) :
    far = place := by
  obtain ⟨follow, own⟩ := exists_walk_eq root links
  rw [own, walkWith] at walked
  cases standing : root.at? place with
  | none =>
      rw [standing] at walked
      cases walked
  | some item =>
      rw [standing] at walked
      cases entered : item.isDirectory with
      | false =>
          simp [entered] at walked
      | true =>
          simp [entered, walkWith] at walked
          exact walked.symm

/-- The walk along a joined path goes on where the walk along its base ends. -/
theorem walk_join
    {links : Nat} {place mid : List String} {base path : String}
    (relative : Path.isAbsolute path = false)
    (walked : walk root links place (Path.pieces base) = .ok mid) :
    ∃ fewer, walk root links place (Path.pieces (Path.join base path)) =
      walk root fewer mid (Path.pieces path) := by
  obtain ⟨front, shape | shape, joined⟩ := Path.pieces_join base relative
  · rw [shape, ← List.append_nil front] at walked
    obtain ⟨fewer, start, arrives, onward⟩ := walk_append walked
    rw [List.append_nil, arrives] at walked
    cases walked
    exact ⟨fewer, by rw [joined, onward]⟩
  · rw [shape] at walked
    obtain ⟨fewer, start, _, onward⟩ := walk_append walked
    rw [onward] at walked
    rw [eq_of_walk_empty walked]
    exact ⟨fewer, by rw [joined, onward]⟩

end

/-! ## Troubles on the way -/

section

variable {root : Item}

/-- A path cannot be looked at: it is too long, or a name on its way is, or a
directory on its way cannot be entered. -/
structure IsBarred (root : Item) (path : String) (fault : Fault) : Prop where
  nullFree : '\x00' ∉ path.toList
  ends : find root path = .error fault
  grave : fault = .nameTooLong ∨ fault = .denied

/-- A test is in trouble only where the path cannot be looked at. -/
theorem holds_eq_error_iff
    {property : Item → Bool} {path : String} {trouble : Trouble} :
    holds root property path = .error trouble ↔
      ∃ fault, IsBarred root path fault ∧ trouble = ⟨fault, path⟩ := by
  unfold holds
  by_cases null : '\x00' ∈ path.toList
  · have notBarred (fault : Fault) : ¬IsBarred root path fault :=
      fun barred => barred.nullFree null
    simp [null, notBarred]
  · rw [if_neg (by simpa using null)]
    constructor
    · intro failed
      cases found : find root path with
      | ok item =>
          rw [found] at failed
          cases failed
      | error fault =>
          rw [found] at failed
          cases fault with
          | denied =>
              cases failed
              exact ⟨.denied, ⟨null, found, Or.inr rfl⟩, rfl⟩
          | nameTooLong =>
              cases failed
              exact ⟨.nameTooLong, ⟨null, found, Or.inl rfl⟩, rfl⟩
          | _ => cases failed
    · rintro ⟨fault, ⟨_, ends, rfl | rfl⟩, rfl⟩
      · rw [ends]
      · rw [ends]

end

/-! ## Files below a directory -/

theorem Item.at?_append (root : Item) (place names : List String) :
    root.at? (place ++ names) = (root.at? place).bind (·.at? names) := by
  induction place generalizing root with
  | nil =>
      rfl
  | cons name rest inductionHypothesis =>
      rw [List.cons_append, Item.at?, Item.at?]
      cases root.entry? name with
      | none => rfl
      | some item => exact inductionHypothesis item

/-- Nothing can be looked up below a link. -/
theorem Item.eq_link_of_at?
    {target : String} {names : List String} {item : Item}
    (standing : Item.at? (.link target) names = some item) : item = .link target := by
  cases names with
  | nil =>
      cases standing
      rfl
  | cons name rest =>
      cases standing

theorem Item.isEnterable_of_entry?
    {item child : Item} {name : String} (found : item.entry? name = some child) :
    item.isDirectory = true ∧ item.isEnterable = true := by
  cases item with
  | file readable octets => cases found
  | link target => cases found
  | directory listable enterable entries =>
      cases enterable with
      | false => cases found
      | true => exact ⟨rfl, rfl⟩

/-- A walk goes along names that lead somewhere one after another, if no link
stands at their end. -/
theorem walkWith_of_at?
    {root tree item : Item} {place names : List String}
    (follow : List String → List String → Except Fault (List String))
    (kept : tree.WellKept) (standing : root.at? place = some tree)
    (leads : tree.at? names = some item) (notLink : ∀ target, item ≠ .link target) :
    walkWith root follow place names = .ok (place ++ names) := by
  induction names generalizing place tree with
  | nil =>
      rw [walkWith, List.append_nil]
  | cons name rest inductionHypothesis =>
      rw [Item.at?] at leads
      cases entry : tree.entry? name with
      | none =>
          rw [entry] at leads
          cases leads
      | some child =>
          rw [entry] at leads
          obtain ⟨entryName, childKept⟩ := kept.entry entry
          obtain ⟨isDirectory, isEnterable⟩ := Item.isEnterable_of_entry? entry
          have childStanding : root.at? (place ++ [name]) = some child := by
            rw [Item.at?_append, standing, Option.bind_some, Item.at?, entry]
            rfl
          have onward := inductionHypothesis childKept childStanding leads
          rw [walkWith, standing]
          dsimp only
          rw [entry]
          simp only [isDirectory, isEnterable, Bool.not_true, Bool.and_false,
            Bool.false_eq_true, if_false, beq_eq_false_iff_ne.mpr entryName.nonempty,
            beq_eq_false_iff_ne.mpr entryName.notHere, beq_eq_false_iff_ne.mpr entryName.notAbove,
            Bool.or_self, if_neg (Nat.not_lt.mpr entryName.short), gt_iff_lt]
          cases child with
          | link target => exact absurd (Item.eq_link_of_at? leads) (notLink target)
          | file readable octets => rw [onward, List.append_assoc]; rfl
          | directory listable enterable below => rw [onward, List.append_assoc]; rfl

theorem locate_eq_ok_iff {root : Item} {path : String} {place : List String} :
    locate root path = .ok place ↔
      path.utf8ByteSize ≤ longestPath ∧
        walk root mostLinks [] (Path.pieces path) = .ok place := by
  unfold locate
  by_cases long : path.utf8ByteSize > longestPath
  · simp [long, Nat.not_le.mpr long]
  · simp [long, Nat.not_lt.mp long]

theorem holds_eq_true_iff {root : Item} {property : Item → Bool} {path : String} :
    holds root property path = .ok true ↔
      '\x00' ∉ path.toList ∧ ∃ item, find root path = .ok item ∧ property item = true := by
  unfold holds
  by_cases null : '\x00' ∈ path.toList
  · simp [null]
  · rw [if_neg (by simpa using null)]
    cases found : find root path with
    | ok item => simp [null]
    | error fault => cases fault <;> simp

section

variable {root tree : Item} {base : String} {names : List String} {readable : Bool}
  {octets : List UInt8}

theorem find_join
    (kept : root.WellKept) (found : find root base = .ok tree) (someName : names ≠ [])
    (leads : tree.at? names = some (.file readable octets))
    (short : (Path.join base (Path.ofComponents names)).utf8ByteSize ≤ longestPath) :
    find root (Path.join base (Path.ofComponents names)) = .ok (.file readable octets) := by
  have treeKept : tree.WellKept := wellKept_of_find kept found
  have steps : ∀ name ∈ names, Path.IsStep name :=
    fun name member => (treeKept.isEntryName_of_at? leads name member).isStep
  obtain ⟨place, located, standing⟩ := find_eq_ok_iff.mp found
  obtain ⟨fewer, onward⟩ :=
    walk_join (Path.isAbsolute_ofComponents steps) (locate_eq_ok_iff.mp located).2
  obtain ⟨follow, own⟩ := exists_walk_eq root fewer
  refine find_eq_ok_iff.mpr ⟨place ++ names, locate_eq_ok_iff.mpr ⟨short, ?_⟩, ?_⟩
  · rw [onward, Path.pieces_ofComponents someName (Path.slashFree_of_isStep steps), own]
    exact walkWith_of_at? follow treeKept standing leads (by simp)
  · rw [Item.at?_append, standing, Option.bind_some]
    exact leads

theorem isFile_join
    (kept : root.WellKept) (found : find root base = .ok tree)
    (nullFree : '\x00' ∉ base.toList) (someName : names ≠ [])
    (leads : tree.at? names = some (.file readable octets))
    (short : (Path.join base (Path.ofComponents names)).utf8ByteSize ≤ longestPath) :
    isFile root (Path.join base (Path.ofComponents names)) = .ok true := by
  have entryNames := (wellKept_of_find kept found).isEntryName_of_at? leads
  refine holds_eq_true_iff.mpr
    ⟨?_, .file readable octets, find_join kept found someName leads short, rfl⟩
  intro member
  rcases Path.mem_of_mem_join (by decide) member with inBase | inNames
  · exact nullFree inBase
  · obtain ⟨name, nameMember, inName⟩ := (Path.mem_ofComponents (by decide)).mp inNames
    exact (entryNames name nameMember).nullFree inName

end

end ModuleAtlas.Disk
