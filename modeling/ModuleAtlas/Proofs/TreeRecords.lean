import Mathlib.Data.List.Basic
import ModuleAtlas.Script.Lowering

/-!
# Records of trees

The walk over a tree keeps a list of nodes that wait to be read.  What it
answers is what a recursion over the tree answers: the records of the
statements of a program, each followed by the calls within it.

The nodes of a tree are told apart by their places, which say for each node on
the way down the how-manieth of the constructs below it comes next.  In the
order of the document a place comes before the places below it and before those
further right, which is the order of the alphabet.
-/

namespace ModuleAtlas.Script

namespace Tree

theorem weight_le_weights {tree : Tree} {trees : List Tree} (member : tree ∈ trees) :
    tree.weight ≤ weights trees := by
  induction trees with
  | nil =>
      cases member
  | cons head rest inductionHypothesis =>
      rw [weights]
      rcases List.mem_cons.mp member with rfl | later
      · omega
      · have := inductionHypothesis later
        omega

theorem weight_lt_of_mem_children
    {node child : Tree} (member : child ∈ node.children) :
    child.weight < node.weight := by
  have bound := weight_le_weights member
  rw [weight_eq node]
  omega

theorem weight_lt_of_mem_namedChildren
    {node child : Tree} (member : child ∈ node.namedChildren) :
    child.weight < node.weight :=
  weight_lt_of_mem_children (List.mem_filter.mp member).1

end Tree

namespace Lowering

/-- The records of the calls within a node, itself included: its own record,
then those of the constructs below it. -/
def calls (source : Source) (parent : Option Tree) (node : Tree) : List Record :=
  (if isCall node.kind then (call? source parent node).toList else []) ++
    node.namedChildren.attach.flatMap fun child => calls source (some node) child.1
termination_by node.weight
decreasing_by
  exact Tree.weight_lt_of_mem_namedChildren child.2

theorem calls_eq (source : Source) (parent : Option Tree) (node : Tree) :
    calls source parent node =
      (if isCall node.kind then (call? source parent node).toList else []) ++
        node.namedChildren.flatMap (calls source (some node)) := by
  rw [calls, List.flatMap_subtype fun _ _ => rfl, List.unattach_attach]

/-- The records of a node that waits to be read, and of all nodes below it. -/
def recordsOf (source : Source) (item : Pending) : List Record :=
  (if item.isStatement then statement source item.node else []) ++
    calls source item.parent item.node

theorem recordsOf_eq (source : Source) (item : Pending) :
    recordsOf source item =
      own source item ++ (below item.node false).flatMap (recordsOf source) := by
  have deeper :
      (below item.node false).flatMap (recordsOf source) =
        item.node.namedChildren.flatMap (calls source (some item.node)) := by
    simp [below, recordsOf, List.flatMap_map]
  rw [deeper, recordsOf, own, calls_eq, List.append_assoc]

/-- The walk reads the waiting nodes one after the other, each with all that is
below it. -/
theorem walk_eq (source : Source) (pending : List Pending) :
    walk source pending = pending.flatMap (recordsOf source) := by
  fun_induction walk source pending with
  | case1 =>
      rfl
  | case2 item rest inductionHypothesis =>
      rw [inductionHypothesis, List.flatMap_append, List.flatMap_cons, recordsOf_eq,
        List.append_assoc]

/-! ## Places -/

/-- The waiting node at a place below the given one. -/
def itemAt? (item : Pending) : List Nat → Option Pending
  | [] => some item
  | index :: rest => (below item.node false)[index]?.bind fun child => itemAt? child rest

/-- The waiting node at a place below one of several, which comes first in the
place. -/
def itemAmong? (items : List Pending) : List Nat → Option Pending
  | [] => none
  | index :: rest => items[index]?.bind fun item => itemAt? item rest

/-- The records of the node at a place, without those of the nodes below it. -/
def recordsAt (source : Source) (items : List Pending) (place : List Nat) : List Record :=
  ((itemAmong? items place).map (own source)).getD []

/-- Places listed in the order of the document, none of them twice, with the
records that are read there. -/
structure Covers (places : List (List Nat)) (item? : List Nat → Option Pending)
    (source : Source) (records : List Record) : Prop where
  ordered : places.Pairwise (· < ·)
  mem_iff : ∀ place, place ∈ places ↔ (item? place).isSome
  records : records = places.flatMap fun place => ((item? place).map (own source)).getD []

theorem exists_covers_of_forall
    {source : Source} {items : List Pending}
    (each : ∀ item ∈ items, ∃ places, Covers places (itemAt? item) source (recordsOf source item)) :
    ∃ places, Covers places (itemAmong? items) source (items.flatMap (recordsOf source)) := by
  have chosen : ∀ item, ∃ places, item ∈ items →
      Covers places (itemAt? item) source (recordsOf source item) := by
    intro item
    by_cases member : item ∈ items
    · obtain ⟨places, covers⟩ := each item member
      exact ⟨places, fun _ => covers⟩
    · exact ⟨[], fun given => absurd given member⟩
  choose inner covers using chosen
  have numbered : ∀ item ∈ items.zipIdx, items[item.2]? = some item.1 := by
    intro item member
    exact List.mem_zipIdx_iff_getElem?.mp member
  have coversAt : ∀ item ∈ items.zipIdx,
      Covers (inner item.1) (itemAt? item.1) source (recordsOf source item.1) := by
    intro item member
    exact covers item.1 (List.mem_of_getElem? (numbered item member))
  refine ⟨items.zipIdx.flatMap fun item => (inner item.1).map (item.2 :: ·), ?_, ?_, ?_⟩
  · rw [List.pairwise_flatMap]
    constructor
    · intro item member
      rw [List.pairwise_map]
      refine (coversAt item member).ordered.imp ?_
      intro first second before
      exact List.cons_lt_cons_self.mpr before
    · have indices : (items.zipIdx.map (·.2)).Pairwise (· < ·) := by
        rw [List.zipIdx_map_snd]
        exact List.pairwise_lt_range'
      rw [List.pairwise_map] at indices
      refine indices.imp ?_
      rintro first second before place member other otherMember
      obtain ⟨rest, _, rfl⟩ := List.mem_map.mp member
      obtain ⟨otherRest, _, rfl⟩ := List.mem_map.mp otherMember
      exact List.cons_lt_cons_iff.mpr (Or.inl before)
  · intro place
    constructor
    · intro member
      obtain ⟨item, listed, inItem⟩ := List.mem_flatMap.mp member
      obtain ⟨rest, restMember, rfl⟩ := List.mem_map.mp inItem
      rw [itemAmong?, numbered item listed]
      exact ((coversAt item listed).mem_iff rest).mp restMember
    · intro found
      match place with
      | [] =>
          cases found
      | index :: rest =>
          obtain ⟨last, reached⟩ := Option.isSome_iff_exists.mp found
          obtain ⟨item, here, below⟩ := Option.bind_eq_some_iff.mp reached
          have listed : (item, index) ∈ items.zipIdx := List.mem_zipIdx_iff_getElem?.mpr here
          refine List.mem_flatMap.mpr ⟨(item, index), listed, ?_⟩
          refine List.mem_map.mpr ⟨rest, ?_, rfl⟩
          exact ((coversAt _ listed).mem_iff rest).mpr (Option.isSome_of_eq_some below)
  · rw [List.flatMap_assoc]
    calc items.flatMap (recordsOf source)
        = (items.zipIdx.map (·.1)).flatMap (recordsOf source) := by
          rw [List.zipIdx_map_fst]
      _ = items.zipIdx.flatMap fun item => recordsOf source item.1 := by
          rw [List.flatMap_map]
      _ = _ := by
          apply List.flatMap_congr
          intro item member
          rw [(coversAt item member).records, List.flatMap_map]
          simp only [itemAmong?, numbered item member, Option.bind_some]

theorem itemAt?_of_ne_nil
    (item : Pending) {place : List Nat} (deeper : place ≠ []) :
    itemAt? item place = itemAmong? (below item.node false) place := by
  cases place with
  | nil => exact absurd rfl deeper
  | cons index rest => rfl

theorem exists_covers (source : Source) (item : Pending) :
    ∃ places, Covers places (itemAt? item) source (recordsOf source item) := by
  have each : ∀ child ∈ below item.node false,
      ∃ places, Covers places (itemAt? child) source (recordsOf source child) := by
    intro child member
    obtain ⟨node, listed, rfl⟩ := List.mem_map.mp member
    have smaller : node.weight < item.node.weight :=
      Tree.weight_lt_of_mem_namedChildren listed
    exact exists_covers source ⟨some item.node, node, false⟩
  obtain ⟨places, covers⟩ := exists_covers_of_forall each
  have deeper : ∀ place ∈ places, place ≠ [] := by
    rintro place member rfl
    cases (covers.mem_iff []).mp member
  refine ⟨[] :: places, ?_, ?_, ?_⟩
  · refine List.pairwise_cons.mpr ⟨?_, covers.ordered⟩
    intro place member
    match place, deeper place member with
    | index :: rest, _ => exact List.nil_lt_cons index rest
  · intro place
    match place with
    | [] => simp [itemAt?]
    | index :: rest =>
        rw [itemAt?_of_ne_nil item (List.cons_ne_nil index rest), ← covers.mem_iff]
        simp
  · rw [recordsOf_eq, covers.records, List.flatMap_cons]
    congr 1
    apply List.flatMap_congr
    intro place member
    rw [itemAt?_of_ne_nil item (deeper place member)]
termination_by item.node.weight

/-! ## Declarations -/

/-- Whether the record is an export or a declaration. -/
def isDeclared : Record → Bool
  | .exported _ => true
  | .declaredFunction _ => true
  | .declaredClass _ => true
  | .declaredVariable _ => true
  | .imported _ => false
  | .called _ => false

theorem eq_called_of_memberCall?
    {source : Source} {call callee : Tree} {constructed : Bool} {record : Record}
    (found : memberCall? source call callee constructed = some record) :
    ∃ value, record = .called value := by
  unfold memberCall? at found
  split at found
  · split at found
    · cases found
    · split at found
      · cases found
        exact ⟨_, rfl⟩
      · cases found
  · cases found

/-- A call is kept as an import by name or as a call of a member. -/
theorem imported_or_called_of_call?
    {source : Source} {parent : Option Tree} {call : Tree} {record : Record}
    (found : call? source parent call = some record) :
    (∃ target bindings, record = .imported ⟨target, bindings, .require⟩) ∨
      ∃ value, record = .called value := by
  dsimp only [call?] at found
  split at found
  · cases found
  · split at found
    · obtain ⟨target, _, rfl⟩ := Option.map_eq_some_iff.mp found
      exact Or.inl ⟨target, _, rfl⟩
    · exact Or.inr (eq_called_of_memberCall? found)

theorem imported_or_called_of_mem_calls
    {source : Source} {parent : Option Tree} {node : Tree} {record : Record}
    (member : record ∈ calls source parent node) :
    (∃ target bindings, record = .imported ⟨target, bindings, .require⟩) ∨
      ∃ value, record = .called value := by
  rw [calls_eq] at member
  rcases List.mem_append.mp member with own | deeper
  · split at own
    · exact imported_or_called_of_call? (Option.mem_toList.mp own)
    · cases own
  · obtain ⟨child, listed, inChild⟩ := List.mem_flatMap.mp deeper
    have smaller : child.weight < node.weight := Tree.weight_lt_of_mem_namedChildren listed
    exact imported_or_called_of_mem_calls inChild
termination_by node.weight

theorem isDeclared_of_mem_calls
    {source : Source} {parent : Option Tree} {node : Tree} {record : Record}
    (member : record ∈ calls source parent node) :
    isDeclared record = false := by
  rcases imported_or_called_of_mem_calls member with ⟨target, bindings, rfl⟩ | ⟨value, rfl⟩
  · rfl
  · rfl

theorem filter_isDeclared_calls (source : Source) (parent : Option Tree) (node : Tree) :
    (calls source parent node).filter isDeclared = [] := by
  rw [List.filter_eq_nil_iff]
  intro record member
  rw [isDeclared_of_mem_calls member]
  exact Bool.false_ne_true

/-! ## Parents -/

theorem requireBindings_of_kind_ne
    {source : Source} {parent call : Tree} (other : parent.kind ≠ "variable_declarator") :
    requireBindings source (some parent) call = [] := by
  simp [requireBindings, other]

theorem call?_of_kind_ne
    {source : Source} {parent call : Tree} (other : parent.kind ≠ "variable_declarator") :
    call? source (some parent) call = call? source none call := by
  unfold call?
  rw [requireBindings_of_kind_ne other]
  rfl

/-- Only a declarator has a say in the records of a construct below it. -/
theorem calls_of_kind_ne
    {source : Source} {parent node : Tree} (other : parent.kind ≠ "variable_declarator") :
    calls source (some parent) node = calls source none node := by
  rw [calls_eq, calls_eq, call?_of_kind_ne other]

/-! ## Programs -/

/-- The records of constructs directly below the root of a program, each with
all that is below it. -/
def recordsBelow (source : Source) (root : Tree) (children : List Tree) : List Record :=
  (children.filter (·.named)).flatMap fun child =>
    statement source child ++ calls source (some root) child

theorem recordsBelow_append (source : Source) (root : Tree) (before behind : List Tree) :
    recordsBelow source root (before ++ behind) =
      recordsBelow source root before ++ recordsBelow source root behind := by
  rw [recordsBelow, List.filter_append, List.flatMap_append]
  rfl

theorem recordsBelow_of_kind_ne
    {source : Source} {root another : Tree} {children : List Tree}
    (other : root.kind ≠ "variable_declarator") (same : another.kind = root.kind) :
    recordsBelow source root children = recordsBelow source another children := by
  have alsoOther : another.kind ≠ "variable_declarator" := by
    rw [same]
    exact other
  apply List.flatMap_congr
  intro child _
  rw [calls_of_kind_ne other, calls_of_kind_ne alsoOther]

end Lowering

open Lowering

theorem lower_eq_recordsBelow (source : Source) (root : Tree) :
    lower source root = recordsBelow source root root.children := by
  rw [lower, walk_eq, below, List.flatMap_map]
  rfl

/-- The records of a statement stand together among those of the program. -/
theorem statement_isInfix_lower
    {source : Source} {root child : Tree} (member : child ∈ root.namedChildren) :
    statement source child <:+: lower source root := by
  obtain ⟨before, behind, order⟩ := List.append_of_mem member
  have split :
      lower source root =
        (before.flatMap fun other => statement source other ++ calls source (some root) other) ++
          statement source child ++
            (calls source (some root) child ++
              behind.flatMap fun other =>
                statement source other ++ calls source (some root) other) := by
    rw [lower_eq_recordsBelow, recordsBelow, ← Tree.namedChildren, order]
    simp only [List.flatMap_append, List.flatMap_cons, List.append_assoc]
  rw [split]
  exact List.infix_append _ _ _

theorem filter_isDeclared_lower (source : Source) (root : Tree) :
    (lower source root).filter isDeclared =
      root.namedChildren.flatMap fun child => (statement source child).filter isDeclared := by
  rw [lower_eq_recordsBelow, recordsBelow, List.filter_flatMap]
  apply List.flatMap_congr
  intro child _
  rw [List.filter_append, filter_isDeclared_calls, List.append_nil]

theorem exists_covers_lower (source : Source) (root : Tree) :
    ∃ places, Covers places (itemAmong? (below root true)) source (lower source root) := by
  rw [lower, walk_eq]
  exact exists_covers_of_forall fun item _ => exists_covers source item

/-- The records of a program are those of the constructs directly below its
root, in order, for each the records of the statement and then those of the
calls within it.  So exports and declarations come from statements alone, every
node is read once and in the order of the document, and the records of more
children follow those of the children before.

A declarator shows its names to the call that is its value; a root of any other
kind can as well be cut in two. -/
theorem lower_follows_tree (source : Source) (root : Tree) :
    lower source root =
        (root.namedChildren.flatMap fun child =>
          statement source child ++ calls source (some root) child) ∧
      (lower source root).filter isDeclared =
        (root.namedChildren.flatMap fun child => (statement source child).filter isDeclared) ∧
      (∃ places : List (List Nat),
        places.Pairwise (· < ·) ∧
          (∀ place, place ∈ places ↔ (itemAmong? (below root true) place).isSome) ∧
          lower source root = places.flatMap (recordsAt source (below root true))) ∧
      ∀ before behind,
        let whole := { root with children := before ++ behind }
        lower source whole = recordsBelow source whole before ++ recordsBelow source whole behind ∧
          (root.kind ≠ "variable_declarator" →
            lower source whole =
              lower source { root with children := before } ++
                lower source { root with children := behind }) := by
  refine ⟨lower_eq_recordsBelow source root, filter_isDeclared_lower source root, ?_, ?_⟩
  · obtain ⟨places, covers⟩ := exists_covers_lower source root
    exact ⟨places, covers.ordered, covers.mem_iff, covers.records⟩
  · intro before behind whole
    have split :
        lower source whole =
          recordsBelow source whole before ++ recordsBelow source whole behind := by
      rw [lower_eq_recordsBelow]
      exact recordsBelow_append source whole before behind
    refine ⟨split, ?_⟩
    intro other
    have first : lower source { root with children := before } =
        recordsBelow source whole before := by
      rw [lower_eq_recordsBelow]
      exact recordsBelow_of_kind_ne other rfl
    have second : lower source { root with children := behind } =
        recordsBelow source whole behind := by
      rw [lower_eq_recordsBelow]
      exact recordsBelow_of_kind_ne other rfl
    rw [split, first, second]

example :
    let name : Tree := ⟨"identifier", 0, 1, true, some "name", false, (0, 0), []⟩
    let callee : Tree := ⟨"identifier", 2, 9, true, some "function", false, (0, 2), []⟩
    let text : Tree := ⟨"string", 10, 13, true, none, false, (0, 10), []⟩
    let arguments : Tree := ⟨"arguments", 9, 14, true, some "arguments", false, (0, 9), [text]⟩
    let value : Tree :=
      ⟨"call_expression", 2, 14, true, some "value", false, (0, 2), [callee, arguments]⟩
    let declarator (children : List Tree) : Tree :=
      ⟨"variable_declarator", 0, 14, true, none, false, (0, 0), children⟩
    let source := Source.ofText "a=require('m')"
    lower source (declarator [name, value]) =
        [.imported ⟨"m", [⟨"a", .wholeModule, none⟩], .require⟩] ∧
      lower source (declarator [value]) = [.imported ⟨"m", [], .require⟩] := by
  decide +kernel

end ModuleAtlas.Script
