import ModuleAtlas.Proofs.TreeRecords
import ModuleAtlas.Proofs.TrimmedTexts
import ModuleAtlas.Script.Fault

/-!
# Faults of trees

A tree with errors is described by the first of its nodes, in the order of the
document, that is missing or covers octets that fit nowhere.  The search for
that node passes over the parts of the tree without errors, and keeps the nodes
that wait to be looked at in a list.  Both leave no faulty node out, since a
tree has errors exactly if one of its nodes is faulty.

What is shown of the octets that fit nowhere is never empty, unless they are all
blank: everything that ends a line is blank, so a text that does not begin with
a blank begins with a line that is not empty.
-/

namespace ModuleAtlas.Text

/-! ## First lines -/

theorem isBlank_of_isLineEnd {character : Char} (ends : isLineEnd character = true) :
    isBlank character = true := by
  simp only [isLineEnd, isBlank, Bool.or_eq_true, Bool.and_eq_true, decide_eq_true_eq,
    beq_iff_eq] at ends ⊢
  omega

/-- The first line reaches up to the first character that ends a line. -/
theorem head?_linesFrom
    {pending characters : List Char} {begun : Bool} (line : begun = true ∨ characters ≠ []) :
    (linesFrom pending begun characters).head? =
      some (pending.reverse ++ characters.takeWhile fun character => !isLineEnd character) := by
  fun_induction linesFrom pending begun characters with
  | case1 pending =>
      simp
  | case2 pending begun notBegun =>
      rcases line with under | shown
      · exact absurd under notBegun
      · exact absurd rfl shown
  | case3 pending begun rest =>
      have ends : isLineEnd '\r' = true := by decide
      simp [ends]
  | case4 pending begun character rest _ ends =>
      simp [ends]
  | case5 pending begun character rest _ goesOn inductionHypothesis =>
      rw [inductionHypothesis (Or.inl rfl)]
      simp [goesOn]

/-- The first line of a text that is not all blank, with the blanks around it
gone. It is not empty. -/
theorem exists_lines_trim_eq_cons
    {text : String} (visible : isAllBlank text = false) :
    ∃ first rest others,
      lines (trim text) = String.ofList (first :: rest) :: others := by
  obtain ⟨first, others, begins, notBlank⟩ := exists_trimWhile_eq_cons visible
  have goesOn : isLineEnd first = false := by
    cases ends : isLineEnd first with
    | false => rfl
    | true =>
        rw [isBlank_of_isLineEnd ends] at notBlank
        cases notBlank
  have head :
      (linesFrom [] false (first :: others)).head? =
        some (first :: others.takeWhile fun character => !isLineEnd character) := by
    rw [head?_linesFrom (Or.inr (List.cons_ne_nil first others))]
    simp [goesOn]
  obtain ⟨later, shape⟩ := List.head?_eq_some_iff.mp head
  refine ⟨first, others.takeWhile fun character => !isLineEnd character,
    later.map String.ofList, ?_⟩
  rw [lines, trim, String.toList_ofList, trimList, begins, shape, List.map_cons]

theorem lines_trim_of_isAllBlank
    {text : String} (blank : isAllBlank text = true) : lines (trim text) = [] := by
  rw [lines, trim, String.toList_ofList, trimList, trimWhile_of_all blank]
  rfl

end ModuleAtlas.Text

namespace ModuleAtlas.Script

namespace Tree

/-- Whether the node itself is missing or covers octets that fit nowhere. -/
def isFaulty (node : Tree) : Bool :=
  node.isError || node.missing

/-! ## The order of the document -/

mutual

/-- The nodes of a tree in the order of the document: a node, then those below
it, punctuation included. -/
def preorder : Tree → List Tree
  | ⟨kind, start, stop, named, field, missing, point, children⟩ =>
    ⟨kind, start, stop, named, field, missing, point, children⟩ :: preorders children

/-- The nodes of trees that stand one behind the other. -/
def preorders : List Tree → List Tree
  | [] => []
  | tree :: rest => preorder tree ++ preorders rest

end

theorem preorders_eq (trees : List Tree) : preorders trees = trees.flatMap preorder := by
  induction trees with
  | nil => rfl
  | cons tree rest inductionHypothesis =>
      rw [preorders, inductionHypothesis, List.flatMap_cons]

theorem preorder_eq (tree : Tree) :
    tree.preorder = tree :: tree.children.flatMap preorder := by
  cases tree
  rw [preorder, preorders_eq]

theorem anyError_eq (trees : List Tree) : anyError trees = trees.any hasError := by
  induction trees with
  | nil => rfl
  | cons tree rest inductionHypothesis =>
      rw [anyError, inductionHypothesis, List.any_cons]

theorem hasError_eq (tree : Tree) :
    tree.hasError = (tree.isFaulty || tree.children.any hasError) := by
  cases tree
  rw [hasError, anyError_eq]
  rfl

/-- A tree has errors exactly if one of its nodes is faulty. -/
theorem hasError_iff (tree : Tree) :
    tree.hasError = true ↔ ∃ node ∈ tree.preorder, node.isFaulty = true := by
  rw [hasError_eq, preorder_eq, Bool.or_eq_true, List.any_eq_true]
  constructor
  · rintro (faulty | ⟨child, listed, broken⟩)
    · exact ⟨tree, List.mem_cons_self, faulty⟩
    · have smaller : child.weight < tree.weight := weight_lt_of_mem_children listed
      obtain ⟨node, member, faulty⟩ := (hasError_iff child).mp broken
      have below := List.mem_flatMap.mpr ⟨child, listed, member⟩
      exact ⟨node, List.mem_cons_of_mem tree below, faulty⟩
  · rintro ⟨node, member, faulty⟩
    rcases List.mem_cons.mp member with rfl | below
    · exact Or.inl faulty
    · obtain ⟨child, listed, inChild⟩ := List.mem_flatMap.mp below
      have smaller : child.weight < tree.weight := weight_lt_of_mem_children listed
      exact Or.inr ⟨child, listed, (hasError_iff child).mpr ⟨node, inChild, faulty⟩⟩
termination_by tree.weight

/-- The node that comes first among the faulty nodes of a tree. -/
def IsFirstFaulty (tree node : Tree) : Prop :=
  node.isFaulty = true ∧
    ∃ before behind,
      tree.preorder = before ++ node :: behind ∧ ∀ other ∈ before, other.isFaulty = false

end Tree

namespace SyntaxFault

/-! ## Snippets -/

/-- A snippet shows the first line of a text, cut short. It is empty only if
there is nothing to show. -/
structure IsSnippet (shown text : String) : Prop where
  eq_empty_iff : shown = "" ↔ Text.isAllBlank text = true
  firstLine : Text.isAllBlank text = false →
    ∃ line others, Text.lines (Text.trim text) = line :: others ∧ shown = Text.take 20 line

theorem isSnippet_snippet (text : String) : IsSnippet (snippet text) text := by
  cases blank : Text.isAllBlank text with
  | true =>
      have empty : snippet text = "" := by
        rw [snippet, Text.lines_trim_of_isAllBlank blank]
      exact ⟨iff_of_true empty blank, fun visible => by rw [blank] at visible; cases visible⟩
  | false =>
      obtain ⟨first, rest, others, shape⟩ := Text.exists_lines_trim_eq_cons blank
      have shown : snippet text = Text.take 20 (String.ofList (first :: rest)) := by
        rw [snippet, shape]
        rfl
      have notEmpty : snippet text ≠ "" := by
        rw [shown]
        simp [Text.take]
      exact ⟨iff_of_false notEmpty (by rw [blank]; exact Bool.false_ne_true),
        fun _ => ⟨_, others, shape, shown⟩⟩

/-! ## The search -/

theorem ofNode?_eq_none_iff {source : Source} {node : Tree} :
    ofNode? source node = none ↔ node.isFaulty = false := by
  unfold ofNode? Tree.isFaulty
  cases node.missing <;> cases node.isError <;> simp

/-- There is nothing to find in a tree without errors. -/
theorem findSome?_preorder_of_sound
    {source : Source} {tree : Tree} (sound : tree.hasError = false) :
    tree.preorder.findSome? (ofNode? source) = none := by
  rw [List.findSome?_eq_none_iff]
  intro node member
  rw [ofNode?_eq_none_iff, ← Bool.not_eq_true]
  intro faulty
  rw [(Tree.hasError_iff tree).mpr ⟨node, member, faulty⟩] at sound
  cases sound

/-- The trees without errors can be passed over. -/
theorem findSome?_filter_hasError (source : Source) (trees : List Tree) :
    ((trees.filter Tree.hasError).flatMap Tree.preorder).findSome? (ofNode? source) =
      (trees.flatMap Tree.preorder).findSome? (ofNode? source) := by
  induction trees with
  | nil => rfl
  | cons tree rest inductionHypothesis =>
      rw [List.flatMap_cons, List.findSome?_append, ← inductionHypothesis]
      cases broken : tree.hasError with
      | true =>
          rw [List.filter_cons_of_pos broken, List.flatMap_cons, List.findSome?_append]
      | false =>
          rw [List.filter_cons_of_neg (by rw [broken]; exact Bool.false_ne_true),
            findSome?_preorder_of_sound broken, Option.none_or]

/-- The search looks at the nodes of the waiting trees in the order of the
document. -/
theorem first?_eq (source : Source) (pending : List Tree) :
    first? source pending =
      (pending.flatMap Tree.preorder).findSome? (ofNode? source) := by
  fun_induction first? source pending with
  | case1 => rfl
  | case2 node rest fault found =>
      rw [List.flatMap_cons, Tree.preorder_eq, List.cons_append, List.findSome?_cons, found]
  | case3 node rest sound inductionHypothesis =>
      -- Only the children with errors wait; the others hold nothing to find.
      rw [inductionHypothesis, List.flatMap_append, List.flatMap_cons, Tree.preorder_eq,
        List.cons_append, List.findSome?_cons, sound, List.findSome?_append,
        List.findSome?_append, faulty, findSome?_filter_hasError]

/-! ## The description -/

/-- What is said about a faulty node: its place, and what is wrong with it. -/
structure Describes (source : Source) (node : Tree) (fault : SyntaxFault) : Prop where
  line : fault.line = node.point.1 + 1
  column : fault.column = node.point.2
  missing : node.missing = true →
    fault.message = s!"Missing {Text.Quoted.quote node.kind} ({fault.line}:{fault.column})"
  unexpected : node.missing = false →
    ∃ shown, IsSnippet shown (source.text node) ∧
      fault.message = s!"Unexpected token {Text.Quoted.quote shown} ({fault.line}:{fault.column})"
  specific : fault.cause ≠ .unspecified

theorem describes_of_ofNode?
    {source : Source} {node : Tree} {fault : SyntaxFault}
    (found : ofNode? source node = some fault) : Describes source node fault := by
  unfold ofNode? at found
  cases missing : node.missing with
  | true =>
      rw [missing, if_pos rfl, Option.some.injEq] at found
      subst found
      exact
        { line := rfl
          column := rfl
          missing := fun _ => rfl
          unexpected := fun present => by rw [missing] at present; cases present
          specific := FaultCause.noConfusion }
  | false =>
      rw [missing, if_neg Bool.false_ne_true] at found
      split at found
      · rw [Option.some.injEq] at found
        subst found
        exact
          { line := rfl
            column := rfl
            missing := fun absent => by rw [missing] at absent; cases absent
            unexpected := fun _ => ⟨_, isSnippet_snippet _, rfl⟩
            specific := FaultCause.noConfusion }
      · cases found

/-- A tree with errors is described by the first of its nodes that is missing or
covers octets that fit nowhere. -/
theorem describes_first_faulty_node
    (source : Source) (root : Tree) (broken : root.hasError = true) :
    ∃ node, Tree.IsFirstFaulty root node ∧ Describes source node (describe source root) := by
  have searched : first? source [root] = root.preorder.findSome? (ofNode? source) := by
    rw [first?_eq, List.flatMap_singleton]
  obtain ⟨fault, found⟩ : ∃ fault, first? source [root] = some fault := by
    rw [← Option.ne_none_iff_exists', searched, Ne, List.findSome?_eq_none_iff]
    intro none_faulty
    obtain ⟨node, member, faulty⟩ := (Tree.hasError_iff root).mp broken
    rw [ofNode?_eq_none_iff.mp (none_faulty node member)] at faulty
    cases faulty
  have described : describe source root = fault := by
    rw [describe, found, Option.getD_some]
  rw [searched, List.findSome?_eq_some_iff] at found
  obtain ⟨before, node, behind, order, here, earlier⟩ := found
  refine ⟨node, ⟨?_, before, behind, order, ?_⟩, ?_⟩
  · rw [← Bool.not_eq_false, ← ofNode?_eq_none_iff, here]
    exact Option.some_ne_none fault
  · intro other member
    exact ofNode?_eq_none_iff.mp (earlier other member)
  · rw [described]
    exact describes_of_ofNode? here

/-- A source with a sound first line and two lines that fit nowhere. -/
def straySource : Source := Source.ofText "ok\n  it's\nnot"

/-- A tree of that source: the lines that fit nowhere lie below a mark, and a
missing mark comes behind them. -/
def strayTree : Tree :=
  let name : Tree := ⟨"identifier", 0, 2, true, none, false, (0, 0), []⟩
  let stray : Tree := ⟨"ERROR", 3, 13, true, none, false, (1, 0), []⟩
  ⟨"program", 0, 13, true, none, false, (0, 0),
    [⟨"expression_statement", 0, 2, true, none, false, (0, 0), [name]⟩,
      ⟨"(", 3, 13, false, none, false, (1, 0), [stray]⟩,
      ⟨";", 13, 13, false, none, true, (2, 3), []⟩]⟩

theorem describes_first_faulty_node_strayTree :
    strayTree.hasError = true ∧
      ∃ node, Tree.IsFirstFaulty strayTree node ∧
        Describes straySource node (describe straySource strayTree) := by
  have broken : strayTree.hasError = true := by decide
  exact ⟨broken, describes_first_faulty_node straySource strayTree broken⟩

example :
    (describe straySource strayTree).message = "Unexpected token \"it's\" (2:0)" := by
  decide +kernel

end SyntaxFault

end ModuleAtlas.Script
