import Mathlib.Tactic.SplitIfs
import ModuleAtlas.Proofs.TreeRecords

/-!
# Records that announce others

Some records announce what comes right behind them.  The export of a declared
function, class or variable comes before the declaration, and a module that is
exported again comes before the exports of its names.

Each statement keeps what it announces within its own records, and the records
of calls announce nothing.  So whatever stands between two statements, nothing
comes between a record and what it announces.
-/

namespace ModuleAtlas.Script

/-- The records behind a record begin with what it announces. -/
def Record.IsFulfilled : Record → List Record → Prop
  | .exported ⟨name, .ofFunction⟩, behind => [.declaredFunction name] <+: behind
  | .exported ⟨name, .ofClass⟩, behind => [.declaredClass name] <+: behind
  | .exported ⟨name, .ofVariable⟩, behind =>
    ∃ initializer, [.declaredVariable ⟨name, initializer⟩] <+: behind
  | .imported ⟨_, specifiers, .reexport⟩, behind =>
    (specifiers.map fun specifier => .exported ⟨specifier.localName, .byName⟩) <+: behind
  | _, _ => True

/-- Every record of the list is followed by what it announces. -/
def AllFulfilled : List Record → Prop
  | [] => True
  | record :: behind => record.IsFulfilled behind ∧ AllFulfilled behind

theorem Record.IsFulfilled.append
    {record : Record} {behind : List Record} (fulfilled : record.IsFulfilled behind)
    (more : List Record) : record.IsFulfilled (behind ++ more) := by
  have longer : behind <+: behind ++ more := List.prefix_append behind more
  unfold IsFulfilled at fulfilled ⊢
  split at fulfilled
  · exact fulfilled.trans longer
  · exact fulfilled.trans longer
  · obtain ⟨initializer, follows⟩ := fulfilled
    exact ⟨initializer, follows.trans longer⟩
  · exact fulfilled.trans longer
  · trivial

namespace AllFulfilled

theorem append
    {left right : List Record} (first : AllFulfilled left) (second : AllFulfilled right) :
    AllFulfilled (left ++ right) := by
  induction left with
  | nil => exact second
  | cons record rest inductionHypothesis =>
      exact ⟨first.1.append right, inductionHypothesis first.2⟩

theorem flatMap
    {Item : Type} {items : List Item} {recordsOf : Item → List Record}
    (each : ∀ item ∈ items, AllFulfilled (recordsOf item)) :
    AllFulfilled (items.flatMap recordsOf) := by
  induction items with
  | nil => trivial
  | cons item rest inductionHypothesis =>
      rw [List.flatMap_cons]
      refine (each item List.mem_cons_self).append (inductionHypothesis ?_)
      intro later member
      exact each later (List.mem_cons_of_mem item member)

/-- What is fulfilled with nothing behind it announces nothing. -/
theorem of_forall
    {records : List Record} (silent : ∀ record ∈ records, record.IsFulfilled []) :
    AllFulfilled records := by
  induction records with
  | nil => trivial
  | cons record rest inductionHypothesis =>
      refine ⟨(silent record List.mem_cons_self).append rest, inductionHypothesis ?_⟩
      intro later member
      exact silent later (List.mem_cons_of_mem record member)

theorem isFulfilled
    {before behind : List Record} {record : Record}
    (fulfilled : AllFulfilled (before ++ record :: behind)) : record.IsFulfilled behind := by
  induction before with
  | nil => exact fulfilled.1
  | cons _ _ inductionHypothesis => exact inductionHypothesis fulfilled.2

end AllFulfilled

namespace Lowering

variable {source : Source}

/-! ## Statements -/

theorem allFulfilled_importStatement (node : Tree) :
    AllFulfilled (importStatement source node) := by
  apply AllFulfilled.of_forall
  intro record member
  unfold importStatement requireClause at member
  split at member
  · split at member
    · cases member
    · rw [List.mem_singleton] at member
      subst member
      trivial
  · split at member
    · cases member
    · rw [List.mem_singleton] at member
      subst member
      trivial

theorem allFulfilled_namedExports (names : List String) :
    AllFulfilled (names.map fun name => .exported ⟨name, .byName⟩) := by
  apply AllFulfilled.of_forall
  intro record member
  obtain ⟨name, _, rfl⟩ := List.mem_map.mp member
  trivial

theorem allFulfilled_reexport (node target : Tree) :
    AllFulfilled (reexport source node target) := by
  refine ⟨?_, allFulfilled_namedExports (exportedNames source node)⟩
  simp only [Record.IsFulfilled, List.map_map, Function.comp_def]
  exact List.prefix_rfl

theorem allFulfilled_exportedDeclaration (declaration : Tree) (isDefault : Bool) :
    AllFulfilled (exportedDeclaration source declaration isDefault) := by
  dsimp only [exportedDeclaration]
  split_ifs with isFunction unnamed byDefault isClass unnamed byDefault isVariable isType
  -- A function: without a name, as the default, or under its name.
  · trivial
  · exact ⟨trivial, trivial, trivial⟩
  · exact ⟨List.prefix_rfl, trivial, trivial⟩
  -- A class, likewise.
  · trivial
  · exact ⟨trivial, trivial, trivial⟩
  · exact ⟨List.prefix_rfl, trivial, trivial⟩
  -- Variables, a type, or anything else.
  · apply AllFulfilled.flatMap
    intro declared _
    exact ⟨⟨declared.initializer, List.prefix_rfl⟩, trivial, trivial⟩
  · exact ⟨trivial, trivial⟩
  · trivial

theorem allFulfilled_exportStatement (node : Tree) :
    AllFulfilled (exportStatement source node) := by
  dsimp only [exportStatement]
  split
  · exact allFulfilled_reexport node _
  · exact allFulfilled_exportedDeclaration _ _
  · split
    · exact ⟨trivial, trivial⟩
    · exact allFulfilled_namedExports _

theorem allFulfilled_assignmentExport (node : Tree) :
    AllFulfilled (assignmentExport source node) := by
  apply AllFulfilled.of_forall
  intro record member
  have commonjs : ∃ name, record = .exported ⟨name, .commonjs⟩ := by
    unfold assignmentExport at member
    grind
  obtain ⟨name, rfl⟩ := commonjs
  trivial

theorem allFulfilled_statement (node : Tree) : AllFulfilled (statement source node) := by
  dsimp only [statement]
  split_ifs with isImport isExport isFunction unnamed isClass unnamed isVariable isExpression
  · exact allFulfilled_importStatement node
  · exact allFulfilled_exportStatement node
  · trivial
  · exact ⟨trivial, trivial⟩
  · trivial
  · exact ⟨trivial, trivial⟩
  · apply AllFulfilled.of_forall
    intro record member
    obtain ⟨declared, _, rfl⟩ := List.mem_map.mp member
    trivial
  · exact allFulfilled_assignmentExport node
  · trivial

/-! ## Programs -/

/-- The records of calls announce nothing. -/
theorem allFulfilled_calls (parent : Option Tree) (node : Tree) :
    AllFulfilled (calls source parent node) := by
  apply AllFulfilled.of_forall
  intro record member
  rcases imported_or_called_of_mem_calls member with ⟨target, bindings, rfl⟩ | ⟨value, rfl⟩
  · trivial
  · trivial

theorem allFulfilled_lower (root : Tree) : AllFulfilled (lower source root) := by
  rw [lower_eq_recordsBelow]
  apply AllFulfilled.flatMap
  intro child _
  exact (allFulfilled_statement child).append (allFulfilled_calls (some root) child)

end Lowering

/-- Wherever a record stands among those of a program, what it announces stands
right behind it. -/
theorem announced_records_follow
    (source : Source) (root : Tree) {before behind : List Record} {record : Record}
    (split : lower source root = before ++ record :: behind) :
    record.IsFulfilled behind := by
  have fulfilled : AllFulfilled (lower source root) := Lowering.allFulfilled_lower root
  rw [split] at fulfilled
  exact fulfilled.isFulfilled

/-- The names that the nodes of `exportingTree` cover. -/
def exportingSource : Source := Source.ofText "f m a b"

/-- A program that exports a function, and two names of another module, one of
them under a new name. -/
def exportingTree : Tree :=
  let name (start : Nat) (field : String) : Tree :=
    ⟨"identifier", start, start + 1, true, some field, false, (0, start), []⟩
  let entry (children : List Tree) : Tree :=
    ⟨"export_specifier", 4, 7, true, none, false, (0, 4), children⟩
  let clause : Tree :=
    ⟨"export_clause", 4, 7, true, none, false, (0, 4),
      [entry [name 4 "name", name 6 "alias"], entry [name 4 "name"]]⟩
  let function : Tree :=
    ⟨"function_declaration", 0, 1, true, some "declaration", false, (0, 0), [name 0 "name"]⟩
  let target : Tree := ⟨"string", 2, 3, true, some "source", false, (0, 2), []⟩
  ⟨"program", 0, 7, true, none, false, (0, 0),
    [⟨"export_statement", 0, 1, true, none, false, (0, 0), [function]⟩,
      ⟨"export_statement", 2, 7, true, none, false, (0, 2), [clause, target]⟩]⟩

theorem announced_records_follow_exportingTree :
    let before : List Record := [.exported ⟨"f", .ofFunction⟩, .declaredFunction "f"]
    let reexported : Record :=
      .imported ⟨"m", [⟨"b", .byName, some "b"⟩, ⟨"a", .byName, some "a"⟩], .reexport⟩
    let behind : List Record := [.exported ⟨"b", .byName⟩, .exported ⟨"a", .byName⟩]
    lower exportingSource exportingTree = before ++ reexported :: behind ∧
      reexported.IsFulfilled behind := by
  intro before reexported behind
  have records : lower exportingSource exportingTree = before ++ reexported :: behind := by
    decide +kernel
  exact ⟨records, announced_records_follow exportingSource exportingTree records⟩

end ModuleAtlas.Script
