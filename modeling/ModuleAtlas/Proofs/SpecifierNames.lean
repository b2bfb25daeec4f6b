import Mathlib.Data.List.Forall2
import Mathlib.Tactic.SplitIfs
import ModuleAtlas.Proofs.TreeRecords

/-!
# Names of specifiers

An entry of a list of names, `a as b`, has the name that the other module gives
to a thing and the name that it has from there on.  A list of imports keeps
both.  The names of a module that is exported again are read as those of an
export, which has only the second: there the first is lost when the entry
renames the thing.
-/

namespace ModuleAtlas.Script.Lowering

/-- The name that an entry gives to a thing: its new name if it has one. -/
def boundName (source : Source) (entry : Tree) : String :=
  if source.childText entry "alias" = "" then source.childText entry "name"
  else source.childText entry "alias"

/-- A specifier with both names of an entry. -/
structure KeepsSourceName (source : Source) (entry : Tree) (specifier : Specifier) : Prop where
  kind : specifier.kind = .byName
  importedName : specifier.importedName = some (source.childText entry "name")
  localName : specifier.localName = boundName source entry

/-- What is imported by name according to some records. -/
def namedSpecifiers (records : List Record) : List Specifier :=
  records.flatMap fun
    | .imported value => value.specifiers.filter fun specifier => specifier.kind = .byName
    | _ => []

theorem namedSpecifiers_imported_cons (value : Import) (rest : List Record) :
    namedSpecifiers (.imported value :: rest) =
      (value.specifiers.filter fun specifier => specifier.kind = .byName) ++
        namedSpecifiers rest := rfl

theorem exportedName_eq (source : Source) (entry : Tree) :
    exportedName source entry = boundName source entry := by
  simp [exportedName, boundName]

/-! ## Lists of imports -/

/-- The entries of a part of an import clause. -/
def partEntries (part : Tree) : List Tree :=
  if part.kind = "named_imports" then
    part.namedChildren.filter fun entry => entry.kind == "import_specifier"
  else []

/-- The entries of an import statement. A statement without a source imports
nothing, and one of the form `name = require("…")` nothing by name. -/
def importEntries (node : Tree) : List Tree :=
  if (node.child? "source").isSome
      ∧ ∀ child ∈ node.namedChildren, child.kind ≠ "import_require_clause" then
    (node.namedChildren.filter fun child => child.kind == "import_clause").flatMap fun clause =>
      clause.namedChildren.flatMap partEntries
  else []

theorem keepsSourceName_importSpecifier (source : Source) (entry : Tree) :
    KeepsSourceName source entry (importSpecifier source entry) where
  kind := rfl
  importedName := rfl
  localName := by simp [importSpecifier, boundName]

theorem filter_clausePart (source : Source) (part : Tree) :
    ((clausePart source part).filter fun specifier => specifier.kind = .byName) =
      (partEntries part).map (importSpecifier source) := by
  unfold partEntries
  split_ifs with isNamed
  · have shape :
        clausePart source part =
          (part.namedChildren.filter fun entry => entry.kind == "import_specifier").map
            (importSpecifier source) := by
      simp [clausePart, isNamed]
    rw [shape, List.filter_eq_self]
    intro specifier member
    obtain ⟨entry, _, rfl⟩ := List.mem_map.mp member
    exact decide_eq_true (keepsSourceName_importSpecifier source entry).kind
  · have other : (part.kind == "named_imports") = false := beq_false_of_ne isNamed
    unfold clausePart
    rw [other, if_neg Bool.false_ne_true]
    split_ifs with isIdentifier isNamespace
    · rfl
    · split
      · rfl
      · rfl
    · rfl

theorem filter_importClause (source : Source) (clause : Tree) :
    ((importClause source clause).filter fun specifier => specifier.kind = .byName) =
      (clause.namedChildren.flatMap partEntries).map (importSpecifier source) := by
  rw [importClause, List.filter_flatMap, List.map_flatMap]
  simp only [filter_clausePart]

theorem namedSpecifiers_requireClause (source : Source) (clause : Tree) :
    namedSpecifiers (requireClause source clause) = [] := by
  unfold requireClause
  cases clause.child? "source" with
  | none => rfl
  | some target =>
      cases identifier? clause with
      | none => rfl
      | some name => rfl

theorem namedSpecifiers_importStatement (source : Source) (node : Tree) :
    namedSpecifiers (importStatement source node) =
      (importEntries node).map (importSpecifier source) := by
  cases settled : node.namedChildren.find? fun child => child.kind == "import_require_clause" with
  | some clause =>
      -- The clause settles the statement, whatever other clauses it has.
      have isRequire : clause.kind = "import_require_clause" := by
        simpa using List.find?_some settled
      have none_named : importEntries node = [] := by
        rw [importEntries, if_neg]
        rintro ⟨_, others⟩
        exact others clause (List.mem_of_find?_eq_some settled) isRequire
      rw [none_named, importStatement, settled]
      exact namedSpecifiers_requireClause source clause
  | none =>
      cases sourced : node.child? "source" with
      | none =>
          rw [importStatement, settled, sourced, importEntries, sourced]
          simp [namedSpecifiers]
      | some target =>
          have others : ∀ child ∈ node.namedChildren, child.kind ≠ "import_require_clause" := by
            simpa using settled
          rw [importStatement, settled, sourced, importEntries, sourced,
            if_pos ⟨rfl, others⟩, List.map_flatMap]
          simp only [namedSpecifiers, List.flatMap_singleton, List.filter_flatMap,
            filter_importClause]

/-! ## Modules that are exported again -/

/-- The entries of an export statement that has a source, those without any name
left out. -/
def exportEntries (source : Source) (node : Tree) : List Tree :=
  if (node.child? "source").isSome then
    ((node.namedChildren.filter fun child => child.kind == "export_clause").flatMap fun clause =>
        clause.namedChildren.filter fun entry => entry.kind == "export_specifier").filter
      fun entry => boundName source entry ≠ ""
  else []

/-- The specifier of a thing that is exported again under its bound name. -/
def reexportSpecifier (source : Source) (entry : Tree) : Specifier :=
  ⟨boundName source entry, .byName, some (boundName source entry)⟩

theorem keepsSourceName_reexportSpecifier_iff {source : Source} {entry : Tree} :
    KeepsSourceName source entry (reexportSpecifier source entry) ↔
      source.childText entry "alias" = "" ∨
        source.childText entry "alias" = source.childText entry "name" := by
  have named :
      KeepsSourceName source entry (reexportSpecifier source entry) ↔
        boundName source entry = source.childText entry "name" := by
    constructor
    · intro keeps
      exact Option.some.inj keeps.importedName
    · intro same
      exact ⟨rfl, congrArg some same, rfl⟩
  rw [named, boundName]
  split_ifs with plain
  · simp [plain]
  · simp [plain]

theorem exportedNames_eq {source : Source} {node target : Tree}
    (sourced : node.child? "source" = some target) :
    exportedNames source node = (exportEntries source node).map (boundName source) := by
  have named :
      ((fun name : String => !name.isEmpty) ∘ exportedName source) =
        fun entry => decide (boundName source entry ≠ "") := by
    funext entry
    rw [Bool.eq_iff_iff]
    simp [exportedName_eq]
  rw [exportEntries, sourced, if_pos Option.isSome_some, exportedNames, List.filter_map, named]
  apply List.map_congr_left
  intro entry _
  exact exportedName_eq source entry

theorem namedSpecifiers_of_isDeclared
    {records : List Record} (declared : ∀ record ∈ records, isDeclared record = true) :
    namedSpecifiers records = [] := by
  rw [namedSpecifiers, List.flatMap_eq_nil_iff]
  intro record member
  cases record with
  | imported value => cases declared _ member
  | exported value => rfl
  | declaredFunction name => rfl
  | declaredClass name => rfl
  | declaredVariable value => rfl
  | called value => rfl

theorem isDeclared_of_mem_exportedDeclaration
    {source : Source} {declaration : Tree} {isDefault : Bool} {record : Record}
    (member : record ∈ exportedDeclaration source declaration isDefault) :
    isDeclared record = true := by
  unfold exportedDeclaration at member
  grind [isDeclared]

theorem isDeclared_of_mem_namedExports
    {names : List String} {record : Record}
    (member : record ∈ names.map fun name => Record.exported ⟨name, .byName⟩) :
    isDeclared record = true := by
  obtain ⟨name, _, rfl⟩ := List.mem_map.mp member
  rfl

theorem namedSpecifiers_reexport {source : Source} {node target : Tree}
    (sourced : node.child? "source" = some target) :
    namedSpecifiers (reexport source node target) =
      (exportEntries source node).map (reexportSpecifier source) := by
  have exports :
      namedSpecifiers ((exportedNames source node).map fun name => .exported ⟨name, .byName⟩) =
        [] :=
    namedSpecifiers_of_isDeclared fun _ => isDeclared_of_mem_namedExports
  have specifiers :
      ((exportedNames source node).map fun name => (⟨name, .byName, some name⟩ : Specifier)) =
        (exportEntries source node).map (reexportSpecifier source) := by
    rw [exportedNames_eq sourced, List.map_map]
    rfl
  rw [reexport, namedSpecifiers_imported_cons, exports, specifiers, List.append_nil,
    List.filter_eq_self]
  intro specifier member
  obtain ⟨entry, _, rfl⟩ := List.mem_map.mp member
  rfl

theorem namedSpecifiers_exportStatement (source : Source) (node : Tree) :
    namedSpecifiers (exportStatement source node) =
      (exportEntries source node).map (reexportSpecifier source) := by
  cases sourced : node.child? "source" with
  | some target =>
      rw [exportStatement, sourced]
      exact namedSpecifiers_reexport sourced
  | none =>
      have none_named : exportEntries source node = [] := by
        rw [exportEntries, sourced, if_neg (by simp)]
      rw [none_named, exportStatement, sourced]
      apply namedSpecifiers_of_isDeclared
      intro record member
      cases declared : node.child? "declaration" with
      | some declaration =>
          rw [declared] at member
          exact isDeclared_of_mem_exportedDeclaration member
      | none =>
          simp only [declared] at member
          split_ifs at member with isDefault
          · rw [List.mem_singleton.mp member]
            rfl
          · exact isDeclared_of_mem_namedExports member

/-! ## Both lists -/

/-- What the entries of an import statement import by name keeps both names of
its entry.  What the entries of an export statement with a source import keeps
the name that the other module gives to a thing exactly if the entry gives it no
other. -/
theorem specifier_keeps_source_name_iff
    (source : Source) {root child : Tree} (member : child ∈ root.namedChildren) :
    statement source child <:+: lower source root ∧
      (child.kind = "import_statement" →
        List.Forall₂ (KeepsSourceName source) (importEntries child)
          (namedSpecifiers (statement source child))) ∧
      (child.kind = "export_statement" →
        List.Forall₂
          (fun entry specifier =>
            specifier.kind = .byName ∧ specifier.localName = boundName source entry ∧
              (KeepsSourceName source entry specifier ↔
                source.childText entry "alias" = "" ∨
                  source.childText entry "alias" = source.childText entry "name"))
          (exportEntries source child) (namedSpecifiers (statement source child))) := by
  refine ⟨statement_isInfix_lower member, ?_, ?_⟩
  · intro isImport
    have shape : statement source child = importStatement source child := by
      simp [statement, isImport]
    rw [shape, namedSpecifiers_importStatement, List.forall₂_map_right_iff, List.forall₂_same]
    intro entry _
    exact keepsSourceName_importSpecifier source entry
  · intro isExport
    have shape : statement source child = exportStatement source child := by
      simp [statement, isExport]
    rw [shape, namedSpecifiers_exportStatement, List.forall₂_map_right_iff, List.forall₂_same]
    intro entry _
    exact ⟨rfl, rfl, keepsSourceName_reexportSpecifier_iff⟩

/-- The text that the nodes of `renamingEntry` cover: `a as b` from `m`. -/
def renamingSource : Source := Source.ofText "a b m"

/-- An entry that renames a thing. -/
def renamingEntry : Tree :=
  ⟨"export_specifier", 0, 3, true, none, false, (0, 0),
    [⟨"identifier", 0, 1, true, some "name", false, (0, 0), []⟩,
      ⟨"identifier", 2, 3, true, some "alias", false, (0, 2), []⟩]⟩

/-- A module that is exported again with a thing renamed. -/
def renamingExport : Tree :=
  ⟨"export_statement", 0, 5, true, none, false, (0, 0),
    [⟨"export_clause", 0, 3, true, none, false, (0, 0), [renamingEntry]⟩,
      ⟨"string", 4, 5, true, some "source", false, (0, 4), []⟩]⟩

/-- A program of one statement. -/
def renamingTree : Tree :=
  ⟨"program", 0, 5, true, none, false, (0, 0), [renamingExport]⟩

/-- The thing `a` is imported as if its name were `b` in the other module. -/
theorem specifier_keeps_source_name_iff_renamingTree :
    renamingExport ∈ renamingTree.namedChildren ∧
      namedSpecifiers (statement renamingSource renamingExport) =
        [⟨"b", .byName, some "b"⟩] ∧
      ¬KeepsSourceName renamingSource renamingEntry ⟨"b", .byName, some "b"⟩ := by
  have listed : renamingExport ∈ renamingTree.namedChildren := List.mem_singleton_self _
  have named : decide (boundName renamingSource renamingEntry ≠ "") = true := by decide +kernel
  have entries : exportEntries renamingSource renamingExport = [renamingEntry] := by
    change [renamingEntry].filter (fun entry => decide (boundName renamingSource entry ≠ "")) = _
    exact List.filter_cons_of_pos named
  have specifiers :
      namedSpecifiers (statement renamingSource renamingExport) =
        [⟨"b", .byName, some "b"⟩] := by
    decide +kernel
  have related := (specifier_keeps_source_name_iff renamingSource listed).2.2 rfl
  rw [entries, specifiers, List.forall₂_cons] at related
  refine ⟨listed, specifiers, ?_⟩
  rw [related.1.2.2]
  decide +kernel

end ModuleAtlas.Script.Lowering
