import ModuleAtlas.Script.Record
import ModuleAtlas.Script.Tree

/-!
# From trees to records

From syntax trees to records. Statements are read at the top level only; calls are read at every
depth. The records of a tree come in the order of the document.
-/

namespace ModuleAtlas.Script

namespace Lowering

def isFunction (kind : String) : Bool :=
  kind == "function_declaration" || kind == "generator_function_declaration"

def isClass (kind : String) : Bool :=
  kind == "class_declaration" || kind == "abstract_class_declaration"

def isVariable (kind : String) : Bool :=
  kind == "lexical_declaration" || kind == "variable_declaration"

def isType (kind : String) : Bool :=
  kind == "interface_declaration" || kind == "type_alias_declaration" || kind == "enum_declaration"

def isCall (kind : String) : Bool :=
  kind == "call_expression" || kind == "new_expression"

/-! ## Imports -/

/-- The first identifier directly below a node. -/
def identifier? (node : Tree) : Option Tree :=
  node.namedChildren.find? fun child => child.kind == "identifier"

def importSpecifier (source : Source) (entry : Tree) : Specifier :=
  let imported := source.childText entry "name"
  let renamed := source.childText entry "alias"
  ⟨if renamed.isEmpty then imported else renamed, .byName, some imported⟩

def clausePart (source : Source) (part : Tree) : List Specifier :=
  if part.kind == "identifier" then [⟨source.text part, .byDefault, some "default"⟩]
  else if part.kind == "namespace_import" then
    match identifier? part with
    | none => []
    | some name => [⟨source.text name, .wholeModule, none⟩]
  else if part.kind == "named_imports" then
    (part.namedChildren.filter fun entry => entry.kind == "import_specifier").map
      (importSpecifier source)
  else []

def importClause (source : Source) (clause : Tree) : List Specifier :=
  clause.namedChildren.flatMap (clausePart source)

/-- The import made by a clause of the form `name = require("…")`. -/
def requireClause (source : Source) (clause : Tree) : List Record :=
  match clause.child? "source" with
  | none => []
  | some target =>
    let bindings :=
      match identifier? clause with
      | none => []
      | some name => [⟨source.text name, .wholeModule, none⟩]
    [.imported ⟨source.stringValue target, bindings, .require⟩]

/-- The records of an import statement. A clause of the form `name = require("…")` settles it. -/
def importStatement (source : Source) (node : Tree) : List Record :=
  match node.namedChildren.find? fun child => child.kind == "import_require_clause" with
  | some clause => requireClause source clause
  | none =>
    match node.child? "source" with
    | none => []
    | some target =>
      let clauses := node.namedChildren.filter fun child => child.kind == "import_clause"
      [.imported ⟨source.stringValue target, clauses.flatMap (importClause source), .statement⟩]

/-! ## Exports and declarations -/

def exportedName (source : Source) (entry : Tree) : String :=
  let renamed := source.childText entry "alias"
  if renamed.isEmpty then source.childText entry "name" else renamed

def exportedNames (source : Source) (node : Tree) : List String :=
  let clauses := node.namedChildren.filter fun child => child.kind == "export_clause"
  let entries := clauses.flatMap fun clause =>
    clause.namedChildren.filter fun entry => entry.kind == "export_specifier"
  (entries.map (exportedName source)).filter fun name => !name.isEmpty

/-- The variable that a declarator declares, if it declares a plain name. -/
def declarator? (source : Source) (node : Tree) : Option Variable :=
  if node.kind == "variable_declarator" then
    match node.child? "name" with
    | none => none
    | some name =>
      if name.kind == "identifier" then
        some ⟨source.text name, (node.child? "value").map (·.kind)⟩
      else none
  else none

def declarators (source : Source) (node : Tree) : List Variable :=
  node.namedChildren.filterMap (declarator? source)

def reexport (source : Source) (node target : Tree) : List Record :=
  let names := exportedNames source node
  .imported ⟨source.stringValue target, names.map fun name => ⟨name, .byName, some name⟩, .reexport⟩
    :: names.map fun name => .exported ⟨name, .byName⟩

def exportedDeclaration (source : Source) (declaration : Tree) (isDefault : Bool) : List Record :=
  let name := source.childText declaration "name"
  let kindOr (kind : ExportKind) : ExportKind := if isDefault then .byDefault else kind
  if isFunction declaration.kind then
    if name.isEmpty then [] else [.exported ⟨name, kindOr .ofFunction⟩, .declaredFunction name]
  else if isClass declaration.kind then
    if name.isEmpty then [] else [.exported ⟨name, kindOr .ofClass⟩, .declaredClass name]
  else if isVariable declaration.kind then
    (declarators source declaration).flatMap fun declared =>
      [.exported ⟨declared.name, .ofVariable⟩, .declaredVariable declared]
  else if isType declaration.kind && !name.isEmpty then [.exported ⟨name, .ofType⟩]
  else []

/-- The name under which a default export without a declaration is known. -/
def defaultName (source : Source) (node : Tree) : String :=
  match node.child? "value" with
  | none => "default"
  | some value => if value.kind == "identifier" then source.text value else "default"

def exportStatement (source : Source) (node : Tree) : List Record :=
  let isDefault := node.children.any fun child => child.kind == "default"
  match node.child? "source", node.child? "declaration" with
  | some target, _ => reexport source node target
  | none, some declaration => exportedDeclaration source declaration isDefault
  | none, none =>
    if isDefault then [.exported ⟨defaultName source node, .byDefault⟩]
    else (exportedNames source node).map fun name => .exported ⟨name, .byName⟩

def afterLastPoint (characters : List Char) : List Char :=
  (characters.reverse.takeWhile (· ≠ '.')).reverse

/-- The name that an assignment to `target` exports. -/
def assignedExport? (target : List Char) : Option String :=
  if target = "module.exports".toList then some "default"
  else if "module.exports.".toList.isPrefixOf target || "exports.".toList.isPrefixOf target then
    some (String.ofList (afterLastPoint target))
  else none

/-- The export made by an expression statement that assigns to an exports object. -/
def assignmentExport (source : Source) (node : Tree) : List Record :=
  match node.namedChildren with
  | [] => []
  | expression :: _ =>
    if expression.kind == "assignment_expression" then
      match expression.child? "left" with
      | none => []
      | some left =>
        if left.kind == "member_expression" then
          match assignedExport? (source.text left).toList with
          | none => []
          | some name => [.exported ⟨name, .commonjs⟩]
        else []
    else []

/-- The records of a statement at the top level, without its calls. -/
def statement (source : Source) (node : Tree) : List Record :=
  if node.kind == "import_statement" then importStatement source node
  else if node.kind == "export_statement" then exportStatement source node
  else if isFunction node.kind then
    let name := source.childText node "name"
    if name.isEmpty then [] else [.declaredFunction name]
  else if isClass node.kind then
    let name := source.childText node "name"
    if name.isEmpty then [] else [.declaredClass name]
  else if isVariable node.kind then (declarators source node).map .declaredVariable
  else if node.kind == "expression_statement" then assignmentExport source node
  else []

/-! ## Calls -/

def patternBinding (source : Source) (entry : Tree) : List Specifier :=
  if entry.kind == "shorthand_property_identifier_pattern" then
    let name := source.text entry
    [⟨name, .byName, some name⟩]
  else if entry.kind == "pair_pattern" then
    let key := source.childText entry "key"
    let name := source.childText entry "value"
    if key.isEmpty || name.isEmpty then [] else [⟨name, .byName, some key⟩]
  else []

/-- The names that a declarator binds to the call that is its whole value. -/
def requireBindings (source : Source) (parent : Option Tree) (call : Tree) : List Specifier :=
  match parent with
  | none => []
  | some declarator =>
    if declarator.kind == "variable_declarator" then
      match declarator.child? "value", declarator.child? "name" with
      | some value, some name =>
        if value.start = call.start ∧ value.stop = call.stop then
          if name.kind == "identifier" then [⟨source.text name, .wholeModule, none⟩]
          else if name.kind == "object_pattern" then
            name.namedChildren.flatMap (patternBinding source)
          else []
        else []
      | _, _ => []
    else []

/-- The first argument of a call, comments aside. -/
def firstArgument? (call : Tree) : Option Tree :=
  match call.child? "arguments" with
  | none => none
  | some arguments => arguments.namedChildren.find? fun child => child.kind != "comment"

def literalValue? (source : Source) (argument : Option Tree) : Option String :=
  match argument with
  | none => none
  | some node => if node.kind == "string" then some (source.stringValue node) else none

def objectName? (source : Source) (callee : Tree) : Option String :=
  match callee.child? "object" with
  | none => none
  | some object => if object.kind == "identifier" then some (source.text object) else none

/-- The record of a call of `object.property`. -/
def memberCall? (source : Source) (call callee : Tree) (constructed : Bool) : Option Record :=
  if callee.kind == "member_expression" then
    match callee.child? "property" with
    | none => none
    | some property =>
      if property.kind == "property_identifier" then
        some (.called ⟨objectName? source callee, source.text property,
          literalValue? source (firstArgument? call), constructed⟩)
      else none
  else none

/-- The record of a call or construction, if it is one that is kept. -/
def call? (source : Source) (parent : Option Tree) (call : Tree) : Option Record :=
  let constructed := call.kind == "new_expression"
  match call.child? (if constructed then "constructor" else "function") with
  | none => none
  | some callee =>
    if !constructed && callee.kind == "identifier" && source.text callee == "require" then
      (literalValue? source (firstArgument? call)).map fun target =>
        .imported ⟨target, requireBindings source parent call, .require⟩
    else memberCall? source call callee constructed

/-! ## Walking the tree -/

/-- A node that waits to be read, with its parent, and whether it is a statement of the program. -/
structure Pending where
  parent : Option Tree
  node : Tree
  isStatement : Bool

/-- The number of nodes that wait to be read, those below them included. -/
def pendingWeight (pending : List Pending) : Nat :=
  Tree.weights (pending.map (·.node))

/-- The constructs directly below a node, waiting to be read. -/
def below (node : Tree) (areStatements : Bool) : List Pending :=
  node.namedChildren.map fun child => ⟨some node, child, areStatements⟩

/-- The records of one node, without those of the nodes below it. -/
def own (source : Source) (item : Pending) : List Record :=
  (if item.isStatement then statement source item.node else [])
    ++ (if isCall item.node.kind then (call? source item.parent item.node).toList else [])

/-- Reads the waiting nodes one after the other; the nodes below a node are read right behind it. -/
def walk (source : Source) : List Pending → List Record
  | [] => []
  | item :: rest => own source item ++ walk source (below item.node false ++ rest)
termination_by pending => pendingWeight pending
decreasing_by
  simp only [pendingWeight, below, List.map_append, List.map_map, Function.comp_def, List.map_cons,
    List.map_id', Tree.weights, Tree.weights_append, Tree.weight_eq, Tree.namedChildren]
  have := Tree.weights_filter_le (·.named) item.node.children
  omega

end Lowering

def lower (source : Source) (root : Tree) : List Record :=
  Lowering.walk source (Lowering.below root true)

end ModuleAtlas.Script
