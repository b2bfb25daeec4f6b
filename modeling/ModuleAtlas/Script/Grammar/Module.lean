import ModuleAtlas.Script.Grammar.Statement

/-!
# Imports and exports

Imports and exports of modules.
-/

namespace ModuleAtlas.Script

open Script.Parser

/-! ## Entries of clauses -/

def entryName : Parser Tree := do
  let characters ← ahead
  if characters.head? == some '"' || characters.head? == some '\'' then stringLiteral
  else anyWord "identifier"

/-- Whether an entry ends here. -/
def entryEnds : Parser Bool := do
  return (← sees ",") || (← sees "\x7d")

def renamedEntry (kind : String) (start : Nat) : Parser Tree := do
  let name ← entryName
  if ← entryEnds then node kind start [name.as "name"]
  else
    expectWord "as"
    let renamed ← entryName
    node kind start [name.as "name", renamed.as "alias"]

/-- Reads an entry of an import or export clause. In dialects with types the word `type` or `typeof`
may stand in front. -/
def clauseEntry (kind : String) : Parser Tree := do
  let start ← place
  let word ← seesWord
  if (← isTyped) && (word == "type" || word == "typeof") then
    let marked : Parser Tree := do
      expectWord word
      let tree ← renamedEntry kind start
      demand (← entryEnds)
      return tree
    let plain : Parser Tree := do
      let tree ← renamedEntry kind start
      demand (← entryEnds)
      return tree
    orElse plain marked
  else renamedEntry kind start

/-- Whether a name may stand in an entry of an import that is not renamed. -/
def isBareImport (typed : Bool) (source : String) (kind : String) : Bool :=
  kind == "identifier" && (typed || !reservedWords.contains source)

def importEntry : Parser Tree := do
  let word ← seesWord
  let typed ← isTyped
  let entry ← clauseEntry "import_specifier"
  match entry.children with
  | [name] => demand (isBareImport typed word name.kind)
  | [name, renamed] =>
    demand (renamed.kind == "identifier")
    demand (typed || name.kind == "string" || word == "default" || !reservedWords.contains word)
  | _ => refuse
  return entry

/-! ## Imports -/

def namespaceImport : Parser Tree := do
  let start ← place
  expect "*"
  expectWord "as"
  let name ← bindingName "identifier"
  node "namespace_import" start [name]

def namedImports : Parser Tree := do
  let start ← place
  expect "\x7b"
  let entries ← commaSeparated "\x7d" false importEntry
  node "named_imports" start entries

def importClauseNode : Parser Tree := do
  let start ← place
  if ← sees "*" then
    let part ← namespaceImport
    node "import_clause" start [part]
  else if ← sees "\x7b" then
    let part ← namedImports
    node "import_clause" start [part]
  else
    let name ← bindingName "identifier"
    if ← accepts "," then
      let part ← if ← sees "*" then namespaceImport else namedImports
      node "import_clause" start [name, part]
    else node "import_clause" start [name]

def fromClause : Parser Tree := do
  expectWord "from"
  let source ← stringLiteral
  return source.as "source"

def importAttributes (recur : Grammar) : Parser Unit := do
  if ← atStatementEnd false then pure ()
  else if (← acceptsWord "with") || ((← isTyped) && (← acceptsWord "assert")) then
    let _ ← objectLiteral recur
    pure ()
  else pure ()

def requireImport : Parser Tree := do
  let start ← place
  let name ← anyWord "identifier"
  expect "="
  expectWord "require"
  expect "("
  let source ← stringLiteral
  expect ")"
  node "import_require_clause" start [name, source.as "source"]

def importFrom (recur : Grammar) (start : Nat) : Parser Tree := do
  let characters ← ahead
  if characters.head? == some '"' || characters.head? == some '\'' then
    let source ← stringLiteral
    importAttributes recur
    endStatement false
    node "import_statement" start [source.as "source"]
  else
    let ordinary : Parser Tree := do
      let clause ← importClauseNode
      let source ← fromClause
      importAttributes recur
      endStatement false
      node "import_statement" start [clause, source]
    if ← isTyped then
      let called : Parser Tree := do
        let clause ← requireImport
        endStatement false
        node "import_statement" start [clause]
      orElse ordinary called
    else ordinary

def importStatementNode (recur : Grammar) : Parser Tree := do
  let start ← place
  expectWord "import"
  let word ← seesWord
  if (← isTyped) && (word == "type" || word == "typeof") then
    let marked : Parser Tree := do
      expectWord word
      importFrom recur start
    orElse (importFrom recur start) marked
  else importFrom recur start

/-! ## Exports -/

def exportEntry : Parser Tree := do
  let word ← seesWord
  let typed ← isTyped
  let entry ← clauseEntry "export_specifier"
  match entry.children with
  | name :: _ =>
    demand (typed || name.kind == "string" || word == "default" || !reservedWords.contains word)
    return entry
  | [] => refuse

def exportClause : Parser Tree := do
  let start ← place
  expect "\x7b"
  let entries ← commaSeparated "\x7d" false exportEntry
  node "export_clause" start entries

def optionalSource : Parser (List Tree) := do
  if ← atStatementEnd false then return []
  if (← seesWord) == "from" then return [← fromClause]
  return []

def defaultExport (recur : Grammar) (start : Nat) (marks : List Tree) (mark : Tree) :
    Parser Tree := do
  let declared : Parser Tree := do
    let tree ← declaration recur
    node "export_statement" start (marks ++ [mark, tree.as "declaration"])
  let valued : Parser Tree := do
    let value ← recur (.expression .trailing)
    endStatement true
    node "export_statement" start (marks ++ [mark, value.as "value"])
  orElse declared valued

/-- Reads an export, with the decorators before it. -/
def exportStatementNode (recur : Grammar) : Parser Tree := do
  let start ← place
  let marks ← decorators recur
  expectWord "export"
  let typed ← isTyped
  let word ← seesWord
  if word == "default" then
    let markStart ← place
    expectWord word
    let mark : Tree := { kind := "default", start := markStart, stop := (← offset), named := false }
    defaultExport recur start marks mark
  else if ← sees "*" then
    let part ← place
    expect "*"
    let name ←
      if ← acceptsWord "as" then
        let name ← entryName
        pure [← node "namespace_export" part [name]]
      else pure []
    let source ← fromClause
    endStatement false
    node "export_statement" start (name ++ [source])
  else if ← sees "\x7b" then
    let clause ← exportClause
    let source ← optionalSource
    endStatement false
    node "export_statement" start (clause :: source)
  else if typed && (← sees "=") then
    expect "="
    let value ← recur (.expression .trailing)
    endStatement true
    node "export_statement" start [value]
  else
    let declared : Parser Tree := do
      let tree ← declaration recur
      node "export_statement" start (marks ++ [tree.as "declaration"])
    if typed && word == "type" then
      let types : Parser Tree := do
        expectWord "type"
        let clause ← exportClause
        let source ← optionalSource
        endStatement false
        node "export_statement" start (clause :: source)
      orElse types declared
    else if typed && word == "as" then
      expectWord "as"
      expectWord "namespace"
      let name ← anyWord "identifier"
      endStatement true
      node "export_statement" start [name]
    else declared

/-- Whether the word for exports is followed by a star, so that it is no name. -/
def beginsStarExport : Parser Bool := do
  let before ← cursor
  expectWord "export"
  let characters ← ahead
  moveTo before
  return characters.head? == some '*'

def anyStatement (recur : Grammar) : Parser Tree := do
  skipToOperand
  let word ← seesWord
  if word == "import" then
    let before ← cursor
    expectWord word
    let characters ← ahead
    moveTo before
    if characters.head? == some '(' || characters.head? == some '.' then expressionStatement recur
    else if ← isTyped then orElse (importStatementNode recur) importAlias
    else importStatementNode recur
  else if word == "export" then
    if ← beginsStarExport then exportStatementNode recur
    else orElse (exportStatementNode recur) (expressionStatement recur)
  else if ← sees "@" then
    orElse (exportStatementNode recur) (plainStatement recur)
  else plainStatement recur

end ModuleAtlas.Script
