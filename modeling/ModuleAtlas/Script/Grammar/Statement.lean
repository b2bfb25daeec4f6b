import ModuleAtlas.Script.Grammar.Expression

/-!
# Statements

Statements and declarations, those of modules apart.
-/

namespace ModuleAtlas.Script

open Script.Parser

/-- An expression behind which a statement may end. -/
def Mode.trailing : Mode := { mayEnd := true }

/-! ## Declarations -/

def declarator (recur : Grammar) (mode : Mode) : Parser Tree := do
  let start ← place
  let name ← bindingTarget recur
  if (← isTyped) && (← ahead).head? == some '!' then
    let _ ← accepts "!"
  let ascribed ← ascription? recur
  let value ←
    if mode.mayEnd && ascribed.isEmpty && (← atStatementEnd false) then pure none
    else initializer? recur mode
  node "variable_declarator" start
    ([name.as "name"] ++ ascribed ++ (value.map (·.as "value")).toList)

def declarators (recur : Grammar) (mode : Mode) : Parser (List Tree) :=
  iterate [] fun found => do
    let next ← declarator recur mode
    if mode.mayEnd && (← atStatementEnd (next.children.any fun part => part.field == some "value"))
    then return .inr (next :: found).reverse
    if ← accepts "," then return .inl (next :: found)
    return .inr (next :: found).reverse

def variableDeclaration (recur : Grammar) : Parser Tree := do
  let start ← place
  let word ← seesWord
  skipToOperator
  advance word.length
  let found ← declarators recur .trailing
  let hasValue := (found.getLast?.map fun last =>
    last.children.any fun part => part.field == some "value").getD false
  endStatement hasValue
  node (if word == "var" then "variable_declaration" else "lexical_declaration") start found

/-- Whether `let` begins a declaration here: a name, a brace or a bracket follows it. In the head of a
loop the word `of` is no name. -/
def letDeclares (inHead : Bool) : Parser Bool := do
  let before ← cursor
  skipToOperator
  advance 3
  let ends ← atStatementEnd true
  let characters ← ahead
  moveTo before
  let word := wordOf characters
  return !ends
    && ((word != "" && word != "in" && word != "instanceof" && !(inHead && word == "of"))
    || characters.head? == some '[' || characters.head? == some '\x7b')

/-- Reads a function declaration, or in dialects with types a function without a body. -/
def functionDeclaration (recur : Grammar) : Parser Tree := do
  let start ← place
  let _ ← acceptsWord "async"
  expectWord "function"
  let isGenerator ← accepts "*"
  let name ← bindingName "identifier"
  let signature ← callSignature recur
  if ← sees "\x7b" then
    let body ← recur .block
    node (if isGenerator then "generator_function_declaration" else "function_declaration") start
      ([name.as "name"] ++ signature ++ [body.as "body"])
  else
    demand ((← isTyped) && !isGenerator)
    endStatement false
    node "function_signature" start ([name.as "name"] ++ signature)

/-- Reads a class declaration behind its decorators. -/
def classDeclaration (recur : Grammar) (start : Nat) (marks : List Tree) : Parser Tree := do
  if (← isTyped) && (← seesWord) == "abstract" then
    expectWord "abstract"
    classFrom recur "abstract_class_declaration" start marks true
  else classFrom recur "class_declaration" start marks true

def interfaceDeclaration (recur : Grammar) : Parser Tree := do
  let start ← place
  expectWord "interface"
  let name ← anyWord "type_identifier"
  let types ← if ← sees "<" then pure [← recur .typeParameters] else pure []
  let bases ←
    if ← acceptsWord "extends" then
      iterate [] fun found => do
        let type ← recur .primaryType
        if ← accepts "," then return .inl (type :: found)
        return .inr (type :: found).reverse
    else pure []
  let body ← recur .typeMembers
  node "interface_declaration" start
    ([name.as "name"] ++ types ++ bases
      ++ [{ body with kind := "interface_body", field := some "body" }])

def typeAlias (recur : Grammar) : Parser Tree := do
  let start ← place
  expectWord "type"
  let name ← anyWord "type_identifier"
  let types ← if ← sees "<" then pure [← recur .typeParameters] else pure []
  expect "="
  let type ← recur .typeExpression
  endStatement true
  node "type_alias_declaration" start ([name.as "name"] ++ types ++ [type.as "value"])

def enumDeclaration (recur : Grammar) : Parser Tree := do
  let start ← place
  let _ ← acceptsWord "const"
  expectWord "enum"
  let name ← anyWord "identifier"
  let bodyStart ← place
  expect "\x7b"
  let members ← commaSeparated "\x7d" false do
    let memberStart ← place
    let member ← propertyName recur
    match ← initializer? recur .enclosed with
    | none => return member.as "name"
    | some value => node "enum_assignment" memberStart [member.as "name", value.as "value"]
  let body ← node "enum_body" bodyStart members
  node "enum_declaration" start [name.as "name", body.as "body"]

def dottedName : Parser Tree := do
  let start ← place
  let first ← anyWord "identifier"
  iterate first fun tree => do
    if ← accepts "." then
      let part ← anyWord "property_identifier"
      return .inl (← node "nested_identifier" start [tree.as "object", part.as "property"])
    return .inr tree

def moduleDeclaration (recur : Grammar) : Parser Tree := do
  let start ← place
  let word ← seesWord
  expectWord word
  demand (!(← atStatementEnd true))
  let characters ← ahead
  let isText := characters.head? == some '"' || characters.head? == some '\''
  let name ← if isText then stringLiteral else dottedName
  let kind := if word == "namespace" then "internal_module" else "module"
  if ← sees "\x7b" then
    let body ← recur .block
    node kind start [name.as "name", body.as "body"]
  else
    endStatement true
    node kind start [name.as "name"]

def importAlias : Parser Tree := do
  let start ← place
  expectWord "import"
  let name ← anyWord "identifier"
  expect "="
  let target ← dottedName
  endStatement true
  node "import_alias" start [name, target]

def declaration (recur : Grammar) : Parser Tree := do
  let start ← place
  let typed ← isTyped
  let marks ← decorators recur
  let word ← seesWord
  if !marks.isEmpty then classDeclaration recur start marks
  else if word == "function" then functionDeclaration recur
  else if word == "async" then functionDeclaration recur
  else if word == "class" then classDeclaration recur start []
  else if word == "var" then variableDeclaration recur
  else if word == "const" then
    if typed then orElse (enumDeclaration recur) (variableDeclaration recur)
    else variableDeclaration recur
  else if word == "let" then
    demand (← letDeclares false)
    variableDeclaration recur
  else if typed then
    if word == "abstract" then classDeclaration recur start []
    else if word == "interface" then interfaceDeclaration recur
    else if word == "type" then typeAlias recur
    else if word == "enum" then enumDeclaration recur
    else if word == "namespace" || word == "module" then moduleDeclaration recur
    else if word == "import" then importAlias
    else if word == "declare" then
      expectWord "declare"
      let inner ← seesWord
      if inner == "global" then
        expectWord inner
        let body ← recur .block
        node "ambient_declaration" start [body]
      else
        let module : Parser Tree := do
          expectWord "module"
          expect "."
          let name ← anyWord "property_identifier"
          expect ":"
          let type ← recur .typeExpression
          endStatement true
          node "ambient_declaration" start [name, type]
        match ← attempt module with
        | some tree => return tree
        | none =>
          demand (inner != "")
          let tree ← recur .statement
          demand (tree.kind != "expression_statement" && tree.kind != "labeled_statement")
          node "ambient_declaration" start [tree]
    else refuse
  else refuse

/-! ## Statements -/

def expressionStatement (recur : Grammar) : Parser Tree := do
  skipToOperand
  let start ← offset
  let value ← recur (.expressions .trailing)
  endStatement true
  node "expression_statement" start [value]

def condition (recur : Grammar) : Parser Tree :=
  parenthesized recur

def statementBlock (recur : Grammar) : Parser Tree := do
  let start ← place
  expect "\x7b"
  let statements ← iterate [] fun found => do
    skipToOperand
    if ← accepts "\x7d" then return .inr found.reverse
    return .inl ((← recur .statement) :: found)
  node "statement_block" start statements

def ifStatement (recur : Grammar) : Parser Tree := do
  let start ← place
  expectWord "if"
  let test ← condition recur
  let consequence ← recur .statement
  let elseStart ← do
    let before ← cursor
    skipToOperand
    let here ← offset
    moveTo before
    pure here
  skipToOperand
  if (← seesWord) == "else" then
    expectWord "else"
    let alternative ← recur .statement
    let clause ← node "else_clause" elseStart [alternative]
    node "if_statement" start
      [test.as "condition", consequence.as "consequence", clause.as "alternative"]
  else
    return { kind := "if_statement", start := start, stop := consequence.stop,
             children := [test.as "condition", consequence.as "consequence"] }

def forInHead (recur : Grammar) : Parser (List Tree) := do
  expect "("
  let word ← seesWord
  let left ←
    if word == "var" || word == "const" || (word == "let" && (← letDeclares true)) then
      expectWord word
      let name ← bindingTarget recur
      let ascribed ← ascription? recur
      let value ← if word == "var" then initializer? recur .enclosed else pure none
      pure ([name.as "left"] ++ ascribed ++ value.toList)
    else
      let target ← leftHandSide recur .enclosed
      match assignmentTarget? target with
      | none => refuse
      | some target => pure [target.as "left"]
  demand ((← acceptsWord "in") || (← acceptsWord "of"))
  let right ← recur (.expressions .enclosed)
  expect ")"
  return left ++ [right.as "right"]

def forHead (recur : Grammar) : Parser (List Tree) := do
  expect "("
  let word ← seesWord
  let initial ←
    if word == "var" || word == "const" || (word == "let" && (← letDeclares true)) then
      pure [← variableDeclaration recur]
    else if ← accepts ";" then pure []
    else
      let value ← recur (.expressions .enclosed)
      expect ";"
      pure [value]
  let test ←
    if ← accepts ";" then pure []
    else
      let value ← recur (.expressions .enclosed)
      expect ";"
      pure [value]
  let step ←
    if ← accepts ")" then pure []
    else
      let value ← recur (.expressions .enclosed)
      expect ")"
      pure [value]
  return initial ++ test ++ step

def forStatement (recur : Grammar) : Parser Tree := do
  let start ← place
  expectWord "for"
  let isAwaiting ← acceptsWord "await"
  match ← attempt (forInHead recur) with
  | some head =>
    let body ← recur .statement
    node "for_in_statement" start (head ++ [body.as "body"])
  | none =>
    demand (!isAwaiting)
    let head ← forHead recur
    let body ← recur .statement
    node "for_statement" start (head ++ [body.as "body"])

def whileStatement (recur : Grammar) : Parser Tree := do
  let start ← place
  expectWord "while"
  let test ← condition recur
  let body ← recur .statement
  node "while_statement" start [test.as "condition", body.as "body"]

def doStatement (recur : Grammar) : Parser Tree := do
  let start ← place
  expectWord "do"
  let body ← recur .statement
  skipToOperand
  expectWord "while"
  let test ← condition recur
  if !(← atStatementEnd false) then
    let _ ← accepts ";"
  node "do_statement" start [body.as "body", test.as "condition"]

def caseBody (recur : Grammar) : Parser (List Tree) :=
  iterate [] fun found => do
    skipToOperand
    let word ← seesWord
    if word == "case" || word == "default" || (← sees "\x7d") then return .inr found.reverse
    return .inl ((← recur .statement) :: found)

def switchStatement (recur : Grammar) : Parser Tree := do
  let start ← place
  expectWord "switch"
  let value ← condition recur
  let bodyStart ← place
  expect "\x7b"
  let cases ← iterate [] fun found => do
    skipToOperand
    if ← accepts "\x7d" then return .inr found.reverse
    let caseStart ← place
    if ← acceptsWord "default" then
      expect ":"
      let body ← caseBody recur
      return .inl ((← node "switch_default" caseStart body) :: found)
    else
      expectWord "case"
      let test ← recur (.expressions .enclosed)
      expect ":"
      let body ← caseBody recur
      return .inl ((← node "switch_case" caseStart (test.as "value" :: body)) :: found)
  let body ← node "switch_body" bodyStart cases
  node "switch_statement" start [value.as "value", body.as "body"]

def tryStatement (recur : Grammar) : Parser Tree := do
  let start ← place
  expectWord "try"
  let body ← recur .block
  let handlerStart ← place
  let handler ←
    if ← acceptsWord "catch" then
      let parameter ←
        if ← accepts "(" then
          let target ← bindingTarget recur
          let ascribed ← ascription? recur
          expect ")"
          pure ([target.as "parameter"] ++ ascribed)
        else pure []
      let block ← recur .block
      pure [(← node "catch_clause" handlerStart (parameter ++ [block.as "body"])).as "handler"]
    else pure []
  let finalStart ← place
  let finalizer ←
    if ← acceptsWord "finally" then
      let block ← recur .block
      pure [(← node "finally_clause" finalStart [block.as "body"]).as "finalizer"]
    else pure []
  let children := [body.as "body"] ++ handler ++ finalizer
  return { kind := "try_statement", start := start,
           stop := (children.getLast?.map (·.stop)).getD (← offset), children := children }

def withStatement (recur : Grammar) : Parser Tree := do
  let start ← place
  expectWord "with"
  let object ← condition recur
  let body ← recur .statement
  node "with_statement" start [object.as "object", body.as "body"]

def jumpStatement (kind word : String) : Parser Tree := do
  let start ← place
  expectWord word
  if ← atStatementEnd false then node kind start
  else
    let label ←
      if (name? (← ahead)).isSome then pure [(← bindingName "statement_identifier").as "label"]
      else pure []
    endStatement false
    node kind start label

/-- Reads what leaves a function, with a value that may be left out. -/
def returnStatement (recur : Grammar) : Parser Tree := do
  let start ← place
  expectWord "return"
  if ← atStatementEnd false then node "return_statement" start
  else if ← accepts ";" then node "return_statement" start
  else
    let value ← recur (.expressions .trailing)
    endStatement true
    node "return_statement" start [value]

def throwStatement (recur : Grammar) : Parser Tree := do
  let start ← place
  expectWord "throw"
  let value ← recur (.expressions .trailing)
  endStatement true
  node "throw_statement" start [value]

def labeledStatement (recur : Grammar) : Parser Tree := do
  let start ← place
  let label ← bindingName "statement_identifier"
  expect ":"
  let body ← recur .statement
  node "labeled_statement" start [label.as "label", body.as "body"]

/-- Whether the characters can only go on with an expression that ended before them. -/
def continuesExpression (characters : List Char) : Bool :=
  match characters with
  | '=' :: _ => true
  | '.' :: next => !(next.head?.map isDigit).getD false
  | '?' :: _ => true
  | ',' :: _ => true
  | '*' :: _ => true
  | '%' :: _ => true
  | '&' :: _ => true
  | '|' :: _ => true
  | '^' :: _ => true
  | '>' :: _ => true
  | '!' :: '=' :: _ => true
  | _ => wordOf characters == "instanceof"

/-- Reads what a brace opens at the start of a statement: a block, and else an object. -/
def fromBrace (recur : Grammar) : Parser Tree := do
  let block : Parser Tree := do
    let tree ← recur .block
    demand (!continuesExpression (← ahead))
    return tree
  orElse block (expressionStatement recur)

/-- Words that begin declarations of dialects with types, and may also be plain names. -/
def softWords : List String :=
  ["type", "namespace", "module", "declare", "abstract"]

/-- Reads a statement, those of modules apart. -/
def plainStatement (recur : Grammar) : Parser Tree := do
  skipToOperand
  let start ← offset
  let typed ← isTyped
  match ← rest with
  | '\x7b' :: _ => fromBrace recur
  | ';' :: _ =>
    advance 1
    node "empty_statement" start
  | '@' :: _ => orElse (declaration recur) (expressionStatement recur)
  | _ =>
    let word ← seesWord
    if word == "if" then ifStatement recur
    else if word == "for" then forStatement recur
    else if word == "while" then whileStatement recur
    else if word == "do" then doStatement recur
    else if word == "switch" then switchStatement recur
    else if word == "try" then tryStatement recur
    else if word == "with" then withStatement recur
    else if word == "break" then jumpStatement "break_statement" word
    else if word == "continue" then jumpStatement "continue_statement" word
    else if word == "debugger" then
      expectWord word
      endStatement false
      node "debugger_statement" start
    else if word == "return" then returnStatement recur
    else if word == "throw" then throwStatement recur
    else if word == "var" || word == "const" then declaration recur
    else if word == "function" || word == "class" || word == "async" || word == "let" then
      orElse (declaration recur) (orElse (labeledStatement recur) (expressionStatement recur))
    else if typed && (word == "interface" || word == "enum") then declaration recur
    else if typed && softWords.contains word then
      orElse (declaration recur) (orElse (labeledStatement recur) (expressionStatement recur))
    else
      let label : Parser Unit := do
        let _ ← bindingName "statement_identifier"
        expect ":"
      let before ← cursor
      match ← attempt label with
      | some _ =>
        moveTo before
        labeledStatement recur
      | none => expressionStatement recur

end ModuleAtlas.Script
