import ModuleAtlas.Script.Grammar.Class
import ModuleAtlas.Script.Grammar.Markup

/-!
# Expressions

Expressions. An operand is a primary expression with what follows it (members, calls, indices) or with
an operator in front; operators between operands bind by their level; an assignment stands wherever
an operand does and reaches as far as it can.
-/

namespace ModuleAtlas.Script

open Script.Parser

/-! ## Operators -/

/-- The operators between two operands, longest first, with their levels. -/
def operators : List (String × Nat) :=
  [(">>>", 12), ("===", 9), ("!==", 9), ("**", 15), ("&&", 5), ("||", 4), ("??", 3), (">>", 12),
    ("<<", 12), (">=", 10), ("<=", 10), ("==", 9), ("!=", 9), ("*", 14), ("/", 14), ("%", 14),
    ("+", 13), ("-", 13), ("&", 8), ("^", 7), ("|", 6), ("<", 10), (">", 10)]

/-- The operators that assign, longest first. -/
def assigningOperators : List String :=
  [">>>=", "**=", "&&=", "||=", "??=", ">>=", "<<=", "+=", "-=", "*=", "/=", "%=", "^=", "&=", "|="]

/-- The level of a choice between two expressions, above which every operator binds. -/
def lowestLevel : Nat := 3

/-- The operator between two operands that the characters begin with. -/
def operator? (typed : Bool) (characters : List Char) : Option (String × Nat) :=
  let word := wordOf characters
  if word == "in" || word == "instanceof" then some (word, 10)
  else if typed && (word == "as" || word == "satisfies") then some (word, 10)
  else if word != "" then none
  else if assigningOperators.any fun spelling => spelling.toList.isPrefixOf characters then none
  else if "=>".toList.isPrefixOf characters then none
  else operators.find? fun entry => entry.1.toList.isPrefixOf characters

def beginsOperand (characters : List Char) : Bool :=
  match characters with
  | [] => false
  | '.' :: next => (next.head?.map isDigit).getD false
  | character :: _ =>
    let word := wordOf characters
    if word == "in" || word == "instanceof" || word == "as" || word == "satisfies" || word == "of" then
      false
    else
      word != "" || isDigit character || "\"'\x60([\x7b!~+-/<@#".toList.contains character

/-! ## Arguments, objects and functions -/

/-- Reads an expression, or one to be spread behind three points. -/
def spreadable (recur : Grammar) : Parser Tree := do
  let start ← place
  if ← accepts "..." then
    let value ← recur (.expression .enclosed)
    node "spread_element" start [value]
  else recur (.expression .enclosed)

def argumentList (recur : Grammar) : Parser Tree := do
  let start ← place
  expect "("
  let items ← commaSeparated ")" true (spreadable recur)
  node "arguments" start items

/-- Reads a member of an object. A name with a value behind an equals sign is one only if the object
turns out to be a pattern. -/
def objectMember (recur : Grammar) : Parser Tree := do
  let start ← place
  if ← accepts "..." then
    let value ← recur (.expression .enclosed)
    node "spread_element" start [value]
  else
    let typed ← isTyped
    let marks ← decorators recur
    let modified ← iterate false fun found => do
      match ← acceptsModifier ["static", "async", "get", "set"] ["async", "static"] false with
      | some _ => return .inl true
      | none => return .inr found
    let starred ← accepts "*"
    let word ← seesWord
    let name ← propertyName recur
    let characters ← ahead
    if characters.head? == some '(' || (typed && characters.head? == some '<') then
      let signature ← callSignature recur
      let body ← recur .block
      node "method_definition" start (marks ++ [name.as "name"] ++ signature ++ [body.as "body"])
    else
      demand (!modified && !starred && marks.isEmpty)
      if ← accepts ":" then
        let value ← recur (.expression .enclosed)
        node "pair" start [name.as "key", value.as "value"]
      else
        demand (name.kind == "property_identifier")
        demand (typed || !reservedWords.contains word)
        match ← initializer? recur .enclosed with
        | none => return { name with kind := "shorthand_property_identifier" }
        | some value =>
          let short : Tree := { name with kind := "shorthand_property_identifier_pattern" }
          node "object_assignment_pattern" start [short.as "left", value.as "right"]

def objectLiteral (recur : Grammar) : Parser Tree := do
  let start ← place
  expect "\x7b"
  let members ← commaSeparated "\x7d" true (objectMember recur)
  node "object" start members

def arrayLiteral (recur : Grammar) : Parser Tree := do
  let start ← place
  expect "["
  let items ← commaSeparated "]" true (spreadable recur)
  node "array" start items

def functionExpression (recur : Grammar) (start : Nat) : Parser Tree := do
  expectWord "function"
  let isGenerator ← accepts "*"
  let name ←
    if (name? (← ahead)).isSome then pure [(← bindingName "identifier").as "name"] else pure []
  let signature ← callSignature recur
  let body ← recur .block
  node (if isGenerator then "generator_function" else "function_expression") start
    (name ++ signature ++ [body.as "body"])

/-- Reads the body of an arrow function: a block if it can be one, else an expression. -/
def arrowBody (recur : Grammar) (mode : Mode) : Parser Tree := do
  if ← sees "\x7b" then orElse (recur .block) (recur (.expression mode))
  else recur (.expression mode)

def arrowFrom (recur : Grammar) (mode : Mode) (start : Nat) (head : List Tree) : Parser Tree := do
  let body ← arrowBody recur mode
  node "arrow_function" start (head ++ [body.as "body"])

def arrowHead (recur : Grammar) : Parser (List Tree) := do
  let signature ← callSignature recur
  expect "=>"
  return signature

/-- Reads an arrow function from its parameters on. Between the marks of a choice, a colon behind the
parameters belongs to the function only if another one follows the function. -/
def arrowFunction (recur : Grammar) (mode : Mode) (start : Nat) : Parser Tree := do
  let head ← arrowHead recur
  let tree ← arrowFrom recur mode start head
  if mode.inChoice && head.any (fun part => part.field == some "return_type") then
    demand (← sees ":")
  return tree

def parenthesized (recur : Grammar) : Parser Tree := do
  let start ← place
  expect "("
  let value ← recur (.expressions .enclosed)
  let ascribed ← ascription? recur
  expect ")"
  node "parenthesized_expression" start ([value] ++ ascribed)

/-- Reads what a parenthesis opens: the parameters of an arrow function, or an expression. -/
def fromParenthesis (recur : Grammar) (mode : Mode) : Parser Tree := do
  let start ← place
  if ← isPlain start then parenthesized recur
  else if mode.inChoice && (← isTyped) then
    match ← attempt (arrowFunction recur mode start) with
    | some tree => return tree
    | none =>
      notePlain start
      parenthesized recur
  else
    match ← attempt (arrowHead recur) with
    | some head => arrowFrom recur mode start head
    | none =>
      notePlain start
      parenthesized recur

/-! ## Primary expressions -/

/-- Words that begin a primary expression of their own. -/
def valueWords : List String :=
  ["this", "super", "null", "true", "false", "undefined"]

/-- Words that never are operands. -/
def isOperandName (typed : Bool) (word : String) : Bool :=
  typed || !reservedWords.contains word

/-- Reads what begins with the word `async`: a function, an arrow function or the plain name. -/
def fromAsync (recur : Grammar) (mode : Mode) : Parser Tree := do
  let start ← place
  let name ← anyWord "identifier"
  if mode.mayEnd && (← atStatementEnd true) then return name
  let word ← seesWord
  if word == "function" then functionExpression recur start
  else if word != "" && word != "in" && word != "instanceof" then
    let single : Parser (List Tree) := do
      let parameter ← bindingName "identifier"
      expect "=>"
      return [parameter.as "parameter"]
    match ← attempt single with
    | some head => arrowFrom recur mode start head
    | none => return name
  else if ← sees "=>" then
    expect "=>"
    arrowFrom recur mode start [name.as "parameter"]
  else
    let characters ← ahead
    if characters.head? == some '(' || ((← isTyped) && characters.head? == some '<') then
      match ← attempt (arrowFunction recur mode start) with
      | some tree => return tree
      | none => return name
    else return name

def fromImport : Parser Tree := do
  let start ← place
  let name ← anyWord "import"
  if ← accepts "." then
    expectWord "meta"
    node "meta_property" start
  else
    demand ((← sees "(") || (← sees "<"))
    return name

/-- Reads a plain name, or the arrow function whose parameter it is. -/
def fromName (recur : Grammar) (mode : Mode) : Parser Tree := do
  let start ← place
  let word ← seesWord
  demand (isOperandName (← isTyped) word || word == "export")
  let name ← anyWord "identifier"
  if ← sees "=>" then
    expect "=>"
    arrowFrom recur mode start [name.as "parameter"]
  else return name

/-- Reads a primary expression, without what may follow it. -/
def primaryExpression (recur : Grammar) (mode : Mode) : Parser Tree := do
  skipToOperand
  let start ← offset
  match ← rest with
  | '(' :: _ => fromParenthesis recur mode
  | '[' :: _ => arrayLiteral recur
  | '\x7b' :: _ => objectLiteral recur
  | '\x60' :: _ => recur .template
  | '"' :: _ => stringLiteral
  | '\'' :: _ => stringLiteral
  | '/' :: _ => regexLiteral
  | '@' :: _ =>
    let marks ← decorators recur
    classFrom recur "class" start marks false
  | character :: next =>
    if isDigit character || (character == '.' && (next.head?.map isDigit).getD false) then
      numberLiteral
    else
      let word ← seesWord
      if word == "function" then functionExpression recur start
      else if word == "class" then classFrom recur "class" start [] false
      else if word == "async" then fromAsync recur mode
      else if word == "import" then fromImport
      else if valueWords.contains word then
        let value ← anyWord word
        if word == "undefined" && (← sees "=>") then
          expect "=>"
          arrowFrom recur mode start [{ value with kind := "identifier", field := some "parameter" }]
        else return value
      else fromName recur mode
  | [] => refuse

/-! ## What follows a primary expression -/

def propertyAfterPoint : Parser Tree := do
  skipToOperand
  if ← sees "#" then privateName else anyWord "property_identifier"

/-- Kinds of expressions that are not primary: a template or an optional call does not follow them. -/
def isPlainOperand (kind : String) : Bool :=
  kind != "update_expression" && kind != "jsx_element" && kind != "jsx_self_closing_element"
    && kind != "unary_expression"

/-- Reads type arguments that belong to the expression before them: a call or a template follows, or
nothing that could be an operand does. -/
def instantiation (recur : Grammar) (start : Nat) (tree : Tree) (calls : Bool) : Parser Tree := do
  let types ← recur .typeArguments
  let characters ← ahead
  if characters.head? == some '(' then
    demand calls
    let arguments ← recur .arguments
    node "call_expression" start
      [tree.as "function", types.as "type_arguments", arguments.as "arguments"]
  else if characters.head? == some '\x60' then
    let template ← recur .template
    node "call_expression" start
      [tree.as "function", types.as "type_arguments", template.as "arguments"]
  else
    demand (calls && !beginsOperand characters)
    node "instantiation_expression" start [tree, types.as "type_arguments"]

/-- Reads one thing that follows an expression; nothing when none does. Without `calls`, only what may
stand in the name of a constructor is read. -/
def suffix? (recur : Grammar) (start : Nat) (calls : Bool) (tree : Tree) : Parser (Option Tree) := do
  let typed ← isTyped
  let characters ← ahead
  match characters with
  | '.' :: next =>
    if "..".toList.isPrefixOf next then return none
    expect "."
    let property ← propertyAfterPoint
    return some (← node "member_expression" start [tree.as "object", property.as "property"])
  | '?' :: '.' :: next =>
    if (next.head?.map isDigit).getD false then return none
    let mark ← place
    expect "?."
    let chain := (← node "optional_chain" mark).as "optional_chain"
    let behind ← ahead
    match behind with
    | '[' :: _ =>
      expect "["
      let index ← recur (.expressions .enclosed)
      expect "]"
      return some (← node "subscript_expression" start [tree.as "object", chain, index.as "index"])
    | '(' :: _ =>
      demand (isPlainOperand tree.kind)
      let arguments ← recur .arguments
      return some (← node "call_expression" start
        [tree.as "function", chain, arguments.as "arguments"])
    | '<' :: _ =>
      demand typed
      let types ← recur .typeArguments
      let arguments ← recur .arguments
      return some (← node "call_expression" start
        [tree.as "function", chain, types.as "type_arguments", arguments.as "arguments"])
    | _ =>
      let property ← propertyAfterPoint
      return some (← node "member_expression" start
        [tree.as "object", chain, property.as "property"])
  | '[' :: _ =>
    expect "["
    let index ← recur (.expressions .enclosed)
    expect "]"
    return some (← node "subscript_expression" start [tree.as "object", index.as "index"])
  | '(' :: _ =>
    if !calls then return none
    let arguments ← recur .arguments
    return some (← node "call_expression" start [tree.as "function", arguments.as "arguments"])
  | '\x60' :: _ =>
    demand (isPlainOperand tree.kind)
    let template ← recur .template
    return some (← node "call_expression" start [tree.as "function", template.as "arguments"])
  | '+' :: '+' :: _ =>
    if !calls then return none
    expect "++"
    return some (← node "update_expression" start [tree.as "argument"])
  | '-' :: '-' :: _ =>
    if !calls then return none
    expect "--"
    return some (← node "update_expression" start [tree.as "argument"])
  | '!' :: next =>
    if typed && next.head? != some '=' then
      expect "!"
      return some (← node "non_null_expression" start [tree])
    return none
  | '<' :: next =>
    if typed && next.head? != some '=' then attempt (instantiation recur start tree calls)
    else return none
  | _ => return none

def suffixes (recur : Grammar) (mode : Mode) (start : Nat) (calls : Bool) (tree : Tree) :
    Parser Tree :=
  iterate tree fun tree => do
    if mode.mayEnd && (← atStatementEnd true) then return .inr tree
    match ← suffix? recur start calls tree with
    | some longer => return .inl longer
    | none => return .inr tree

/-- Reads a construction from its keyword on; `depth` bounds the keywords in a row. -/
def construction (recur : Grammar) : Nat → Parser Tree
  | 0 => refuse
  | depth + 1 => do
    let start ← place
    expectWord "new"
    if ← accepts "." then
      expectWord "target"
      node "meta_property" start
    else
      skipToOperand
      let base ← offset
      let constructor ←
        if (← seesWord) == "new" then construction recur depth
        else
          let primary ← recur (.primary .enclosed)
          suffixes recur .enclosed base false primary
      let types ←
        if (← isTyped) && (← sees "<") then
          let called : Parser Tree := do
            let types ← recur .typeArguments
            demand ((← sees "(") || !beginsOperand (← ahead))
            return types
          pure ((← attempt called).map (·.as "type_arguments")).toList
        else pure []
      let arguments ←
        if ← sees "(" then pure [(← recur .arguments).as "arguments"] else pure []
      node "new_expression" start ([constructor.as "constructor"] ++ types ++ arguments)

/-- Reads a primary expression or a construction, with everything that follows it. -/
def leftHandSide (recur : Grammar) (mode : Mode) : Parser Tree := do
  skipToOperand
  let start ← offset
  let base ←
    if (← seesWord) == "new" then construction recur (← setting).limit
    else recur (.primary mode)
  suffixes recur mode start true base

/-! ## Operands, operators and assignments -/

/-- What an expression becomes on the left of an equals sign. -/
def assignmentTarget? (tree : Tree) : Option Tree :=
  if tree.kind == "parenthesized_expression" then some tree else toPattern? tree

/-- Whether an operator that assigns may follow. -/
def isAugmentable (kind : String) : Bool :=
  kind == "parenthesized_expression" || isAssignable kind

/-- Reads an assignment whose target has been read, or leaves the target as it is. -/
def assignmentFrom (recur : Grammar) (mode : Mode) (start : Nat) (tree : Tree) : Parser Tree := do
  if mode.mayEnd && (← atStatementEnd true) then return tree
  let characters ← ahead
  match characters with
  | '=' :: next =>
    if next.head? == some '=' || next.head? == some '>' then return tree
    match assignmentTarget? tree with
    | none => return tree
    | some target =>
      expect "="
      let value ← recur (.expression mode)
      node "assignment_expression" start [target.as "left", value.as "right"]
  | _ =>
    match assigningOperators.find? fun spelling => spelling.toList.isPrefixOf characters with
    | none => return tree
    | some spelling =>
      if isAugmentable tree.kind then
        expect spelling
        let value ← recur (.expression mode)
        node "augmented_assignment_expression" start [tree.as "left", value.as "right"]
      else return tree

/-- Reads an operator in front of an operand, of a number of characters. -/
def prefixed (recur : Grammar) (mode : Mode) (kind : String) (count : Nat) : Parser Tree := do
  let start ← place
  advance count
  let argument ← recur (.operand mode)
  node kind start [argument.as "argument"]

/-- Reads what begins with `yield`: the value may be left out. -/
def yielded (recur : Grammar) (mode : Mode) : Parser Tree := do
  let start ← place
  expectWord "yield"
  if mode.mayEnd && (← atStatementEnd true) then node "yield_expression" start
  else if ← accepts "*" then
    let value ← recur (.expression mode)
    node "yield_expression" start [value]
  else if beginsOperand (← ahead) then
    let value ← recur (.expression mode)
    node "yield_expression" start [value]
  else node "yield_expression" start

def usingAssignment (recur : Grammar) (mode : Mode) : Parser Tree := do
  let start ← place
  expectWord "using"
  let target ← recur .pattern
  expect "="
  demand (!(← sees "=") && !(← sees ">"))
  let value ← recur (.expression mode)
  node "assignment_expression" start [target.as "left", value.as "right"]

/-- Reads what begins with an angle bracket: a generic arrow function, and else an element or an
assertion of a type, as the dialect has it. -/
def fromAngle (recur : Grammar) (mode : Mode) : Parser Tree := do
  let start ← place
  let dialect := (← setting).dialect
  let generic ←
    if dialect.isTyped then attempt (arrowFunction recur mode start) else pure none
  match generic with
  | some tree => suffixes recur mode start true tree
  | none =>
    if dialect.hasMarkup then
      let tree ← recur .element
      suffixes recur mode start true tree
    else
      let types ← recur .typeArguments
      let value ← recur (.operand mode)
      node "type_assertion" start [types, value]

/-- Reads an operand: everything that an operator may stand behind. -/
def operandExpression (recur : Grammar) (mode : Mode) : Parser Tree := do
  skipToOperand
  let start ← offset
  let plain : Parser Tree := do
    let tree ← leftHandSide recur mode
    assignmentFrom recur mode start tree
  match ← rest with
  | '+' :: '+' :: _ => prefixed recur mode "update_expression" 2
  | '-' :: '-' :: _ => prefixed recur mode "update_expression" 2
  | '+' :: _ => prefixed recur mode "unary_expression" 1
  | '-' :: _ => prefixed recur mode "unary_expression" 1
  | '!' :: _ => prefixed recur mode "unary_expression" 1
  | '~' :: _ => prefixed recur mode "unary_expression" 1
  | '<' :: _ => fromAngle recur mode
  | '#' :: _ =>
    let name ← privateName
    demand ((← seesWord) == "in")
    return name
  | _ =>
    let word ← seesWord
    if word == "typeof" || word == "void" || word == "delete" then
      prefixed recur mode "unary_expression" word.length
    else if word == "await" then
      let tree ← prefixed recur mode "await_expression" word.length
      return { tree with children := tree.children.map fun child => { child with field := none } }
    else if word == "yield" then yielded recur mode
    else if word == "using" then orElse (usingAssignment recur mode) plain
    else plain

def assertedType (recur : Grammar) (word : String) : Parser (List Tree) := do
  if word == "as" && (← acceptsWord "const") then return []
  return [← recur .typeExpression]

/-- Reads operands with operators of at least the given level between them. -/
def binaryExpression (recur : Grammar) (mode : Mode) (level : Nat) : Parser Tree := do
  skipToOperand
  let start ← offset
  let first ← recur (.operand mode)
  let typed ← isTyped
  iterate first fun left => do
    if mode.mayEnd && (← atStatementEnd true) then return .inr left
    match operator? typed (← ahead) with
    | none => return .inr left
    | some (spelling, own) =>
      if own < level then return .inr left
      skipToOperator
      advance spelling.length
      if spelling == "as" || spelling == "satisfies" then
        let type ← assertedType recur spelling
        let kind := if spelling == "as" then "as_expression" else "satisfies_expression"
        return .inl (← node kind start ([left] ++ type))
      else
        let right ← recur (.binary mode (if spelling == "**" then own else own + 1))
        return .inl (← node "binary_expression" start [left.as "left", right.as "right"])

/-- Whether the characters are the mark of a choice between two expressions. -/
def isChoiceMark (typed : Bool) (characters : List Char) : Bool :=
  match characters with
  | '?' :: '?' :: _ => false
  | '?' :: '.' :: next => (next.head?.map isDigit).getD false
  | '?' :: next =>
    match next.dropWhile isBreakingSpace with
    | ':' :: _ => !typed
    | ')' :: _ => !typed
    | ',' :: _ => !typed
    | _ => true
  | _ => false

def fullExpression (recur : Grammar) (mode : Mode) : Parser Tree := do
  skipToOperand
  let start ← offset
  let condition ← recur (.binary mode lowestLevel)
  if mode.mayEnd && (← atStatementEnd true) then return condition
  if isChoiceMark (← isTyped) (← ahead) then
    expect "?"
    let consequence ← recur (.expression { inChoice := true })
    expect ":"
    let alternative ← recur (.expression mode)
    node "ternary_expression" start
      [condition.as "condition", consequence.as "consequence", alternative.as "alternative"]
  else return condition

def sequenceExpression (recur : Grammar) (mode : Mode) : Parser Tree := do
  skipToOperand
  let start ← offset
  let first ← recur (.expression mode)
  let all ← iterate [first] fun (found : List Tree) => do
    if mode.mayEnd && (← atStatementEnd true) then return .inr found.reverse
    if ← accepts "," then return .inl ((← recur (.expression mode)) :: found)
    return .inr found.reverse
  match all with
  | [single] => return single
  | several => node "sequence_expression" start several

end ModuleAtlas.Script
