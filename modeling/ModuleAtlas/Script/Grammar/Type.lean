import ModuleAtlas.Script.Grammar.Pattern

/-!
# Types

Types: annotations, parameters and arguments, and the members of object types.
-/

namespace ModuleAtlas.Script

open Script.Parser

def predefinedTypes : List String :=
  ["any", "number", "boolean", "string", "symbol", "void", "unknown", "never", "object"]

def typeArgumentList (recur : Grammar) : Parser Tree := do
  let start ← place
  expect "<"
  let items ← commaSeparated ">" false (recur .typeExpression)
  demand (!items.isEmpty)
  node "type_arguments" start items

def typeParameter (recur : Grammar) : Parser Tree := do
  let start ← place
  let word ← seesWord
  if word == "const" || word == "in" || word == "out" then
    let before ← cursor
    skipToOperator
    advance word.length
    if (name? (← ahead)).isNone then moveTo before
  let name ← anyWord "type_identifier"
  let bound ←
    if ← acceptsWord "extends" then pure [← recur .typeExpression]
    else if ← accepts ":" then pure [← recur .typeExpression]
    else pure []
  let fallback ←
    if ← accepts "=" then pure [← recur .typeExpression] else pure []
  node "type_parameter" start ([name.as "name"] ++ bound ++ fallback)

def typeParameterList (recur : Grammar) : Parser Tree := do
  let start ← place
  expect "<"
  let items ← commaSeparated ">" false (typeParameter recur)
  demand (!items.isEmpty)
  node "type_parameters" start items

/-- Reads a type that tells what a name turns out to be, or asserts it. -/
def predicate (recur : Grammar) : Parser Tree := do
  let start ← place
  let asserting ← acceptsWord "asserts"
  let name ← anyWord "identifier"
  if ← acceptsWord "is" then
    let type ← recur .typeExpression
    node "type_predicate" start [name, type]
  else
    demand asserting
    node "asserts" start [name]

def resultAscription (recur : Grammar) : Parser Tree := do
  let start ← place
  expect ":"
  let type ← orElse (predicate recur) (recur .typeExpression)
  node "type_annotation" start [type]

def functionType (recur : Grammar) : Parser Tree := do
  let start ← place
  let types ← if ← sees "<" then pure [← recur .typeParameters] else pure []
  let parameters ← recur .parameters
  expect "=>"
  let result ← orElse (predicate recur) (recur .typeExpression)
  node "function_type" start (types ++ [parameters.as "parameters", result.as "return_type"])

def constructorType (recur : Grammar) : Parser Tree := do
  let start ← place
  let _ ← acceptsWord "abstract"
  expectWord "new"
  let types ← if ← sees "<" then pure [← recur .typeParameters] else pure []
  let parameters ← recur .parameters
  expect "=>"
  let result ← recur .typeExpression
  node "constructor_type" start (types ++ [parameters.as "parameters", result.as "type"])

/-- Reads what a type query asks about: names with points, indices, calls and type arguments. -/
def queried (recur : Grammar) : Parser Tree := do
  let start ← place
  let word ← seesWord
  let base ←
    if word == "import" then anyWord "import"
    else if word == "this" then anyWord "this"
    else anyWord "identifier"
  iterate base fun tree => do
    if ← atStatementEnd true then return .inr tree
    let characters ← ahead
    match characters with
    | '.' :: _ =>
      expect "."
      let property ←
        if ← sees "#" then privateName else anyWord "property_identifier"
      return .inl (← node "member_expression" start [tree.as "object", property.as "property"])
    | '?' :: '.' :: _ =>
      expect "?."
      let property ← anyWord "property_identifier"
      return .inl (← node "member_expression" start [tree.as "object", property.as "property"])
    | '(' :: _ =>
      let arguments ← recur .arguments
      return .inl (← node "call_expression" start [tree.as "function", arguments.as "arguments"])
    | '<' :: _ =>
      match ← attempt (recur .typeArguments) with
      | none => return .inr tree
      | some arguments =>
        return .inl (← node "instantiation_expression" start
          [tree.as "function", arguments.as "type_arguments"])
    | _ => return .inr tree

/-- Reads a type that names another: words with points between them, and arguments. -/
def namedType (recur : Grammar) : Parser Tree := do
  let start ← place
  let first ← anyWord "type_identifier"
  let name ← iterate first fun tree => do
    let characters ← ahead
    match characters with
    | '.' :: next =>
      if next.head? == some '.' then return .inr tree
      expect "."
      let part ← anyWord "type_identifier"
      return .inl (← node "nested_type_identifier" start
        [{ tree with kind := "identifier", field := some "module" }, part.as "name"])
    | _ => return .inr tree
  if ← sees "<" then
    match ← attempt (recur .typeArguments) with
    | none => return name
    | some arguments =>
      node "generic_type" start [name.as "name", arguments.as "type_arguments"]
  else return name

def templateType (recur : Grammar) : Parser Tree := do
  let start ← place
  expect "\x60"
  let parts ← iterate [] fun parts => do
    let here ← cursor
    let plain := Cursor.skipWhile (fun c => c != '\x60' && c != '\\' && c != '$') here.rest here.offset
    moveTo plain
    match plain.rest with
    | '\x60' :: _ =>
      advance 1
      return .inr parts.reverse
    | '$' :: '\x7b' :: _ =>
      advance 2
      let type ← recur .typeExpression
      expect "\x7d"
      return .inl (type :: parts)
    | '$' :: _ =>
      advance 1
      return .inl parts
    | '\\' :: _ =>
      let count := escapeLength plain.rest
      demand (count != 0)
      advance count
      return .inl parts
    | _ => refuse
  node "template_literal_type" start parts

/-- Reads a member of a tuple type: a type, perhaps with a name, repeated or optional. -/
def tupleMember (recur : Grammar) : Parser Tree := do
  let start ← place
  let named : Parser Tree := do
    let _ ← accepts "..."
    let name ← anyWord "identifier"
    let _ ← accepts "?"
    expect ":"
    let type ← recur .typeExpression
    node "required_parameter" start [name.as "name", type.as "type"]
  let plain : Parser Tree := do
    let repeated ← accepts "..."
    let type ← recur .typeExpression
    if ← accepts "?" then node "optional_type" start [type]
    else if repeated then node "rest_type" start [type]
    else return type
  orElse named plain

def parenthesizedType (recur : Grammar) : Parser Tree := do
  let start ← place
  expect "("
  let type ← recur .typeExpression
  expect ")"
  node "parenthesized_type" start [type]

def literalType (read : Parser Tree) : Parser Tree := do
  let start ← place
  let value ← read
  node "literal_type" start [value]

/-- Reads a negative or explicitly positive number. -/
def signedNumber : Parser Tree := do
  let start ← place
  advance 1
  let value ← numberLiteral
  node "unary_expression" start [value.as "argument"]

/-- Reads a type without operators around it and brackets behind it. -/
def simpleType (recur : Grammar) : Parser Tree := do
  let start ← place
  match ← rest with
  | '(' :: _ => orElse (functionType recur) (parenthesizedType recur)
  | '<' :: _ => functionType recur
  | '[' :: _ =>
    advance 1
    let members ← commaSeparated "]" false (tupleMember recur)
    node "tuple_type" start members
  | '\x7b' :: _ => recur .typeMembers
  | '"' :: _ => literalType stringLiteral
  | '\'' :: _ => literalType stringLiteral
  | '\x60' :: _ => templateType recur
  | '-' :: _ => literalType signedNumber
  | '+' :: _ => literalType signedNumber
  | '*' :: _ =>
    advance 1
    node "existential_type" start
  | '?' :: _ =>
    advance 1
    let type ← recur .primaryType
    node "flow_maybe_type" start [type]
  | character :: next =>
    if isDigit character || (character == '.' && (next.head?.map isDigit).getD false) then
      literalType numberLiteral
    else
      let word ← seesWord
      if word == "typeof" then
        expectWord word
        let target ← queried recur
        node "type_query" start [target]
      else if word == "import" then queried recur
      else if word == "new" then constructorType recur
      else if word == "abstract" then orElse (constructorType recur) (namedType recur)
      else if word == "true" || word == "false" || word == "null" || word == "undefined" then
        literalType (anyWord word)
      else if word == "this" then anyWord "this_type"
      else if word == "unique" then
        let symbol : Parser Tree := do
          expectWord "unique"
          expectWord "symbol"
          node "predefined_type" start
        orElse symbol (namedType recur)
      else if predefinedTypes.contains word then
        let plain ← anyWord "predefined_type"
        return plain
      else namedType recur
  | [] => refuse

/-- Reads a type with the brackets behind it, and the words that stand before one. -/
def postfixType (recur : Grammar) : Parser Tree := do
  let start ← place
  let word ← seesWord
  let base ←
    if word == "keyof" || word == "readonly" then
      let operator : Parser Tree := do
        expectWord word
        let type ← recur .primaryType
        node (if word == "keyof" then "index_type_query" else "readonly_type") start [type]
      orElse operator (simpleType recur)
    else if word == "infer" then
      let operator : Parser Tree := do
        expectWord word
        let name ← anyWord "type_identifier"
        let bounded : Parser (List Tree) := do
          expectWord "extends"
          let bound ← recur .primaryType
          demand (!(← sees "?"))
          return [bound]
        let bound ← attempt bounded
        node "infer_type" start ([name] ++ bound.getD [])
      orElse operator (simpleType recur)
    else simpleType recur
  iterate base fun tree => do
    if ← atStatementEnd true then return .inr tree
    if ← accepts "[" then
      if ← accepts "]" then return .inl (← node "array_type" start [tree])
      let index ← recur .typeExpression
      expect "]"
      return .inl (← node "lookup_type" start [tree, index])
    return .inr tree

/-- Reads types with an operator between them; the operator may also stand in front. -/
def typesBetween (kind operator : String) (part : Parser Tree) : Parser Tree := do
  let start ← place
  let _ ← accepts operator
  let first ← part
  iterate first fun tree => do
    let characters ← ahead
    let follows := operator.toList.isPrefixOf characters
      && !(operator.toList.isPrefixOf (characters.drop 1))
      && (characters.drop 1).head? != some '='
      && (characters.drop 1).head? != some '\x7d'
    if follows then
      if ← atStatementEnd true then return .inr tree
      expect operator
      let next ← part
      return .inl (← node kind start [tree, next])
    return .inr tree

/-- Reads a type with every operator that can follow it. -/
def fullType (recur : Grammar) : Parser Tree := do
  let start ← place
  let intersection := typesBetween "intersection_type" "&" (recur .primaryType)
  let tree ← typesBetween "union_type" "|" intersection
  if ← atStatementEnd true then return tree
  if (← seesWord) == "extends" then
    let conditional : Parser Tree := do
      expectWord "extends"
      let bound ← typesBetween "union_type" "|" intersection
      expect "?"
      let consequence ← recur .typeExpression
      expect ":"
      let alternative ← recur .typeExpression
      node "conditional_type" start
        [tree.as "left", bound.as "right", consequence.as "consequence",
          alternative.as "alternative"]
    orElse conditional (pure tree)
  else return tree

/-! ## Members of object types -/

/-- Reads an index signature or the clause of a mapped type, from its bracket on. -/
def indexSignature (recur : Grammar) : Parser Tree := do
  let start ← place
  if ← accepts "-" then expectWord "readonly"
  else if ← accepts "+" then expectWord "readonly"
  else if (← seesWord) == "readonly" then expectWord "readonly"
  expect "["
  let name ← anyWord "identifier"
  let inner ←
    if ← accepts ":" then pure [name, ← recur .typeExpression]
    else
      expectWord "in"
      let source ← recur .typeExpression
      let renamed ← if ← acceptsWord "as" then pure [← recur .typeExpression] else pure []
      pure ([name, source] ++ renamed)
  expect "]"
  if ← accepts "-" then expect "?" else if ← accepts "+" then expect "?"
  let _ ← accepts "?"
  let ascribed ← ascription? recur
  node "index_signature" start (inner ++ ascribed)

def bareSignature (recur : Grammar) : Parser Tree := do
  let start ← place
  let isConstruction ← do
    let word ← seesWord
    if word == "new" || word == "abstract" then
      let before ← cursor
      let _ ← acceptsWord "abstract"
      expectWord "new"
      let next ← ahead
      if next.head? == some '(' || next.head? == some '<' then pure true
      else
        moveTo before
        pure false
    else pure false
  let signature ← callSignature recur
  node (if isConstruction then "construct_signature" else "call_signature") start signature

def memberModifiers : List String :=
  ["public", "private", "protected", "static", "override", "readonly", "async", "get", "set"]

def namedMember (recur : Grammar) : Parser Tree := do
  let start ← place
  iterate () fun _ => do
    match ← acceptsModifier memberModifiers ["async"] false with
    | some _ => return .inl ()
    | none => return .inr ()
  let _ ← accepts "*"
  let name ← propertyName recur
  let _ ← accepts "?"
  let characters ← ahead
  if characters.head? == some '(' || characters.head? == some '<' then
    let signature ← callSignature recur
    node "method_signature" start ([name.as "name"] ++ signature)
  else
    let ascribed ← ascription? recur
    node "property_signature" start ([name.as "name"] ++ ascribed)

def typeMember (recur : Grammar) : Parser Tree := do
  let word ← seesWord
  if word == "export" then
    match ← attempt (recur .statement) with
    | some tree => return tree
    | none => namedMember recur
  else
    let characters ← ahead
    match characters with
    | '(' :: _ => bareSignature recur
    | '<' :: _ => bareSignature recur
    | '[' :: _ => orElse (indexSignature recur) (namedMember recur)
    | '-' :: _ => indexSignature recur
    | '+' :: _ => indexSignature recur
    | _ =>
      if word == "new" || word == "abstract" then
        orElse (bareSignature recur) (namedMember recur)
      else if word == "readonly" then orElse (indexSignature recur) (namedMember recur)
      else namedMember recur

/-- Reads an object type: members with commas, semicolons or ends of lines between them. -/
def typeMemberList (recur : Grammar) : Parser Tree := do
  let start ← place
  let exact ← sees "\x7b|"
  let close := if exact then "|\x7d" else "\x7d"
  expect (if exact then "\x7b|" else "\x7b")
  if !(← accepts ",") then
    let _ ← accepts ";"
  let members ← iterate [] fun members => do
    if ← accepts close then return .inr members.reverse
    let member ← typeMember recur
    if ← accepts "," then return .inl (member :: members)
    if ← accepts ";" then return .inl (member :: members)
    if ← accepts close then return .inr (member :: members).reverse
    demand (member.kind == "export_statement" || (← atStatementEnd false))
    return .inl (member :: members)
  node "object_type" start members

end ModuleAtlas.Script
