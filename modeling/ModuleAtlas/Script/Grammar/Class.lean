import ModuleAtlas.Script.Grammar.Type

/-!
# Classes

Classes: their heads, decorators and members.
-/

namespace ModuleAtlas.Script

open Script.Parser

/-- Reads a decorator: a name with points and calls, or an expression in parentheses. -/
def decoratorMark (recur : Grammar) : Parser Tree := do
  let start ← place
  expect "@"
  let value ←
    if ← sees "(" then recur (.primary .enclosed)
    else
      let base ← place
      let name ← bindingName "identifier"
      let path ← iterate name fun tree => do
        if ← accepts "." then
          let property ←
            if ← sees "#" then privateName else anyWord "property_identifier"
          return .inl (← node "member_expression" base
            [tree.as "object", property.as "property"])
        return .inr tree
      let types ←
        if (← isTyped) && (← sees "<") then pure [(← recur .typeArguments).as "type_arguments"]
        else pure []
      if ← sees "(" then
        let arguments ← recur .arguments
        node "call_expression" base
          ([path.as "function"] ++ types ++ [arguments.as "arguments"])
      else return path
  return (← node "decorator" start [value]).as "decorator"

def classHeritage (recur : Grammar) : Parser (List Tree) := do
  let start ← place
  if ← isTyped then
    let bases ←
      if ← acceptsWord "extends" then
        iterate [] fun found => do
          let value ← recur .leftHandSide
          let types ←
            if ← sees "<" then pure [← recur .typeArguments] else pure []
          let all := types ++ value :: found
          if ← accepts "," then return .inl all
          return .inr all.reverse
      else pure []
    let interfaces ←
      if ← acceptsWord "implements" then
        iterate [] fun found => do
          let type ← recur .typeExpression
          if ← accepts "," then return .inl (type :: found)
          return .inr (type :: found).reverse
      else pure []
    if bases.isEmpty && interfaces.isEmpty then return []
    return [← node "class_heritage" start (bases ++ interfaces)]
  else if ← acceptsWord "extends" then
    let base ← recur (.expression .enclosed)
    return [← node "class_heritage" start [base]]
  else return []

/-- Reads a class from its keyword on. A class in a declaration has a name. -/
def classFrom (recur : Grammar) (kind : String) (start : Nat) (marks : List Tree)
    (needsName : Bool) : Parser Tree := do
  expectWord "class"
  let typed ← isTyped
  let word ← seesWord
  let isName := word != "" && word != "extends" && !(typed && word == "implements")
  demand (isName || !needsName)
  let name ←
    if isName then
      pure [(← bindingName (if typed then "type_identifier" else "identifier")).as "name"]
    else pure []
  let types ←
    if typed && (← sees "<") then pure [(← recur .typeParameters).as "type_parameters"]
    else pure []
  let heritage ← classHeritage recur
  let body ← recur .classBody
  node kind start (marks ++ name ++ types ++ heritage ++ [body.as "body"])

def classModifiers (typed : Bool) : List String :=
  if typed then
    ["public", "private", "protected", "static", "override", "readonly", "abstract", "declare",
      "accessor", "async", "get", "set"]
  else ["static", "async", "get", "set"]

/-- Reads the end of a field: a semicolon, in dialects with types also a comma, or the end of the
line. -/
def endField (afterOperand : Bool) : Parser Unit := do
  if ← atStatementEnd afterOperand then pure ()
  else if ← isTyped then
    if ← accepts "," then pure () else expect ";"
  else expect ";"

def classMember (recur : Grammar) : Parser Tree := do
  let start ← place
  let typed ← isTyped
  let marks ← decorators recur
  let staticBlock : Parser Tree := do
    expectWord "static"
    demand (← sees "\x7b")
    let body ← recur .block
    node "class_static_block" start [body.as "body"]
  if (← seesWord) == "static" && marks.isEmpty then
    match ← attempt staticBlock with
    | some tree => return tree
    | none => pure ()
  let modifiers ← iterate [] fun (found : List String) => do
    match ← acceptsModifier (classModifiers typed) ["async", "static", "override"] true with
    | some word => return .inl (word :: found)
    | none => return .inr found
  if typed then
    let characters ← ahead
    if characters.head? == some '[' then
      match ← attempt (indexSignature recur) with
      | some tree =>
        endField true
        return tree
      | none => pure ()
  let _ ← accepts "*"
  let name ← propertyName recur
  let isOptional ← if typed then accepts "?" else pure false
  let isDefinite ←
    if typed && !isOptional then
      let characters ← ahead
      if characters.head? == some '!' then accepts "!" else pure false
    else pure false
  let characters ← ahead
  if !isDefinite && (characters.head? == some '(' || (typed && characters.head? == some '<')) then
    let signature ← callSignature recur
    let children := marks ++ [name.as "name"] ++ signature
    if !typed || (← sees "\x7b") then
      let body ← recur .block
      let tree ← node "method_definition" start (children ++ [body.as "body"])
      let _ ← accepts ";"
      return tree
    else
      let kind :=
        if modifiers.contains "abstract" then "abstract_method_signature" else "method_signature"
      let tree ← node kind start children
      endField false
      return tree
  else
    let ascribed ← ascription? recur
    let value ← initializer? recur { mayEnd := true }
    let kind := if typed then "public_field_definition" else "field_definition"
    let part := if typed then "name" else "property"
    let tree ← node kind start
      (marks ++ [name.as part] ++ ascribed ++ (value.map (·.as "value")).toList)
    endField value.isSome
    return tree

def classMembers (recur : Grammar) : Parser Tree := do
  let start ← place
  expect "\x7b"
  let members ← iterate [] fun members => do
    if ← accepts "\x7d" then return .inr members.reverse
    if ← accepts ";" then return .inl members
    let member ← classMember recur
    return .inl (member.as "member" :: members)
  node "class_body" start members

end ModuleAtlas.Script
