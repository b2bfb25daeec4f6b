import ModuleAtlas.Script.Grammar.Literal

/-!
# Patterns

Patterns: what parameters and declarations bind, and what assignments assign to.
-/

namespace ModuleAtlas.Script

open Script.Parser

/-- Kinds of expressions that can be assigned to. -/
def isAssignable (kind : String) : Bool :=
  kind == "identifier" || kind == "undefined" || kind == "member_expression"
    || kind == "subscript_expression" || kind == "non_null_expression"

mutual

def toPattern? : Tree → Option Tree
  | ⟨kind, start, stop, named, field, missing, point, children⟩ =>
    let same (kind : String) (children : List Tree) : Tree :=
      ⟨kind, start, stop, named, field, missing, point, children⟩
    if kind == "object" then (toPatterns? children).map (same "object_pattern")
    else if kind == "array" then (toPatterns? children).map (same "array_pattern")
    else if kind == "spread_element" then (toPatterns? children).map (same "rest_pattern")
    else if kind == "assignment_expression" then some (same "assignment_pattern" children)
    else if kind == "shorthand_property_identifier" then
      some (same "shorthand_property_identifier_pattern" children)
    else if kind == "object_assignment_pattern" then some (same kind children)
    else if kind == "pair" then
      match children with
      | [key, value] => (toPattern? value).map fun value => same "pair_pattern" [key, value]
      | _ => none
    else if isAssignable kind then some (same kind children)
    else none

def toPatterns? : List Tree → Option (List Tree)
  | [] => some []
  | tree :: rest =>
    match toPattern? tree, toPatterns? rest with
    | some pattern, some patterns => some (pattern :: patterns)
    | _, _ => none

end

def restPattern (recur : Grammar) : Parser Tree := do
  let start ← place
  expect "..."
  let target ← recur .pattern
  node "rest_pattern" start [target]

def initializer? (recur : Grammar) (mode : Mode) : Parser (Option Tree) := do
  let characters ← ahead
  match characters with
  | '=' :: next =>
    if next.head? == some '=' || next.head? == some '>' then return none
    expect "="
    return some (← recur (.expression mode))
  | _ => return none

/-- Reads a pattern with a value for the case that nothing is bound to it. -/
def patternWithDefault (recur : Grammar) : Parser Tree := do
  let start ← place
  if ← sees "..." then restPattern recur
  else
    let target ← recur .pattern
    match ← initializer? recur .enclosed with
    | none => return target
    | some value => node "assignment_pattern" start [target.as "left", value.as "right"]

def objectPatternEntry (recur : Grammar) : Parser Tree := do
  let start ← place
  if ← sees "..." then restPattern recur
  else
    let characters ← rest
    let key ← propertyName recur
    if ← accepts ":" then
      let value ← patternWithDefault recur
      node "pair_pattern" start [key.as "key", value.as "value"]
    else
      demand (key.kind == "property_identifier")
      demand ((← isTyped) || !reservedWords.contains (wordOf characters))
      let short : Tree := { key with kind := "shorthand_property_identifier_pattern" }
      match ← initializer? recur .enclosed with
      | none => return short
      | some value => node "object_assignment_pattern" start [short.as "left", value.as "right"]

def destructuring (recur : Grammar) : Parser Tree := do
  let start ← place
  if ← accepts "\x7b" then
    let entries ← commaSeparated "\x7d" true (objectPatternEntry recur)
    node "object_pattern" start entries
  else
    expect "["
    let items ← commaSeparated "]" true (patternWithDefault recur)
    node "array_pattern" start items

/-- Reads what a declaration binds: a name, an object pattern or an array pattern. -/
def bindingTarget (recur : Grammar) : Parser Tree := do
  let characters ← ahead
  match characters with
  | '\x7b' :: _ => destructuring recur
  | '[' :: _ => destructuring recur
  | _ => bindingName "identifier"

/-- Reads a pattern: what a declaration binds, or an expression that can be assigned to. -/
def patternTarget (recur : Grammar) : Parser Tree := do
  let characters ← ahead
  match characters with
  | '\x7b' :: _ => destructuring recur
  | '[' :: _ => destructuring recur
  | '(' :: _ => refuse
  | _ =>
    let target ← recur .leftHandSide
    demand (isAssignable target.kind)
    return target

def decorators (recur : Grammar) : Parser (List Tree) :=
  iterate [] fun found => do
    if ← sees "@" then return .inl ((← recur .decorator) :: found)
    return .inr found.reverse

def ascription? (recur : Grammar) : Parser (List Tree) := do
  if !(← isTyped) then return []
  let start ← place
  if ← accepts ":" then
    let ascribed ← recur .typeExpression
    return [(← node "type_annotation" start [ascribed]).as "type"]
  return []

def parameterModifiers : List String :=
  ["public", "private", "protected", "override", "readonly"]

/-- Reads modifiers of a parameter: each is one only if a name or pattern follows it. -/
def parameterModifierWords : Parser Unit :=
  iterate () fun _ => do
    let word ← seesWord
    if parameterModifiers.contains word then
      let before ← cursor
      skipToOperator
      advance word.length
      let next ← ahead
      if (name? next).isSome || next.head? == some '\x7b' || next.head? == some '[' then
        return .inl ()
      moveTo before
      return .inr ()
    return .inr ()

def typedParameter (recur : Grammar) : Parser Tree := do
  let start ← place
  let marks ← decorators recur
  parameterModifierWords
  let target ←
    if ← sees "..." then restPattern recur
    else if (← seesWord) == "this" then anyWord "this"
    else recur .pattern
  let isOptional ← accepts "?"
  let ascribed ← ascription? recur
  let value ← initializer? recur .enclosed
  node (if isOptional then "optional_parameter" else "required_parameter") start
    (marks ++ [target.as "pattern"] ++ ascribed ++ (value.map (·.as "value")).toList)

def formalParameters (recur : Grammar) : Parser Tree := do
  let start ← place
  let typed ← isTyped
  expect "("
  let items ←
    commaSeparated ")" false (if typed then typedParameter recur else patternWithDefault recur)
  node "formal_parameters" start items

def callSignature (recur : Grammar) : Parser (List Tree) := do
  if ← isTyped then
    let types ←
      if ← sees "<" then pure [(← recur .typeParameters).as "type_parameters"] else pure []
    let parameters ← recur .parameters
    let result ← if ← sees ":" then pure [(← recur .returnType).as "return_type"] else pure []
    return types ++ [parameters.as "parameters"] ++ result
  else return [(← recur .parameters).as "parameters"]

end ModuleAtlas.Script
