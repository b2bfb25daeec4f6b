import ModuleAtlas.Script.Grammar.Parser

/-!
# Literals

Literals: strings, templates, numbers and regular expressions, and the names of properties.
-/

namespace ModuleAtlas.Script

open Script.Parser

/-- Fails at the end of the line, up to which a literal was looked for. -/
def refuseLine {α : Type} : Parser α := do
  let here ← cursor
  moveTo (Cursor.skipWhile (fun character => !isNewLine character) here.rest here.offset)
  refuse

def stringLiteral : Parser Tree := do
  let start ← place
  match ← rest with
  | quote :: _ =>
    demand (quote == '"' || quote == '\'')
    match stringEnd? quote (← setting).limit ((← cursor).advance 1) with
    | none => refuseLine
    | some behind =>
      moveTo behind
      node "string" start
  | [] => refuse

def numberLiteral : Parser Tree := do
  let start ← place
  let count := numberLength (← rest)
  demand (count != 0)
  advance count
  node "number" start

def regexLiteral : Parser Tree := do
  let start ← place
  let count := regexLength (← rest)
  if count = 0 && (← rest).head? == some '/' then refuseLine
  demand (count != 0)
  advance count
  node "regex" start

/-- Reads a template. The texts between substitutions are read as they are. -/
def templateLiteral (recur : Grammar) : Parser Tree := do
  let start ← place
  expect "\x60"
  let substitutions ← iterate [] fun parts => do
    let here ← cursor
    let plain := Cursor.skipWhile (fun c => c != '\x60' && c != '\\' && c != '$') here.rest here.offset
    moveTo plain
    match plain.rest with
    | '\x60' :: _ =>
      advance 1
      return .inr parts.reverse
    | '$' :: '\x7b' :: _ =>
      advance 2
      let expression ← recur (.expressions .enclosed)
      expect "\x7d"
      let part ← node "template_substitution" plain.offset [expression]
      return .inl (part :: parts)
    | '$' :: _ =>
      advance 1
      return .inl parts
    | '\\' :: _ =>
      let count := escapeLength plain.rest
      demand (count != 0)
      advance count
      return .inl parts
    | _ =>
      moveTo here
      refuse
  node "template_string" start substitutions

def privateName : Parser Tree := do
  let start ← place
  expect "#"
  match name? (← rest) with
  | none => refuse
  | some count =>
    advance count
    node "private_property_identifier" start

/-- Reads the name of a property: a word, a private name, a literal or a computed name. -/
def propertyName (recur : Grammar) : Parser Tree := do
  let start ← place
  match ← rest with
  | '#' :: _ => privateName
  | '[' :: _ =>
    advance 1
    let expression ← recur (.expression .enclosed)
    expect "]"
    node "computed_property_name" start [expression]
  | '"' :: _ => stringLiteral
  | '\'' :: _ => stringLiteral
  | character :: next =>
    if isDigit character || (character == '.' && (next.head?.map isDigit).getD false) then
      numberLiteral
    else anyWord "property_identifier"
  | [] => refuse

def beginsPropertyName (characters : List Char) : Bool :=
  match characters with
  | [] => false
  | character :: _ =>
    character == '#' || character == '[' || character == '"' || character == '\''
      || isDigit character || (name? characters).isSome

/-- Reads one of the given words as a modifier: only when the name of a property, or the mark of a
generator where one may stand, follows it on the same statement. -/
def acceptsModifier (words : List String) (starred : List String) (mayEnd : Bool) :
    Parser (Option String) := do
  let word ← seesWord
  if words.contains word then
    let before ← cursor
    skipToOperator
    advance word.length
    let next ← ahead
    let ends ← if mayEnd then atStatementEnd false else pure false
    let continues := beginsPropertyName next
      || (starred.contains word && next.head? == some '*')
    if continues && !ends then return some word
    moveTo before
    return none
  else return none

end ModuleAtlas.Script
