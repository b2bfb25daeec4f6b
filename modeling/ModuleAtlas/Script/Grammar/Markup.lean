import ModuleAtlas.Script.Grammar.Literal

/-!
# Markup

Elements of markup inside scripts.
-/

namespace ModuleAtlas.Script

open Script.Parser

def markupName? (characters : List Char) : Option Nat :=
  let isPart (c : Char) : Bool := isLetter c || isDigit c || c == '_' || c == '$' || c == '-'
  let hyphenated := (characters.takeWhile isPart).length
  match characters with
  | [] => none
  | first :: _ =>
    let begins := isLetter first || first == '_' || first == '$'
    let plain := (name? characters).getD 0
    if begins && plain < hyphenated then some hyphenated
    else if plain = 0 then none
    else some plain

def markupName (kind : String) : Parser Tree := do
  let start ← place
  match markupName? (← rest) with
  | none => refuse
  | some count =>
    demand ((← isTyped) || !reservedWords.contains (String.ofList ((← rest).take count)))
    advance count
    node kind start

/-- Reads the name of an element: with points between its parts, or with a namespace. -/
def elementName : Parser Tree := do
  let start ← place
  let first ← markupName "identifier"
  if ← accepts ":" then
    let second ← markupName "identifier"
    node "jsx_namespace_name" start [first, second]
  else
    iterate first fun tree => do
      if ← accepts "." then
        let part ← anyWord "property_identifier"
        return .inl (← node "member_expression" start [tree.as "object", part.as "property"])
      return .inr tree

/-- Reads an expression between braces, which may be left out. -/
def markupExpression (recur : Grammar) : Parser Tree := do
  let start ← place
  expect "\x7b"
  skipToOperand
  if ← accepts "\x7d" then node "jsx_expression" start
  else
    let inner ← place
    let value ←
      if ← accepts "..." then
        let value ← recur (.expression .enclosed)
        node "spread_element" inner [value]
      else recur (.expressions .enclosed)
    expect "\x7d"
    node "jsx_expression" start [value]

def plainAmpersand (characters : List Char) : Bool :=
  match characters with
  | '&' :: next :: _ => !(isLetter next || next == '#')
  | _ => false

def attributeText : Parser Tree := do
  let start ← place
  match ← rest with
  | quote :: _ =>
    demand (quote == '"' || quote == '\'')
    advance 1
    iterate () fun _ => do
      let here ← cursor
      let plain := Cursor.skipWhile (fun c => c != quote && c != '&') here.rest here.offset
      moveTo plain
      match plain.rest with
      | '&' :: _ =>
        let count := referenceLength plain.rest
        if count != 0 then advance count
        else
          demand (plainAmpersand plain.rest)
          advance 2
        return .inl ()
      | _ :: _ =>
        advance 1
        return .inr ()
      | [] => refuse
    node "string" start
  | [] => refuse

def markupAttribute (recur : Grammar) : Parser Tree := do
  let start ← place
  if ← sees "\x7b" then return (← markupExpression recur).as "attribute"
  let name ← markupName "property_identifier"
  let spaced ← accepts ":"
  let more ← if spaced then pure [← markupName "identifier"] else pure []
  let value ←
    if ← accepts "=" then
      skipToOperator
      match ← rest with
      | '\x7b' :: _ => pure [← markupExpression recur]
      | '<' :: _ => pure [← recur .element]
      | _ => pure [← attributeText]
    else pure []
  return (← node "jsx_attribute" start ([name] ++ more ++ value)).as "attribute"

/-- Reads what stands between the tags of an element, up to its closing tag. -/
def elementContents (recur : Grammar) : Parser (List Tree) :=
  iterate [] fun parts => do
    let here ← cursor
    let plain := Cursor.skipWhile
      (fun c => c != '<' && c != '>' && c != '\x7b' && c != '\x7d' && c != '&') here.rest here.offset
    moveTo plain
    match plain.rest with
    | '<' :: next =>
      if (skipGap false (← setting).limit ⟨next, 0⟩).rest.head? == some '/' then
        return .inr parts.reverse
      return .inl ((← recur .element) :: parts)
    | '\x7b' :: _ => return .inl ((← markupExpression recur) :: parts)
    | '&' :: _ =>
      let count := referenceLength plain.rest
      demand (count != 0)
      advance count
      return .inl parts
    | _ => refuse

/-- Reads an element with everything in it. The name of the closing tag is not compared. -/
def markupElement (recur : Grammar) : Parser Tree := do
  let start ← place
  expect "<"
  let isFragment ← sees ">"
  let head ←
    if isFragment then pure []
    else
      let name ← elementName
      let types ←
        if (← isTyped) && (← sees "<") then pure [(← recur .typeArguments).as "type_arguments"]
        else pure []
      pure ([name.as "name"] ++ types)
  let attributes ←
    if isFragment then pure []
    else
      iterate [] fun found => do
        let characters ← ahead
        if characters.head? == some '>' || characters.head? == some '/' then
          return .inr found.reverse
        return .inl ((← markupAttribute recur) :: found)
  if ← accepts "/" then
    demand (!isFragment)
    demand ((← rest).head? == some '>')
    advance 1
    node "jsx_self_closing_element" start (head ++ attributes)
  else
    expect ">"
    let opening ← node "jsx_opening_element" start (head ++ attributes)
    let contents ← elementContents recur
    let closeStart ← offset
    expect "<"
    demand ((← rest).head? == some '/')
    advance 1
    let name ← if ← sees ">" then pure [] else pure [(← elementName).as "name"]
    expect ">"
    let closing ← node "jsx_closing_element" closeStart name
    node "jsx_element" start ([opening.as "open_tag"] ++ contents ++ [closing.as "close_tag"])

end ModuleAtlas.Script
