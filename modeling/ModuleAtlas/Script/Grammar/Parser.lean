import ModuleAtlas.Script.Grammar.Cursor
import ModuleAtlas.Script.Tree

/-!
# Parsers

Parsers of scripts. A parser reads from a cursor and either returns a value and the cursor behind it,
or fails. The grammar is one total function from goals to parsers: every production is a function of
the parser for goals, and the recursion that ties them together is bounded by a measure of the input.
-/

namespace ModuleAtlas.Script

/-- The languages that scripts are written in. -/
inductive Dialect where
  | javascript
  | typescript
  | tsx
  deriving DecidableEq, Repr

def Dialect.isTyped : Dialect → Bool
  | .javascript => false
  | _ => true

def Dialect.hasMarkup : Dialect → Bool
  | .typescript => false
  | _ => true

/-- What stays the same while a script is parsed. -/
structure Setting where
  dialect : Dialect
  /-- A bound on the number of steps of any loop: more than the characters of the script. -/
  limit : Nat

/-- What changes while a script is parsed. -/
structure State where
  cursor : Cursor
  /-- Places of parentheses that are known to open no parameters of an arrow function. -/
  plainParentheses : List Nat := []
  /-- The furthest place at which a token was refused. -/
  reached : Nat := 0

/-- The outcome of a parser. A failure keeps the state, for what was learned on the way. -/
inductive Outcome (α : Type) where
  | success (value : α) (state : State)
  | failure (state : State)

def Parser (α : Type) : Type :=
  Setting → State → Outcome α

namespace Parser

@[inline] def succeed {α : Type} (value : α) : Parser α :=
  fun _ state => .success value state

@[inline] def andThen {α β : Type} (first : Parser α) (next : α → Parser β) : Parser β :=
  fun setting state =>
    match first setting state with
    | .success value state' => next value setting state'
    | .failure state' => .failure state'

instance : Monad Parser where
  pure := succeed
  bind := andThen

def refuse {α : Type} : Parser α :=
  fun _ state => .failure { state with reached := max state.reached state.cursor.offset }

instance {α : Type} : Inhabited (Parser α) where
  default := refuse

/-- Reads what `parser` reads, or nothing. What a failed attempt learned is kept. -/
def attempt {α : Type} (parser : Parser α) : Parser (Option α) :=
  fun setting state =>
    match parser setting state with
    | .success value state' => .success (some value) state'
    | .failure state' =>
      .success none
        { state with plainParentheses := state'.plainParentheses, reached := state'.reached }

/-- Reads with `first`, or with `second` if that fails. -/
def orElse {α : Type} (first second : Parser α) : Parser α := do
  match ← attempt first with
  | some value => pure value
  | none => second

def demand (condition : Bool) : Parser Unit :=
  if condition then pure () else refuse

def setting : Parser Setting :=
  fun setting state => .success setting state

def cursor : Parser Cursor :=
  fun _ state => .success state.cursor state

def moveTo (cursor : Cursor) : Parser Unit :=
  fun _ state => .success () { state with cursor := cursor }

def rest : Parser (List Char) := do
  return (← cursor).rest

def offset : Parser Nat := do
  return (← cursor).offset

def advance (count : Nat) : Parser Unit := do
  moveTo ((← cursor).advance count)

def isTyped : Parser Bool := do
  return (← setting).dialect.isTyped

/-- Reads the same thing again and again, until a step answers that it is done. -/
def loop {α β : Type} (step : α → Parser (Sum α β)) : Nat → α → Parser β
  | 0, _ => refuse
  | fuel + 1, value => do
    match ← step value with
    | .inl next => loop step fuel next
    | .inr result => pure result

/-- Repeats a step as often as the script can need. -/
def iterate {α β : Type} (initial : α) (step : α → Parser (Sum α β)) : Parser β := do
  loop step (← setting).limit initial

/-! ## Gaps and tokens -/

/-- Moves behind blanks and comments in front of an operand. -/
def skipToOperand : Parser Unit := do
  moveTo (skipGap true (← setting).limit (← cursor))

/-- Moves behind blanks and comments in front of an operator or other punctuation. -/
def skipToOperator : Parser Unit := do
  moveTo (skipGap false (← setting).limit (← cursor))

/-- The characters behind blanks and comments, without moving there. -/
def ahead : Parser (List Char) := do
  return (skipGap false (← setting).limit (← cursor)).rest

/-- Whether a token with this spelling follows, without reading it. -/
def sees (spelling : String) : Parser Bool := do
  return spelling.toList.isPrefixOf (← ahead)

def accepts (spelling : String) : Parser Bool := do
  let place := skipGap false (← setting).limit (← cursor)
  if spelling.toList.isPrefixOf place.rest then
    moveTo (place.advance spelling.length)
    pure true
  else pure false

def expect (spelling : String) : Parser Unit := do
  let place := skipGap false (← setting).limit (← cursor)
  if spelling.toList.isPrefixOf place.rest then moveTo (place.advance spelling.length)
  else
    moveTo place
    refuse

/-- The word that follows, without reading it; empty when none does. -/
def seesWord : Parser String := do
  let characters ← ahead
  return String.ofList (characters.take ((name? characters).getD 0))

def wordOf (characters : List Char) : String :=
  String.ofList (characters.take ((name? characters).getD 0))

def acceptsWord (word : String) : Parser Bool := do
  let place := skipGap false (← setting).limit (← cursor)
  if wordOf place.rest == word then
    moveTo (place.advance word.length)
    pure true
  else pure false

def expectWord (word : String) : Parser Unit := do
  demand (← acceptsWord word)

/-- A node over everything read since `start`. -/
def node (kind : String) (start : Nat) (children : List Tree := []) : Parser Tree := do
  return { kind := kind, start := start, stop := (← offset), children := children }

/-- The place of the next token, which it moves to. -/
def place : Parser Nat := do
  skipToOperator
  offset

def anyWord (kind : String) : Parser Tree := do
  let start ← place
  match name? (← rest) with
  | none => refuse
  | some count =>
    advance count
    node kind start

/-- Whether the statement ends here without a semicolon. -/
def atStatementEnd (afterOperand : Bool) : Parser Bool := do
  let limit := (← setting).limit
  return endsStatement afterOperand limit limit (← rest)

/-- Reads the end of a statement: a semicolon, or a place where none is needed. -/
def endStatement (afterOperand : Bool) : Parser Unit := do
  if ← atStatementEnd afterOperand then pure () else expect ";"

end Parser

/-- The tree as the part that it plays in its parent. -/
def Tree.as (tree : Tree) (field : String) : Tree :=
  { tree with field := some field }

/-- How an expression stands in its surroundings. -/
structure Mode where
  /-- The end of a statement may follow it. -/
  mayEnd : Bool := false
  /-- It stands between the marks of a choice between two expressions. -/
  inChoice : Bool := false

/-- An expression inside brackets. -/
def Mode.enclosed : Mode := {}

/-- What can be asked of the grammar. -/
inductive Goal where
  | statement
  | block
  | expression (mode : Mode)
  | expressions (mode : Mode)
  | binary (mode : Mode) (level : Nat)
  | operand (mode : Mode)
  | primary (mode : Mode)
  | leftHandSide
  | pattern
  | parameters
  | arguments
  | template
  | element
  | classBody
  | decorator
  | typeExpression
  | primaryType
  | typeArguments
  | typeParameters
  | typeMembers
  | returnType

/-- The parser for goals, which productions are given. -/
abbrev Grammar := Goal → Parser Tree

/-- Words that can never be names in the dialect without types. -/
def reservedWords : List String :=
  ["break", "case", "catch", "class", "const", "continue", "debugger", "default", "delete", "do",
    "else", "export", "extends", "false", "finally", "for", "function", "if", "import", "in",
    "instanceof", "new", "null", "return", "super", "switch", "this", "throw", "true", "try",
    "typeof", "var", "void", "while", "with"]

/-- Notes that the parenthesis at a place opens no parameters. -/
def Parser.notePlain (start : Nat) : Parser Unit :=
  fun _ state => .success () { state with plainParentheses := start :: state.plainParentheses }

/-- Whether the parenthesis at a place is known to open no parameters. -/
def Parser.isPlain (start : Nat) : Parser Bool :=
  fun _ state => .success (state.plainParentheses.contains start) state

def bindingName (kind : String) : Parser Tree := do
  let start ← Parser.place
  match name? (← Parser.rest) with
  | none => Parser.refuse
  | some count =>
    let word := String.ofList ((← Parser.rest).take count)
    Parser.demand ((← Parser.isTyped) || !reservedWords.contains word)
    Parser.advance count
    Parser.node kind start

/-- Reads a list of things between commas up to a closing mark. Where `holes` are allowed, things may
be left out; a comma may stand behind the last thing. -/
def commaSeparated (close : String) (holes : Bool) (item : Parser Tree) : Parser (List Tree) :=
  Parser.iterate [] fun items => do
    if ← Parser.accepts close then return .inr items.reverse
    if holes then
      if ← Parser.accepts "," then return .inl items
    let next ← item
    if ← Parser.accepts "," then return .inl (next :: items)
    Parser.expect close
    return .inr (next :: items).reverse

end ModuleAtlas.Script
