import ModuleAtlas.Yaml.Lexeme

/-!
# The tokens of a YAML document

The tokens of a document. Indentation opens and closes collections in block style, and a text turns
out to be a key when a colon follows it on the same line.
-/

namespace ModuleAtlas.Yaml

/-- A place at which a key may have begun. -/
structure Candidate where
  position : Nat
  required : Bool
  index : Nat
  line : Nat
  column : Nat
  deriving DecidableEq, Repr

/-- How far a document has been read. -/
structure Scan where
  cursor : Cursor
  depth : Nat := 0
  indent : Int := -1
  outer : List Int := []
  keyAllowed : Bool := true
  candidates : List (Nat × Candidate) := []
  lexemes : Array Lexeme := #[]

namespace Scan

def fault {α : Type} (scan : Scan) (complaint : String) : Except Fault α :=
  scan.cursor.fault complaint

def inFlow (scan : Scan) : Bool :=
  scan.depth != 0

def column (scan : Scan) : Int :=
  scan.cursor.column

def push (scan : Scan) (token : Token) : Scan :=
  { scan with lexemes := scan.lexemes.push ⟨token, scan.cursor.line, scan.cursor.column⟩ }

def pushOver (scan : Scan) (token : Token) (count : Nat) : Scan :=
  let pushed := scan.push token
  { pushed with cursor := pushed.cursor.skip count }

def allowKey (scan : Scan) (allowed : Bool) : Scan :=
  { scan with keyAllowed := allowed }

/-! ## Keys -/

/-- The longest key that is written without a mark. -/
def longestKey : Nat := 1024

/-- Whether a key that began at a candidate cannot end at the place reached. -/
def isStale (scan : Scan) (candidate : Candidate) : Bool :=
  candidate.line != scan.cursor.line || longestKey < scan.cursor.index - candidate.index

/-- Gives up the candidates that came to nothing. -/
def dropStale (scan : Scan) : Except Fault Scan :=
  if scan.candidates.any fun known => scan.isStale known.2 && known.2.required then
    scan.fault "could not find expected ':'"
  else
    .ok { scan with candidates := scan.candidates.filter fun known => !scan.isStale known.2 }

/-- Gives up the candidate of the current depth. -/
def dropCandidate (scan : Scan) : Except Fault Scan :=
  match scan.candidates.lookup scan.depth with
  | none => .ok scan
  | some candidate =>
    if candidate.required then scan.fault "could not find expected ':'"
    else
      .ok { scan with candidates := scan.candidates.filter fun known => known.1 != scan.depth }

/-- Notes that a key may begin here. -/
def saveCandidate (scan : Scan) : Except Fault Scan :=
  if !scan.keyAllowed then .ok scan
  else do
    let dropped ← scan.dropCandidate
    let cursor := dropped.cursor
    let candidate : Candidate :=
      { position := dropped.lexemes.size
        required := !dropped.inFlow && dropped.indent == dropped.column
        index := cursor.index
        line := cursor.line
        column := cursor.column }
    return { dropped with candidates := (dropped.depth, candidate) :: dropped.candidates }

/-! ## Indentation -/

def unwindFrom (column : Int) (line place : Nat) :
    Int → List Int → Array Lexeme → Int × List Int × Array Lexeme
  | indent, [], lexemes => (indent, [], lexemes)
  | indent, last :: outer, lexemes =>
    if column < indent then
      unwindFrom column line place last outer (lexemes.push ⟨.blockEnd, line, place⟩)
    else (indent, last :: outer, lexemes)

/-- Closes the collections that are indented further than a column. -/
def unwind (scan : Scan) (column : Int) : Scan :=
  if scan.inFlow then scan
  else
    let (indent, outer, lexemes) :=
      unwindFrom column scan.cursor.line scan.cursor.column scan.indent scan.outer scan.lexemes
    { scan with indent := indent, outer := outer, lexemes := lexemes }

/-- Indents further, if the column is further to the right. -/
def deepen (scan : Scan) (column : Int) : Bool × Scan :=
  if scan.indent < column then
    (true, { scan with outer := scan.indent :: scan.outer, indent := column })
  else (false, scan)

/-- Opens a collection in block style at the place reached, unless it is open already. -/
def openBlock (scan : Scan) (token : Token) : Scan :=
  match scan.deepen scan.column with
  | (true, deeper) => deeper.push token
  | (false, same) => same

/-! ## Tokens -/

/-- The place behind blanks, comments and line ends, and whether a line end was passed. -/
def gapEnd : Nat → Cursor → Bool → Cursor × Bool
  | 0, cursor, passed => (cursor, passed)
  | fuel + 1, cursor, passed =>
    let behind := skipComment (skipSpaces cursor)
    if (behind.peek.map isBreak).getD false then gapEnd fuel behind.takeBreak.2 true
    else (behind, passed)

/-- Goes on to the next token. -/
def skipGap (scan : Scan) : Scan :=
  let start :=
    if scan.cursor.index == 0 && scan.cursor.sees byteOrderMark then scan.cursor.next
    else scan.cursor
  let (cursor, passed) := gapEnd (start.rest.length + 1) start false
  { scan with cursor := cursor, keyAllowed := scan.keyAllowed || (passed && !scan.inFlow) }

/-- Ends what was open before a mark between documents. -/
def closeAll (scan : Scan) : Except Fault Scan := do
  let closed ← (scan.unwind (-1)).dropCandidate
  return closed.allowKey false

def enterFlow (scan : Scan) (token : Token) : Except Fault Scan := do
  let saved ← scan.saveCandidate
  return ({ saved with depth := saved.depth + 1 }.allowKey true).pushOver token 1

def leaveFlow (scan : Scan) (token : Token) : Except Fault Scan :=
  if scan.depth = 0 then scan.fault "found a closing bracket that was not opened"
  else do
    let dropped ← scan.dropCandidate
    return ({ dropped with depth := dropped.depth - 1 }.allowKey false).pushOver token 1

/-- A mark that begins an entry of a sequence in block style. -/
def beginEntry (scan : Scan) : Except Fault Scan := do
  if !scan.inFlow && !scan.keyAllowed then
    scan.fault "sequence entries are not allowed here"
  else
    let opened := if scan.inFlow then scan else scan.openBlock .sequenceStart
    let dropped ← (opened.allowKey true).dropCandidate
    return dropped.pushOver .entry 1

def beginKey (scan : Scan) : Except Fault Scan := do
  if !scan.inFlow && !scan.keyAllowed then scan.fault "mapping keys are not allowed here"
  else
    let opened := if scan.inFlow then scan else scan.openBlock .mappingStart
    let dropped ← (opened.allowKey (!opened.inFlow)).dropCandidate
    return dropped.pushOver .key 1

/-- Puts tokens in front of the token at a position. -/
def insertAt (scan : Scan) (candidate : Candidate) (tokens : List Token) : Scan :=
  let inserted := tokens.map fun token =>
    (⟨token, candidate.line, candidate.column⟩ : Lexeme)
  let before := scan.lexemes.extract 0 candidate.position
  let behind := scan.lexemes.extract candidate.position scan.lexemes.size
  { scan with lexemes := before ++ inserted.toArray ++ behind }

/-- A mark that begins a value. What may have begun as a key is one now. -/
def beginValue (scan : Scan) : Except Fault Scan :=
  match scan.candidates.lookup scan.depth with
  | some candidate =>
    let taken :=
      { scan with candidates := scan.candidates.filter fun known => known.1 != scan.depth }
    let marked :=
      if taken.inFlow then taken.insertAt candidate [.key]
      else
        match taken.deepen candidate.column with
        | (true, deeper) => deeper.insertAt candidate [.mappingStart, .key]
        | (false, same) => same.insertAt candidate [.key]
    .ok ((marked.allowKey false).pushOver .value 1)
  | none =>
    if !scan.inFlow && !scan.keyAllowed then scan.fault "mapping values are not allowed here"
    else do
      let opened := if scan.inFlow then scan else scan.openBlock .mappingStart
      let dropped ← (opened.allowKey (!opened.inFlow)).dropCandidate
      return dropped.pushOver .value 1

/-- A token that is read by a function of its own and may be a key. -/
def readWith (scan : Scan) (read : Cursor → Except Fault (Token × Cursor)) :
    Except Fault Scan := do
  let saved ← scan.saveCandidate
  let (token, after) ← read saved.cursor
  return { (saved.allowKey false).push token with cursor := after }

def beginsPlain (scan : Scan) : Bool :=
  match scan.cursor.peek with
  | none => false
  | some character =>
    let indicators := "-?:,[]\x7b\x7d#&*!|>'\"%@\x60".toList
    (!isGap character && !indicators.contains character)
      || (!endsWord (scan.cursor.peekAt 1)
        && (character == '-' || (!scan.inFlow && (character == '?' || character == ':'))))

def plain (scan : Scan) : Except Fault Scan := do
  let saved ← scan.saveCandidate
  let (text, passed, after) :=
    readPlainFrom saved.inFlow (saved.indent + 1) (saved.cursor.rest.length + 1) [] [] false
      saved.cursor
  let pushed := saved.push (.scalar (String.ofList text) true)
  return { pushed.allowKey passed with cursor := after }

def block (scan : Scan) (folded : Bool) : Except Fault Scan := do
  let dropped ← (scan.allowKey true).dropCandidate
  let (text, after) ← readBlock folded dropped.indent dropped.cursor
  return { dropped.push (.scalar (String.ofList text) false) with cursor := after }

def named (make : String → Token) (cursor : Cursor) : Except Fault (Token × Cursor) := do
  let (name, after) ← readAnchor cursor.next
  return (make name, after)

def quoted (quote : Char) (cursor : Cursor) : Except Fault (Token × Cursor) := do
  let (text, after) ← readQuoted quote cursor
  return (.scalar (String.ofList text) false, after)

def step (scan : Scan) (character : Char) : Except Fault Scan :=
  let cursor := scan.cursor
  let spaced := endsWord (cursor.peekAt 1)
  if character == '%' && cursor.column == 0 then do
    let closed ← scan.closeAll
    let (content, after) ← readDirective closed.cursor.next
    return { closed.push (.directive content) with cursor := after }
  else if cursor.column == 0 && cursor.seesTriple '-' then do
    return (← scan.closeAll).pushOver .documentStart 3
  else if cursor.column == 0 && cursor.seesTriple '.' then do
    return (← scan.closeAll).pushOver .documentEnd 3
  else if character == '[' then scan.enterFlow .bracketOpen
  else if character == '\x7b' then scan.enterFlow .braceOpen
  else if character == ']' then scan.leaveFlow .bracketClose
  else if character == '\x7d' then scan.leaveFlow .braceClose
  else if character == ',' then do
    return (← (scan.allowKey true).dropCandidate).pushOver .comma 1
  else if character == '-' && spaced then scan.beginEntry
  else if character == '?' && (scan.inFlow || spaced) then scan.beginKey
  else if character == ':' && (scan.inFlow || spaced) then scan.beginValue
  else if character == '*' then scan.readWith (named .reference)
  else if character == '&' then scan.readWith (named .anchor)
  else if character == '!' then scan.readWith readTag
  else if character == '|' && !scan.inFlow then scan.block false
  else if character == '>' && !scan.inFlow then scan.block true
  else if character == '\'' || character == '"' then scan.readWith (quoted character)
  else if scan.beginsPlain then scan.plain
  else scan.fault "found a character that cannot start any token"

def run : Nat → Scan → Except Fault Scan
  | 0, scan => scan.fault "the document does not end"
  | fuel + 1, scan => do
    let fresh ← scan.skipGap.dropStale
    let unwound := fresh.unwind fresh.column
    match unwound.cursor.peek with
    | none => return (← unwound.closeAll).push .streamEnd
    | some character => run fuel (← unwound.step character)

end Scan

def lexemes (text : String) : Except Fault (List Lexeme) :=
  match text.toList.find? fun character => !isAllowed character with
  | some _ => .error (.malformed "special characters are not allowed" 0 0)
  | none => do
    let final ← Scan.run (text.length + 2) { cursor := .ofText text }
    return final.lexemes.toList

end ModuleAtlas.Yaml
