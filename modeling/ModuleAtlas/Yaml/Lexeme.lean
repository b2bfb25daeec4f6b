import ModuleAtlas.Number.Reading
import ModuleAtlas.Text.Utf8
import ModuleAtlas.Yaml.Token

/-!
# Parts of a YAML document

How single parts of a document are read: names, tags, directives, and texts in the five ways of
writing them.
-/

namespace ModuleAtlas.Yaml

/-! ## Names and tags -/

def readName (cursor : Cursor) : Except Fault (String × Cursor) :=
  let (name, after) := cursor.span isNameChar
  if name.isEmpty then cursor.fault "expected alphabetic or numeric character"
  else .ok (String.ofList name, after)

/-- Characters that may follow a name of an anchor. -/
def endsAnchor (next : Option Char) : Bool :=
  endsWord next || (next.map fun character => "?:,]\x7d%@\x60".toList.contains character).getD false

/-- Reads the name of an anchor or of a reference to one, behind its mark. -/
def readAnchor (cursor : Cursor) : Except Fault (String × Cursor) := do
  let (name, after) ← readName cursor
  if endsAnchor after.peek then return (name, after)
  after.fault "expected alphabetic or numeric character"

def addressMarks : List Char := "-;/?:@&=+$,_.!~*'()[]%".toList

def readOctets : Nat → Cursor → List UInt8 → Except Fault (List UInt8 × Cursor)
  | 0, cursor, octets => .ok (octets.reverse, cursor)
  | fuel + 1, cursor, octets =>
    if cursor.sees '%' then
      match (cursor.peekAt 1).bind (Reading.digit? 16), (cursor.peekAt 2).bind (Reading.digit? 16) with
      | some high, some low =>
        readOctets fuel (cursor.skip 3) ((high * 16 + low).toUInt8 :: octets)
      | _, _ => cursor.fault "expected URI escape sequence of 2 hexadecimal numbers"
    else .ok (octets.reverse, cursor)

def readAddressFrom : Nat → Cursor → List Char → Except Fault (List Char × Cursor)
  | 0, cursor, taken => .ok (taken.reverse, cursor)
  | fuel + 1, cursor, taken =>
    match cursor.peek with
    | some '%' => do
      let (octets, after) ← readOctets cursor.rest.length cursor []
      match Text.Utf8.decode octets with
      | .error _ => cursor.fault "escaped octets are no text"
      | .ok text => readAddressFrom fuel after (text.toList.reverse ++ taken)
    | some character =>
      if character.isAlphanum || addressMarks.contains character then
        readAddressFrom fuel cursor.next (character :: taken)
      else .ok (taken.reverse, cursor)
    | none => .ok (taken.reverse, cursor)

def readAddress (cursor : Cursor) : Except Fault (String × Cursor) := do
  let (taken, after) ← readAddressFrom (cursor.rest.length + 1) cursor []
  if after.index == cursor.index then cursor.fault "expected URI"
  else return (String.ofList taken, after)

/-- Reads a handle: an exclamation mark, or a name between two of them. -/
def readHandle (cursor : Cursor) : Except Fault (String × Cursor) :=
  if !cursor.sees '!' then cursor.fault "expected '!'"
  else if cursor.peekAt 1 == some ' ' then .ok ("!", cursor.next)
  else
    let (name, after) := cursor.next.span isNameChar
    if after.sees '!' then .ok (String.ofList ('!' :: name ++ ['!']), after.next)
    else after.fault "expected '!'"

/-- Whether a second exclamation mark follows in the same word. -/
def hasHandle (cursor : Cursor) : Bool :=
  (cursor.next.rest.takeWhile fun character => character != ' ' && !isBreak character).contains '!'

def readTag (cursor : Cursor) : Except Fault (Token × Cursor) := do
  let (token, after) ←
    if cursor.peekAt 1 == some '<' then do
      let (address, after) ← readAddress (cursor.skip 2)
      if after.sees '>' then pure (Token.tag none address, after.next)
      else after.fault "expected '>'"
    else if endsWord (cursor.peekAt 1) then pure (Token.tag none "!", cursor.next)
    else do
      let (handle, behind) ←
        if hasHandle cursor then readHandle cursor else pure ("!", cursor.next)
      let (suffix, after) ← readAddress behind
      pure (Token.tag (some handle) suffix, after)
  if endsPart after.peek then return (token, after)
  after.fault "expected ' '"

/-! ## Directives -/

def readNumber (cursor : Cursor) : Except Fault (Nat × Cursor) :=
  let (digits, after) := cursor.span Char.isDigit
  if digits.isEmpty then cursor.fault "expected a digit"
  else .ok (Reading.ofDigits 10 (digits.map fun digit => digit.toNat - 48), after)

def skipSpaces (cursor : Cursor) : Cursor :=
  cursor.skipWhile (· == ' ')

def skipComment (cursor : Cursor) : Cursor :=
  if cursor.sees '#' then cursor.skipWhile fun character => !isBreak character else cursor

/-- The place behind the rest of a line, which holds nothing but a comment. -/
def skipLine (cursor : Cursor) : Except Fault Cursor :=
  let after := skipComment (skipSpaces cursor)
  if endsLine after.peek then .ok after.takeBreak.2
  else after.fault "expected a comment or a line break"

def readVersion (cursor : Cursor) : Except Fault (Directive × Cursor) := do
  let (major, point) ← readNumber (skipSpaces cursor)
  if !point.sees '.' then point.fault "expected a digit or '.'"
  else
    let (_, after) ← readNumber point.next
    if endsPart after.peek then return (.version major, after)
    after.fault "expected a digit or ' '"

def readHandleDirective (cursor : Cursor) : Except Fault (Directive × Cursor) := do
  let (handle, behind) ← readHandle (skipSpaces cursor)
  if !behind.sees ' ' then behind.fault "expected ' '"
  else
    let (start, after) ← readAddress (skipSpaces behind)
    if endsPart after.peek then return (.handle handle start, after)
    after.fault "expected ' '"

def readDirective (cursor : Cursor) : Except Fault (Directive × Cursor) := do
  let (name, behind) ← readName cursor
  if !endsPart behind.peek then behind.fault "expected alphabetic or numeric character"
  else
    let (content, after) ←
      if name == "YAML" then readVersion behind
      else if name == "TAG" then readHandleDirective behind
      else pure (Directive.other, behind.skipWhile fun character => !isBreak character)
    return (content, ← skipLine after)

/-! ## Plain texts -/

def isFlowMark (character : Char) : Bool :=
  character == ',' || character == '[' || character == ']' || character == '\x7b'
    || character == '\x7d'

/-- The number of characters of a plain text up to a gap or an indicator. -/
def plainLength (inFlow : Bool) : List Char → Nat
  | [] => 0
  | character :: rest =>
    let colonEnds := character == ':'
      && (endsWord rest.head? || (inFlow && (rest.head?.map isFlowMark).getD false))
    if isGap character || colonEnds || (inFlow && (isFlowMark character || character == '?')) then 0
    else plainLength inFlow rest + 1

/-- Line ends with spaces between them. At a mark between documents nothing is found. -/
def plainBreaks : Nat → Cursor → List Char → Option (List Char) × Cursor
  | 0, cursor, breaks => (some breaks, cursor)
  | fuel + 1, cursor, breaks =>
    match cursor.peek with
    | some ' ' => plainBreaks fuel cursor.next breaks
    | some character =>
      if isBreak character then
        let (lineEnd, after) := cursor.takeBreak
        if after.seesSeparator then (none, after)
        else plainBreaks fuel after (breaks ++ lineEnd)
      else (some breaks, cursor)
    | none => (some breaks, cursor)

/-- What line ends between two parts of a text come to: a single one counts as a space. -/
def foldBreaks (first breaks : List Char) : List Char :=
  if first != ['\n'] then first ++ breaks
  else if breaks.isEmpty then [' ']
  else breaks

/-- The gap within a plain text, whether it holds a line end, and the place behind it. -/
def plainGap (cursor : Cursor) : List Char × Bool × Cursor :=
  let (spaces, behind) := cursor.span (· == ' ')
  if (behind.peek.map isBreak).getD false then
    let (first, after) := behind.takeBreak
    if after.seesSeparator then ([], true, after)
    else
      match plainBreaks (after.rest.length + 1) after [] with
      | (some breaks, final) => (foldBreaks first breaks, true, final)
      | (none, final) => ([], true, final)
  else (spaces, false, behind)

/-- Reads a plain text. `gap` is what stands between the text so far and the cursor. The truth value
tells whether a line end was passed behind the text. -/
def readPlainFrom (inFlow : Bool) (indent : Int) :
    Nat → List Char → List Char → Bool → Cursor → List Char × Bool × Cursor
  | 0, taken, _, passed, cursor => (taken, passed, cursor)
  | fuel + 1, taken, gap, passed, cursor =>
    let length := plainLength inFlow cursor.rest
    if cursor.sees '#' || length = 0 then (taken, passed, cursor)
    else
      let text := taken ++ gap ++ cursor.rest.take length
      let (nextGap, broken, after) := plainGap (cursor.skip length)
      if nextGap.isEmpty || after.sees '#' || (!inFlow && (after.column : Int) < indent) then
        (text, broken, after)
      else readPlainFrom inFlow indent fuel text nextGap broken after

/-! ## Quoted texts -/

def escapes : List (Char × Char) :=
  [('0', '\x00'), ('a', '\x07'), ('b', '\x08'), ('t', '\t'), ('\t', '\t'), ('n', '\n'),
    ('v', '\x0b'), ('f', '\x0c'), ('r', '\r'), ('e', '\x1b'), (' ', ' '), ('"', '"'),
    ('\\', '\\'), ('/', '/'), ('N', '\u0085'), ('_', '\u00a0'), ('L', '\u2028'), ('P', '\u2029')]

/-- How many digits follow the letter of an escape. -/
def escapeWidths : List (Char × Nat) := [('x', 2), ('u', 4), ('U', 8)]

/-- Line ends with blanks between them inside quotes. -/
def quotedBreaks : Nat → Cursor → List Char → Except Fault (List Char × Cursor)
  | 0, cursor, breaks => .ok (breaks, cursor)
  | fuel + 1, cursor, breaks =>
    if cursor.seesSeparator then cursor.fault "found unexpected document separator"
    else
      let behind := cursor.skipWhile isSpace
      if (behind.peek.map isBreak).getD false then
        let (lineEnd, after) := behind.takeBreak
        quotedBreaks fuel after (breaks ++ lineEnd)
      else .ok (breaks, behind)

/-- The blanks and line ends inside quotes. -/
def quotedGap (cursor : Cursor) : Except Fault (List Char × Cursor) :=
  let (spaces, behind) := cursor.span isSpace
  match behind.peek with
  | none => behind.fault "found unexpected end of stream"
  | some character =>
    if isBreak character then do
      let (first, after) := behind.takeBreak
      let (breaks, final) ← quotedBreaks (after.rest.length + 1) after []
      return (foldBreaks first breaks, final)
    else .ok (spaces, behind)

/-- The character with a given number. A half of a pair shows as the replacement character. -/
def characterOf (point : Nat) : Except Fault Char :=
  if 0x7FFFFFFF < point then .error .hugeCharacter
  else if 0x10FFFF < point then .error .noCharacter
  else if 0xD800 ≤ point ∧ point < 0xE000 then .ok '\uFFFD'
  else .ok (Char.ofNat point)

def readEscape (cursor : Cursor) : Except Fault (List Char × Cursor) :=
  match cursor.peek with
  | none => cursor.fault "found unknown escape character"
  | some letter =>
    match escapes.lookup letter, escapeWidths.lookup letter with
    | some character, _ => .ok ([character], cursor.next)
    | none, some width =>
      let digits := cursor.next.rest.take width
      match digits.mapM (Reading.digit? 16) with
      | some values =>
        if values.length = width then do
          let character ← characterOf (Reading.ofDigits 16 values)
          return ([character], cursor.skip (width + 1))
        else cursor.fault "expected escape sequence of hexadecimal numbers"
      | none => cursor.fault "expected escape sequence of hexadecimal numbers"
    | none, none =>
      if isBreak letter then
        let after := cursor.takeBreak.2
        quotedBreaks (after.rest.length + 1) after []
      else cursor.fault "found unknown escape character"

/-- Reads a quoted text up to its closing quote, with the characters taken so far in reverse. -/
def readQuotedFrom (quote : Char) :
    Nat → Cursor → List Char → Except Fault (List Char × Cursor)
  | 0, cursor, _ => cursor.fault "found unexpected end of stream"
  | fuel + 1, cursor, taken =>
    match cursor.peek with
    | none => cursor.fault "found unexpected end of stream"
    | some character =>
      if character == quote then
        if quote == '\'' && cursor.peekAt 1 == some quote then
          readQuotedFrom quote fuel (cursor.skip 2) (quote :: taken)
        else .ok (taken.reverse, cursor.next)
      else if character == '\\' && quote == '"' then do
        let (text, after) ← readEscape cursor.next
        readQuotedFrom quote fuel after (text.reverse ++ taken)
      else if isGap character then do
        let (gap, after) ← quotedGap cursor
        readQuotedFrom quote fuel after (gap.reverse ++ taken)
      else readQuotedFrom quote fuel cursor.next (character :: taken)

def readQuoted (quote : Char) (cursor : Cursor) : Except Fault (List Char × Cursor) :=
  readQuotedFrom quote (cursor.rest.length + 1) cursor.next []

/-! ## Texts over whole lines -/

/-- What happens to the line ends at the end of a text. -/
inductive Chomping where
  | clip
  | strip
  | keep
  deriving DecidableEq, Repr

def chomping? : Option Char → Option Chomping
  | some '+' => some .keep
  | some '-' => some .strip
  | _ => none

/-- A digit that tells how far a text is indented. -/
def increment? (next : Option Char) : Option Nat :=
  (next.filter Char.isDigit).map fun digit => digit.toNat - 48

def readHeader (cursor : Cursor) : Except Fault (Chomping × Option Nat × Cursor) := do
  let (chomping, increment, after) :=
    match chomping? cursor.peek, increment? cursor.peek with
    | some rule, _ =>
      match increment? cursor.next.peek with
      | some count => (rule, some count, cursor.skip 2)
      | none => (rule, none, cursor.next)
    | none, some count =>
      match chomping? cursor.next.peek with
      | some rule => (rule, some count, cursor.skip 2)
      | none => (.clip, some count, cursor.next)
    | none, none => (.clip, none, cursor)
  if increment = some 0 then cursor.fault "expected indentation indicator in the range 1-9"
  else if !endsPart after.peek then after.fault "expected chomping or indentation indicators"
  else return (chomping, increment, ← skipLine after)

/-- Empty lines before a text whose indentation is not known, and the widest of them. -/
def leadingBreaks : Nat → Cursor → List Char → Nat → List Char × Nat × Cursor
  | 0, cursor, breaks, widest => (breaks, widest, cursor)
  | fuel + 1, cursor, breaks, widest =>
    match cursor.peek with
    | some ' ' => leadingBreaks fuel cursor.next breaks (max widest cursor.next.column)
    | some character =>
      if isBreak character then
        let (lineEnd, after) := cursor.takeBreak
        leadingBreaks fuel after (breaks ++ lineEnd) widest
      else (breaks, widest, cursor)
    | none => (breaks, widest, cursor)

/-- The place behind spaces, but not beyond a column. -/
def skipIndent (indent : Nat) (cursor : Cursor) : Cursor :=
  cursor.skip (min (indent - cursor.column) (cursor.rest.takeWhile (· == ' ')).length)

/-- Empty lines within a text of a known indentation. -/
def innerBreaks (indent : Nat) : Nat → Cursor → List Char → List Char × Cursor
  | 0, cursor, breaks => (breaks, cursor)
  | fuel + 1, cursor, breaks =>
    let behind := skipIndent indent cursor
    if (behind.peek.map isBreak).getD false then
      let (lineEnd, after) := behind.takeBreak
      innerBreaks indent fuel after (breaks ++ lineEnd)
    else (breaks, behind)

/-- Whether a line of the text begins here. -/
def continues (indent : Nat) (cursor : Cursor) : Bool :=
  cursor.column == indent && cursor.peek.isSome

/-- Reads the lines of a text. `breaks` are the empty lines before the next line. The last line end
and the empty lines at the end are given apart. -/
def readLines (folded : Bool) (indent : Nat) :
    Nat → Cursor → List Char → List Char → List Char × List Char × List Char × Cursor
  | 0, cursor, taken, breaks => (taken, [], breaks, cursor)
  | fuel + 1, cursor, taken, breaks =>
    if !continues indent cursor then (taken, [], breaks, cursor)
    else
      let startsSolid := !(cursor.peek.map isSpace).getD false
      let (line, atEnd) := cursor.span fun character => !isBreak character
      let (lineEnd, behind) := atEnd.takeBreak
      let (nextBreaks, after) := innerBreaks indent (behind.rest.length + 1) behind []
      let text := taken ++ breaks ++ line
      if continues indent after then
        let joins := folded && lineEnd == ['\n'] && startsSolid
          && !(after.peek.map isSpace).getD false
        let joint := if !joins then lineEnd else if nextBreaks.isEmpty then [' '] else []
        readLines folded indent fuel after (text ++ joint) nextBreaks
      else (text, lineEnd, nextBreaks, after)

/-- Reads a text over whole lines. `outer` is the indentation of what it belongs to. -/
def readBlock (folded : Bool) (outer : Int) (cursor : Cursor) :
    Except Fault (List Char × Cursor) := do
  let (chomping, increment, start) ← readHeader cursor.next
  let least := (max 1 (outer + 1)).toNat
  let (breaks, indent, first) :=
    match increment with
    | some count =>
      let indent := least + count - 1
      let (breaks, first) := innerBreaks indent (start.rest.length + 1) start []
      (breaks, indent, first)
    | none =>
      let (breaks, widest, first) := leadingBreaks (start.rest.length + 1) start [] 0
      (breaks, max least widest, first)
  let (text, lineEnd, trailing, after) :=
    readLines folded indent (first.rest.length + 1) first [] breaks
  let ending :=
    match chomping with
    | .strip => []
    | .clip => lineEnd
    | .keep => lineEnd ++ trailing
  return (text ++ ending, after)

end ModuleAtlas.Yaml
