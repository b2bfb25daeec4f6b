import ModuleAtlas.Text.Blank

/-!
# Places in a YAML document

Places in a document that is read from front to back, and the classes of characters that matter
there.
-/

namespace ModuleAtlas.Yaml

/-- What is still to be read, and where it begins. Lines and columns are counted from zero. -/
structure Cursor where
  rest : List Char
  index : Nat := 0
  line : Nat := 0
  column : Nat := 0
  deriving Repr

def isBreak (character : Char) : Bool :=
  character == '\n' || character == '\r' || character.toNat == 0x85
    || character.toNat == 0x2028 || character.toNat == 0x2029

def isSpace (character : Char) : Bool :=
  character == ' ' || character == '\t'

/-- Spaces, tabs and line ends. -/
def isGap (character : Char) : Bool :=
  isSpace character || isBreak character

/-- The mark at the start of a text that tells its encoding; it takes no column. -/
def byteOrderMark : Char := Char.ofNat 0xFEFF

/-- Whether the document ends here, or a gap follows. -/
def endsWord (next : Option Char) : Bool :=
  (next.map isGap).getD true

/-- Whether the document or the line ends here. -/
def endsLine (next : Option Char) : Bool :=
  (next.map isBreak).getD true

/-- Whether the document or the line ends here, or a space follows. -/
def endsPart (next : Option Char) : Bool :=
  (next.map fun character => character == ' ' || isBreak character).getD true

def isNameChar (character : Char) : Bool :=
  character.isAlphanum || character == '-' || character == '_'

/-- Whether a document may hold the character as it is. -/
def isAllowed (character : Char) : Bool :=
  let point := character.toNat
  point == 9 || point == 10 || point == 13 || (0x20 ≤ point && point ≤ 0x7E) || point == 0x85
    || (0xA0 ≤ point && point ≤ 0xFFFD) || 0x10000 ≤ point

namespace Cursor

def ofText (text : String) : Cursor :=
  { rest := text.toList }

def peek (cursor : Cursor) : Option Char :=
  cursor.rest.head?

def peekAt (cursor : Cursor) (distance : Nat) : Option Char :=
  (cursor.rest.drop distance).head?

def sees (cursor : Cursor) (character : Char) : Bool :=
  cursor.peek == some character

def next (cursor : Cursor) : Cursor :=
  match cursor.rest with
  | [] => cursor
  | character :: rest =>
    let returns := character == '\r' && rest.head? == some '\n'
    if isBreak character && !returns then ⟨rest, cursor.index + 1, cursor.line + 1, 0⟩
    else if character == byteOrderMark then { cursor with rest := rest, index := cursor.index + 1 }
    else { cursor with rest := rest, index := cursor.index + 1, column := cursor.column + 1 }

def skip (cursor : Cursor) : Nat → Cursor
  | 0 => cursor
  | count + 1 => cursor.next.skip count

/-- The characters that satisfy a test, and the place behind them. -/
def span (cursor : Cursor) (test : Char → Bool) : List Char × Cursor :=
  let taken := cursor.rest.takeWhile test
  (taken, cursor.skip taken.length)

def skipWhile (cursor : Cursor) (test : Char → Bool) : Cursor :=
  (cursor.span test).2

/-- The line end that follows, as it counts in a text, and the place behind it. Without a line end
nothing is taken. -/
def takeBreak (cursor : Cursor) : List Char × Cursor :=
  match cursor.rest with
  | '\r' :: '\n' :: _ => (['\n'], cursor.skip 2)
  | character :: _ =>
    if !isBreak character then ([], cursor)
    else if character.toNat == 0x2028 || character.toNat == 0x2029 then ([character], cursor.next)
    else (['\n'], cursor.next)
  | [] => ([], cursor)

/-- Whether three equal characters and a gap follow. -/
def seesTriple (cursor : Cursor) (character : Char) : Bool :=
  cursor.rest.take 3 == [character, character, character] && endsWord (cursor.peekAt 3)

def seesSeparator (cursor : Cursor) : Bool :=
  cursor.seesTriple '-' || cursor.seesTriple '.'

end Cursor

end ModuleAtlas.Yaml
