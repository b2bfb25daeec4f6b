import ModuleAtlas.Json.Value
import ModuleAtlas.Number.Reading

/-!
# Reading JSON

Reading JSON documents. Besides the standard grammar the reader takes the names `NaN`, `Infinity` and
`-Infinity`; a key given twice keeps its first place and its last value. A fault tells what was
expected and where.
-/

namespace ModuleAtlas.Json

/-- What a reader missed or met. -/
inductive Complaint where
  | value
  | propertyName
  | colon
  | comma
  | unterminatedString
  | controlCharacter
  | badEscape
  | badUnicodeEscape
  | extraData
  | byteOrderMark
  deriving DecidableEq, Repr

def Complaint.message : Complaint → String
  | .value => "Expecting value"
  | .propertyName => "Expecting property name enclosed in double quotes"
  | .colon => "Expecting ':' delimiter"
  | .comma => "Expecting ',' delimiter"
  | .unterminatedString => "Unterminated string starting at"
  | .controlCharacter => "Invalid control character at"
  | .badEscape => "Invalid \\escape"
  | .badUnicodeEscape => "Invalid \\uXXXX escape"
  | .extraData => "Extra data"
  | .byteOrderMark => "Unexpected UTF-8 BOM (decode using utf-8-sig)"

/-- Why a text is no document. -/
inductive Fault where
  /-- The grammar fails at a character, counted from zero. -/
  | grammar (complaint : Complaint) (index : Nat)
  /-- A whole number has more digits than are read. -/
  | digitLimit (digits : Nat)
  /-- Arrays or objects are nested too deeply. -/
  | nesting (container : String)
  deriving DecidableEq, Repr

def deepestNesting : Nat := 960

/-- Line and column, both counted from one, of an index. -/
def lineColumn (text : List Letter) (index : Nat) : Nat × Nat :=
  let before := text.take index
  (before.count (.char '\n') + 1, (before.reverse.takeWhile (· ≠ .char '\n')).length + 1)

def Fault.message (text : RawText) : Fault → String
  | .grammar complaint index =>
    let place := lineColumn text.letters index
    s!"{complaint.message}: line {place.1} column {place.2} (char {index})"
  | .digitLimit digits => Reading.tooLongText digits
  | .nesting container =>
    s!"maximum recursion depth exceeded while decoding a JSON {container} from a unicode string"

/-- What is left of the text, and the index at which it begins. -/
structure Rest where
  letters : List Letter
  index : Nat

def Rest.advance (rest : Rest) (count : Nat) : Rest :=
  ⟨rest.letters.drop count, rest.index + count⟩

/-- Blanks between the parts of a document. -/
def isGap (character : Char) : Bool :=
  character == ' ' || character == '\t' || character == '\n' || character == '\r'

def Rest.skipGaps (rest : Rest) : Rest :=
  rest.advance (Letter.run isGap rest.letters).length

def hexValue? (character : Char) : Option Nat :=
  if '0' ≤ character ∧ character ≤ '9' then some (character.toNat - 48)
  else if 'a' ≤ character ∧ character ≤ 'f' then some (character.toNat - 87)
  else if 'A' ≤ character ∧ character ≤ 'F' then some (character.toNat - 55)
  else none

def fourHex? (letters : List Letter) : Option Nat :=
  match letters with
  | .char a :: .char b :: .char c :: .char d :: _ => do
    let high ← hexValue? a
    let second ← hexValue? b
    let third ← hexValue? c
    let low ← hexValue? d
    pure (((high * 16 + second) * 16 + third) * 16 + low)
  | _ => none

def simpleEscape? : Char → Option Char
  | '"' => some '"'
  | '\\' => some '\\'
  | '/' => some '/'
  | 'b' => some '\x08'
  | 'f' => some '\x0c'
  | 'n' => some '\n'
  | 'r' => some '\r'
  | 't' => some '\t'
  | _ => none

/-- The letter of a unit of sixteen bits: a half, or the character with this number. -/
def letterOfUnit (unit : Nat) : Letter :=
  if isHalf : 0xD800 ≤ unit ∧ unit < 0xE000 then .half ⟨unit, isHalf⟩ else .char (Char.ofNat unit)

/-- Reads the four digits behind `\u`, at the index of the letter. A first half of a pair that is
followed by the escape of a second half makes one character with it; a half that is not so paired stands
alone. The count tells how many letters behind the `u` were taken. -/
def readUnicode (rest : List Letter) (index : Nat) : Except Fault (Letter × Nat) :=
  if rest.length < 5 then .error (.grammar .badUnicodeEscape index)
  else
    match fourHex? rest with
    | none => .error (.grammar .badUnicodeEscape index)
    | some high =>
      if 0xD800 ≤ high ∧ high < 0xDC00 then
        match rest.drop 4 with
        | .char '\\' :: .char 'u' :: more =>
          if more.length < 5 then .ok (letterOfUnit high, 4)
          else
            match fourHex? more with
            | none => .error (.grammar .badUnicodeEscape (index + 6))
            | some low =>
              if 0xDC00 ≤ low ∧ low < 0xE000 then
                .ok (.char (Char.ofNat (0x10000 + (high - 0xD800) * 0x400 + (low - 0xDC00))), 10)
              else .ok (letterOfUnit high, 4)
        | _ => .ok (letterOfUnit high, 4)
      else .ok (letterOfUnit high, 4)

/-- Reads a string behind its opening quote, which stands at `start`. The letters read so far are kept
last first. -/
def readString (start : Nat) : Nat → List Letter → Nat → List Letter → Except Fault (RawText × Rest)
  | 0, _, _, _ => .error (.grammar .unterminatedString start)
  | fuel + 1, letters, index, taken =>
    match letters with
    | [] => .error (.grammar .unterminatedString start)
    | .char '"' :: rest => .ok (RawText.ofLetters taken.reverse, ⟨rest, index + 1⟩)
    | [.char '\\'] => .error (.grammar .unterminatedString start)
    | .char '\\' :: .char 'u' :: rest => do
      let (letter, count) ← readUnicode rest (index + 1)
      readString start fuel (rest.drop count) (index + 2 + count) (letter :: taken)
    | .char '\\' :: .char letter :: rest =>
      match simpleEscape? letter with
      | none => .error (.grammar .badEscape index)
      | some character => readString start fuel rest (index + 2) (.char character :: taken)
    | .char '\\' :: .half _ :: _ => .error (.grammar .badEscape index)
    | letter :: rest =>
      if letter.satisfies (·.toNat < 0x20) then .error (.grammar .controlCharacter index)
      else readString start fuel rest (index + 1) (letter :: taken)

def isDigit (character : Char) : Bool :=
  '0' ≤ character && character ≤ '9'

def digitsValue (digits : List Char) : Nat :=
  digits.foldl (fun value digit => value * 10 + (digit.toNat - 48)) 0

/-- The digits of the whole part of a number: a zero by itself, or all that there are. -/
def wholePart (characters : List Char) : List Char :=
  match characters with
  | '0' :: _ => ['0']
  | other => other.takeWhile isDigit

def fractionPart (characters : List Char) : List Char :=
  match characters with
  | '.' :: more => more.takeWhile isDigit
  | _ => []

/-- The exponent of a number: whether it is below zero, its digits, and how many characters it
takes. -/
def exponentPart? (characters : List Char) : Option (Bool × List Char × Nat) :=
  match characters with
  | mark :: more =>
    if mark = 'e' ∨ mark = 'E' then
      let signed := more.head? == some '-' || more.head? == some '+'
      let digits := (if signed then more.drop 1 else more).takeWhile isDigit
      if digits.isEmpty then none
      else some (more.head? == some '-', digits, digits.length + (if signed then 2 else 1))
    else none
  | [] => none

def isNumeric (character : Char) : Bool :=
  isDigit character || character == '-' || character == '+' || character == '.' || character == 'e'
    || character == 'E'

/-- Reads a number at the start of the rest, if one stands there. -/
def readNumber? (rest : Rest) : Option (Except Fault (Json × Rest)) :=
  let characters := Letter.run isNumeric rest.letters
  let negative := characters.head? == some '-'
  let unsigned := if negative then characters.drop 1 else characters
  let whole := wholePart unsigned
  if whole.isEmpty then none
  else
    let afterWhole := unsigned.drop whole.length
    let fraction := fractionPart afterWhole
    let afterFraction := if fraction.isEmpty then afterWhole else afterWhole.drop (fraction.length + 1)
    let exponent := exponentPart? afterFraction
    let exponentLength := (exponent.map fun part => part.2.2).getD 0
    let fractionLength := if fraction.isEmpty then 0 else fraction.length + 1
    let length := (if negative then 1 else 0) + whole.length + fractionLength + exponentLength
    let remaining := rest.advance length
    if fraction.isEmpty && exponent.isNone then
      if Reading.mostDigits < whole.length then some (.error (.digitLimit whole.length))
      else
        let magnitude : Int := digitsValue whole
        some (.ok (.int (if negative then -magnitude else magnitude), remaining))
    else
      let power : Int :=
        match exponent with
        | none => 0
        | some (below, digits, _) =>
          let magnitude : Int := digitsValue ((digits.dropWhile (· == '0')).take 20)
          if below then -magnitude else magnitude
      let value :=
        Binary64.ofDecimal negative (digitsValue (whole ++ fraction)) (power - fraction.length)
      some (.ok (.float value, remaining))

/-- The constants of the grammar and the three special numbers. -/
def constants : List (RawText × Json) :=
  [("null", .null), ("true", .bool true), ("false", .bool false), ("NaN", .float .nan),
    ("Infinity", .float (.infinite false)), ("-Infinity", .float (.infinite true))]

mutual

def readValue : Nat → Nat → Rest → Except Fault (Json × Rest)
  | 0, _, rest => .error (.grammar .value rest.index)
  | fuel + 1, depth, rest =>
    match rest.letters with
    | [] => .error (.grammar .value rest.index)
    | .char '"' :: more => do
      let (text, remaining) ←
        readString rest.index (more.length + 1) more (rest.index + 1) []
      pure (.string text, remaining)
    | .char '[' :: _ =>
      if deepestNesting < depth then .error (.nesting "array")
      else
        let inside := (rest.advance 1).skipGaps
        match inside.letters with
        | .char ']' :: _ => .ok (.array [], inside.advance 1)
        | _ => readItems fuel (depth + 1) inside []
    | .char '\x7b' :: _ =>
      if deepestNesting < depth then .error (.nesting "object")
      else
        let inside := (rest.advance 1).skipGaps
        match inside.letters with
        | .char '\x7d' :: _ => .ok (.object [], inside.advance 1)
        | _ => readFields fuel (depth + 1) inside []
    | _ =>
      match constants.find? fun constant => constant.1.letters.isPrefixOf rest.letters with
      | some (name, value) => .ok (value, rest.advance name.letters.length)
      | none => (readNumber? rest).getD (.error (.grammar .value rest.index))

/-- Reads the items of an array up to its end; those read so far are kept last first. -/
def readItems : Nat → Nat → Rest → List Json → Except Fault (Json × Rest)
  | 0, _, rest, _ => .error (.grammar .value rest.index)
  | fuel + 1, depth, rest, items => do
    let (item, behind) ← readValue fuel depth rest
    let next := behind.skipGaps
    match next.letters with
    | .char ']' :: _ => pure (.array (item :: items).reverse, next.advance 1)
    | .char ',' :: _ => readItems fuel depth (next.advance 1).skipGaps (item :: items)
    | _ => throw (.grammar .comma next.index)

/-- Reads the fields of an object up to its end; those read so far are kept last first. -/
def readFields : Nat → Nat → Rest → List (RawText × Json) → Except Fault (Json × Rest)
  | 0, _, rest, _ => .error (.grammar .value rest.index)
  | fuel + 1, depth, rest, fields =>
    match rest.letters with
    | .char '"' :: more => do
      let (key, behindKey) ← readString rest.index (more.length + 1) more (rest.index + 1) []
      let colon := behindKey.skipGaps
      match colon.letters with
      | .char ':' :: _ =>
        let (value, behind) ← readValue fuel depth (colon.advance 1).skipGaps
        let next := behind.skipGaps
        match next.letters with
        | .char '\x7d' :: _ => pure (ofFields ((key, value) :: fields).reverse, next.advance 1)
        | .char ',' :: _ => readFields fuel depth (next.advance 1).skipGaps ((key, value) :: fields)
        | _ => throw (.grammar .comma next.index)
      | _ => throw (.grammar .colon colon.index)
    | _ => .error (.grammar .propertyName rest.index)

end

/-- Reads a text that is one document between blanks. -/
def read (text : RawText) : Except Fault Json := do
  let letters := text.letters
  if letters.head? = some (.char '\uFEFF') then throw (.grammar .byteOrderMark 0)
  let start := (Rest.mk letters 0).skipGaps
  let (document, behind) ← readValue (2 * letters.length + 2) 1 start
  let ending := behind.skipGaps
  if ending.letters.isEmpty then pure document
  else throw (.grammar .extraData ending.index)

end ModuleAtlas.Json
