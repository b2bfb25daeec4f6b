import ModuleAtlas.Json.Value
import ModuleAtlas.Number.Reading

/-!
# Writing JSON

Writing JSON documents: spread over lines with two blanks per level, on one line in ASCII, and as the
literal notation in which values appear inside messages. Spread over lines, halves of pairs stand as they
are; in ASCII and in literals they are escaped.
-/

namespace ModuleAtlas.Json

/-- Four hexadecimal digits behind `\u`. -/
def unicodeEscape (unit : Nat) : List Char :=
  '\\' :: 'u' :: Text.Quoted.hexDigits 4 unit

/-- The escapes of a character beyond ASCII: one, or a pair for characters past the first plane. -/
def asciiEscape (character : Char) : List Char :=
  let point := character.toNat
  if point < 0x10000 then unicodeEscape point
  else
    let offset := point - 0x10000
    unicodeEscape (0xD800 + offset / 0x400) ++ unicodeEscape (0xDC00 + offset % 0x400)

/-- How a character stands inside a JSON string. With `ascii`, everything beyond ASCII is escaped. -/
def escapeChar (ascii : Bool) (character : Char) : List Char :=
  match character with
  | '"' => ['\\', '"']
  | '\\' => ['\\', '\\']
  | '\n' => ['\\', 'n']
  | '\r' => ['\\', 'r']
  | '\t' => ['\\', 't']
  | '\x08' => ['\\', 'b']
  | '\x0c' => ['\\', 'f']
  | other =>
    if other.toNat < 0x20 then unicodeEscape other.toNat
    else if ascii && 0x7F ≤ other.toNat then asciiEscape other
    else [other]

/-- How a letter stands inside a string. -/
def spell : Letter → List Letter
  | .char value => (escapeChar false value).map .char
  | .half value => [.half value]

def quoted (text : RawText) : List Letter :=
  .char '"' :: (text.letters.flatMap spell ++ [.char '"'])

def asciiSpell : Letter → List Char
  | .char value => escapeChar true value
  | .half value => unicodeEscape value.unit

def asciiQuoted (text : RawText) : String :=
  String.ofList ('"' :: (text.letters.flatMap asciiSpell ++ ['"']))

/-- A JSON number for a floating-point value; the three special values have names. -/
def floatLiteral : Binary64 → String
  | .nan => "NaN"
  | .infinite negative => if negative then "-Infinity" else "Infinity"
  | finite => Decimal.shortestText finite

mutual

/-- Whether a document can be written: no whole number has too many digits. -/
def isWritable : Json → Bool
  | .int value => decide (value.natAbs < Nat.pow 10 Reading.mostDigits)
  | .array items => areWritable items
  | .object fields => areFieldsWritable fields
  | _ => true

def areWritable : List Json → Bool
  | [] => true
  | item :: rest => isWritable item && areWritable rest

def areFieldsWritable : List (RawText × Json) → Bool
  | [] => true
  | (_, value) :: rest => isWritable value && areFieldsWritable rest

end

/-- The letters of a text without halves. -/
def plainLetters (text : String) : List Letter :=
  (text : RawText).letters

/-- A line break followed by the blanks of a level. -/
def newLine (level : Nat) : List Letter :=
  .char '\n' :: List.replicate (2 * level) (.char ' ')

mutual

/-- The document over several lines, with two blanks per level and characters beyond ASCII as they
are. -/
def prettyAt (level : Nat) : Json → List Letter
  | .null => plainLetters "null"
  | .bool value => plainLetters (if value then "true" else "false")
  | .int value => plainLetters (Decimal.intText value)
  | .float value => plainLetters (floatLiteral value)
  | .string value => quoted value
  | .array [] => [.char '[', .char ']']
  | .array (first :: rest) =>
    .char '[' :: (newLine (level + 1) ++ prettyAt (level + 1) first ++ prettyItems (level + 1) rest
      ++ newLine level ++ [.char ']'])
  | .object [] => [.char '\x7b', .char '\x7d']
  | .object ((key, value) :: rest) =>
    .char '\x7b' :: (newLine (level + 1) ++ quoted key ++ [.char ':', .char ' ']
      ++ prettyAt (level + 1) value ++ prettyFields (level + 1) rest ++ newLine level
      ++ [.char '\x7d'])

/-- The further items of an array, each behind a comma. -/
def prettyItems (level : Nat) : List Json → List Letter
  | [] => []
  | item :: rest => .char ',' :: (newLine level ++ prettyAt level item ++ prettyItems level rest)

def prettyFields (level : Nat) : List (RawText × Json) → List Letter
  | [] => []
  | (key, value) :: rest =>
    .char ',' :: (newLine level ++ quoted key ++ [.char ':', .char ' '] ++ prettyAt level value
      ++ prettyFields level rest)

end

def pretty (document : Json) : RawText :=
  RawText.ofLetters (prettyAt 0 document)

mutual

/-- The document on one line in ASCII, with a blank behind commas and colons. -/
def compact : Json → String
  | .null => "null"
  | .bool value => if value then "true" else "false"
  | .int value => Decimal.intText value
  | .float value => floatLiteral value
  | .string value => asciiQuoted value
  | .array [] => "[]"
  | .array (first :: rest) => "[" ++ compact first ++ compactItems rest ++ "]"
  | .object [] => "\x7b\x7d"
  | .object ((key, value) :: rest) =>
    "\x7b" ++ asciiQuoted key ++ ": " ++ compact value ++ compactFields rest ++ "\x7d"

def compactItems : List Json → String
  | [] => ""
  | item :: rest => ", " ++ compact item ++ compactItems rest

def compactFields : List (RawText × Json) → String
  | [] => ""
  | (key, value) :: rest =>
    ", " ++ asciiQuoted key ++ ": " ++ compact value ++ compactFields rest

end

mutual

/-- The document in literal notation: quoted texts, capitalised names for the constants. -/
def literal : Json → String
  | .null => "None"
  | .bool value => if value then "True" else "False"
  | .int value => Decimal.intText value
  | .float value => Decimal.shortestText value
  | .string value => value.quote
  | .array [] => "[]"
  | .array (first :: rest) => "[" ++ literal first ++ literalItems rest ++ "]"
  | .object [] => "\x7b\x7d"
  | .object ((key, value) :: rest) =>
    "\x7b" ++ key.quote ++ ": " ++ literal value ++ literalFields rest ++ "\x7d"

def literalItems : List Json → String
  | [] => ""
  | item :: rest => ", " ++ literal item ++ literalItems rest

def literalFields : List (RawText × Json) → String
  | [] => ""
  | (key, value) :: rest =>
    ", " ++ key.quote ++ ": " ++ literal value ++ literalFields rest

end

/-- The document as plain text: a string is its own text, everything else its literal notation. -/
def plain : Json → RawText
  | .string value => value
  | other => literal other

end ModuleAtlas.Json
