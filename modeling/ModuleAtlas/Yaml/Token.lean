import ModuleAtlas.Number.Reading
import ModuleAtlas.Yaml.Cursor
import ModuleAtlas.Text.Quoted

/-!
# Tokens

The smallest parts of a document that carry a meaning, and the faults of documents.
-/

namespace ModuleAtlas.Yaml

inductive Fault where
  /-- The text does not follow the grammar. -/
  | malformed (complaint : String) (line column : Nat)
  /-- A value cannot be made, as its mark does not fit. -/
  | unfit (complaint : String)
  /-- An escape names a number that is no character. -/
  | noCharacter
  /-- An escape names a number beyond all bounds. -/
  | hugeCharacter
  /-- A number marked as whole is written wrongly. -/
  | badInteger (base : Nat) (text : String)
  /-- A whole number has too many digits. -/
  | digitLimit (digits : Nat)
  /-- A number with a point is written wrongly. -/
  | badFloat (text : String)
  /-- A number without any digits. -/
  | emptyNumber
  /-- A truth value is written wrongly. -/
  | badTruth (text : String)
  /-- A text marked as a moment is none. -/
  | notAMoment
  /-- A moment that the calendar does not have. -/
  | badMoment (complaint : String)
  /-- Collections are nested too deeply. -/
  | nesting
  deriving DecidableEq, Repr

def Fault.message : Fault → String
  | .malformed complaint line column => s!"{complaint}, line {line + 1}, column {column + 1}"
  | .unfit complaint => complaint
  | .noCharacter => "chr() arg not in range(0x110000)"
  | .hugeCharacter => "Python int too large to convert to C int"
  | .badInteger base text =>
    s!"invalid literal for int() with base {base}: {Text.Quoted.quote text}"
  | .digitLimit digits => Reading.tooLongText digits
  | .badFloat text => s!"could not convert string to float: {Text.Quoted.quote text}"
  | .emptyNumber => "string index out of range"
  | .badTruth text => Text.Quoted.quote text
  | .notAMoment => "'NoneType' object has no attribute 'groupdict'"
  | .badMoment complaint => complaint
  | .nesting => "maximum recursion depth exceeded"

/-- An instruction before a document. -/
inductive Directive where
  | version (major : Nat)
  | handle (name start : String)
  | other
  deriving DecidableEq, Repr

inductive Token where
  | streamEnd
  | directive (content : Directive)
  | documentStart
  | documentEnd
  | sequenceStart
  | mappingStart
  | blockEnd
  | bracketOpen
  | bracketClose
  | braceOpen
  | braceClose
  | key
  | value
  | entry
  | comma
  | reference (name : String)
  | anchor (name : String)
  | tag (handle : Option String) (suffix : String)
  | scalar (text : String) (isPlain : Bool)
  deriving DecidableEq, Repr

structure Lexeme where
  token : Token
  line : Nat
  column : Nat
  deriving DecidableEq, Repr

def Cursor.fault {α : Type} (cursor : Cursor) (complaint : String) : Except Fault α :=
  .error (.malformed complaint cursor.line cursor.column)

end ModuleAtlas.Yaml
