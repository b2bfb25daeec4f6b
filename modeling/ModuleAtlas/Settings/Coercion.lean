import ModuleAtlas.Number.Decimal
import ModuleAtlas.Yaml.Value

/-!
# Generous reading of settings

How settings take values that were written with another kind in mind: numbers as texts, texts as
numbers, words as truth values.
-/

namespace ModuleAtlas.Yaml.Value

/-- Why a number cannot be taken. -/
inductive Limit where
  /-- A whole number has too many digits to be written. -/
  | digits
  /-- A whole number lies beyond the range of floating-point numbers. -/
  | range
  deriving DecidableEq, Repr

def Limit.message : Limit → String
  | .digits => Reading.unwritableText
  | .range => "int too large to convert to float"

def asFields : Value → List (String × Value)
  | .map fields => fields
  | _ => []

def intText (value : Int) : Except Limit String :=
  if Nat.pow 10 Reading.mostDigits ≤ value.natAbs then .error .digits else .ok (Decimal.intText value)

/-- A value as a text, if it is a text, a number or a truth value. -/
def asText : Value → Except Limit (Option String)
  | .text value => .ok (some value)
  | .bool value => .ok (some (if value then "True" else "False"))
  | .int value => (intText value).map some
  | .float value => .ok (some (Decimal.shortestText value))
  | _ => .ok none

/-- A value as a floating-point number, if it is a number or spells one. -/
def asFloat : Value → Except Limit (Option Binary64)
  | .int value =>
    match Binary64.ofInt? value with
    | some number => .ok (some number)
    | none => .error .range
  | .float value => .ok (some value)
  | .text value => .ok (Reading.float value)
  | _ => .ok none

/-- A value as a whole number, if it is one or spells one. -/
def asInt : Value → Option Int
  | .int value => some value
  | .text value => (Reading.int value).toOption
  | _ => none

def truthWords : List (String × Bool) :=
  [("true", true), ("yes", true), ("1", true), ("false", false), ("no", false), ("0", false)]

/-- A value as a truth value, if it is one or spells one. -/
def asBool : Value → Option Bool
  | .bool value => some value
  | .text value => truthWords.lookup (Text.lower (Text.trim value))
  | _ => none

/-- A value as a list of texts. A text alone is a list of one; items that are no texts, numbers or
truth values are left out. -/
def asTexts : Value → Except Limit (List String)
  | .text value => .ok [value]
  | .list items => (items.mapM asText).map fun texts => texts.filterMap id
  | .octets value => .ok (value.map fun octet => Decimal.intText octet.toNat)
  | _ => .ok []

end ModuleAtlas.Yaml.Value
