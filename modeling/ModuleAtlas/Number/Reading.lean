import ModuleAtlas.Number.Decimal
import ModuleAtlas.Text.Digit

/-!
# Reading of numbers

Numbers as people write them: with a sign, with blanks around them, and with single underscores
between digits.
-/

namespace ModuleAtlas.Reading

/-- Why a text is no number. -/
inductive Fault where
  /-- The text is not of the form of a number. -/
  | malformed
  /-- A whole number has more digits than are read. -/
  | digitLimit (digits : Nat)
  deriving DecidableEq, Repr

/-- The most digits of a whole number that are read or written. -/
def mostDigits : Nat := 4300

/-- What is said of a number with too many digits; `value` tells how many, where that is known. -/
def digitLimitText (value : String) : String :=
  s!"Exceeds the limit ({mostDigits} digits) for integer string conversion{value}; use "
    ++ "sys.set_int_max_str_digits() to increase the limit"

/-- What is said of a text with too many digits for a number. -/
def tooLongText (digits : Nat) : String :=
  digitLimitText s!": value has {digits} digits"

/-- What is said of a number with too many digits for a text. -/
def unwritableText : String :=
  digitLimitText ""

def sign : List Char → Bool × List Char
  | '-' :: rest => (true, rest)
  | '+' :: rest => (false, rest)
  | rest => (false, rest)

def digit? (base : Nat) (character : Char) : Option Nat :=
  let point := character.toNat
  let value :=
    if 48 ≤ point && point ≤ 57 then some (point - 48)
    else if 97 ≤ point && point ≤ 102 then some (point - 87)
    else if 65 ≤ point && point ≤ 70 then some (point - 55)
    else none
  value.filter (· < base)

/-- The digits of a number, with single underscores allowed between them. -/
def plainDigits (base : Nat) : List Char → Option (List Nat)
  | [] => none
  | [character] => (digit? base character).map ([·])
  | first :: '_' :: rest =>
    match digit? base first, plainDigits base rest with
    | some value, some values => some (value :: values)
    | _, _ => none
  | first :: rest =>
    match digit? base first, plainDigits base rest with
    | some value, some values => some (value :: values)
    | _, _ => none

def ofDigits (base : Nat) (digits : List Nat) : Nat :=
  digits.foldl (fun value digit => value * base + digit) 0

def signedInt (negative : Bool) (value : Nat) : Int :=
  if negative then -(value : Int) else value

def intIn (base : Nat) (text : String) : Except Fault Int :=
  let (negative, characters) := sign (Text.numberText text)
  match plainDigits base characters with
  | none => .error .malformed
  | some digits =>
    if base = 10 && mostDigits < digits.length then .error (.digitLimit digits.length)
    else .ok (signedInt negative (ofDigits base digits))

def int (text : String) : Except Fault Int :=
  intIn 10 text

/-- The characters without underscores, if each of those stands between two digits. -/
def dropUnderscores : List Char → Option (List Char)
  | [] => some []
  | '_' :: _ => none
  | first :: '_' :: next :: rest =>
    if first.isDigit && next.isDigit then (dropUnderscores (next :: rest)).map (first :: ·) else none
  | first :: rest => (dropUnderscores rest).map (first :: ·)

/-- The words for numbers that are not finite. -/
def word? (characters : List Char) : Option (Bool → Binary64) :=
  let lowered := String.ofList (characters.map Char.toLower)
  if lowered == "inf" || lowered == "infinity" then some Binary64.infinite
  else if lowered == "nan" then some fun _ => .nan
  else none

/-- The exponent at the start of the characters; nothing when it is malformed. -/
def exponent? (characters : List Char) : Option Int :=
  match characters with
  | [] => some 0
  | mark :: rest =>
    if mark = 'e' || mark = 'E' then
      let (negative, digits) := sign rest
      (plainDigits 10 digits).bind fun values =>
        if digits.contains '_' then none else some (signedInt negative (ofDigits 10 values))
    else none

def decimal? (negative : Bool) (characters : List Char) : Option Binary64 :=
  let whole := characters.takeWhile Char.isDigit
  let behind := characters.drop whole.length
  let fraction :=
    match behind with
    | '.' :: more => more.takeWhile Char.isDigit
    | _ => []
  let afterPoint :=
    match behind with
    | '.' :: more => more.drop fraction.length
    | _ => behind
  if whole.isEmpty && fraction.isEmpty then none
  else
    (exponent? afterPoint).map fun exponent =>
      let digits := ofDigits 10 ((whole ++ fraction).map fun c => c.toNat - 48)
      Binary64.ofDecimal negative digits (exponent - fraction.length)

def float (text : String) : Option Binary64 :=
  (dropUnderscores (Text.numberText text)).bind fun characters =>
    let (negative, unsigned) := sign characters
    match word? unsigned with
    | some special => some (special negative)
    | none => decimal? negative unsigned

end ModuleAtlas.Reading
