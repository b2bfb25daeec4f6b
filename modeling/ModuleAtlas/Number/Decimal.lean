import ModuleAtlas.Number.Binary64

/-!
# Decimal text of numbers

Decimal text of binary floating-point numbers: the fewest digits that read back, a fixed number of
places, and a fixed number of significant digits.
-/

namespace ModuleAtlas.Decimal

def digitsOf (value : Nat) : List Char :=
  Nat.toDigits 10 value

def repeated (count : Nat) (character : Char) : List Char :=
  List.replicate count character

/-- The exponent of the leading decimal digit of a positive fraction: the greatest `n` with
`10 ^ n ≤ numerator / denominator`. -/
def leadingExponent (numerator denominator : Nat) : Int :=
  if denominator ≤ numerator then
    ((digitsOf (numerator / denominator)).length : Int) - 1
  else
    -- The fraction is below one: scale it up until a digit shows.
    let guess := (digitsOf (denominator / numerator)).length
    if denominator ≤ numerator * Nat.pow 10 (guess - 1) then -((guess : Int) - 1) else -(guess : Int)

def scaleDown (numerator denominator : Nat) (exponent : Int) : Nat × Nat :=
  if 0 ≤ exponent then (numerator, denominator * Nat.pow 10 exponent.toNat)
  else (numerator * Nat.pow 10 (-exponent).toNat, denominator)

/-- A decimal number `digits · 10 ^ exponent`. -/
structure Scaled where
  digits : Nat
  exponent : Int
  deriving DecidableEq, Repr

/-- Of the two neighbours of a fraction on a decimal grid, those that read back as `value`, the
nearer one first. -/
def readingBack (value : Binary64) (numerator denominator : Nat) (grid : Int) : List Scaled :=
  let scaled := scaleDown numerator denominator grid
  let lower := scaled.1 / scaled.2
  let nearest := Binary64.roundDiv scaled.1 scaled.2
  let candidates := if nearest = lower then [lower, lower + 1] else [lower + 1, lower]
  (candidates.filter fun digits => Binary64.ofDecimal false digits grid == value).map
    fun digits => ⟨digits, grid⟩

/-- The first grid, from coarse to fine, on which a neighbour reads back. -/
def firstReadingBack
    (value : Binary64)
    (numerator denominator : Nat)
    (leading : Int) :
    Nat → Nat → Option Scaled
  | 0, _ => none
  | fuel + 1, count =>
    match readingBack value numerator denominator (leading - ((count : Int) - 1)) with
    | found :: _ => some found
    | [] => firstReadingBack value numerator denominator leading fuel (count + 1)

/-- The shortest decimal that reads back as a positive finite number. -/
def shortest (significand : Nat) (exponent : Int) : Scaled :=
  let parts := Binary64.ratio significand exponent
  let leading := leadingExponent parts.1 parts.2
  (firstReadingBack (.finite false significand exponent) parts.1 parts.2 leading 17 1).getD
    ⟨Binary64.roundDiv parts.1 parts.2, 0⟩

/-- Digits without the zeros at their end, and how many were dropped. -/
def dropZeros (digits : List Char) : List Char × Nat :=
  let kept := (digits.reverse.dropWhile (· = '0')).reverse
  (kept, digits.length - kept.length)

/-- The text of an exponent: a sign and at least two digits. -/
def exponentText (exponent : Int) : List Char :=
  let digits := digitsOf exponent.natAbs
  let padded := if digits.length < 2 then '0' :: digits else digits
  'e' :: (if exponent < 0 then '-' else '+') :: padded

/-- Digits with a point behind the first `whole` of them; zeros fill up on either side. -/
def placePoint (digits : List Char) (whole : Int) : List Char × List Char :=
  if whole ≤ 0 then (['0'], repeated (-whole).toNat '0' ++ digits)
  else if (digits.length : Int) ≤ whole then
    (digits ++ repeated (whole.toNat - digits.length) '0', [])
  else (digits.take whole.toNat, digits.drop whole.toNat)

def signText (negative : Bool) : List Char :=
  if negative then ['-'] else []

/-- The shortest text that reads back. Magnitudes from `10 ^ -4` up to `10 ^ 16` are written with a
point and at least one place, all others with an exponent. -/
def shortestText : Binary64 → String
  | .nan => "nan"
  | .infinite negative => if negative then "-inf" else "inf"
  | .finite negative 0 _ => if negative then "-0.0" else "0.0"
  | .finite negative significand exponent =>
    let found := shortest significand exponent
    let all := digitsOf found.digits
    let digits := (dropZeros all).1
    let whole : Int := (all.length : Int) + found.exponent
    let body :=
      if -3 ≤ whole ∧ whole ≤ 16 then
        let parts := placePoint digits whole
        parts.1 ++ '.' :: (if parts.2.isEmpty then ['0'] else parts.2)
      else
        let mantissa :=
          match digits with
          | [] => ['0']
          | [digit] => [digit]
          | digit :: others => digit :: '.' :: others
        mantissa ++ exponentText (whole - 1)
    String.ofList (signText negative ++ body)

/-- The text with a fixed number of places; a half goes to the even neighbour. -/
def fixedText (places : Nat) : Binary64 → String
  | .nan => "nan"
  | .infinite negative => if negative then "-inf" else "inf"
  | .finite negative significand exponent =>
    let parts := Binary64.ratio significand exponent
    let scaled := Binary64.roundDiv (parts.1 * Nat.pow 10 places) parts.2
    let digits := digitsOf scaled
    let padded := repeated (places + 1 - digits.length) '0' ++ digits
    let whole := padded.take (padded.length - places)
    let fraction := padded.drop (padded.length - places)
    let body := if places = 0 then whole else whole ++ '.' :: fraction
    String.ofList (signText negative ++ body)

/-- The text with at most six significant digits and no zeros behind them; an exponent is used below
`10 ^ -4` and from `10 ^ 6` on. -/
def generalText : Binary64 → String
  | .nan => "nan"
  | .infinite negative => if negative then "-inf" else "inf"
  | .finite negative 0 _ => if negative then "-0" else "0"
  | .finite negative significand exponent =>
    let parts := Binary64.ratio significand exponent
    let leading := leadingExponent parts.1 parts.2
    let scaled := scaleDown parts.1 parts.2 (leading - 5)
    let rounded := Binary64.roundDiv scaled.1 scaled.2
    let settled : Nat × Int :=
      if rounded = 1000000 then (100000, leading + 1) else (rounded, leading)
    let digits := (dropZeros (digitsOf settled.1)).1
    let body :=
      if -4 ≤ settled.2 ∧ settled.2 < 6 then
        let placed := placePoint digits (settled.2 + 1)
        if placed.2.isEmpty then placed.1 else placed.1 ++ '.' :: placed.2
      else
        let mantissa :=
          match digits with
          | [] => ['0']
          | [digit] => [digit]
          | digit :: others => digit :: '.' :: others
        mantissa ++ exponentText settled.2
    String.ofList (signText negative ++ body)

/-- The number rounded to a fixed number of places and read back. -/
def roundPlaces (places : Nat) : Binary64 → Binary64
  | .finite negative significand exponent =>
    let parts := Binary64.ratio significand exponent
    let scaled := Binary64.roundDiv (parts.1 * Nat.pow 10 places) parts.2
    Binary64.ofDecimal negative scaled (-(places : Int))
  | other => other

def intText (value : Int) : String :=
  String.ofList (signText (value < 0) ++ digitsOf value.natAbs)

end ModuleAtlas.Decimal
