/-!
# Binary floating-point numbers

Binary floating-point numbers of double width, as exact data. A finite number is
`± significand · 2 ^ exponent` with a significand below `2 ^ 53` and an exponent of at least `-1074`;
it is kept in the form with the largest significand. Every operation computes the exact result as a
fraction and rounds it once, to the nearest number and to the even one of two.
-/

namespace ModuleAtlas

inductive Binary64 where
  | finite (negative : Bool) (significand : Nat) (exponent : Int)
  | infinite (negative : Bool)
  | nan
  deriving DecidableEq, Repr, Inhabited

namespace Binary64

/-- Nearest whole number to a fraction; a half goes to the even neighbour. -/
def roundDiv (numerator denominator : Nat) : Nat :=
  let quotient := numerator / denominator
  let rest := numerator % denominator
  if 2 * rest < denominator then quotient
  else if denominator < 2 * rest then quotient + 1
  else if quotient % 2 = 0 then quotient
  else quotient + 1

def zero (negative : Bool) : Binary64 :=
  .finite negative 0 (-1074)

/-- Numerator and denominator of `numerator / denominator / 2 ^ exponent`. -/
def scaleDown (numerator denominator : Nat) (exponent : Int) : Nat × Nat :=
  if 0 ≤ exponent then (numerator, denominator * Nat.pow 2 exponent.toNat)
  else (numerator * Nat.pow 2 (-exponent).toNat, denominator)

def leadingExponent (numerator denominator : Nat) : Int :=
  let guess : Int := (Nat.log2 numerator : Int) - Nat.log2 denominator
  let scaled := scaleDown numerator denominator guess
  if scaled.2 ≤ scaled.1 then guess else guess - 1

/-- The number nearest to a fraction with a positive denominator. -/
def ofRatio (negative : Bool) (numerator denominator : Nat) : Binary64 :=
  if numerator = 0 then zero negative
  else
    let exponent := max (leadingExponent numerator denominator - 52) (-1074)
    let scaled := scaleDown numerator denominator exponent
    let significand := roundDiv scaled.1 scaled.2
    let rounded : Nat × Int :=
      if significand = Nat.pow 2 53 then (Nat.pow 2 52, exponent + 1) else (significand, exponent)
    if 971 < rounded.2 then .infinite negative else .finite negative rounded.1 rounded.2

/-- The number nearest to `digits · 10 ^ exponent`. Exponents so far out that every significand
overflows or vanishes are decided without forming the power. -/
def ofDecimal (negative : Bool) (digits : Nat) (exponent : Int) : Binary64 :=
  let size : Int := (Nat.toDigits 10 digits).length
  if digits = 0 then zero negative
  else if 400 < exponent + size then .infinite negative
  else if exponent + size < -400 then zero negative
  else if 0 ≤ exponent then ofRatio negative (digits * Nat.pow 10 exponent.toNat) 1
  else ofRatio negative digits (Nat.pow 10 (-exponent).toNat)

/-- The nearest number to a whole number; `none` when it lies beyond the largest finite one. -/
def ofInt? (value : Int) : Option Binary64 :=
  match ofRatio (value < 0) value.natAbs 1 with
  | .finite negative significand exponent => some (.finite negative significand exponent)
  | _ => none

def ratio (significand : Nat) (exponent : Int) : Nat × Nat :=
  if 0 ≤ exponent then (significand * Nat.pow 2 exponent.toNat, 1)
  else (significand, Nat.pow 2 (-exponent).toNat)

/-- A signed whole multiple of a power of two, rounded once. -/
def ofScaled (value : Int) (exponent : Int) : Binary64 :=
  let parts := ratio value.natAbs exponent
  ofRatio (value < 0) parts.1 parts.2

/-- The significand with its sign. -/
def signed (negative : Bool) (significand : Nat) : Int :=
  if negative then -(significand : Int) else significand

/-- Sum, rounded once. -/
def add : Binary64 → Binary64 → Binary64
  | .finite leftNegative left leftExponent, .finite rightNegative right rightExponent =>
    let exponent := min leftExponent rightExponent
    let shifted (negative : Bool) (significand : Nat) (own : Int) : Int :=
      signed negative (significand * Nat.pow 2 (own - exponent).toNat)
    let total := shifted leftNegative left leftExponent + shifted rightNegative right rightExponent
    if total = 0 then zero (leftNegative && rightNegative) else ofScaled total exponent
  | .nan, _ => .nan
  | _, .nan => .nan
  | .infinite left, .infinite right => if left = right then .infinite left else .nan
  | .infinite negative, _ => .infinite negative
  | _, .infinite negative => .infinite negative

def negate : Binary64 → Binary64
  | .finite negative significand exponent => .finite (!negative) significand exponent
  | .infinite negative => .infinite (!negative)
  | .nan => .nan

/-- Difference, rounded once. -/
def subtract (left right : Binary64) : Binary64 :=
  add left (negate right)

/-- Product of finite numbers, rounded once; anything else is no number here. -/
def multiply : Binary64 → Binary64 → Binary64
  | .finite leftNegative left leftExponent, .finite rightNegative right rightExponent =>
    if left = 0 ∨ right = 0 then zero (leftNegative != rightNegative)
    else
      let parts := ratio (left * right) (leftExponent + rightExponent)
      ofRatio (leftNegative != rightNegative) parts.1 parts.2
  | _, _ => .nan

/-- Whether the left number lies strictly below the right one; never so with a value that is no
number. -/
def below : Binary64 → Binary64 → Bool
  | .finite leftNegative left leftExponent, .finite rightNegative right rightExponent =>
    let exponent := min leftExponent rightExponent
    decide (signed leftNegative (left * Nat.pow 2 (leftExponent - exponent).toNat)
      < signed rightNegative (right * Nat.pow 2 (rightExponent - exponent).toNat))
  | .nan, _ => false
  | _, .nan => false
  | .infinite left, .infinite right => left && !right
  | .infinite negative, _ => negative
  | _, .infinite negative => !negative

def isZero : Binary64 → Bool
  | .finite _ significand _ => significand == 0
  | _ => false

def isFinite : Binary64 → Bool
  | .finite _ _ _ => true
  | _ => false

end Binary64

end ModuleAtlas
