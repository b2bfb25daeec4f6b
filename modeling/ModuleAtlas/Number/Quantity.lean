import ModuleAtlas.Json.Value
import ModuleAtlas.Number.Decimal

/-!
# Quantities

Numbers of which it is kept whether they were given as whole numbers.
-/

namespace ModuleAtlas

/-- A whole number or a floating-point number. -/
inductive Quantity where
  | whole (value : Int)
  | real (value : Binary64)
  deriving DecidableEq, Repr

namespace Quantity

def isZero : Quantity → Bool
  | .whole value => value == 0
  | .real value => value.isZero

def toJson : Quantity → Json
  | .whole value => .int value
  | .real value => .float value

/-- The nearest floating-point number; whole numbers beyond the range count as infinite. -/
def toFloat : Quantity → Binary64
  | .whole value => (Binary64.ofInt? value).getD (.infinite (value < 0))
  | .real value => value

def generalText (quantity : Quantity) : String :=
  Decimal.generalText quantity.toFloat

end Quantity

end ModuleAtlas
