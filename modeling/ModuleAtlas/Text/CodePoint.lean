/-!
# Sets of characters

Sets of characters given by ascending, disjoint ranges of code points.
-/

namespace ModuleAtlas.Text

/-- A set of code points, as ascending disjoint ranges with both ends included. -/
structure CodePointSet where
  ranges : Array (Nat × Nat)

namespace CodePointSet

/-- Halving search for the range that holds `point` between the positions `low` and `high`. -/
def search
    (ranges : Array (Nat × Nat))
    (point : Nat) :
    Nat → Nat → Nat → Bool
  | 0, _, _ => false
  | fuel + 1, low, high =>
    if low < high then
      let middle := (low + high) / 2
      match ranges[middle]? with
      | none => false
      | some (first, last) =>
        if point < first then search ranges point fuel low middle
        else if last < point then search ranges point fuel (middle + 1) high
        else true
    else false

/-- Whether the character's code point lies in one of the ranges. -/
def contains (set : CodePointSet) (character : Char) : Bool :=
  search set.ranges character.toNat (set.ranges.size + 1) 0 set.ranges.size

end CodePointSet

end ModuleAtlas.Text
