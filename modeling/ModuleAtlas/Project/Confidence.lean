import ModuleAtlas.Number.Decimal

/-!
# Confidence

How far a report can be relied upon, as a number between a tenth and one.
-/

namespace ModuleAtlas.Confidence

def hundredths (count : Nat) : Binary64 :=
  Binary64.ofRatio false count 100

/-- The number, kept between two bounds. -/
def between (least most value : Binary64) : Binary64 :=
  let capped := if value.below most then value else most
  if least.below capped then capped else least

/-- The confidence in a report: more files and technologies raise it, critical problems lower it. -/
def of (files technologies criticals : Int) : Binary64 :=
  let raise (condition : Bool) (count : Nat) (value : Binary64) : Binary64 :=
    if condition then value.add (hundredths count) else value
  let raised :=
    raise (3 < technologies) 5
      (raise (0 < technologies) 5 (raise (50 < files) 5 (raise (10 < files) 10 (hundredths 80))))
  let penalty := ((Binary64.ofInt? criticals).getD (.infinite (criticals < 0))).multiply
    (hundredths 10)
  Decimal.roundPlaces 2 (between (hundredths 10) (hundredths 100) (raised.subtract penalty))

end ModuleAtlas.Confidence
