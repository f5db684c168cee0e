import Stencil.Decimal.Text

/-!
# How a routine writes numbers

A number that a routine puts into text, or uses as a key, has all its places.  The numbers beyond
and the missing one are written as words, and zero has no sign.
-/

namespace Stencil.Routine

/-- A number as a routine writes it. -/
def numberText (x : Float) : String :=
  if Decimal.isNaN x then "NaN"
  else if Decimal.isInfinite x then if Decimal.isNegative x then "-Infinity" else "Infinity"
  else if x == 0.0 then "0"
  else Decimal.positional x

end Stencil.Routine
