/-!
# Tables of character ranges

A property of characters is kept as the list of its ranges, each from a first to a last number.
-/

namespace Stencil.Text

/-- Whether one of the ranges holds the number. -/
def within (ranges : List (Nat × Nat)) (n : Nat) : Bool :=
  ranges.any fun range => range.1 ≤ n && n ≤ range.2

end Stencil.Text
