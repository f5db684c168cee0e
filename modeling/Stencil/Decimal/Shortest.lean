import Stencil.Decimal.Binary

/-!
# The fewest digits

Every number of double precision stands for the reals that round to it.  Among the decimals in that
interval `shortest` picks one with the fewest digits and, of those, the one nearest to the number
itself.  All of it is arithmetic on natural numbers.

Two decimals with the same count of digits may lie equally near; which of them a text shows is a
choice of its format (`Tie`).

The search goes from coarse grids to fine ones: on the grid of the multiples of `10 ^ k` only the
two neighbours of the number can lie in the interval when any point does, so the first grid with a
hit decides.
-/

namespace Stencil.Decimal

/-- The decimal `digits · 10 ^ scale`. -/
structure Scaled where
  /-- The digits, as a number. -/
  digits : Nat
  /-- The power of ten. -/
  scale : Int
  deriving DecidableEq, Repr

/-- Which of two equally near decimals is taken. -/
inductive Tie where
  /-- The greater one. -/
  | up
  /-- The one whose last digit is even. -/
  | even
  deriving DecidableEq, Repr

/-- Whether the lower of two equally near multiples is taken. -/
def Tie.takesLower (t : Tie) (low : Nat) : Bool :=
  match t with
  | .up => false
  | .even => low % 2 == 0

/-- The reals that round to a positive number, in quarters of its last place: the number is
`middle / unit`, and the interval goes from `(middle - below) / unit` to `(middle + above) / unit`,
with its ends if `closed`. -/
structure Interval where
  /-- The number itself. -/
  middle : Nat
  /-- The distance to the lower end. -/
  below : Nat
  /-- The distance to the upper end. -/
  above : Nat
  /-- What all three are divided by. -/
  unit : Nat
  /-- Whether the ends belong to the interval. -/
  closed : Bool

/-- The reals that round to `mantissa · 2 ^ exponent`.  Below a power of two the numbers lie twice
as close, so the lower end is nearer there. -/
def Interval.ofBinary (b : Binary) : Interval :=
  let step := Nat.pow 2 (b.exponent - 2).toNat
  let narrow := b.mantissa == Nat.pow 2 52 && b.exponent != -1074
  { middle := 4 * b.mantissa * step
    below := (if narrow then 1 else 2) * step
    above := 2 * step
    unit := Nat.pow 2 (2 - b.exponent).toNat
    closed := b.mantissa % 2 == 0 }

/-- Whether `count · grid / unit` lies in the interval, for a `grid` in the same units. -/
def Interval.holds (i : Interval) (point : Nat) : Bool :=
  if i.closed then i.middle ≤ point + i.below && point ≤ i.middle + i.above
  else i.middle < point + i.below && point < i.middle + i.above

/-- The interval scaled so that the grid of the multiples of `10 ^ k` becomes the multiples of the
second component. -/
def Interval.onGrid (i : Interval) (k : Int) : Interval × Nat :=
  let up := Nat.pow 10 (-k).toNat
  ({ i with middle := i.middle * up, below := i.below * up, above := i.above * up },
    i.unit * Nat.pow 10 k.toNat)

/-- The point of the grid of the multiples of `10 ^ k` in the interval that is nearest to its
middle, as a multiple. -/
def Interval.nearest? (i : Interval) (tie : Tie) (k : Int) : Option Nat :=
  let (j, grid) := i.onGrid k
  let low := j.middle / grid
  let lowPoint := low * grid
  let highPoint := lowPoint + grid
  match j.holds lowPoint, j.holds highPoint with
  | true, true =>
    let toLow := j.middle - lowPoint
    let toHigh := highPoint - j.middle
    if toLow < toHigh || (toLow == toHigh && tie.takesLower low) then some low
    else some (low + 1)
  | true, false => some low
  | false, true => some (low + 1)
  | false, false => none

/-- The first hit among `bound` grids, each ten times finer than the one before. -/
def Interval.search (i : Interval) (tie : Tie) : Nat → Int → Scaled
  | 0, k => ⟨0, k⟩
  | bound + 1, k =>
    match i.nearest? tie k with
    | some digits => ⟨digits, k⟩
    | none => i.search tie bound (k - 1)

/-- A power of ten above `mantissa · 2 ^ exponent`, as its exponent. -/
def powerAbove (b : Binary) : Int :=
  (b.exponent + (b.mantissa.log2 + 1 : Nat)) * 30103 / 100000 + 1

/-- The decimal with the fewest digits among those that round to a finite number other than zero,
without its sign.  Seventeen digits tell all numbers apart, so forty grids are enough. -/
def shortest (tie : Tie) (b : Binary) : Scaled :=
  (Interval.ofBinary b).search tie 40 (powerAbove b)

end Stencil.Decimal
