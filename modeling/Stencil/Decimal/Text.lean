import Stencil.Decimal.Shortest

/-!
# Numbers as text

Three ways of writing a number.  The first two show the fewest digits, the last rounds the exact
value:

* `positional` — every place is written, and never an exponent; of two equally near decimals it
  shows the greater;
* `compact` — an exponent for what is very large or very small, and a point in any case; of two
  equally near decimals it shows the even one;
* `fixed` — a given number of places behind the point, a half going to the even neighbour.
-/

namespace Stencil.Decimal

/-- The digits of a natural number. -/
def naturalDigits (n : Nat) : List Char := Nat.toDigits 10 n

/-- A natural number as text. -/
def naturalText (n : Nat) : String := String.ofList (naturalDigits n)

/-- A row of zeros. -/
def zeros (n : Nat) : List Char := List.replicate n '0'

/-- All places of `digits · 10 ^ scale`, with a point only if places follow it. -/
def Scaled.places (s : Scaled) : List Char :=
  let ds := naturalDigits s.digits
  let behind := (-s.scale).toNat
  if 0 ≤ s.scale then ds ++ zeros s.scale.toNat
  else if behind < ds.length then
    ds.take (ds.length - behind) ++ ['.'] ++ ds.drop (ds.length - behind)
  else ['0', '.'] ++ zeros (behind - ds.length) ++ ds

/-- A minus in front of what is negative. -/
def signed (negative : Bool) (cs : List Char) : List Char := if negative then '-' :: cs else cs

/-- A number with all its places. -/
def positional (x : Float) : String :=
  if isNaN x then "NaN"
  else if isInfinite x then if isNegative x then "-inf" else "inf"
  else if x == 0.0 then if isNegative x then "-0" else "0"
  else String.ofList (signed (isNegative x) (shortest .up (decode x)).places)

/-- A number with a point in it: in places if the point stands within sixteen digits before and
four zeros behind, else with an exponent that shows its sign only if it is a minus or a plus. -/
def Scaled.compact (s : Scaled) : List Char :=
  let ds := naturalDigits s.digits
  let point := (ds.length : Int) + s.scale
  if 0 ≤ s.scale && point ≤ 16 then ds ++ zeros s.scale.toNat ++ ['.', '0']
  else if -5 < point && point ≤ 16 then s.places
  else
    let exponent := point - 1
    let mark := if exponent < 0 then ['e', '-'] else ['e', '+']
    let power := mark ++ naturalDigits exponent.natAbs
    match ds with
    | [d] => d :: power
    | d :: rest => d :: '.' :: rest ++ power
    | [] => power

/-- A finite number with a point or an exponent. -/
def compact (x : Float) : String :=
  if x == 0.0 then if isNegative x then "-0.0" else "0.0"
  else String.ofList (signed (isNegative x) (shortest .even (decode x)).compact)

/-- The natural number nearest to a quotient, a half going to the even one. -/
def roundHalfEven (numerator denominator : Nat) : Nat :=
  let low := numerator / denominator
  let rest := numerator % denominator
  if 2 * rest < denominator then low
  else if denominator < 2 * rest then low + 1
  else low + low % 2

/-- The number of units `10 ^ (-places)` nearest to a finite number without its sign. -/
def Binary.roundTo (b : Binary) (places : Nat) : Nat :=
  roundHalfEven (b.mantissa * Nat.pow 10 places * Nat.pow 2 b.exponent.toNat)
    (Nat.pow 2 (-b.exponent).toNat)

/-- A number with a fixed count of places behind the point. -/
def fixed (x : Float) (places : Nat) : String :=
  if isNaN x then "NaN"
  else if isInfinite x then if isNegative x then "-inf" else "inf"
  else
    let ds := naturalDigits ((decode x).roundTo places)
    let padded := zeros (places + 1 - ds.length) ++ ds
    let whole := padded.take (padded.length - places)
    let behind := padded.drop (padded.length - places)
    String.ofList
      (signed (isNegative x) (if places = 0 then whole else whole ++ ['.'] ++ behind))

end Stencil.Decimal
