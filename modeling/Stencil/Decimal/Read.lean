import Stencil.Decimal.Binary

/-!
# Reading numbers

A written number is an optional sign, digits with at most one point among or beside them, and
optionally an exponent with a sign of its own; or, in letters of either case, `inf`, `infinity` or
`nan`.  `read?` takes exactly these texts and gives the number nearest to the decimal.

* `span` — the digits in front of a text and what follows;
* `nearestTo` — the number nearest to a decimal;
* `read?` — the number of a whole text.
-/

namespace Stencil.Decimal

/-- The value of a decimal digit. -/
def digitValue? (c : Char) : Option Nat :=
  if '0' ≤ c ∧ c ≤ '9' then some (c.toNat - 48) else none

/-- Whether the character is a decimal digit. -/
def isDigit (c : Char) : Bool := (digitValue? c).isSome

/-- The digits in front of a text and what follows them. -/
def span (cs : List Char) : List Char × List Char := (cs.takeWhile isDigit, cs.dropWhile isDigit)

/-- The number that digits write. -/
def digitsValue (ds : List Char) : Nat := ds.foldl (fun n c => 10 * n + (c.toNat - 48)) 0

/-- The number nearest to `mantissa · 10 ^ scale`, where the mantissa has `length` digits.  What
lies far outside the range of double precision is settled by its magnitude alone. -/
def nearestTo (mantissa : Nat) (length : Nat) (scale : Int) : Float :=
  if mantissa = 0 then 0.0
  else if 400 < (length : Int) + scale then infinity
  else if (length : Int) + scale < -400 then 0.0
  else if 0 ≤ scale then Float.ofScientific mantissa false scale.toNat
  else Float.ofScientific mantissa true (-scale).toNat

/-- The value of an exponent part: nothing, or `e` with an optional sign and digits. -/
def readExponent? : List Char → Option Int
  | [] => some 0
  | e :: cs =>
    if e = 'e' ∨ e = 'E' then
      let (negative, ds) :=
        match cs with
        | '-' :: ds => (true, ds)
        | '+' :: ds => (false, ds)
        | ds => (false, ds)
      if ds.isEmpty || !ds.all isDigit then none
      else some (if negative then -(digitsValue ds : Int) else digitsValue ds)
    else none

/-- A number without a sign. -/
def readUnsigned? (cs : List Char) : Option Float :=
  let (whole, rest) := span cs
  let (behind, rest) :=
    match rest with
    | '.' :: rest => span rest
    | rest => ([], rest)
  if whole.isEmpty && behind.isEmpty then
    match cs.map Char.toLower with
    | ['i', 'n', 'f'] => some infinity
    | ['i', 'n', 'f', 'i', 'n', 'i', 't', 'y'] => some infinity
    | ['n', 'a', 'n'] => some nan
    | _ => none
  else
    (readExponent? rest).map fun exponent =>
      let ds := (whole ++ behind).dropWhile (· == '0')
      nearestTo (digitsValue ds) ds.length (exponent - behind.length)

/-- The number that a whole text writes. -/
def readChars? : List Char → Option Float
  | '-' :: cs => (readUnsigned? cs).map (-·)
  | '+' :: cs => readUnsigned? cs
  | cs => readUnsigned? cs

/-- The number that a whole text writes. -/
def read? (s : String) : Option Float := readChars? s.toList

end Stencil.Decimal
