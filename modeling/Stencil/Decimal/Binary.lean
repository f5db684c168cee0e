/-!
# Binary numbers taken apart

A finite number of double precision is a whole number times a power of two.  `decode` gives the two
parts from the bits, and what must be exact is computed on them:

* `Binary`, `decode` — sign, mantissa and exponent of a number;
* `truncate`, `floor`, `ceiling` — the neighbouring whole numbers;
* `remainder` — what is left of a division whose quotient is cut off to a whole number.
-/

namespace Stencil.Decimal

/-- The number `± mantissa · 2 ^ exponent`. -/
structure Binary where
  /-- Whether the sign is a minus. -/
  negative : Bool
  /-- The whole number in front. -/
  mantissa : Nat
  /-- The power of two. -/
  exponent : Int
  deriving DecidableEq, Repr

/-- The eleven bits of the exponent field. -/
def exponentField (x : Float) : Nat := x.toBits.toNat / Nat.pow 2 52 % 2048

/-- The fifty-two bits of the fraction field. -/
def fractionField (x : Float) : Nat := x.toBits.toNat % Nat.pow 2 52

/-- Whether the sign bit is set. -/
def isNegative (x : Float) : Bool := x.toBits.toNat / Nat.pow 2 63 == 1

/-- Whether the number is neither infinite nor missing. -/
def isFinite (x : Float) : Bool := exponentField x != 2047

/-- Whether there is no number at all. -/
def isNaN (x : Float) : Bool := exponentField x == 2047 && fractionField x != 0

/-- Whether the number is infinite. -/
def isInfinite (x : Float) : Bool := exponentField x == 2047 && fractionField x == 0

/-- What is not a number. -/
def nan : Float := Float.ofBits 0x7FF8000000000000

/-- The number beyond all others. -/
def infinity : Float := Float.ofBits 0x7FF0000000000000

/-- The parts of a finite number. -/
def decode (x : Float) : Binary :=
  if exponentField x = 0 then ⟨isNegative x, fractionField x, -1074⟩
  else ⟨isNegative x, fractionField x + Nat.pow 2 52, (exponentField x : Int) - 1075⟩

/-- The number without its places behind the point; the sign stays. -/
def truncate (x : Float) : Float :=
  let e := exponentField x
  if 1075 ≤ e then x
  else
    let bits := x.toBits.toNat
    let dropped := if e < 1023 then 63 else 1075 - e
    Float.ofBits (UInt64.ofNat (bits / Nat.pow 2 dropped * Nat.pow 2 dropped))

/-- The greatest whole number that is not above. -/
def floor (x : Float) : Float :=
  let t := truncate x
  if x < t then t - 1.0 else t

/-- The least whole number that is not below. -/
def ceiling (x : Float) : Float :=
  let t := truncate x
  if t < x then t + 1.0 else if x < 0.0 && t == 0.0 then -0.0 else t

/-- The magnitude as a whole number of units `2 ^ least`, for a `least` not above the exponent. -/
def Binary.units (b : Binary) (least : Int) : Nat :=
  b.mantissa * Nat.pow 2 (b.exponent - least).toNat

/-- The number `mantissa · 2 ^ exponent` for a product that double precision holds exactly. -/
def ofUnits (mantissa : Nat) (exponent : Int) : Float :=
  if mantissa = 0 then 0.0
  else
    let length := mantissa.log2 + 1
    let shift := 53 - (length : Int)
    let field := exponent - shift + 1075
    if 1 ≤ field then
      let fraction := (mantissa * Nat.pow 2 shift.toNat) % Nat.pow 2 52
      Float.ofBits (UInt64.ofNat (field.toNat * Nat.pow 2 52 + fraction))
    else Float.ofBits (UInt64.ofNat (mantissa * Nat.pow 2 (exponent + 1074).toNat))

/-- What is left of `x` after the whole multiples of `y` nearer to zero are taken away; it has the
sign of `x`. -/
def remainder (x y : Float) : Float :=
  if isNaN x || isNaN y || isInfinite x || y == 0.0 then nan
  else if isInfinite y || x == 0.0 then x
  else
    let a := decode x
    let b := decode y
    let least := min a.exponent b.exponent
    let left := ofUnits (a.units least % b.units least) least
    if a.negative then -left else left

/-- The number as a natural number: places behind the point are cut off, what is below zero or no
number counts as zero, and nothing is above `2 ^ 64 - 1`. -/
def toNatural (x : Float) : Nat :=
  if isNaN x || isNegative x then 0
  else if isInfinite x then Nat.pow 2 64 - 1
  else
    let b := decode x
    let n := if 0 ≤ b.exponent then b.mantissa * Nat.pow 2 b.exponent.toNat
      else b.mantissa / Nat.pow 2 (-b.exponent).toNat
    min n (Nat.pow 2 64 - 1)

end Stencil.Decimal
