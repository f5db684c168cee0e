import Stencil.Routine.Builtin
import Stencil.Text.Case
import Stencil.Text.Fill
import Stencil.Text.Search

/-!
# Methods of texts and numbers

* `TextMethod`, `TextMethod.apply` — what a text can be asked;
* `NumberMethod`, `NumberMethod.apply` — what a number can be asked;
* `fromEnd` — places counted from the end if they are negative, as slices count them.
-/

namespace Stencil.Routine

/-- The longest text, in bytes or characters, that repeating and padding may build. -/
def textLengthLimit : Nat := Nat.pow 2 27

/-- The largest number of decimal places. -/
def placesLimit : Nat := 100

/-- The place that a number gives in a row of `length`, cut to the row: a negative one counts from
the end, and what is no number is the start. -/
def fromEnd (length : Nat) (x : Float) : Nat :=
  if Decimal.isNaN x then 0
  else
    let x := Decimal.truncate x
    if x < 0.0 then Decimal.toNatural (Float.ofNat length + x)
    else min (Decimal.toNatural x) length

/-- The place that an argument gives in a row of `length`; `undefined` gives `standard`. -/
def placeArgument (v : Value) (length standard : Nat) : Run Nat := do
  match v with
  | .undefined => return standard
  | v => return fromEnd length (← Run.numberOf v)

/-- The natural number that an argument gives; what is no number or negative gives zero. -/
def naturalArgument (v : Value) : Run Nat := do
  let x ← Run.numberOf v
  return if Decimal.isNaN x then 0 else Decimal.toNatural x

/-! ### Texts -/

/-- What a text can be asked. -/
inductive TextMethod where
  | upper
  | lower
  | trim
  | trimStart
  | trimEnd
  | includes
  | startsWith
  | endsWith
  | indexOf
  | split
  | replace
  | replaceAll
  | slice
  | substring
  | charAt
  | repeated
  | padStart
  | padEnd
  | itself
  deriving DecidableEq, Repr

/-- The method of texts with this name. -/
def TextMethod.ofName? : String → Option TextMethod
  | "toUpperCase" => some .upper
  | "toLowerCase" => some .lower
  | "trim" => some .trim
  | "trimStart" => some .trimStart
  | "trimEnd" => some .trimEnd
  | "includes" => some .includes
  | "startsWith" => some .startsWith
  | "endsWith" => some .endsWith
  | "indexOf" => some .indexOf
  | "split" => some .split
  | "replace" => some .replace
  | "replaceAll" => some .replaceAll
  | "slice" => some .slice
  | "substring" => some .substring
  | "charAt" => some .charAt
  | "repeat" => some .repeated
  | "padStart" => some .padStart
  | "padEnd" => some .padEnd
  | "toString" => some .itself
  | _ => none

/-- Characters as a value. -/
def charsValue (cs : List Char) : Value := .text (String.ofList cs)

/-- The characters of the text of an argument. -/
def charsArgument (args : List Value) (i : Nat) : Run (List Char) := do
  return (← Run.textOf (argument args i)).toList

/-- What a text is asked to be cut into. -/
def splitText (cs : List Char) (args : List Value) : Run Value := do
  match argument args 0 with
  | .undefined => Run.newArray #[charsValue cs]
  | v =>
    let separator := (← Run.textOf v).toList
    let parts := if separator.isEmpty then cs.map fun c => [c] else Text.pieces separator cs
    Run.newArray (parts.map charsValue).toArray

/-- The text `s` the given number of times over. -/
def repeatText (s : String) (count : Value) : Run Value := do
  let x ← Run.numberOf count
  if !(x ≥ 0.0) || Decimal.isInfinite x then Run.fail (.repetition x)
  else
    let n := Decimal.toNatural x
    if s.isEmpty || n == 0 then return .text ""
    else if textLengthLimit < s.utf8ByteSize * n then Run.fail .textLength
    else return .text (Text.repeated s n)

/-- The characters that bring a text to the given length, if it is shorter. -/
def paddingFor (s : String) (args : List Value) : Run String := do
  let target ← naturalArgument (argument args 0)
  let filler ← match argument args 1 with
    | .undefined => pure [' ']
    | v => do pure (← Run.textOf v).toList
  if target ≤ s.length || filler.isEmpty then return ""
  else if textLengthLimit < target then Run.fail .textLength
  else return Text.filling filler (target - s.length)

/-- The part of a row between two places, empty if the second does not follow the first. -/
def between {α : Type} (start stop : Nat) (row : List α) : List α :=
  (row.drop start).take (stop - start)

/-- What a text answers. -/
def TextMethod.apply (m : TextMethod) (s : String) (args : List Value) : Run Value :=
  match m with
  | .upper => return .text (Text.upperText s)
  | .lower => return .text (Text.lowerText s)
  | .trim => return charsValue (Text.trim s.toList)
  | .trimStart => return charsValue (Text.trimStart s.toList)
  | .trimEnd => return charsValue (Text.trimEnd s.toList)
  | .includes => do return .bool (Text.contains (← charsArgument args 0) s.toList)
  | .startsWith => do return .bool (Text.startsWith (← charsArgument args 0) s.toList)
  | .endsWith => do return .bool (Text.endsWith (← charsArgument args 0) s.toList)
  | .indexOf => do
    match Text.indexOf? (← charsArgument args 0) s.toList with
    | some i => return countValue i
    | none => return .number (-1.0)
  | .split => splitText s.toList args
  | .replace => do
    return charsValue (Text.replaceFirst (← charsArgument args 0) (← charsArgument args 1) s.toList)
  | .replaceAll => do
    return charsValue (Text.replaceEach (← charsArgument args 0) (← charsArgument args 1) s.toList)
  | .slice => do
    let cs := s.toList
    let start ← placeArgument (argument args 0) cs.length 0
    let stop ← placeArgument (argument args 1) cs.length cs.length
    return charsValue (between start stop cs)
  | .substring => do
    let cs := s.toList
    let start ← placeArgument (argument args 0) cs.length 0
    let stop ← placeArgument (argument args 1) cs.length cs.length
    return charsValue (between (min start stop) (max start stop) cs)
  | .charAt => do
    let i ← naturalArgument (argument args 0)
    return charsValue (s.toList[i]?).toList
  | .repeated => repeatText s (argument args 0)
  | .padStart => do return .text ((← paddingFor s args) ++ s)
  | .padEnd => do return .text (s ++ (← paddingFor s args))
  | .itself => return .text s

/-! ### Numbers -/

/-- What a number can be asked. -/
inductive NumberMethod where
  | fixed
  | text
  deriving DecidableEq, Repr

/-- The method of numbers with this name. -/
def NumberMethod.ofName? : String → Option NumberMethod
  | "toFixed" => some .fixed
  | "toString" => some .text
  | _ => none

/-- What a number answers. -/
def NumberMethod.apply (m : NumberMethod) (x : Float) (args : List Value) : Run Value :=
  match m with
  | .fixed => do
    let places ← naturalArgument (argument args 0)
    if placesLimit < places then Run.fail .places
    else return .text (Decimal.fixed x places)
  | .text => return .text (numberText x)

end Stencil.Routine
