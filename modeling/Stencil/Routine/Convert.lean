import Stencil.Decimal.Read
import Stencil.Json.Basic
import Stencil.Routine.NumberText
import Stencil.Routine.Value
import Stencil.Text.Blank
import Stencil.Text.Inspect

/-!
# Values as text, numbers and JSON

An array shows its items, so the conversions follow the heap.  An array that contains itself has no
finite text: the conversions count down the arrays of the heap and answer `none` when a chain of
nested arrays is longer than that.

* `Heap.display` — the text that a value becomes in the output;
* `Heap.toNumber`, `Heap.primitive` — the number of a value, and a value without its structure;
* `Heap.looseEqual` — equality after conversion;
* `Heap.toJson`, `Heap.ofJson` — to and from JSON values;
* `Heap.inspect` — a value as somebody sees it who inspects it.
-/

namespace Stencil.Routine

/-- The number that a text writes: zero if it is blank, and no number if it writes none. -/
def textNumber (s : String) : Float :=
  let cs := Text.trim s.toList
  if cs.isEmpty then 0.0
  else
    match Decimal.readChars? cs with
    | some x => x
    | none => Decimal.nan

/-- The text of a value that is no array. -/
def plainText : Value → String
  | .undefined => "undefined"
  | .null => "null"
  | .bool b => if b then "true" else "false"
  | .number x => numberText x
  | .text s => s
  | .array _ => ""
  | .object _ => "[object Object]"
  | .native name _ _ => "function " ++ name ++ "() \x7b [native code] \x7d"
  | .closure _ _ _ _ _ => "function () \x7b [code] \x7d"

namespace Heap

/-- The text of a value in which at most `bound` arrays are nested. -/
def displayWithin (h : Heap) : Nat → Value → Option String
  | 0, .array _ => none
  | bound + 1, .array place => do
    let texts ← (h.items place).toList.mapM fun v =>
      if v.isNullish then some "" else displayWithin h bound v
    return ",".intercalate texts
  | _, v => some (plainText v)

/-- The text that a value becomes in the output. -/
def display (h : Heap) (v : Value) : Option String := h.displayWithin h.arrays.size v

/-- The number of a value. -/
def toNumber (h : Heap) : Value → Option Float
  | .undefined => some Decimal.nan
  | .null => some 0.0
  | .bool b => some (if b then 1.0 else 0.0)
  | .number x => some x
  | .text s => some (textNumber s)
  | v => (h.display v).map textNumber

/-- A value without its structure: arrays, objects and functions become their text. -/
def primitive (h : Heap) (v : Value) : Option Value :=
  match v with
  | .array _ => (h.display v).map .text
  | .object _ => (h.display v).map .text
  | .native _ _ _ => (h.display v).map .text
  | .closure _ _ _ _ _ => (h.display v).map .text
  | v => some v

/-- Equality of values without structure after conversion. -/
def looseEqualPlain (h : Heap) (a b : Value) : Option Bool :=
  match a, b with
  | .number _, .text _ => do return (← h.toNumber a) == (← h.toNumber b)
  | .text _, .number _ => do return (← h.toNumber a) == (← h.toNumber b)
  | .bool _, _ => do return (← h.toNumber a) == (← h.toNumber b)
  | _, .bool _ => do return (← h.toNumber a) == (← h.toNumber b)
  | a, b => some (a.same b)

/-- Whether the value is an array or an object. -/
def isStructure : Value → Bool
  | .array _ => true
  | .object _ => true
  | _ => false

/-- Whether the value is a text or a number. -/
def isTextOrNumber : Value → Bool
  | .text _ => true
  | .number _ => true
  | _ => false

/-- Equality after conversion: `undefined` and `null` equal each other and nothing else, a truth
value counts as a number, a text beside a number too, and an array or object beside either counts
as its text. -/
def looseEqual (h : Heap) (a b : Value) : Option Bool :=
  if a.isNullish && b.isNullish then some true
  else if a.isNullish || b.isNullish then some false
  else if (isStructure a && isTextOrNumber b) || (isTextOrNumber a && isStructure b) then do
    h.looseEqualPlain (← h.primitive a) (← h.primitive b)
  else h.looseEqualPlain a b

/-! ### JSON -/

/-- A number as a JSON value: whole below `9e15` if it is whole, and `null` if JSON has none. -/
def numberJson (x : Float) : Json :=
  if !Decimal.isFinite x then .null
  else if Decimal.truncate x == x && x.abs < 9.0e15 then
    let n := Decimal.toNatural x.abs
    .number (if Decimal.isNegative x && n != 0 then .negative n else .natural n)
  else .number (.real x)

/-- The JSON value of a value in which at most `bound` arrays and objects are nested: nothing at all
if the nesting is deeper, and no value for `undefined` and functions.  Such members are left out,
and such items are `null`. -/
def toJsonWithin (h : Heap) : Nat → Value → Option (Option Json)
  | _, .undefined => some none
  | _, .null => some (some .null)
  | _, .bool b => some (some (.bool b))
  | _, .number x => some (some (numberJson x))
  | _, .text s => some (some (.text s))
  | _, .native _ _ _ => some none
  | _, .closure _ _ _ _ _ => some none
  | 0, .array _ => none
  | 0, .object _ => none
  | bound + 1, .array place => do
    let items ← (h.items place).toList.mapM fun v => do
      return (← toJsonWithin h bound v).getD .null
    return some (.array items)
  | bound + 1, .object place => do
    let members ← (h.members place).entries.mapM fun (name, v) => do
      return (← toJsonWithin h bound v).map fun j => (name, j)
    return some (Json.ofMembers (members.filterMap id))

/-- The JSON value of a value. -/
def toJson (h : Heap) (v : Value) : Option (Option Json) :=
  h.toJsonWithin (h.arrays.size + h.objects.size) v

mutual

/-- The value of a JSON value, with new arrays and objects. -/
def ofJson (h : Heap) : Json → Value × Heap
  | .null => (.null, h)
  | .bool b => (.bool b, h)
  | .number n => (.number n.toFloat, h)
  | .text s => (.text s, h)
  | .array items =>
    let (vs, h) := ofJsonItems h items
    h.newArray vs.toArray
  | .object members =>
    let (vs, h) := ofJsonMembers h members
    h.newObject (.ofList vs)

/-- `ofJson` along a list. -/
def ofJsonItems (h : Heap) : List Json → List Value × Heap
  | [] => ([], h)
  | j :: js =>
    let (v, h) := ofJson h j
    let (vs, h) := ofJsonItems h js
    (v :: vs, h)

/-- `ofJson` along members. -/
def ofJsonMembers (h : Heap) : List (String × Json) → List (String × Value) × Heap
  | [] => ([], h)
  | (name, j) :: js =>
    let (v, h) := ofJson h j
    let (vs, h) := ofJsonMembers h js
    ((name, v) :: vs, h)

end

/-! ### Inspection -/

/-- A value as it is shown to somebody who inspects it, with at most `bound` arrays and objects
nested in each other. -/
def inspectWithin (h : Heap) : Nat → Value → Option String
  | _, .text s => some (Text.inspect s)
  | 0, .array _ => none
  | 0, .object _ => none
  | bound + 1, .array place => do
    let texts ← (h.items place).toList.mapM (inspectWithin h bound)
    return "[" ++ ", ".intercalate texts ++ "]"
  | bound + 1, .object place => do
    let texts ← (h.members place).entries.mapM fun (name, v) => do
      return Text.inspect name ++ ": " ++ (← inspectWithin h bound v)
    return "\x7b" ++ ", ".intercalate texts ++ "\x7d"
  | _, v => some (plainText v)

/-- A value as it is shown to somebody who inspects it. -/
def inspect (h : Heap) (v : Value) : Option String :=
  h.inspectWithin (h.arrays.size + h.objects.size) v

end Heap

end Stencil.Routine
