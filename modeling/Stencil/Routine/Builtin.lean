import Stencil.Json.Read
import Stencil.Routine.Property

/-!
# Functions that every routine can name

* `Builtin.apply` — what each function does with its arguments; a missing argument is `undefined`;
* `global?` — the value of a name that no routine declares.  Each use of such a name makes the
  functions anew, so no two uses are the same function.
-/

namespace Stencil.Routine

/-- The argument at a place. -/
def argument (args : List Value) (i : Nat) : Value := (args[i]?).getD .undefined

/-- The front of a text that writes a whole number with an optional sign. -/
def wholeFront : List Char → List Char
  | [] => []
  | c :: cs =>
    if c == '-' || c == '+' || Decimal.isDigit c then c :: cs.takeWhile Decimal.isDigit else []

/-- The number that characters write, if they write one. -/
def numberIn (cs : List Char) : Float := (Decimal.readChars? cs).getD Decimal.nan

/-- The smaller of two numbers; a number that is none does not count. -/
def smaller (x y : Float) : Float := if Decimal.isNaN y then x else if y < x then y else x

/-- The larger of two numbers; a number that is none does not count. -/
def larger (x y : Float) : Float := if Decimal.isNaN y then x else if x < y then y else x

/-- What a function of one number makes of the first argument. -/
def numeric (f : Float → Float) (args : List Value) : Run Value := do
  return .number (f (← Run.numberOf (argument args 0)))

/-- What the function does with its arguments. -/
def Builtin.apply (b : Builtin) (args : List Value) : Run Value :=
  match b with
  | .string => do
    match args with
    | [] => return .text ""
    | v :: _ => return .text (← Run.textOf v)
  | .number => do
    match args with
    | [] => return .number 0.0
    | v :: _ => return .number (← Run.numberOf v)
  | .boolean => return .bool (argument args 0).truthy
  | .parseInt => do
    let s ← Run.textOf (argument args 0)
    return .number (numberIn (wholeFront (Text.trim s.toList)))
  | .parseFloat => do
    let s ← Run.textOf (argument args 0)
    return .number (numberIn (Text.trim s.toList))
  | .isNaN => do return .bool (Decimal.isNaN (← Run.numberOf (argument args 0)))
  | .stringify => do
    match ← Run.finite ((← Run.heap).toJson (argument args 0)) with
    | some json => return .text json.write
    | none => return .undefined
  | .parse => do
    match Json.read (← Run.textOf (argument args 0)) with
    | .ok json => Run.make fun h => h.ofJson json
    | .error e => Run.fail (.json e)
  | .keys => do Run.newArray (← keysIn (argument args 0)).toArray
  | .values => do
    let target := argument args 0
    let values ← (← keysIn target).mapM (getItem target)
    Run.newArray values.toArray
  | .entries => do
    let target := argument args 0
    let entries ← (← keysIn target).mapM fun key => do Run.newArray #[key, ← getItem target key]
    Run.newArray entries.toArray
  | .isArray =>
    match argument args 0 with
    | .array _ => return .bool true
    | _ => return .bool false
  | .floor => numeric Decimal.floor args
  | .ceil => numeric Decimal.ceiling args
  | .round => numeric (fun x => Decimal.floor (x + 0.5)) args
  | .abs => numeric Float.abs args
  | .sqrt => numeric Float.sqrt args
  | .trunc => numeric Decimal.truncate args
  | .min => do return .number ((← args.mapM Run.numberOf).foldl smaller Decimal.infinity)
  | .max => do return .number ((← args.mapM Run.numberOf).foldl larger (-Decimal.infinity))
  | .pow => do
    return .number (Float.pow (← Run.numberOf (argument args 0)) (← Run.numberOf (argument args 1)))

/-! ### Names -/

/-- A new function of its own. -/
def single (name : String) (b : Builtin) : Option (Heap → Value × Heap) :=
  some fun h => h.newNative name (.builtin b)

/-- A new object of functions. -/
def group (functions : List (String × Builtin)) : Option (Heap → Value × Heap) :=
  some fun h => h.newNatives (functions.map fun f => (f.1, .builtin f.2))

/-- How the value of a name that no routine declares is made, if it has one. -/
def global? (name : String) : Option (Heap → Value × Heap) :=
  match name with
  | "NaN" => some fun h => (.number Decimal.nan, h)
  | "Infinity" => some fun h => (.number Decimal.infinity, h)
  | "String" => single "String" .string
  | "Number" => single "Number" .number
  | "Boolean" => single "Boolean" .boolean
  | "parseInt" => single "parseInt" .parseInt
  | "parseFloat" => single "parseFloat" .parseFloat
  | "isNaN" => single "isNaN" .isNaN
  | "JSON" => group [("stringify", .stringify), ("parse", .parse)]
  | "Object" => group [("keys", .keys), ("values", .values), ("entries", .entries)]
  | "Array" => group [("isArray", .isArray)]
  | "Math" =>
    group [("floor", .floor), ("ceil", .ceil), ("round", .round), ("abs", .abs), ("sqrt", .sqrt),
      ("trunc", .trunc), ("min", .min), ("max", .max), ("pow", .pow)]
  | _ => none

end Stencil.Routine
