import Stencil.Routine.TextMethod

/-!
# Methods of arrays

A method that visits the items visits those that were there when it began, whatever the function it
calls does to the array in between.  That function gets the item, its place and the array.

* `ArrayMethod` — what an array can be asked;
* `ArrayMethod.apply` — what it answers, given how to call a function.
-/

namespace Stencil.Routine

/-- What an array can be asked. -/
inductive ArrayMethod where
  | forEach
  | map
  | filter
  | find
  | findIndex
  | anyOf
  | allOf
  | reduce
  | join
  | includes
  | indexOf
  | push
  | pop
  | slice
  | reverse
  | concat
  | text
  deriving DecidableEq, Repr

namespace ArrayMethod

/-- The method of arrays with this name. -/
def ofName? : String → Option ArrayMethod
  | "forEach" => some .forEach
  | "map" => some .map
  | "filter" => some .filter
  | "find" => some .find
  | "findIndex" => some .findIndex
  | "some" => some .anyOf
  | "every" => some .allOf
  | "reduce" => some .reduce
  | "join" => some .join
  | "includes" => some .includes
  | "indexOf" => some .indexOf
  | "push" => some .push
  | "pop" => some .pop
  | "slice" => some .slice
  | "reverse" => some .reverse
  | "concat" => some .concat
  | "toString" => some .text
  | _ => none

end ArrayMethod

/-- How functions are called. -/
abbrev Caller : Type := Value → List Value → Run Value

/-- The items of the array at a place. -/
def itemsAt (place : Nat) : Run (List Value) := do return ((← Run.heap).items place).toList

/-- The items with their places. -/
def placed (items : List Value) : List (Value × Nat) := items.zipIdx

/-- Calls a function with an item, its place and the array. -/
def visit (call : Caller) (f : Value) (array : Nat) (item : Value × Nat) : Run Value :=
  call f [item.1, countValue item.2, .array array]

/-- The first item of which the test is as wanted; the items behind it are not tested. -/
def firstWhere (test : Value × Nat → Run Value) (wanted : Bool) :
    List (Value × Nat) → Run (Option (Value × Nat))
  | [] => return none
  | item :: items => do
    if (← test item).truthy == wanted then return some item
    else firstWhere test wanted items

/-- The items of which the test succeeds. -/
def itemsWhere (test : Value × Nat → Run Value) : List (Value × Nat) → Run (List Value)
  | [] => return []
  | item :: items => do
    if (← test item).truthy then return item.1 :: (← itemsWhere test items)
    else itemsWhere test items

/-- Carries a result along the items. -/
def carry (call : Caller) (f : Value) (array : Nat) : Value → List (Value × Nat) → Run Value
  | result, [] => return result
  | result, item :: items => do
    carry call f array (← call f [result, item.1, countValue item.2, .array array]) items

/-- The text of an item among others: nothing for `undefined` and `null`. -/
def itemText (v : Value) : Run String := if v.isNullish then return "" else Run.textOf v

/-- The items of an array, and any other value by itself. -/
def spread (v : Value) : Run (List Value) :=
  match v with
  | .array place => itemsAt place
  | v => return [v]

/-- What the array at a place answers. -/
def ArrayMethod.apply (call : Caller) (m : ArrayMethod) (array : Nat) (args : List Value) :
    Run Value :=
  let f := argument args 0
  match m with
  | .forEach => do
    (placed (← itemsAt array)).forM fun item => do let _ ← visit call f array item
    return .undefined
  | .map => do
    let made ← (placed (← itemsAt array)).mapM (visit call f array)
    Run.newArray made.toArray
  | .filter => do
    let kept ← itemsWhere (visit call f array) (placed (← itemsAt array))
    Run.newArray kept.toArray
  | .find => do
    match ← firstWhere (visit call f array) true (placed (← itemsAt array)) with
    | some item => return item.1
    | none => return .undefined
  | .findIndex => do
    match ← firstWhere (visit call f array) true (placed (← itemsAt array)) with
    | some item => return countValue item.2
    | none => return .number (-1.0)
  | .anyOf => do
    return .bool (← firstWhere (visit call f array) true (placed (← itemsAt array))).isSome
  | .allOf => do
    return .bool (← firstWhere (visit call f array) false (placed (← itemsAt array))).isNone
  | .reduce => do
    let items := placed (← itemsAt array)
    match args[1]? with
    | some start => carry call f array start items
    | none =>
      match items with
      | [] => Run.fail .emptyReduce
      | first :: rest => carry call f array first.1 rest
  | .join => do
    let separator ← match f with
      | .undefined => pure ","
      | v => Run.textOf v
    return .text (separator.intercalate (← (← itemsAt array).mapM itemText))
  | .includes => do return .bool ((← itemsAt array).any (·.same f))
  | .indexOf => do
    match (← itemsAt array).findIdx? (·.same f) with
    | some i => return countValue i
    | none => return .number (-1.0)
  | .push => do
    Run.change fun h => h.modifyItems array (· ++ args)
    return countValue ((← Run.heap).items array).size
  | .pop => do
    let last := ((← Run.heap).items array).back?
    Run.change fun h => h.modifyItems array Array.pop
    return last.getD .undefined
  | .slice => do
    let items ← itemsAt array
    let start ← placeArgument (argument args 0) items.length 0
    let stop ← placeArgument (argument args 1) items.length items.length
    Run.newArray (between start stop items).toArray
  | .reverse => do
    Run.change fun h => h.modifyItems array Array.reverse
    return .array array
  | .concat => do
    let more ← args.mapM spread
    Run.newArray ((← itemsAt array) ++ more.flatten).toArray
  | .text => do return .text (← Run.textOf (.array array))

end Stencil.Routine
