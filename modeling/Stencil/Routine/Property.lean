import Stencil.Routine.Run

/-!
# Members and items

Objects have members, arrays and texts have items and a length; every key is a text.  An array is
read and written under the decimal numbers of its places, written without leading zeros, and grows
when it is written behind its end.

* `placeOf?` — the place that a key numbers;
* `Heap.property?`, `Heap.setProperty` — reading and writing under a key, on the heap alone;
* `getProperty`, `getItem`, `putProperty`, `putItem` — the same as steps of a run;
* `itemsIn`, `keysIn` — what a loop over a value visits.
-/

namespace Stencil.Routine

/-- An array grows through writing behind its end only below this length. -/
def arrayLengthLimit : Nat := Nat.pow 2 22

/-- Keys number places below this bound. -/
def placeBound : Nat := Nat.pow 2 64

/-- The place that a key numbers: the key is the decimal number of the place. -/
def placeOf? (key : String) : Option Nat :=
  let cs := key.toList
  if cs.isEmpty || !cs.all Decimal.isDigit then none
  else
    let place := Decimal.digitsValue cs
    if place < placeBound && Decimal.naturalDigits place == cs then some place else none

/-- The text of a single character. -/
def charText (c : Char) : String := String.singleton c

/-- A whole number as a value. -/
def countValue (n : Nat) : Value := .number (Float.ofNat n)

namespace Heap

/-- What a value has under a key; `undefined` and `null` have nothing to read. -/
def property? (h : Heap) (v : Value) (key : String) : Option Value :=
  match v with
  | .undefined => none
  | .null => none
  | .object place => some (((h.members place).get? key).getD .undefined)
  | .array place =>
    let items := h.items place
    if key = "length" then some (countValue items.size)
    else some (((placeOf? key).bind fun i => items[i]?).getD .undefined)
  | .text s =>
    if key = "length" then some (countValue s.length)
    else some (((placeOf? key).bind fun i => (s.toList[i]?).map fun c => .text (charText c)).getD
      .undefined)
  | _ => some .undefined

/-- The items with one at this place, and `undefined` at new places before it. -/
def putAt (items : Array Value) (place : Nat) (v : Value) : Array Value :=
  if place < items.size then items.setIfInBounds place v
  else (items ++ Array.replicate (place - items.size) Value.undefined).push v

/-- Writes an item of an array, which grows if need be. -/
def setItem (h : Heap) (array place : Nat) (v : Value) : Except Failure Unit × Heap :=
  if (h.items array).size ≤ place ∧ arrayLengthLimit ≤ place then (.error .arrayLength, h)
  else (.ok (), h.modifyItems array fun items => putAt items place v)

/-- Writes under a key of a value.  Nothing happens for keys that an array does not have and for
values that have no keys, but `undefined` and `null` cannot be written to. -/
def setProperty (h : Heap) (target : Value) (key : String) (v : Value) :
    Except Failure Unit × Heap :=
  match target with
  | .undefined => (.error (.unwritable "undefined" key), h)
  | .null => (.error (.unwritable "null" key), h)
  | .object place => (.ok (), h.setMember place key v)
  | .array array =>
    match placeOf? key with
    | none => (.ok (), h)
    | some place => h.setItem array place v
  | _ => (.ok (), h)

end Heap

/-- What a value has under a key. -/
def getProperty (v : Value) (key : String) : Run Value := do
  match (← Run.heap).property? v key with
  | some found => return found
  | none => Run.fail (.unreadable (plainText v) key)

theorem getProperty_found {v found : Value} {key : String} {store : Store}
    (h : store.heap.property? v key = some found) : getProperty v key store = .ok found store := by
  refine (run_bind_ok rfl).trans ?_
  rw [h]
  rfl

theorem getProperty_unreadable {v : Value} {key : String} {store : Store}
    (h : store.heap.property? v key = none) :
    getProperty v key store = .error (.failed (.unreadable (plainText v) key)) store := by
  refine (run_bind_ok rfl).trans ?_
  rw [h]
  rfl

/-- What a value has under the text of another. -/
def getItem (v key : Value) : Run Value := do getProperty v (← Run.textOf key)

/-- Writes under a key of a value. -/
def putProperty (target : Value) (key : String) (v : Value) : Run Unit :=
  Run.attempt fun h => h.setProperty target key v

/-- Writes under the text of a value. -/
def putItem (target key v : Value) : Run Unit := do putProperty target (← Run.textOf key) v

/-- What a loop over the items of a value visits. -/
def itemsIn (v : Value) : Run (List Value) := do
  match v with
  | .array place => return ((← Run.heap).items place).toList
  | .text s => return s.toList.map fun c => .text (charText c)
  | v => Run.fail (.notIterable (← Run.textOf v))

/-- The texts of the whole numbers below a bound. -/
def numberKeys (n : Nat) : List Value :=
  (List.range n).map fun i => .text (Decimal.naturalText i)

/-- What a loop over the keys of a value visits. -/
def keysIn (v : Value) : Run (List Value) := do
  match v with
  | .object place => return ((← Run.heap).members place).names.map .text
  | .array place => return numberKeys ((← Run.heap).items place).size
  | .text s => return numberKeys s.length
  | _ => return []

end Stencil.Routine
