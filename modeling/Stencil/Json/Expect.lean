import Stencil.Json.Read
import Stencil.Text.Inspect

/-!
# Reading what is expected

A text that must say certain things is read straight into them, and the first value of another kind
is complained about, in terms of what was expected in its place.

* `kindFault` — the complaint about the value that stands here;
* `expectNatural`, `expectTruth`, `expectText`, `expectMembers` — a value of a kind;
* `orNull` — a value that may be `null`;
* `failBehindObject` — a complaint about a name, which is made behind the end of its object if that
  follows at once.
-/

namespace Stencil.Json

/-- A number as a complaint names it. -/
def describeNumber : Number → String
  | .natural n => "integer " ++ accented (Number.write (.natural n))
  | .negative n => "integer " ++ accented (Number.write (.negative n))
  | .real x => "floating point " ++ accented (Number.write (.real x))

/-- Complains about the value that stands here. -/
def kindFault {α : Type} (expected : String) : Reader α := do
  match ← peekSolid with
  | none => failAhead .valueEnd
  | some 'n' =>
    advance
    readWord ['u', 'l', 'l']
    failHere (.kind "null" expected)
  | some 't' =>
    advance
    readWord ['r', 'u', 'e']
    failHere (.kind ("boolean " ++ accented "true") expected)
  | some 'f' =>
    advance
    readWord ['a', 'l', 's', 'e']
    failHere (.kind ("boolean " ++ accented "false") expected)
  | some '-' =>
    advance
    let n ← readNumber true
    failHere (.kind (describeNumber n) expected)
  | some '"' =>
    advance
    let s ← readString
    failHere (.kind ("string " ++ Text.inspect s) expected)
  | some '[' => failHere (.kind "sequence" expected)
  | some '\x7b' => failHere (.kind "map" expected)
  | some c =>
    if Decimal.isDigit c then
      let n ← readNumber false
      failHere (.kind (describeNumber n) expected)
    else failAhead .value

/-- The number, if it is whole and not negative. -/
def requireNatural (expected : String) (n : Number) : Reader Nat :=
  match n with
  | .natural n => return n
  | .negative _ => failHere (.bounds (describeNumber n) expected)
  | .real _ => failHere (.kind (describeNumber n) expected)

/-- Reads a whole number that is not negative. -/
def expectNatural (expected : String) : Reader Nat := do
  match ← peekSolid with
  | some '-' =>
    advance
    requireNatural expected (← readNumber true)
  | some c =>
    if Decimal.isDigit c then requireNatural expected (← readNumber false)
    else kindFault expected
  | none => kindFault expected

/-- Reads a truth value. -/
def expectTruth (expected : String) : Reader Bool := do
  match ← peekSolid with
  | some 't' =>
    advance
    readWord ['r', 'u', 'e']
    return true
  | some 'f' =>
    advance
    readWord ['a', 'l', 's', 'e']
    return false
  | _ => kindFault expected

/-- Reads a string. -/
def expectText (expected : String) : Reader String := do
  match ← peekSolid with
  | some '"' =>
    advance
    readString
  | _ => kindFault expected

/-- Reads a value that may be `null`. -/
def orNull {α : Type} (reader : Reader α) : Reader (Option α) := do
  match ← peekSolid with
  | some 'n' =>
    advance
    readWord ['u', 'l', 'l']
    return none
  | _ => return some (← reader)

/-- Reads an object whose members all have values of one kind. -/
def expectMembers {α : Type} (expected : String) (value : Reader α) :
    Reader (List (String × α)) := do
  match ← peekSolid with
  | some '\x7b' =>
    advance
    readMembers value ((← get).rest.length + 1) true
  | _ => kindFault expected

/-- Complains about a name that was just read. -/
def failBehindObject {α : Type} (fault : Fault) : Reader α := do
  match ← peekSolid with
  | some '\x7d' =>
    advance
    failHere fault
  | _ => failHere fault

end Stencil.Json
