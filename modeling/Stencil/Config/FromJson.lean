import Stencil.Config.Basic
import Stencil.Json.Expect

/-!
# Configurations in the JSON format

A configuration is an object with a member for each field, or a list with the values of the fields
in order.  Fields that are left out have their defaults; a name that is no field, or that comes
twice, is a fault.
-/

namespace Stencil.Config

open Json

/-- Messages by locale and key, of which later ones replace earlier ones. -/
def messagesOf (tables : List (String × List (String × String))) : Roster (Roster String) :=
  .ofList (tables.map fun table => (table.1, Roster.ofList table.2))

/-- Reads the value of a field into a configuration. -/
def readField (c : Config) : ConfigField → Reader Config
  | .cacheBound => do return { c with cacheBound := ← expectNatural "usize" }
  | .strict => do return { c with strict := ← expectTruth "a boolean" }
  | .fragmentFolder => do return { c with fragmentFolder := ← orNull (expectText "path string") }
  | .layoutFolder => do return { c with layoutFolder := ← orNull (expectText "path string") }
  | .locale => do return { c with locale := ← orNull (expectText "a string") }
  | .messages => do
    let tables ← expectMembers "a map" (expectMembers "a map" (expectText "a string"))
    return { c with messages := messagesOf tables }

/-- Reads fields by name up to the end of the object, `seen` of which were read before.  Each takes
a character, so `bound` steps are enough for a text of that length. -/
def readNamed : Nat → Bool → List ConfigField → Config → Reader Config
  | 0, _, _, _ => failAhead .objectEnd
  | bound + 1, first, seen, c => do
    if ← readName? first then
      let name ← readName
      match ConfigField.ofName? name with
      | none => failBehindObject (.unknownField name (ConfigField.all.map ConfigField.text))
      | some field =>
        if seen.contains field then failBehindObject (.duplicateField name)
        else
          readColon
          let c ← readField c field
          readNamed bound false (field :: seen) c
    else
      advance
      return c

/-- Reads fields in order until the list ends. -/
def readListed : List ConfigField → Bool → Config → Reader Config
  | [], _, c => return c
  | field :: fields, first, c => do
    if ← readItem? first then
      let c ← readField c field
      readListed fields false c
    else return c

/-- Reads a configuration. -/
def reader : Reader Config := do
  match ← peekSolid with
  | some '[' =>
    advance
    let c ← readListed ConfigField.all true {}
    readListEnd
    return c
  | some '\x7b' =>
    advance
    readNamed ((← get).rest.length + 1) true [] {}
  | _ => kindFault "struct EngineConfig"

/-- The configuration that a text in the JSON format gives. -/
def ofJsonText (s : String) : Except Error Config :=
  match readWhole reader s with
  | .ok c => .ok c
  | .error e => .error (.json e)

end Stencil.Config
