import Stencil.Config.Basic
import Stencil.Yaml.ToJson

/-!
# Configurations in the YAML format

A configuration is a mapping with a value for each field.  Fields that are left out have their
defaults, and so have all fields where nothing is written; a name that is no field, or that comes
twice, is a fault.
-/

namespace Stencil

namespace Yaml

/-- A number that is whole and not negative. -/
def expectNatural : Yaml → Except Fault Nat
  | .scalar true s =>
    match (Scalar.natural? s.toList).filter (· < Nat.pow 2 64) with
    | some n => .ok n
    | none => .error (.kind "a natural number")
  | _ => .error (.kind "a natural number")

/-- A truth value. -/
def expectTruth : Yaml → Except Fault Bool
  | .scalar true s =>
    match Scalar.truth? s with
    | some b => .ok b
    | none => .error (.kind "a truth value")
  | _ => .error (.kind "a truth value")

/-- A text, if there is a value. -/
def expectTextOrNull : Yaml → Except Fault (Option String)
  | .scalar plain s => .ok (if plain && Scalar.isNull s then none else some s)
  | _ => .error (.kind "a string")

/-- The members of a mapping, which has none where nothing is written. -/
def expectMembers : Yaml → Except Fault (List (String × Yaml))
  | .mapping members => members.mapM fun (key, value) => do return (← key.expectText, value)
  | .scalar true "" => .ok []
  | _ => .error (.kind "a mapping")

/-- Texts by name. -/
def expectTexts (y : Yaml) : Except Fault (List (String × String)) := do
  (← y.expectMembers).mapM fun (key, value) => do return (key, ← value.expectText)

end Yaml

namespace Config

/-- The configuration with the value of a field. -/
def takeField (c : Config) (field : ConfigField) (y : Yaml) : Except Yaml.Fault Config :=
  match field with
  | .cacheBound => do return { c with cacheBound := ← y.expectNatural }
  | .strict => do return { c with strict := ← y.expectTruth }
  | .fragmentFolder => do return { c with fragmentFolder := ← y.expectTextOrNull }
  | .layoutFolder => do return { c with layoutFolder := ← y.expectTextOrNull }
  | .locale => do return { c with locale := ← y.expectTextOrNull }
  | .messages => do
    let tables ← (← y.expectMembers).mapM fun (name, table) => do
      return (name, Roster.ofList (← table.expectTexts))
    return { c with messages := .ofList tables }

/-- The configuration with the values of fields, given the fields that it has already. -/
def takeFields (c : Config) (seen : List ConfigField) :
    List (String × Yaml) → Except Yaml.Fault Config
  | [] => .ok c
  | (name, y) :: rest =>
    match ConfigField.ofName? name with
    | none => .error (.unknownField name)
    | some field =>
      if seen.contains field then .error (.duplicateField name)
      else do (← c.takeField field y).takeFields (field :: seen) rest

/-- The configuration that a text in the YAML format gives. -/
def ofYamlText (s : String) : Except Error Config :=
  let config : Except Yaml.Fault Config := do
    ({} : Config).takeFields [] (← ((← Yaml.read s).getD Yaml.absent).expectMembers)
  match config with
  | .ok c => .ok c
  | .error fault => .error (.yaml fault)

end Config

end Stencil
