import Stencil.Decimal.Text
import Stencil.Json.Quote

/-!
# JSON values

* `Number` — whole numbers are kept apart from the others, since they are written without a point;
* `Json` — the values; the members of an object stand in the order of their names, each name once;
* `Json.write` — the text of a value, without blanks.
-/

namespace Stencil

namespace Json

/-- A number of a JSON text. -/
inductive Number where
  /-- A whole number that is not negative. -/
  | natural (n : Nat)
  /-- The whole number `-n`. -/
  | negative (n : Nat)
  /-- A number with a point or an exponent, or one too large to be kept whole. -/
  | real (x : Float)
  deriving DecidableEq

/-- The number in double precision. -/
def Number.toFloat : Number → Float
  | .natural n => Float.ofNat n
  | .negative n => -(Float.ofNat n)
  | .real x => x

/-- The text of a number. -/
def Number.write : Number → String
  | .natural n => Decimal.naturalText n
  | .negative n => "-" ++ Decimal.naturalText n
  | .real x => Decimal.compact x

end Json

/-- A JSON value. -/
inductive Json where
  /-- The value `null`. -/
  | null
  /-- One of the two truth values. -/
  | bool (b : Bool)
  /-- A number. -/
  | number (n : Json.Number)
  /-- A string. -/
  | text (s : String)
  /-- A list of values. -/
  | array (items : List Json)
  /-- Named values in the order of the names. -/
  | object (members : List (String × Json))

namespace Json

instance : Inhabited Json := ⟨.null⟩

/-- Members in the order of their names with one more; of two with one name the later stays. -/
def putMember {α : Type} (name : String) (a : α) : List (String × α) → List (String × α)
  | [] => [(name, a)]
  | (key, b) :: rest =>
    if name < key then (name, a) :: (key, b) :: rest
    else if key < name then (key, b) :: putMember name a rest
    else (name, a) :: rest

/-- The object with these members, which may come in any order and more than once. -/
def ofMembers (members : List (String × Json)) : Json :=
  .object (members.foldl (fun sorted member => putMember member.1 member.2 sorted) [])

mutual

/-- The text of a value. -/
def write : Json → String
  | .null => "null"
  | .bool b => if b then "true" else "false"
  | .number n => n.write
  | .text s => quote s
  | .array items => "[" ++ String.intercalate "," (writeItems items) ++ "]"
  | .object members => "\x7b" ++ String.intercalate "," (writeMembers members) ++ "\x7d"

/-- The texts of the items of a list. -/
def writeItems : List Json → List String
  | [] => []
  | item :: items => write item :: writeItems items

/-- The texts of the members of an object. -/
def writeMembers : List (String × Json) → List String
  | [] => []
  | (name, value) :: members => (quote name ++ ":" ++ write value) :: writeMembers members

end

/-- The member of an object with this name. -/
def member? (name : String) : Json → Option Json
  | .object members => members.lookup name
  | _ => none

end Json

end Stencil
