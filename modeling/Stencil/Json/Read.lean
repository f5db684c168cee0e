import Stencil.Json.Cursor

/-!
# Reading JSON texts

`read` takes a whole text to its value or to the first fault in it.  Lists and objects may be nested
127 deep; the steps below count down from `nestingLimit`.

* `readItem?`, `readName?` — the steps from one item or member to the next, for every reader of
  lists and objects;
* `readValue` — a value of any kind;
* `read` — the value of a text that holds nothing else.
-/

namespace Stencil.Json

/-- How far the count of nested lists and objects goes down. -/
def nestingLimit : Nat := 128

/-- Moves to the next item of a list: `false` at its closing bracket. -/
def readItem? (first : Bool) : Reader Bool := do
  match ← peekSolid with
  | none => failAhead .listEnd
  | some ']' => pure false
  | some c =>
    if first then pure true
    else if c = ',' then
      advance
      match ← peekSolid with
      | some ']' => failAhead .trailingComma
      | some _ => pure true
      | none => failAhead .valueEnd
    else failAhead .listComma

/-- Moves to the name of the next member of an object: `false` at its closing brace. -/
def readName? (first : Bool) : Reader Bool := do
  match ← peekSolid with
  | none => failAhead .objectEnd
  | some '\x7d' => pure false
  | some c =>
    if first then if c = '"' then pure true else failAhead .keyString
    else if c = ',' then
      advance
      match ← peekSolid with
      | some '"' => pure true
      | some '\x7d' => failAhead .trailingComma
      | some _ => failAhead .keyString
      | none => failAhead .valueEnd
    else failAhead .objectComma

/-- Moves past the colon between a name and its value. -/
def readColon : Reader Unit := do
  match ← peekSolid with
  | some ':' => advance
  | some _ => failAhead .colon
  | none => failAhead .objectEnd

/-- Reads the name that stands here. -/
def readName : Reader String := do
  advance
  readString

/-- Moves past the end of a list all of whose expected items were read. -/
def readListEnd : Reader Unit := do
  match ← peekSolid with
  | some ']' => advance
  | some ',' =>
    advance
    match ← peekSolid with
    | some ']' => failAhead .trailingComma
    | _ => failAhead .trailing
  | some _ => failAhead .trailing
  | none => failAhead .listEnd

/-- Reads the items of a list up to its end.  Each takes a character, so `bound` steps are enough
for a text of that length. -/
def readItems {α : Type} (item : Reader α) : Nat → Bool → Reader (List α)
  | 0, _ => failAhead .listEnd
  | bound + 1, first => do
    if ← readItem? first then
      let a ← item
      return a :: (← readItems item bound false)
    else
      advance
      pure []

/-- Reads the members of an object up to its end. -/
def readMembers {α : Type} (value : Reader α) : Nat → Bool → Reader (List (String × α))
  | 0, _ => failAhead .objectEnd
  | bound + 1, first => do
    if ← readName? first then
      let name ← readName
      readColon
      let a ← value
      return (name, a) :: (← readMembers value bound false)
    else
      advance
      pure []

/-- Reads a value inside lists and objects that leave this much of the limit. -/
def readValue : Nat → Reader Json
  | 0 => failAhead .nesting
  | depth + 1 => do
    match ← peekSolid with
    | none => failAhead .valueEnd
    | some 'n' =>
      advance
      readWord ['u', 'l', 'l']
      pure .null
    | some 't' =>
      advance
      readWord ['r', 'u', 'e']
      pure (.bool true)
    | some 'f' =>
      advance
      readWord ['a', 'l', 's', 'e']
      pure (.bool false)
    | some '-' =>
      advance
      return .number (← readNumber true)
    | some '"' =>
      advance
      return .text (← readString)
    | some '[' =>
      if depth = 0 then failAhead .nesting
      else
        advance
        return .array (← readItems (readValue depth) ((← get).rest.length + 1) true)
    | some '\x7b' =>
      if depth = 0 then failAhead .nesting
      else
        advance
        return ofMembers (← readMembers (readValue depth) ((← get).rest.length + 1) true)
    | some c =>
      if Decimal.isDigit c then return .number (← readNumber false)
      else failAhead .value

/-- Makes sure that nothing but blanks is left. -/
def readEnd : Reader Unit := do
  match ← peekSolid with
  | some _ => failAhead .trailing
  | none => pure ()

/-- Runs a reader on a whole text. -/
def readWhole {α : Type} (reader : Reader α) (s : String) : Except ReadError α :=
  let both := do
    let a ← reader
    readEnd
    pure a
  (both.run { rest := s.toList }).map (·.1)

/-- The value of a text. -/
def read (s : String) : Except ReadError Json := readWhole (readValue nestingLimit) s

end Stencil.Json
