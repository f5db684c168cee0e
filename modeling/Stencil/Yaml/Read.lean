import Stencil.Yaml.Lexer

/-!
# From lexemes to YAML values

* `Reader` — steps that take lexemes from the front or fail;
* `readNode` — a value, with the readers of what it may consist of;
* `read` — the value of a text, which holds one document at most.
-/

namespace Stencil.Yaml

/-- A step that takes lexemes from the front or fails. -/
abbrev Reader := StateT (List Lexeme) (Except Fault)

/-- The next lexeme, which stays. -/
def next? : Reader (Option Lexeme) := do return (← get).head?

/-- Moves past the next lexeme. -/
def pass : Reader Unit := modify (·.drop 1)

/-- Whether one of these lexemes comes next. -/
def comes (xs : List Lexeme) : Reader Bool := do return (← next?).any xs.contains

/-- Runs a reader unless one of these lexemes comes next, where nothing is written. -/
def unlessComes (xs : List Lexeme) (reader : Reader Yaml) : Reader Yaml := do
  if ← comes xs then return absent else reader

/-- Moves past the comma in front of each item but the first. -/
def passComma (first : Bool) : Reader Unit := do
  if !first then
    match ← next? with
    | some .comma => pass
    | _ => throw .comma

mutual

/-- Reads a value.  A sequence as a key or value of a mapping may stand without further indentation
if it may be `flush`.  No lexeme is taken by more than two readers, so twice as many calls as there
are lexemes are enough. -/
def readNode : Nat → Bool → Reader Yaml
  | 0, _ => throw .nesting
  | bound + 1, flush => do
    match ← next? with
    | some (.scalar plain s) =>
      pass
      return .scalar plain s
    | some .sequenceStart =>
      pass
      return .sequence (← readEntries bound)
    | some .mappingStart =>
      pass
      return .mapping (← readMembers bound)
    | some .listOpen =>
      pass
      return .sequence (← readListItems bound true)
    | some .braceOpen =>
      pass
      return .mapping (← readBraceMembers bound true)
    | some .entry => if flush then return .sequence (← readFlushEntries bound) else throw .value
    | _ => throw .value

/-- Reads the entries of a sequence that is indented. -/
def readEntries : Nat → Reader (List Yaml)
  | 0 => throw .nesting
  | bound + 1 => do
    match ← next? with
    | some .entry =>
      pass
      let item ← unlessComes [.entry, .blockEnd] (readNode bound false)
      return item :: (← readEntries bound)
    | some .blockEnd =>
      pass
      return []
    | _ => throw .entry

/-- Reads the entries of a sequence that is not indented further than the mapping around it. -/
def readFlushEntries : Nat → Reader (List Yaml)
  | 0 => throw .nesting
  | bound + 1 => do
    if ← comes [.entry] then
      pass
      let item ← unlessComes [.entry, .key, .value, .blockEnd] (readNode bound false)
      return item :: (← readFlushEntries bound)
    else return []

/-- Reads the members of a mapping that is indented. -/
def readMembers : Nat → Reader (List (Yaml × Yaml))
  | 0 => throw .nesting
  | bound + 1 => do
    match ← next? with
    | some .key =>
      pass
      let key ← unlessComes [.key, .value, .blockEnd] (readNode bound true)
      if ← comes [.value] then
        pass
        let value ← unlessComes [.key, .value, .blockEnd] (readNode bound true)
        return (key, value) :: (← readMembers bound)
      else return (key, absent) :: (← readMembers bound)
    | some .blockEnd =>
      pass
      return []
    | _ => throw .key

/-- Reads the items of a sequence between brackets. -/
def readListItems : Nat → Bool → Reader (List Yaml)
  | 0, _ => throw .nesting
  | bound + 1, first => do
    if ← comes [.listClose] then
      pass
      return []
    passComma first
    match ← next? with
    | some .listClose =>
      pass
      return []
    | some .key =>
      pass
      let pair ← readPair bound
      return .mapping [pair] :: (← readListItems bound false)
    | _ =>
      let item ← readNode bound false
      return item :: (← readListItems bound false)

/-- Reads a key and its value that stand as an item between brackets.  Where no key is written, the
lexeme in its place is passed over. -/
def readPair : Nat → Reader (Yaml × Yaml)
  | 0 => throw .nesting
  | bound + 1 => do
    let key ←
      if ← comes [.value, .comma, .listClose] then
        pass
        pure absent
      else readNode bound false
    if ← comes [.value] then
      pass
      return (key, ← unlessComes [.comma, .listClose] (readNode bound false))
    else return (key, absent)

/-- Reads the members of a mapping between braces. -/
def readBraceMembers : Nat → Bool → Reader (List (Yaml × Yaml))
  | 0, _ => throw .nesting
  | bound + 1, first => do
    if ← comes [.braceClose] then
      pass
      return []
    passComma first
    match ← next? with
    | some .braceClose =>
      pass
      return []
    | some .key =>
      pass
      let key ← unlessComes [.value, .comma, .braceClose] (readNode bound false)
      if ← comes [.value] then
        pass
        let value ← unlessComes [.comma, .braceClose] (readNode bound false)
        return (key, value) :: (← readBraceMembers bound false)
      else return (key, absent) :: (← readBraceMembers bound false)
    | _ =>
      let key ← readNode bound false
      return (key, absent) :: (← readBraceMembers bound false)

end

/-- Reads a document, if there is one, and makes sure that nothing follows. -/
def readDocument : Reader (Option Yaml) := do
  let bound := 2 * (← get).length + 2
  match ← next? with
  | none => return none
  | some .documentStart =>
    pass
    let blank := (← get).isEmpty || (← comes [.documentStart, .documentEnd])
    let value ← if blank then pure absent else readNode bound false
    readEnd
    return some value
  | some _ =>
    let value ← readNode bound false
    readEnd
    return some value
where
  /-- Makes sure that only ends of documents are left. -/
  readEnd : Reader Unit := do
    if !(← get).all (· == .documentEnd) then throw .documents

/-- The value of a text, if it holds a document. -/
def read (s : String) : Except Fault (Option Yaml) := do
  return (← readDocument.run (← lexemes s.toList)).1

end Stencil.Yaml
