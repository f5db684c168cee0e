import Stencil.Yaml.Lexeme

/-!
# From YAML text to lexemes

The text is read from left to right.  A scalar or collection that stands where a key can stand may
turn out to be one when a colon follows, so a slot for the lexeme in front of a key is left open in
front of it.

* `Lexer` — the place, the lexemes so far and what is still open there;
* `Lexer.step` — reads one lexeme;
* `lexemes` — the lexemes of a whole text.
-/

namespace Stencil.Yaml

/-- A place where a key may have begun. -/
structure KeyPlace where
  /-- The place. -/
  spot : Spot
  /-- Whether only a key can stand there. -/
  required : Bool
  /-- The slot for the lexeme in front of the key. -/
  slot : Nat

/-- What was read of a text, and what is open there. -/
structure Lexer where
  /-- What is left to read. -/
  rest : List Char
  /-- The place there. -/
  spot : Spot := {}
  /-- The lexemes so far by slot.  A slot that was left open holds none. -/
  slots : Array (List Lexeme) := #[]
  /-- The columns of the open blocks, innermost first. -/
  columns : List Nat := []
  /-- Whether a key can begin here. -/
  keyAllowed : Bool := true
  /-- Where a key may have begun. -/
  key : Option KeyPlace := none
  /-- The same in front of each open bracket, innermost first. -/
  outerKeys : List (Option KeyPlace) := []

/-- How many characters a key has at most. -/
def keyLimit : Nat := 1024

namespace Lexer

/-- Whether a bracket is open. -/
def bracketed (l : Lexer) : Bool := !l.outerKeys.isEmpty

/-- Adds a lexeme. -/
def emit (l : Lexer) (x : Lexeme) : Lexer := { l with slots := l.slots.push [x] }

/-- Moves past the next character. -/
def advance (l : Lexer) : Lexer :=
  match l.rest with
  | c :: rest => { l with rest := rest, spot := l.spot.past c }
  | [] => l

/-- Moves past characters. -/
def advanceBy : Nat → Lexer → Lexer
  | 0, l => l
  | n + 1, l => advanceBy n l.advance

/-! ### Keys -/

/-- A place where a key may have begun, unless it is too far away by now. -/
def renewed (here : Spot) : Option KeyPlace → Except Fault (Option KeyPlace)
  | none => .ok none
  | some k =>
    if k.spot.line < here.line || k.spot.column + keyLimit < here.column then
      if k.required then .error .keyColon else .ok none
    else .ok (some k)

/-- Gives up the places that are too far away for a key. -/
def renewKeys (l : Lexer) : Except Fault Lexer := do
  let key ← renewed l.spot l.key
  let outerKeys ← l.outerKeys.mapM (renewed l.spot)
  return { l with key, outerKeys }

/-- Gives up the place where a key may have begun. -/
def dropKey (l : Lexer) : Except Fault Lexer :=
  match l.key with
  | some k => if k.required then .error .keyColon else .ok { l with key := none }
  | none => .ok l

/-- Keeps in mind that a key may begin here, if one can. -/
def keepKey (l : Lexer) : Except Fault Lexer := do
  if l.keyAllowed then
    let l ← l.dropKey
    let required := !l.bracketed && l.columns.head? == some l.spot.column
    return { l with key := some ⟨l.spot, required, l.slots.size⟩, slots := l.slots.push [] }
  else return l

/-! ### Blocks -/

/-- Opens a block at a column, unless one is open there already.  The lexeme for it is `start`. -/
def openBlock (l : Lexer) (column : Nat) (start : Lexeme) : Lexer × List Lexeme :=
  if l.bracketed || l.columns.head?.any (column ≤ ·) then (l, [])
  else ({ l with columns := column :: l.columns }, [start])

/-- Opens a block here, unless one is open already. -/
def openHere (l : Lexer) (start : Lexeme) : Lexer :=
  let (l, xs) := l.openBlock l.spot.column start
  { l with slots := l.slots.push xs }

/-- Closes the blocks with these columns. -/
def closeWhile (l : Lexer) (closes : Nat → Bool) : Lexer :=
  if l.bracketed then l
  else
    { l with
      columns := l.columns.dropWhile closes
      slots := (l.columns.takeWhile closes).foldl (fun slots _ => slots.push [.blockEnd]) l.slots }

/-! ### Steps -/

/-- Moves past blanks, comments and ends of lines, given whether a comment has begun. -/
def skipBlanks (bracketed : Bool) :
    Bool → List Char → Spot → Bool → List Char × Spot × Bool
  | _, [], p, allowed => ([], p, allowed)
  | comment, c :: rest, p, allowed =>
    if isBreak c then skipBlanks bracketed false rest (p.past c) (allowed || !bracketed)
    else if comment || c == ' ' || (c == '\t' && (bracketed || !allowed)) then
      skipBlanks bracketed comment rest (p.past c) allowed
    else if c == '#' then skipBlanks bracketed true rest (p.past c) allowed
    else (c :: rest, p, allowed)

/-- Moves to the next lexeme.  Keys that are too far away and blocks that are indented further are
over. -/
def toNext (l : Lexer) : Except Fault Lexer := do
  let (rest, spot, keyAllowed) := skipBlanks l.bracketed false l.rest l.spot l.keyAllowed
  let l ← { l with rest, spot, keyAllowed }.renewKeys
  return l.closeWhile (l.spot.column < ·)

/-- Reads the boundary of a document. -/
def boundary (l : Lexer) (x : Lexeme) : Except Fault Lexer := do
  let l ← (l.closeWhile fun _ => true).dropKey
  return { (l.emit x).advanceBy 3 with keyAllowed := false }

/-- Reads an opening bracket. -/
def openBracket (l : Lexer) (x : Lexeme) : Except Fault Lexer := do
  let l ← l.keepKey
  return { (l.emit x).advance with
    outerKeys := l.key :: l.outerKeys, key := none, keyAllowed := true }

/-- Reads a closing bracket. -/
def closeBracket (l : Lexer) (x : Lexeme) : Except Fault Lexer := do
  let l ← l.dropKey
  let l := { (l.emit x).advance with keyAllowed := false }
  match l.outerKeys with
  | [] => return l
  | key :: outerKeys => return { l with key, outerKeys }

/-- Reads a comma. -/
def comma (l : Lexer) : Except Fault Lexer := do
  let l ← l.dropKey
  return { (l.emit .comma).advance with keyAllowed := true }

/-- Reads the dash in front of an entry. -/
def entry (l : Lexer) : Except Fault Lexer := do
  if !l.bracketed && !l.keyAllowed then throw .entryPlace
  let l ← (l.openHere .sequenceStart).dropKey
  return { (l.emit .entry).advance with keyAllowed := true }

/-- Reads the question mark in front of a key. -/
def keyMark (l : Lexer) : Except Fault Lexer := do
  if !l.bracketed && !l.keyAllowed then throw .keyPlace
  let l ← (l.openHere .mappingStart).dropKey
  return { (l.emit .key).advance with keyAllowed := !l.bracketed }

/-- Reads the colon in front of a value.  What may have been a key is one now. -/
def colon (l : Lexer) : Except Fault Lexer := do
  match l.key with
  | some k =>
    let (l, xs) := l.openBlock k.spot.column .mappingStart
    let l := { l with slots := l.slots.setIfInBounds k.slot (xs ++ [Lexeme.key]), key := none }
    return { (l.emit .value).advance with keyAllowed := false }
  | none =>
    if !l.bracketed && !l.keyAllowed then throw .valuePlace
    let l := l.openHere .mappingStart
    return { (l.emit .value).advance with keyAllowed := !l.bracketed }

/-- Goes on behind a scalar. -/
def behind (l : Lexer) (plain : Bool) (s : Passage) : Lexer :=
  { l.emit (.scalar plain s.text) with
    rest := s.rest, spot := s.spot, keyAllowed := s.changedLine }

/-- Reads a scalar in quotes. -/
def quoted (l : Lexer) (double : Bool) : Except Fault Lexer := do
  let l ← l.keepKey
  let opened := l.advance
  return l.behind false (← scanQuoted double 0 opened.rest opened.spot .empty [])

/-- Reads a scalar without quotes. -/
def plain (l : Lexer) : Except Fault Lexer := do
  let l ← l.keepKey
  let indent := (l.columns.head?.map (· + 1)).getD 0
  return l.behind true (← scanPlain l.bracketed indent l.rest l.spot .empty [])

/-- Whether a scalar without quotes can begin in front of `rest` with a character. -/
def startsPlain (bracketed : Bool) (c : Char) (rest : List Char) : Bool :=
  if c == '-' then !endsWord rest
  else if c == '?' || c == ':' then !bracketed && !endsWord rest
  else !isBlank c && !",[]\x7b\x7d#&*!|>'\"%@".toList.contains c && c != Char.ofNat 96

/-- Reads the lexeme that stands here. -/
def step (l : Lexer) : Except Fault Lexer :=
  match l.rest with
  | [] => .ok l
  | c :: rest =>
    if l.spot.column == 0 && c == '%' then .error .start
    else if l.spot.column == 0 && isBoundary '-' l.rest then l.boundary .documentStart
    else if l.spot.column == 0 && isBoundary '.' l.rest then l.boundary .documentEnd
    else if c == '[' then l.openBracket .listOpen
    else if c == '\x7b' then l.openBracket .braceOpen
    else if c == ']' then l.closeBracket .listClose
    else if c == '\x7d' then l.closeBracket .braceClose
    else if c == ',' then l.comma
    else if c == '-' && endsWord rest then l.entry
    else if c == '?' && (l.bracketed || endsWord rest) then l.keyMark
    else if c == ':' && (l.bracketed || endsWord rest) then l.colon
    else if c == '\'' then l.quoted false
    else if c == '"' then l.quoted true
    else if startsPlain l.bracketed c rest then l.plain
    else .error .start

/-- Reads to the end.  Each step takes a character, so `bound` steps are enough for a text of that
length. -/
def run : Nat → Lexer → Except Fault Lexer
  | 0, l => .ok l
  | bound + 1, l => do
    let l ← l.toNext
    if l.rest.isEmpty then return l else run bound (← l.step)

end Lexer

/-- The place where a text begins, behind the mark that shows the order of bytes. -/
def Lexer.start : List Char → Lexer
  | '\ufeff' :: rest => { rest := rest, spot := ⟨0, 1⟩ }
  | cs => { rest := cs }

/-- The lexemes of a text. -/
def lexemes (cs : List Char) : Except Fault (List Lexeme) := do
  if !cs.all isAllowed then throw .character
  let cs := unifyBreaks cs
  let l ← (Lexer.start cs).run (cs.length + 1)
  let l ← (l.closeWhile fun _ => true).dropKey
  return l.slots.toList.flatten

end Stencil.Yaml
