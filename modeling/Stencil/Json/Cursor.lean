import Stencil.Decimal.Read
import Stencil.Json.Basic
import Stencil.Text.Digit

/-!
# Reading along a JSON text

A cursor stands somewhere in a text and knows the line and the byte column there, because every
complaint about a text names the place.  The basic steps of reading are here, whatever the text is
read into:

* `Fault`, `ReadError` — what can be wrong and where;
* `Cursor`, `Reader` — the place, and steps that move it or fail;
* `failHere`, `failAhead` — complaints about the place itself and about the byte that stands there;
* `readString`, `readNumber`, `readWord` — strings, numbers and the three words.
-/

namespace Stencil.Json

/-- What can be wrong with a text. -/
inductive Fault where
  | listEnd
  | objectEnd
  | stringEnd
  | valueEnd
  | colon
  | listComma
  | objectComma
  | word
  | value
  | escape
  | number
  | range
  | control
  | keyString
  | surrogate
  | hexEnd
  | trailingComma
  | trailing
  | nesting
  /-- A value of one kind where another kind was expected. -/
  | kind (found expected : String)
  /-- A value of the right kind that is out of bounds. -/
  | bounds (found expected : String)
  /-- A name that none of the expected ones is. -/
  | unknownField (name : String) (expected : List String)
  /-- A name that was given before. -/
  | duplicateField (name : String)
  deriving DecidableEq, Repr

/-- A name between accents. -/
def accented (s : String) : String :=
  String.ofList [Char.ofNat 96] ++ s ++ String.ofList [Char.ofNat 96]

/-- What the fault is, in words. -/
def Fault.message : Fault → String
  | .listEnd => "EOF while parsing a list"
  | .objectEnd => "EOF while parsing an object"
  | .stringEnd => "EOF while parsing a string"
  | .valueEnd => "EOF while parsing a value"
  | .colon => "expected " ++ accented ":"
  | .listComma => "expected " ++ accented "," ++ " or " ++ accented "]"
  | .objectComma => "expected " ++ accented "," ++ " or " ++ accented "\x7d"
  | .word => "expected ident"
  | .value => "expected value"
  | .escape => "invalid escape"
  | .number => "invalid number"
  | .range => "number out of range"
  | .control => "control character (\\u0000-\\u001F) found while parsing a string"
  | .keyString => "key must be a string"
  | .surrogate => "lone leading surrogate in hex escape"
  | .hexEnd => "unexpected end of hex escape"
  | .trailingComma => "trailing comma"
  | .trailing => "trailing characters"
  | .nesting => "recursion limit exceeded"
  | .kind found expected => "invalid type: " ++ found ++ ", expected " ++ expected
  | .bounds found expected => "invalid value: " ++ found ++ ", expected " ++ expected
  | .unknownField name expected =>
    "unknown field " ++ accented name ++ ", expected one of "
      ++ String.intercalate ", " (expected.map accented)
  | .duplicateField name => "duplicate field " ++ accented name

/-- A fault and its place. -/
structure ReadError where
  /-- What is wrong. -/
  fault : Fault
  /-- The line, counted from one. -/
  line : Nat
  /-- The bytes of the line in front of the place. -/
  column : Nat
  deriving DecidableEq, Repr

/-- The complaint in words. -/
def ReadError.message (e : ReadError) : String :=
  e.fault.message ++ " at line " ++ Decimal.naturalText e.line ++ " column "
    ++ Decimal.naturalText e.column

/-- A place in a text. -/
structure Cursor where
  /-- What is still to be read. -/
  rest : List Char
  /-- The line, counted from one. -/
  line : Nat := 1
  /-- The bytes of the line that were read. -/
  column : Nat := 0

/-- The place behind a character. -/
def Cursor.past (p : Cursor) (c : Char) (rest : List Char) : Cursor :=
  if c = '\n' then ⟨rest, p.line + 1, 0⟩ else ⟨rest, p.line, p.column + c.utf8Size⟩

/-- Steps that move a cursor or fail. -/
abbrev Reader (α : Type) := StateT Cursor (Except ReadError) α

/-- Complains about this place. -/
def failHere {α : Type} (fault : Fault) : Reader α := fun p =>
  .error ⟨fault, p.line, p.column⟩

/-- Complains about the byte that stands here. -/
def failAhead {α : Type} (fault : Fault) : Reader α := fun p =>
  match p.rest with
  | [] => .error ⟨fault, p.line, p.column⟩
  | c :: _ =>
    if c = '\n' then .error ⟨fault, p.line + 1, 0⟩ else .error ⟨fault, p.line, p.column + 1⟩

/-- The character that stands here. -/
def peek : Reader (Option Char) := do return (← get).rest.head?

/-- Moves past the character that stands here. -/
def advance : Reader Unit := modify fun p =>
  match p.rest with
  | [] => p
  | c :: rest => p.past c rest

/-- Whether the character parts the words of a text. -/
def isSpace (c : Char) : Bool := c == ' ' || c == '\n' || c == '\t' || c == '\r'

/-- The place behind the blanks in front of `rest`. -/
def Cursor.skip (p : Cursor) : List Char → Cursor
  | [] => { p with rest := [] }
  | c :: rest => if isSpace c then (p.past c rest).skip rest else { p with rest := c :: rest }

/-- Moves past blanks and looks at what stands there. -/
def peekSolid : Reader (Option Char) := do
  modify fun p => p.skip p.rest
  peek

/-- Reads the rest of a word whose first letter was read. -/
def readWord : List Char → Reader Unit
  | [] => pure ()
  | d :: ds => do
    match ← peek with
    | none => failHere .valueEnd
    | some c =>
      if c = d then
        advance
        readWord ds
      else failAhead .word

/-! ### Strings -/

/-- The place `bytes` bytes further on, which may be inside a character. -/
def Cursor.afterBytes (p : Cursor) : Nat → List Char → Cursor
  | _, [] => { p with rest := [] }
  | bytes, c :: rest =>
    if bytes = 0 then { p with rest := c :: rest }
    else if c = '\n' then (p.past c rest).afterBytes (bytes - 1) rest
    else if bytes ≤ c.utf8Size then
      { rest := rest, line := p.line, column := p.column + bytes }
    else (p.past c rest).afterBytes (bytes - c.utf8Size) rest

/-- How many bytes a text takes. -/
def byteCount (cs : List Char) : Nat := cs.foldl (fun n c => n + c.utf8Size) 0

/-- Reads four hexadecimal digits. -/
def readHex : Reader Nat := do
  let p ← get
  if byteCount p.rest < 4 then
    set (p.afterBytes (byteCount p.rest) p.rest)
    failHere .stringEnd
  else
    set (p.afterBytes 4 p.rest)
    match Text.digitsValue? 16 (p.rest.take 4) with
    | some n => pure n
    | none => failHere .escape

/-- Reads a character that must be `expected` inside the second half of a pair. -/
def expectInPair (expected : Char) : Reader Unit := do
  match ← peek with
  | none => failHere .stringEnd
  | some c => if c = expected then advance else failAhead .hexEnd

/-- Reads what follows the `u` of an escape: a character, or the two halves of one. -/
def readNumberedEscape : Reader Char := do
  let n ← readHex
  if 0xDC00 ≤ n ∧ n ≤ 0xDFFF then failHere .surrogate
  else if n < 0xD800 ∨ 0xDBFF < n then pure (Char.ofNat n)
  else
    expectInPair '\\'
    expectInPair 'u'
    let low ← readHex
    if low < 0xDC00 ∨ 0xDFFF < low then failHere .surrogate
    else pure (Char.ofNat (0x10000 + (n - 0xD800) * 1024 + (low - 0xDC00)))

/-- Reads what follows the backslash of an escape. -/
def readEscape : Reader Char := do
  match ← peek with
  | none => failHere .stringEnd
  | some '"' => advance; pure '"'
  | some '\\' => advance; pure '\\'
  | some '/' => advance; pure '/'
  | some 'b' => advance; pure '\x08'
  | some 'f' => advance; pure '\x0c'
  | some 'n' => advance; pure '\n'
  | some 'r' => advance; pure '\r'
  | some 't' => advance; pure '\t'
  | some 'u' => advance; readNumberedEscape
  | some _ => failAhead .escape

/-- Reads the rest of a string of which `seen` was read, last character first.  Each step takes a
character, so `bound` steps are enough for a text of that length. -/
def readStringWithin : Nat → List Char → Reader String
  | 0, _ => failHere .stringEnd
  | bound + 1, seen => do
    match ← peek with
    | none => failHere .stringEnd
    | some '"' =>
      advance
      pure (String.ofList seen.reverse)
    | some '\\' =>
      advance
      let c ← readEscape
      readStringWithin bound (c :: seen)
    | some c =>
      if c.toNat < 32 then failAhead .control
      else
        advance
        readStringWithin bound (c :: seen)

/-- Reads a string whose opening quote was read. -/
def readString : Reader String := do
  readStringWithin ((← get).rest.length + 1) []

/-! ### Numbers -/

/-- The greatest whole number that is kept whole. -/
def wholeLimit : Nat := Nat.pow 2 64 - 1

/-- The powers of ten that are taken in one step. -/
def tenTo (n : Nat) : Float := Float.ofScientific 1 false n

/-- The number with this significand and power of ten.  A power beyond the table is taken in steps
of `1e308`, which leads to zero or out of range. -/
def assemble : Nat → Float → Int → Option Float
  | 0, f, _ => some f
  | bound + 1, f, exponent =>
    if exponent.natAbs ≤ 308 then
      if 0 ≤ exponent then
        let g := f * tenTo exponent.natAbs
        if Decimal.isInfinite g then none else some g
      else some (f / tenTo exponent.natAbs)
    else if f == 0.0 then some f
    else if 0 ≤ exponent then none
    else assemble bound (f / tenTo 308) (exponent + 308)

/-- Reads nothing more and gives the number with these parts. -/
def finish (negative : Bool) (significand : Nat) (exponent : Int) : Reader Number := do
  match assemble 8 (Float.ofNat significand) exponent with
  | some f => pure (.real (if negative then -f else f))
  | none => failHere .range

/-- Whether a digit stands here, and which. -/
def peekDigit : Reader (Option Nat) := do
  match ← peek with
  | some c => pure (Decimal.digitValue? c)
  | none => pure none

/-- Moves past digits and counts them. -/
def skipDigits : Nat → Reader Nat
  | 0 => pure 0
  | bound + 1 => do
    match ← peekDigit with
    | some _ =>
      advance
      return (← skipDigits bound) + 1
    | none => pure 0

/-- Reads digits behind `n` as long as the number stays within `limit`.  The flag tells whether a
digit was left because it would lead beyond. -/
def readDigits (limit : Nat) : Nat → Nat → Reader (Nat × Nat × Bool)
  | 0, n => pure (n, 0, false)
  | bound + 1, n => do
    match ← peekDigit with
    | some d =>
      if limit < n * 10 + d then pure (n, 0, true)
      else
        advance
        let (m, count, full) ← readDigits limit bound (n * 10 + d)
        pure (m, count + 1, full)
    | none => pure (n, 0, false)

/-- Reads an exponent whose letter stands here. -/
def readExponent (negative : Bool) (significand : Nat) (exponent : Int) : Reader Number := do
  advance
  let down ← do
    match ← peek with
    | some '+' => advance; pure false
    | some '-' => advance; pure true
    | _ => pure false
  match ← peek with
  | none => failHere .valueEnd
  | some c =>
    match Decimal.digitValue? c with
    | none => failAhead .number
    | some d =>
      advance
      let length := (← get).rest.length
      let (power, _, full) ← readDigits (Nat.pow 2 31 - 1) length d
      if full then
        advance
        if significand != 0 && !down then failHere .range
        else
          let _ ← skipDigits length
          pure (.real (if negative then -0.0 else 0.0))
      else finish negative significand (if down then exponent - power else exponent + power)

/-- Reads an exponent if there is one. -/
def readPower (negative : Bool) (significand : Nat) (exponent : Int) : Reader Number := do
  match ← peek with
  | some 'e' => readExponent negative significand exponent
  | some 'E' => readExponent negative significand exponent
  | _ => finish negative significand exponent

/-- Reads places whose point stands here. -/
def readPlaces (negative : Bool) (significand : Nat) (exponent : Int) : Reader Number := do
  advance
  let length := (← get).rest.length
  let (all, count, full) ← readDigits wholeLimit length significand
  if full then
    let _ ← skipDigits length
    readPower negative all (exponent - count)
  else if count = 0 then
    match ← peek with
    | some _ => failAhead .number
    | none => failHere .valueEnd
  else readPower negative all (exponent - count)

/-- Reads what follows the whole digits of a number. -/
def readTail (negative : Bool) (significand : Nat) : Reader Number := do
  match ← peek with
  | some '.' => readPlaces negative significand 0
  | some 'e' => readExponent negative significand 0
  | some 'E' => readExponent negative significand 0
  | _ =>
    if !negative then pure (.natural significand)
    else if significand = 0 || Nat.pow 2 63 < significand then
      pure (.real (-(Float.ofNat significand)))
    else pure (.negative significand)

/-- Reads the rest of a number with more digits than are kept. -/
def readLong (negative : Bool) (significand : Nat) : Reader Number := do
  let length := (← get).rest.length
  let skipped ← skipDigits length
  match ← peek with
  | some '.' => readPlaces negative significand skipped
  | some 'e' => readExponent negative significand skipped
  | some 'E' => readExponent negative significand skipped
  | _ => finish negative significand skipped

/-- Reads a number whose sign was read. -/
def readNumber (negative : Bool) : Reader Number := do
  match ← peek with
  | none => failHere .valueEnd
  | some '0' =>
    advance
    match ← peekDigit with
    | some _ => failAhead .number
    | none => readTail negative 0
  | some c =>
    match Decimal.digitValue? c with
    | none => failAhead .number
    | some d =>
      advance
      let (n, _, full) ← readDigits wholeLimit (← get).rest.length d
      if full then readLong negative n else readTail negative n

end Stencil.Json
