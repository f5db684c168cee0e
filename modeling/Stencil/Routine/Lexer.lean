import Stencil.Decimal.Read
import Stencil.Routine.Lexeme
import Stencil.Text.Blank
import Stencil.Text.Digit
import Stencil.Text.Letter
import Stencil.Text.Search

/-!
# From source to tokens

`lex` cuts the source of a routine into tokens from left to right.  Blanks and comments part the
tokens and count lines.  Each step (`step`) takes at least one character, so a source needs no more
steps than it has characters.

* `readString`, `readEscape` — strings and the characters their escapes give;
* `numberSpan` — the characters of a number;
* `punctuator?` — the longest sign at a place;
* `step`, `lex` — one step, and the whole source.
-/

namespace Stencil.Routine

open Stencil.Text

/-- Whether a name can begin with the character. -/
def startsName (c : Char) : Bool := isLetter c || c == '_' || c == '$'

/-- Whether a name can go on with the character. -/
def continuesName (c : Char) : Bool := isLetter c || isNumeric c || c == '_' || c == '$'

/-! ### Comments -/

/-- What follows a comment of the kind that may span lines, and the line there, given what follows
its opening. -/
def skipComment (line : Nat) : List Char → Except SyntaxError (Nat × List Char)
  | [] => .error ⟨line, .openComment⟩
  | '*' :: '/' :: rest => .ok (line, rest)
  | c :: rest => skipComment (if c = '\n' then line + 1 else line) rest

/-! ### Strings -/

/-- The number of an unsigned hexadecimal text, which may begin with a plus. -/
def hexNumber? (cs : List Char) : Option Nat :=
  let digits :=
    match cs with
    | '+' :: rest => rest
    | rest => rest
  digitsValue? 16 digits

/-- The number that four characters write. -/
def hexFour? (cs : List Char) : Option Nat :=
  if cs.length < 4 then none else hexNumber? (cs.take 4)

/-- Whether the number is that of a character. -/
def isScalar (n : Nat) : Bool := n < 0xD800 || (0xDFFF < n && n < 0x110000)

/-- Whether the number is the first half of a pair. -/
def isLeading (n : Nat) : Bool := 0xD800 ≤ n && n < 0xDC00

/-- Whether the number is the second half of a pair. -/
def isTrailing (n : Nat) : Bool := 0xDC00 ≤ n && n < 0xE000

/-- The number behind a first half, if it is a second half. -/
def trailing? : List Char → Option Nat
  | '\\' :: 'u' :: rest => (hexFour? rest).filter isTrailing
  | _ => none

/-- The character that stands for a half without its other half. -/
def replacement : Char := Char.ofNat 0xFFFD

/-- The character of a numbered escape and what follows it, given what follows its letter.  The
number stands between braces or is four digits long; two halves of a pair make one character. -/
def readNumbered : List Char → Option (Char × List Char)
  | '\x7b' :: rest =>
    match cut ['\x7d'] rest with
    | none => none
    | some (digits, rest) =>
      match hexNumber? digits with
      | none => none
      | some n => if isScalar n then some (Char.ofNat n, rest) else none
  | cs =>
    match hexFour? cs with
    | none => none
    | some high =>
      let rest := cs.drop 4
      if isLeading high then
        match trailing? rest with
        | some low =>
          some (Char.ofNat (0x10000 + (high - 0xD800) * 1024 + (low - 0xDC00)), rest.drop 6)
        | none => some (replacement, rest)
      else some (if isScalar high then Char.ofNat high else replacement, rest)

/-- The character that a one-letter escape gives, the letter itself if it has no meaning. -/
def plainEscape (c : Char) : Char :=
  match c with
  | 'n' => '\n'
  | 't' => '\t'
  | 'r' => '\r'
  | 'b' => '\x08'
  | 'f' => '\x0c'
  | 'v' => '\x0b'
  | '0' => '\x00'
  | c => c

/-- The text of a string, the line at its end and what follows it.  `seen` holds the characters read
so far, last one first; every step takes a character. -/
def readString (quote : Char) : Nat → Nat → List Char → List Char →
    Except SyntaxError (String × Nat × List Char)
  | 0, line, _, _ => .error ⟨line, .openString⟩
  | _ + 1, line, _, [] => .error ⟨line, .openString⟩
  | bound + 1, line, seen, c :: cs =>
    if c = quote then .ok (String.ofList seen.reverse, line, cs)
    else if c = '\n' then
      if quote = Char.ofNat 96 then readString quote bound (line + 1) ('\n' :: seen) cs
      else .error ⟨line, .openString⟩
    else if c = '\\' then
      match cs with
      | [] => .error ⟨line, .openString⟩
      | 'u' :: cs =>
        match readNumbered cs with
        | some (d, rest) => readString quote bound line (d :: seen) rest
        | none => .error ⟨line, .escape⟩
      | '\n' :: cs => readString quote bound (line + 1) seen cs
      | d :: cs => readString quote bound line (plainEscape d :: seen) cs
    else readString quote bound line (c :: seen) cs

/-! ### Numbers and signs -/

/-- Whether the character can stand in front of an exponent. -/
def isNumberPart (c : Char) : Bool := Decimal.isDigit c || c == '.'

/-- The exponent at a place, if the letter of one stands there, and what follows it. -/
def exponentSpan : List Char → List Char × List Char
  | [] => ([], [])
  | e :: cs =>
    if e = 'e' ∨ e = 'E' then
      match cs with
      | [] => ([e], [])
      | s :: ds =>
        if s = '+' ∨ s = '-' then
          (e :: s :: ds.takeWhile Decimal.isDigit, ds.dropWhile Decimal.isDigit)
        else (e :: cs.takeWhile Decimal.isDigit, cs.dropWhile Decimal.isDigit)
    else ([], e :: cs)

/-- The characters of a number at a place and what follows them. -/
def numberSpan (cs : List Char) : List Char × List Char :=
  let (power, rest) := exponentSpan (cs.dropWhile isNumberPart)
  (cs.takeWhile isNumberPart ++ power, rest)

/-- Whether a number begins at a place: with a digit, or with a point before a digit. -/
def startsNumber : List Char → Bool
  | '.' :: c :: _ => Decimal.isDigit c
  | c :: _ => Decimal.isDigit c
  | [] => false

/-- The longest sign at a place and what follows it.  The optional dot before a digit is a question
mark before a number. -/
def punctuator? (cs : List Char) : Option (Punctuator × List Char) :=
  match Punctuator.all.find? (fun p => startsWith p.spelling cs) with
  | none => none
  | some .optionalDot =>
    if startsNumber (cs.drop 1) then some (.question, cs.drop 1) else some (.optionalDot, cs.drop 2)
  | some p => some (p, cs.drop p.spelling.length)

/-! ### The whole source -/

/-- What one step finds: a token or none, the line behind it and what follows. -/
structure Step where
  /-- The token, unless the step passes over a blank or a comment. -/
  token : Option Token
  /-- The line behind it. -/
  line : Nat
  /-- What follows. -/
  rest : List Char

/-- One step at a place where a character stands. -/
def step (line : Nat) (c : Char) (cs : List Char) : Except SyntaxError Step :=
  if c = '\n' then .ok ⟨none, line + 1, cs⟩
  else if isBlank c then .ok ⟨none, line, cs⟩
  else if startsWith ['/', '/'] (c :: cs) then .ok ⟨none, line, cs.dropWhile (· != '\n')⟩
  else if startsWith ['/', '*'] (c :: cs) then
    (skipComment line (cs.drop 1)).map fun (line, rest) => ⟨none, line, rest⟩
  else if startsNumber (c :: cs) then
    let (digits, rest) := numberSpan (c :: cs)
    match Decimal.readChars? digits with
    | some x => .ok ⟨some ⟨.number x, line⟩, line, rest⟩
    | none => .error ⟨line, .number (String.ofList digits)⟩
  else if c = '"' ∨ c = '\'' ∨ c = Char.ofNat 96 then
    (readString c (cs.length + 1) line [] cs).map fun (s, last, rest) =>
      ⟨some ⟨.text s, line⟩, last, rest⟩
  else if startsName c then
    .ok ⟨some ⟨.name (String.ofList (c :: cs.takeWhile continuesName)), line⟩, line,
      cs.dropWhile continuesName⟩
  else
    match punctuator? (c :: cs) with
    | some (p, rest) => .ok ⟨some ⟨.sign p, line⟩, line, rest⟩
    | none => .error ⟨line, .character c⟩

/-- The tokens of a source that begins on the given line, in at most `bound` steps.  `seen` holds
the tokens found so far, last one first. -/
def lexWithin : Nat → Nat → List Token → List Char → Except SyntaxError Lexed
  | _, line, seen, [] => .ok ⟨seen.reverse, line⟩
  | 0, line, seen, _ :: _ => .ok ⟨seen.reverse, line⟩
  | bound + 1, line, seen, c :: cs =>
    match step line c cs with
    | .error e => .error e
    | .ok ⟨none, line, rest⟩ => lexWithin bound line seen rest
    | .ok ⟨some token, line, rest⟩ => lexWithin bound line (token :: seen) rest

/-- The tokens of a source. -/
def lexChars (cs : List Char) : Except SyntaxError Lexed := lexWithin cs.length 1 [] cs

/-- The tokens of a source. -/
def lex (source : String) : Except SyntaxError Lexed := lexChars source.toList

end Stencil.Routine
