import Stencil.Text.Digit
import Stencil.Yaml.Basic

/-!
# Lexemes of a YAML text

The lexemes of a text show its structure: besides the signs that are written, there are lexemes
where a block begins and ends by indentation, and one in front of every key.

* `Lexeme` — the lexemes;
* `Spot` — a line and a column;
* `isBreak`, `isBlank`, `endsWord` — the classes of characters that part lexemes;
* `scanPlain`, `scanQuoted` — scalars, whose lines are folded into one.
-/

namespace Stencil.Yaml

/-- A lexeme. -/
inductive Lexeme where
  /-- A scalar. -/
  | scalar (plain : Bool) (s : String)
  /-- A document begins. -/
  | documentStart
  /-- A document ends. -/
  | documentEnd
  /-- A sequence begins by indentation. -/
  | sequenceStart
  /-- A mapping begins by indentation. -/
  | mappingStart
  /-- What began by indentation ends. -/
  | blockEnd
  /-- The bracket that opens a sequence. -/
  | listOpen
  /-- The bracket that closes a sequence. -/
  | listClose
  /-- The brace that opens a mapping. -/
  | braceOpen
  /-- The brace that closes a mapping. -/
  | braceClose
  /-- The comma between brackets or braces. -/
  | comma
  /-- The dash in front of an entry. -/
  | entry
  /-- A key follows. -/
  | key
  /-- The colon in front of a value. -/
  | value
  deriving DecidableEq, Repr

/-! ### Characters and places -/

/-- A place in a text. -/
structure Spot where
  /-- How many lines end in front of it. -/
  line : Nat := 0
  /-- How many characters of its line stand in front of it. -/
  column : Nat := 0
  deriving DecidableEq, Repr

/-- Whether the character ends a line, once all usual ends are written in one way. -/
def isBreak (c : Char) : Bool := c == '\n' || c == '\u2028' || c == '\u2029'

/-- Whether the character is a blank on a line. -/
def isBlank (c : Char) : Bool := c == ' ' || c == '\t'

/-- Whether a word that stands in front of this text ends there. -/
def endsWord : List Char → Bool
  | [] => true
  | c :: _ => isBlank c || isBreak c

/-- The place behind a character. -/
def Spot.past (p : Spot) (c : Char) : Spot :=
  if isBreak c then ⟨p.line + 1, 0⟩ else ⟨p.line, p.column + 1⟩

/-- A text in which the usual ends of lines are all written in one way. -/
def unifyBreaks : List Char → List Char
  | [] => []
  | '\r' :: '\n' :: rest => '\n' :: unifyBreaks rest
  | c :: rest => (if c = '\r' ∨ c = '\u0085' then '\n' else c) :: unifyBreaks rest

/-- Whether a text may hold the character. -/
def isAllowed (c : Char) : Bool :=
  let n := c.toNat
  n == 0x09 || n == 0x0A || n == 0x0D || (0x20 ≤ n && n ≤ 0x7E) || n == 0x85
    || (0xA0 ≤ n && n != 0xFFFE && n != 0xFFFF)

/-- Whether the boundary of a document stands in front of a text. -/
def isBoundary (mark : Char) : List Char → Bool
  | a :: b :: c :: rest => a == mark && b == mark && c == mark && endsWord rest
  | _ => false

/-- Whether a boundary of either kind stands at this place. -/
def atBoundary (p : Spot) (cs : List Char) : Bool :=
  p.column == 0 && (isBoundary '-' cs || isBoundary '.' cs)

/-! ### Gaps -/

/-- What was passed since the last visible character of a scalar, last character first. -/
inductive Gap where
  /-- Blanks on one line. -/
  | blanks (passed : List Char)
  /-- Ends of lines, the first of which is left out if it was `escaped`. -/
  | breaks (escaped : Bool) (passed : List Char)

namespace Gap

/-- No gap. -/
def empty : Gap := .blanks []

/-- Whether nothing was passed. -/
def isEmpty : Gap → Bool
  | .blanks [] => true
  | _ => false

/-- Whether a line ended. -/
def changesLine : Gap → Bool
  | .blanks _ => false
  | .breaks _ _ => true

/-- The gap with one more character, which is a blank or ends a line. -/
def add (c : Char) : Gap → Gap
  | .blanks passed => if isBreak c then .breaks false [c] else .blanks (c :: passed)
  | .breaks escaped passed => .breaks escaped (if isBreak c then c :: passed else passed)

/-- What a gap inside a scalar stands for, last character first: its blanks, or the ends of lines
without the first, for which a blank comes if it is the only one. -/
def folded : Gap → List Char
  | .blanks passed => passed
  | .breaks true passed => passed
  | .breaks false passed =>
    if passed = ['\n'] then [' ']
    else if passed.getLast? = some '\n' then passed.dropLast
    else passed

end Gap

/-! ### Scalars -/

/-- A scalar that was read, and what follows it. -/
structure Passage where
  /-- The text of the scalar. -/
  text : String
  /-- What follows. -/
  rest : List Char
  /-- The place there. -/
  spot : Spot
  /-- Whether a line ended behind the scalar. -/
  changedLine : Bool

/-- Reads on in a scalar without quotes, of which `done` was read, last character first.  Its lines
are indented by `indent` at least, unless it stands between brackets. -/
def scanPlain (bracketed : Bool) (indent : Nat) :
    List Char → Spot → Gap → List Char → Except Fault Passage
  | [], p, gap, done => .ok ⟨String.ofList done.reverse, [], p, gap.changesLine⟩
  | c :: rest, p, gap, done =>
    let finished := .ok ⟨String.ofList done.reverse, c :: rest, p, gap.changesLine⟩
    if isBlank c || isBreak c then
      if c == '\t' && gap.changesLine && p.column < indent then .error .tab
      else scanPlain bracketed indent rest (p.past c) (gap.add c) done
    else if !gap.isEmpty
        && ((!bracketed && p.column < indent) || c == '#' || atBoundary p (c :: rest)) then
      finished
    else if bracketed && c == ':' && rest.head?.any fun d => ",?[]\x7b\x7d".toList.contains d then
      .error .colonPlace
    else if (c == ':' && endsWord rest) || (bracketed && ",[]\x7b\x7d".toList.contains c) then
      finished
    else scanPlain bracketed indent rest (p.past c) .empty (c :: gap.folded ++ done)

/-- The character of a number that hexadecimal digits write, and how many of them were wanted. -/
def numberedEscape (wanted : Nat) (cs : List Char) : Except Fault (Char × Nat) :=
  if cs.length < wanted then .error .escape
  else
    match Text.digitsValue? 16 (cs.take wanted) with
    | some n => if n.isValidChar then .ok (Char.ofNat n, wanted + 1) else .error .escape
    | none => .error .escape

/-- The character that an escape stands for and the length of the escape behind its backslash. -/
def escape : List Char → Except Fault (Char × Nat)
  | [] => .error .escape
  | c :: rest =>
    match c with
    | '0' => .ok ('\x00', 1)
    | 'a' => .ok ('\x07', 1)
    | 'b' => .ok ('\x08', 1)
    | 't' => .ok ('\t', 1)
    | '\t' => .ok ('\t', 1)
    | 'n' => .ok ('\n', 1)
    | 'v' => .ok ('\x0b', 1)
    | 'f' => .ok ('\x0c', 1)
    | 'r' => .ok ('\r', 1)
    | 'e' => .ok ('\x1b', 1)
    | ' ' => .ok (' ', 1)
    | '"' => .ok ('"', 1)
    | '/' => .ok ('/', 1)
    | '\\' => .ok ('\\', 1)
    | 'N' => .ok ('\u0085', 1)
    | '_' => .ok ('\u00a0', 1)
    | 'L' => .ok ('\u2028', 1)
    | 'P' => .ok ('\u2029', 1)
    | 'x' => numberedEscape 2 rest
    | 'u' => numberedEscape 4 rest
    | 'U' => numberedEscape 8 rest
    | _ => .error .escape

/-- Reads on in a scalar in quotes, of which `done` was read, last character first.  The next `skip`
characters belong to what was read before. -/
def scanQuoted (double : Bool) :
    Nat → List Char → Spot → Gap → List Char → Except Fault Passage
  | _, [], _, _, _ => .error .quoteEnd
  | skip + 1, c :: rest, p, gap, done => scanQuoted double skip rest (p.past c) gap done
  | 0, c :: rest, p, gap, done =>
    let quote := if double then '"' else '\''
    if isBlank c || isBreak c then scanQuoted double 0 rest (p.past c) (gap.add c) done
    else if atBoundary p (c :: rest) then .error .quotedBoundary
    else if c == quote then
      if !double && rest.head? == some quote then
        scanQuoted double 1 rest (p.past c) .empty (quote :: gap.folded ++ done)
      else .ok ⟨String.ofList (gap.folded ++ done).reverse, rest, p.past c, false⟩
    else if double && c == '\\' then
      if rest.head?.any isBreak then
        scanQuoted double 1 rest (p.past c) (.breaks true []) (gap.folded ++ done)
      else
        match escape rest with
        | .ok (d, length) =>
          scanQuoted double length rest (p.past c) .empty (d :: gap.folded ++ done)
        | .error fault => .error fault
    else scanQuoted double 0 rest (p.past c) .empty (c :: gap.folded ++ done)

end Stencil.Yaml
