import Stencil.Text.Blank
import Stencil.Text.Search

/-!
# Pieces of a template

A template is text with markers in it.  A marker stands between `[[` and the nearest `]]` that
leaves it at least one character; its first character tells what it does:

* `[[= e ]]` writes the value of `e` with its markup characters escaped;
* `[[- e ]]` writes the value of `e` as it is;
* any other marker holds statements.

`tokenize` cuts a template into its pieces from left to right.  An opening without a close behind it
stays text, and since a close would serve every earlier opening too, no later opening has one
either.
-/

namespace Stencil.Template

open Stencil.Text

/-- One piece of a template. -/
inductive Piece where
  /-- Text between markers. -/
  | text (s : String)
  /-- An expression whose value is written escaped. -/
  | escaped (source : String)
  /-- An expression whose value is written as it is. -/
  | raw (source : String)
  /-- Statements. -/
  | code (source : String)
  deriving DecidableEq, Repr

/-- What opens a marker. -/
def opening : List Char := ['[', '[']

/-- What closes a marker. -/
def closing : List Char := [']', ']']

/-- The inside of a marker and what follows it, given what follows its opening. -/
def closeMarker : List Char → Option (List Char × List Char)
  | [] => none
  | c :: cs => (cut closing cs).map fun (inner, rest) => (c :: inner, rest)

/-- The piece that a marker with this inside is. -/
def classify : List Char → Piece
  | '=' :: cs => .escaped (String.ofList (trim cs))
  | '-' :: cs => .raw (String.ofList (trim cs))
  | cs => .code (String.ofList (trim cs))

/-- The piece of a run of text, if there is any. -/
def textPiece (cs : List Char) : List Piece :=
  if cs.isEmpty then [] else [.text (String.ofList cs)]

/-- The pieces of a text in which at most `bound` markers are recognised. -/
def tokenizeWithin : Nat → List Char → List Piece
  | 0, cs => textPiece cs
  | bound + 1, cs =>
    match cut opening cs with
    | none => textPiece cs
    | some (front, rest) =>
      match closeMarker rest with
      | none => textPiece cs
      | some (inner, rest) => textPiece front ++ classify inner :: tokenizeWithin bound rest

/-- The pieces of a template.  A marker takes five characters, so there are fewer markers than
characters. -/
def tokenize (template : String) : List Piece :=
  tokenizeWithin template.toList.length template.toList

end Stencil.Template
