import Stencil.Decimal.Text
import Stencil.Json.Quote
import Stencil.Roster
import Stencil.Template.Marker
import Stencil.Text.Letter
import Stencil.Text.Scan

/-!
# Layouts

A template that begins with `[[ extends "name" ]]` takes the place of blocks in the layout of that
name, which may extend another layout in turn.  A block is a section
`[[ block id ]]` … `[[ endblock ]]`; sections do not nest.

* `header?` — the name of the layout that a text extends;
* `section?` — a section at the front of a text;
* `resolve` — the layout at the end of the chain, with each section replaced by the first section of
  its name that comes before it in the chain, or by its own content;
* `LayoutFault` — a layout is not there, or the chain is too long.
-/

namespace Stencil.Template

open Stencil.Text

/-- How many layouts a chain may have. -/
def layoutLimit : Nat := 10

/-! ### Markers of layouts -/

/-- What follows at least one blank. -/
def pastBlanks? : List Char → Option (List Char)
  | [] => none
  | c :: cs => if isBlank c then some (trimStart cs) else none

/-- The word that an opened marker begins with, and what follows it. -/
def markerWord? (word : String) (cs : List Char) : Option (List Char) := do
  stripFront word.toList (trimStart (← stripFront opening cs))

/-- What follows the close of a marker, in front of which blanks may stand. -/
def closed? (cs : List Char) : Option (List Char) := stripFront closing (trimStart cs)

/-- Whether a character is a quote sign of a header. -/
def isHeaderQuote (c : Char) : Bool := c == '"' || c == '\''

/-- What follows a quote sign. -/
def pastQuote? : List Char → Option (List Char)
  | [] => none
  | c :: cs => if isHeaderQuote c then some cs else none

/-- The name of the layout that a text extends.  The header stands at the start of the text, behind
blanks at most. -/
def header? (cs : List Char) : Option String := do
  let rest ← markerWord? "extends" (trimStart cs)
  let rest ← pastQuote? (← pastBlanks? rest)
  let name := rest.takeWhile fun c => !isHeaderQuote c
  let _ ← closed? (← pastQuote? (rest.dropWhile fun c => !isHeaderQuote c))
  if name.isEmpty then none else some (String.ofList name)

/-- Whether a character can stand in the name of a section. -/
def isSectionChar (c : Char) : Bool := isWord c || c == '-'

/-- What follows the end marker of a section. -/
def sectionEnd? (cs : List Char) : Option (List Char) := do
  closed? (← markerWord? "endblock" cs)

/-- The content of a section up to the nearest end marker, and what follows that. -/
def sectionContent? : List Char → Option (List Char × List Char)
  | [] => none
  | c :: cs =>
    match sectionEnd? (c :: cs) with
    | some rest => some ([], rest)
    | none => (sectionContent? cs).map fun (content, rest) => (c :: content, rest)

/-- A named section of a text. -/
structure Section where
  /-- Its name. -/
  name : String
  /-- What stands in it. -/
  content : String
  deriving DecidableEq, Repr

/-- The section at the front of a text and what follows it. -/
def section? (cs : List Char) : Option (Section × List Char) := do
  let rest ← pastBlanks? (← markerWord? "block" cs)
  let name := rest.takeWhile isSectionChar
  if name.isEmpty then none
  else
    let (content, rest) ← sectionContent? (← closed? (rest.dropWhile isSectionChar))
    some (⟨String.ofList name, String.ofList content⟩, rest)

/-- The sections of a text from front to back. -/
def sections (cs : List Char) : List Section := marksOf (scan section? cs)

/-! ### Chains -/

/-- Why a chain of layouts cannot be resolved. -/
inductive LayoutFault where
  /-- No layout has the name. -/
  | missing (name : String)
  /-- The layout would make the chain too long. -/
  | depth (name : String)
  deriving DecidableEq, Repr

/-- The fault in words. -/
def LayoutFault.message : LayoutFault → String
  | .missing name => "Layout \"" ++ name ++ "\" not found"
  | .depth name =>
    "Layout \"" ++ name ++ "\" exceeds the maximum inheritance depth of "
      ++ Decimal.naturalText layoutLimit

/-- Contents of sections with one more, unless there is one of its name. -/
def addSection (contents : Roster String) (s : Section) : Roster String :=
  if contents.contains s.name then contents else contents.insert s.name s.content

/-- A text with each section replaced by the content of its name, or else by its own. -/
def fillSections (contents : Roster String) (cs : List Char) : String :=
  String.ofList (replaceMarks section? (fun s => ((contents.get? s.name).getD s.content).toList) cs)

/-- The resolved text of a chain that may have `bound` more layouts, given the contents of the
sections before. -/
def resolveWithin (layouts : Roster String) :
    Nat → Roster String → String → Except LayoutFault String
  | bound, contents, template =>
    match header? template.toList with
    | none => .ok (fillSections contents template.toList)
    | some name =>
      match bound with
      | 0 => .error (.depth name)
      | bound + 1 =>
        match layouts.get? name with
        | none => .error (.missing name)
        | some layout =>
          resolveWithin layouts bound ((sections template.toList).foldl addSection contents) layout

/-- The resolved text of a template. -/
def resolve (layouts : Roster String) (template : String) : Except LayoutFault String :=
  resolveWithin layouts layoutLimit .empty template

/-- A template whose only marker raises a message. -/
def raising (message : String) : String := "[[ throw " ++ Json.quote message ++ " ]]"

/-- The resolved text of a template, or a template that raises what is wrong with its chain. -/
def withLayouts (layouts : Roster String) (template : String) : String :=
  match resolve layouts template with
  | .ok resolved => resolved
  | .error fault => raising fault.message

end Stencil.Template
