import Stencil.Routine.Builtin
import Stencil.Routine.Lexer
import Stencil.Template.Generate

/-!
# Template trees

A template whose markers write values, choose between two parts or repeat a part is a tree.
Printed, it is a row of lines, each a run of text or a marker, since a block opens in one marker and
closes in a later one.

* `Identifier`, `Variable`, `Path`, `TextRun` — what trees are made of, each with what it promises;
* `Node`, `print` — the trees and the templates that they print to;
* `Line`, `linesOf` — a tree as a row of text runs and markers;
* `mergeNodes` — the tree in which text runs that stand side by side are one.
-/

namespace Stencil.Reading

open Routine

/-! ### Names -/

/-- Whether the characters make a name. -/
def isIdentifier : List Char → Bool
  | [] => false
  | c :: cs => startsName c && cs.all continuesName

/-- A name. -/
structure Identifier where
  /-- Its characters. -/
  chars : List Char
  /-- They make a name. -/
  valid : isIdentifier chars = true

/-- The name as a text. -/
def Identifier.name (i : Identifier) : String := String.ofList i.chars

/-- The name of one letter that the samples below give to an item. -/
def Identifier.x : Identifier := ⟨['x'], by decide⟩

/-- Names that are words of the language where an expression stands, and names of every routine. -/
def takenNames : List String :=
  ["true", "false", "null", "undefined", "typeof", Template.dataName, Template.escapeName,
    Template.outputName]

/-- A name that only data and loops can give a meaning. -/
structure Variable extends Identifier where
  /-- The name is not taken. -/
  free : String.ofList chars ∉ takenNames
  /-- Routines do not know it of themselves. -/
  unknown : global? (String.ofList chars) = none

/-- A variable, or a member of a member of one. -/
structure Path where
  /-- The variable. -/
  head : Variable
  /-- The members, from the outermost to the innermost. -/
  members : List Identifier

/-- How a path is written. -/
def Path.chars (p : Path) : List Char := p.head.chars ++ p.members.flatMap fun m => '.' :: m.chars

/-! ### Trees -/

/-- A text that opens no marker, even if a bracket follows it. -/
structure TextRun where
  /-- Its characters. -/
  chars : List Char
  /-- No marker opens in it. -/
  noOpening : Text.contains Template.opening chars = false
  /-- It does not end with half an opening. -/
  noHalf : chars.getLast? ≠ some '['

/-- No text. -/
def TextRun.empty : TextRun := ⟨[], by decide, by decide⟩

/-- A dash. -/
def TextRun.dash : TextRun := ⟨['-'], by decide, by decide⟩

/-- A sign that a page has to escape. -/
def TextRun.less : TextRun := ⟨['<'], by decide, by decide⟩

/-- A node of a template tree with texts of some kind. -/
inductive Node (τ : Type) where
  /-- Text as it is. -/
  | text (t : τ)
  /-- The value of a path, escaped. -/
  | escaped (p : Path)
  /-- The value of a path as it is. -/
  | raw (p : Path)
  /-- One of two parts. -/
  | branch (test : Path) (yes no : List (Node τ))
  /-- A part for each item of a value, with the item under a name. -/
  | each (x : Variable) (source : Path) (body : List (Node τ))

/-- A marker with this inside. -/
def marker (inner : List Char) : List Char := Template.opening ++ inner ++ Template.closing

/-- The statement that opens a choice. -/
def branchCode (p : Path) : List Char := ['i', 'f', ' ', '('] ++ p.chars ++ [')', ' ', '\x7b']

/-- The statement between the parts of a choice. -/
def elseCode : List Char := ['\x7d', ' ', 'e', 'l', 's', 'e', ' ', '\x7b']

/-- The statement that opens a repetition. -/
def eachCode (x : Variable) (p : Path) : List Char :=
  ['f', 'o', 'r', ' ', '(', 'c', 'o', 'n', 's', 't', ' '] ++ x.chars ++ [' ', 'o', 'f', ' ']
    ++ p.chars ++ [')', ' ', '\x7b']

/-- The statement that closes a part. -/
def endCode : List Char := ['\x7d']

mutual

/-- The template that a node prints to. -/
def Node.print : Node TextRun → List Char
  | .text t => t.chars
  | .escaped p => marker (['=', ' '] ++ p.chars ++ [' '])
  | .raw p => marker (['-', ' '] ++ p.chars ++ [' '])
  | .branch p yes no =>
    marker ([' '] ++ branchCode p ++ [' ']) ++ printNodes yes
      ++ marker ([' '] ++ elseCode ++ [' ']) ++ printNodes no
      ++ marker ([' '] ++ endCode ++ [' '])
  | .each x p body =>
    marker ([' '] ++ eachCode x p ++ [' ']) ++ printNodes body
      ++ marker ([' '] ++ endCode ++ [' '])

/-- `Node.print` along a list. -/
def printNodes : List (Node TextRun) → List Char
  | [] => []
  | n :: ns => n.print ++ printNodes ns

end

/-- The template that a tree prints to. -/
def print (ns : List (Node TextRun)) : String := String.ofList (printNodes ns)

/-! ### Lines -/

/-- A run of text or a marker. -/
inductive Line (τ : Type) where
  | text (t : τ)
  | escaped (p : Path)
  | raw (p : Path)
  | opensBranch (p : Path)
  | alternates
  | opensEach (x : Variable) (p : Path)
  | closes

namespace Line

variable {τ σ : Type}

/-- The line with its text replaced. -/
def map (f : τ → σ) : Line τ → Line σ
  | .text t => .text (f t)
  | .escaped p => .escaped p
  | .raw p => .raw p
  | .opensBranch p => .opensBranch p
  | .alternates => .alternates
  | .opensEach x p => .opensEach x p
  | .closes => .closes

/-- Whether the line is a run of text. -/
def isText : Line τ → Bool
  | .text _ => true
  | _ => false

/-- The inside of the marker that a line is; a run of text has none. -/
def inner : Line τ → List Char
  | .text _ => []
  | .escaped p => ['=', ' '] ++ p.chars ++ [' ']
  | .raw p => ['-', ' '] ++ p.chars ++ [' ']
  | .opensBranch p => [' '] ++ branchCode p ++ [' ']
  | .alternates => [' '] ++ elseCode ++ [' ']
  | .opensEach x p => [' '] ++ eachCode x p ++ [' ']
  | .closes => [' '] ++ endCode ++ [' ']

/-- The line as it stands in a template. -/
def print : Line TextRun → List Char
  | .text t => t.chars
  | l => marker l.inner

end Line

mutual

/-- The lines of a node. -/
def Node.lines {τ : Type} : Node τ → List (Line τ)
  | .text t => [.text t]
  | .escaped p => [.escaped p]
  | .raw p => [.raw p]
  | .branch p yes no =>
    .opensBranch p :: (linesOf yes ++ .alternates :: (linesOf no ++ [.closes]))
  | .each x p body => .opensEach x p :: (linesOf body ++ [.closes])

/-- The lines of a tree. -/
def linesOf {τ : Type} : List (Node τ) → List (Line τ)
  | [] => []
  | n :: ns => n.lines ++ linesOf ns

end

mutual

/-- A node prints to its lines. -/
theorem Node.print_eq (n : Node TextRun) : n.print = n.lines.flatMap Line.print := by
  match n with
  | .text t => exact (List.append_nil _).symm
  | .escaped p => exact (List.append_nil _).symm
  | .raw p => exact (List.append_nil _).symm
  | .branch p yes no =>
    have hyes := printNodes_eq yes
    have hno := printNodes_eq no
    simp only [Node.print, Node.lines, List.flatMap_cons, List.flatMap_append, List.flatMap_nil,
      hyes, hno, List.append_assoc, List.append_nil]
    rfl
  | .each x p body =>
    have hbody := printNodes_eq body
    simp only [Node.print, Node.lines, List.flatMap_cons, List.flatMap_append, List.flatMap_nil,
      hbody, List.append_assoc, List.append_nil]
    rfl

/-- A tree prints to its lines. -/
theorem printNodes_eq (ns : List (Node TextRun)) :
    printNodes ns = (linesOf ns).flatMap Line.print := by
  match ns with
  | [] => rfl
  | n :: ns =>
    rw [printNodes, linesOf, List.flatMap_append, n.print_eq, printNodes_eq ns]

end

/-! ### Runs of text side by side -/

/-- The node of a run of text, if there is any text. -/
def textNode (cs : List Char) : List (Node (List Char)) := if cs.isEmpty then [] else [.text cs]

mutual

/-- The node with all runs of text in it merged. -/
def Node.merge : Node TextRun → Node (List Char)
  | .text t => .text t.chars
  | .escaped p => .escaped p
  | .raw p => .raw p
  | .branch p yes no => .branch p (mergeNodes [] yes) (mergeNodes [] no)
  | .each x p body => .each x p (mergeNodes [] body)

/-- The tree behind a text in which all runs of text that stand side by side are merged. -/
def mergeNodes (seen : List Char) : List (Node TextRun) → List (Node (List Char))
  | [] => textNode seen
  | n :: ns =>
    match n with
    | .text t => mergeNodes (seen ++ t.chars) ns
    | n => textNode seen ++ n.merge :: mergeNodes [] ns

end

/-- The line of a run of text, if there is any text. -/
def textLine (cs : List Char) : List (Line (List Char)) := if cs.isEmpty then [] else [.text cs]

/-- The lines behind a text in which runs of text side by side are merged. -/
def mergeLines (seen : List Char) : List (Line TextRun) → List (Line (List Char))
  | [] => textLine seen
  | .text t :: ls => mergeLines (seen ++ t.chars) ls
  | l :: ls => textLine seen ++ l.map TextRun.chars :: mergeLines [] ls

theorem linesOf_textNode (cs : List Char) : linesOf (textNode cs) = textLine cs := by
  rw [textNode, textLine]
  split <;> rfl

theorem linesOf_append {τ : Type} (ns ms : List (Node τ)) :
    linesOf (ns ++ ms) = linesOf ns ++ linesOf ms := by
  induction ns with
  | nil => rfl
  | cons n ns ih => rw [List.cons_append, linesOf, linesOf, ih, List.append_assoc]

/-- Where a marker follows, or nothing, the text that was seen is complete. -/
def Complete (ls : List (Line TextRun)) : Prop :=
  ∀ seen, mergeLines seen ls = textLine seen ++ mergeLines [] ls

theorem complete_nil : Complete [] := by
  intro seen
  show textLine seen = textLine seen ++ []
  rw [List.append_nil]

theorem complete_marker {l : Line TextRun} (h : l.isText = false) (ls : List (Line TextRun)) :
    Complete (l :: ls) := by
  intro seen
  cases l with
  | text t => cases h
  | _ => rfl

mutual

/-- Merging a node merges its lines. -/
theorem Node.lines_merge (n : Node TextRun) (h : ∀ t, n ≠ .text t) (seen : List Char)
    (ls : List (Line TextRun)) :
    mergeLines seen (n.lines ++ ls) = textLine seen ++ n.merge.lines ++ mergeLines [] ls := by
  match n with
  | .text t => exact absurd rfl (h t)
  | .escaped p =>
    rw [List.append_assoc]
    rfl
  | .raw p =>
    rw [List.append_assoc]
    rfl
  | .branch p yes no =>
    have hno : mergeLines [] (linesOf no ++ .closes :: ls)
        = linesOf (mergeNodes [] no) ++ .closes :: mergeLines [] ls :=
      lines_mergeNodes no [] (complete_marker (l := .closes) rfl ls)
    have hyes : mergeLines [] (linesOf yes ++ .alternates :: (linesOf no ++ .closes :: ls))
        = linesOf (mergeNodes [] yes)
          ++ .alternates :: mergeLines [] (linesOf no ++ .closes :: ls) :=
      lines_mergeNodes yes [] (complete_marker (l := .alternates) rfl _)
    simp only [Node.lines, Node.merge, List.cons_append, List.append_assoc, List.nil_append]
    show textLine seen ++ .opensBranch p :: mergeLines [] _ = _
    rw [hyes, hno]
  | .each x p body =>
    have hbody : mergeLines [] (linesOf body ++ .closes :: ls)
        = linesOf (mergeNodes [] body) ++ .closes :: mergeLines [] ls :=
      lines_mergeNodes body [] (complete_marker (l := .closes) rfl ls)
    simp only [Node.lines, Node.merge, List.cons_append, List.append_assoc, List.nil_append]
    show textLine seen ++ .opensEach x p :: mergeLines [] _ = _
    rw [hbody]

/-- Merging a tree merges its lines. -/
theorem lines_mergeNodes (ns : List (Node TextRun)) (seen : List Char)
    {ls : List (Line TextRun)} (h : Complete ls) :
    mergeLines seen (linesOf ns ++ ls) = linesOf (mergeNodes seen ns) ++ mergeLines [] ls := by
  match ns with
  | [] =>
    rw [mergeNodes, linesOf_textNode]
    exact h seen
  | n :: ns =>
    have hrest := lines_mergeNodes ns [] h
    -- A node that is no text completes the text in front of it.
    have complete (hn : ∀ t, n ≠ .text t)
        (hmerge : mergeNodes seen (n :: ns) = textNode seen ++ n.merge :: mergeNodes [] ns) :
        mergeLines seen (linesOf (n :: ns) ++ ls)
          = linesOf (mergeNodes seen (n :: ns)) ++ mergeLines [] ls := by
      rw [hmerge, linesOf_append, linesOf_textNode, linesOf, linesOf, List.append_assoc,
        n.lines_merge hn, hrest]
      simp only [List.append_assoc]
    cases n with
    | text t => exact lines_mergeNodes ns (seen ++ t.chars) h
    | _ => exact complete nofun rfl

end

/-- Merging a whole tree merges its lines. -/
theorem linesOf_mergeNodes (ns : List (Node TextRun)) :
    linesOf (mergeNodes [] ns) = mergeLines [] (linesOf ns) := by
  have h := lines_mergeNodes ns [] complete_nil
  rw [List.append_nil] at h
  rw [h]
  exact (List.append_nil _).symm

end Stencil.Reading
