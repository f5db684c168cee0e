/-!
# Scanning a text for marks

A mark is whatever a function recognises at the front of a text.  One scan finds the marks from left
to right, none of them overlapping, and keeps the characters between them:

* `scan` — the characters and marks of a text in order;
* `replaceMarks` — the text with each mark replaced.
-/

namespace Stencil.Text

variable {α : Type}

/-- The first `bound` characters and marks of a text, and then the rest as characters. -/
def scanWithin (mark? : List Char → Option (α × List Char)) : Nat → List Char → List (Char ⊕ α)
  | 0, cs => cs.map .inl
  | _ + 1, [] => []
  | bound + 1, c :: cs =>
    match mark? (c :: cs) with
    | some (a, rest) => .inr a :: scanWithin mark? bound rest
    | none => .inl c :: scanWithin mark? bound cs

/-- The characters and marks of a text.  A mark takes a character at least, so there are no more of
both than characters. -/
def scan (mark? : List Char → Option (α × List Char)) (cs : List Char) : List (Char ⊕ α) :=
  scanWithin mark? cs.length cs

/-- The marks among characters and marks. -/
def marksOf (parts : List (Char ⊕ α)) : List α := parts.filterMap Sum.getRight?

/-- The text that a part becomes. -/
def partText (replace : α → List Char) : Char ⊕ α → List Char
  | .inl c => [c]
  | .inr a => replace a

/-- The text with each mark replaced; what replaces a mark is not scanned again. -/
def replaceMarks (mark? : List Char → Option (α × List Char)) (replace : α → List Char)
    (cs : List Char) : List Char :=
  (scan mark? cs).flatMap (partText replace)

theorem scanWithin_of_no_mark {mark? : List Char → Option (α × List Char)}
    (h : ∀ cs, mark? cs = none) (bound : Nat) (cs : List Char) :
    scanWithin mark? bound cs = cs.map .inl := by
  induction cs generalizing bound with
  | nil => cases bound <;> rfl
  | cons c cs ih =>
    cases bound with
    | zero => rfl
    | succ bound => simp [scanWithin, h, ih]

/-- A text in which nothing is recognised stays as it is. -/
theorem replaceMarks_of_no_mark {mark? : List Char → Option (α × List Char)}
    (h : ∀ cs, mark? cs = none) (replace : α → List Char) (cs : List Char) :
    replaceMarks mark? replace cs = cs := by
  have hs : scan mark? cs = cs.map .inl := scanWithin_of_no_mark h cs.length cs
  rw [replaceMarks, hs]
  simp [List.flatMap_map, partText]

end Stencil.Text
