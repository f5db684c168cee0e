import Stencil.Text.Scan

/-!
# Searching a text

One scan finds the leftmost place where a needle stands (`cut`), and the searches for one occurrence
or for what stands between them are written with it.  Replacing all of them goes through the text
once, with the needle as a mark.

* `stripFront` — what is left of a text behind a needle it begins with;
* `cut` — the text in front of the leftmost occurrence and the text behind it;
* `pieces` — the text between the occurrences of a separator;
* `replaceFirst`, `replaceEach` — the text with one or all occurrences replaced.

Texts are lists of characters here.  What is cut apart goes together again: `eq_of_cut` and
`intercalate_pieces`.
-/

namespace Stencil.Text

/-- What follows the needle in a text that begins with it. -/
def stripFront : List Char → List Char → Option (List Char)
  | [], cs => some cs
  | _ :: _, [] => none
  | d :: ds, c :: cs => if d = c then stripFront ds cs else none

/-- Whether a text begins with the needle. -/
def startsWith (needle cs : List Char) : Bool := (stripFront needle cs).isSome

/-- Whether a text ends with the needle. -/
def endsWith (needle cs : List Char) : Bool := startsWith needle.reverse cs.reverse

/-- `cut` behind the characters `seen`, which are kept last one first. -/
def cutFrom (needle seen : List Char) : List Char → Option (List Char × List Char)
  | [] =>
    match stripFront needle [] with
    | some rest => some (seen.reverse, rest)
    | none => none
  | c :: cs =>
    match stripFront needle (c :: cs) with
    | some rest => some (seen.reverse, rest)
    | none => cutFrom needle (c :: seen) cs

/-- The text in front of the leftmost occurrence of the needle and the text behind it. -/
def cut (needle cs : List Char) : Option (List Char × List Char) := cutFrom needle [] cs

/-- Whether the needle occurs. -/
def contains (needle cs : List Char) : Bool := (cut needle cs).isSome

/-- How many characters stand in front of the leftmost occurrence. -/
def indexOf? (needle cs : List Char) : Option Nat := (cut needle cs).map (·.1.length)

/-- The first `bound` pieces that the separator cuts off, and the rest as one piece. -/
def piecesWithin (separator : List Char) : Nat → List Char → List (List Char)
  | 0, cs => [cs]
  | bound + 1, cs =>
    match cut separator cs with
    | some (piece, rest) => piece :: piecesWithin separator bound rest
    | none => [cs]

/-- The pieces between the occurrences of a separator that is not empty.  Each occurrence takes a
character at least, so there are no more of them than characters. -/
def pieces (separator cs : List Char) : List (List Char) :=
  piecesWithin separator cs.length cs

/-- The text with the leftmost occurrence replaced. -/
def replaceFirst (needle new cs : List Char) : List Char :=
  match cut needle cs with
  | some (front, rest) => front ++ new ++ rest
  | none => cs

/-- The needle as a mark at the front of a text. -/
def occurrence? (needle cs : List Char) : Option (Unit × List Char) :=
  (stripFront needle cs).map fun rest => ((), rest)

/-- The text with every occurrence replaced, none of them overlapping.  The empty needle occurs
before each character and at the end. -/
def replaceEach (needle new cs : List Char) : List Char :=
  if needle.isEmpty then cs.flatMap (fun c => new ++ [c]) ++ new
  else replaceMarks (occurrence? needle) (fun _ => new) cs

theorem eq_of_stripFront {needle cs rest : List Char} (h : stripFront needle cs = some rest) :
    cs = needle ++ rest := by
  induction needle generalizing cs with
  | nil => simpa [stripFront] using h
  | cons d ds ih =>
    cases cs with
    | nil => simp [stripFront] at h
    | cons c cs =>
      by_cases hd : d = c
      · simp only [stripFront, hd, if_true] at h
        rw [ih h, hd]
        rfl
      · simp [stripFront, hd] at h

theorem stripFront_append (needle rest : List Char) :
    stripFront needle (needle ++ rest) = some rest := by
  induction needle with
  | nil => rfl
  | cons d ds ih => simpa [stripFront] using ih

theorem eq_of_cutFrom {needle seen cs front rest : List Char}
    (h : cutFrom needle seen cs = some (front, rest)) :
    seen.reverse ++ cs = front ++ needle ++ rest := by
  induction cs generalizing seen with
  | nil =>
    simp only [cutFrom] at h
    cases hs : stripFront needle [] with
    | none => simp [hs] at h
    | some r =>
      simp only [hs, Option.some.injEq, Prod.mk.injEq] at h
      rw [← h.1, ← h.2, List.append_assoc, ← eq_of_stripFront hs]
  | cons c cs ih =>
    simp only [cutFrom] at h
    cases hs : stripFront needle (c :: cs) with
    | none =>
      simp only [hs] at h
      simpa using ih h
    | some r =>
      simp only [hs, Option.some.injEq, Prod.mk.injEq] at h
      rw [← h.1, ← h.2, List.append_assoc, ← eq_of_stripFront hs]

/-- The parts of a cut, with the needle between them, are the text. -/
theorem eq_of_cut {needle cs front rest : List Char} (h : cut needle cs = some (front, rest)) :
    cs = front ++ needle ++ rest := by
  simpa using eq_of_cutFrom h

theorem intercalate_piecesWithin (separator : List Char) (bound : Nat) (cs : List Char) :
    separator.intercalate (piecesWithin separator bound cs) = cs := by
  induction bound generalizing cs with
  | zero => simp [piecesWithin, List.intercalate]
  | succ bound ih =>
    simp only [piecesWithin]
    cases h : cut separator cs with
    | none => simp [List.intercalate]
    | some parts =>
      obtain ⟨piece, rest⟩ := parts
      have hne : piecesWithin separator bound rest ≠ [] := by
        cases bound with
        | zero => simp [piecesWithin]
        | succ n => simp only [piecesWithin]; split <;> simp
      obtain ⟨p, ps, hps⟩ := List.exists_cons_of_ne_nil hne
      have hi := ih rest
      rw [hps] at hi
      simp only [hps]
      rw [eq_of_cut h]
      simp only [List.intercalate, List.intersperse, List.flatten_cons] at hi ⊢
      rw [hi]
      simp

/-- The pieces, with the separator between them, are the text. -/
theorem intercalate_pieces (separator cs : List Char) :
    separator.intercalate (pieces separator cs) = cs :=
  intercalate_piecesWithin separator cs.length cs

end Stencil.Text
