/-!
# Blanks

A blank is a character with the Unicode property `White_Space`.  Markers, routine source and data
texts all leave blanks aside by this one class, so the class and the three ways of trimming live
here:

* `isBlank` — the class itself;
* `trimStart`, `trimEnd`, `trim` — a list of characters without its outer blanks;
* `trimText` — the same on a text.
-/

namespace Stencil.Text

/-- The characters with the property `White_Space`. -/
def isBlank (c : Char) : Bool :=
  let n := c.toNat
  if n < 128 then n == 32 || (9 ≤ n && n ≤ 13)
  else n == 0x85 || n == 0xA0 || n == 0x1680 || (0x2000 ≤ n && n ≤ 0x200A)
    || n == 0x2028 || n == 0x2029 || n == 0x202F || n == 0x205F || n == 0x3000

/-- The characters without the blanks in front. -/
def trimStart (cs : List Char) : List Char := cs.dropWhile isBlank

/-- The characters without the blanks at the end. -/
def trimEnd (cs : List Char) : List Char := (cs.reverse.dropWhile isBlank).reverse

/-- The characters without the blanks on either side. -/
def trim (cs : List Char) : List Char := trimEnd (trimStart cs)

/-- A text without the blanks on either side. -/
def trimText (s : String) : String := String.ofList (trim s.toList)

/-- Core's blanks are blanks here too. -/
theorem isBlank_of_isWhitespace {c : Char} (h : c.isWhitespace = true) : isBlank c = true := by
  simp only [Char.isWhitespace, Bool.or_eq_true, decide_eq_true_eq] at h
  rcases h with ((h | h) | h) | h <;> subst h <;> decide

/-- What `trimStart` leaves does not begin with a blank. -/
theorem head_trimStart_not_blank {cs : List Char} {c : Char} (h : (trimStart cs).head? = some c) :
    isBlank c = false := by
  induction cs with
  | nil => simp [trimStart] at h
  | cons d ds ih =>
    by_cases hd : isBlank d = true
    · exact ih (by simpa [trimStart, hd] using h)
    · simp only [trimStart, List.dropWhile, hd, List.head?_cons, Option.some.injEq] at h
      subst h
      simpa using hd

/-- A text that begins with no blank is left alone at its start. -/
theorem trimStart_of_not_blank {c : Char} {cs : List Char} (h : isBlank c = false) :
    trimStart (c :: cs) = c :: cs := by
  simp [trimStart, h]

end Stencil.Text
