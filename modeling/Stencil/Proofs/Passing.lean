import Mathlib.Data.List.TakeWhile
import Stencil.Proofs.Spelling
import Stencil.Routine.Lexer

/-!
# What the lexer passes over

Each part of the lexer takes characters from the front of what is left, and counts the line ends
among them.

* `Passes` — a stretch that is passed over, with its line ends counted;
* `skipComment_passes`, `readString_passes` — comments and strings, which may span lines;
* `numberSpan_append_self`, `eq_of_punctuator?` — numbers and signs, which do not;
* `stepCase` — what a step can be;
* `StepCase.passes` — what a step passes over behind its character;
* `length_step` — every step takes characters, so that the bound of the lexer is never missed.
-/

namespace Stencil.Routine

open Stencil.Text

/-! ### Stretches that are passed over -/

/-- What stands between `cs` and `rest` leads from one line to the other. -/
def Passes (line : Nat) (cs : List Char) (last : Nat) (rest : List Char) : Prop :=
  ∃ used, cs = used ++ rest ∧ last = line + used.count '\n'

namespace Passes

variable {line last : Nat} {cs rest : List Char}

theorem refl (line : Nat) (cs : List Char) : Passes line cs line cs := ⟨[], rfl, rfl⟩

theorem trans {last' : Nat} {rest' : List Char} (h : Passes line cs last rest)
    (h' : Passes last rest last' rest') : Passes line cs last' rest' := by
  obtain ⟨used, rfl, rfl⟩ := h
  obtain ⟨used', rfl, rfl⟩ := h'
  refine ⟨used ++ used', ?_, ?_⟩
  · rw [List.append_assoc]
  · rw [List.count_append, Nat.add_assoc]

/-- A stretch without line ends stays on its line. -/
theorem of_notMem {used : List Char} (h : '\n' ∉ used) (line : Nat) (rest : List Char) :
    Passes line (used ++ rest) line rest :=
  ⟨used, rfl, by rw [List.count_eq_zero_of_not_mem h, Nat.add_zero]⟩

/-- A character in front of a stretch. -/
theorem cons {c : Char} (h : Passes (if c = '\n' then line + 1 else line) cs last rest) :
    Passes line (c :: cs) last rest := by
  obtain ⟨used, rfl, rfl⟩ := h
  refine ⟨c :: used, rfl, ?_⟩
  simp only [List.count_cons, beq_iff_eq]
  split <;> omega

theorem newline (line : Nat) (rest : List Char) : Passes line ('\n' :: rest) (line + 1) rest :=
  .cons (.refl _ _)

/-- A character that ends no line. -/
theorem char {c : Char} (h : c ≠ '\n') (line : Nat) (rest : List Char) :
    Passes line (c :: rest) line rest :=
  of_notMem (show '\n' ∉ [c] by simpa using h.symm) line rest

/-- What satisfies a test that no line end satisfies. -/
theorem dropWhile {p : Char → Bool} (h : p '\n' = false) (line : Nat) (cs : List Char) :
    Passes line cs line (cs.dropWhile p) := by
  have hnot : '\n' ∉ cs.takeWhile p := by
    intro hmem
    rw [List.mem_takeWhile_imp hmem] at h
    cases h
  have hpass := of_notMem hnot line (cs.dropWhile p)
  rw [List.takeWhile_append_dropWhile] at hpass
  exact hpass

theorem length_le (h : Passes line cs last rest) : rest.length ≤ cs.length := by
  obtain ⟨used, rfl, -⟩ := h
  rw [List.length_append]
  exact Nat.le_add_left _ _

theorem line_le (h : Passes line cs last rest) : line ≤ last := by
  obtain ⟨used, -, rfl⟩ := h
  exact Nat.le_add_right _ _

end Passes

/-! ### Comments -/

theorem skipComment_passes {line last : Nat} {cs rest : List Char}
    (h : skipComment line cs = .ok (last, rest)) : Passes line cs last rest := by
  fun_induction skipComment line cs with
  | case1 => cases h
  | case2 =>
    cases h
    exact .of_notMem (show '\n' ∉ ['*', '/'] by decide) _ _
  | case3 line c cs _ ih => exact .cons (ih h)

/-! ### Strings -/

/-- A number ends no line. -/
theorem notMem_of_hexNumber? {digits : List Char} {n : Nat} (h : hexNumber? digits = some n) :
    '\n' ∉ digits := by
  have hnone {cs : List Char} (h : digitsValue? 16 cs = some n) : '\n' ∉ cs := fun hmem =>
    absurd (Json.toNat_of_digitsValue? h '\n' hmem).1 (by decide)
  rw [hexNumber?.eq_def] at h
  split at h
  · rw [List.mem_cons, not_or]
    exact ⟨by decide, hnone h⟩
  · exact hnone h

/-- Four digits end no line. -/
theorem hexFour?_passes {cs : List Char} {n : Nat} (h : hexFour? cs = some n) (line : Nat) :
    Passes line cs line (cs.drop 4) := by
  rw [hexFour?] at h
  split at h
  · cases h
  · have hpass := Passes.of_notMem (notMem_of_hexNumber? h) line (cs.drop 4)
    rw [List.take_append_drop] at hpass
    exact hpass

/-- A numbered escape ends no line. -/
theorem readNumbered_passes {cs rest : List Char} {c : Char}
    (h : readNumbered cs = some (c, rest)) (line : Nat) : Passes line cs line rest := by
  unfold readNumbered at h
  split at h
  · rename_i cs
    cases hcut : cut ['\x7d'] cs with
    | none => simp [hcut] at h
    | some parts =>
      obtain ⟨digits, behind⟩ := parts
      simp only [hcut] at h
      split at h
      · cases h
      · rename_i hdigits
        split at h
        · have hnot : '\n' ∉ '\x7b' :: (digits ++ ['\x7d']) := by
            simp [notMem_of_hexNumber? hdigits]
          simp only [Option.some.injEq, Prod.mk.injEq] at h
          rw [eq_of_cut hcut, ← h.2]
          exact Passes.of_notMem hnot line behind
        · cases h
  · split at h
    · cases h
    · rename_i hhigh
      have hfour := hexFour?_passes hhigh line
      dsimp only at h
      split at h
      · split at h
        · rename_i hlow
          simp only [Option.some.injEq, Prod.mk.injEq] at h
          rw [← h.2]
          refine hfour.trans ?_
          rw [trailing?.eq_def] at hlow
          split at hlow
          · rename_i behind heq
            rw [heq]
            obtain ⟨hbehind, -⟩ := Option.filter_eq_some_iff.mp hlow
            exact (Passes.of_notMem (show '\n' ∉ ['\\', 'u'] by decide) line behind).trans
              (hexFour?_passes hbehind line)
          · cases hlow
        · cases h
          exact hfour
      · cases h
        exact hfour

theorem readString_passes {quote : Char} {bound line last : Nat} {seen cs rest : List Char}
    {s : String} (h : readString quote bound line seen cs = .ok (s, last, rest))
    (hquote : quote ≠ '\n') : Passes line cs last rest := by
  induction bound generalizing line seen cs with
  | zero => cases h
  | succ bound ih =>
    cases cs with
    | nil => cases h
    | cons c cs =>
      unfold readString at h
      split at h
      · rename_i hc
        cases h
        rw [hc]
        exact .char hquote _ _
      split at h
      · rename_i hc
        subst hc
        split at h
        · exact (Passes.newline line cs).trans (ih h)
        · cases h
      rename_i hnewline
      have hchar := Passes.char hnewline line cs
      split at h
      · refine hchar.trans ?_
        split at h
        · cases h
        · rename_i behind
          split at h
          · rename_i hnumbered
            exact (Passes.char (by decide) line behind).trans
              ((readNumbered_passes hnumbered line).trans (ih h))
          · cases h
        · rename_i behind
          exact (Passes.newline line behind).trans (ih h)
        · rename_i d behind _ hd
          exact (Passes.char (fun heq => hd (by rw [heq])) line behind).trans (ih h)
      · exact hchar.trans (ih h)

/-! ### Numbers and signs -/

theorem exponentSpan_append_self (cs : List Char) :
    (exponentSpan cs).1 ++ (exponentSpan cs).2 = cs ∧ '\n' ∉ (exponentSpan cs).1 := by
  have hdigits (cs : List Char) : '\n' ∉ cs.takeWhile Decimal.isDigit := by
    intro hmem
    exact absurd (List.mem_takeWhile_imp hmem) (by decide)
  unfold exponentSpan
  split
  · exact ⟨rfl, List.not_mem_nil⟩
  · rename_i e cs
    split
    · rename_i he
      have hne : '\n' ≠ e := by
        rintro rfl
        exact absurd he (by decide)
      split
      · exact ⟨rfl, by simpa using hne⟩
      · rename_i s ds
        split
        · rename_i hs
          have hsign : '\n' ≠ s := by
            rintro rfl
            exact absurd hs (by decide)
          refine ⟨?_, ?_⟩
          · rw [List.cons_append, List.cons_append, List.takeWhile_append_dropWhile]
          · simp only [List.mem_cons, not_or]
            exact ⟨hne, hsign, hdigits ds⟩
        · refine ⟨?_, ?_⟩
          · rw [List.cons_append, List.takeWhile_append_dropWhile]
          · rw [List.mem_cons, not_or]
            exact ⟨hne, hdigits (s :: ds)⟩
    · exact ⟨rfl, List.not_mem_nil⟩

/-- A number and what follows it are the text, and no line ends in a number. -/
theorem numberSpan_append_self (cs : List Char) :
    (numberSpan cs).1 ++ (numberSpan cs).2 = cs ∧ '\n' ∉ (numberSpan cs).1 := by
  obtain ⟨heq, hnot⟩ := exponentSpan_append_self (cs.dropWhile isNumberPart)
  refine ⟨?_, ?_⟩
  · show cs.takeWhile isNumberPart ++ (exponentSpan (cs.dropWhile isNumberPart)).1
      ++ (exponentSpan (cs.dropWhile isNumberPart)).2 = cs
    rw [List.append_assoc, heq, List.takeWhile_append_dropWhile]
  · show '\n' ∉ cs.takeWhile isNumberPart ++ (exponentSpan (cs.dropWhile isNumberPart)).1
    rw [List.mem_append, not_or]
    exact ⟨fun hmem => absurd (List.mem_takeWhile_imp hmem) (by decide), hnot⟩

/-- A sign that is found stands at the front of the text. -/
theorem eq_of_punctuator? {cs rest : List Char} {p : Punctuator}
    (h : punctuator? cs = some (p, rest)) : cs = p.spelling ++ rest := by
  rw [punctuator?] at h
  split at h
  · cases h
  · rename_i hfind
    have hstarts := List.find?_some hfind
    obtain ⟨behind, hbehind⟩ := Option.isSome_iff_exists.mp hstarts
    have heq := eq_of_stripFront hbehind
    split at h <;> cases h <;> rw [heq] <;> rfl
  · rename_i q _ hfind
    have hstarts := List.find?_some hfind
    obtain ⟨behind, hbehind⟩ := Option.isSome_iff_exists.mp hstarts
    have heq := eq_of_stripFront hbehind
    cases h
    rw [heq, List.drop_left]

/-- A number takes the character it begins with. -/
theorem numberSpan_passes {c : Char} {cs : List Char} (h : startsNumber (c :: cs) = true)
    (line : Nat) : c ≠ '\n' ∧ Passes line cs line (numberSpan (c :: cs)).2 := by
  have hpart : isNumberPart c = true := by
    unfold startsNumber at h
    unfold isNumberPart
    split at h
    · rename_i heq
      cases heq
      rfl
    · rename_i heq
      cases heq
      rw [h, Bool.true_or]
    · cases h
  obtain ⟨heq, hnot⟩ := numberSpan_append_self (c :: cs)
  have hfront : (numberSpan (c :: cs)).1 = c :: (numberSpan (c :: cs)).1.tail := by
    rw [numberSpan, List.takeWhile_cons_of_pos hpart]
    rfl
  rw [hfront, List.cons_append, List.cons.injEq] at heq
  rw [hfront, List.mem_cons, not_or] at hnot
  have hpass := Passes.of_notMem hnot.2 line (numberSpan (c :: cs)).2
  rw [heq.2] at hpass
  exact ⟨Ne.symm hnot.1, hpass⟩

/-- A sign takes the character it begins with. -/
theorem punctuator?_passes {c : Char} {cs rest : List Char} {p : Punctuator}
    (h : punctuator? (c :: cs) = some (p, rest)) (line : Nat) :
    c ≠ '\n' ∧ Passes line cs line rest := by
  have hnot : '\n' ∉ p.spelling := by cases p <;> decide
  have heq := eq_of_punctuator? h
  cases hp : p.spelling with
  | nil => exact absurd hp p.spelling_ne_nil
  | cons e es =>
    rw [hp] at heq hnot
    rw [List.mem_cons, not_or] at hnot
    cases heq
    exact ⟨Ne.symm hnot.1, .of_notMem hnot.2 line rest⟩

theorem startsWith_cons (d c : Char) (ds cs : List Char) :
    startsWith (d :: ds) (c :: cs) = (decide (d = c) && startsWith ds cs) := by
  rw [startsWith, stripFront]
  split
  · rename_i h
    rw [decide_eq_true h]
    rfl
  · rename_i h
    rw [decide_eq_false h]
    rfl

/-! ### Steps -/

/-- What a step at a character can be. -/
inductive StepCase (line : Nat) (c : Char) (cs : List Char) : Step → Prop
  | newline (h : c = '\n') : StepCase line c cs ⟨none, line + 1, cs⟩
  | blank (h : c ≠ '\n') : StepCase line c cs ⟨none, line, cs⟩
  | lineComment (h : startsWith ['/', '/'] (c :: cs) = true) :
      StepCase line c cs ⟨none, line, cs.dropWhile (· != '\n')⟩
  | spanComment {last : Nat} {rest : List Char}
      (h : skipComment line (cs.drop 1) = .ok (last, rest))
      (hopens : startsWith ['/', '*'] (c :: cs) = true) : StepCase line c cs ⟨none, last, rest⟩
  | number {x : Float} (h : startsNumber (c :: cs) = true)
      (hx : Decimal.readChars? (numberSpan (c :: cs)).1 = some x) :
      StepCase line c cs ⟨some ⟨.number x, line⟩, line, (numberSpan (c :: cs)).2⟩
  | text {s : String} {last : Nat} {rest : List Char}
      (h : readString c (cs.length + 1) line [] cs = .ok (s, last, rest))
      (hquote : c = '"' ∨ c = '\'' ∨ c = Char.ofNat 96) :
      StepCase line c cs ⟨some ⟨.text s, line⟩, last, rest⟩
  | name (h : startsName c = true) :
      StepCase line c cs ⟨some ⟨.name (String.ofList (c :: cs.takeWhile continuesName)), line⟩,
        line, cs.dropWhile continuesName⟩
  | sign {p : Punctuator} {rest : List Char} (h : punctuator? (c :: cs) = some (p, rest)) :
      StepCase line c cs ⟨some ⟨.sign p, line⟩, line, rest⟩

theorem stepCase {line : Nat} {c : Char} {cs : List Char} {found : Step}
    (h : step line c cs = .ok found) : StepCase line c cs found := by
  unfold step at h
  split at h
  · rename_i hnewline
    cases h
    exact .newline hnewline
  rename_i hnewline
  split at h
  · cases h
    exact .blank hnewline
  split at h
  · rename_i hopens
    cases h
    exact .lineComment hopens
  split at h
  · rename_i hopens
    cases hskip : skipComment line (cs.drop 1) with
    | error e =>
      rw [hskip] at h
      cases h
    | ok result =>
      rw [hskip] at h
      cases h
      exact .spanComment hskip hopens
  split at h
  · rename_i hnumber
    dsimp only at h
    split at h
    · rename_i hx
      cases h
      exact .number hnumber hx
    · cases h
  split at h
  · rename_i hquote
    cases hread : readString c (cs.length + 1) line [] cs with
    | error e =>
      rw [hread] at h
      cases h
    | ok result =>
      rw [hread] at h
      cases h
      exact .text hread hquote
  split at h
  · rename_i hname
    cases h
    exact .name hname
  split at h
  · rename_i hsign
    cases h
    exact .sign hsign
  · cases h

/-- Behind its character, every step passes over what it takes. -/
theorem StepCase.passes {line : Nat} {c : Char} {cs : List Char} {found : Step}
    (h : StepCase line c cs found) :
    Passes (if c = '\n' then line + 1 else line) cs found.line found.rest := by
  cases h with
  | newline hc =>
    rw [if_pos hc]
    exact .refl _ _
  | blank hc =>
    rw [if_neg hc]
    exact .refl _ _
  | lineComment hopens =>
    rw [startsWith_cons, Bool.and_eq_true, decide_eq_true_eq] at hopens
    rw [← hopens.1]
    exact .dropWhile (by decide) line cs
  | spanComment hskip hopens =>
    cases cs with
    | nil =>
      rw [startsWith_cons, Bool.and_eq_true] at hopens
      cases hopens.2
    | cons e cs =>
      rw [startsWith_cons, startsWith_cons, Bool.and_eq_true, Bool.and_eq_true, decide_eq_true_eq,
        decide_eq_true_eq] at hopens
      obtain ⟨rfl, rfl, -⟩ := hopens
      exact .cons (skipComment_passes hskip)
  | number hstarts _ =>
    obtain ⟨hne, hpass⟩ := numberSpan_passes hstarts line
    rw [if_neg hne]
    exact hpass
  | text hread hquote =>
    have hne : c ≠ '\n' := by
      rintro rfl
      exact absurd hquote (by decide)
    rw [if_neg hne]
    exact readString_passes hread hne
  | name hname =>
    have hne : c ≠ '\n' := by
      rintro rfl
      exact absurd hname (by decide)
    rw [if_neg hne]
    exact .dropWhile (by decide) line cs
  | sign hsign =>
    obtain ⟨hne, hpass⟩ := punctuator?_passes hsign line
    rw [if_neg hne]
    exact hpass

/-- A token stands on the line of its step. -/
theorem StepCase.line_token {line : Nat} {c : Char} {cs : List Char} {found : Step}
    (h : StepCase line c cs found) : ∀ token ∈ found.token, token.line = line := by
  cases h <;> rintro token ⟨⟩ <;> rfl

/-- A step takes the character at its place, and leaves no more than what stands behind. -/
theorem length_step {line : Nat} {c : Char} {cs : List Char} {found : Step}
    (h : step line c cs = .ok found) : found.rest.length ≤ cs.length :=
  (stepCase h).passes.length_le

end Stencil.Routine
