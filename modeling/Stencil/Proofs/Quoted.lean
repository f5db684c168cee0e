import Mathlib.Data.Nat.Digits.Defs
import Stencil.Proofs.Lexing
import Stencil.Proofs.Marks

/-!
# The strings of a routine

A string of a routine is a row of pieces between two quotes: characters that stand for themselves,
escapes of one letter and numbered escapes.  The lexer accepts exactly these rows, and a numbered
escape exactly in the forms told here.

* `HexNumber`, `hexNumber?_eq_some_iff` — the digits of a number, with a plus in front or without;
* `NumberForm`, `Numbered` — what can follow the `\u` of an escape;
* `forms_of_readNumbered`, `readNumbered_eq_none_iff` — reading accepts what begins with a form;
* `Piece`, `Contents`, `Halts` — the pieces of a string and where they end;
* `parts_readString` — reading a string finds its pieces;
* `lex_quoted` — which strings are tokens and which fail for an escape.
-/

namespace Stencil.Routine

open Stencil.Text

/-! ### Hexadecimal numbers -/

/-- The hexadecimal digits and what they are worth. -/
def digitWorths : List (Char × Nat) :=
  [('0', 0), ('1', 1), ('2', 2), ('3', 3), ('4', 4), ('5', 5), ('6', 6), ('7', 7), ('8', 8),
    ('9', 9), ('a', 10), ('b', 11), ('c', 12), ('d', 13), ('e', 14), ('f', 15), ('A', 10),
    ('B', 11), ('C', 12), ('D', 13), ('E', 14), ('F', 15)]

/-- One or more hexadecimal digits and the number they write. -/
def HexNumber (digits : List Char) (n : Nat) : Prop :=
  digits ≠ [] ∧ ∃ worths, List.Forall₂ (fun c d => (c, d) ∈ digitWorths) digits worths
    ∧ n = Nat.ofDigits 16 worths.reverse

theorem digitOf?_sixteen_iff {c : Char} {d : Nat} :
    digitOf? 16 c = some d ↔ (c, d) ∈ digitWorths := by
  constructor
  · intro h
    have hall : ∀ n < 123, ∀ d ∈ digitOf? 16 (Char.ofNat n), (Char.ofNat n, d) ∈ digitWorths := by
      decide
    have hrange := (Json.toNat_of_digitOf? h).2
    have hmem := hall c.toNat (by omega) d
    rw [Char.ofNat_toNat] at hmem
    exact hmem h
  · have hall : ∀ p ∈ digitWorths, digitOf? 16 p.1 = some p.2 := by decide
    exact hall (c, d)

/-- The digits behind those of `n`. -/
theorem digitsAfter_sixteen_iff {n m : Nat} {cs : List Char} :
    digitsAfter 16 n cs = some m
      ↔ ∃ worths, List.Forall₂ (fun c d => (c, d) ∈ digitWorths) cs worths
        ∧ m = Nat.ofDigits 16 (worths.reverse ++ [n]) := by
  induction cs generalizing n with
  | nil =>
    simp only [digitsAfter, Option.some.injEq, List.forall₂_nil_left_iff, exists_eq_left,
      List.reverse_nil, List.nil_append, Nat.ofDigits_singleton, eq_comm]
  | cons c cs ih =>
    have hstep (d : Nat) (worths : List Nat) :
        Nat.ofDigits 16 (worths.reverse ++ [n * 16 + d])
          = Nat.ofDigits 16 ((d :: worths).reverse ++ [n]) := by
      rw [List.reverse_cons, List.append_assoc, Nat.ofDigits_append, Nat.ofDigits_append,
        Nat.ofDigits_singleton]
      show _ = _ + _ * Nat.ofDigits 16 [d, n]
      rw [Nat.ofDigits_cons, Nat.ofDigits_singleton, Nat.mul_comm n, Nat.add_comm (16 * n)]
    rw [digitsAfter]
    constructor
    · intro h
      cases hdigit : digitOf? 16 c with
      | none => simp only [hdigit, reduceCtorEq] at h
      | some d =>
        simp only [hdigit, ih] at h
        obtain ⟨worths, hworths, rfl⟩ := h
        exact ⟨d :: worths, .cons (digitOf?_sixteen_iff.mp hdigit) hworths, hstep d worths⟩
    · rintro ⟨worths, hworths, rfl⟩
      obtain ⟨d, worths, hdigit, hrest, rfl⟩ := List.forall₂_cons_left_iff.mp hworths
      simp only [digitOf?_sixteen_iff.mpr hdigit, ih]
      exact ⟨worths, hrest, (hstep d worths).symm⟩

theorem digitsValue?_sixteen_iff {cs : List Char} {n : Nat} :
    digitsValue? 16 cs = some n ↔ HexNumber cs n := by
  have hzero (worths : List Nat) :
      Nat.ofDigits 16 (worths.reverse ++ [0]) = Nat.ofDigits 16 worths.reverse := by
    rw [Nat.ofDigits_append, Nat.ofDigits_singleton, Nat.mul_zero, Nat.add_zero]
  rw [digitsValue?, HexNumber]
  cases cs with
  | nil => simp
  | cons c cs =>
    rw [List.isEmpty_cons, if_neg Bool.false_ne_true, digitsAfter_sixteen_iff]
    simp only [hzero, ne_eq, reduceCtorEq, not_false_eq_true, true_and]

/-- What may stand in front of the digits. -/
def numberSigns : List (List Char) := [[], ['+']]

theorem hexNumber?_eq_some_iff {cs : List Char} {n : Nat} :
    hexNumber? cs = some n ↔ ∃ sign ∈ numberSigns, ∃ digits, cs = sign ++ digits
      ∧ HexNumber digits n := by
  simp only [numberSigns, List.mem_cons, List.not_mem_nil, or_false, exists_eq_or_imp,
    exists_eq_left, List.nil_append, List.cons_append, ← digitsValue?_sixteen_iff]
  rw [hexNumber?.eq_def]
  split
  · rename_i rest
    -- A plus is no digit, so it is the sign.
    have hplus : digitsValue? 16 ('+' :: rest) = none := rfl
    simp [hplus]
  · rename_i hne
    constructor
    · exact fun h => .inl ⟨cs, rfl, h⟩
    · rintro (⟨digits, rfl, h⟩ | ⟨digits, rfl, -⟩)
      · exact h
      · exact absurd rfl (hne digits)

theorem toNat_of_hexNumber? {cs : List Char} {n : Nat} (h : hexNumber? cs = some n) {c : Char}
    (hc : c ∈ cs) : 43 ≤ c.toNat ∧ c.toNat ≤ 122 := by
  obtain ⟨sign, hsign, digits, rfl, hdigits⟩ := hexNumber?_eq_some_iff.mp h
  rw [List.mem_append] at hc
  rcases hc with hc | hc
  · simp only [numberSigns, List.mem_cons, List.not_mem_nil, or_false] at hsign
    rcases hsign with rfl | rfl
    · cases hc
    · obtain rfl := List.mem_singleton.mp hc
      decide
  · have hrange := Json.toNat_of_digitsValue? (digitsValue?_sixteen_iff.mpr hdigits) c hc
    omega

/-! ### Numbered escapes -/

/-- What stands behind the `\u` of a numbered escape, with a sign in front of the digits: four
characters, or between braces the number of a character. -/
inductive NumberForm (sign : List Char) : List Char → Prop
  | four {digits : List Char} {n : Nat} (h : HexNumber digits n)
      (hlength : (sign ++ digits).length = 4) : NumberForm sign (sign ++ digits)
  | braced {digits : List Char} {n : Nat} (h : HexNumber digits n) (hchar : n.isValidChar) :
      NumberForm sign ('\x7b' :: (sign ++ digits ++ ['\x7d']))

/-- What stands behind the `\u` of a numbered escape. -/
def Numbered (escape : List Char) : Prop := ∃ sign ∈ numberSigns, NumberForm sign escape

/-- Whether a text that follows a `\u` begins with the rest of the escape. -/
def BeginsNumbered (more : List Char) : Prop := ∃ escape, Numbered escape ∧ escape <+: more

theorem numbered_iff {escape : List Char} :
    Numbered escape ↔ (escape.length = 4 ∧ ∃ n, hexNumber? escape = some n)
      ∨ ∃ cs n, escape = '\x7b' :: (cs ++ ['\x7d']) ∧ hexNumber? cs = some n ∧ n.isValidChar := by
  simp only [hexNumber?_eq_some_iff]
  constructor
  · rintro ⟨sign, hsign, h | h⟩
    · exact .inl ⟨‹_›, _, sign, hsign, _, rfl, h⟩
    · exact .inr ⟨_, _, rfl, ⟨sign, hsign, _, rfl, h⟩, ‹_›⟩
  · rintro (⟨hlength, n, sign, hsign, digits, rfl, h⟩
      | ⟨_, n, rfl, ⟨sign, hsign, digits, rfl, h⟩, hchar⟩)
    · exact ⟨sign, hsign, .four h hlength⟩
    · exact ⟨sign, hsign, .braced h hchar⟩

theorem isScalar_iff {n : Nat} : isScalar n = true ↔ n.isValidChar := by
  rw [isScalar, Bool.or_eq_true, Bool.and_eq_true, decide_eq_true_eq, decide_eq_true_eq,
    decide_eq_true_eq]

/-- A number does not begin with a brace. -/
theorem append_ne_brace {cs : List Char} {n : Nat} (h : hexNumber? cs = some n)
    (rest inner : List Char) : cs ++ rest ≠ '\x7b' :: inner := by
  intro heq
  cases cs with
  | nil => cases h
  | cons c cs =>
    rw [List.cons_append, List.cons.injEq] at heq
    exact absurd (toNat_of_hexNumber? h List.mem_cons_self).2 (heq.1 ▸ by decide)

/-- The brace at the end of a number is the first one behind its front. -/
theorem cut_brace {cs : List Char} {n : Nat} (h : hexNumber? cs = some n) (rest : List Char) :
    cut ['\x7d'] (cs ++ '\x7d' :: rest) = some (cs, rest) := by
  have hnotMem : '\x7d' ∉ cs := fun hmem => absurd (toNat_of_hexNumber? h hmem).2 (by decide)
  have hhere : cut ['\x7d'] ('\x7d' :: rest) = some ([], rest) := cut_of_stripFront rfl
  rw [cut_of_notMem hnotMem, hhere]
  exact congrArg some (Prod.ext (List.append_nil cs) rfl)

theorem hexFour?_eq_some_iff {cs : List Char} {n : Nat} :
    hexFour? cs = some n ↔ ∃ escape rest, cs = escape ++ rest ∧ escape.length = 4
      ∧ hexNumber? escape = some n := by
  rw [hexFour?]
  constructor
  · intro h
    split at h
    · cases h
    · exact ⟨cs.take 4, cs.drop 4, (List.take_append_drop 4 cs).symm,
        List.length_take_of_le (by omega), h⟩
  · rintro ⟨escape, rest, rfl, hlength, h⟩
    rw [if_neg (by rw [List.length_append]; omega), ← hlength, List.take_left]
    exact h

/-- What begins with the form of an escape is read. -/
theorem exists_readNumbered {escape : List Char} (h : Numbered escape) (rest : List Char) :
    ∃ found, readNumbered (escape ++ rest) = some found := by
  rcases numbered_iff.mp h with ⟨hlength, n, hn⟩ | ⟨cs, n, rfl, hn, hchar⟩
  · have hfour := hexFour?_eq_some_iff.mpr ⟨escape, rest, rfl, hlength, hn⟩
    rw [readNumbered]
    · simp only [hfour]
      split
      · split <;> exact ⟨_, rfl⟩
      · exact ⟨_, rfl⟩
    · exact fun inner heq => append_ne_brace hn rest inner heq
  · rw [List.cons_append, List.append_assoc, readNumbered]
    simp only [List.cons_append, List.nil_append, cut_brace hn, hn, isScalar_iff.mpr hchar, if_true]
    exact ⟨_, rfl⟩

/-- What is read begins with the form of an escape, or with two of them. -/
theorem forms_of_readNumbered {cs rest : List Char} {c : Char}
    (h : readNumbered cs = some (c, rest)) :
    ∃ escape, Numbered escape ∧ (cs = escape ++ rest
      ∨ ∃ low, Numbered low ∧ cs = escape ++ '\\' :: 'u' :: (low ++ rest)) := by
  rw [readNumbered.eq_def] at h
  split at h
  · split at h
    · cases h
    · rename_i digits tail hcut
      split at h
      · cases h
      · rename_i n hn
        split at h
        · rename_i hscalar
          cases h
          refine ⟨_, numbered_iff.mpr (.inr ⟨digits, n, rfl, hn, isScalar_iff.mp hscalar⟩), .inl ?_⟩
          rw [eq_of_cut hcut, List.cons_append]
        · cases h
  · split at h
    · cases h
    · rename_i high hhigh
      obtain ⟨escape, tail, rfl, hlength, hn⟩ := hexFour?_eq_some_iff.mp hhigh
      have hdrop : (escape ++ tail).drop 4 = tail := by rw [← hlength, List.drop_left]
      refine ⟨escape, numbered_iff.mpr (.inl ⟨hlength, high, hn⟩), ?_⟩
      simp only [hdrop] at h
      split at h
      · split at h
        · rename_i low hlow
          rw [trailing?.eq_def] at hlow
          split at hlow
          · -- The second half of a pair is a form of its own.
            obtain ⟨hfour, -⟩ := Option.filter_eq_some_iff.mp hlow
            obtain ⟨behind, after, rfl, hlength', hn'⟩ := hexFour?_eq_some_iff.mp hfour
            have hbehind : ('\\' :: 'u' :: (behind ++ after)).drop 6 = after := by
              show (behind ++ after).drop 4 = after
              rw [← hlength', List.drop_left]
            rw [hbehind, Option.some.injEq, Prod.mk.injEq] at h
            rw [← h.2]
            exact .inr ⟨behind, numbered_iff.mpr (.inl ⟨hlength', low, hn'⟩), rfl⟩
          · cases hlow
        · cases h
          exact .inl rfl
      · cases h
        exact .inl rfl

theorem readNumbered_eq_none_iff {more : List Char} :
    readNumbered more = none ↔ ¬ BeginsNumbered more := by
  constructor
  · rintro hnone ⟨escape, hescape, rest, rfl⟩
    obtain ⟨found, hfound⟩ := exists_readNumbered hescape rest
    rw [hnone] at hfound
    cases hfound
  · intro hbegins
    cases hfound : readNumbered more with
    | none => rfl
    | some found =>
      obtain ⟨escape, hescape, rfl | ⟨low, -, rfl⟩⟩ := forms_of_readNumbered hfound
      · exact absurd ⟨escape, hescape, List.prefix_append _ _⟩ hbegins
      · exact absurd ⟨escape, hescape, List.prefix_append _ _⟩ hbegins

/-- A text begins with at most one form. -/
theorem Numbered.eq_of_prefix {escape escape' more : List Char} (h : Numbered escape)
    (h' : Numbered escape') (hmore : escape <+: more) (hmore' : escape' <+: more) :
    escape = escape' := by
  obtain ⟨rest, rfl⟩ := hmore
  obtain ⟨rest', heq⟩ := hmore'
  rcases numbered_iff.mp h with ⟨hlength, n, hn⟩ | ⟨cs, n, rfl, hn, -⟩ <;>
    rcases numbered_iff.mp h' with ⟨hlength', n', hn'⟩ | ⟨cs', n', rfl, hn', -⟩
  · exact (List.append_inj_left heq (hlength'.trans hlength.symm)).symm
  · exact absurd heq.symm (append_ne_brace hn rest _)
  · exact absurd heq (append_ne_brace hn' rest' _)
  · have htails : cs' ++ '\x7d' :: rest' = cs ++ '\x7d' :: rest := by
      simpa using heq
    have hcut := cut_brace hn rest
    rw [← htails, cut_brace hn' rest'] at hcut
    cases hcut
    rfl

/-- Without a plus there is only the form without a sign. -/
theorem beginsNumbered_iff {more : List Char}
    (hplus : ∀ rest, more ≠ '+' :: rest ∧ more ≠ '\x7b' :: '+' :: rest) :
    BeginsNumbered more ↔ ∃ escape, NumberForm [] escape ∧ escape <+: more := by
  constructor
  · rintro ⟨escape, ⟨sign, hsign, hform⟩, rest, rfl⟩
    simp only [numberSigns, List.mem_cons, List.not_mem_nil, or_false] at hsign
    rcases hsign with rfl | rfl
    · exact ⟨escape, hform, List.prefix_append _ _⟩
    · cases hform with
      | four => exact absurd rfl (hplus _).1
      | braced => exact absurd rfl (hplus _).2
  · rintro ⟨escape, hform, hmore⟩
    exact ⟨escape, ⟨[], List.mem_cons_self, hform⟩, hmore⟩

theorem Numbered.newline_notMem {escape : List Char} (h : Numbered escape) : '\n' ∉ escape := by
  rcases numbered_iff.mp h with ⟨-, n, hn⟩ | ⟨cs, n, rfl, hn, -⟩
  · exact notMem_of_hexNumber? hn
  · simp [notMem_of_hexNumber? hn]

/-! ### The pieces of a string -/

/-- The quotes that open a string. -/
def quotes : List Char := ['"', '\'', Char.ofNat 96]

/-- A piece of a string between two of the quotes. -/
inductive Piece (quote : Char) : List Char → Prop
  | plain {c : Char} (hquote : c ≠ quote) (hslash : c ≠ '\\')
      (hline : c = '\n' → quote = Char.ofNat 96) : Piece quote [c]
  | letter {c : Char} (h : c ≠ 'u') : Piece quote ['\\', c]
  | number {escape : List Char} (h : Numbered escape) : Piece quote ('\\' :: 'u' :: escape)

/-- What stands in a string up to some place between its pieces. -/
inductive Contents (quote : Char) : List Char → Prop
  | nil : Contents quote []
  | cons {piece body : List Char} (h : Piece quote piece) (hbody : Contents quote body) :
      Contents quote (piece ++ body)

/-- Where the pieces end, and what follows the string or what is wrong with it. -/
inductive Halts (quote : Char) : List Char → Except SyntaxFault (List Char) → Prop
  | closed (rest : List Char) : Halts quote (quote :: rest) (.ok rest)
  | line (h : quote ≠ Char.ofNat 96) (rest : List Char) :
      Halts quote ('\n' :: rest) (.error .openString)
  | nothing : Halts quote [] (.error .openString)
  | slash : Halts quote ['\\'] (.error .openString)
  | escape {more : List Char} (h : ¬ BeginsNumbered more) :
      Halts quote ('\\' :: 'u' :: more) (.error .escape)

section

variable {quote : Char} (hquote : quote ∈ quotes)
include hquote

theorem quote_ne_slash : quote ≠ '\\' := by
  rintro rfl
  exact absurd hquote (by decide)

theorem quote_ne_newline : quote ≠ '\n' := by
  rintro rfl
  exact absurd hquote (by decide)

/-- Where the pieces end, no piece begins. -/
theorem Halts.not_prefix {tail piece : List Char} {found : Except SyntaxFault (List Char)}
    (h : Halts quote tail found) (hpiece : Piece quote piece) : ¬ piece <+: tail := by
  rintro ⟨rest, rfl⟩
  generalize htail : piece ++ rest = tail at h
  cases hpiece with
  | plain hc hslash hline =>
    cases h with
    | closed => cases htail; exact hc rfl
    | line h => cases htail; exact h (hline rfl)
    | nothing => cases htail
    | slash => cases htail; exact hslash rfl
    | escape => cases htail; exact hslash rfl
  | letter hc =>
    cases h with
    | closed => cases htail; exact quote_ne_slash hquote rfl
    | line => cases htail
    | nothing => cases htail
    | slash => cases htail
    | escape => cases htail; exact hc rfl
  | number hescape =>
    cases h with
    | closed => cases htail; exact quote_ne_slash hquote rfl
    | line => cases htail
    | nothing => cases htail
    | slash => cases htail
    | escape h => cases htail; exact h ⟨_, hescape, List.prefix_append _ _⟩

theorem Halts.eq_of_halts {tail : List Char} {found found' : Except SyntaxFault (List Char)}
    (h : Halts quote tail found) (h' : Halts quote tail found') : found = found' := by
  have hslash := quote_ne_slash hquote
  have hnewline := quote_ne_newline hquote
  cases h <;> cases h' <;> first | rfl | contradiction

omit hquote in
/-- A text begins with at most one piece. -/
theorem Piece.eq_of_prefix {piece piece' cs : List Char} (h : Piece quote piece)
    (h' : Piece quote piece') (hcs : piece <+: cs) (hcs' : piece' <+: cs) : piece = piece' := by
  obtain ⟨rest, rfl⟩ := hcs
  obtain ⟨rest', heq⟩ := hcs'
  cases h with
  | plain _ hslash =>
    cases h' with
    | plain => cases heq; rfl
    | letter => cases heq; exact absurd rfl hslash
    | number => cases heq; exact absurd rfl hslash
  | letter hc =>
    cases h' with
    | plain _ hslash => cases heq; exact absurd rfl hslash
    | letter => cases heq; rfl
    | number => cases heq; exact absurd rfl hc
  | @number escape hescape =>
    cases h' with
    | plain _ hslash => cases heq; exact absurd rfl hslash
    | letter hc => cases heq; exact absurd rfl hc
    | @number escape' hescape' =>
      have hmore : escape' ++ rest' = escape ++ rest := by simpa using heq
      rw [hescape.eq_of_prefix hescape' (List.prefix_append _ _) ⟨rest', hmore⟩]

/-- A text falls into pieces in one way only. -/
theorem Contents.unique {body body' tail tail' : List Char}
    {found found' : Except SyntaxFault (List Char)} (h : Contents quote body)
    (h' : Contents quote body') (htail : Halts quote tail found) (htail' : Halts quote tail' found')
    (heq : body ++ tail = body' ++ tail') : body = body' ∧ tail = tail' := by
  induction h generalizing body' with
  | nil =>
    cases h' with
    | nil => exact ⟨rfl, heq⟩
    | cons hpiece' =>
      rw [List.nil_append, List.append_assoc] at heq
      exact absurd ⟨_, heq.symm⟩ (htail.not_prefix hquote hpiece')
  | cons hpiece _ ih =>
    cases h' with
    | nil =>
      rw [List.nil_append, List.append_assoc] at heq
      exact absurd ⟨_, heq⟩ (htail'.not_prefix hquote hpiece)
    | cons hpiece' hbody' =>
      rw [List.append_assoc, List.append_assoc] at heq
      obtain rfl := hpiece.eq_of_prefix hpiece' (List.prefix_append _ _) ⟨_, heq.symm⟩
      obtain ⟨rfl, rfl⟩ := ih hbody' (List.append_cancel_left heq)
      exact ⟨rfl, rfl⟩

end

/-! ### Reading a string -/

/-- What reading a string gives, its text apart, when it ends on the given line. -/
def ending (line : Nat) : Except SyntaxFault (List Char) → Except SyntaxError (Nat × List Char)
  | .ok rest => .ok (line, rest)
  | .error fault => .error ⟨line, fault⟩

/-- The text behind a quote falls into pieces, and where they end the result is found. -/
def Parts (quote : Char) (line : Nat) (cs : List Char)
    (result : Except SyntaxError (Nat × List Char)) : Prop :=
  ∃ body tail found, cs = body ++ tail ∧ Contents quote body ∧ Halts quote tail found
    ∧ result = ending (line + body.count '\n') found

section

variable {quote : Char} {line : Nat}

theorem Parts.stop {tail : List Char} {found : Except SyntaxFault (List Char)}
    (h : Halts quote tail found) : Parts quote line tail (ending line found) :=
  ⟨[], tail, found, rfl, .nil, h, rfl⟩

theorem Parts.cons {piece cs : List Char} {result : Except SyntaxError (Nat × List Char)}
    (h : Piece quote piece) (hparts : Parts quote (line + piece.count '\n') cs result) :
    Parts quote line (piece ++ cs) result := by
  obtain ⟨body, tail, found, rfl, hbody, htail, rfl⟩ := hparts
  refine ⟨piece ++ body, tail, found, (List.append_assoc _ _ _).symm, .cons h hbody, htail, ?_⟩
  rw [List.count_append, Nat.add_assoc]

/-- A numbered escape ends on the line on which it begins. -/
theorem Parts.number {escape cs : List Char} {result : Except SyntaxError (Nat × List Char)}
    (h : Numbered escape) (hparts : Parts quote line cs result) :
    Parts quote line ('\\' :: 'u' :: (escape ++ cs)) result := by
  have hcount : ('\\' :: 'u' :: escape).count '\n' = 0 := by
    rw [List.count_eq_zero]
    simp [h.newline_notMem]
  refine Parts.cons (.number h) ?_
  rw [hcount]
  exact hparts

/-- Reading a string finds its pieces. -/
theorem parts_readString (quote : Char) (line : Nat) (seen : List Char) {bound : Nat}
    {cs : List Char} (hbound : cs.length < bound) :
    Parts quote line cs ((readString quote bound line seen cs).map Prod.snd) := by
  induction bound generalizing line seen cs with
  | zero => cases hbound
  | succ bound ih =>
    cases cs with
    | nil => exact .stop .nothing
    | cons c cs =>
      rw [List.length_cons, Nat.succ_lt_succ_iff] at hbound
      rw [readString.eq_def]
      dsimp only
      split_ifs with hclose hnewline hspans hslash
      · subst hclose
        exact .stop (.closed cs)
      · subst hnewline
        exact .cons (.plain hclose (by decide) fun _ => hspans) (ih _ _ hbound)
      · subst hnewline
        exact .stop (.line hspans cs)
      · subst hslash
        split
        · exact .stop .slash
        · rename_i cs
          rw [List.length_cons] at hbound
          split
          · rename_i d rest hread
            obtain ⟨escape, hescape, rfl | ⟨low, hlow, rfl⟩⟩ := forms_of_readNumbered hread
            · rw [List.length_append] at hbound
              exact .number hescape (ih _ _ (by omega))
            · simp only [List.length_append, List.length_cons] at hbound
              exact .number hescape (.number hlow (ih _ _ (by omega)))
          · rename_i hread
            exact .stop (.escape (readNumbered_eq_none_iff.mp hread))
        · rename_i cs
          rw [List.length_cons] at hbound
          exact .cons (.letter (by decide)) (ih _ _ (by omega))
        · rename_i d cs hletter hspan
          rw [List.length_cons] at hbound
          have hcount : ['\\', d].count '\n' = 0 := by
            rw [List.count_eq_zero]
            simp [Ne.symm hspan]
          refine .cons (.letter hletter) ?_
          rw [hcount]
          exact ih _ _ (by omega)
      · have hcount : [c].count '\n' = 0 := by
          rw [List.count_eq_zero]
          simp [Ne.symm hnewline]
        refine .cons (.plain hclose hslash fun h => absurd h hnewline) ?_
        rw [hcount]
        exact ih _ _ hbound

end

/-! ### Strings in a source -/

section

variable {quote : Char} (hquote : quote ∈ quotes)
include hquote

/-- Behind a quote a string is read. -/
theorem step_quote (line : Nat) (cs : List Char) :
    step line quote cs = (readString quote (cs.length + 1) line [] cs).map
      fun (s, last, rest) => ⟨some ⟨.text s, line⟩, last, rest⟩ := by
  simp only [quotes, List.mem_cons, List.not_mem_nil, or_false] at hquote
  rcases hquote with rfl | rfl | rfl <;> rfl

/-- Where the pieces end tells what the step finds, but for the text of the string. -/
theorem Halts.exists_step {body tail : List Char} {found : Except SyntaxFault (List Char)}
    (htail : Halts quote tail found) (hbody : Contents quote body) (line : Nat) :
    ∃ s, step line quote (body ++ tail) = (ending (line + body.count '\n') found).map
      fun (last, rest) => ⟨some ⟨.text s, line⟩, last, rest⟩ := by
  obtain ⟨body', tail', found', heq, hbody', htail', hread⟩ :=
    parts_readString quote line [] (Nat.lt_succ_self (body ++ tail).length)
  obtain ⟨rfl, rfl⟩ := hbody.unique hquote hbody' htail htail' heq
  obtain rfl := htail.eq_of_halts hquote htail'
  rw [step_quote hquote, ← hread]
  cases readString quote ((body ++ tail).length + 1) line [] (body ++ tail) with
  | error e => exact ⟨"", rfl⟩
  | ok result => exact ⟨result.1, rfl⟩

omit hquote in
theorem exists_halts (quote : Char) (cs : List Char) :
    ∃ body tail found, cs = body ++ tail ∧ Contents quote body ∧ Halts quote tail found := by
  obtain ⟨body, tail, found, hcs, hbody, htail, -⟩ :=
    parts_readString quote 1 [] (Nat.lt_succ_self cs.length)
  exact ⟨body, tail, found, hcs, hbody, htail⟩

/-- A string is accepted that is made of pieces and closed. -/
theorem step_quote_eq_ok_iff {line last : Nat} {cs rest : List Char} :
    (∃ s, step line quote cs = .ok ⟨some ⟨.text s, line⟩, last, rest⟩)
      ↔ ∃ body, cs = body ++ quote :: rest ∧ Contents quote body
        ∧ last = line + body.count '\n' := by
  constructor
  · rintro ⟨s, h⟩
    obtain ⟨body, tail, found, rfl, hbody, htail⟩ := exists_halts quote cs
    obtain ⟨s', hstep⟩ := htail.exists_step hquote hbody line
    rw [hstep] at h
    cases htail with
    | closed => cases h; exact ⟨body, rfl, hbody, rfl⟩
    | _ => cases h
  · rintro ⟨body, rfl, hbody, rfl⟩
    exact (Halts.closed rest).exists_step hquote hbody line

/-- A string fails for an escape behind pieces that no form begins with. -/
theorem step_quote_eq_escape_iff {line last : Nat} {cs : List Char} :
    step line quote cs = .error ⟨last, .escape⟩
      ↔ ∃ body more, cs = body ++ '\\' :: 'u' :: more ∧ Contents quote body
        ∧ ¬ BeginsNumbered more ∧ last = line + body.count '\n' := by
  constructor
  · intro h
    obtain ⟨body, tail, found, rfl, hbody, htail⟩ := exists_halts quote cs
    obtain ⟨s, hstep⟩ := htail.exists_step hquote hbody line
    rw [hstep] at h
    cases htail with
    | escape hmore => cases h; exact ⟨body, _, rfl, hbody, hmore, rfl⟩
    | _ => cases h
  · rintro ⟨body, more, rfl, hbody, hmore, rfl⟩
    obtain ⟨s, hstep⟩ := (Halts.escape hmore).exists_step hquote hbody line
    exact hstep

end

/-- Where a step fails, the source does. -/
theorem Lexes.lexChars_error {line : Nat} {c : Char} {source cs : List Char} {tokens : List Token}
    {e : SyntaxError} (h : Lexes 1 source tokens line (c :: cs))
    (hstep : step line c cs = .error e) : lexChars source = .error e := by
  rw [h.lexChars_eq, List.length_cons, lexWithin, hstep]
  rfl

/-- Numbered escapes are accepted by their forms.  Wherever a quote opens a string in a source, the
lexer finds a token exactly if the text behind it is a row of pieces up to the same quote, and goes
on behind that.  It fails for an escape exactly if behind a row of pieces stands a `\u` that no form
of a numbered escape follows: four hexadecimal digits or, between braces, digits that write the
number of a character.  In both a plus may stand in front, which is then one of the four; where none
does, these are all forms. -/
theorem lex_quoted {source : String} {quote : Char} {tokens : List Token} {line : Nat}
    {cs : List Char} (hquote : quote ∈ quotes)
    (h : Lexes 1 source.toList tokens line (quote :: cs)) :
    (∀ last rest, (∃ s, step line quote cs = .ok ⟨some ⟨.text s, line⟩, last, rest⟩)
        ↔ ∃ body, cs = body ++ quote :: rest ∧ Contents quote body
          ∧ last = line + body.count '\n')
      ∧ (∀ last, step line quote cs = .error ⟨last, .escape⟩
        ↔ ∃ body more, cs = body ++ '\\' :: 'u' :: more ∧ Contents quote body
          ∧ ¬ BeginsNumbered more ∧ last = line + body.count '\n')
      ∧ (∀ found, step line quote cs = .ok found →
        Lexes 1 source.toList (tokens ++ found.token.toList) found.line found.rest)
      ∧ (∀ e, step line quote cs = .error e → lex source = .error e)
      ∧ ∀ more, (∀ rest, more ≠ '+' :: rest ∧ more ≠ '\x7b' :: '+' :: rest) →
        (BeginsNumbered more ↔ ∃ escape, NumberForm [] escape ∧ escape <+: more) :=
  ⟨fun _ _ => step_quote_eq_ok_iff hquote, fun _ => step_quote_eq_escape_iff hquote,
    fun _ hstep => h.append (.of_step hstep (length_step hstep)),
    fun _ hstep => h.lexChars_error hstep, fun _ => beginsNumbered_iff⟩

/-- Digits that no character has the number of, behind an escape of four digits. -/
theorem lex_quoted_beyond :
    '"' ∈ quotes
      ∧ Lexes 1 "\"\\u00e9\\u\x7b110000\x7d\"".toList [] 1
        ('"' :: "\\u00e9\\u\x7b110000\x7d\"".toList)
      ∧ (∃ body more, "\\u00e9\\u\x7b110000\x7d\"".toList = body ++ '\\' :: 'u' :: more
        ∧ Contents '"' body ∧ ¬ BeginsNumbered more ∧ 1 = 1 + body.count '\n')
      ∧ lex "\"\\u00e9\\u\x7b110000\x7d\"" = .error ⟨1, .escape⟩ := by
  have hquote : '"' ∈ quotes := by decide
  have h : Lexes 1 "\"\\u00e9\\u\x7b110000\x7d\"".toList [] 1
      ('"' :: "\\u00e9\\u\x7b110000\x7d\"".toList) := Lexes.nil 1 _
  have hstep : step 1 '"' "\\u00e9\\u\x7b110000\x7d\"".toList = .error ⟨1, .escape⟩ := rfl
  obtain ⟨-, hescape, -, hlex, -⟩ := lex_quoted hquote h
  exact ⟨hquote, h, (hescape 1).mp hstep, hlex _ hstep⟩

/-- A plus takes the place of a digit. -/
theorem lex_signed :
    lex "\"\\u+041\"" = .ok ⟨[⟨.text "A", 1⟩], 1⟩
      ∧ ¬ ∃ escape, NumberForm [] escape ∧ escape <+: "+041\"".toList := by
  refine ⟨rfl, ?_⟩
  rintro ⟨_, hform, rest, heq⟩
  cases hform with
  | @four digits n hdigits hlength =>
    have hplus : digits ++ rest = "+041".toList ++ ['"'] := heq
    obtain rfl := List.append_inj_left hplus hlength
    have hnone : digitsValue? 16 "+041".toList = none := rfl
    rw [digitsValue?_sixteen_iff.mpr hdigits] at hnone
    cases hnone
  | braced => cases heq

end Stencil.Routine
