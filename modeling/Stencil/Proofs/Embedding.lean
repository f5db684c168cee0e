import Stencil.Proofs.Lexing

/-!
# A source inside another one

The tokens of a source stay the same where the source stands inside another one, on lines further
down and in front of a character that goes on with nothing, unless a comment that only a line's end
closes runs into that character.

* `lowered`, `step_down` — a step finds the same on a line further down, faults included;
* `Stops` — characters that go on with nothing;
* `step_append` — one step of the lexer inside another source;
* `line_le_of_lex` — no token stands below the end of its source;
* `endsInComment` — whether a source ends in a comment that a line's end would close;
* `lexes_inside` — the main theorem.
-/

namespace Stencil.Routine

open Stencil.Text

/-! ### Further down -/

/-- A token on a line further down. -/
def Token.down (k : Nat) (token : Token) : Token := ⟨token.lexeme, token.line + k⟩

/-- A fault on a line further down. -/
def SyntaxError.down (k : Nat) (e : SyntaxError) : SyntaxError := ⟨e.line + k, e.fault⟩

/-- What a step finds, on a line further down. -/
def Step.down (k : Nat) (found : Step) : Step :=
  ⟨found.token.map (Token.down k), found.line + k, found.rest⟩

/-- An outcome on lines further down, where `move` moves what is found. -/
def lowered {α : Type} (k : Nat) (move : α → α) : Except SyntaxError α → Except SyntaxError α
  | .ok found => .ok (move found)
  | .error e => .error (e.down k)

theorem skipComment_down (k line : Nat) (cs : List Char) :
    skipComment (line + k) cs
      = lowered k (fun (last, rest) => (last + k, rest)) (skipComment line cs) := by
  fun_induction skipComment line cs with
  | case1 => rfl
  | case2 => rfl
  | case3 line c cs hopen ih =>
    have hline : (if c = '\n' then line + k + 1 else line + k)
        = (if c = '\n' then line + 1 else line) + k := by
      split
      · omega
      · rfl
    rw [skipComment, hline, ih]
    exact hopen

theorem readString_down (quote : Char) (k bound line : Nat) (seen cs : List Char) :
    readString quote bound (line + k) seen cs
      = lowered k (fun (s, last, rest) => (s, last + k, rest))
          (readString quote bound line seen cs) := by
  induction bound generalizing line seen cs with
  | zero => rfl
  | succ bound ih =>
    have hnext : line + k + 1 = line + 1 + k := by omega
    cases cs with
    | nil => rfl
    | cons c cs =>
      unfold readString
      split
      · rfl
      split
      · split
        · rw [hnext, ih]
        · rfl
      split
      · split
        · rfl
        · split
          · exact ih _ _ _
          · rfl
        · rw [hnext, ih]
        · exact ih _ _ _
      · exact ih _ _ _

/-- A step finds the same on a line further down. -/
theorem step_down (k line : Nat) (c : Char) (cs : List Char) :
    step (line + k) c cs = lowered k (Step.down k) (step line c cs) := by
  unfold step
  split
  · show Except.ok _ = Except.ok _
    rw [Step.down, show line + k + 1 = line + 1 + k by omega]
    rfl
  split
  · rfl
  split
  · rfl
  split
  · rw [skipComment_down]
    cases skipComment line (cs.drop 1) <;> rfl
  split
  · dsimp only
    cases Decimal.readChars? (numberSpan (c :: cs)).1 <;> rfl
  split
  · rw [readString_down]
    cases readString c (cs.length + 1) line [] cs <;> rfl
  split
  · rfl
  · cases punctuator? (c :: cs) <;> rfl

/-! ### Characters that go on with nothing -/

/-- A character that is no part of what stands in front of it, unless that is a comment or a
string. -/
structure Stops (d : Char) : Prop where
  /-- It is no part of a name. -/
  name : continuesName d = false
  /-- It is no digit and no point. -/
  part : isNumberPart d = false
  /-- It is neither the letter nor the sign of an exponent. -/
  power : d ≠ 'e' ∧ d ≠ 'E' ∧ d ≠ '+' ∧ d ≠ '-'
  /-- It is no later character of a sign. -/
  sign : ∀ p : Punctuator, d ∉ p.spelling.tail
  /-- It opens no comment behind a slash. -/
  comment : d ≠ '/' ∧ d ≠ '*'
  /-- It is no part of a numbered escape. -/
  escape : digitOf? 16 d = none ∧ d ≠ '\\' ∧ d ≠ 'u'

namespace Stops

theorem newline : Stops '\n' where
  name := by decide
  part := by decide
  power := by decide
  sign := by intro p; cases p <;> decide
  comment := by decide
  escape := by decide

theorem closeParen : Stops ')' where
  name := by decide
  part := by decide
  power := by decide
  sign := by intro p; cases p <;> decide
  comment := by decide
  escape := by decide

variable {d : Char} (hd : Stops d)
include hd

theorem digit : Decimal.isDigit d = false := (Bool.or_eq_false_iff.mp hd.part).1

theorem ne_dot : d ≠ '.' := by
  rintro rfl
  exact absurd hd.part (by decide)

end Stops

/-! ### Stretches of characters -/

/-- Where a character stops a stretch, the stretch ends there at the latest. -/
theorem takeWhile_append_cons {p : Char → Bool} {d : Char} (hd : p d = false)
    (cs rest : List Char) :
    (cs ++ d :: rest).takeWhile p = cs.takeWhile p
      ∧ (cs ++ d :: rest).dropWhile p = cs.dropWhile p ++ d :: rest := by
  induction cs with
  | nil =>
    rw [List.nil_append, List.takeWhile_cons, List.dropWhile_cons, hd]
    exact ⟨rfl, rfl⟩
  | cons c cs ih =>
    rw [List.cons_append, List.takeWhile_cons, List.dropWhile_cons, List.takeWhile_cons,
      List.dropWhile_cons, ih.1, ih.2]
    split <;> exact ⟨rfl, rfl⟩

/-- A character that does not stand in a word completes no such word. -/
theorem startsWith_append {d : Char} {ds : List Char} (hd : d ∉ ds) (cs rest : List Char) :
    startsWith ds (cs ++ d :: rest) = startsWith ds cs := by
  induction ds generalizing cs with
  | nil => cases cs <;> rfl
  | cons e ds ih =>
    rw [List.mem_cons, not_or] at hd
    cases cs with
    | nil =>
      rw [List.nil_append, startsWith_cons, decide_eq_false (Ne.symm hd.1)]
      rfl
    | cons c cs => rw [List.cons_append, startsWith_cons, startsWith_cons, ih hd.2]

/-! ### Comments -/

/-- A comment that closes closes inside another source. -/
theorem skipComment_append {line last : Nat} {cs rest : List Char}
    (h : skipComment line cs = .ok (last, rest)) (more : List Char) :
    skipComment line (cs ++ more) = .ok (last, rest ++ more) := by
  fun_induction skipComment line cs with
  | case1 => cases h
  | case2 =>
    cases h
    rfl
  | case3 line c cs hopen ih =>
    rw [List.cons_append, skipComment]
    · exact ih h
    · -- Neither does one open across the end, since a comment that is not closed has no end.
      rintro rest' rfl hrest
      cases cs with
      | nil => cases h
      | cons e cs =>
        cases hrest
        exact hopen cs rfl rfl

/-- So does one that has just opened. -/
theorem skipComment_drop_append {line last : Nat} {c : Char} {cs rest : List Char}
    (hopens : startsWith ['/', '*'] (c :: cs) = true)
    (h : skipComment line (cs.drop 1) = .ok (last, rest)) (more : List Char) :
    skipComment line ((cs ++ more).drop 1) = .ok (last, rest ++ more) := by
  cases cs with
  | nil =>
    rw [startsWith_cons, Bool.and_eq_true] at hopens
    cases hopens.2
  | cons e cs => exact skipComment_append h more

/-- What is behind a comment up to the end of a line is so inside another source, unless the line
ends with the source. -/
theorem dropWhile_line_append {d : Char} {cs : List Char}
    (h : cs.dropWhile (· != '\n') = [] → d = '\n') (more : List Char) :
    (cs ++ d :: more).dropWhile (· != '\n') = cs.dropWhile (· != '\n') ++ d :: more := by
  rw [List.dropWhile_append]
  split
  · rename_i hempty
    rw [List.isEmpty_iff] at hempty
    cases h hempty
    rw [hempty]
    rfl
  · rfl

/-! ### Numbers -/

theorem startsNumber_of_ne_dot {c : Char} (hc : c ≠ '.') (cs : List Char) :
    startsNumber (c :: cs) = Decimal.isDigit c := by
  rw [startsNumber]
  rintro e es rfl
  exact absurd rfl hc

section

variable {d : Char} (hd : Stops d)
include hd

theorem startsNumber_append (cs rest : List Char) :
    startsNumber (cs ++ d :: rest) = startsNumber cs := by
  cases cs with
  | nil =>
    show startsNumber (d :: rest) = false
    rw [startsNumber_of_ne_dot hd.ne_dot]
    exact hd.digit
  | cons c cs =>
    by_cases hc : c = '.'
    · subst hc
      cases cs with
      | nil => exact hd.digit
      | cons e cs => rfl
    · rw [List.cons_append, startsNumber_of_ne_dot hc, startsNumber_of_ne_dot hc]

theorem exponentSpan_append (cs rest : List Char) :
    exponentSpan (cs ++ d :: rest)
      = ((exponentSpan cs).1, (exponentSpan cs).2 ++ d :: rest) := by
  obtain ⟨he, hE, hplus, hminus⟩ := hd.power
  have hdigits (cs : List Char) := takeWhile_append_cons hd.digit cs rest
  match cs with
  | [] =>
    simp only [List.nil_append, exponentSpan, if_neg (not_or.mpr ⟨he, hE⟩)]
  | [e] =>
    simp only [List.cons_append, List.nil_append, exponentSpan]
    split
    · have hnone := hdigits []
      rw [List.nil_append] at hnone
      rw [if_neg (not_or.mpr ⟨hplus, hminus⟩), hnone.1, hnone.2]
      rfl
    · rfl
  | e :: c :: cs =>
    simp only [List.cons_append, exponentSpan]
    split
    · split
      · rw [(hdigits cs).1, (hdigits cs).2]
      · have hall := hdigits (c :: cs)
        rw [List.cons_append] at hall
        rw [hall.1, hall.2]
    · rfl

theorem numberSpan_append (cs rest : List Char) :
    numberSpan (cs ++ d :: rest) = ((numberSpan cs).1, (numberSpan cs).2 ++ d :: rest) := by
  obtain ⟨htake, hdrop⟩ := takeWhile_append_cons hd.part cs rest
  rw [numberSpan, numberSpan, htake, hdrop, exponentSpan_append hd]

end

/-! ### Strings -/

/-- The first closing brace stays the first one. -/
theorem cutFrom_append {e : Char} {seen cs front rest : List Char}
    (h : cutFrom [e] seen cs = some (front, rest)) (more : List Char) :
    cutFrom [e] seen (cs ++ more) = some (front, rest ++ more) := by
  induction cs generalizing seen with
  | nil => cases h
  | cons c cs ih =>
    rw [List.cons_append]
    by_cases hc : e = c
    · simp only [cutFrom, stripFront, if_pos hc] at h ⊢
      cases h
      rfl
    · simp only [cutFrom, stripFront, if_neg hc] at h ⊢
      exact ih h

theorem digitsAfter_of_mem {base n : Nat} {d : Char} {cs : List Char} (hd : digitOf? base d = none)
    (hmem : d ∈ cs) : digitsAfter base n cs = none := by
  induction cs generalizing n with
  | nil => cases hmem
  | cons c cs ih =>
    rw [digitsAfter]
    cases hmem with
    | head => rw [hd]
    | tail _ hmem =>
      split
      · exact ih hmem
      · rfl

section

variable {d : Char} (hd : Stops d)
include hd

/-- No text with the character in it is a number. -/
theorem hexNumber?_of_mem {cs : List Char} (hmem : d ∈ cs) : hexNumber? cs = none := by
  have hnone {cs : List Char} (hmem : d ∈ cs) : digitsValue? 16 cs = none := by
    rw [digitsValue?, digitsAfter_of_mem hd.escape.1 hmem]
    split <;> rfl
  rw [hexNumber?.eq_def]
  split
  · cases hmem with
    | head => exact absurd rfl hd.power.2.2.1
    | tail _ hmem => exact hnone hmem
  · exact hnone hmem

/-- Four characters are a number only if all of them stand in front. -/
theorem hexFour?_append (cs rest : List Char) : hexFour? (cs ++ d :: rest) = hexFour? cs := by
  rw [hexFour?, hexFour?, List.take_append]
  by_cases hlength : cs.length < 4
  · have hmem : d ∈ cs.take 4 ++ (d :: rest).take (4 - cs.length) := by
      obtain ⟨n, hn⟩ : ∃ n, 4 - cs.length = n + 1 := ⟨3 - cs.length, by omega⟩
      rw [hn]
      exact List.mem_append_right _ List.mem_cons_self
    rw [if_pos hlength, hexNumber?_of_mem hd hmem]
    split <;> rfl
  · have hwhole : ¬ (cs ++ d :: rest).length < 4 := by
      rw [List.length_append]
      omega
    have hnone : 4 - cs.length = 0 := by omega
    rw [if_neg hlength, if_neg hwhole, hnone, List.take_zero, List.append_nil]

theorem trailing?_append (cs rest : List Char) : trailing? (cs ++ d :: rest) = trailing? cs := by
  rw [trailing?.eq_def, trailing?.eq_def]
  cases cs with
  | nil =>
    simp only [List.nil_append]
    split
    · rename_i heq
      cases heq
      exact absurd rfl hd.escape.2.1
    · rfl
  | cons c cs =>
    cases cs with
    | nil =>
      simp only [List.cons_append, List.nil_append]
      split
      · rename_i heq
        cases heq
        exact absurd rfl hd.escape.2.2
      · rfl
    | cons e cs =>
      simp only [List.cons_append]
      split
      · rename_i heq
        cases heq
        rw [hexFour?_append hd]
        rfl
      · rename_i hne
        split
        · rename_i heq
          cases heq
          exact absurd rfl (hne _)
        · rfl

omit hd in
theorem length_of_hexFour? {cs : List Char} {n : Nat} (h : hexFour? cs = some n) :
    4 ≤ cs.length := by
  rw [hexFour?] at h
  split at h
  · cases h
  · omega

omit hd in
theorem length_of_trailing? {cs : List Char} {n : Nat} (h : trailing? cs = some n) :
    6 ≤ cs.length := by
  rw [trailing?.eq_def] at h
  split at h
  · obtain ⟨hfour, -⟩ := Option.filter_eq_some_iff.mp h
    have hlength := length_of_hexFour? hfour
    simp only [List.length_cons]
    omega
  · cases h

/-- A numbered escape ends before the character. -/
theorem readNumbered_append {cs rest : List Char} {c : Char}
    (h : readNumbered cs = some (c, rest)) (more : List Char) :
    readNumbered (cs ++ d :: more) = some (c, rest ++ d :: more) := by
  by_cases hbrace : ∃ inner, cs = '\x7b' :: inner
  · obtain ⟨inner, rfl⟩ := hbrace
    simp only [List.cons_append, readNumbered] at h ⊢
    cases hcut : cut ['\x7d'] inner with
    | none => simp [hcut] at h
    | some parts =>
      obtain ⟨digits, behind⟩ := parts
      have happend : cut ['\x7d'] (inner ++ d :: more) = some (digits, behind ++ d :: more) :=
        cutFrom_append hcut (d :: more)
      simp only [hcut] at h
      simp only [happend]
      split at h
      · cases h
      · split at h
        · rename_i hscalar
          cases h
          rw [if_pos hscalar]
        · cases h
  · have hnone (rest : List Char) : cs ++ d :: more ≠ '\x7b' :: rest := by
      intro heq
      cases cs with
      | nil => cases h
      | cons e cs =>
        cases heq
        exact hbrace ⟨cs, rfl⟩
    rw [readNumbered] at h ⊢
    · rw [hexFour?_append hd]
      cases hhigh : hexFour? cs with
      | none =>
        rw [hhigh] at h
        cases h
      | some high =>
        rw [hhigh] at h
        dsimp only at h ⊢
        rw [List.drop_append_of_le_length (length_of_hexFour? hhigh), trailing?_append hd]
        split at h
        · rename_i hleading
          rw [if_pos hleading]
          cases hlow : trailing? (cs.drop 4) with
          | none =>
            rw [hlow] at h
            cases h
            rfl
          | some low =>
            rw [hlow] at h
            simp only [Option.some.injEq, Prod.mk.injEq] at h
            rw [← h.1, ← h.2]
            dsimp only
            rw [List.drop_append_of_le_length (length_of_trailing? hlow)]
        · rename_i hleading
          rw [if_neg hleading]
          cases h
          rfl
    · exact hnone
    · exact fun inner heq => hbrace ⟨inner, heq⟩

theorem readString_append {quote : Char} {bound line last : Nat} {seen cs rest : List Char}
    {t : String} (h : readString quote bound line seen cs = .ok (t, last, rest))
    (more : List Char) {bound' : Nat} (hbound : bound ≤ bound') :
    readString quote bound' line seen (cs ++ d :: more) = .ok (t, last, rest ++ d :: more) := by
  induction bound generalizing line seen cs bound' with
  | zero => cases h
  | succ bound ih =>
    obtain ⟨bound', rfl⟩ : ∃ b, bound' = b + 1 := ⟨bound' - 1, by omega⟩
    have hbound : bound ≤ bound' := Nat.le_of_succ_le_succ hbound
    cases cs with
    | nil => cases h
    | cons c cs =>
      unfold readString at h
      rw [List.cons_append, readString.eq_def]
      dsimp only
      split at h
      · rename_i hquote
        cases h
        rw [if_pos hquote]
      rename_i hquote
      rw [if_neg hquote]
      split at h
      · rename_i hnewline
        rw [if_pos hnewline]
        split at h
        · rename_i htick
          rw [if_pos htick]
          exact ih h hbound
        · cases h
      rename_i hnewline
      rw [if_neg hnewline]
      split at h
      · rename_i hslash
        rw [if_pos hslash]
        cases cs with
        | nil => cases h
        | cons e cs =>
          rw [List.cons_append]
          split at h
          · rename_i heq
            cases heq
          · rename_i heq
            cases heq
            split at h
            · rename_i hnumbered
              simp only [readNumbered_append hd hnumbered]
              exact ih h hbound
            · cases h
          · rename_i heq
            cases heq
            exact ih h hbound
          · rename_i hu hn heq
            cases heq
            split
            · rename_i heq
              cases heq
            · rename_i heq
              cases heq
              exact absurd rfl hu
            · rename_i heq
              cases heq
              exact absurd rfl hn
            · rename_i heq
              cases heq
              exact ih h hbound
      · rename_i hslash
        rw [if_neg hslash]
        exact ih h hbound

/-! ### Signs -/

/-- A sign ends before the character, and no longer one goes on with it. -/
theorem punctuator?_append {c : Char} {cs rest : List Char} {p : Punctuator}
    (h : punctuator? (c :: cs) = some (p, rest)) (more : List Char) :
    punctuator? (c :: (cs ++ d :: more)) = some (p, rest ++ d :: more) := by
  have hsame (q : Punctuator) :
      startsWith q.spelling (c :: (cs ++ d :: more)) = startsWith q.spelling (c :: cs) := by
    have htail := hd.sign q
    cases hq : q.spelling with
    | nil => exact absurd hq q.spelling_ne_nil
    | cons e es =>
      rw [hq, List.tail_cons] at htail
      rw [startsWith_cons, startsWith_cons, startsWith_append htail]
  have hdrop {q : Punctuator} (hq : Punctuator.all.find? (fun q => startsWith q.spelling (c :: cs))
      = some q) :
      (c :: (cs ++ d :: more)).drop q.spelling.length
        = (c :: cs).drop q.spelling.length ++ d :: more := by
    have hstart := List.find?_some hq
    obtain ⟨behind, hbehind⟩ := Option.isSome_iff_exists.mp hstart
    have hlength := congrArg List.length (eq_of_stripFront hbehind)
    rw [List.length_append] at hlength
    rw [← List.cons_append, List.drop_append_of_le_length (by omega)]
  rw [punctuator?] at h ⊢
  simp only [hsame]
  split at h
  · cases h
  · rename_i hq
    have hnumber := startsNumber_append hd cs more
    split at h
    · rename_i hdigit
      cases h
      exact if_pos (hnumber.trans hdigit)
    · rename_i hdigit
      cases h
      have htwo : (c :: (cs ++ d :: more)).drop 2 = (c :: cs).drop 2 ++ d :: more := hdrop hq
      rw [← htwo]
      exact if_neg fun hmoved => hdigit (hnumber.symm.trans hmoved)
  · rename_i hq
    cases h
    rw [hdrop hq]

end

/-! ### Steps -/

/-- What a step finds, on a line further down and with more behind it. -/
def Step.moved (k : Nat) (more : List Char) (found : Step) : Step :=
  ⟨found.token.map (Token.down k), found.line + k, found.rest ++ more⟩

/-- A step finds the same inside another source, unless it runs to the end in a comment that a
line's end would close. -/
theorem step_append {d c : Char} {line : Nat} {cs : List Char} {found : Step} (hd : Stops d)
    (h : step line c cs = .ok found)
    (hcomment : startsWith ['/', '/'] (c :: cs) = true → found.rest = [] → d = '\n') (k : Nat)
    (more : List Char) :
    step (line + k) c (cs ++ d :: more) = .ok (found.moved k (d :: more)) := by
  suffices hsame : step line c (cs ++ d :: more)
      = .ok ⟨found.token, found.line, found.rest ++ d :: more⟩ by
    rw [step_down, hsame]
    rfl
  have hopens {e : Char} (he : d ≠ e) (hslash : d ≠ '/') :
      startsWith ['/', e] (c :: (cs ++ d :: more)) = startsWith ['/', e] (c :: cs) := by
    have hnotMem : d ∉ ['/', e] := by simp [he, hslash]
    exact startsWith_append hnotMem (c :: cs) more
  have hline := hopens hd.comment.1 hd.comment.1
  have hspan := hopens hd.comment.2 hd.comment.1
  have hstarts : startsNumber (c :: (cs ++ d :: more)) = startsNumber (c :: cs) :=
    startsNumber_append hd (c :: cs) more
  unfold step at h ⊢
  rw [hline, hspan, hstarts]
  split at h
  · rename_i hc
    cases h
    rw [if_pos hc]
  rename_i hc
  rw [if_neg hc]
  split at h
  · rename_i hblank
    cases h
    rw [if_pos hblank]
  rename_i hblank
  rw [if_neg hblank]
  split at h
  · rename_i hslashes
    cases h
    have hdrop := dropWhile_line_append (hcomment hslashes) more
    rw [if_pos hslashes, hdrop]
  rename_i hslashes
  rw [if_neg hslashes]
  split at h
  · rename_i hopens
    rw [if_pos hopens]
    cases hskip : skipComment line (cs.drop 1) with
    | error e =>
      rw [hskip] at h
      cases h
    | ok result =>
      rw [hskip] at h
      cases h
      rw [skipComment_drop_append hopens hskip]
      rfl
  rename_i hopens
  rw [if_neg hopens]
  split at h
  · rename_i hnumber
    rw [if_pos hnumber]
    have hspan : numberSpan (c :: (cs ++ d :: more)) = _ := numberSpan_append hd (c :: cs) more
    rw [hspan]
    dsimp only at h ⊢
    split at h
    · rename_i x hx
      cases h
      rfl
    · cases h
  rename_i hnumber
  rw [if_neg hnumber]
  split at h
  · rename_i hquote
    rw [if_pos hquote]
    cases hread : readString c (cs.length + 1) line [] cs with
    | error e =>
      rw [hread] at h
      cases h
    | ok result =>
      rw [hread] at h
      cases h
      have hbound : cs.length + 1 ≤ (cs ++ d :: more).length + 1 := by
        rw [List.length_append]
        omega
      rw [readString_append hd hread more hbound]
      rfl
  rename_i hquote
  rw [if_neg hquote]
  split at h
  · rename_i hname
    cases h
    obtain ⟨htake, hdrop⟩ := takeWhile_append_cons hd.name cs more
    rw [if_pos hname, htake, hdrop]
  rename_i hname
  rw [if_neg hname]
  split at h
  · rename_i p rest hsign
    cases h
    rw [punctuator?_append hd hsign]
  · cases h

/-! ### Whole sources -/

/-- The first step of a source with tokens, and the tokens of what follows it. -/
theorem lexWithin_cons {bound line last : Nat} {c : Char} {cs : List Char} {tokens : List Token}
    (hbound : cs.length ≤ bound)
    (h : lexWithin (bound + 1) line [] (c :: cs) = .ok ⟨tokens, last⟩) :
    ∃ found others, step line c cs = .ok found
      ∧ lexWithin bound found.line [] found.rest = .ok ⟨others, last⟩
      ∧ tokens = found.token.toList ++ others := by
  rw [lexWithin] at h
  cases hstep : step line c cs with
  | error e =>
    rw [hstep] at h
    cases h
  | ok found =>
    have hrest : found.rest.length ≤ bound := Nat.le_trans (length_step hstep) hbound
    have hfound : lexWithin bound found.line found.token.toList.reverse found.rest
        = .ok ⟨tokens, last⟩ := by
      obtain ⟨token, line', rest⟩ := found
      rw [hstep] at h
      cases token <;> exact h
    rw [lexWithin_eq found.rest hrest] at hfound
    cases hothers : lexWithin found.rest.length found.line [] found.rest with
    | error e =>
      rw [hothers] at hfound
      cases hfound
    | ok lexed =>
      rw [hothers] at hfound
      cases hfound
      refine ⟨found, lexed.tokens, rfl, ?_, ?_⟩
      · rw [lexWithin_eq found.rest hrest, hothers]
        rfl
      · rw [List.reverse_reverse]

/-! ### Lines -/

/-- A token stands on the line of its step, and no step goes back. -/
theorem line_le_step {line : Nat} {c : Char} {cs : List Char} {found : Step}
    (h : step line c cs = .ok found) :
    line ≤ found.line ∧ ∀ token ∈ found.token.toList, token.line = line :=
  ⟨(Passes.cons (stepCase h).passes).line_le,
    fun token htoken => (stepCase h).line_token token (Option.mem_toList.mp htoken)⟩

theorem line_le_lexWithin {bound line last : Nat} {cs : List Char} {tokens : List Token}
    (hbound : cs.length ≤ bound) (h : lexWithin bound line [] cs = .ok ⟨tokens, last⟩) :
    line ≤ last ∧ ∀ token ∈ tokens, token.line ≤ last := by
  induction bound generalizing line cs tokens with
  | zero =>
    cases cs with
    | nil =>
      cases h
      exact ⟨Nat.le_refl last, nofun⟩
    | cons c cs => cases hbound
  | succ bound ih =>
    cases cs with
    | nil =>
      cases h
      exact ⟨Nat.le_refl last, nofun⟩
    | cons c cs =>
      have hlength : cs.length ≤ bound := Nat.le_of_succ_le_succ hbound
      obtain ⟨found, others, hstep, hothers, rfl⟩ := lexWithin_cons hlength h
      obtain ⟨hline, hfound⟩ := line_le_step hstep
      obtain ⟨hlast, hbelow⟩ := ih (Nat.le_trans (length_step hstep) hlength) hothers
      refine ⟨Nat.le_trans hline hlast, fun token htoken => ?_⟩
      rcases List.mem_append.mp htoken with hfirst | hlater
      · rw [hfound token hfirst]
        exact Nat.le_trans hline hlast
      · exact hbelow token hlater

/-- No token stands below the line on which its source ends. -/
theorem line_le_of_lex {source : String} {tokens : List Token} {last : Nat}
    (h : lex source = .ok ⟨tokens, last⟩) : ∀ token ∈ tokens, token.line ≤ last :=
  (line_le_lexWithin (Nat.le_refl _) h).2

/-! ### The source inside another one -/

/-- Whether the last of at most `bound` steps is a comment that a line's end would close. -/
def endsInCommentWithin : Nat → Nat → List Char → Bool
  | bound + 1, line, c :: cs =>
    match step line c cs with
    | .error _ => false
    | .ok found =>
      (startsWith ['/', '/'] (c :: cs) && found.rest.isEmpty)
        || endsInCommentWithin bound found.line found.rest
  | _, _, _ => false

/-- Whether a source ends in a comment that a line's end would close. -/
def endsInComment (source : String) : Bool :=
  endsInCommentWithin source.toList.length 1 source.toList

example : endsInComment "a // b" = true := by cbv

example : endsInComment "a // b\n/* c // */" = false := by cbv

theorem lexes_within {d : Char} (hd : Stops d) {bound line last : Nat} {cs : List Char}
    {tokens : List Token} (hbound : cs.length ≤ bound)
    (h : lexWithin bound line [] cs = .ok ⟨tokens, last⟩)
    (hcomment : endsInCommentWithin bound line cs = true → d = '\n') (k : Nat) (more : List Char) :
    Lexes (line + k) (cs ++ d :: more) (tokens.map (Token.down k)) (last + k) (d :: more) := by
  induction bound generalizing line cs tokens with
  | zero =>
    cases cs with
    | nil =>
      cases h
      exact .nil (last + k) (d :: more)
    | cons c cs => cases hbound
  | succ bound ih =>
    cases cs with
    | nil =>
      cases h
      exact .nil (last + k) (d :: more)
    | cons c cs =>
      have hlength : cs.length ≤ bound := Nat.le_of_succ_le_succ hbound
      obtain ⟨found, others, hstep, hothers, rfl⟩ := lexWithin_cons hlength h
      rw [endsInCommentWithin, hstep] at hcomment
      dsimp only at hcomment
      rw [Bool.or_eq_true, Bool.and_eq_true, List.isEmpty_iff] at hcomment
      have hmoved := step_append hd hstep
        (fun hslashes hrest => hcomment (.inl ⟨hslashes, hrest⟩)) k more
      have hfirst := Lexes.of_step hmoved (length_step hmoved)
      have hbehind := ih (Nat.le_trans (length_step hstep) hlength) hothers
        fun hends => hcomment (.inr hends)
      have htoken : (found.token.map (Token.down k)).toList
          = found.token.toList.map (Token.down k) := by
        cases found.token <;> rfl
      rw [List.map_append, ← htoken]
      exact hfirst.append hbehind

/-- **The tokens of a source are the same inside another one**, on lines further down and in front
of a character that goes on with nothing. -/
theorem lexes_inside {d : Char} (hd : Stops d) {source : String} {tokens : List Token} {last : Nat}
    (h : lex source = .ok ⟨tokens, last⟩) (hcomment : endsInComment source = true → d = '\n')
    (k : Nat) (more : List Char) :
    Lexes (1 + k) (source.toList ++ d :: more) (tokens.map (Token.down k)) (last + k) (d :: more) :=
  lexes_within hd (Nat.le_refl _) h hcomment k more

end Stencil.Routine
