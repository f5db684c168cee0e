import Stencil.Proofs.Passing

/-!
# Stretches of a source

The lexer goes through a source step by step.  `Lexes` says what it finds on a stretch of the
source, whatever stands behind the stretch, so that what it finds on a whole source can be put
together.

* `not_isBlank_of_continuesName` — what names are made of is no blank, and begins nothing else;
* `Lexes`, `Lexes.append` — a stretch with its tokens, and two stretches in a row;
* `Lexes.name`, `Lexes.simpleSign`, `Lexes.quoted` — stretches that are one token;
* `readString_spelled`, `Lexes.spelled` — a quoted text, however its characters are written;
* `lexChars_of_lexes` — a source that is one stretch;
* `lexWithin_eq`, `Lexes.lexChars_eq` — what was found before changes nothing, so that a source can
  be read behind a stretch at its front.
-/

namespace Stencil.Routine

open Stencil.Text

/-! ### Characters -/

/-- The numbers of the blanks. -/
def blankNumbers : List Nat :=
  [9, 10, 11, 12, 13, 32, 0x85, 0xA0, 0x1680, 0x2000, 0x2001, 0x2002, 0x2003, 0x2004, 0x2005,
    0x2006, 0x2007, 0x2008, 0x2009, 0x200A, 0x2028, 0x2029, 0x202F, 0x205F, 0x3000]

theorem toNat_mem_of_isBlank {c : Char} (h : isBlank c = true) : c.toNat ∈ blankNumbers := by
  unfold isBlank at h
  rw [blankNumbers]
  simp only [List.mem_cons, List.not_mem_nil, or_false]
  dsimp only at h
  split at h
  · simp only [Bool.or_eq_true, Bool.and_eq_true, beq_iff_eq, decide_eq_true_eq] at h
    omega
  · simp only [Bool.or_eq_true, Bool.and_eq_true, beq_iff_eq, decide_eq_true_eq] at h
    omega

theorem not_continuesName_of_isBlank {c : Char} (h : isBlank c = true) :
    continuesName c = false := by
  have hmem := toNat_mem_of_isBlank h
  have hall : ∀ n ∈ blankNumbers, continuesName (Char.ofNat n) = false := by decide +kernel
  have hc := hall _ hmem
  rw [Char.ofNat_toNat] at hc
  exact hc

/-- No blank stands in a name. -/
theorem not_isBlank_of_continuesName {c : Char} (h : continuesName c = true) :
    isBlank c = false := by
  rw [← Bool.not_eq_true]
  intro hblank
  rw [not_continuesName_of_isBlank hblank] at h
  cases h

theorem continuesName_of_startsName {c : Char} (h : startsName c = true) :
    continuesName c = true := by
  rw [startsName] at h
  rw [continuesName]
  simp only [Bool.or_eq_true] at h ⊢
  rcases h with (h | h) | h
  · exact .inl (.inl (.inl h))
  · exact .inl (.inr h)
  · exact .inr h

/-- A character that begins a name differs from each that does not. -/
theorem ne_of_startsName {c d : Char} (h : startsName c = true) (hd : startsName d = false) :
    c ≠ d := by
  intro he
  rw [he, hd] at h
  cases h

/-- No name begins with a digit. -/
theorem not_isDigit_of_startsName {c : Char} (h : startsName c = true) :
    Decimal.isDigit c = false := by
  rw [← Bool.not_eq_true]
  intro hdigit
  have hrange : 48 ≤ c.toNat ∧ c.toNat ≤ 57 := by
    rw [Decimal.isDigit, Decimal.digitValue?] at hdigit
    split at hdigit
    · rename_i hn
      exact hn
    · cases hdigit
  have hall : ∀ n < 58, 48 ≤ n → startsName (Char.ofNat n) = false := by decide
  have hc := hall c.toNat (by omega) hrange.1
  rw [Char.ofNat_toNat] at hc
  rw [hc] at h
  cases h

/-! ### Stretches -/

/-- From the front of `cs`, on the given line, the lexer finds the tokens and then stands in front
of `rest`, on the line `last`. -/
def Lexes (line : Nat) (cs : List Char) (tokens : List Token) (last : Nat) (rest : List Char) :
    Prop :=
  ∀ bound seen, cs.length ≤ bound →
    ∃ bound', rest.length ≤ bound' ∧
      lexWithin bound line seen cs = lexWithin bound' last (tokens.reverse ++ seen) rest

namespace Lexes

variable {line last : Nat} {cs rest : List Char} {tokens : List Token}

theorem nil (line : Nat) (cs : List Char) : Lexes line cs [] line cs := by
  intro bound seen hbound
  exact ⟨bound, hbound, rfl⟩

/-- Two stretches in a row. -/
theorem append {tokens' : List Token} {last' : Nat} {rest' : List Char}
    (h : Lexes line cs tokens last rest) (h' : Lexes last rest tokens' last' rest') :
    Lexes line cs (tokens ++ tokens') last' rest' := by
  intro bound seen hbound
  obtain ⟨bound₁, hbound₁, heq₁⟩ := h bound seen hbound
  obtain ⟨bound₂, hbound₂, heq₂⟩ := h' bound₁ (tokens.reverse ++ seen) hbound₁
  refine ⟨bound₂, hbound₂, ?_⟩
  rw [heq₁, heq₂, List.reverse_append, List.append_assoc]

/-- A step is a stretch. -/
theorem of_step {c : Char} {found : Step} (h : step line c cs = .ok found)
    (hlen : found.rest.length ≤ cs.length) :
    Lexes line (c :: cs) found.token.toList found.line found.rest := by
  intro bound seen hbound
  rw [List.length_cons] at hbound
  obtain ⟨bound, rfl⟩ : ∃ b, bound = b + 1 := ⟨bound - 1, by omega⟩
  refine ⟨bound, by omega, ?_⟩
  obtain ⟨token, last, rest⟩ := found
  rw [lexWithin, h]
  cases token <;> rfl

/-- A step that finds nothing. -/
theorem pass {c : Char} (h : step line c cs = .ok ⟨none, last, rest⟩)
    (hlen : rest.length ≤ cs.length) : Lexes line (c :: cs) [] last rest :=
  of_step h hlen

/-- A step that finds a token. -/
theorem token {c : Char} {lexeme : Lexeme}
    (h : step line c cs = .ok ⟨some ⟨lexeme, line⟩, last, rest⟩) (hlen : rest.length ≤ cs.length) :
    Lexes line (c :: cs) [⟨lexeme, line⟩] last rest :=
  of_step h hlen

/-- A blank that ends no line. -/
theorem blank (line : Nat) {c : Char} (hc : isBlank c = true) (hn : c ≠ '\n') (rest : List Char) :
    Lexes line (c :: rest) [] line rest := by
  refine pass ?_ (Nat.le_refl _)
  rw [step]
  rw [if_neg hn, if_pos hc]

theorem space (line : Nat) (rest : List Char) : Lexes line (' ' :: rest) [] line rest :=
  blank line (by decide) (by decide) rest

/-- The end of a line. -/
theorem newline (line : Nat) (rest : List Char) : Lexes line ('\n' :: rest) [] (line + 1) rest := by
  refine pass ?_ (Nat.le_refl _)
  rw [step]
  rw [if_pos rfl]

end Lexes

/-- What a name must not be followed by. -/
def EndsName (rest : List Char) : Prop := ∀ c ∈ rest.head?, continuesName c = false

theorem takeWhile_append_of_endsName {cs rest : List Char} (hcs : cs.all continuesName = true)
    (hrest : EndsName rest) :
    (cs ++ rest).takeWhile continuesName = cs ∧ (cs ++ rest).dropWhile continuesName = rest := by
  induction cs with
  | nil =>
    cases rest with
    | nil => exact ⟨rfl, rfl⟩
    | cons d rest =>
      have hd : continuesName d = false := hrest d rfl
      rw [List.nil_append, List.takeWhile_cons, List.dropWhile_cons, hd]
      exact ⟨rfl, rfl⟩
  | cons c cs ih =>
    rw [List.all_cons, Bool.and_eq_true] at hcs
    obtain ⟨htake, hdrop⟩ := ih hcs.2
    rw [List.cons_append, List.takeWhile_cons, List.dropWhile_cons, hcs.1, if_pos rfl, if_pos rfl,
      htake, hdrop]
    exact ⟨rfl, rfl⟩

/-- A step at the front of a name. -/
theorem step_of_startsName {c : Char} (h : startsName c = true) (line : Nat) (cs : List Char) :
    step line c cs
      = .ok ⟨some ⟨.name (String.ofList (c :: cs.takeWhile continuesName)), line⟩, line,
          cs.dropWhile continuesName⟩ := by
  have hblank : isBlank c = false := not_isBlank_of_continuesName (continuesName_of_startsName h)
  have hnewline : c ≠ '\n' := ne_of_startsName h (by decide)
  have hslash : ¬ '/' = c := (ne_of_startsName h (by decide)).symm
  have hdot : c ≠ '.' := ne_of_startsName h (by decide)
  have hquote : ¬ (c = '"' ∨ c = '\'' ∨ c = Char.ofNat 96) := by
    rintro (rfl | rfl | rfl)
    · exact absurd h (by decide)
    · exact absurd h (by decide)
    · exact absurd h (by decide)
  have hnumber : startsNumber (c :: cs) = false := by
    simp only [startsNumber]
    split
    · rename_i heq
      cases heq
      exact absurd rfl hdot
    · rename_i heq
      cases heq
      exact not_isDigit_of_startsName h
    · rfl
  have hcomment (d : Char) : startsWith ['/', d] (c :: cs) = false := by
    rw [startsWith, stripFront]
    rw [if_neg hslash]
    rfl
  rw [step]
  rw [if_neg hnewline, if_neg (Bool.eq_false_iff.mp hblank),
    if_neg (Bool.eq_false_iff.mp (hcomment '/')), if_neg (Bool.eq_false_iff.mp (hcomment '*')),
    if_neg (Bool.eq_false_iff.mp hnumber), if_neg hquote, if_pos h]

/-- A name is one token. -/
theorem Lexes.name (line : Nat) {c : Char} {cs rest : List Char} (hc : startsName c = true)
    (hcs : cs.all continuesName = true) (hrest : EndsName rest) :
    Lexes line (c :: (cs ++ rest)) [⟨.name (String.ofList (c :: cs)), line⟩] line rest := by
  obtain ⟨htake, hdrop⟩ := takeWhile_append_of_endsName hcs hrest
  refine Lexes.token ?_ ?_
  · rw [step_of_startsName hc, htake, hdrop]
  · rw [List.length_append]
    omega

/-! ### Signs -/

/-- A step at the front of a sign that begins neither a comment nor a number. -/
theorem step_of_punctuator {c : Char} {cs rest : List Char} {p : Punctuator}
    (h : punctuator? (c :: cs) = some (p, rest)) (hblank : isBlank c = false)
    (hname : startsName c = false) (hquote : ¬ (c = '"' ∨ c = '\'' ∨ c = Char.ofNat 96))
    (hslash : c ≠ '/') (hnumber : startsNumber (c :: cs) = false) (line : Nat) :
    step line c cs = .ok ⟨some ⟨.sign p, line⟩, line, rest⟩ := by
  have hnewline : c ≠ '\n' := by
    rintro rfl
    exact absurd hblank (by decide)
  have hcomment (d : Char) : startsWith ['/', d] (c :: cs) = false := by
    rw [startsWith, stripFront]
    rw [if_neg hslash.symm]
    rfl
  rw [step]
  rw [if_neg hnewline, if_neg (Bool.eq_false_iff.mp hblank),
    if_neg (Bool.eq_false_iff.mp (hcomment '/')), if_neg (Bool.eq_false_iff.mp (hcomment '*')),
    if_neg (Bool.eq_false_iff.mp hnumber), if_neg hquote, if_neg (Bool.eq_false_iff.mp hname), h]

/-- The signs that are one character long and that no longer sign begins with. -/
def simpleSigns : List Punctuator :=
  [.openParen, .closeParen, .openBrace, .closeBrace, .openBracket, .closeBracket, .comma,
    .semicolon, .colon]

/-- A simple sign is one token, whatever follows. -/
theorem Lexes.simpleSign (line : Nat) {p : Punctuator} (hp : p ∈ simpleSigns) (rest : List Char) :
    Lexes line (p.spelling ++ rest) [⟨.sign p, line⟩] line rest := by
  rw [simpleSigns] at hp
  simp only [List.mem_cons, List.not_mem_nil, or_false] at hp
  rcases hp with rfl | rfl | rfl | rfl | rfl | rfl | rfl | rfl | rfl <;>
    exact Lexes.token (step_of_punctuator rfl (by decide) (by decide) (by decide) (by decide) rfl _)
      (Nat.le_refl _)

/-- A dot in front of a name is a token. -/
theorem Lexes.dot (line : Nat) {c : Char} (hc : startsName c = true) (rest : List Char) :
    Lexes line ('.' :: c :: rest) [⟨.sign .dot, line⟩] line (c :: rest) := by
  have hdot : ¬ '.' = c := (ne_of_startsName hc (by decide)).symm
  have hfind : Punctuator.all.find? (fun p => startsWith p.spelling ('.' :: c :: rest))
      = some .dot := by
    simp [Punctuator.all, List.find?, startsWith, stripFront, Punctuator.spelling, hdot]
  have hpunctuator : punctuator? ('.' :: c :: rest) = some (.dot, c :: rest) := by
    rw [punctuator?]
    rw [hfind]
    rfl
  refine Lexes.token (step_of_punctuator hpunctuator (by decide) (by decide) (by decide) (by decide)
    ?_ _) (Nat.le_refl _)
  exact not_isDigit_of_startsName hc

/-- The sign of adding to what is there is a token. -/
theorem Lexes.addTo (line : Nat) (rest : List Char) :
    Lexes line ('+' :: '=' :: rest) [⟨.sign .addTo, line⟩] line rest := by
  refine Lexes.token
    (step_of_punctuator rfl (by decide) (by decide) (by decide) (by decide) rfl _) ?_
  exact Nat.le_succ _

/-- The sign of assigning in front of a space is a token. -/
theorem Lexes.becomes (line : Nat) (rest : List Char) :
    Lexes line ('=' :: ' ' :: rest) [⟨.sign .becomes, line⟩] line (' ' :: rest) :=
  Lexes.token (step_of_punctuator rfl (by decide) (by decide) (by decide) (by decide) rfl _)
    (Nat.le_refl _)

/-! ### Strings -/

section

open Json (FourDigits)

variable {digits : List Char} {n : Nat} (h : FourDigits digits n) (rest : List Char)
include h

theorem hexFour?_of_fourDigits : hexFour? (digits ++ rest) = some n := by
  have hlength : ¬ (digits ++ rest).length < 4 := by
    rw [List.length_append, h.length]
    omega
  have htake : (digits ++ rest).take 4 = digits := by
    rw [← h.length, List.take_left]
  rw [hexFour?, if_neg hlength, htake, hexNumber?.eq_def]
  split
  · -- Only the lexer allows a plus, which is no digit.
    exact absurd List.mem_cons_self (h.notMem (.inl (by decide)))
  · exact h.value

/-- What four digits are read as, where no brace opens. -/
theorem readNumbered_fourDigits :
    readNumbered (digits ++ rest) =
      if isLeading n then
        match trailing? rest with
        | some low =>
          some (Char.ofNat (0x10000 + (n - 0xD800) * 1024 + (low - 0xDC00)), rest.drop 6)
        | none => some (replacement, rest)
      else some (if isScalar n then Char.ofNat n else replacement, rest) := by
  have hdrop : (digits ++ rest).drop 4 = rest := by
    rw [← h.length, List.drop_left]
  rw [readNumbered, hexFour?_of_fourDigits h]
  · dsimp only
    rewrite [hdrop]
    rfl
  · intro inner heq
    cases digits with
    | nil => cases h.length
    | cons c cs =>
      cases heq
      exact absurd List.mem_cons_self (h.notMem (.inr (by decide)))

end

/-- Reading undoes every way to write a character by numbers. -/
theorem readNumbered_numbers {front : List Char} {c : Char} (h : Json.Numbers front c)
    (rest : List Char) : readNumbered (front ++ rest) = some (c, rest) := by
  cases h with
  | @scalar digits n h hn =>
    have hlt := h.lt
    have hleading : isLeading n = false := by
      rw [isLeading, Bool.and_eq_false_iff, decide_eq_false_iff_not, decide_eq_false_iff_not]
      omega
    have hscalar : isScalar n = true := by
      rw [isScalar, Bool.or_eq_true, Bool.and_eq_true, decide_eq_true_eq, decide_eq_true_eq,
        decide_eq_true_eq]
      omega
    rw [readNumbered_fourDigits h, hleading, hscalar]
    rfl
  | @pair digits digits' high low h h' hhigh hlow =>
    have hleading : isLeading high = true := by
      rw [isLeading, Bool.and_eq_true, decide_eq_true_eq, decide_eq_true_eq]
      exact hhigh
    have htrailing : isTrailing low = true := by
      rw [isTrailing, Bool.and_eq_true, decide_eq_true_eq, decide_eq_true_eq]
      exact hlow
    have hsome : trailing? ('\\' :: 'u' :: (digits' ++ rest)) = some low := by
      rw [trailing?, hexFour?_of_fourDigits h', Option.filter_some, if_pos htrailing]
    have hdrop : ('\\' :: 'u' :: (digits' ++ rest)).drop 6 = rest := by
      show (digits' ++ rest).drop 4 = rest
      rw [← h'.length, List.drop_left]
    rw [List.append_assoc, List.cons_append, List.cons_append, readNumbered_fourDigits h,
      if_pos hleading, hsome]
    dsimp only
    rw [hdrop]

/-- Reading passes over a character that stands for itself. -/
theorem readString_plain {c : Char} (hquote : c ≠ '"') (hnewline : c ≠ '\n') (hslash : c ≠ '\\')
    (bound line : Nat) (seen rest : List Char) :
    readString '"' (bound + 1) line seen (c :: rest)
      = readString '"' bound line (c :: seen) rest := by
  rw [readString.eq_def]
  dsimp only
  rw [if_neg hquote, if_neg hnewline, if_neg hslash]

/-- Reading passes over a numbered escape. -/
theorem readString_numbered {cs rest : List Char} {d : Char}
    (h : readNumbered cs = some (d, rest)) (bound line : Nat) (seen : List Char) :
    readString '"' (bound + 1) line seen ('\\' :: 'u' :: cs)
      = readString '"' bound line (d :: seen) rest := by
  rw [readString.eq_def]
  dsimp only
  rw [if_neg (by decide), if_neg (by decide), if_pos rfl]
  simp only [h]

section

open Json (Spells Spelled)

variable {raw cs : List Char}

/-- Reading undoes every way to write a character. -/
theorem readString_spells {front : List Char} {c : Char} (h : Spells front c) (bound line : Nat)
    (seen rest : List Char) :
    readString '"' (bound + 1) line seen (front ++ rest)
      = readString '"' bound line (c :: seen) rest := by
  cases h with
  | plain hcontrol hquote hslash =>
    have hnewline : c ≠ '\n' := by
      rintro rfl
      exact absurd hcontrol (by decide)
    exact readString_plain hquote hnewline hslash bound line seen rest
  | escape h =>
    cases h with
    | short h =>
      rw [Json.shortEscapes] at h
      simp only [List.mem_cons, Prod.mk.injEq, List.not_mem_nil, or_false] at h
      rcases h with ⟨rfl, rfl⟩ | ⟨rfl, rfl⟩ | ⟨rfl, rfl⟩ | ⟨rfl, rfl⟩ | ⟨rfl, rfl⟩ | ⟨rfl, rfl⟩
        | ⟨rfl, rfl⟩ | ⟨rfl, rfl⟩ <;> rfl
    | number h => exact readString_numbered (readNumbered_numbers h rest) bound line seen

/-- Reading undoes every way to write a text. -/
theorem readString_spelled (h : Spelled raw cs) (bound line : Nat) (seen rest : List Char) :
    readString '"' (bound + cs.length) line seen (raw ++ rest)
      = readString '"' bound line (cs.reverse ++ seen) rest := by
  induction h generalizing seen with
  | nil => rfl
  | cons h _ ih =>
    rw [List.append_assoc, List.length_cons, ← Nat.add_assoc, readString_spells h, ih,
      List.reverse_cons, List.append_assoc]
    rfl

/-- What reading finds behind a text that is written before its first step runs out. -/
theorem readString_behind (h : Spelled raw cs) (line : Nat) (rest : List Char) :
    ∃ bound, readString '"' ((raw ++ rest).length + 1) line [] (raw ++ rest)
      = readString '"' (bound + 1) line cs.reverse rest := by
  refine ⟨(raw.length - cs.length) + rest.length, ?_⟩
  have hlength := h.length_le
  have hbound : (raw ++ rest).length + 1
      = (raw.length - cs.length) + rest.length + 1 + cs.length := by
    rw [List.length_append]
    omega
  rw [hbound, readString_spelled h, List.append_nil]

/-- A text between quotes is one token, however it is written. -/
theorem Lexes.spelled (line : Nat) (h : Spelled raw cs) (rest : List Char) :
    Lexes line ('"' :: (raw ++ '"' :: rest)) [⟨.text (String.ofList cs), line⟩] line rest := by
  refine Lexes.token ?_ ?_
  · obtain ⟨bound, hread⟩ := readString_behind h line ('"' :: rest)
    have hclose : readString '"' (bound + 1) line cs.reverse ('"' :: rest)
        = .ok (String.ofList cs, line, rest) := by
      rw [readString.eq_def]
      dsimp only
      rw [if_pos rfl, List.reverse_reverse]
    show (readString '"' _ line [] _).map _ = _
    rw [hread, hclose]
    rfl
  · rw [List.length_append, List.length_cons]
    omega

end

/-- A quoted text is one token. -/
theorem Lexes.quoted (line : Nat) (cs rest : List Char) :
    Lexes line (Json.quoteChars cs ++ rest) [⟨.text (String.ofList cs), line⟩] line rest := by
  have hshape : Json.quoteChars cs ++ rest = '"' :: (cs.flatMap Json.quoteChar ++ '"' :: rest) := by
    simp only [Json.quoteChars, List.append_assoc, List.cons_append, List.nil_append]
  rw [hshape]
  exact Lexes.spelled line (Json.spelled_flatMap_quoteChar cs) rest

/-! ### Whole sources -/

/-- A source that is one stretch has the tokens of the stretch. -/
theorem lexChars_of_lexes {cs : List Char} {tokens : List Token} {last : Nat}
    (h : Lexes 1 cs tokens last []) : lexChars cs = .ok ⟨tokens, last⟩ := by
  obtain ⟨bound, -, heq⟩ := h cs.length [] (Nat.le_refl _)
  rw [lexChars]
  rw [heq, List.append_nil]
  rw [lexWithin]
  rw [List.reverse_reverse]

/-- The tokens that were found before, in front of those that are found. -/
def Lexed.behind (seen : List Token) (l : Lexed) : Lexed := ⟨seen.reverse ++ l.tokens, l.endLine⟩

/-- With a bound that is large enough, what was found before changes nothing. -/
theorem lexWithin_eq : (cs : List Char) → ∀ {bound line : Nat} {seen : List Token},
    cs.length ≤ bound →
    lexWithin bound line seen cs = (lexWithin cs.length line [] cs).map (Lexed.behind seen)
  | [], bound, line, seen, _ => by
    rw [lexWithin, lexWithin]
    simp [Except.map, Lexed.behind]
  | c :: cs, bound, line, seen, hbound => by
    rw [List.length_cons] at hbound
    obtain ⟨bound, rfl⟩ : ∃ b, bound = b + 1 := ⟨bound - 1, by omega⟩
    rw [List.length_cons, lexWithin, lexWithin]
    cases hstep : step line c cs with
    | error e => rfl
    | ok found =>
      obtain ⟨token, last, rest⟩ := found
      have hrest : rest.length ≤ cs.length := length_step hstep
      have hagain {bound : Nat} {seen : List Token} (hbound : rest.length ≤ bound) :
          lexWithin bound last seen rest
            = (lexWithin rest.length last [] rest).map (Lexed.behind seen) :=
        lexWithin_eq rest hbound
      cases token with
      | none =>
        dsimp only
        rw [hagain (by omega), hagain hrest]
        cases lexWithin rest.length last [] rest <;> rfl
      | some token =>
        dsimp only
        rw [hagain (by omega), hagain hrest]
        cases lexWithin rest.length last [] rest with
        | error e => rfl
        | ok l => simp [Except.map, Lexed.behind]
termination_by cs => cs.length
decreasing_by exact Nat.lt_succ_of_le hrest

/-- The tokens of a source whose front is one stretch. -/
theorem Lexes.lexChars_eq {cs rest : List Char} {tokens : List Token} {last : Nat}
    (h : Lexes 1 cs tokens last rest) :
    lexChars cs = (lexWithin rest.length last [] rest).map (Lexed.behind tokens.reverse) := by
  obtain ⟨bound, hbound, heq⟩ := h cs.length [] (Nat.le_refl _)
  rw [lexChars]
  rw [heq, List.append_nil, lexWithin_eq rest hbound]

end Stencil.Routine
