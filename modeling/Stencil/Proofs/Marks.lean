import Mathlib.Data.List.Chain
import Mathlib.Data.List.TakeWhile
import Mathlib.Tactic.SplitIfs
import Stencil.Json.Quote
import Stencil.Text.Blank
import Stencil.Text.Scan
import Stencil.Text.Search

/-!
# What is found in a text

The functions that read a text from its front are computed by stripping and trimming.  Here they are
told by what the text looks like: in front of what is left stands a needle, or blanks, or a stretch
of characters of one kind.

* `Blanks` — a stretch of blanks;
* `stripFront_eq_some_iff`, `stripFront_trimStart_eq_some_iff` — a needle, and blanks in front of it;
* `cut_cons_of_stripFront`, `cut_of_notMem` — where cutting moves on;
* `cut_eq_some_iff`, `cut_eq_none_iff` — cutting finds the leftmost occurrence, if there is any;
* `Apart`, `apart_iff`, `cut_pair` — texts in which a character never stands twice in a row, and what
  is cut behind them;
* `span_eq_iff` — the longest stretch of one kind;
* `Trimmed`, `trim_eq_iff` — the blanks around a text;
* `Cuts`, `scan_eq_iff` — the characters and marks that a scan finds;
* `find?_marksOf_eq_some_iff` — the first mark of a kind.
-/

namespace Stencil.Text

/-! ### Blanks and needles -/

/-- A stretch of blanks. -/
def Blanks (cs : List Char) : Prop := ∀ c ∈ cs, isBlank c = true

theorem Blanks.trimStart_append {b : List Char} (hb : Blanks b) (cs : List Char) :
    trimStart (b ++ cs) = trimStart cs :=
  List.dropWhile_append_of_pos hb

/-- In front of what `trimStart` leaves stand blanks. -/
theorem exists_blanks_trimStart (cs : List Char) : ∃ b, Blanks b ∧ cs = b ++ trimStart cs :=
  ⟨cs.takeWhile isBlank, fun _ hc => List.mem_takeWhile_imp hc,
    List.takeWhile_append_dropWhile.symm⟩

theorem stripFront_eq_some_iff {needle cs rest : List Char} :
    stripFront needle cs = some rest ↔ cs = needle ++ rest :=
  ⟨eq_of_stripFront, fun h => h ▸ stripFront_append needle rest⟩

theorem stripFront_eq_none_iff {needle cs : List Char} :
    stripFront needle cs = none ↔ ¬ needle <+: cs := by
  rw [Option.eq_none_iff_forall_ne_some, List.IsPrefix, not_exists]
  exact forall_congr' fun rest => not_congr (stripFront_eq_some_iff.trans eq_comm)

/-- Behind blanks stands a needle that does not begin with one. -/
theorem stripFront_trimStart_eq_some_iff {d : Char} {needle cs rest : List Char}
    (hd : isBlank d = false) :
    stripFront (d :: needle) (trimStart cs) = some rest
      ↔ ∃ b, Blanks b ∧ cs = b ++ (d :: needle ++ rest) := by
  rw [stripFront_eq_some_iff]
  constructor
  · intro h
    obtain ⟨b, hb, hcs⟩ := exists_blanks_trimStart cs
    exact ⟨b, hb, h ▸ hcs⟩
  · rintro ⟨b, hb, rfl⟩
    rw [hb.trimStart_append]
    exact trimStart_of_not_blank hd

theorem stripFront_append_eq_none {needle cs : List Char} (h : stripFront needle cs = none)
    (more : List Char) : stripFront (needle ++ more) cs = none := by
  induction needle generalizing cs with
  | nil => cases h
  | cons d ds ih =>
    cases cs with
    | nil => rfl
    | cons c cs =>
      rw [stripFront] at h
      rw [List.cons_append, stripFront]
      split
      · rename_i heq
        rw [if_pos heq] at h
        exact ih h
      · rfl

/-! ### Cutting -/

theorem cutFrom_eq (needle seen cs : List Char) :
    cutFrom needle seen cs
      = (cut needle cs).map fun parts => (seen.reverse ++ parts.1, parts.2) := by
  rw [cut]
  induction cs generalizing seen with
  | nil =>
    simp only [cutFrom]
    split
    · rw [Option.map_some, List.reverse_nil, List.append_nil]
    · rfl
  | cons c cs ih =>
    simp only [cutFrom]
    split
    · rw [Option.map_some, List.reverse_nil, List.append_nil]
    · rw [ih (c :: seen), ih [c]]
      cases cutFrom needle [] cs with
      | none => rfl
      | some parts =>
        simp only [Option.map_some, List.reverse_cons, List.reverse_nil, List.nil_append,
          List.append_assoc]

/-- What is put in front of the first part of a cut. -/
def inFront (cs : List Char) (parts : List Char × List Char) : List Char × List Char :=
  (cs ++ parts.1, parts.2)

theorem map_inFront_nil (parts : Option (List Char × List Char)) :
    parts.map (inFront []) = parts := by
  cases parts <;> rfl

/-- Where the needle does not begin, cutting moves on by a character. -/
theorem cut_cons_of_stripFront {needle cs : List Char} {c : Char}
    (h : stripFront needle (c :: cs) = none) :
    cut needle (c :: cs) = (cut needle cs).map (inFront [c]) := by
  have hmove : cut needle (c :: cs) = cutFrom needle [c] cs := by
    rw [cut]
    rw [cutFrom, h]
  rw [hmove, cutFrom_eq]
  rfl

/-- A text that cannot take part in an occurrence of the needle. -/
theorem cut_of_notMem {d : Char} {ds cs : List Char} (h : d ∉ cs) (rest : List Char) :
    cut (d :: ds) (cs ++ rest) = (cut (d :: ds) rest).map (inFront cs) := by
  induction cs with
  | nil => exact (map_inFront_nil _).symm
  | cons c cs ih =>
    rw [List.mem_cons, not_or] at h
    have hstrip : stripFront (d :: ds) (c :: (cs ++ rest)) = none := by
      rw [stripFront, if_neg h.1]
    rw [List.cons_append, cut_cons_of_stripFront hstrip, ih h.2, Option.map_map]
    rfl

theorem cut_of_stripFront {needle cs rest : List Char} (h : stripFront needle cs = some rest) :
    cut needle cs = some ([], rest) := by
  cases cs <;> rw [cut, cutFrom, h] <;> rfl

/-- Cutting finds the leftmost occurrence. -/
theorem cut_of_leftmost {needle cs front rest : List Char} (hcs : cs = front ++ (needle ++ rest))
    (hleft : ∀ i < front.length, ¬ needle <+: cs.drop i) : cut needle cs = some (front, rest) := by
  induction front generalizing cs with
  | nil => exact cut_of_stripFront (stripFront_eq_some_iff.mpr hcs)
  | cons c front ih =>
    subst hcs
    have hnot := stripFront_eq_none_iff.mpr (hleft 0 (Nat.zero_lt_succ _))
    have hrest := ih rfl fun i hi => hleft (i + 1) (Nat.succ_lt_succ hi)
    rw [List.drop_zero, List.cons_append] at hnot
    rw [List.cons_append, cut_cons_of_stripFront hnot, hrest]
    rfl

/-- In front of what cutting finds, the needle does not occur. -/
theorem leftmost_of_cut {needle cs front rest : List Char} (h : cut needle cs = some (front, rest)) :
    ∀ i < front.length, ¬ needle <+: cs.drop i := by
  induction cs generalizing front with
  | nil =>
    have hnil := List.append_eq_nil_iff.mp (eq_of_cut h).symm
    rw [(List.append_eq_nil_iff.mp hnil.1).1]
    exact fun i hi => absurd hi (Nat.not_lt_zero i)
  | cons c cs ih =>
    cases hstrip : stripFront needle (c :: cs) with
    | some tail =>
      rw [cut_of_stripFront hstrip] at h
      cases h
      exact fun i hi => absurd hi (Nat.not_lt_zero i)
    | none =>
      rw [cut_cons_of_stripFront hstrip, Option.map_eq_some_iff] at h
      obtain ⟨⟨front', rest'⟩, hcut, heq⟩ := h
      cases heq
      intro i hi
      cases i with
      | zero => exact stripFront_eq_none_iff.mp hstrip
      | succ i => exact ih hcut i (Nat.lt_of_succ_lt_succ hi)

/-- Cutting finds the leftmost occurrence. -/
theorem cut_eq_some_iff {needle cs front rest : List Char} :
    cut needle cs = some (front, rest)
      ↔ cs = front ++ (needle ++ rest) ∧ ∀ i < front.length, ¬ needle <+: cs.drop i := by
  refine ⟨fun h => ⟨?_, leftmost_of_cut h⟩, fun ⟨hcs, hleft⟩ => cut_of_leftmost hcs hleft⟩
  rw [eq_of_cut h, List.append_assoc]

/-- Nothing is found where the needle does not occur. -/
theorem cut_eq_none_iff {needle cs : List Char} :
    cut needle cs = none ↔ ∀ i, ¬ needle <+: cs.drop i := by
  induction cs with
  | nil =>
    simp only [List.drop_nil, forall_const, List.prefix_nil]
    cases needle with
    | nil => exact ⟨nofun, fun h => absurd rfl h⟩
    | cons d ds => exact ⟨fun _ => nofun, fun _ => rfl⟩
  | cons c cs ih =>
    rw [← Nat.and_forall_add_one, List.drop_zero, ← stripFront_eq_none_iff]
    simp only [List.drop_succ_cons, ← ih]
    cases hstrip : stripFront needle (c :: cs) with
    | some tail =>
      rw [cut_of_stripFront hstrip]
      exact ⟨nofun, fun h => nomatch h.1⟩
    | none =>
      rw [cut_cons_of_stripFront hstrip, Option.map_eq_none_iff]
      exact ⟨fun h => ⟨rfl, h⟩, And.right⟩

/-! ### Characters in pairs -/

/-- The character never stands twice in a row. -/
def Apart (d : Char) (cs : List Char) : Prop := cs.IsChain fun a b => a = d → b ≠ d

theorem apart_of_notMem {d : Char} {cs : List Char} (h : d ∉ cs) : Apart d cs := by
  induction cs with
  | nil => exact .nil
  | cons c cs ih =>
    rw [List.mem_cons, not_or] at h
    cases cs with
    | nil => exact .singleton c
    | cons e cs => exact .cons_cons (fun hc => absurd hc.symm h.1) (ih h.2)

/-- Where a character does not stand twice in a row, no pair of it begins. -/
theorem stripFront_pair_cons {d c e : Char} {cs : List Char} (h : c = d → e ≠ d) :
    stripFront [d, d] (c :: e :: cs) = none := by
  show (if d = c then (if d = e then _ else none) else none) = none
  by_cases hc : d = c
  · rw [if_pos hc, if_neg fun he => h hc.symm he.symm]
  · rw [if_neg hc]

/-- The pair of a character occurs where the character stands twice in a row. -/
theorem apart_iff (d : Char) (cs : List Char) : Apart d cs ↔ contains [d, d] cs = false := by
  induction cs with
  | nil => exact ⟨fun _ => rfl, fun _ => .nil⟩
  | cons c cs ih =>
    have hmove (hnone : stripFront [d, d] (c :: cs) = none) :
        contains [d, d] (c :: cs) = contains [d, d] cs := by
      rw [contains, cut_cons_of_stripFront hnone, Option.isSome_map]
      rfl
    cases cs with
    | nil =>
      refine ⟨fun _ => ?_, fun _ => .singleton c⟩
      rw [hmove]
      · rfl
      · show (if d = c then none else none) = none
        exact ite_self none
    | cons e cs =>
      rw [Apart, List.isChain_cons_cons]
      by_cases hpair : c = d ∧ e = d
      · obtain ⟨rfl, rfl⟩ := hpair
        refine ⟨fun h => absurd rfl (h.1 rfl), fun h => ?_⟩
        have hfound : stripFront [e, e] (e :: e :: cs) = some cs := stripFront_append [e, e] cs
        rw [contains, cut, cutFrom, hfound] at h
        cases h
      · have hapart : c = d → e ≠ d := fun hc he => hpair ⟨hc, he⟩
        rw [hmove (stripFront_pair_cons hapart), ← ih]
        exact ⟨And.right, fun h => ⟨hapart, h⟩⟩

/-- No pair begins in a text in which the character is never doubled and which does not end with
it. -/
theorem stripFront_pair_append {d c : Char} {cs : List Char} (h : Apart d (c :: cs))
    (hlast : (c :: cs).getLast? ≠ some d) (rest : List Char) :
    stripFront [d, d] (c :: (cs ++ rest)) = none := by
  cases cs with
  | nil =>
    have hne : d ≠ c := fun hdc => hlast (congrArg some hdc.symm)
    exact if_neg hne
  | cons e cs => exact stripFront_pair_cons (List.isChain_cons_cons.mp h).1

/-- The last character stays the same without the first one. -/
theorem getLast?_ne_of_cons {d c : Char} {cs : List Char} (h : (c :: cs).getLast? ≠ some d) :
    cs.getLast? ≠ some d := by
  cases cs with
  | nil => exact nofun
  | cons e cs => exact h

/-- The first pair is the one that follows, behind a text in which the character is never doubled
and which does not end with it. -/
theorem cut_pair {d : Char} {cs : List Char} (h : Apart d cs) (hlast : cs.getLast? ≠ some d)
    (rest : List Char) : cut [d, d] (cs ++ d :: d :: rest) = some (cs, rest) := by
  induction cs with
  | nil =>
    have hfound : stripFront [d, d] (d :: d :: rest) = some rest := stripFront_append [d, d] rest
    rw [List.nil_append, cut, cutFrom, hfound]
    rfl
  | cons c cs ih =>
    rw [List.cons_append, cut_cons_of_stripFront (stripFront_pair_append h hlast _),
      ih h.tail (getLast?_ne_of_cons hlast)]
    rfl

theorem Apart.within {d : Char} {cs ds : List Char} (h : Apart d ds) (hpart : cs <:+: ds) :
    Apart d cs := List.IsChain.infix h hpart

theorem Apart.append {d : Char} {cs ds : List Char} (h : Apart d cs) (h' : Apart d ds)
    (hlast : cs.getLast? ≠ some d) : Apart d (cs ++ ds) := by
  refine List.isChain_append.mpr ⟨h, h', fun a ha b _ hd => absurd ?_ hlast⟩
  rw [Option.mem_def.mp ha, hd]

theorem Apart.append_of_head {d : Char} {cs ds : List Char} (h : Apart d cs) (h' : Apart d ds)
    (hhead : ds.head? ≠ some d) : Apart d (cs ++ ds) := by
  refine List.isChain_append.mpr ⟨h, h', fun a _ b hb _ hd => absurd ?_ hhead⟩
  rw [Option.mem_def.mp hb, hd]

/-- No character but the bracket itself is quoted with a bracket. -/
theorem notMem_quoteChar {b c : Char} (hb : b = '[' ∨ b = ']') (h : b ≠ c) :
    b ∉ Json.quoteChar c := by
  have hcontrol : ∀ b ∈ ['[', ']'], ∀ n < 32, b ∉ ['\\', 'u', '0', '0', Json.hexDigit (n / 16),
      Json.hexDigit (n % 16)] :=
    List.forall_mem_cons.mpr ⟨by decide +kernel, List.forall_mem_singleton.mpr (by decide +kernel)⟩
  have hmem : b ∈ ['[', ']'] := by simpa using hb
  have hplain : ∀ b ∈ ['[', ']'], b ∉ ['\\', '"'] ∧ b ∉ ['\\', '\\'] ∧ b ∉ ['\\', 'n']
      ∧ b ∉ ['\\', 't'] ∧ b ∉ ['\\', 'r'] ∧ b ∉ ['\\', 'b'] ∧ b ∉ ['\\', 'f'] :=
    List.forall_mem_cons.mpr ⟨by decide, List.forall_mem_singleton.mpr (by decide)⟩
  obtain ⟨hquote, hslash, hn, ht, hr, hback, hfeed⟩ := hplain b hmem
  rw [Json.quoteChar]
  split_ifs with _ _ hprintable
  · exact hquote
  · exact hslash
  · rwa [List.mem_singleton]
  · exact hn
  · exact ht
  · exact hr
  · exact hback
  · exact hfeed
  · exact hcontrol b hmem _ (Nat.lt_of_not_le hprintable)

theorem exists_cons_quoteChar (c : Char) : ∃ d ds, Json.quoteChar c = d :: ds := by
  refine List.exists_cons_of_ne_nil ?_
  rw [Json.quoteChar]
  split_ifs <;> exact List.cons_ne_nil _ _

/-- A quoted text has no more pairs of a bracket than the text. -/
theorem Apart.flatMap_quoteChar {b : Char} (hb : b = '[' ∨ b = ']') {cs : List Char}
    (h : Apart b cs) : Apart b (cs.flatMap Json.quoteChar) := by
  induction cs with
  | nil => exact .nil
  | cons c cs ih =>
    rw [List.flatMap_cons]
    refine List.isChain_append.mpr ⟨?_, ih h.tail, fun a ha d hd hbracket => ?_⟩
    · by_cases hc : b = c
      · subst hc
        rcases hb with rfl | rfl <;> exact .singleton _
      · exact apart_of_notMem (notMem_quoteChar hb hc)
    · -- The bracket is the character itself, and so is one that follows it.
      have hc : c = b := by
        by_contra hne
        exact notMem_quoteChar hb (Ne.symm hne) (hbracket ▸ List.mem_of_getLast? ha)
      rintro rfl
      cases cs with
      | nil => cases hd
      | cons e cs =>
        have hnot := notMem_quoteChar hb (Ne.symm ((List.isChain_cons_cons.mp h).1 hc))
        obtain ⟨f, fs, hfs⟩ := exists_cons_quoteChar e
        rw [List.flatMap_cons, hfs] at hd
        rw [hfs] at hnot
        cases hd
        exact hnot List.mem_cons_self

/-! ### Stretches of one kind -/

/-- The longest stretch of one kind ends where the text ends or something else follows. -/
theorem span_eq_iff {p : Char → Bool} {cs stretch rest : List Char} :
    cs.takeWhile p = stretch ∧ cs.dropWhile p = rest
      ↔ cs = stretch ++ rest ∧ (∀ c ∈ stretch, p c = true) ∧ ∀ c ∈ rest.head?, p c = false := by
  constructor
  · rintro ⟨rfl, rfl⟩
    refine ⟨List.takeWhile_append_dropWhile.symm, fun _ hc => List.mem_takeWhile_imp hc, ?_⟩
    intro c hc
    have h := List.head?_dropWhile_not p cs
    rw [Option.mem_def.mp hc] at h
    simpa using h
  · rintro ⟨rfl, hstretch, hrest⟩
    have hdrop : rest.dropWhile p = rest := by
      cases rest with
      | nil => rfl
      | cons c rest => rw [List.dropWhile_cons_of_neg (by simp [hrest c rfl])]
    have htake : rest.takeWhile p = [] := by
      cases rest with
      | nil => rfl
      | cons c rest => rw [List.takeWhile_cons_of_neg (by simp [hrest c rfl])]
    rw [List.takeWhile_append_of_pos hstretch, List.dropWhile_append_of_pos hstretch, hdrop, htake,
      List.append_nil]
    exact ⟨rfl, rfl⟩

/-! ### Trimming -/

/-- Behind blanks stands what does not begin with one. -/
theorem trimStart_eq_iff {cs rest : List Char} :
    trimStart cs = rest
      ↔ ∃ front, Blanks front ∧ cs = front ++ rest ∧ ∀ c ∈ rest.head?, isBlank c = false := by
  constructor
  · intro h
    obtain ⟨hcs, hfront, hhead⟩ := span_eq_iff.mp ⟨rfl, h⟩
    exact ⟨_, hfront, hcs, hhead⟩
  · rintro ⟨front, hfront, hcs, hhead⟩
    exact (span_eq_iff.mpr ⟨hcs, hfront, hhead⟩).2

/-- In front of blanks stands what does not end with one. -/
theorem trimEnd_eq_iff {cs front : List Char} :
    trimEnd cs = front
      ↔ ∃ back, Blanks back ∧ cs = front ++ back ∧ ∀ c ∈ front.getLast?, isBlank c = false := by
  have hreverse : trimEnd cs = front ↔ trimStart cs.reverse = front.reverse := by
    rw [trimEnd, List.reverse_eq_iff]
    rfl
  rw [hreverse, trimStart_eq_iff, ← List.getLast?_eq_head?_reverse]
  constructor
  · rintro ⟨back, hback, hcs, hlast⟩
    refine ⟨back.reverse, fun c hc => hback c (List.mem_reverse.mp hc), ?_, hlast⟩
    rw [← List.reverse_reverse cs, hcs, List.reverse_append, List.reverse_reverse]
  · rintro ⟨back, hback, rfl, hlast⟩
    exact ⟨back.reverse, fun c hc => hback c (List.mem_reverse.mp hc), List.reverse_append, hlast⟩

/-- The text is this one with blanks around it, which itself neither begins nor ends with one. -/
structure Trimmed (cs inner : List Char) : Prop where
  around : ∃ front back, Blanks front ∧ Blanks back ∧ cs = front ++ (inner ++ back)
  head : ∀ c ∈ inner.head?, isBlank c = false
  last : ∀ c ∈ inner.getLast?, isBlank c = false

theorem trim_eq_iff {cs inner : List Char} : trim cs = inner ↔ Trimmed cs inner := by
  simp only [trim, trimEnd_eq_iff, trimStart_eq_iff]
  constructor
  · rintro ⟨back, hback, ⟨front, hfront, hcs, hhead⟩, hlast⟩
    refine ⟨⟨front, back, hfront, hback, hcs⟩, fun c hc => hhead c ?_, hlast⟩
    rw [List.head?_append, Option.mem_def.mp hc]
    rfl
  · rintro ⟨⟨front, back, hfront, hback, rfl⟩, hhead, hlast⟩
    cases inner with
    | nil =>
      refine ⟨[], nofun, ⟨front ++ back, fun c hc => ?_, by simp, nofun⟩, hlast⟩
      exact (List.mem_append.mp hc).elim (hfront c) (hback c)
    | cons d ds => exact ⟨back, hback, ⟨front, hfront, rfl, hhead⟩, hlast⟩

/-! ### Scanning -/

variable {α : Type}

/-- The text falls apart into these characters and marks: a mark wherever one stands at the front of
what is left, and else a character. -/
inductive Cuts (Mark : List Char → α → List Char → Prop) : List Char → List (Char ⊕ α) → Prop where
  | nil : Cuts Mark [] []
  | mark {cs rest : List Char} {a : α} {parts : List (Char ⊕ α)} (h : Mark cs a rest)
      (hrest : Cuts Mark rest parts) : Cuts Mark cs (.inr a :: parts)
  | char {c : Char} {cs : List Char} {parts : List (Char ⊕ α)}
      (h : ∀ a rest, ¬ Mark (c :: cs) a rest) (hrest : Cuts Mark cs parts) :
      Cuts Mark (c :: cs) (.inl c :: parts)

section Scan

variable {mark? : List Char → Option (α × List Char)} {Mark : List Char → α → List Char → Prop}
  (hmark : ∀ cs a rest, mark? cs = some (a, rest) ↔ Mark cs a rest)
  (hshort : ∀ cs a rest, Mark cs a rest → rest.length < cs.length)
include hmark hshort

/-- A scan with a bound that is large enough cuts the text. -/
theorem cuts_scanWithin (bound : Nat) (cs : List Char) (hbound : cs.length ≤ bound) :
    Cuts Mark cs (scanWithin mark? bound cs) := by
  induction bound generalizing cs with
  | zero =>
    obtain rfl := List.length_eq_zero_iff.mp (Nat.le_zero.mp hbound)
    exact .nil
  | succ bound ih =>
    cases cs with
    | nil => exact .nil
    | cons c cs =>
      rw [scanWithin]
      cases hfound : mark? (c :: cs) with
      | none =>
        refine .char (fun a rest h => ?_) (ih cs (by simpa using hbound))
        rw [← hmark, hfound] at h
        cases h
      | some found =>
        obtain ⟨a, rest⟩ := found
        have h := (hmark _ _ _).mp hfound
        have := hshort _ _ _ h
        exact .mark h (ih rest (by omega))

/-- A text is cut in one way only. -/
theorem Cuts.unique {cs : List Char} {parts parts' : List (Char ⊕ α)} (h : Cuts Mark cs parts)
    (h' : Cuts Mark cs parts') : parts = parts' := by
  induction h generalizing parts' with
  | nil =>
    cases h' with
    | nil => rfl
    | mark h _ => exact absurd (hshort _ _ _ h) (Nat.not_lt_zero _)
  | mark h _ ih =>
    cases h' with
    | nil => exact absurd (hshort _ _ _ h) (Nat.not_lt_zero _)
    | mark h' hrest' =>
      have heq := (hmark _ _ _).mpr h
      rw [(hmark _ _ _).mpr h'] at heq
      cases heq
      rw [ih hrest']
    | char hno _ => exact absurd h (hno _ _)
  | char hno _ ih =>
    cases h' with
    | mark h' _ => exact absurd h' (hno _ _)
    | char _ hrest' => rw [ih hrest']

/-- A scan finds exactly the characters and marks that the text falls apart into. -/
theorem scan_eq_iff {cs : List Char} {parts : List (Char ⊕ α)} :
    scan mark? cs = parts ↔ Cuts Mark cs parts := by
  have h : Cuts Mark cs (scan mark? cs) := cuts_scanWithin hmark hshort _ _ Nat.le.refl
  exact ⟨fun heq => heq ▸ h, fun h' => h.unique hmark hshort h'⟩

end Scan

theorem flatMap_partText_inl (replace : α → List Char) (cs : List Char)
    (parts : List (Char ⊕ α)) :
    (cs.map Sum.inl ++ parts).flatMap (partText replace)
      = cs ++ parts.flatMap (partText replace) := by
  induction cs with
  | nil => rfl
  | cons c cs ih =>
    rw [List.map_cons, List.cons_append, List.flatMap_cons, ih]
    rfl

/-- Where no mark stands, a character stays. -/
theorem replaceMarks_cons_of_none {mark? : List Char → Option (α × List Char)} {c : Char}
    {cs : List Char} (h : mark? (c :: cs) = none) (replace : α → List Char) :
    replaceMarks mark? replace (c :: cs) = c :: replaceMarks mark? replace cs := by
  rw [replaceMarks, scan, List.length_cons, scanWithin, h]
  rfl

/-- A mark is replaced. -/
theorem replaceMarks_of_some {mark? : List Char → Option (α × List Char)}
    (hshort : ∀ cs a rest, mark? cs = some (a, rest) → rest.length < cs.length)
    {cs rest : List Char} {a : α} (h : mark? cs = some (a, rest)) (replace : α → List Char) :
    replaceMarks mark? replace cs = replace a ++ replaceMarks mark? replace rest := by
  have hcuts := (scan_eq_iff (fun _ _ _ => Iff.rfl) hshort).mp (rfl : scan mark? rest = _)
  have hscan := (scan_eq_iff (fun _ _ _ => Iff.rfl) hshort).mpr (.mark h hcuts)
  rw [replaceMarks, hscan, List.flatMap_cons]
  rfl

/-- The first mark of a kind stands behind parts none of which is a mark of the kind. -/
theorem find?_marksOf_eq_some_iff {p : α → Bool} {parts : List (Char ⊕ α)} {a : α} :
    (marksOf parts).find? p = some a
      ↔ p a = true ∧ ∃ front back, parts = front ++ .inr a :: back
        ∧ ∀ b, .inr b ∈ front → p b = false := by
  rw [marksOf, List.find?_filterMap, Option.bind_eq_some_iff]
  constructor
  · rintro ⟨part, hfind, hright⟩
    obtain ⟨hp, front, back, hparts, hfront⟩ := List.find?_eq_some_iff_append.mp hfind
    obtain rfl : part = .inr a := Sum.getRight?_eq_some_iff.mp hright
    exact ⟨hp, front, back, hparts, fun b hb => by simpa using hfront _ hb⟩
  · rintro ⟨hp, front, back, hparts, hfront⟩
    refine ⟨.inr a, List.find?_eq_some_iff_append.mpr ⟨hp, front, back, hparts, ?_⟩, rfl⟩
    rintro (c | b) hpart
    · rfl
    · simpa using hfront b hpart

end Stencil.Text
