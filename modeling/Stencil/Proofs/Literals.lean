import Mathlib.Data.List.TakeWhile
import Stencil.Json.Read
import Stencil.Proofs.Lexing

/-!
# Strings of data in a routine

A string that stands in data, however its characters are written, stands for the same text in a
routine.  What a reader of data takes depends only on what is in front of its cursor (`Reads`), and
for each reader of a part of a string that is a kind of spelling.

* `Reads` — a reader succeeds and leaves the rest of the text;
* `reads_readHex`, `reads_readNumberedEscape`, `reads_readEscape` — the readers of escapes take
  exactly the spellings of a character;
* `reads_readString` — the reader of strings takes exactly the spellings of a text;
* `literal_iff_read` — the literals are the texts that are read as a string and are quoted at both
  ends;
* `lex_literal` — the main theorem.
-/

namespace Stencil.Json

open Text

/-! ### Readers that succeed -/

/-- The reader succeeds with the value and leaves the text. -/
def Reads {α : Type} (reader : Reader α) (p : Cursor) (a : α) (rest : List Char) : Prop :=
  ∃ q : Cursor, reader p = .ok (a, q) ∧ q.rest = rest

section

variable {α β : Type} {p : Cursor} {a : α} {b : β} {rest : List Char} {reader : Reader α}
  {next : α → Reader β}

theorem reads_pure {a' : α} : Reads (pure a) p a' rest ↔ a = a' ∧ p.rest = rest := by
  constructor
  · rintro ⟨q, hread, hrest⟩
    cases hread
    exact ⟨rfl, hrest⟩
  · rintro ⟨rfl, hrest⟩
    exact ⟨p, rfl, hrest⟩

/-- Two readers in a row. -/
theorem reads_bind :
    Reads (reader >>= next) p b rest
      ↔ ∃ a q, reader p = .ok (a, q) ∧ Reads (next a) q b rest := by
  have hbind : (reader >>= next) p = (reader p).bind fun (a, q) => next a q := rfl
  rw [Reads, hbind]
  cases reader p with
  | error e =>
    constructor
    · rintro ⟨q, ⟨⟩, -⟩
    · rintro ⟨a, q, ⟨⟩, -⟩
  | ok result =>
    obtain ⟨a, q⟩ := result
    constructor
    · exact fun hnext => ⟨a, q, rfl, hnext⟩
    · rintro ⟨a, q, ⟨⟩, hnext⟩
      exact hnext

/-- The value of a run whose last place does not matter. -/
theorem map_fst_eq_ok_iff :
    (reader p).map (·.1) = .ok a ↔ ∃ rest, Reads reader p a rest := by
  simp only [Reads]
  cases reader p with
  | error e =>
    constructor
    · nofun
    · rintro ⟨rest, q, ⟨⟩, -⟩
  | ok result =>
    obtain ⟨a', q⟩ := result
    constructor
    · rintro ⟨⟩
      exact ⟨q.rest, q, rfl, rfl⟩
    · rintro ⟨rest, q, ⟨⟩, -⟩
      rfl

theorem reads_peek_bind {next : Option Char → Reader β} :
    Reads (peek >>= next) p b rest ↔ Reads (next p.rest.head?) p b rest := Iff.rfl

theorem reads_get_bind {next : Cursor → Reader β} :
    Reads (get >>= next) p b rest ↔ Reads (next p) p b rest := Iff.rfl

theorem reads_set_bind {next : PUnit → Reader β} {q : Cursor} :
    Reads (set q >>= next) p b rest ↔ Reads (next ⟨⟩) q b rest := Iff.rfl

theorem Cursor.past_rest (p : Cursor) (c : Char) (rest : List Char) :
    (p.past c rest).rest = rest := by
  rw [Cursor.past]
  split <;> rfl

theorem reads_advance {c : Char} {cs : List Char} (hp : p.rest = c :: cs) :
    Reads advance p () rest ↔ cs = rest := by
  have hadvance : advance p = .ok ((), p.past c cs) := by
    obtain ⟨_, line, column⟩ := p
    cases hp
    rfl
  rw [Reads, hadvance]
  constructor
  · rintro ⟨q, ⟨⟩, hrest⟩
    rw [← hrest, Cursor.past_rest]
  · rintro rfl
    exact ⟨_, rfl, Cursor.past_rest p c cs⟩

/-- Moving past a character that stands here, and what is read behind it. -/
theorem reads_advance_bind {c : Char} {cs : List Char} {next : Unit → Reader β}
    (hp : p.rest = c :: cs) :
    Reads (advance >>= next) p b rest ↔ Reads (next ()) (p.past c cs) b rest := by
  obtain ⟨_, line, column⟩ := p
  cases hp
  rfl

theorem not_reads_failHere {fault : Fault} : ¬ Reads (failHere fault) p a rest := by
  rintro ⟨q, ⟨⟩, -⟩

theorem not_reads_failAhead {fault : Fault} : ¬ Reads (failAhead fault) p a rest := by
  rintro ⟨q, hread, -⟩
  rw [failAhead] at hread
  split at hread
  · cases hread
  · split at hread <;> cases hread

end

/-! ### Four digits -/

theorem utf8Size_of_digit {c : Char} (h : 48 ≤ c.toNat ∧ c.toNat ≤ 122) :
    c.utf8Size = 1 ∧ c ≠ '\n' := by
  constructor
  · rw [Char.utf8Size_eq_one_iff, UInt32.le_iff_toNat_le]
    exact Nat.le_trans h.2 (by decide)
  · rintro rfl
    exact absurd h.1 (by decide)

theorem foldl_utf8Size (n : Nat) (cs : List Char) :
    n + cs.length ≤ cs.foldl (fun n c => n + c.utf8Size) n
      ∧ ((∀ c ∈ cs, c.utf8Size = 1) → cs.foldl (fun n c => n + c.utf8Size) n = n + cs.length) := by
  induction cs generalizing n with
  | nil => exact ⟨Nat.le_refl _, fun _ => rfl⟩
  | cons c cs ih =>
    have hpos := c.utf8Size_pos
    obtain ⟨hle, heq⟩ := ih (n + c.utf8Size)
    rw [List.foldl_cons, List.length_cons]
    refine ⟨by omega, fun hsize => ?_⟩
    rw [List.forall_mem_cons] at hsize
    rw [heq hsize.2, hsize.1]
    omega

theorem rest_afterBytes {digits : List Char} (h : ∀ c ∈ digits, 48 ≤ c.toNat ∧ c.toNat ≤ 122)
    (p : Cursor) (rest : List Char) :
    (p.afterBytes digits.length (digits ++ rest)).rest = rest := by
  induction digits generalizing p with
  | nil => cases rest <;> rfl
  | cons c cs ih =>
    rw [List.forall_mem_cons] at h
    obtain ⟨hsize, hnewline⟩ := utf8Size_of_digit h.1
    rw [List.cons_append, List.length_cons, Cursor.afterBytes, if_neg (Nat.succ_ne_zero _),
      if_neg hnewline, hsize]
    cases cs with
    | nil => rfl
    | cons d ds =>
      rw [if_neg (by rw [List.length_cons]; omega), Nat.add_sub_cancel]
      exact ih h.2 _

/-- Four digits are read from the front of a text. -/
theorem reads_readHex {p : Cursor} {n : Nat} {rest : List Char} :
    Reads readHex p n rest ↔ ∃ digits, FourDigits digits n ∧ p.rest = digits ++ rest := by
  rw [readHex, reads_get_bind]
  constructor
  · intro hread
    split at hread
    · rw [reads_set_bind] at hread
      exact absurd hread not_reads_failHere
    rename_i hbytes
    rw [reads_set_bind] at hread
    split at hread
    · rename_i hvalue
      obtain ⟨rfl, hrest⟩ := reads_pure.mp hread
      have hrange := toNat_of_digitsValue? hvalue
      have hlength : (p.rest.take 4).length = 4 := by
        rcases Nat.lt_or_ge p.rest.length 4 with hshort | hlong
        · -- A shorter text has no more bytes than digits.
          rw [List.take_of_length_le (Nat.le_of_lt hshort)] at hrange
          have hcount := (foldl_utf8Size 0 p.rest).2 fun c hc => (utf8Size_of_digit (hrange c hc)).1
          rw [byteCount, hcount] at hbytes
          omega
        · exact List.length_take_of_le hlong
      have hsplit : p.rest = p.rest.take 4 ++ p.rest.drop 4 := (List.take_append_drop 4 _).symm
      have hafter := rest_afterBytes hrange p (p.rest.drop 4)
      rw [hlength, List.take_append_drop, hrest] at hafter
      exact ⟨_, ⟨hlength, hvalue⟩, hafter ▸ hsplit⟩
    · exact absurd hread not_reads_failHere
  · rintro ⟨digits, h, hp⟩
    have htake : p.rest.take 4 = digits := by
      rw [hp, ← h.length, List.take_left]
    have hbytes : ¬ byteCount p.rest < 4 := by
      have hle := (foldl_utf8Size 0 p.rest).1
      rw [hp, List.length_append, h.length, ← hp] at hle
      rw [byteCount]
      omega
    rw [if_neg hbytes, reads_set_bind, htake, h.value]
    refine reads_pure.mpr ⟨rfl, ?_⟩
    rw [hp, ← h.length]
    exact rest_afterBytes h.range p rest

/-! ### Escapes -/

theorem reads_expectInPair {p : Cursor} {c : Char} {rest : List Char} :
    Reads (expectInPair c) p () rest ↔ p.rest = c :: rest := by
  rw [expectInPair, reads_peek_bind]
  cases hp : p.rest with
  | nil => exact iff_of_false not_reads_failHere nofun
  | cons d ds =>
    dsimp only [List.head?_cons]
    split
    · rename_i hd
      rw [reads_advance hp, hd, List.cons.injEq]
      exact ⟨fun h => ⟨rfl, h⟩, And.right⟩
    · rename_i hd
      exact iff_of_false not_reads_failAhead fun h => hd (List.cons.inj h).1

/-- The reader of numbered escapes takes the spellings by numbers. -/
theorem reads_readNumberedEscape {p : Cursor} {c : Char} {rest : List Char} :
    Reads readNumberedEscape p c rest ↔ ∃ front, Numbers front c ∧ p.rest = front ++ rest := by
  rw [readNumberedEscape, reads_bind]
  constructor
  · rintro ⟨n, q, hhex, hread⟩
    obtain ⟨digits, h, hp⟩ := reads_readHex.mp ⟨q, hhex, rfl⟩
    split at hread
    · exact absurd hread not_reads_failHere
    rename_i hnotTrailing
    split at hread
    · rename_i hn
      obtain ⟨rfl, hrest⟩ := reads_pure.mp hread
      refine ⟨digits, .scalar h (by omega), ?_⟩
      rw [hp, hrest]
    rename_i hleading
    obtain ⟨_, q₁, hslash, hread⟩ := reads_bind.mp hread
    have hq := reads_expectInPair.mp ⟨q₁, hslash, rfl⟩
    obtain ⟨_, q₂, hletter, hread⟩ := reads_bind.mp hread
    have hq₁ := reads_expectInPair.mp ⟨q₂, hletter, rfl⟩
    obtain ⟨low, q₃, hlow, hread⟩ := reads_bind.mp hread
    obtain ⟨digits', h', hq₂⟩ := reads_readHex.mp ⟨q₃, hlow, rfl⟩
    split at hread
    · exact absurd hread not_reads_failHere
    · rename_i htrailing
      obtain ⟨rfl, hrest⟩ := reads_pure.mp hread
      refine ⟨digits ++ '\\' :: 'u' :: digits', .pair h h' (by omega) (by omega), ?_⟩
      rw [hp, hq, hq₁, hq₂, hrest, List.append_assoc]
      rfl
  · rintro ⟨front, h, hp⟩
    cases h with
    | @scalar digits n h hn =>
      obtain ⟨q, hhex, hq⟩ := reads_readHex.mpr ⟨_, h, hp⟩
      have hlt := h.lt
      refine ⟨n, q, hhex, ?_⟩
      rw [if_neg (by omega), if_pos (by omega)]
      exact reads_pure.mpr ⟨rfl, hq⟩
    | @pair digits digits' high low h h' hhigh hlow =>
      rw [List.append_assoc] at hp
      obtain ⟨q, hhex, hq⟩ := reads_readHex.mpr ⟨digits, h, hp⟩
      refine ⟨high, q, hhex, ?_⟩
      rw [if_neg (by omega), if_neg (by omega)]
      obtain ⟨q₁, hslash, hq₁⟩ := reads_expectInPair.mpr hq
      refine reads_bind.mpr ⟨(), q₁, hslash, ?_⟩
      obtain ⟨q₂, hletter, hq₂⟩ := reads_expectInPair.mpr hq₁
      refine reads_bind.mpr ⟨(), q₂, hletter, ?_⟩
      obtain ⟨q₃, hhex', hq₃⟩ := reads_readHex.mpr ⟨digits', h', hq₂⟩
      refine reads_bind.mpr ⟨low, q₃, hhex', ?_⟩
      rw [if_neg (by omega)]
      exact reads_pure.mpr ⟨rfl, hq₃⟩

/-- Moving past a character that decides on a value. -/
theorem reads_advance_pure {α : Type} {p : Cursor} {letter : Char} {a a' : α} {rest : List Char}
    (hp : p.rest.head? = some letter) :
    Reads (do advance; pure a) p a' rest ↔ a = a' ∧ p.rest = letter :: rest := by
  cases hrest : p.rest with
  | nil =>
    rw [hrest] at hp
    cases hp
  | cons e es =>
    rw [hrest] at hp
    cases hp
    rw [reads_advance_bind hrest, reads_pure, Cursor.past_rest, List.cons.injEq]
    exact ⟨fun ⟨ha, hes⟩ => ⟨ha, rfl, hes⟩, fun ⟨ha, _, hes⟩ => ⟨ha, hes⟩⟩

/-- The reader of escapes takes the spellings behind a backslash. -/
theorem reads_readEscape {p : Cursor} {c : Char} {rest : List Char} :
    Reads readEscape p c rest ↔ ∃ front, Escapes front c ∧ p.rest = front ++ rest := by
  rw [readEscape, reads_peek_bind]
  constructor
  · intro hread
    have hshort {letter d : Char} (hp : p.rest.head? = some letter)
        (hmem : (letter, d) ∈ shortEscapes) (hread : Reads (do advance; pure d) p c rest) :
        ∃ front, Escapes front c ∧ p.rest = front ++ rest := by
      obtain ⟨rfl, hrest⟩ := (reads_advance_pure hp).mp hread
      exact ⟨[letter], .short hmem, hrest⟩
    split at hread
    · exact absurd hread not_reads_failHere
    · exact hshort ‹_› (by decide) hread
    · exact hshort ‹_› (by decide) hread
    · exact hshort ‹_› (by decide) hread
    · exact hshort ‹_› (by decide) hread
    · exact hshort ‹_› (by decide) hread
    · exact hshort ‹_› (by decide) hread
    · exact hshort ‹_› (by decide) hread
    · exact hshort ‹_› (by decide) hread
    · rename_i hp
      obtain ⟨cs, hp⟩ := List.head?_eq_some_iff.mp hp
      rw [reads_advance_bind hp, reads_readNumberedEscape] at hread
      obtain ⟨front, hnumber, hrest⟩ := hread
      rw [Cursor.past_rest] at hrest
      exact ⟨'u' :: front, .number hnumber, by rw [hp, hrest]; rfl⟩
    · exact absurd hread not_reads_failAhead
  · rintro ⟨front, h, hp⟩
    cases h with
    | @short letter d h =>
      have hhead : p.rest.head? = some letter := by
        rw [hp]
        rfl
      rw [shortEscapes] at h
      simp only [List.mem_cons, Prod.mk.injEq, List.not_mem_nil, or_false] at h
      rcases h with ⟨rfl, rfl⟩ | ⟨rfl, rfl⟩ | ⟨rfl, rfl⟩ | ⟨rfl, rfl⟩ | ⟨rfl, rfl⟩ | ⟨rfl, rfl⟩
        | ⟨rfl, rfl⟩ | ⟨rfl, rfl⟩ <;>
        · rw [hhead]
          exact (reads_advance_pure hhead).mpr ⟨rfl, hp⟩
    | @number front d h =>
      rw [hp]
      show Reads (advance >>= fun _ => readNumberedEscape) p c rest
      rw [reads_advance_bind hp, reads_readNumberedEscape, Cursor.past_rest]
      exact ⟨front, h, rfl⟩

/-! ### Strings -/

/-- What is read as a string is a spelling with a quote behind it. -/
theorem spelled_of_reads {bound : Nat} {seen : List Char} {p : Cursor} {s : String}
    {rest : List Char} (hread : Reads (readStringWithin bound seen) p s rest) :
    ∃ raw cs, Spelled raw cs ∧ p.rest = raw ++ '"' :: rest
      ∧ s = String.ofList (seen.reverse ++ cs) := by
  induction bound generalizing seen p with
  | zero => exact absurd hread not_reads_failHere
  | succ bound ih =>
    -- Each step takes a spelling of one character.
    have hstep {front : List Char} {c : Char} {q : Cursor} (hspells : Spells front c)
        (hp : p.rest = front ++ q.rest)
        (hread : Reads (readStringWithin bound (c :: seen)) q s rest) :
        ∃ raw cs, Spelled raw cs ∧ p.rest = raw ++ '"' :: rest
          ∧ s = String.ofList (seen.reverse ++ cs) := by
      obtain ⟨raw, cs, hraw, hq, hs⟩ := ih hread
      refine ⟨front ++ raw, c :: cs, .cons hspells hraw, ?_, ?_⟩
      · rw [hp, hq, List.append_assoc]
      · rw [hs, List.reverse_cons, List.append_assoc]
        rfl
    rw [readStringWithin, reads_peek_bind] at hread
    split at hread
    · exact absurd hread not_reads_failHere
    · rename_i hp
      obtain ⟨rfl, hrest⟩ := (reads_advance_pure hp).mp hread
      exact ⟨[], [], .nil, hrest, by rw [List.append_nil]⟩
    · rename_i hp
      obtain ⟨cs, hp⟩ := List.head?_eq_some_iff.mp hp
      rw [reads_advance_bind hp] at hread
      obtain ⟨c, q, hescape, hread⟩ := reads_bind.mp hread
      obtain ⟨front, hfront, hrest⟩ := reads_readEscape.mp ⟨q, hescape, rfl⟩
      rw [Cursor.past_rest] at hrest
      exact hstep (.escape hfront) (by rw [hp, hrest]; rfl) hread
    · rename_i c hquote hslash hp
      obtain ⟨cs, hp⟩ := List.head?_eq_some_iff.mp hp
      split at hread
      · exact absurd hread not_reads_failAhead
      · rename_i hcontrol
        rw [reads_advance_bind hp] at hread
        refine hstep (.plain (Nat.le_of_not_lt hcontrol) hquote hslash) ?_ hread
        rw [hp, Cursor.past_rest]
        rfl

/-- One way to write a character is read in one step. -/
theorem reads_of_spells {front more : List Char} {c : Char} {p : Cursor} (h : Spells front c)
    (hp : p.rest = front ++ more) (bound : Nat) (seen : List Char) (s : String)
    (rest : List Char) :
    ∃ q : Cursor, q.rest = more ∧ (Reads (readStringWithin bound (c :: seen)) q s rest →
      Reads (readStringWithin (bound + 1) seen) p s rest) := by
  rw [readStringWithin, reads_peek_bind, hp]
  cases h with
  | plain hcontrol hquote hslash =>
    refine ⟨p.past c more, Cursor.past_rest p c more, fun hread => ?_⟩
    rw [List.singleton_append, List.head?_cons]
    split
    · rename_i heq
      cases heq
    · rename_i heq
      cases heq
      exact absurd rfl hquote
    · rename_i heq
      cases heq
      exact absurd rfl hslash
    · rename_i heq
      cases heq
      rw [if_neg (Nat.not_lt_of_le hcontrol), reads_advance_bind hp]
      exact hread
  | @escape front _ h =>
    obtain ⟨q, hescape, hq⟩ :=
      reads_readEscape.mpr ⟨front, h, Cursor.past_rest p '\\' (front ++ more)⟩
    refine ⟨q, hq, fun hread => ?_⟩
    show Reads (advance >>= fun _ => readEscape >>= _) p s rest
    rw [reads_advance_bind hp, reads_bind]
    exact ⟨c, q, hescape, hread⟩

/-- A spelling with a quote behind it is read as a string. -/
theorem reads_of_spelled {raw cs : List Char} (h : Spelled raw cs) {bound : Nat}
    (hbound : cs.length < bound) (seen : List Char) {p : Cursor} {rest : List Char}
    (hp : p.rest = raw ++ '"' :: rest) :
    Reads (readStringWithin bound seen) p (String.ofList (seen.reverse ++ cs)) rest := by
  induction h generalizing bound seen p with
  | nil =>
    obtain ⟨bound, rfl⟩ : ∃ b, bound = b + 1 := ⟨bound - 1, by omega⟩
    have hhead : p.rest.head? = some '"' := by
      rw [hp]
      rfl
    rw [readStringWithin, reads_peek_bind, hhead, List.append_nil]
    exact (reads_advance_pure hhead).mpr ⟨rfl, hp⟩
  | @cons front raw cs c hspells _ ih =>
    rw [List.append_assoc] at hp
    rw [List.length_cons] at hbound
    obtain ⟨bound, rfl⟩ : ∃ b, bound = b + 1 := ⟨bound - 1, by omega⟩
    obtain ⟨q, hq, hstep⟩ := reads_of_spells hspells hp bound seen
      (String.ofList (seen.reverse ++ c :: cs)) rest
    have hread := ih (Nat.lt_of_succ_lt_succ hbound) (c :: seen) hq
    rw [List.reverse_cons, List.append_assoc] at hread
    exact hstep hread

/-- The reader of strings takes the spellings of a text. -/
theorem reads_readString {p : Cursor} {s : String} {rest : List Char} :
    Reads readString p s rest
      ↔ ∃ raw, Spelled raw s.toList ∧ p.rest = raw ++ '"' :: rest := by
  rw [readString, reads_get_bind]
  constructor
  · intro hread
    obtain ⟨raw, cs, hraw, hp, rfl⟩ := spelled_of_reads hread
    refine ⟨raw, ?_, hp⟩
    rw [String.toList_ofList]
    exact hraw
  · rintro ⟨raw, hraw, hp⟩
    have hbound : s.toList.length < p.rest.length + 1 := by
      have hlength := hraw.length_le
      rw [hp, List.length_append]
      omega
    have hread := reads_of_spelled hraw hbound [] hp
    rw [List.reverse_nil, List.nil_append, String.ofList_toList] at hread
    exact hread

/-! ### Whole texts -/

theorem Cursor.skip_rest (p : Cursor) (cs : List Char) :
    (p.skip cs).rest = cs.dropWhile isSpace := by
  induction cs generalizing p with
  | nil => rfl
  | cons c cs ih =>
    rw [Cursor.skip, List.dropWhile_cons]
    split
    · exact ih _
    · rfl

/-- What is read behind blanks. -/
theorem reads_peekSolid_bind {β : Type} {next : Option Char → Reader β} {p : Cursor} {b : β}
    {rest : List Char} :
    Reads (peekSolid >>= next) p b rest
      ↔ Reads (next (p.rest.dropWhile isSpace).head?) (p.skip p.rest) b rest := by
  rw [← Cursor.skip_rest p]
  exact Iff.rfl

theorem reads_readEnd {p : Cursor} {rest : List Char} :
    Reads readEnd p () rest ↔ p.rest.dropWhile isSpace = [] ∧ rest = [] := by
  rw [readEnd, reads_peekSolid_bind]
  cases hblank : p.rest.dropWhile isSpace with
  | nil =>
    rw [List.head?_nil, reads_pure, Cursor.skip_rest, hblank, eq_comm (b := rest)]
    exact ⟨fun ⟨_, hrest⟩ => ⟨rfl, hrest⟩, fun ⟨_, hrest⟩ => ⟨rfl, hrest⟩⟩
  | cons c cs => exact iff_of_false not_reads_failAhead fun h => nomatch h.1

/-- A text in quotes is read as a string. -/
theorem reads_readValue_quoted {p : Cursor} {cs rest : List Char} (hp : p.rest = '"' :: cs)
    (depth : Nat) {j : Json} :
    Reads (readValue (depth + 1)) p j rest
      ↔ ∃ s raw, j = .text s ∧ Spelled raw s.toList ∧ cs = raw ++ '"' :: rest := by
  have hsolid : ('"' :: cs).dropWhile isSpace = '"' :: cs := rfl
  have hskip : (p.skip ('"' :: cs)).rest = '"' :: cs := by
    rw [Cursor.skip_rest, hsolid]
  rw [readValue, reads_peekSolid_bind, hp, hsolid]
  show Reads (advance >>= fun _ => readString >>= fun s => pure (.text s)) _ j rest ↔ _
  rw [reads_advance_bind hskip, reads_bind]
  constructor
  · rintro ⟨s, q, hstring, hread⟩
    obtain ⟨raw, hraw, hcs⟩ := reads_readString.mp ⟨q, hstring, rfl⟩
    obtain ⟨rfl, hrest⟩ := reads_pure.mp hread
    rw [Cursor.past_rest, hrest] at hcs
    exact ⟨s, raw, rfl, hraw, hcs⟩
  · rintro ⟨s, raw, rfl, hraw, hcs⟩
    obtain ⟨q, hstring, hq⟩ := reads_readString.mpr ⟨raw, hraw, (Cursor.past_rest _ _ _).trans hcs⟩
    exact ⟨s, q, hstring, reads_pure.mpr ⟨rfl, hq⟩⟩

/-- A whole text has the value that is read from its front if only blanks are left. -/
theorem read_eq_ok_iff {literal : String} {j : Json} :
    read literal = .ok j
      ↔ ∃ rest, Reads (readValue nestingLimit) { rest := literal.toList } j rest
          ∧ rest.dropWhile isSpace = [] := by
  rw [read, readWhole]
  show ((readValue nestingLimit >>= fun j => readEnd >>= fun _ => pure j)
    { rest := literal.toList }).map (·.1) = .ok j ↔ _
  rw [map_fst_eq_ok_iff]
  constructor
  · rintro ⟨rest, hread⟩
    obtain ⟨j', q, hvalue, hread⟩ := reads_bind.mp hread
    obtain ⟨_, q', hend, hread⟩ := reads_bind.mp hread
    obtain ⟨rfl, -⟩ := reads_pure.mp hread
    exact ⟨q.rest, ⟨q, hvalue, rfl⟩, (reads_readEnd.mp ⟨q', hend, rfl⟩).1⟩
  · rintro ⟨_, ⟨q, hvalue, rfl⟩, hblank⟩
    obtain ⟨q', hend, hq⟩ := reads_readEnd.mpr ⟨hblank, rfl⟩
    exact ⟨[], reads_bind.mpr ⟨j, q, hvalue, reads_bind.mpr ⟨(), q', hend, q', rfl, hq⟩⟩⟩

/-- The literals are the texts that are read as a string and are quoted at both ends. -/
theorem literal_iff_read {literal s : String} :
    Literal literal s ↔ read literal = .ok (.text s) ∧ literal.toList.head? = some '"'
      ∧ literal.toList.getLast? = some '"' := by
  rw [read_eq_ok_iff]
  constructor
  · rintro ⟨raw, hraw, hliteral⟩
    rw [hliteral]
    refine ⟨⟨[], ?_, rfl⟩, rfl, ?_⟩
    · exact (reads_readValue_quoted rfl _).mpr ⟨s, raw, rfl, hraw, rfl⟩
    · rw [← List.cons_append, List.getLast?_concat]
  · rintro ⟨⟨rest, hread, hblank⟩, hhead, hlast⟩
    obtain ⟨cs, hliteral⟩ := List.head?_eq_some_iff.mp hhead
    obtain ⟨s', raw, heq, hraw, rfl⟩ := (reads_readValue_quoted hliteral _).mp hread
    cases heq
    -- Blanks behind the string would end the text.
    have hrest : rest = [] := by
      rcases List.eq_nil_or_concat rest with hnil | ⟨front, c, rfl⟩
      · exact hnil
      · rw [List.concat_eq_append] at hliteral hblank
        have hspace : isSpace c = true := List.dropWhile_eq_nil_iff.mp hblank c (by simp)
        rw [hliteral, ← List.cons_append, ← List.cons_append, ← List.append_assoc,
          List.getLast?_concat] at hlast
        cases hlast
        cases hspace
    rw [hrest] at hliteral
    exact ⟨raw, hraw, hliteral⟩

/-! ### Literals in a routine -/

/-- A literal is one token, whatever the ways its characters are written. -/
theorem Literal.lex_eq {literal s : String} (h : Literal literal s) :
    Routine.lex literal = .ok ⟨[⟨.text s, 1⟩], 1⟩ := by
  obtain ⟨raw, hraw, hliteral⟩ := h
  have hlexes := Routine.Lexes.spelled 1 hraw []
  rw [← hliteral, String.ofList_toList] at hlexes
  exact Routine.lexChars_of_lexes hlexes

/-- **A string of data is a string of a routine.**  The literals are the texts that a reader of data
takes for a string, from quote to quote.  Each of them is one token on the first line with the text
that was read, and so is what quoting writes. -/
theorem lex_literal (literal s : String) :
    (Literal literal s ↔ read literal = .ok (.text s) ∧ literal.toList.head? = some '"'
        ∧ literal.toList.getLast? = some '"')
      ∧ (Literal literal s → Routine.lex literal = .ok ⟨[⟨.text s, 1⟩], 1⟩)
      ∧ Routine.lex (quote s) = .ok ⟨[⟨.text s, 1⟩], 1⟩ :=
  ⟨literal_iff_read, Literal.lex_eq, (literal_quote s).lex_eq⟩

/-- A literal with a character as itself, a short escape, a numbered escape and a pair. -/
theorem lex_literal_mixed :
    read "\"é\\/\\u000a\\ud83D\\uDE00\"" = .ok (.text "é/\n😀")
      ∧ Routine.lex "\"é\\/\\u000a\\ud83D\\uDE00\"" = .ok ⟨[⟨.text "é/\n😀", 1⟩], 1⟩ := by
  have hread : read "\"é\\/\\u000a\\ud83D\\uDE00\"" = .ok (.text "é/\n😀") := rfl
  obtain ⟨hliteral, hlex, -⟩ :=
    lex_literal "\"é\\/\\u000a\\ud83D\\uDE00\"" "é/\n😀"
  exact ⟨hread, hlex (hliteral.mpr ⟨hread, rfl, rfl⟩)⟩

end Stencil.Json
