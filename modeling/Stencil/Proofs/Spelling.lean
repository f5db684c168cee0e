import Stencil.Json.Quote
import Stencil.Text.Digit

/-!
# Spellings of a string

A character of a quoted string can be written in several ways: as itself, as a short escape, as four
hexadecimal digits, or as the two halves of a pair with four digits each.  What quoting writes is
one spelling of many.

* `FourDigits` — four hexadecimal digits and their number;
* `Numbers`, `Escapes`, `Spells` — the ways to write a character: behind the `u` of an escape,
  behind the backslash, and between the quotes;
* `Spelled` — the ways to write a text;
* `Literal` — a text that is a quoted string;
* `literal_quote` — quoting writes a spelling of the text.
-/

namespace Stencil.Json

open Stencil.Text

/-! ### Digits -/

theorem toNat_of_digitOf? {base d : Nat} {c : Char} (h : digitOf? base c = some d) :
    48 ≤ c.toNat ∧ c.toNat ≤ 122 := by
  obtain ⟨hworth, -⟩ := Option.filter_eq_some_iff.mp h
  rw [digitWorth?] at hworth
  split at hworth
  · omega
  · split at hworth
    · omega
    · split at hworth
      · omega
      · cases hworth

theorem toNat_of_digitsAfter {base n m : Nat} {cs : List Char}
    (h : digitsAfter base n cs = some m) : ∀ c ∈ cs, 48 ≤ c.toNat ∧ c.toNat ≤ 122 := by
  induction cs generalizing n with
  | nil => exact nofun
  | cons c cs ih =>
    rw [digitsAfter] at h
    split at h
    · rename_i hdigit
      rw [List.forall_mem_cons]
      exact ⟨toNat_of_digitOf? hdigit, ih h⟩
    · cases h

theorem toNat_of_digitsValue? {base n : Nat} {cs : List Char} (h : digitsValue? base cs = some n) :
    ∀ c ∈ cs, 48 ≤ c.toNat ∧ c.toNat ≤ 122 := by
  rw [digitsValue?] at h
  split at h
  · cases h
  · exact toNat_of_digitsAfter h

/-- Four hexadecimal digits and the number they write. -/
structure FourDigits (digits : List Char) (n : Nat) : Prop where
  /-- There are four of them. -/
  length : digits.length = 4
  /-- They write the number. -/
  value : digitsValue? 16 digits = some n

namespace FourDigits

variable {digits : List Char} {n : Nat} (h : FourDigits digits n)
include h

theorem range : ∀ c ∈ digits, 48 ≤ c.toNat ∧ c.toNat ≤ 122 := toNat_of_digitsValue? h.value

/-- No character outside the range of the digits stands among them. -/
theorem notMem {c : Char} (hc : c.toNat < 48 ∨ 122 < c.toNat) : c ∉ digits := by
  intro hmem
  have hrange := h.range c hmem
  omega

theorem lt : n < 0x10000 := by
  have hvalue := h.value
  rw [digitsValue?] at hvalue
  split at hvalue
  · cases hvalue
  · have hlt := digitsAfter_lt hvalue
    rw [h.length] at hlt
    exact hlt

end FourDigits

/-! ### Spellings -/

/-- The letters of the short escapes and the characters they stand for. -/
def shortEscapes : List (Char × Char) :=
  [('"', '"'), ('\\', '\\'), ('/', '/'), ('b', '\x08'), ('f', '\x0c'), ('n', '\n'), ('r', '\r'),
    ('t', '\t')]

/-- The ways to write a character behind the `u` of an escape. -/
inductive Numbers : List Char → Char → Prop
  /-- As its number, which is none of a half. -/
  | scalar {digits : List Char} {n : Nat} (h : FourDigits digits n) (hn : n < 0xD800 ∨ 0xDFFF < n) :
    Numbers digits (Char.ofNat n)
  /-- As the halves of a pair. -/
  | pair {digits digits' : List Char} {high low : Nat} (h : FourDigits digits high)
    (h' : FourDigits digits' low) (hhigh : 0xD800 ≤ high ∧ high < 0xDC00)
    (hlow : 0xDC00 ≤ low ∧ low < 0xE000) :
    Numbers (digits ++ '\\' :: 'u' :: digits')
      (Char.ofNat (0x10000 + (high - 0xD800) * 1024 + (low - 0xDC00)))

/-- The ways to write a character behind a backslash. -/
inductive Escapes : List Char → Char → Prop
  /-- By a letter. -/
  | short {letter c : Char} (h : (letter, c) ∈ shortEscapes) : Escapes [letter] c
  /-- By numbers. -/
  | number {front : List Char} {c : Char} (h : Numbers front c) : Escapes ('u' :: front) c

/-- The ways to write a character between the quotes. -/
inductive Spells : List Char → Char → Prop
  /-- As itself. -/
  | plain {c : Char} (hcontrol : 32 ≤ c.toNat) (hquote : c ≠ '"') (hslash : c ≠ '\\') :
    Spells [c] c
  /-- As an escape. -/
  | escape {front : List Char} {c : Char} (h : Escapes front c) : Spells ('\\' :: front) c

/-- The ways to write a text between the quotes, character by character. -/
inductive Spelled : List Char → List Char → Prop
  | nil : Spelled [] []
  | cons {front raw cs : List Char} {c : Char} (h : Spells front c) (hrest : Spelled raw cs) :
    Spelled (front ++ raw) (c :: cs)

/-- A text that is a quoted string and nothing else, and the string it stands for. -/
def Literal (literal s : String) : Prop :=
  ∃ raw, Spelled raw s.toList ∧ literal.toList = '"' :: (raw ++ ['"'])

theorem Spells.length_pos {front : List Char} {c : Char} (h : Spells front c) :
    1 ≤ front.length := by
  cases h <;> exact Nat.le_add_left _ _

/-- A spelling is no shorter than what it stands for. -/
theorem Spelled.length_le {raw cs : List Char} (h : Spelled raw cs) : cs.length ≤ raw.length := by
  induction h with
  | nil => exact Nat.le_refl 0
  | cons h _ ih =>
    have hpos := h.length_pos
    rw [List.length_append, List.length_cons]
    omega

/-! ### Quoting -/

theorem fourDigits_control {n : Nat} (h : n < 32) :
    FourDigits ['0', '0', hexDigit (n / 16), hexDigit (n % 16)] n where
  length := rfl
  value := by
    have hall : ∀ n < 32, digitsValue? 16 ['0', '0', hexDigit (n / 16), hexDigit (n % 16)]
        = some n := by decide
    exact hall n h

/-- Quoting a character is a way to write it. -/
theorem spells_quoteChar (c : Char) : Spells (quoteChar c) c := by
  rw [quoteChar]
  split
  · rename_i hc
    subst hc
    exact .escape (.short (by decide))
  rename_i hquote
  split
  · rename_i hc
    subst hc
    exact .escape (.short (by decide))
  rename_i hslash
  split
  · rename_i hlarge
    exact .plain hlarge hquote hslash
  rename_i hsmall
  split
  · rename_i hc
    subst hc
    exact .escape (.short (by decide))
  split
  · rename_i hc
    subst hc
    exact .escape (.short (by decide))
  split
  · rename_i hc
    subst hc
    exact .escape (.short (by decide))
  split
  · rename_i hc
    subst hc
    exact .escape (.short (by decide))
  split
  · rename_i hc
    subst hc
    exact .escape (.short (by decide))
  · have hcontrol : c.toNat < 32 := Nat.lt_of_not_le hsmall
    have hnumber := Numbers.scalar (fourDigits_control hcontrol) (.inl (by omega))
    rw [Char.ofNat_toNat] at hnumber
    exact .escape (.number hnumber)

theorem spelled_flatMap_quoteChar (cs : List Char) : Spelled (cs.flatMap quoteChar) cs := by
  induction cs with
  | nil => exact .nil
  | cons c cs ih =>
    rw [List.flatMap_cons]
    exact .cons (spells_quoteChar c) ih

/-- Quoting writes a spelling of the text. -/
theorem literal_quote (s : String) : Literal (quote s) s := by
  refine ⟨s.toList.flatMap quoteChar, spelled_flatMap_quoteChar s.toList, ?_⟩
  rw [quote, String.toList_ofList]
  rfl

end Stencil.Json
