import Stencil.Proofs.Lexing
import Stencil.Proofs.Marks
import Stencil.Template.Layout

/-!
# Chains of layouts

A template that names a layout begins a chain, and the layout at its end is what is rendered.  What
a chain comes to is told here without the loop that walks it: by its levels, by what each of them
defines, and by the text at its end.

* `Header`, `SectionMark` — what a header and a section look like;
* `header?_eq_some_iff`, `section?_eq_some_iff` — the two are found exactly where they stand;
* `Level` — the texts of a chain;
* `Defines`, `Filled` — what a level has for a section, and what the whole chain has for it;
* `Resolves`, `resolve_eq_iff` — the resolved text of a chain, or what is wrong with it.
-/

namespace Stencil.Template

open Stencil.Text

/-! ### Markers -/

theorem markerWord?_eq_some_iff {word : String} {d : Char} {ds cs rest : List Char}
    (hword : word.toList = d :: ds) (hd : isBlank d = false) :
    markerWord? word cs = some rest
      ↔ ∃ b, Blanks b ∧ cs = opening ++ (b ++ (word.toList ++ rest)) := by
  simp only [markerWord?, Option.bind_eq_bind, Option.bind_eq_some_iff, stripFront_eq_some_iff,
    hword, stripFront_trimStart_eq_some_iff hd]
  constructor
  · rintro ⟨_, rfl, b, hb, rfl⟩
    exact ⟨b, hb, rfl⟩
  · rintro ⟨b, hb, rfl⟩
    exact ⟨_, rfl, b, hb, rfl⟩

theorem closed?_eq_some_iff {cs rest : List Char} :
    closed? cs = some rest ↔ ∃ b, Blanks b ∧ cs = b ++ (closing ++ rest) :=
  stripFront_trimStart_eq_some_iff rfl

/-- What follows at least one blank does not begin with a blank. -/
theorem pastBlanks?_eq_some_iff {cs rest : List Char} :
    pastBlanks? cs = some rest
      ↔ ∃ b, Blanks b ∧ b ≠ [] ∧ cs = b ++ rest ∧ ∀ c ∈ rest.head?, isBlank c = false := by
  have hspan : pastBlanks? cs = some rest
      ↔ cs.takeWhile isBlank ≠ [] ∧ cs.dropWhile isBlank = rest := by
    cases cs with
    | nil => simp [pastBlanks?]
    | cons c cs => by_cases hc : isBlank c = true <;> simp [pastBlanks?, trimStart, hc]
  rw [hspan]
  constructor
  · rintro ⟨hne, h⟩
    obtain ⟨hcs, hb, hhead⟩ := span_eq_iff.mp ⟨rfl, h⟩
    exact ⟨_, hb, hne, hcs, hhead⟩
  · rintro ⟨b, hb, hne, hcs, hhead⟩
    obtain ⟨rfl, h⟩ := span_eq_iff.mpr ⟨hcs, hb, hhead⟩
    exact ⟨hne, h⟩

/-! ### Headers -/

/-- The text begins with a header, `[[ extends "name" ]]` behind blanks at most. -/
inductive Header : List Char → String → Prop where
  | mk {b b₁ b₂ b₃ : List Char} {q q' : Char} {name rest : List Char}
      (hb : Blanks b) (hb₁ : Blanks b₁) (hb₂ : Blanks b₂) (hgap : b₂ ≠ []) (hb₃ : Blanks b₃)
      (hq : isHeaderQuote q = true) (hq' : isHeaderQuote q' = true) (hname : name ≠ [])
      (hchars : ∀ c ∈ name, isHeaderQuote c = false) :
      Header
        (b ++ (opening ++ (b₁ ++ ("extends".toList ++ (b₂ ++ (q :: (name ++ (q' :: (b₃ ++
          (closing ++ rest)))))))))) (String.ofList name)

theorem not_isBlank_of_isHeaderQuote {c : Char} (h : isHeaderQuote c = true) :
    isBlank c = false := by
  simp only [isHeaderQuote, Bool.or_eq_true, beq_iff_eq] at h
  obtain rfl | rfl := h <;> rfl

theorem pastQuote?_eq_some_iff {cs rest : List Char} :
    pastQuote? cs = some rest ↔ ∃ q, isHeaderQuote q = true ∧ cs = q :: rest := by
  cases cs with
  | nil => simp [pastQuote?]
  | cons c cs =>
    simp only [pastQuote?, List.cons.injEq]
    constructor
    · intro h
      split at h
      · rename_i hc
        exact ⟨c, hc, rfl, Option.some.inj h⟩
      · cases h
    · rintro ⟨q, hq, rfl, rfl⟩
      rw [if_pos hq]

/-- A header is found exactly where one stands. -/
theorem header?_eq_some_iff {cs : List Char} {name : String} :
    header? cs = some name ↔ Header cs name := by
  simp only [header?, Option.bind_eq_bind, Option.bind_eq_some_iff]
  constructor
  · rintro ⟨_, hword, _, hgap, stretch, hquote, _, hquote', rest, hclose, h⟩
    obtain ⟨b₁, hb₁, htrim⟩ := (markerWord?_eq_some_iff rfl rfl).mp hword
    obtain ⟨b₂, hb₂, hne, rfl, -⟩ := pastBlanks?_eq_some_iff.mp hgap
    obtain ⟨q, hq, rfl⟩ := pastQuote?_eq_some_iff.mp hquote
    obtain ⟨q', hq', hdrop⟩ := pastQuote?_eq_some_iff.mp hquote'
    obtain ⟨b₃, hb₃, rfl⟩ := closed?_eq_some_iff.mp hclose
    obtain ⟨b, hb, hcs⟩ := exists_blanks_trimStart cs
    obtain ⟨hstretch, hchars, -⟩ := span_eq_iff.mp ⟨rfl, hdrop⟩
    generalize stretch.takeWhile _ = name at h hstretch hchars
    split at h
    · cases h
    · rename_i hname
      obtain rfl := Option.some.inj h
      rw [hcs, htrim, hstretch]
      exact .mk hb hb₁ hb₂ hne hb₃ hq hq' (fun hnil => hname (List.isEmpty_iff.mpr hnil))
        (by simpa using hchars)
  · intro h
    cases h with
    | @mk b b₁ b₂ b₃ q q' name rest hb hb₁ hb₂ hgap hb₃ hq hq' hname hchars =>
      let after := q' :: (b₃ ++ (closing ++ rest))
      obtain ⟨htake, hdrop⟩ : (name ++ after).takeWhile (fun c => !isHeaderQuote c) = name
          ∧ (name ++ after).dropWhile (fun c => !isHeaderQuote c) = after :=
        span_eq_iff.mpr ⟨rfl, by simpa using hchars, by simp [after, hq']⟩
      refine ⟨_, (markerWord?_eq_some_iff (d := 'e') rfl rfl).mpr ⟨b₁, hb₁, hb.trimStart_append _⟩, _,
        pastBlanks?_eq_some_iff.mpr
          ⟨b₂, hb₂, hgap, rfl, by simp [not_isBlank_of_isHeaderQuote hq]⟩, _,
        pastQuote?_eq_some_iff.mpr ⟨q, hq, rfl⟩, _,
        pastQuote?_eq_some_iff.mpr ⟨q', hq', hdrop⟩, rest,
        closed?_eq_some_iff.mpr ⟨b₃, hb₃, rfl⟩, ?_⟩
      rw [htake, if_neg (by simpa using hname)]

/-! ### Sections -/

/-- The text begins with an end marker, `[[ endblock ]]`, and then goes on. -/
inductive EndMarker : List Char → List Char → Prop where
  | mk {b b' : List Char} (rest : List Char) (hb : Blanks b) (hb' : Blanks b') :
      EndMarker (opening ++ (b ++ ("endblock".toList ++ (b' ++ (closing ++ rest))))) rest

/-- The text begins with the content of a section, which goes up to the nearest end marker. -/
inductive Content : List Char → List Char → List Char → Prop where
  | nil {cs rest : List Char} (h : EndMarker cs rest) : Content cs [] rest
  | cons {c : Char} {cs content rest : List Char} (h : ∀ rest, ¬ EndMarker (c :: cs) rest)
      (hrest : Content cs content rest) : Content (c :: cs) (c :: content) rest

/-- The text begins with a section, `[[ block id ]]` … `[[ endblock ]]`, and then goes on. -/
inductive SectionMark : List Char → Section → List Char → Prop where
  | mk {b b' b'' id after content rest : List Char} (hb : Blanks b) (hb' : Blanks b')
      (hgap : b' ≠ []) (hb'' : Blanks b'') (hid : id ≠ []) (hchars : ∀ c ∈ id, isSectionChar c = true)
      (hcontent : Content after content rest) :
      SectionMark
        (opening ++ (b ++ ("block".toList ++ (b' ++ (id ++ (b'' ++ (closing ++ after)))))))
        ⟨String.ofList id, String.ofList content⟩ rest

theorem sectionEnd?_eq_some_iff {cs rest : List Char} :
    sectionEnd? cs = some rest ↔ EndMarker cs rest := by
  simp only [sectionEnd?, Option.bind_eq_bind, Option.bind_eq_some_iff]
  constructor
  · rintro ⟨_, hword, hclose⟩
    obtain ⟨b, hb, rfl⟩ := (markerWord?_eq_some_iff rfl rfl).mp hword
    obtain ⟨b', hb', rfl⟩ := closed?_eq_some_iff.mp hclose
    exact .mk rest hb hb'
  · rintro ⟨rest, hb, hb'⟩
    exact ⟨_, (markerWord?_eq_some_iff (d := 'e') rfl rfl).mpr ⟨_, hb, rfl⟩,
      closed?_eq_some_iff.mpr ⟨_, hb', rfl⟩⟩

theorem sectionEnd?_eq_none_iff {cs : List Char} :
    sectionEnd? cs = none ↔ ∀ rest, ¬ EndMarker cs rest := by
  simp only [Option.eq_none_iff_forall_ne_some, ne_eq, sectionEnd?_eq_some_iff]

theorem sectionContent?_eq_some_iff {cs content rest : List Char} :
    sectionContent? cs = some (content, rest) ↔ Content cs content rest := by
  constructor
  · intro h
    induction cs generalizing content with
    | nil => cases h
    | cons c cs ih =>
      rw [sectionContent?] at h
      cases hend : sectionEnd? (c :: cs) with
      | some rest' =>
        rw [hend] at h
        cases h
        exact .nil (sectionEnd?_eq_some_iff.mp hend)
      | none =>
        rw [hend] at h
        obtain ⟨⟨content', rest'⟩, hfound, heq⟩ := Option.map_eq_some_iff.mp h
        cases heq
        exact .cons (sectionEnd?_eq_none_iff.mp hend) (ih hfound)
  · intro h
    induction h with
    | @nil cs rest h =>
      cases cs with
      | nil => cases h
      | cons c cs => rw [sectionContent?, sectionEnd?_eq_some_iff.mpr h]
    | cons h _ ih =>
      rw [sectionContent?, sectionEnd?_eq_none_iff.mpr h]
      simp [ih]

theorem not_isSectionChar_of_isBlank {c : Char} (h : isBlank c = true) :
    isSectionChar c = false := by
  have hmem := Routine.toNat_mem_of_isBlank h
  have hall : ∀ n ∈ Routine.blankNumbers, isSectionChar (Char.ofNat n) = false := by decide +kernel
  have hc := hall _ hmem
  rw [Char.ofNat_toNat] at hc
  exact hc

theorem not_isBlank_of_isSectionChar {c : Char} (h : isSectionChar c = true) :
    isBlank c = false := by
  rw [← Bool.not_eq_true]
  intro hblank
  rw [not_isSectionChar_of_isBlank hblank] at h
  cases h

/-- The name of a section ends where its marker is closed. -/
theorem not_isSectionChar_head {b : List Char} (hb : Blanks b) (rest : List Char) :
    ∀ c ∈ (b ++ (closing ++ rest)).head?, isSectionChar c = false := by
  cases b with
  | nil =>
    rintro c ⟨⟩
    rfl
  | cons d b =>
    rintro c ⟨⟩
    exact not_isSectionChar_of_isBlank (hb _ List.mem_cons_self)

/-- A section is found exactly where one stands. -/
theorem section?_eq_some_iff (cs : List Char) (s : Section) (rest : List Char) :
    (section? cs = some (s, rest)) ↔ SectionMark cs s rest := by
  simp only [section?, Option.bind_eq_bind, Option.bind_eq_some_iff]
  constructor
  · rintro ⟨_, hword, stretch, hgap, h⟩
    obtain ⟨b, hb, rfl⟩ := (markerWord?_eq_some_iff rfl rfl).mp hword
    obtain ⟨b', hb', hne, rfl, -⟩ := pastBlanks?_eq_some_iff.mp hgap
    obtain ⟨hstretch, hchars, -⟩ := (@span_eq_iff isSectionChar stretch _ _).mp ⟨rfl, rfl⟩
    generalize stretch.takeWhile isSectionChar = id at h hstretch hchars
    split at h
    · cases h
    · rename_i hid
      simp only [Option.bind_eq_some_iff, Prod.exists] at h
      obtain ⟨after, hclose, content, rest', hcontent, h⟩ := h
      obtain ⟨b'', hb'', hafter⟩ := closed?_eq_some_iff.mp hclose
      cases h
      rw [hstretch, hafter]
      exact .mk hb hb' hne hb'' (fun hnil => hid (List.isEmpty_iff.mpr hnil)) hchars
        (sectionContent?_eq_some_iff.mp hcontent)
  · intro h
    cases h with
    | @mk b b' b'' id after content rest hb hb' hgap hb'' hid hchars hcontent =>
      obtain ⟨htake, hdrop⟩ :=
        span_eq_iff.mpr ⟨rfl, hchars, not_isSectionChar_head hb'' after⟩
      refine ⟨_, (markerWord?_eq_some_iff (d := 'b') rfl rfl).mpr ⟨b, hb, rfl⟩, _,
        pastBlanks?_eq_some_iff.mpr ⟨b', hb', hgap, rfl, ?_⟩, ?_⟩
      · cases id with
        | nil => exact absurd rfl hid
        | cons c id => simpa using not_isBlank_of_isSectionChar (hchars c List.mem_cons_self)
      · rw [htake, hdrop, if_neg (by simpa using hid), closed?_eq_some_iff.mpr ⟨b'', hb'', rfl⟩]
        simp only [Option.bind_some, sectionContent?_eq_some_iff.mpr hcontent]

/-- What follows the end marker of a section is shorter than what begins with the section. -/
theorem EndMarker.length_lt {cs rest : List Char} (h : EndMarker cs rest) :
    rest.length < cs.length := by
  cases h
  simp only [List.length_append, opening, List.length_cons]
  omega

theorem Content.length_lt {cs content rest : List Char} (h : Content cs content rest) :
    rest.length < cs.length := by
  induction h with
  | nil h => exact h.length_lt
  | cons _ _ ih => exact Nat.lt_succ_of_lt ih

theorem SectionMark.length_lt {cs : List Char} {s : Section} {rest : List Char}
    (h : SectionMark cs s rest) : rest.length < cs.length := by
  cases h with
  | mk _ _ _ _ _ _ hcontent =>
    have := hcontent.length_lt
    simp only [List.length_append]
    omega

/-- The characters and sections of a text. -/
abbrev Pieces (text : String) (parts : List (Char ⊕ Section)) : Prop :=
  Cuts SectionMark text.toList parts

theorem scan_section?_eq_iff {cs : List Char} {parts : List (Char ⊕ Section)} :
    scan section? cs = parts ↔ Cuts SectionMark cs parts :=
  scan_eq_iff section?_eq_some_iff fun _ _ _ h => h.length_lt

/-! ### The levels of a chain -/

/-- The texts of the chain that a template begins: the template itself, and then always the layout
that the header of the text before names. -/
inductive Level (layouts : Roster String) (template : String) : Nat → String → Prop where
  | zero : Level layouts template 0 template
  | succ {i : Nat} {text name next : String} (h : Level layouts template i text)
      (hheader : Header text.toList name) (hlayout : layouts.get? name = some next) :
      Level layouts template (i + 1) next

/-- The first section of this name at a level has this content. -/
def Defines (layouts : Roster String) (template : String) (i : Nat) (id content : String) : Prop :=
  ∃ text front back, Level layouts template i text ∧
    Pieces text (front ++ .inr ⟨id, content⟩ :: back) ∧ ∀ s, .inr s ∈ front → s.name ≠ id

/-- What stands in place of a section at the end of a chain of `n` layouts: what the first level
with a section of its name has for it, or its own content if there is no such level. -/
inductive Filled (layouts : Roster String) (template : String) (n : Nat) (s : Section) :
    String → Prop where
  | override {i : Nat} {content : String} (hi : i < n)
      (h : Defines layouts template i s.name content)
      (hfirst : ∀ j < i, ∀ content, ¬ Defines layouts template j s.name content) :
      Filled layouts template n s content
  | own (h : ∀ i < n, ∀ content, ¬ Defines layouts template i s.name content) :
      Filled layouts template n s s.content

/-- A text with its sections filled at the end of a chain of `n` layouts, and nothing else of it
changed. -/
inductive FilledText (layouts : Roster String) (template : String) (n : Nat) :
    List (Char ⊕ Section) → List Char → Prop where
  | nil : FilledText layouts template n [] []
  | char {c : Char} {parts : List (Char ⊕ Section)} {out : List Char}
      (h : FilledText layouts template n parts out) :
      FilledText layouts template n (.inl c :: parts) (c :: out)
  | mark {s : Section} {content : String} {parts : List (Char ⊕ Section)} {out : List Char}
      (hs : Filled layouts template n s content) (h : FilledText layouts template n parts out) :
      FilledText layouts template n (.inr s :: parts) (content.toList ++ out)

/-- What a template comes to: the text at the end of its chain with the sections filled, or the
layout among the first ten of the chain that is missing, or the eleventh layout. -/
inductive Resolves (layouts : Roster String) (template : String) : Except String String → Prop where
  | root {n : Nat} {text : String} {parts : List (Char ⊕ Section)} {out : List Char}
      (hn : n ≤ 10) (h : Level layouts template n text)
      (hend : ∀ name, ¬ Header text.toList name) (hparts : Pieces text parts)
      (hout : FilledText layouts template n parts out) :
      Resolves layouts template (.ok (String.ofList out))
  | missing {i : Nat} {text name : String} (hi : i < 10) (h : Level layouts template i text)
      (hheader : Header text.toList name) (hlayout : layouts.get? name = none) :
      Resolves layouts template (.error ("Layout \"" ++ name ++ "\" not found"))
  | deep {text name : String} (h : Level layouts template 10 text)
      (hheader : Header text.toList name) :
      Resolves layouts template
        (.error ("Layout \"" ++ name ++ "\" exceeds the maximum inheritance depth of 10"))

section Chain

variable {layouts : Roster String} {template : String}

theorem Header.unique {cs : List Char} {name name' : String} (h : Header cs name)
    (h' : Header cs name') : name = name' := by
  rw [← header?_eq_some_iff] at h h'
  exact Option.some.inj (h.symm.trans h')

theorem header?_eq_none_iff {cs : List Char} : header? cs = none ↔ ∀ name, ¬ Header cs name := by
  simp only [Option.eq_none_iff_forall_ne_some, ne_eq, header?_eq_some_iff]

/-- A chain has one text at each level. -/
theorem Level.unique {i : Nat} {text text' : String} (h : Level layouts template i text)
    (h' : Level layouts template i text') : text = text' := by
  induction h generalizing text' with
  | zero =>
    cases h'
    rfl
  | succ _ hheader hlayout ih =>
    cases h' with
    | succ h' hheader' hlayout' =>
      cases ih h'
      cases hheader.unique hheader'
      exact Option.some.inj (hlayout.symm.trans hlayout')

/-- A chain goes on from a level as the chain of the text there. -/
theorem Level.trans {i j : Nat} {text text' : String} (h : Level layouts template i text)
    (h' : Level layouts text j text') : Level layouts template (i + j) text' := by
  induction h' with
  | zero => exact h
  | succ _ hheader hlayout ih => exact .succ ih hheader hlayout

/-- In front of a level stand all levels below it. -/
theorem Level.split {i j : Nat} {text : String} (h : Level layouts template (i + j) text) :
    ∃ between, Level layouts template i between ∧ Level layouts between j text := by
  induction j generalizing text with
  | zero => exact ⟨text, h, .zero⟩
  | succ j ih =>
    cases h with
    | succ h hheader hlayout =>
      obtain ⟨between, hfront, hback⟩ := ih h
      exact ⟨between, hfront, .succ hback hheader hlayout⟩

/-- A chain that comes back to a text never ends. -/
theorem Level.exists_of_cycle {i j : Nat} {text : String} (hij : i < j)
    (h : Level layouts template i text) (h' : Level layouts template j text) (n : Nat) :
    ∃ last, Level layouts template n last := by
  obtain ⟨d, rfl⟩ : ∃ d, j = i + (d + 1) := ⟨j - i - 1, by omega⟩
  obtain ⟨between, hfront, hback⟩ := h'.split
  cases h.unique hfront
  have hround (m : Nat) : Level layouts text (m * (d + 1)) text := by
    induction m with
    | zero => rw [Nat.zero_mul]; exact .zero
    | succ m ih => rw [Nat.succ_mul]; exact ih.trans hback
  have hfar := h.trans (hround n)
  have hle : n ≤ n * (d + 1) := Nat.le_mul_of_pos_right n (Nat.succ_pos d)
  obtain ⟨m, hm⟩ := Nat.exists_eq_add_of_le (Nat.le_trans hle (Nat.le_add_left _ i))
  rw [hm] at hfar
  obtain ⟨last, hlast, -⟩ := hfar.split
  exact ⟨last, hlast⟩

/-! ### What the levels define -/

/-- At a level whose text is known, a section is defined if it is found among the sections. -/
theorem defines_iff {i : Nat} {text : String} (h : Level layouts template i text)
    (id content : String) :
    Defines layouts template i id content
      ↔ (sections text.toList).find? (·.name == id) = some ⟨id, content⟩ := by
  rw [sections, find?_marksOf_eq_some_iff]
  constructor
  · rintro ⟨text', front, back, h', hparts, hfront⟩
    cases h.unique h'
    exact ⟨by simp, front, back, scan_section?_eq_iff.mpr hparts, by simpa using hfront⟩
  · rintro ⟨-, front, back, hparts, hfront⟩
    exact ⟨text, front, back, h, scan_section?_eq_iff.mp hparts, by simpa using hfront⟩

/-- Of the first `n` levels, the first that defines the section gives it this content. -/
def Overrides (layouts : Roster String) (template : String) (n : Nat) (id content : String) :
    Prop :=
  ∃ i < n, Defines layouts template i id content ∧
    ∀ j < i, ∀ content, ¬ Defines layouts template j id content

/-- One more level counts only for the sections that no level before it defines. -/
theorem overrides_succ_iff {n : Nat} {id content : String} :
    Overrides layouts template (n + 1) id content
      ↔ Overrides layouts template n id content ∨
        (∀ i < n, ∀ content, ¬ Defines layouts template i id content) ∧
          Defines layouts template n id content := by
  constructor
  · rintro ⟨i, hi, hdef, hfirst⟩
    rcases Nat.lt_succ_iff_lt_or_eq.mp hi with hlt | rfl
    · exact .inl ⟨i, hlt, hdef, hfirst⟩
    · exact .inr ⟨hfirst, hdef⟩
  · rintro (⟨i, hi, hdef, hfirst⟩ | ⟨hnone, hdef⟩)
    · exact ⟨i, Nat.lt_succ_of_lt hi, hdef, hfirst⟩
    · exact ⟨n, Nat.lt_succ_self n, hdef, hnone⟩

/-- If any level defines a section, a first one does. -/
theorem not_defines_of_not_overrides {n : Nat} {id : String}
    (h : ∀ content, ¬ Overrides layouts template n id content) :
    ∀ i < n, ∀ content, ¬ Defines layouts template i id content := by
  intro i
  induction i using Nat.strongRecOn with
  | ind i ih =>
    intro hi content hdef
    exact h content ⟨i, hi, hdef, fun j hj => ih j hj (Nat.lt_trans hj hi)⟩

/-! ### The walk along a chain -/

/-- The contents that the walk has collected at a level are those of the levels before. -/
def Collected (layouts : Roster String) (template : String) (n : Nat) (contents : Roster String) :
    Prop :=
  ∀ id content, contents.get? id = some content ↔ Overrides layouts template n id content

theorem get?_addSection (contents : Roster String) (s : Section) (id : String) :
    (addSection contents s).get? id
      = (contents.get? id).or (if s.name = id then some s.content else none) := by
  rw [addSection, Roster.contains]
  split
  · rename_i h
    split
    · rename_i hid
      rw [← hid] at *
      obtain ⟨content, hcontent⟩ := Option.isSome_iff_exists.mp h
      rw [hcontent]
      rfl
    · rw [Option.or_none]
  · rename_i h
    rw [Roster.get?_insert]
    split
    · rename_i hid
      rw [← hid] at *
      rw [Option.not_isSome_iff_eq_none.mp h]
      rfl
    · rw [Option.or_none]

/-- Collecting the sections of a level adds the first of each name that is new. -/
theorem get?_foldl_addSection (ss : List Section) (contents : Roster String) (id : String) :
    (ss.foldl addSection contents).get? id
      = (contents.get? id).or ((ss.find? (·.name == id)).map Section.content) := by
  induction ss generalizing contents with
  | nil => simp
  | cons s ss ih =>
    rw [List.foldl_cons, ih, get?_addSection, Option.or_assoc, List.find?_cons]
    by_cases hid : s.name = id
    · simp [hid]
    · rw [beq_false_of_ne hid, if_neg hid, Option.none_or]

/-- Nothing is collected for a section that no level before defines. -/
theorem Collected.get?_eq_none_iff {n : Nat} {contents : Roster String}
    (h : Collected layouts template n contents) (id : String) :
    contents.get? id = none ↔ ∀ i < n, ∀ content, ¬ Defines layouts template i id content := by
  rw [Option.eq_none_iff_forall_ne_some]
  constructor
  · intro hnone
    exact not_defines_of_not_overrides fun content hover => hnone content ((h id content).mpr hover)
  · intro hnone content hsome
    obtain ⟨i, hi, hdef, -⟩ := (h id content).mp hsome
    exact hnone i hi content hdef

theorem collected_zero : Collected layouts template 0 .empty := by
  intro id content
  rw [Roster.get?_empty]
  exact ⟨nofun, fun ⟨i, hi, _⟩ => absurd hi (Nat.not_lt_zero i)⟩

/-- The walk goes on from level to level. -/
theorem Collected.succ {n : Nat} {contents : Roster String} {text : String}
    (h : Collected layouts template n contents) (htext : Level layouts template n text) :
    Collected layouts template (n + 1) ((sections text.toList).foldl addSection contents) := by
  intro id content
  rw [get?_foldl_addSection, overrides_succ_iff, Option.or_eq_some_iff, h, h.get?_eq_none_iff,
    defines_iff htext]
  refine or_congr_right (and_congr_right fun _ => ?_)
  rw [Option.map_eq_some_iff]
  constructor
  · rintro ⟨⟨name, content⟩, hfound, rfl⟩
    have hname := List.find?_some hfound
    obtain rfl : name = id := beq_iff_eq.mp hname
    exact hfound
  · intro hfound
    exact ⟨_, hfound, rfl⟩

/-- What was collected is what a section is filled with. -/
theorem Collected.filled_iff {n : Nat} {contents : Roster String}
    (h : Collected layouts template n contents) (s : Section) (content : String) :
    Filled layouts template n s content ↔ (contents.get? s.name).getD s.content = content := by
  cases hfound : contents.get? s.name with
  | none =>
    have hnone := (h.get?_eq_none_iff s.name).mp hfound
    constructor
    · rintro (⟨hi, hdef, -⟩ | -)
      · exact absurd hdef (hnone _ hi _)
      · rfl
    · rintro rfl
      exact .own hnone
  | some found =>
    obtain ⟨i, hi, hdef, hfirst⟩ := (h s.name found).mp hfound
    constructor
    · rintro (⟨hi', hdef', hfirst'⟩ | hnone)
      · have hsome := (h s.name content).mpr ⟨_, hi', hdef', hfirst'⟩
        exact Option.some.inj (hfound.symm.trans hsome)
      · exact absurd hdef (hnone i hi found)
    · rintro rfl
      exact .override hi hdef hfirst

theorem Collected.filledText_iff {n : Nat} {contents : Roster String}
    (h : Collected layouts template n contents) {parts : List (Char ⊕ Section)} {out : List Char} :
    FilledText layouts template n parts out
      ↔ parts.flatMap (partText fun s => ((contents.get? s.name).getD s.content).toList) = out := by
  constructor
  · intro hout
    induction hout with
    | nil => rfl
    | char _ ih => rw [List.flatMap_cons, ih]; rfl
    | mark hs _ ih => rw [List.flatMap_cons, ih, ← (h.filled_iff _ _).mp hs]; rfl
  · rintro rfl
    induction parts with
    | nil => exact .nil
    | cons part parts ih =>
      cases part with
      | inl c => exact .char ih
      | inr s => exact .mark ((h.filled_iff s _).mpr rfl) ih

section Walk

variable {contents : Roster String} {text name : String} {bound : Nat}

theorem resolveWithin_end (h : header? text.toList = none) :
    resolveWithin layouts bound contents text = .ok (fillSections contents text.toList) := by
  cases bound <;> simp only [resolveWithin, h]

theorem resolveWithin_zero (h : header? text.toList = some name) :
    resolveWithin layouts 0 contents text = .error (.depth name) := by
  rw [resolveWithin, h]

theorem resolveWithin_missing (h : header? text.toList = some name)
    (hlayout : layouts.get? name = none) :
    resolveWithin layouts (bound + 1) contents text = .error (.missing name) := by
  rw [resolveWithin, h]
  simp only [hlayout]

theorem resolveWithin_succ {next : String} (h : header? text.toList = some name)
    (hlayout : layouts.get? name = some next) :
    resolveWithin layouts (bound + 1) contents text
      = resolveWithin layouts bound ((sections text.toList).foldl addSection contents) next := by
  rw [resolveWithin, h]
  simp only [hlayout]

end Walk

/-- The walk from the start of a chain comes by every level that it may reach. -/
theorem exists_resolveWithin {n : Nat} {text : String} (h : Level layouts template n text)
    (hn : n ≤ 10) :
    ∃ contents, Collected layouts template n contents ∧
      resolve layouts template = resolveWithin layouts (10 - n) contents text := by
  induction h with
  | zero => exact ⟨.empty, collected_zero, rfl⟩
  | @succ i text name next htext hheader hlayout ih =>
    obtain ⟨contents, hcontents, heq⟩ := ih (Nat.le_of_succ_le hn)
    refine ⟨_, hcontents.succ htext, ?_⟩
    rw [heq, show 10 - i = 10 - (i + 1) + 1 by omega,
      resolveWithin_succ (header?_eq_some_iff.mpr hheader) hlayout]

theorem message_depth (name : String) :
    (LayoutFault.depth name).message
      = "Layout \"" ++ name ++ "\" exceeds the maximum inheritance depth of 10" := by
  rw [LayoutFault.message, String.append_assoc, String.append_assoc, String.append_assoc]
  exact congrArg (fun tail => "Layout \"" ++ (name ++ tail)) (by decide +kernel)

/-- From every level the walk ends as the chain does. -/
theorem resolves_resolveWithin (bound : Nat) {n : Nat} {text : String} {contents : Roster String}
    (hn : n + bound = 10) (htext : Level layouts template n text)
    (hcontents : Collected layouts template n contents) :
    Resolves layouts template
      ((resolveWithin layouts bound contents text).mapError LayoutFault.message) := by
  induction bound generalizing n text contents with
  | zero =>
    cases hfound : header? text.toList with
    | none =>
      rw [resolveWithin_end hfound]
      exact .root (by omega) htext (header?_eq_none_iff.mp hfound) (scan_section?_eq_iff.mp rfl)
        (hcontents.filledText_iff.mpr rfl)
    | some name =>
      obtain rfl : n = 10 := hn
      rw [resolveWithin_zero hfound, Except.mapError, message_depth]
      exact .deep htext (header?_eq_some_iff.mp hfound)
  | succ bound ih =>
    cases hfound : header? text.toList with
    | none =>
      rw [resolveWithin_end hfound]
      exact .root (by omega) htext (header?_eq_none_iff.mp hfound) (scan_section?_eq_iff.mp rfl)
        (hcontents.filledText_iff.mpr rfl)
    | some name =>
      have hheader := header?_eq_some_iff.mp hfound
      cases hlayout : layouts.get? name with
      | none =>
        rw [resolveWithin_missing hfound hlayout]
        exact .missing (by omega) htext hheader hlayout
      | some next =>
        rw [resolveWithin_succ hfound hlayout]
        exact ih (by omega) (htext.succ hheader hlayout) (hcontents.succ htext)

/-- What a template comes to is what resolving it gives. -/
theorem Resolves.eq {r : Except String String} (h : Resolves layouts template r) :
    (resolve layouts template).mapError LayoutFault.message = r := by
  cases h with
  | @root n text parts out hn h hend hparts hout =>
    obtain ⟨contents, hcontents, heq⟩ := exists_resolveWithin h hn
    obtain rfl := scan_section?_eq_iff.mpr hparts
    rw [heq, resolveWithin_end (header?_eq_none_iff.mpr hend), fillSections, replaceMarks,
      hcontents.filledText_iff.mp hout]
    rfl
  | @missing i text name hi h hheader hlayout =>
    obtain ⟨contents, -, heq⟩ := exists_resolveWithin h (Nat.le_of_lt hi)
    rw [heq, show 10 - i = 10 - i - 1 + 1 by omega,
      resolveWithin_missing (header?_eq_some_iff.mpr hheader) hlayout]
    rfl
  | @deep text name h hheader =>
    obtain ⟨contents, -, heq⟩ := exists_resolveWithin h Nat.le.refl
    rw [heq, Nat.sub_self, resolveWithin_zero (header?_eq_some_iff.mpr hheader), Except.mapError,
      message_depth]

end Chain

/-- **Resolving a chain of layouts.**  What resolving a template gives, a text or a message, is what
its chain comes to: the first layout that is missing among the first ten, or else the eleventh, or
else the text at the end with the most derived contents in its sections.  A chain that comes back
to a text has an eleventh layout. -/
theorem resolve_eq_iff (layouts : Roster String) (template : String) :
    (∀ r : Except String String,
        (resolve layouts template).mapError LayoutFault.message = r ↔ Resolves layouts template r) ∧
      ∀ (i j : Nat) (text : String), i < j → Level layouts template i text →
        Level layouts template j text →
        ∃ last name, Level layouts template 10 last ∧ Header last.toList name ∧
          (resolve layouts template).mapError LayoutFault.message
            = .error ("Layout \"" ++ name ++ "\" exceeds the maximum inheritance depth of 10") := by
  refine ⟨fun r => ⟨?_, Resolves.eq⟩, fun i j text hij h h' => ?_⟩
  · rintro rfl
    exact resolves_resolveWithin 10 rfl .zero collected_zero
  · obtain ⟨beyond, hbeyond⟩ := h.exists_of_cycle hij h' 11
    cases hbeyond with
    | @succ _ last name _ hlast hheader _ =>
      exact ⟨last, name, hlast, hheader, (Resolves.deep hlast hheader).eq⟩

/-- Two layouts that extend each other make the chain too long. -/
theorem resolve_eq_iff_cycle :
    ∃ last name,
      Level (.ofList [("a", "[[ extends \"b\" ]]"), ("b", "[[ extends \"a\" ]]")])
        "[[ extends \"a\" ]]" 10 last ∧
      Header last.toList name ∧
      (resolve (.ofList [("a", "[[ extends \"b\" ]]"), ("b", "[[ extends \"a\" ]]")])
          "[[ extends \"a\" ]]").mapError LayoutFault.message
        = .error ("Layout \"" ++ name ++ "\" exceeds the maximum inheritance depth of 10") := by
  have hfirst : Header "[[ extends \"a\" ]]".toList "a" :=
    header?_eq_some_iff.mp (by decide +kernel)
  have hsecond : Header "[[ extends \"b\" ]]".toList "b" :=
    header?_eq_some_iff.mp (by decide +kernel)
  exact (resolve_eq_iff _ _).2 0 2 _ (by decide) .zero
    ((Level.succ .zero hfirst rfl).succ hsecond rfl)

/-- The content of the page comes before that of the layout between. -/
example :
    resolve
        (.ofList [("root", "[[ block a ]]x[[ endblock ]][[ block b ]]y[[ endblock ]]"),
          ("mid", "[[ extends \"root\" ]][[ block a ]]1[[ endblock ]][[ block b ]]2[[ endblock ]]")])
        "[[ extends \"mid\" ]][[ block a ]]3[[ endblock ]]"
      = .ok "32" := by
  decide +kernel

end Stencil.Template
