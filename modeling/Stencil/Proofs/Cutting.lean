import Stencil.Proofs.Marks
import Stencil.Template.Marker

/-!
# The cut of a template

A template can be cut into texts and markers in one way only, if markers close as soon as they can
and no text holds a marker that would close.  That is said here by places in the template, without
the scan that finds them, and then the scan is shown to find this cut.

* `Part`, `written` — the parts of a template, and the template that they make up;
* `IsCut` — parts that are cut in the right places;
* `Part.Reads` — the piece that a part is: blanks around the inside of a marker do not count, nor
  does its sigil;
* `FirstMarker` — the first marker of a text, which is unique;
* `IsCut.cases`, `IsCut.unique` — a cut begins at the first marker, and so there is one at most;
* `tokenize_cut` — the main theorem.
-/

namespace Stencil.Template

open Stencil.Text

/-! ### Cuts -/

/-- A part of a template. -/
inductive Part where
  /-- Text between markers. -/
  | text (cs : List Char)
  /-- A marker with this inside. -/
  | marker (inner : List Char)

/-- How a part stands in the template. -/
def Part.written : Part → List Char
  | .text cs => cs
  | .marker inner => opening ++ (inner ++ closing)

/-- The template that parts make up. -/
def written (parts : List Part) : List Char := parts.flatMap Part.written

/-- At this place an opening stands, and a close begins at least one character behind it. -/
def OpensAt (cs : List Char) (i : Nat) : Prop :=
  opening <+: cs.drop i ∧ ∃ j, i + 3 ≤ j ∧ closing <+: cs.drop j

/-- Inside a marker that this follows, no close begins before its end, but for one that would leave
the marker no character. -/
def Near (inner rest : List Char) : Prop :=
  inner ≠ [] ∧ ∀ i, 1 ≤ i → i < inner.length → ¬ closing <+: (inner ++ (closing ++ rest)).drop i

/-- The parts are cut in the right places: markers close at the nearest close, and in texts, no two
of which stand side by side, none opens that would close later. -/
inductive IsCut : List Part → Prop where
  | nil : IsCut []
  | marker {inner : List Char} {parts : List Part} (hnear : Near inner (written parts))
      (hrest : IsCut parts) : IsCut (.marker inner :: parts)
  | text {cs : List Char} {parts : List Part} (hne : cs ≠ [])
      (hapart : ∀ cs', parts.head? ≠ some (.text cs'))
      (hopens : ∀ i < cs.length, ¬ OpensAt (cs ++ written parts) i) (hrest : IsCut parts) :
      IsCut (.text cs :: parts)

/-- The piece that a part is. -/
inductive Part.Reads : Part → Piece → Prop where
  | text (cs : List Char) : Reads (.text cs) (.text (String.ofList cs))
  | escaped {cs inner : List Char} (h : Trimmed cs inner) :
      Reads (.marker ('=' :: cs)) (.escaped (String.ofList inner))
  | raw {cs inner : List Char} (h : Trimmed cs inner) :
      Reads (.marker ('-' :: cs)) (.raw (String.ofList inner))
  | code {cs inner : List Char} (hsigil : ∀ c ∈ cs.head?, c ≠ '=' ∧ c ≠ '-')
      (h : Trimmed cs inner) : Reads (.marker cs) (.code (String.ofList inner))

/-! ### The first marker -/

/-- The first marker of a text, with what stands in front of it and behind it. -/
structure FirstMarker (cs front inner rest : List Char) : Prop where
  whole : cs = front ++ (opening ++ (inner ++ (closing ++ rest)))
  near : Near inner rest
  first : ∀ i < front.length, ¬ OpensAt cs i

theorem closeMarker_eq_some_iff {cs inner rest : List Char} :
    closeMarker cs = some (inner, rest) ↔ cs = inner ++ (closing ++ rest) ∧ Near inner rest := by
  cases cs with
  | nil =>
    refine ⟨nofun, fun h => ?_⟩
    have := congrArg List.length h.1
    simp [closing] at this
  | cons c cs =>
    simp only [closeMarker, Option.map_eq_some_iff, Prod.exists, cut_eq_some_iff]
    constructor
    · rintro ⟨body, rest', ⟨hcs, hleft⟩, heq⟩
      obtain ⟨rfl, rfl⟩ := Prod.mk.inj heq
      refine ⟨congrArg (c :: ·) hcs, List.cons_ne_nil _ _, fun i hi hlt => ?_⟩
      obtain ⟨i, rfl⟩ : ∃ j, i = j + 1 := ⟨i - 1, by omega⟩
      rw [hcs] at hleft
      exact hleft i (Nat.lt_of_succ_lt_succ hlt)
    · rintro ⟨hcs, hne, hnear⟩
      cases inner with
      | nil => exact absurd rfl hne
      | cons d body =>
        obtain ⟨rfl, rfl⟩ := List.cons.inj hcs
        exact ⟨body, rest, ⟨rfl, fun i hi => hnear (i + 1) (Nat.le_add_left 1 i)
          (Nat.succ_lt_succ hi)⟩, rfl⟩

theorem closeMarker_eq_none_iff {cs : List Char} :
    closeMarker cs = none ↔ ∀ j, 1 ≤ j → ¬ closing <+: cs.drop j := by
  cases cs with
  | nil => exact ⟨fun _ j _ => by simp [closing], fun _ => rfl⟩
  | cons c cs =>
    rw [closeMarker, Option.map_eq_none_iff, cut_eq_none_iff]
    constructor
    · intro h j hj
      obtain ⟨i, rfl⟩ : ∃ i, j = i + 1 := ⟨j - 1, by omega⟩
      exact h i
    · intro h i
      exact h (i + 1) (Nat.le_add_left 1 i)

/-- Where nothing opens, no marker opens. -/
theorem not_opensAt_of_cut {cs : List Char} (h : cut opening cs = none) (i : Nat) :
    ¬ OpensAt cs i :=
  fun hopens => cut_eq_none_iff.mp h i hopens.1

/-- A close behind any opening would be one behind the first opening, too. -/
theorem not_opensAt_of_closeMarker {cs front inside : List Char}
    (hcut : cut opening cs = some (front, inside)) (h : closeMarker inside = none) (i : Nat) :
    ¬ OpensAt cs i := by
  rintro ⟨hopening, j, hj, hclosing⟩
  obtain ⟨hcs, hleft⟩ := cut_eq_some_iff.mp hcut
  have hi : front.length ≤ i := Nat.le_of_not_lt fun hlt => hleft i hlt hopening
  refine closeMarker_eq_none_iff.mp h (j - (front ++ opening).length) ?_ ?_
  · simp only [List.length_append, opening, List.length_cons, List.length_nil]
    omega
  · rw [hcs, ← List.append_assoc, List.drop_append, List.drop_eq_nil_of_le] at hclosing
    · exact hclosing
    · simp only [List.length_append, opening, List.length_cons, List.length_nil]
      omega

/-- What cutting finds is the first marker. -/
theorem firstMarker_of_cut {cs front inside inner rest : List Char}
    (hcut : cut opening cs = some (front, inside))
    (hclose : closeMarker inside = some (inner, rest)) : FirstMarker cs front inner rest := by
  obtain ⟨hcs, hleft⟩ := cut_eq_some_iff.mp hcut
  obtain ⟨hinside, hnear⟩ := closeMarker_eq_some_iff.mp hclose
  exact ⟨hinside ▸ hcs, hnear, fun i hi hopens => hleft i hi hopens.1⟩

namespace FirstMarker

variable {cs front inner rest front' inner' rest' : List Char}

theorem opensAt (h : FirstMarker cs front inner rest) : OpensAt cs front.length := by
  have hinner : 1 ≤ inner.length := List.length_pos_iff.mpr h.near.1
  refine ⟨?_, (front ++ (opening ++ inner)).length, ?_, ?_⟩
  · rw [h.whole, List.drop_left]
    exact List.prefix_append _ _
  · simp only [List.length_append, opening, List.length_cons, List.length_nil]
    omega
  · have hwhole : cs = front ++ (opening ++ inner) ++ (closing ++ rest) := by
      rw [h.whole]
      simp only [List.append_assoc]
    rw [hwhole, List.drop_left]
    exact List.prefix_append _ _

/-- A text has one first marker at most. -/
theorem unique (h : FirstMarker cs front inner rest) (h' : FirstMarker cs front' inner' rest') :
    front = front' ∧ inner = inner' ∧ rest = rest' := by
  have hlength : front.length = front'.length := by
    refine Nat.le_antisymm ?_ ?_
    · exact Nat.le_of_not_lt fun hlt => h.first _ hlt h'.opensAt
    · exact Nat.le_of_not_lt fun hlt => h'.first _ hlt h.opensAt
  obtain ⟨hfront, hrest⟩ := List.append_inj (h.whole.symm.trans h'.whole) hlength
  have hinside := List.append_cancel_left hrest
  have hclose := closeMarker_eq_some_iff.mpr ⟨hinside, h'.near⟩
  rw [closeMarker_eq_some_iff.mpr ⟨rfl, h.near⟩] at hclose
  cases hclose
  exact ⟨hfront, rfl, rfl⟩

end FirstMarker

/-! ### Cuts and first markers -/

/-- The part that a text is, if it is not empty. -/
def textParts (cs : List Char) : List Part := if cs.isEmpty then [] else [.text cs]

theorem written_append (parts parts' : List Part) :
    written (parts ++ parts') = written parts ++ written parts' :=
  List.flatMap_append

theorem written_textParts (cs : List Char) : written (textParts cs) = cs := by
  cases cs with
  | nil => rfl
  | cons c cs => exact List.append_nil _

/-- A text in which no marker opens is one part. -/
theorem isCut_textParts {cs : List Char} (h : ∀ i, ¬ OpensAt cs i) : IsCut (textParts cs) := by
  cases cs with
  | nil => exact .nil
  | cons c cs =>
    refine .text (List.cons_ne_nil c cs) nofun (fun i _ => ?_) .nil
    rw [written, List.flatMap_nil, List.append_nil]
    exact h i

/-- The part in front of the first marker, the marker, and a cut of what follows make a cut. -/
theorem FirstMarker.isCut {cs front inner : List Char} {parts : List Part}
    (h : FirstMarker cs front inner (written parts)) (hparts : IsCut parts) :
    IsCut (textParts front ++ .marker inner :: parts)
      ∧ written (textParts front ++ .marker inner :: parts) = cs := by
  have hwritten : written (textParts front ++ .marker inner :: parts) = cs := by
    rw [written_append, written_textParts, h.whole]
    simp only [written, List.flatMap_cons, Part.written, List.append_assoc]
  refine ⟨?_, hwritten⟩
  have hmarker := IsCut.marker h.near hparts
  cases front with
  | nil => exact hmarker
  | cons c front =>
    refine .text (List.cons_ne_nil c front) nofun (fun i hi => ?_) hmarker
    rw [← hwritten] at h
    exact h.first i hi

/-- A cut begins at the first marker, or there is none. -/
theorem IsCut.cases {parts : List Part} (h : IsCut parts) :
    (∃ cs, parts = textParts cs ∧ ∀ i, ¬ OpensAt cs i)
      ∨ ∃ front inner parts', parts = textParts front ++ .marker inner :: parts'
        ∧ FirstMarker (written parts) front inner (written parts') ∧ IsCut parts' := by
  -- No place behind the end of a text opens a marker in it.
  have beyond {cs : List Char} {i : Nat} (hi : cs.length ≤ i) : ¬ OpensAt cs i := by
    rintro ⟨hopening, -⟩
    rw [List.drop_eq_nil_of_le hi] at hopening
    exact absurd (List.prefix_nil.mp hopening) (List.cons_ne_nil _ _)
  have marked {inner : List Char} {parts : List Part} (hnear : Near inner (written parts)) :
      written (.marker inner :: parts) = opening ++ (inner ++ (closing ++ written parts)) := by
    simp only [written, List.flatMap_cons, Part.written, List.append_assoc]
  cases h with
  | nil => exact .inl ⟨[], rfl, fun i => beyond (Nat.zero_le i)⟩
  | @marker inner parts hnear hrest =>
    exact .inr ⟨[], inner, parts, rfl, ⟨marked hnear, hnear, nofun⟩, hrest⟩
  | @text cs parts hne hapart hopens hrest =>
    have htext : textParts cs = [.text cs] := if_neg (by simpa using hne)
    cases hrest with
    | nil =>
      refine .inl ⟨cs, htext.symm, fun i => ?_⟩
      by_cases hi : i < cs.length
      · simpa [written] using hopens i hi
      · exact beyond (Nat.le_of_not_lt hi)
    | @marker inner parts hnear hrest =>
      refine .inr ⟨cs, inner, parts, by rw [htext]; rfl, ⟨?_, hnear, hopens⟩, hrest⟩
      exact congrArg (cs ++ ·) (marked hnear)
    | text => exact absurd rfl (hapart _)

theorem FirstMarker.length_lt {cs front inner rest : List Char}
    (h : FirstMarker cs front inner rest) : rest.length < cs.length := by
  have hlength := congrArg List.length h.whole
  simp only [List.length_append, opening, closing, List.length_cons] at hlength
  omega

/-- A text is cut in one way only. -/
theorem IsCut.unique {parts parts' : List Part} (h : IsCut parts) (h' : IsCut parts')
    (hwritten : written parts' = written parts) : parts' = parts := by
  -- The induction is on the length of the text, from marker to marker.
  induction hn : (written parts).length using Nat.strong_induction_on
    generalizing parts parts' with
  | _ n ih =>
    rcases h.cases with ⟨cs, rfl, hnone⟩ | ⟨front, inner, rest, rfl, hfirst, hrest⟩ <;>
      rcases h'.cases with ⟨cs', rfl, hnone'⟩ | ⟨front', inner', rest', rfl, hfirst', hrest'⟩
    · rw [written_textParts, written_textParts] at hwritten
      rw [hwritten]
    · rw [hwritten, written_textParts] at hfirst'
      exact absurd hfirst'.opensAt (hnone _)
    · rw [← hwritten, written_textParts] at hfirst
      exact absurd hfirst.opensAt (hnone' _)
    · rw [hwritten] at hfirst'
      obtain ⟨rfl, rfl, hbehind⟩ := hfirst.unique hfirst'
      rw [ih _ (hn ▸ hfirst.length_lt) hrest hrest' hbehind.symm rfl]

/-! ### The cut that `tokenize` makes -/

/-- The piece that a part is, computed. -/
def Part.piece : Part → Piece
  | .text cs => .text (String.ofList cs)
  | .marker inner => classify inner

theorem Part.reads_iff {part : Part} {piece : Piece} : part.Reads piece ↔ part.piece = piece := by
  constructor
  · intro h
    cases h with
    | text cs => rfl
    | escaped h | raw h =>
      rw [← trim_eq_iff.mpr h]
      rfl
    | @code cs inner hsigil h =>
      rw [← trim_eq_iff.mpr h, Part.piece, classify]
      · rintro cs rfl
        exact (hsigil '=' rfl).1 rfl
      · rintro cs rfl
        exact (hsigil '-' rfl).2 rfl
  · rintro rfl
    cases part with
    | text cs => exact .text cs
    | marker inner =>
      rw [Part.piece, classify.eq_def]
      split
      · exact .escaped (trim_eq_iff.mp rfl)
      · exact .raw (trim_eq_iff.mp rfl)
      · rename_i hescaped hraw
        refine .code (fun c hc => ?_) (trim_eq_iff.mp rfl)
        obtain ⟨ds, rfl⟩ := List.head?_eq_some_iff.mp hc
        exact ⟨fun hc => hescaped ds (hc ▸ rfl), fun hc => hraw ds (hc ▸ rfl)⟩

theorem textPiece_eq_textParts (cs : List Char) :
    textPiece cs = (textParts cs).map Part.piece := by
  rw [textPiece, textParts]
  split <;> rfl

/-- Cutting from left to right gives the pieces of a cut. -/
theorem exists_cut (bound : Nat) {cs : List Char} (hbound : cs.length ≤ bound) :
    ∃ parts, IsCut parts ∧ written parts = cs
      ∧ tokenizeWithin bound cs = parts.map Part.piece := by
  induction bound generalizing cs with
  | zero =>
    obtain rfl := List.length_eq_zero_iff.mp (Nat.le_zero.mp hbound)
    exact ⟨[], .nil, rfl, rfl⟩
  | succ bound ih =>
    have plain (hnone : ∀ i, ¬ OpensAt cs i) (h : tokenizeWithin (bound + 1) cs = textPiece cs) :
        ∃ parts, IsCut parts ∧ written parts = cs
          ∧ tokenizeWithin (bound + 1) cs = parts.map Part.piece :=
      ⟨_, isCut_textParts hnone, written_textParts cs, h.trans (textPiece_eq_textParts cs)⟩
    cases hcut : cut opening cs with
    | none => exact plain (not_opensAt_of_cut hcut) (by rw [tokenizeWithin, hcut])
    | some found =>
      obtain ⟨front, inside⟩ := found
      cases hclose : closeMarker inside with
      | none =>
        refine plain (not_opensAt_of_closeMarker hcut hclose) ?_
        rw [tokenizeWithin, hcut]
        dsimp only
        rw [hclose]
      | some found =>
        obtain ⟨inner, rest⟩ := found
        have hfirst := firstMarker_of_cut hcut hclose
        have hlength := hfirst.length_lt
        obtain ⟨parts, hparts, rfl, htokens⟩ := @ih rest (by omega)
        obtain ⟨hwhole, hwritten⟩ := hfirst.isCut hparts
        refine ⟨_, hwhole, hwritten, ?_⟩
        rw [tokenizeWithin, hcut]
        dsimp only
        rw [hclose]
        dsimp only
        rw [htokens, textPiece_eq_textParts, List.map_append, List.map_cons]
        rfl

/-- **Templates are cut in one way.**  Every template has exactly one cut into texts and markers in
which each marker closes at the nearest close and no text opens a marker that would close, and the
pieces of the template are what the parts of this cut read as, and nothing else. -/
theorem tokenize_cut (template : String) :
    ∃ parts, (∀ parts', IsCut parts' ∧ written parts' = template.toList ↔ parts' = parts)
      ∧ ∀ pieces, List.Forall₂ Part.Reads parts pieces ↔ pieces = tokenize template := by
  obtain ⟨parts, hcut, hwritten, htokens⟩ := exists_cut template.toList.length (Nat.le_refl _)
  refine ⟨parts, fun parts' => ⟨fun ⟨hcut', hwritten'⟩ => ?_, ?_⟩, fun pieces => ?_⟩
  · exact hcut.unique hcut' (hwritten'.trans hwritten.symm)
  · rintro rfl
    exact ⟨hcut, hwritten⟩
  · have hreads : Part.Reads = fun part piece => part.piece = piece :=
      funext₂ fun _ _ => propext Part.reads_iff
    rw [tokenize, htokens, hreads, eq_comm]
    exact List.forall₂_map_left_iff.symm.trans (by rw [List.forall₂_eq_eq_eq])

/-- The brackets behind an opening belong to the marker, and those behind a close to the text. -/
example : tokenize "[[]][[=a]]]" = [.code "]][[=a", .text "]"] := by decide +kernel

end Stencil.Template
