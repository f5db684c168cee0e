import Stencil.Proofs.Marks
import Stencil.Template.Shorthand

/-!
# Templates in segments

A template that falls apart into texts and markers, none of which could be mistaken for something
else, is rewritten segment by segment: a shorthand marker becomes the marker of a call, and all other
segments stay.  So it does not matter which shorthand is written out first.

* `Segment`, `Segment.IsRegular` — texts in which no marker opens, and markers that hold something
  and in which no other marker opens or closes;
* `Segment.HidesShorthand` — a marker that begins with a bracket and an empty shorthand, which would
  take in what follows;
* `Segment.rewrite`, `replaceMarks_printed` — what becomes of a segment, and of a template;
* `IsPlain`, `IsPlain.writeMessages_writeInclusions` — templates in which both shorthands can be
  written out in either order.
-/

namespace Stencil.Template

open Text

/-! ### Segments -/

/-- A stretch of a template. -/
inductive Segment where
  /-- Text between markers. -/
  | text (cs : List Char)
  /-- A marker with what stands in it. -/
  | marker (inner : List Char)

/-- The characters of a segment. -/
def Segment.chars : Segment → List Char
  | .text cs => cs
  | .marker inner => opening ++ inner ++ closing

/-- The characters of segments in a row. -/
def printed (segments : List Segment) : List Char := segments.flatMap Segment.chars

/-- The signs that can tell what a marker does. -/
def sigils : List Char := ['=', '-', '>', '@']

/-- The signs of the shorthand markers. -/
def shorthandSigils : List Char := ['>', '@']

/-- What stands in a marker behind its sigil, if it has one, and blanks. -/
def content : List Char → List Char
  | [] => []
  | c :: cs => if c ∈ sigils then trimStart cs else trimStart (c :: cs)

/-- No marker opens in the text or at its end; the marker has a content, in which no marker opens or
closes. -/
def Segment.IsRegular : Segment → Prop
  | .text cs => contains opening cs = false ∧ cs.getLast? ≠ some '['
  | .marker inner =>
    content inner ≠ [] ∧ contains opening (content inner) = false
      ∧ contains closing (content inner) = false

instance : DecidablePred Segment.IsRegular
  | .text cs => inferInstanceAs (Decidable (_ ∧ cs.getLast? ≠ some '['))
  | .marker inner => inferInstanceAs (Decidable (content inner ≠ [] ∧ _ ∧ _))

/-- The marker holds a bracket, and behind it the sign of a shorthand without a content. -/
def Segment.HidesShorthand : Segment → Prop
  | .text _ => False
  | .marker inner =>
    ∃ sigil ∈ shorthandSigils, ∃ blanks, Blanks blanks ∧ inner = '[' :: sigil :: blanks

/-! ### Rewriting a segment -/

/-- What stands in front of the first close, where a close follows the characters, and what the
close leaves of them. -/
def beforeClose (cs : List Char) : List Char × List Char :=
  if cs.getLast? = some ']' then (cs.dropLast, [']']) else (cs, [])

/-- A marker with a call in place of the shorthand behind its front. -/
def called (call : List Char → List Char) (front cs : List Char) : List Segment :=
  match trimStart cs with
  | [] => []
  | c :: ds =>
    [.marker (front ++ call (trimEnd (c :: (beforeClose ds).1))), .text (beforeClose ds).2]

theorem printed_called (call : List Char → List Char) (front : List Char) {c : Char}
    {cs ds : List Char} (hcs : trimStart cs = c :: ds) :
    printed (called call front cs)
      = opening ++ (front ++ call (trimEnd (c :: (beforeClose ds).1))) ++ closing
        ++ (beforeClose ds).2 := by
  rw [called, hcs]
  simp [printed, Segment.chars]

/-- What becomes of a segment if the shorthands with this sigil are written as calls. -/
def Segment.rewrite (sigil : Char) (call : List Char → List Char) : Segment → List Segment
  | .text cs => [.text cs]
  | .marker inner =>
    match stripFront [sigil] inner, stripFront ['[', sigil] inner with
    | some cs, _ => called call [] cs
    | none, some cs => called call ['['] cs
    | none, none => [.marker inner]

/-- A marker stays as it is if neither its first sign nor the one behind a bracket is the sigil. -/
theorem Segment.rewrite_marker {sigil d : Char} (hd : d ≠ sigil) (hbracket : d ≠ '[')
    (hsigil : sigil ≠ '[') (call : List Char → List Char) {front : List Char}
    (hfront : front ∈ [[], ['[']]) (cs : List Char) :
    (Segment.marker (front ++ d :: cs)).rewrite sigil call = [.marker (front ++ d :: cs)] := by
  have hfirst : stripFront [sigil] (front ++ d :: cs) = none := by
    rcases List.mem_pair.mp hfront with rfl | rfl
    · exact if_neg hd.symm
    · exact if_neg hsigil
  have hsecond : stripFront ['[', sigil] (front ++ d :: cs) = none := by
    rcases List.mem_pair.mp hfront with rfl | rfl
    · exact if_neg hbracket.symm
    · exact (if_pos rfl).trans (if_neg hd.symm)
  rw [rewrite, hfirst, hsecond]

/-- A segment stays as it is, or it is a marker with the shorthand at its front or behind a
bracket. -/
theorem Segment.rewrite_cases (sigil : Char) (call : List Char → List Char) (s : Segment) :
    s.rewrite sigil call = [s]
      ∨ ∃ front ∈ [[], ['[']], ∃ cs, s = .marker (front ++ sigil :: cs)
        ∧ s.rewrite sigil call = called call front cs := by
  cases s with
  | text cs => exact .inl rfl
  | marker inner =>
    rw [rewrite]
    cases hfirst : stripFront [sigil] inner with
    | some cs =>
      obtain rfl := eq_of_stripFront hfirst
      exact .inr ⟨[], List.mem_cons_self, cs, rfl, rfl⟩
    | none =>
      cases hsecond : stripFront ['[', sigil] inner with
      | some cs =>
        obtain rfl := eq_of_stripFront hsecond
        exact .inr ⟨['['], by decide, cs, rfl, rfl⟩
      | none => exact .inl rfl

/-! ### Scanning for shorthands -/

theorem length_le_trimStart (cs : List Char) : (trimStart cs).length ≤ cs.length :=
  (List.dropWhile_sublist _).length_le

theorem length_lt_of_closeMarker {cs body rest : List Char}
    (h : closeMarker cs = some (body, rest)) : rest.length < cs.length := by
  cases cs with
  | nil => cases h
  | cons c cs =>
    rw [closeMarker, Option.map_eq_some_iff] at h
    obtain ⟨⟨inner, rest'⟩, hcut, heq⟩ := h
    cases heq
    have := congrArg List.length (eq_of_cut hcut)
    simp only [List.length_append, List.length_cons] at this ⊢
    omega

/-- A shorthand takes some characters. -/
theorem length_lt_of_shorthand? {sigil : Char} {cs body rest : List Char}
    (h : shorthand? sigil cs = some (body, rest)) : rest.length < cs.length := by
  rw [shorthand?] at h
  split at h
  · cases h
  · rename_i inside hinside
    have hlength := congrArg List.length (eq_of_stripFront hinside)
    have htrim := length_le_trimStart inside
    simp only [List.length_append] at hlength
    dsimp only at h
    split at h
    · rename_i hclose
      cases h
      have := length_lt_of_closeMarker hclose
      omega
    · split at h
      · rename_i hclosing
        cases h
        have := congrArg List.length (eq_of_stripFront hclosing)
        simp only [List.length_append, closing, List.length_cons] at this
        omega
      · cases h

/-- Text is passed over. -/
theorem replaceMarks_text {cs : List Char} (h : Apart '[' cs) (hlast : cs.getLast? ≠ some '[')
    (sigil : Char) (replace : List Char → List Char) (rest : List Char) :
    replaceMarks (shorthand? sigil) replace (cs ++ rest)
      = cs ++ replaceMarks (shorthand? sigil) replace rest := by
  induction cs with
  | nil => rfl
  | cons c cs ih =>
    have hopening : stripFront (opening ++ [sigil]) (c :: (cs ++ rest)) = none :=
      stripFront_append_eq_none (stripFront_pair_append h hlast rest) [sigil]
    have hnone : shorthand? sigil (c :: (cs ++ rest)) = none := by
      rw [shorthand?, hopening]
    rw [List.cons_append, replaceMarks_cons_of_none hnone, ih h.tail (getLast?_ne_of_cons hlast)]
    rfl

theorem cut_beforeClose {cs : List Char} (h : Apart ']' cs) (rest : List Char) :
    cut closing (cs ++ (closing ++ rest))
      = some ((beforeClose cs).1, (beforeClose cs).2 ++ rest) := by
  rw [beforeClose]
  split
  · rename_i hlast
    obtain ⟨ds, rfl⟩ := List.getLast?_eq_some_iff.mp hlast
    have hds : Apart ']' ds := (List.isChain_append.mp h).1
    have hdlast : ds.getLast? ≠ some ']' := fun hd =>
      (List.isChain_append.mp h).2.2 ']' hd ']' rfl rfl rfl
    rw [List.dropLast_concat, List.append_assoc]
    exact cut_pair hds hdlast (']' :: rest)
  · rename_i hlast
    exact cut_pair h hlast rest

/-- A shorthand with a content is found. -/
theorem shorthand?_marker {sigil c : Char} {cs ds : List Char} (hcs : trimStart cs = c :: ds)
    (h : Apart ']' (c :: ds)) (rest : List Char) :
    shorthand? sigil (opening ++ (sigil :: cs ++ (closing ++ rest)))
      = some (trimEnd (c :: (beforeClose ds).1), (beforeClose ds).2 ++ rest) := by
  have hfront : stripFront (opening ++ [sigil]) (opening ++ (sigil :: cs ++ (closing ++ rest)))
      = some (cs ++ (closing ++ rest)) := stripFront_append (opening ++ [sigil]) _
  have htrim : trimStart (cs ++ (closing ++ rest)) = c :: (ds ++ (closing ++ rest)) := by
    obtain ⟨b, hb, hsplit⟩ := exists_blanks_trimStart cs
    have hhead : (trimStart cs).head? = some c := by rw [hcs]; rfl
    have hc := head_trimStart_not_blank hhead
    rw [hsplit, hcs, List.append_assoc, hb.trimStart_append]
    exact trimStart_of_not_blank hc
  have hds : Apart ']' ds := h.tail
  rw [shorthand?, hfront]
  dsimp only
  rw [htrim, closeMarker, cut_beforeClose hds]
  rfl

/-! ### Regular segments -/

/-- A character that is no blank and no sigil is nowhere but in the content. -/
theorem apart_of_content {d : Char} (hblank : isBlank d = false) (hd : d ∉ sigils)
    {inner : List Char} (h : Apart d (content inner)) : Apart d inner := by
  have trimmed {cs : List Char} (h : Apart d (trimStart cs)) : Apart d cs := by
    obtain ⟨b, hb, hsplit⟩ := exists_blanks_trimStart cs
    have hnotMem : d ∉ b := fun hmem => by
      rw [hb d hmem] at hblank
      cases hblank
    rw [hsplit]
    exact (apart_of_notMem hnotMem).append h fun hlast => hnotMem (List.mem_of_getLast? hlast)
  cases inner with
  | nil => exact .nil
  | cons c cs =>
    rw [content] at h
    split at h
    · rename_i hc
      have hne : c ≠ d := fun hcd => hd (hcd ▸ hc)
      have hnotMem : d ∉ [c] := by simpa using hne.symm
      exact (apart_of_notMem hnotMem).append (trimmed h) (by simpa)
    · exact trimmed h

namespace Segment.IsRegular

variable {inner : List Char} (h : (Segment.marker inner).IsRegular)
include h

theorem opens_apart : Apart '[' inner :=
  apart_of_content (by decide) (by decide) ((apart_iff _ _).mpr h.2.1)

theorem closes_apart : Apart ']' inner :=
  apart_of_content (by decide) (by decide) ((apart_iff _ _).mpr h.2.2)

end Segment.IsRegular

/-- What stands behind the sigil of a regular marker, at its front or behind a bracket, is no mere
blanks. -/
theorem trimStart_ne_nil {sigil : Char} (hsigil : sigil ∈ shorthandSigils) {front cs : List Char}
    (hfront : front ∈ [[], ['[']]) (h : (Segment.marker (front ++ sigil :: cs)).IsRegular)
    (hshown : ¬ (Segment.marker (front ++ sigil :: cs)).HidesShorthand) : trimStart cs ≠ [] := by
  intro hnil
  rcases List.mem_pair.mp hfront with rfl | rfl
  · have hmem : sigil ∈ sigils := List.mem_append_right ['=', '-'] hsigil
    refine h.1 ?_
    show (if sigil ∈ sigils then _ else _) = _
    rw [if_pos hmem, hnil]
  · obtain ⟨b, hb, hsplit⟩ := exists_blanks_trimStart cs
    rw [hnil, List.append_nil] at hsplit
    exact hshown ⟨sigil, hsigil, b, hb, hsplit ▸ rfl⟩

/-! ### Rewriting a template -/

section Rewriting

variable {sigil : Char} (hsigil : sigil ∈ shorthandSigils) {replace call : List Char → List Char}
  (hreplace : ∀ body, replace body = opening ++ call body ++ closing)
include hsigil hreplace

omit hsigil in
/-- A shorthand with a content in front of a text. -/
theorem replaceMarks_marker {c : Char} {cs ds : List Char} (hcs : trimStart cs = c :: ds)
    (h : Apart ']' (c :: ds)) (rest : List Char) :
    replaceMarks (shorthand? sigil) replace (opening ++ (sigil :: cs ++ (closing ++ rest)))
      = opening ++ call (trimEnd (c :: (beforeClose ds).1)) ++ closing ++ (beforeClose ds).2
        ++ replaceMarks (shorthand? sigil) replace rest := by
  have hleft : Apart '[' (beforeClose ds).2 ∧ (beforeClose ds).2.getLast? ≠ some '[' := by
    rw [beforeClose]
    split
    · exact ⟨.singleton ']', show [']'].getLast? ≠ some '[' by decide⟩
    · exact ⟨.nil, nofun⟩
  rw [replaceMarks_of_some (fun _ _ _ => length_lt_of_shorthand?) (shorthand?_marker hcs h rest),
    replaceMarks_text hleft.1 hleft.2, hreplace]
  simp only [List.append_assoc]

omit hsigil hreplace in
/-- No shorthand begins with an opening that something else than its sigil follows. -/
theorem replaceMarks_opening {d : Char} (hd : sigil ≠ d) (cs : List Char) :
    replaceMarks (shorthand? sigil) replace (opening ++ d :: cs)
      = '[' :: replaceMarks (shorthand? sigil) replace ('[' :: d :: cs) := by
  have hstart : shorthand? sigil ('[' :: '[' :: d :: cs) = none := by
    rw [shorthand?, show stripFront (opening ++ [sigil]) ('[' :: '[' :: d :: cs) = none from
      if_neg hd]
  exact replaceMarks_cons_of_none hstart replace

/-- A marker with a shorthand, at its front or behind a bracket, in front of a text. -/
theorem replaceMarks_called {front cs : List Char} (hfront : front ∈ [[], ['[']])
    (h : (Segment.marker (front ++ sigil :: cs)).IsRegular)
    (hshown : ¬ (Segment.marker (front ++ sigil :: cs)).HidesShorthand) (rest : List Char) :
    replaceMarks (shorthand? sigil) replace
        (opening ++ (front ++ sigil :: cs ++ (closing ++ rest)))
      = printed (called call front cs) ++ replaceMarks (shorthand? sigil) replace rest := by
  obtain ⟨c, ds, hcs⟩ : ∃ c ds, trimStart cs = c :: ds :=
    List.exists_cons_of_ne_nil (trimStart_ne_nil hsigil hfront h hshown)
  have hsuffix : trimStart cs <:+ front ++ sigil :: cs :=
    (List.dropWhile_suffix _).trans ((List.suffix_cons sigil cs).trans (List.suffix_append _ _))
  have hapart : Apart ']' (c :: ds) := hcs ▸ h.closes_apart.suffix hsuffix
  have hmarker : replaceMarks (shorthand? sigil) replace
      (opening ++ (sigil :: cs ++ (closing ++ rest))) = _ :=
    replaceMarks_marker hreplace hcs hapart rest
  rw [printed_called call front hcs]
  rcases List.mem_pair.mp hfront with rfl | rfl
  · exact hmarker
  · have hbracket : sigil ≠ '[' := by
      rintro rfl
      exact absurd hsigil (by decide)
    exact (replaceMarks_opening hbracket _).trans (congrArg ('[' :: ·) hmarker)

omit hreplace in
/-- A marker with no shorthand, neither at its front nor behind a bracket, stays as it is. -/
theorem replaceMarks_other {inner : List Char} (h : (Segment.marker inner).IsRegular)
    (hfirst : stripFront [sigil] inner = none) (hsecond : stripFront ['[', sigil] inner = none)
    (rest : List Char) :
    replaceMarks (shorthand? sigil) replace (opening ++ (inner ++ (closing ++ rest)))
      = opening ++ inner ++ closing ++ replaceMarks (shorthand? sigil) replace rest := by
  obtain ⟨d, es, rfl⟩ : ∃ d es, inner = d :: es := by
    refine List.exists_cons_of_ne_nil ?_
    rintro rfl
    exact h.1 rfl
  have hd : sigil ≠ d := by
    intro heq
    have hfound : stripFront [sigil] (d :: es) = some es := if_pos heq
    rw [hfirst] at hfound
    cases hfound
  have hbehind : stripFront ['[', sigil] (d :: es ++ (closing ++ rest)) = none := by
    cases hfound : stripFront ['[', sigil] (d :: es ++ (closing ++ rest)) with
    | none => rfl
    | some more =>
      obtain ⟨rfl, heq⟩ := List.cons.inj (eq_of_stripFront hfound)
      cases es with
      | nil =>
        obtain rfl : ']' = sigil := (List.cons.inj heq).1
        exact absurd hsigil (by decide)
      | cons e es =>
        obtain rfl : e = sigil := (List.cons.inj heq).1
        have hthere : stripFront ['[', e] ('[' :: e :: es) = some es :=
          stripFront_append ['[', e] es
        rw [hsecond] at hthere
        cases hthere
  have hnext : shorthand? sigil ('[' :: (d :: es ++ (closing ++ rest))) = none := by
    have hstrip : stripFront (opening ++ [sigil]) ('[' :: (d :: es ++ (closing ++ rest)))
        = stripFront ['[', sigil] (d :: es ++ (closing ++ rest)) := if_pos rfl
    rw [shorthand?, hstrip, hbehind]
  have hwhole : Apart '[' (d :: es ++ closing) :=
    h.opens_apart.append_of_head (apart_of_notMem (by decide)) (by decide)
  have hlast : (d :: es ++ closing).getLast? = some ']' :=
    List.getLast?_append_cons _ ']' [']']
  have htext := replaceMarks_text hwhole (by rw [hlast]; decide) sigil replace rest
  rw [List.append_assoc] at htext
  rw [List.cons_append] at *
  rw [replaceMarks_opening hd, replaceMarks_cons_of_none hnext, htext]
  simp [opening]

/-- A regular segment in front of a text is rewritten apart from the text. -/
theorem replaceMarks_segment {s : Segment} (h : s.IsRegular) (hshown : ¬ s.HidesShorthand)
    (rest : List Char) :
    replaceMarks (shorthand? sigil) replace (s.chars ++ rest)
      = printed (s.rewrite sigil call) ++ replaceMarks (shorthand? sigil) replace rest := by
  cases s with
  | text cs =>
    rw [Segment.rewrite, printed, List.flatMap_singleton]
    exact replaceMarks_text ((apart_iff _ _).mpr h.1) h.2 sigil replace rest
  | marker inner =>
    have hchars : (Segment.marker inner).chars ++ rest
        = opening ++ (inner ++ (closing ++ rest)) := by
      rw [Segment.chars, List.append_assoc, List.append_assoc]
    rw [hchars, Segment.rewrite]
    cases hfirst : stripFront [sigil] inner with
    | some cs =>
      obtain rfl := eq_of_stripFront hfirst
      exact replaceMarks_called hsigil hreplace List.mem_cons_self h hshown rest
    | none =>
      cases hsecond : stripFront ['[', sigil] inner with
      | some cs =>
        obtain rfl := eq_of_stripFront hsecond
        have hfront : ['['] ∈ [[], ['[']] := by decide
        exact replaceMarks_called hsigil hreplace hfront h hshown rest
      | none =>
        dsimp only
        rw [printed, List.flatMap_singleton]
        exact replaceMarks_other hsigil h hfirst hsecond rest

/-- A template of regular segments is rewritten segment by segment. -/
theorem replaceMarks_printed {segments : List Segment}
    (h : ∀ s ∈ segments, s.IsRegular ∧ ¬ s.HidesShorthand) :
    replaceMarks (shorthand? sigil) replace (printed segments)
      = printed (segments.flatMap (Segment.rewrite sigil call)) := by
  induction segments with
  | nil => rfl
  | cons s segments ih =>
    obtain ⟨hs, hsegments⟩ := List.forall_mem_cons.mp h
    rw [printed, List.flatMap_cons, replaceMarks_segment hsigil hreplace hs.1 hs.2,
      ← printed, ih hsegments, List.flatMap_cons, printed, printed, printed, List.flatMap_append]

end Rewriting

/-! ### Calls -/

/-- What stands in an output marker that does something with a text. -/
structure IsCall (call : List Char → List Char) : Prop where
  front (body : List Char) :
    ∃ d ds, call body = d :: ds ∧ d ∈ ['=', '-'] ∧ trimStart ds ≠ []
  apart {b : Char} (hb : b = '[' ∨ b = ']') {body : List Char} (h : Apart b body) :
    Apart b (call body)

/-- The call for an inclusion. -/
def inclusionCall (target : List Char) : List Char :=
  if startsWith ['('] target && endsWith [')'] target then
    "- ".toList ++ chosenFragmentFunction.toList ++ target ++ [' ']
  else
    "- ".toList ++ fragmentFunction.toList ++ ['('] ++ Json.quoteChars (unquoted target)
      ++ ") ".toList

/-- The call for a message. -/
def messageCall (key : List Char) : List Char :=
  "= ".toList ++ messageFunction.toList ++ ['('] ++ Json.quoteChars key ++ ") ".toList

theorem inclusion_eq (target : List Char) :
    inclusion target = opening ++ inclusionCall target ++ closing := by
  rw [inclusion, inclusionCall]
  split <;> simp [opening, closing]

theorem message_eq (key : List Char) : message key = opening ++ messageCall key ++ closing := by
  simp [message, messageCall, opening, closing]

theorem infix_unquoted (cs : List Char) : unquoted cs <:+: cs := by
  have hend : unquoted cs <+: cs.dropWhile isQuoteSign :=
    List.reverse_suffix.mp (by
      rw [unquoted, List.reverse_reverse]
      exact List.dropWhile_suffix _)
  exact hend.isInfix.trans (List.dropWhile_suffix _).isInfix

theorem prefix_trimEnd (cs : List Char) : trimEnd cs <+: cs := by
  refine List.reverse_suffix.mp ?_
  rw [trimEnd, List.reverse_reverse]
  exact List.dropWhile_suffix _

/-- A text in which a character is never doubled, between texts without the character. -/
theorem apart_between {b : Char} {front argument back : List Char} (hfront : b ∉ front)
    (hargument : Apart b argument) (hback : b ∉ back) : Apart b (front ++ argument ++ back) :=
  ((apart_of_notMem hfront).append hargument fun h =>
    hfront (List.mem_of_getLast? h)).append_of_head
    (apart_of_notMem hback) fun h => hback (List.mem_of_head? h)

theorem apart_quoteChars {b : Char} (hb : b = '[' ∨ b = ']') {cs : List Char} (h : Apart b cs) :
    Apart b (Json.quoteChars cs) := by
  have hquote : b ∉ ['"'] := by rcases hb with rfl | rfl <;> decide
  exact apart_between hquote (h.flatMap_quoteChar hb) hquote

theorem isCall_inclusionCall : IsCall inclusionCall where
  front body := by
    rw [inclusionCall]
    split
    · exact ⟨'-', _, rfl, by decide, List.cons_ne_nil '_' _⟩
    · exact ⟨'-', _, rfl, by decide, List.cons_ne_nil '_' _⟩
  apart {b} hb target h := by
    have hfront : b ∉ "- ".toList ++ chosenFragmentFunction.toList
        ∧ b ∉ "- ".toList ++ fragmentFunction.toList ++ ['('] ∧ b ∉ [' '] ∧ b ∉ ") ".toList := by
      rcases hb with rfl | rfl <;> decide +kernel
    obtain ⟨hchosen, hnamed, hblank, hback⟩ := hfront
    rw [inclusionCall]
    split
    · exact apart_between hchosen h hblank
    · exact apart_between hnamed (apart_quoteChars hb (h.within (infix_unquoted target))) hback

theorem isCall_messageCall : IsCall messageCall where
  front _ := ⟨'=', _, rfl, by decide, List.cons_ne_nil 't' _⟩
  apart {b} hb key h := by
    have hfront : b ∉ "= ".toList ++ messageFunction.toList ++ ['('] ∧ b ∉ ") ".toList := by
      rcases hb with rfl | rfl <;> decide +kernel
    exact apart_between hfront.1 (apart_quoteChars hb h) hfront.2

/-! ### Both shorthands -/

section Calls

variable {sigil sigil' : Char} (hsigil : sigil ∈ shorthandSigils)
  (hsigil' : sigil' ∈ shorthandSigils) {call call' : List Char → List Char} (hcall : IsCall call)
  (hcall' : IsCall call')

include hcall in
/-- What a shorthand is written as is regular. -/
theorem isRegular_called {front : List Char} (hfront : front ∈ [[], ['[']]) {cs : List Char}
    (hopens : Apart '[' cs) (hcloses : Apart ']' cs) :
    ∀ s ∈ called call front cs, s.IsRegular ∧ ¬ s.HidesShorthand := by
  rw [called]
  split
  · exact nofun
  rename_i c ds hcs
  have hinfix : trimEnd (c :: (beforeClose ds).1) <:+: cs := by
    have hbefore : (beforeClose ds).1 <+: ds := by
      rw [beforeClose]
      split
      · exact List.dropLast_prefix ds
      · exact List.prefix_rfl
    have hbody : trimEnd (c :: (beforeClose ds).1) <+: c :: ds :=
      (prefix_trimEnd _).trans (List.cons_prefix_cons.mpr ⟨rfl, hbefore⟩)
    exact hbody.isInfix.trans (hcs ▸ (List.dropWhile_suffix _).isInfix)
  obtain ⟨d, es, heq, hd, hes⟩ := hcall.front (trimEnd (c :: (beforeClose ds).1))
  have hopens := hcall.apart (.inl rfl) (hopens.within hinfix)
  have hcloses := hcall.apart (.inr rfl) (hcloses.within hinfix)
  rw [heq] at hopens hcloses ⊢
  have hsign : ∀ d ∈ ['=', '-'], d ∈ sigils ∧ d ∉ shorthandSigils ∧ d ≠ '[' ∧ d ≠ ']' :=
    List.forall_mem_cons.mpr ⟨by decide, List.forall_mem_singleton.mpr (by decide)⟩
  obtain ⟨hsigils, hshorthand, hopen, hclose⟩ := hsign d hd
  refine List.forall_mem_cons.mpr ⟨⟨?_, ?_⟩, List.forall_mem_singleton.mpr ⟨?_, id⟩⟩
  · rcases List.mem_pair.mp hfront with rfl | rfl
    · have hcontent : content (d :: es) = trimStart es := if_pos hsigils
      have hsuffix : trimStart es <:+ d :: es :=
        (List.dropWhile_suffix _).trans (List.suffix_cons d es)
      rw [List.nil_append, Segment.IsRegular, hcontent]
      exact ⟨hes, (apart_iff _ _).mp (hopens.suffix hsuffix),
        (apart_iff _ _).mp (hcloses.suffix hsuffix)⟩
    · have hcontent : content ('[' :: d :: es) = '[' :: d :: es := rfl
      have hnotMem : ']' ∉ ['['] := by decide
      rw [List.cons_append, List.nil_append, Segment.IsRegular, hcontent]
      refine ⟨List.cons_ne_nil _ _, (apart_iff _ _).mp ?_, (apart_iff _ _).mp ?_⟩
      · have hbracket : Apart '[' ['['] := .singleton '['
        exact hbracket.append_of_head hopens (by simpa using hopen)
      · exact (apart_of_notMem hnotMem).append hcloses (by decide)
  · rintro ⟨sigil, hsigil, blanks, -, hinner⟩
    rcases List.mem_pair.mp hfront with rfl | rfl
    · exact hopen (List.cons.inj hinner).1
    · exact hshorthand ((List.cons.inj (List.cons.inj hinner).2).1 ▸ hsigil)
  · rw [beforeClose]
    split
    · exact (by decide : Segment.IsRegular (.text [']']))
    · exact (by decide : Segment.IsRegular (.text []))

include hcall in
theorem isRegular_rewrite {s : Segment} (h : s.IsRegular) (hshown : ¬ s.HidesShorthand) :
    ∀ s' ∈ s.rewrite sigil call, s'.IsRegular ∧ ¬ s'.HidesShorthand := by
  rcases s.rewrite_cases sigil call with hs | ⟨front, hfront, cs, rfl, hs⟩
  · rw [hs]
    exact List.forall_mem_singleton.mpr ⟨h, hshown⟩
  · have hsuffix : cs <:+ front ++ sigil :: cs :=
      (List.suffix_cons sigil cs).trans (List.suffix_append _ _)
    rw [hs]
    exact isRegular_called hcall hfront (h.opens_apart.suffix hsuffix)
      (h.closes_apart.suffix hsuffix)

include hsigil hcall' in
/-- What a shorthand is written as is left alone when another one is written out. -/
theorem flatMap_rewrite_called {front : List Char} (hfront : front ∈ [[], ['[']])
    (cs : List Char) :
    (called call' front cs).flatMap (Segment.rewrite sigil call) = called call' front cs := by
  rw [called]
  split
  · rfl
  · rename_i c ds _
    obtain ⟨d, es, heq, hd, -⟩ := hcall'.front (trimEnd (c :: (beforeClose ds).1))
    obtain ⟨hsign, hbracket, hother⟩ : d ≠ sigil ∧ d ≠ '[' ∧ sigil ≠ '[' := by
      rcases List.mem_pair.mp hd with rfl | rfl <;>
        rcases List.mem_pair.mp hsigil with rfl | rfl <;> decide
    rw [heq, List.flatMap_cons, Segment.rewrite_marker hsign hbracket hother call hfront]
    rfl

include hsigil hsigil' hcall hcall' in
/-- A segment comes to the same if two shorthands are written out, in either order. -/
theorem rewrite_rewrite (hne : sigil ≠ sigil') (s : Segment) :
    (s.rewrite sigil call).flatMap (Segment.rewrite sigil' call')
      = (s.rewrite sigil' call').flatMap (Segment.rewrite sigil call) := by
  rcases s.rewrite_cases sigil call with hs | ⟨front, hfront, cs, rfl, hs⟩
  · rw [hs, List.flatMap_singleton]
    rcases s.rewrite_cases sigil' call' with hs' | ⟨front, hfront, cs, rfl, hs'⟩
    · rw [hs', List.flatMap_singleton, hs]
    · rw [hs', flatMap_rewrite_called hsigil hcall' hfront]
  · -- The marker of one shorthand is not the marker of another.
    have hbracket : ∀ sigil ∈ shorthandSigils, sigil ≠ '[' :=
      List.forall_mem_cons.mpr ⟨by decide, List.forall_mem_singleton.mpr (by decide)⟩
    have hs' := Segment.rewrite_marker hne (hbracket sigil hsigil) (hbracket sigil' hsigil') call'
      hfront cs
    rw [hs', List.flatMap_singleton, hs, flatMap_rewrite_called hsigil' hcall hfront]

end Calls

/-- A template that falls apart into segments none of which could be mistaken for something else. -/
def IsPlain (template : String) : Prop :=
  ∃ segments, template.toList = printed segments
    ∧ ∀ s ∈ segments, s.IsRegular ∧ ¬ s.HidesShorthand

/-- **Both shorthands can be written out in either order.** -/
theorem IsPlain.writeMessages_writeInclusions {template : String} (h : IsPlain template) :
    writeMessages (writeInclusions template) = writeInclusions (writeMessages template) := by
  obtain ⟨segments, htemplate, hsegments⟩ := h
  have hinclusions : '>' ∈ shorthandSigils := by decide
  have hmessages : '@' ∈ shorthandSigils := by decide
  have regular {sigil : Char} {call : List Char → List Char} (hcall : IsCall call) :
      ∀ s ∈ segments.flatMap (Segment.rewrite sigil call), s.IsRegular ∧ ¬ s.HidesShorthand := by
    intro s hs
    obtain ⟨s', hs', hmem⟩ := List.mem_flatMap.mp hs
    exact isRegular_rewrite hcall (hsegments s' hs').1 (hsegments s' hs').2 s hmem
  simp only [writeMessages, writeInclusions, String.toList_ofList, htemplate]
  rw [replaceMarks_printed hinclusions inclusion_eq hsegments,
    replaceMarks_printed hmessages message_eq hsegments,
    replaceMarks_printed hmessages message_eq (regular isCall_inclusionCall),
    replaceMarks_printed hinclusions inclusion_eq (regular isCall_messageCall),
    List.flatMap_assoc, List.flatMap_assoc]
  congr 2
  refine List.flatMap_congr fun s _ => ?_
  exact rewrite_rewrite hinclusions hmessages isCall_inclusionCall isCall_messageCall (by decide) s

end Stencil.Template
