import Stencil.Proofs.Lexing
import Stencil.Proofs.Marks
import Stencil.Proofs.Reading.Tree

/-!
# Pieces of a printed tree

Cut into pieces, a printed tree gives back its lines: no marker opens inside a run of text, and none
closes before its end.

* `Clean` — a text that cutting at an opening passes over, whatever follows;
* `trim_spaced` — the inside of a marker without the blanks around it;
* `tokenize_print` — the pieces of a printed tree are its lines, with adjacent text merged.
-/

namespace Stencil.Reading

open Text Template Routine

/-! ### Cutting -/

/-- A text that cutting at an opening passes over, whatever follows. -/
def Clean (cs : List Char) : Prop :=
  ∀ rest, cut opening (cs ++ rest) = (cut opening rest).map (inFront cs)

theorem clean_nil : Clean [] := fun _ => (map_inFront_nil _).symm

/-- Two clean texts in a row are clean. -/
theorem Clean.append {cs ds : List Char} (hcs : Clean cs) (hds : Clean ds) : Clean (cs ++ ds) := by
  intro rest
  rw [List.append_assoc, hcs, hds, Option.map_map]
  congr 1
  funext parts
  exact congrArg (Prod.mk · parts.2) (List.append_assoc cs ds parts.1).symm

theorem Clean.cut_eq_none {cs : List Char} (h : Clean cs) : cut opening cs = none := by
  have hnil := h []
  rw [List.append_nil] at hnil
  rw [hnil]
  rfl

/-- The first opening behind a clean text is the one that follows it. -/
theorem Clean.cut_opening {cs : List Char} (h : Clean cs) (rest : List Char) :
    cut opening (cs ++ (opening ++ rest)) = some (cs, rest) := by
  have hhere : cut opening (opening ++ rest) = some ([], rest) := rfl
  rw [h, hhere]
  show some (cs ++ [], rest) = _
  rw [List.append_nil]

/-- A text is clean if no marker opens in it, even with a bracket behind it. -/
theorem clean_of_contains {cs : List Char} (h : contains opening cs = false)
    (hlast : cs.getLast? ≠ some '[') : Clean cs := by
  induction cs with
  | nil => exact clean_nil
  | cons c cs ih =>
    -- An opening at the front would be in the text itself, or its first half would be the end.
    have hstrip (rest : List Char) : stripFront opening (c :: (cs ++ rest)) = none := by
      by_cases hc : '[' = c
      · subst hc
        cases cs with
        | nil => exact absurd rfl hlast
        | cons d cs =>
          by_cases hd : '[' = d
          · subst hd
            cases h
          · show (if '[' = '[' then (if '[' = d then _ else none) else none) = _
            rw [if_pos rfl, if_neg hd]
      · show (if '[' = c then _ else none) = _
        rw [if_neg hc]
    have hmove (rest : List Char) :
        cut opening (c :: (cs ++ rest)) = (cut opening (cs ++ rest)).map (inFront [c]) :=
      cut_cons_of_stripFront (hstrip rest)
    have htail : contains opening cs = false := by
      have hnone := hmove []
      rw [List.append_nil] at hnone
      unfold contains at h ⊢
      rw [hnone, Option.isSome_map] at h
      exact h
    have htailLast : cs.getLast? ≠ some '[' := by
      cases cs with
      | nil => exact nofun
      | cons d cs => rwa [List.getLast?_cons_cons] at hlast
    intro rest
    rw [List.cons_append, hmove, ih htail htailLast, Option.map_map]
    rfl

theorem TextRun.clean (t : TextRun) : Clean t.chars := clean_of_contains t.noOpening t.noHalf

/-! ### The inside of markers -/

/-- A text between spaces is trimmed to the text itself. -/
theorem trim_spaced {cs : List Char} (hfirst : ∀ c ∈ cs.head?, isBlank c = false)
    (hlast : ∀ c ∈ cs.getLast?, isBlank c = false) : trim (' ' :: (cs ++ [' '])) = cs := by
  have hblank : Blanks [' '] := List.forall_mem_singleton.mpr rfl
  exact trim_eq_iff.mpr ⟨⟨[' '], [' '], hblank, hblank, rfl⟩, hfirst, hlast⟩

theorem Identifier.continuesName {i : Identifier} {c : Char} (h : c ∈ i.chars) :
    continuesName c = true := by
  have hvalid := i.valid
  cases hi : i.chars with
  | nil => rw [hi] at h; cases h
  | cons d ds =>
    rw [hi] at h hvalid
    simp only [isIdentifier, Bool.and_eq_true, List.all_eq_true] at hvalid
    rcases List.mem_cons.mp h with rfl | hmem
    · exact continuesName_of_startsName hvalid.1
    · exact hvalid.2 c hmem

/-- A path is made of what names are made of, and of dots. -/
theorem Path.continuesName_or_dot {p : Path} {c : Char} (h : c ∈ p.chars) :
    Routine.continuesName c = true ∨ c = '.' := by
  rw [Path.chars] at h
  rw [List.mem_append, List.mem_flatMap] at h
  rcases h with hhead | ⟨m, -, hmem⟩
  · exact .inl (Identifier.continuesName hhead)
  · rcases List.mem_cons.mp hmem with rfl | hmem
    · exact .inr rfl
    · exact .inl (Identifier.continuesName hmem)

theorem Path.isBlank_eq_false {p : Path} {c : Char} (h : c ∈ p.chars) : isBlank c = false := by
  rcases Path.continuesName_or_dot h with hname | rfl
  · exact not_isBlank_of_continuesName hname
  · decide

theorem Path.ne_bracket {p : Path} : ']' ∉ p.chars := by
  intro h
  rcases Path.continuesName_or_dot h with hname | hdot
  · exact absurd hname (by decide)
  · cases hdot

theorem Identifier.ne_bracket {i : Identifier} : ']' ∉ i.chars := by
  intro h
  exact absurd (Identifier.continuesName h) (by decide)

namespace Line

variable {τ : Type}

/-- What stands inside the marker that a line is, without the blanks around it. -/
def content : Line τ → List Char
  | .text _ => []
  | .escaped p => p.chars
  | .raw p => p.chars
  | .opensBranch p => branchCode p
  | .alternates => elseCode
  | .opensEach x p => eachCode x p
  | .closes => endCode

/-- The piece that a line is. -/
def piece : Line (List Char) → Piece
  | .text cs => .text (String.ofList cs)
  | .escaped p => .escaped (String.ofList p.chars)
  | .raw p => .raw (String.ofList p.chars)
  | l => .code (String.ofList l.content)

/-- No blank stands around what is inside a marker. -/
theorem trim_content (l : Line τ) : trim (' ' :: (l.content ++ [' '])) = l.content := by
  have path (p : Path) : trim (' ' :: (p.chars ++ [' '])) = p.chars :=
    trim_spaced (fun _ hc => Path.isBlank_eq_false (List.mem_of_mem_head? hc))
      fun _ hc => Path.isBlank_eq_false (List.mem_of_getLast? hc)
  -- Statements begin and end with characters of their own.
  have code (c : Char) (cs : List Char) (d : Char) (hc : isBlank c = false)
      (hd : isBlank d = false) : trim (' ' :: (c :: cs ++ [d] ++ [' '])) = c :: cs ++ [d] := by
    refine trim_spaced (fun a ha => ?_) fun a ha => ?_
    · cases ha
      exact hc
    · rw [List.getLast?_append] at ha
      cases ha
      exact hd
  cases l with
  | text t => rfl
  | escaped p => exact path p
  | raw p => exact path p
  | opensBranch p =>
    have h := code 'i' (['f', ' ', '('] ++ p.chars ++ [')', ' ']) '\x7b' (by decide) (by decide)
    simpa only [content, branchCode, List.cons_append, List.nil_append, List.append_assoc] using h
  | alternates =>
    show trim (' ' :: (elseCode ++ [' '])) = elseCode
    decide
  | opensEach x p =>
    have h := code 'f' (['o', 'r', ' ', '(', 'c', 'o', 'n', 's', 't', ' '] ++ x.chars
      ++ [' ', 'o', 'f', ' '] ++ p.chars ++ [')', ' ']) '\x7b' (by decide) (by decide)
    simpa only [content, eachCode, List.cons_append, List.nil_append, List.append_assoc] using h
  | closes =>
    show trim (' ' :: (endCode ++ [' '])) = endCode
    decide

/-- Markers do not close before their end. -/
theorem ne_bracket (l : Line τ) : ']' ∉ l.content := by
  cases l with
  | text t => exact nofun
  | escaped p => exact Path.ne_bracket
  | raw p => exact Path.ne_bracket
  | opensBranch p =>
    have hp := p.ne_bracket
    simp [content, branchCode, hp]
  | alternates =>
    show ']' ∉ elseCode
    decide
  | opensEach x p =>
    have hp := p.ne_bracket
    have hx := x.toIdentifier.ne_bracket
    simp [content, eachCode, hp, hx]
  | closes =>
    show ']' ∉ endCode
    decide

/-- What tells the piece that a marker is. -/
def sign : Line τ → List Char
  | .escaped _ => ['=']
  | .raw _ => ['-']
  | _ => []

theorem inner_eq {l : Line τ} (h : l.isText = false) :
    l.inner = l.sign ++ ' ' :: (l.content ++ [' ']) := by
  cases l with
  | text t => cases h
  | _ => rfl

theorem closeMarker_inner {l : Line τ} (h : l.isText = false) (rest : List Char) :
    closeMarker (l.inner ++ (closing ++ rest)) = some (l.inner, rest) := by
  have cutAt (cs : List Char) (hcs : ']' ∉ cs) :
      cut closing (cs ++ (closing ++ rest)) = some (cs, rest) := by
    have hhere : cut closing (closing ++ rest) = some ([], rest) := rfl
    show cut (']' :: [']']) _ = _
    rw [cut_of_notMem hcs]
    show (cut closing (closing ++ rest)).map _ = _
    rw [hhere]
    show some (cs ++ [], rest) = _
    rw [List.append_nil]
  have hcontent := l.ne_bracket
  have hbody : ']' ∉ ' ' :: (l.content ++ [' ']) := by
    simp [hcontent]
  have close (c : Char) (cs : List Char) (hcs : ']' ∉ cs) :
      closeMarker (c :: cs ++ (closing ++ rest)) = some (c :: cs, rest) := by
    show (cut closing (cs ++ (closing ++ rest))).map _ = _
    rw [cutAt cs hcs]
    rfl
  rw [inner_eq h]
  cases l with
  | text t => cases h
  | escaped p => exact close '=' _ hbody
  | raw p => exact close '-' _ hbody
  | _ => exact close ' ' _ fun hmem => hbody (List.mem_cons_of_mem ' ' hmem)

/-- A marker is the piece of its line. -/
theorem classify_inner {l : Line TextRun} (h : l.isText = false) :
    classify l.inner = (l.map TextRun.chars).piece := by
  have htrim := l.trim_content
  rw [inner_eq h]
  cases l with
  | text t => cases h
  | escaped p =>
    show Piece.escaped (String.ofList (trim (' ' :: (p.chars ++ [' '])))) = .escaped _
    exact congrArg (fun cs => Piece.escaped (String.ofList cs)) htrim
  | raw p =>
    show Piece.raw (String.ofList (trim (' ' :: (p.chars ++ [' '])))) = .raw _
    exact congrArg (fun cs => Piece.raw (String.ofList cs)) htrim
  | _ => exact congrArg (fun cs => Piece.code (String.ofList cs)) htrim

end Line

/-! ### The pieces -/

theorem textPiece_eq (cs : List Char) : textPiece cs = (textLine cs).map Line.piece := by
  rw [textPiece, textLine]
  split <;> rfl

/-- A text without an opening is one piece. -/
theorem tokenizeWithin_clean {cs : List Char} (h : Clean cs) (bound : Nat) :
    tokenizeWithin bound cs = textPiece cs := by
  cases bound with
  | zero => rfl
  | succ bound =>
    rw [tokenizeWithin]
    rw [h.cut_eq_none]

/-- Behind a clean text, the lines of a template are its pieces. -/
theorem tokenizeWithin_lines (ls : List (Line TextRun)) {seen : List Char} (hseen : Clean seen)
    {bound : Nat} (hbound : (ls.flatMap Line.print).length ≤ bound) :
    tokenizeWithin bound (seen ++ ls.flatMap Line.print)
      = (mergeLines seen ls).map Line.piece := by
  induction ls generalizing seen bound with
  | nil =>
    rw [List.flatMap_nil, List.append_nil, tokenizeWithin_clean hseen, textPiece_eq]
    rfl
  | cons l ls ih =>
    rw [List.flatMap_cons, List.length_append] at hbound
    rw [List.flatMap_cons]
    have marked (h : l.isText = false) (hprint : l.print = marker l.inner)
        (hmerge : mergeLines seen (l :: ls)
          = textLine seen ++ l.map TextRun.chars :: mergeLines [] ls) :
        tokenizeWithin bound (seen ++ (l.print ++ ls.flatMap Line.print))
          = (mergeLines seen (l :: ls)).map Line.piece := by
      have hshape : l.print ++ ls.flatMap Line.print
          = opening ++ (l.inner ++ (closing ++ ls.flatMap Line.print)) := by
        rw [hprint, marker, List.append_assoc, List.append_assoc]
      have hlength : 4 ≤ l.print.length := by
        rw [hprint, marker, List.length_append, List.length_append]
        show 4 ≤ 2 + l.inner.length + 2
        omega
      obtain ⟨bound, rfl⟩ : ∃ b, bound = b + 1 := ⟨bound - 1, by omega⟩
      have hshort : (ls.flatMap Line.print).length ≤ bound := by omega
      have hrest := ih clean_nil hshort
      rw [List.nil_append] at hrest
      rw [hshape, tokenizeWithin, hseen.cut_opening]
      dsimp only
      rw [Line.closeMarker_inner h]
      dsimp only
      rw [hrest, Line.classify_inner h, hmerge, List.map_append, List.map_cons, textPiece_eq]
    cases l with
    | text t =>
      rw [← List.append_assoc]
      exact ih (hseen.append t.clean) (by omega)
    | _ => exact marked rfl rfl rfl

/-- The pieces of a printed tree are its lines. -/
theorem tokenize_print (ns : List (Node TextRun)) :
    tokenize (print ns) = (linesOf (mergeNodes [] ns)).map Line.piece := by
  have h := tokenizeWithin_lines (linesOf ns) clean_nil (Nat.le_refl _)
  rw [List.nil_append, ← printNodes_eq] at h
  rw [tokenize, print]
  rw [String.toList_ofList, h, linesOf_mergeNodes]

end Stencil.Reading
