import Stencil.Proofs.Reading.Parsing
import Stencil.Template.Shorthand

/-!
# Pages

A page is text with inclusions in it, each of which names a fragment outright or by the value of a
text literal.  Before a page is cut into pieces its inclusions are written as calls.

* `Literal`, `Target`, `Inclusion`, `Page` — what pages are made of, each with what it promises;
* `writeInclusions_print` — a page with its inclusions written as calls;
* `Row`, `Page.rows` — a page as a row of texts and calls;
* `tokenize_page` — the pieces of a page are its rows.
-/

namespace Stencil.Reading

open Text Template Routine

/-! ### Pages and how they are printed -/

/-- Characters in front of a closing parenthesis that are lexed as a text. -/
structure Literal (text : String) where
  /-- The characters. -/
  chars : List Char
  /-- No marker closes in them. -/
  noBracket : ']' ∉ chars
  /-- They are lexed as the text. -/
  lexes : ∀ line rest, ∃ here last,
    Lexes line (chars ++ ')' :: rest) [onLine here (.text text)] last (')' :: rest)

/-- A name between quote signs. -/
def Literal.quoted (name : Identifier) : Literal name.name where
  chars := Json.quoteChars name.chars
  noBracket := by
    have hquoted (c : Char) (hc : c ∈ name.chars) : ']' ∉ Json.quoteChar c :=
      notMem_quoteChar (.inr rfl) fun heq => name.ne_bracket (heq ▸ hc)
    simpa [Json.quoteChars] using hquoted
  lexes line rest := ⟨line, line, Lexes.quoted line name.chars (')' :: rest)⟩

/-- How an inclusion says which fragment it means. -/
inductive Target (name : Identifier) where
  /-- By its name, with quote signs around it or without. -/
  | named (front back : List Char) (hfront : ∀ c ∈ front, isQuoteSign c = true)
    (hback : ∀ c ∈ back, isQuoteSign c = true)
  /-- By the value of a literal. -/
  | chosen (selector : Literal name.name)

/-- The marker that includes a fragment. -/
structure Inclusion where
  /-- The name of the fragment. -/
  name : Identifier
  /-- How it is said. -/
  target : Target name
  /-- The blanks in front. -/
  front : List Char
  /-- The blanks behind. -/
  back : List Char
  blank_front : ∀ c ∈ front, isBlank c = true
  blank_back : ∀ c ∈ back, isBlank c = true

/-- A text with inclusions in it, each with the text behind it. -/
structure Page where
  /-- The text in front of all inclusions. -/
  first : TextRun
  /-- The inclusions with the texts behind them. -/
  rest : List (Inclusion × TextRun)

namespace Inclusion

/-- What stands between the blanks of the marker. -/
def targetChars (i : Inclusion) : List Char :=
  match i.target with
  | .named front back _ _ => front ++ i.name.chars ++ back
  | .chosen selector => '(' :: (selector.chars ++ [')'])

/-- The marker. -/
def print (i : Inclusion) : List Char :=
  opening ++ ['>'] ++ (i.front ++ (i.targetChars ++ (i.back ++ closing)))

/-- The function that is called for the inclusion. -/
def function (i : Inclusion) : String :=
  match i.target with
  | .named _ _ _ _ => fragmentFunction
  | .chosen _ => chosenFragmentFunction

/-- The argument of the call. -/
def argument (i : Inclusion) : List Char :=
  match i.target with
  | .named _ _ _ _ => Json.quoteChars i.name.chars
  | .chosen selector => selector.chars

/-- The call. -/
def call (i : Inclusion) : List Char := i.function.toList ++ '(' :: (i.argument ++ [')'])

/-- The output marker of the call. -/
def output (i : Inclusion) : List Char := opening ++ (['-', ' '] ++ i.call ++ [' ']) ++ closing

end Inclusion

/-- The characters of inclusions and the texts behind them, given how an inclusion is written. -/
def segments (write : Inclusion → List Char) (rest : List (Inclusion × TextRun)) : List Char :=
  rest.flatMap fun part => write part.1 ++ part.2.chars

/-- The template of a page. -/
def Page.print (p : Page) : String :=
  String.ofList (p.first.chars ++ segments Inclusion.print p.rest)

/-! ### Writing inclusions as calls -/

theorem isQuoteSign_eq {c : Char} (h : isQuoteSign c = true) : c = '"' ∨ c = '\'' := by
  simpa [isQuoteSign] using h

theorem not_isQuoteSign_of_continuesName {c : Char} (h : continuesName c = true) :
    isQuoteSign c = false := by
  rw [← Bool.not_eq_true]
  intro hquote
  rcases isQuoteSign_eq hquote with rfl | rfl <;> exact absurd h (by decide)

theorem not_isBlank_of_isQuoteSign {c : Char} (h : isQuoteSign c = true) : isBlank c = false := by
  rcases isQuoteSign_eq h with rfl | rfl <;> decide

/-- A name without the quote signs around it. -/
theorem unquoted_name (name : Identifier) {front back : List Char}
    (hfront : ∀ c ∈ front, isQuoteSign c = true) (hback : ∀ c ∈ back, isQuoteSign c = true) :
    unquoted (front ++ name.chars ++ back) = name.chars := by
  have hname {c : Char} (hc : c ∈ name.chars) : isQuoteSign c = false :=
    not_isQuoteSign_of_continuesName (Identifier.continuesName hc)
  -- Quote signs are dropped up to a character of the name.
  have drop (signs chars rest : List Char) (hsigns : ∀ c ∈ signs, isQuoteSign c = true)
      (hchars : ∀ c ∈ chars, isQuoteSign c = false) (hne : chars ≠ []) :
      (signs ++ (chars ++ rest)).dropWhile isQuoteSign = chars ++ rest := by
    rw [List.dropWhile_append_of_pos hsigns]
    obtain ⟨c, cs, rfl⟩ := List.exists_cons_of_ne_nil hne
    rw [List.cons_append, List.dropWhile_cons, hchars c List.mem_cons_self]
    rfl
  have hne : name.chars ≠ [] := by
    intro hnil
    have hvalid := name.valid
    rw [hnil] at hvalid
    cases hvalid
  have hstart := drop front name.chars back hfront (fun _ => hname) hne
  have hend := drop back.reverse name.chars.reverse []
    (fun c hc => hback c (List.mem_reverse.mp hc)) (fun _ hc => hname (List.mem_reverse.mp hc))
    (by simpa using hne)
  rw [unquoted, List.append_assoc, hstart, List.reverse_append]
  rw [List.append_nil] at hend
  rw [hend, List.reverse_reverse]

namespace Inclusion

variable (i : Inclusion)

theorem targetChars_ne_nil : i.targetChars ≠ [] := by
  rw [targetChars]
  split
  · intro hnil
    have hvalid := i.name.valid
    rw [(List.append_eq_nil_iff.mp (List.append_eq_nil_iff.mp hnil).1).2] at hvalid
    cases hvalid
  · exact nofun

/-- What stands in the marker begins and ends with no blank, and no marker closes in it. -/
theorem targetChars_spec :
    (∀ c ∈ i.targetChars.head?, isBlank c = false)
      ∧ (∀ c ∈ i.targetChars.getLast?, isBlank c = false) ∧ ']' ∉ i.targetChars := by
  rw [targetChars]
  split
  · rename_i front back hfront hback _
    have hall : ∀ c ∈ front ++ i.name.chars ++ back, isBlank c = false ∧ c ≠ ']' := by
      intro c hc
      have quote (hquote : isQuoteSign c = true) : isBlank c = false ∧ c ≠ ']' := by
        refine ⟨not_isBlank_of_isQuoteSign hquote, ?_⟩
        rcases isQuoteSign_eq hquote with rfl | rfl <;> decide
      rcases List.mem_append.mp hc with hc | hc
      · rcases List.mem_append.mp hc with hc | hc
        · exact quote (hfront c hc)
        · refine ⟨not_isBlank_of_continuesName (Identifier.continuesName hc), ?_⟩
          rintro rfl
          exact i.name.ne_bracket hc
      · exact quote (hback c hc)
    exact ⟨fun c hc => (hall c (List.mem_of_mem_head? hc)).1,
      fun c hc => (hall c (List.mem_of_getLast? hc)).1, fun h => (hall _ h).2 rfl⟩
  · rename_i selector _
    refine ⟨fun c hc => ?_, fun c hc => ?_, ?_⟩
    · cases hc
      decide
    · rw [← List.cons_append, List.getLast?_append] at hc
      cases hc
      decide
    · have hselector := selector.noBracket
      simp [hselector]

/-- The marker is recognised at the front of a text. -/
theorem shorthand?_print (rest : List Char) :
    shorthand? '>' (i.print ++ rest) = some (i.targetChars, rest) := by
  obtain ⟨hhead, hlast, hbracket⟩ := i.targetChars_spec
  obtain ⟨c, cs, hchars⟩ := List.exists_cons_of_ne_nil i.targetChars_ne_nil
  rw [hchars] at hhead hlast hbracket
  have hshape : i.print ++ rest
      = (opening ++ ['>']) ++ (i.front ++ (c :: (cs ++ i.back ++ (closing ++ rest)))) := by
    rw [print, hchars]
    simp only [List.append_assoc, List.cons_append]
  have hstart : trimStart (i.front ++ (c :: (cs ++ i.back ++ (closing ++ rest))))
      = c :: (cs ++ i.back ++ (closing ++ rest)) := by
    rw [trimStart, List.dropWhile_append_of_pos i.blank_front]
    exact trimStart_of_not_blank (hhead c rfl)
  have hnotMem : ']' ∉ cs ++ i.back := by
    rw [List.mem_append, not_or]
    refine ⟨fun h => hbracket (List.mem_cons_of_mem c h), fun h => ?_⟩
    exact absurd (i.blank_back _ h) (by decide)
  have hcut : cut closing (cs ++ i.back ++ (closing ++ rest)) = some (cs ++ i.back, rest) := by
    have hhere : cut closing (closing ++ rest) = some ([], rest) := rfl
    show cut (']' :: [']']) _ = _
    rw [cut_of_notMem hnotMem]
    show (cut closing (closing ++ rest)).map _ = _
    rw [hhere]
    show some (cs ++ i.back ++ [], rest) = _
    rw [List.append_nil]
  have hend : trimEnd (c :: (cs ++ i.back)) = c :: cs := by
    rw [trimEnd, ← List.cons_append, List.reverse_append,
      List.dropWhile_append_of_pos fun d hd => i.blank_back d (List.mem_reverse.mp hd)]
    cases hrev : (c :: cs).reverse with
    | nil => simp at hrev
    | cons d ds =>
      have hd : (c :: cs).getLast? = some d := by
        rw [List.getLast?_eq_head?_reverse, hrev]
        rfl
      rw [List.dropWhile_cons, hlast d hd]
      show (d :: ds).reverse = _
      rw [← hrev, List.reverse_reverse]
  rw [shorthand?, hshape, stripFront_append]
  dsimp only
  rw [hstart, closeMarker, hcut]
  show some (trimEnd (c :: (cs ++ i.back)), rest) = _
  rw [hend, hchars]

/-- What stands in the marker is written as the output marker of the call. -/
theorem inclusion_targetChars : inclusion i.targetChars = i.output := by
  rw [output, call, targetChars, function, argument, inclusion]
  cases i.target with
  | named front back hfront hback =>
    dsimp only
    have hopen : startsWith ['('] (front ++ i.name.chars ++ back) = false := by
      have hne : ∀ c ∈ front ++ i.name.chars ++ back, '(' ≠ c := by
        rintro _ hc rfl
        rcases List.mem_append.mp hc with hc | hc
        · rcases List.mem_append.mp hc with hc | hc
          · exact absurd (hfront _ hc) (by decide)
          · exact absurd (Identifier.continuesName hc) (by decide)
        · exact absurd (hback _ hc) (by decide)
      generalize front ++ i.name.chars ++ back = cs at hne
      cases cs with
      | nil => rfl
      | cons c cs =>
        rw [startsWith, stripFront, if_neg (hne c List.mem_cons_self)]
        rfl
    rw [hopen, unquoted_name i.name hfront hback]
    simp [opening, closing]
  | chosen selector =>
    dsimp only
    have hopen : startsWith ['('] ('(' :: (selector.chars ++ [')'])) = true := rfl
    have hclose : endsWith [')'] ('(' :: (selector.chars ++ [')'])) = true := by
      rw [endsWith, ← List.cons_append, List.reverse_append]
      rfl
    rw [hopen, hclose]
    simp [opening, closing]

end Inclusion

/-! ### Scanning a page -/

/-- In a clean text no marker opens at the front, and what follows the front is clean. -/
theorem Clean.front {c : Char} {cs : List Char} (h : Clean (c :: cs)) :
    (∀ rest, stripFront opening (c :: (cs ++ rest)) = none) ∧ Clean cs := by
  have hstrip (rest : List Char) : stripFront opening (c :: (cs ++ rest)) = none := by
    cases hfound : stripFront opening (c :: (cs ++ rest)) with
    | none => rfl
    | some behind =>
      have hcut : cut opening (c :: cs ++ rest) = some ([], behind) := by
        rw [List.cons_append, cut, cutFrom, hfound]
        rfl
      rw [h rest] at hcut
      cases hrest : cut opening rest with
      | none =>
        rw [hrest] at hcut
        cases hcut
      | some parts =>
        rw [hrest] at hcut
        cases hcut
  refine ⟨hstrip, fun rest => ?_⟩
  have hmove := cut_cons_of_stripFront (hstrip rest)
  have hwhole := h rest
  rw [List.cons_append, hmove] at hwhole
  cases hrest : cut opening rest with
  | none =>
    rw [hrest] at hwhole
    exact Option.map_eq_none_iff.mp hwhole
  | some parts =>
    rw [hrest] at hwhole
    obtain ⟨found, hfound, heq⟩ := Option.map_eq_some_iff.mp hwhole
    rw [hfound]
    cases found
    cases heq
    rfl

/-- Scanning for inclusions passes over a clean text. -/
theorem scanWithin_clean {cs : List Char} (h : Clean cs) (bound : Nat) (rest : List Char) :
    scanWithin (shorthand? '>') (cs.length + bound) (cs ++ rest)
      = cs.map .inl ++ scanWithin (shorthand? '>') bound rest := by
  induction cs with
  | nil => rw [List.length_nil, Nat.zero_add, List.nil_append, List.map_nil, List.nil_append]
  | cons c cs ih =>
    obtain ⟨hstrip, htail⟩ := h.front
    have hnone : shorthand? '>' (c :: (cs ++ rest)) = none := by
      rw [shorthand?, stripFront_append_eq_none (hstrip rest)]
    have hbound : (c :: cs).length + bound = cs.length + bound + 1 := by
      rw [List.length_cons]
      omega
    rw [hbound, List.cons_append, scanWithin, hnone]
    dsimp only
    rw [ih htail, List.map_cons, List.cons_append]

/-- Scanning the inclusions of a page finds what stands in them. -/
theorem flatMap_scanWithin (rest : List (Inclusion × TextRun)) (t : TextRun) (bound : Nat)
    (hbound : (t.chars ++ segments Inclusion.print rest).length ≤ bound) :
    (scanWithin (shorthand? '>') bound (t.chars ++ segments Inclusion.print rest)).flatMap
        (partText inclusion)
      = t.chars ++ segments Inclusion.output rest := by
  rw [List.length_append] at hbound
  obtain ⟨bound, rfl⟩ : ∃ b, bound = t.chars.length + b := ⟨bound - t.chars.length, by omega⟩
  rw [scanWithin_clean t.clean, flatMap_partText_inl]
  congr 1
  induction rest generalizing t bound with
  | nil => cases bound <;> rfl
  | cons part rest ih =>
    obtain ⟨i, u⟩ := part
    have hshape : segments Inclusion.print ((i, u) :: rest)
        = i.print ++ (u.chars ++ segments Inclusion.print rest) := by
      rw [segments, List.flatMap_cons, List.append_assoc]
      rfl
    have hmark := i.shorthand?_print (u.chars ++ segments Inclusion.print rest)
    have hfront : ∃ cs, i.print = '[' :: cs := ⟨_, rfl⟩
    obtain ⟨cs, hcs⟩ := hfront
    rw [hshape, hcs, List.cons_append] at hbound ⊢
    rw [hcs, List.cons_append] at hmark
    rw [List.length_cons, List.length_append, List.length_append] at hbound
    obtain ⟨bound, rfl⟩ : ∃ b, bound = u.chars.length + b + 1 :=
      ⟨bound - u.chars.length - 1, by omega⟩
    rw [scanWithin, hmark]
    dsimp only
    rw [List.flatMap_cons, scanWithin_clean u.clean, flatMap_partText_inl,
      ih u bound (by omega)]
    show inclusion i.targetChars ++ _ = i.output ++ u.chars ++ _
    rw [i.inclusion_targetChars, List.append_assoc]
    rfl

/-- **A page with its inclusions written as calls.** -/
theorem writeInclusions_print (p : Page) :
    writeInclusions p.print
      = String.ofList (p.first.chars ++ segments Inclusion.output p.rest) := by
  rw [writeInclusions, replaceMarks, scan, Page.print, String.toList_ofList]
  rw [flatMap_scanWithin p.rest p.first _ (Nat.le_refl _)]

/-! ### Rows -/

/-- A row of the routine of a page. -/
inductive Row where
  /-- A text is written. -/
  | text (cs : List Char)
  /-- A fragment is included. -/
  | call (i : Inclusion)

/-- The row of a text, if there is any text. -/
def textRow (cs : List Char) : List Row := if cs.isEmpty then [] else [.text cs]

/-- The rows of inclusions and the texts behind them. -/
def rowsOf (rest : List (Inclusion × TextRun)) : List Row :=
  rest.flatMap fun part => .call part.1 :: textRow part.2.chars

/-- The rows of a page. -/
def Page.rows (p : Page) : List Row := textRow p.first.chars ++ rowsOf p.rest

/-- The piece that becomes the row. -/
def Row.piece : Row → Piece
  | .text cs => .text (String.ofList cs)
  | .call i => .raw (String.ofList i.call)

theorem textPiece_eq_rows (cs : List Char) : textPiece cs = (textRow cs).map Row.piece := by
  rw [textPiece, textRow]
  split <;> rfl

namespace Inclusion

variable (i : Inclusion)

theorem argument_noBracket : ']' ∉ i.argument := by
  rw [argument]
  split
  · exact (Literal.quoted i.name).noBracket
  · rename_i selector _
    exact selector.noBracket

theorem call_noBracket : ']' ∉ i.call := by
  have hfunction : ']' ∉ i.function.toList := by
    rw [function]
    split <;> decide
  have hargument := i.argument_noBracket
  simp [call, hfunction, hargument]

/-- A call begins with a name and ends with a parenthesis. -/
theorem trim_call : trim (' ' :: (i.call ++ [' '])) = i.call := by
  refine trim_spaced (fun c hc => ?_) fun c hc => ?_
  · have hfirst : i.call.head? = some '_' := by
      rw [call, function]
      split <;> rfl
    rw [hfirst] at hc
    cases hc
    decide
  · have hlast : i.call.getLast? = some ')' := by
      rw [call, ← List.cons_append, ← List.append_assoc, List.getLast?_append]
      rfl
    rw [hlast] at hc
    cases hc
    decide

/-- The marker of the call closes behind the call. -/
theorem closeMarker_output (rest : List Char) :
    closeMarker (['-', ' '] ++ i.call ++ [' '] ++ (closing ++ rest))
      = some (['-', ' '] ++ i.call ++ [' '], rest) := by
  have hbody : ']' ∉ ' ' :: (i.call ++ [' ']) := by
    simp [i.call_noBracket]
  have hhere : cut closing (closing ++ rest) = some ([], rest) := rfl
  have hcut : cut closing (' ' :: (i.call ++ [' ']) ++ (closing ++ rest))
      = some (' ' :: (i.call ++ [' ']), rest) := by
    show cut (']' :: [']']) _ = _
    rw [cut_of_notMem hbody]
    show (cut closing (closing ++ rest)).map _ = _
    rw [hhere]
    show some (' ' :: (i.call ++ [' ']) ++ [], rest) = _
    rw [List.append_nil]
  show (cut closing (' ' :: (i.call ++ [' ']) ++ (closing ++ rest))).map _ = _
  rw [hcut]
  rfl

/-- The marker of the call is the piece of the call. -/
theorem classify_output :
    classify (['-', ' '] ++ i.call ++ [' ']) = .raw (String.ofList i.call) := by
  show Piece.raw (String.ofList (trim (' ' :: (i.call ++ [' '])))) = _
  rw [i.trim_call]

end Inclusion

/-- The pieces of a page whose inclusions are written as calls are its rows. -/
theorem tokenizeWithin_rows (rest : List (Inclusion × TextRun)) (t : TextRun) {bound : Nat}
    (hbound : (t.chars ++ segments Inclusion.output rest).length ≤ bound) :
    tokenizeWithin bound (t.chars ++ segments Inclusion.output rest)
      = (textRow t.chars ++ rowsOf rest).map Row.piece := by
  induction rest generalizing t bound with
  | nil =>
    rw [segments, List.flatMap_nil, List.append_nil, tokenizeWithin_clean t.clean,
      textPiece_eq_rows]
    simp [rowsOf]
  | cons part rest ih =>
    obtain ⟨i, u⟩ := part
    have hshape : segments Inclusion.output ((i, u) :: rest)
        = opening ++ (['-', ' '] ++ i.call ++ [' ']
          ++ (closing ++ (u.chars ++ segments Inclusion.output rest))) := by
      simp only [segments, List.flatMap_cons, Inclusion.output, List.append_assoc]
    rw [hshape] at hbound ⊢
    have hlength : 2 + (closing ++ (u.chars ++ segments Inclusion.output rest)).length ≤ bound := by
      rw [List.length_append, List.length_append, List.length_append] at hbound
      have hopening : opening.length = 2 := rfl
      omega
    obtain ⟨bound, rfl⟩ : ∃ b, bound = b + 1 := ⟨bound - 1, by omega⟩
    have hshort : (u.chars ++ segments Inclusion.output rest).length ≤ bound := by
      rw [List.length_append] at hlength
      omega
    rw [tokenizeWithin, t.clean.cut_opening]
    dsimp only
    rw [i.closeMarker_output]
    dsimp only
    rw [ih u hshort, i.classify_output, textPiece_eq_rows]
    simp only [rowsOf, List.flatMap_cons, List.map_append, List.map_cons, List.cons_append]
    rfl

/-- **The pieces of a page are its rows.** -/
theorem tokenize_page (p : Page) : tokenize (writeInclusions p.print) = p.rows.map Row.piece := by
  rw [writeInclusions_print, tokenize, String.toList_ofList]
  exact tokenizeWithin_rows p.rest p.first (Nat.le_refl _)

end Stencil.Reading
