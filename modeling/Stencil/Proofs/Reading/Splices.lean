import Mathlib.Data.List.Chain
import Stencil.Proofs.Reading.PageProgram
import Stencil.Proofs.Segments

/-!
# Templates that splice one fragment in

A marker can name any fragment outright whose name does not look like something else: the marker is
written as a call with the name as a quoted text, and that text is lexed as the name again, whatever
characters are in it.

* `FragmentName` — the names that a marker can spell;
* `Splice` — a template that includes one fragment between two texts;
* `cut_closing` — a marker closes behind what has no close in it;
* `tokenize_splice` — the pieces of the template are the two texts and a call between them;
* `parse_splice` — the program of its routine.
-/

namespace Stencil.Reading

open Routine Routine.Parser Template Text

/-- A name that a marker can spell. -/
structure FragmentName where
  /-- Its characters. -/
  chars : List Char
  nonempty : chars ≠ []
  /-- It begins with neither a blank nor a quote sign. -/
  front : ∀ c ∈ chars.head?, isBlank c = false ∧ isQuoteSign c = false
  /-- It ends with neither of them. -/
  back : ∀ c ∈ chars.getLast?, isBlank c = false ∧ isQuoteSign c = false
  /-- No marker closes in it. -/
  noClose : contains closing chars = false
  /-- It does not stand in parentheses. -/
  outright : (startsWith ['('] chars && endsWith [')'] chars) = false

/-- The name as a text. -/
def FragmentName.text (n : FragmentName) : String := String.ofList n.chars

/-- A template that includes one fragment between two texts. -/
structure Splice where
  /-- The text in front. -/
  before : TextRun
  /-- The name of the fragment. -/
  name : FragmentName
  /-- The text behind. -/
  after : List Char
  /-- No marker opens in the text behind. -/
  noOpening : contains opening after = false

namespace Splice

variable (t : Splice)

/-- The marker. -/
def marker : List Char := opening ++ ['>', ' '] ++ t.name.chars ++ [' '] ++ closing

/-- The template. -/
def print : String := String.ofList (t.before.chars ++ (t.marker ++ t.after))

/-- A text between the texts of the template. -/
def around (text : String) : String :=
  String.ofList t.before.chars ++ text ++ String.ofList t.after

/-- The call that the marker is written as. -/
def call : List Char := fragmentFunction.toList ++ '(' :: (Json.quoteChars t.name.chars ++ [')'])

/-- The output marker of the call. -/
def output : List Char := opening ++ (['-', ' '] ++ t.call ++ [' ']) ++ closing

/-- The pieces of the template. -/
def pieces : List Piece :=
  textPiece t.before.chars ++ .raw (String.ofList t.call) :: textPiece t.after

/-- The statement that includes the fragment. -/
def stmt : Stmt := writeStmt (.call (.name fragmentFunction) [.text t.name.text] false)

/-- The statements of the template. -/
def stmts : List Stmt :=
  (textRow t.before.chars).map Row.stmt ++ t.stmt :: (textRow t.after).map Row.stmt

/-- The body of its routine. -/
def body : List Stmt :=
  [.within (.name dataName) false
    (.declare .variable [(outputName, some (.text ""))]
      :: (t.stmts ++ [.giveBack (some (.name outputName))]))]

end Splice

/-! ### Where markers close -/

/-- A marker closes behind a text without a close and a blank. -/
theorem cut_closing {cs : List Char} (h : Apart ']' cs) (rest : List Char) :
    cut closing (cs ++ ' ' :: (closing ++ rest)) = some (cs ++ [' '], rest) := by
  have hspaced : Apart ']' (cs ++ [' ']) :=
    h.append_of_head (apart_of_notMem (by decide)) (by decide)
  have hcut := cut_pair hspaced (by simp) rest
  rwa [List.append_assoc] at hcut

/-- A shorthand marker is recognised at the front of a text, without the blanks in it. -/
theorem shorthand?_spaced (sigil : Char) {cs : List Char} (hnonempty : cs ≠ [])
    (hfront : ∀ c ∈ cs.head?, isBlank c = false) (hback : ∀ c ∈ cs.getLast?, isBlank c = false)
    (hapart : Apart ']' cs) (rest : List Char) :
    shorthand? sigil (opening ++ (sigil :: ' ' :: (cs ++ [' ']) ++ (closing ++ rest)))
      = some (cs, rest) := by
  obtain ⟨c, ds, rfl⟩ := List.exists_cons_of_ne_nil hnonempty
  have hstart : trimStart (' ' :: (c :: ds ++ [' '])) = c :: (ds ++ [' ']) :=
    trimStart_of_not_blank (hfront c rfl)
  have hspaced : Apart ']' (c :: (ds ++ [' '])) :=
    hapart.append_of_head (apart_of_notMem (by decide)) (by decide)
  have hbefore : beforeClose (ds ++ [' ']) = (ds ++ [' '], []) := by
    rw [beforeClose, List.getLast?_concat, if_neg (by decide)]
  have hend : trimEnd (c :: (ds ++ [' '])) = c :: ds :=
    trimEnd_eq_iff.mpr ⟨[' '], List.forall_mem_singleton.mpr rfl, rfl, hback⟩
  rw [Template.shorthand?_marker hstart hspaced, hbefore, hend]
  rfl

namespace Splice

variable (t : Splice)

theorem apart_call : Apart ']' (' ' :: t.call) := by
  have hname := ((apart_iff _ _).mpr t.name.noClose).flatMap_quoteChar (.inr rfl)
  have hback : Apart ']' (t.name.chars.flatMap Json.quoteChar ++ ['"', ')']) :=
    hname.append_of_head (apart_of_notMem (by decide)) (by decide)
  have hwhole : Apart ']' ((' ' :: (fragmentFunction.toList ++ ['(', '"']))
      ++ (t.name.chars.flatMap Json.quoteChar ++ ['"', ')'])) :=
    (apart_of_notMem (by decide)).append hback (by decide)
  simpa [call, Json.quoteChars] using hwhole

/-! ### Writing the marker as a call -/

/-- The marker is recognised at the front of a text. -/
theorem shorthand?_marker (rest : List Char) :
    shorthand? '>' (t.marker ++ rest) = some (t.name.chars, rest) := by
  have hspaced := shorthand?_spaced '>' t.name.nonempty (fun c hc => (t.name.front c hc).1)
    (fun c hc => (t.name.back c hc).1) ((apart_iff _ _).mpr t.name.noClose) rest
  rw [← hspaced]
  simp [marker]

/-- The name is written as the output marker of the call. -/
theorem inclusion_name : inclusion t.name.chars = t.output := by
  obtain ⟨c, cs, hchars⟩ := List.exists_cons_of_ne_nil t.name.nonempty
  have hfront := (t.name.front c (by rw [hchars]; rfl)).2
  have hunquoted : unquoted t.name.chars = t.name.chars := by
    rw [unquoted, hchars, List.dropWhile_cons, hfront]
    cases hrev : (c :: cs).reverse with
    | nil => simp at hrev
    | cons d ds =>
      have hlast : t.name.chars.getLast? = some d := by
        rw [hchars, List.getLast?_eq_head?_reverse, hrev]
        rfl
      have hback := (t.name.back d hlast).2
      show ((c :: cs).reverse.dropWhile isQuoteSign).reverse = _
      rw [hrev, List.dropWhile_cons, hback]
      show (d :: ds).reverse = _
      rw [← hrev, List.reverse_reverse]
  rw [inclusion, t.name.outright, hunquoted]
  simp [output, call, opening, closing]

end Splice

/-- Nothing is recognised in a text in which no marker opens. -/
theorem scanWithin_plain {cs : List Char} (h : cut opening cs = none) (bound : Nat) :
    scanWithin (shorthand? '>') bound cs = cs.map .inl := by
  induction cs generalizing bound with
  | nil => cases bound <;> rfl
  | cons c cs ih =>
    cases bound with
    | zero => rfl
    | succ bound =>
      have hstrip : stripFront opening (c :: cs) = none := by
        cases hfound : stripFront opening (c :: cs) with
        | none => rfl
        | some rest =>
          rw [cut] at h
          rw [cutFrom, hfound] at h
          cases h
      have htail : cut opening cs = none := by
        rw [cut_cons_of_stripFront hstrip] at h
        exact Option.map_eq_none_iff.mp h
      have hnone : shorthand? '>' (c :: cs) = none := by
        rw [shorthand?, stripFront_append_eq_none hstrip]
      rw [scanWithin, hnone]
      dsimp only
      rw [ih htail, List.map_cons]

namespace Splice

variable (t : Splice)

theorem cut_after : cut opening t.after = none := by
  have h := t.noOpening
  rwa [contains, Option.isSome_eq_false_iff, Option.isNone_iff_eq_none] at h

/-- The template with its marker written as a call. -/
theorem writeInclusions_splice :
    writeInclusions t.print
      = String.ofList (t.before.chars ++ (t.output ++ t.after)) := by
  have hmark := t.shorthand?_marker t.after
  obtain ⟨cs, hcs⟩ : ∃ cs, t.marker = '[' :: cs := ⟨_, rfl⟩
  have hlength : (t.before.chars ++ (t.marker ++ t.after)).length
      = t.before.chars.length + ((cs ++ t.after).length + 1) := by
    rw [List.length_append, hcs, List.cons_append, List.length_cons]
  rw [writeInclusions, replaceMarks, scan, print, String.toList_ofList, hlength,
    scanWithin_clean t.before.clean, flatMap_partText_inl]
  rw [hcs, List.cons_append] at hmark ⊢
  rw [scanWithin, hmark]
  dsimp only
  rw [List.flatMap_cons, scanWithin_plain t.cut_after, ← List.append_nil (t.after.map Sum.inl),
    flatMap_partText_inl]
  show String.ofList (_ ++ (inclusion t.name.chars ++ (t.after ++ []))) = _
  rw [t.inclusion_name, List.append_nil]

/-! ### Pieces -/

theorem classify_call : classify (['-', ' '] ++ t.call ++ [' ']) = .raw (String.ofList t.call) := by
  have htrim : trim (' ' :: (t.call ++ [' '])) = t.call := by
    refine trim_spaced (fun c hc => ?_) fun c hc => ?_
    · have hfirst : t.call.head? = some '_' := rfl
      rw [hfirst] at hc
      cases hc
      decide
    · have hlast : t.call.getLast? = some ')' := by
        rw [call, ← List.cons_append, ← List.append_assoc, List.getLast?_append]
        rfl
      rw [hlast] at hc
      cases hc
      decide
  show Piece.raw (String.ofList (trim (' ' :: (t.call ++ [' '])))) = _
  rw [htrim]

/-- **The pieces of the template are the two texts and the call between them.** -/
theorem tokenize_splice : tokenize (writeInclusions t.print) = t.pieces := by
  have hclose : closeMarker (['-', ' '] ++ t.call ++ [' '] ++ (closing ++ t.after))
      = some (['-', ' '] ++ t.call ++ [' '], t.after) := by
    have hcut := cut_closing t.apart_call t.after
    show (cut closing (' ' :: (t.call ++ [' ']) ++ (closing ++ t.after))).map _ = _
    rw [List.cons_append, List.append_assoc]
    show (cut closing ((' ' :: t.call) ++ ' ' :: (closing ++ t.after))).map _ = _
    rw [hcut]
    rfl
  have hshape : t.before.chars ++ (t.output ++ t.after)
      = t.before.chars ++ (opening ++ (['-', ' '] ++ t.call ++ [' '] ++ (closing ++ t.after))) := by
    simp only [output, List.append_assoc]
  have hlength : (t.before.chars ++ (t.output ++ t.after)).length
      = (t.before.chars ++ (t.output ++ t.after)).length - 1 + 1 := by
    have hone : 1 ≤ t.output.length := Nat.succ_pos _
    rw [List.length_append, List.length_append]
    omega
  have hafter (bound : Nat) : tokenizeWithin bound t.after = textPiece t.after := by
    cases bound with
    | zero => rfl
    | succ bound =>
      rw [tokenizeWithin, t.cut_after]
  rw [t.writeInclusions_splice, tokenize, String.toList_ofList, hlength, hshape, tokenizeWithin,
    t.before.clean.cut_opening]
  dsimp only
  rw [hclose]
  dsimp only
  rw [hafter, t.classify_call, pieces]

/-! ### The program -/

/-- The line of the call is lexed and read off as the statement that includes the fragment. -/
theorem line_reads (line : Nat) (rest : List Char) :
    ∃ tokens, Lexes line ((Template.line (.raw (String.ofList t.call))).toList ++ rest) tokens
        (line + 1) rest
      ∧ (∃ s more, tokens = onLine line (.name s) :: more)
      ∧ ∀ after, Gives statement (4 * tokens.length) (tokens ++ after) t.stmt after := by
  refine ⟨writing.map (onLine line) ++ onLine line (.sign .openParen)
      :: onLine line (.name fragmentFunction) :: onLine line (.sign .openParen)
      :: onLine line (.text t.name.text) :: onLine line (.sign .closeParen)
      :: onLine line (.sign .closeParen) :: [onLine line (.sign .semicolon)], ?_, ⟨_, _, rfl⟩,
    fun after => ?_⟩
  · have h := (lexes_writing line _).append
      ((lexes_sign line _ .openParen (by decide)).append
        ((lexes_word line _ '_' ['_', 'p', 'a', 'r', 't', 'i', 'a', 'l'] '(' (by decide)).append
          ((lexes_sign line _ .openParen (by decide)).append
            ((Lexes.quoted line t.name.chars _).append
              ((lexes_sign line _ .closeParen (by decide)).append
                ((lexes_sign line _ .closeParen (by decide)).append
                  (lexes_semicolon line rest)))))))
    simpa [call, Template.line, outputName, fragmentFunction, FragmentName.text, onLine,
      Punctuator.spelling] using h
  · have hargument := gives_expression_text line t.name.text itemPower
      (endsOperand_closeParen line
        (onLine line (.sign .closeParen) :: onLine line (.sign .semicolon) :: after))
    have hcall : Gives (expression · 0) 6 (onLine line (.name fragmentFunction) :: _) _ _ :=
      gives_expression_callName line 0 rfl rfl rfl (by omega) hargument
        (endsOperand_closeParen line (onLine line (.sign .semicolon) :: after))
    have hvalue := gives_expression_inParens line itemPower rfl hcall
      (endsOperand_semicolon line after)
    exact (gives_statement_write line (by omega) hvalue).mono (by show 12 ≤ 36; omega)

/-- The lines of the template are lexed into tokens that are read off as its statements. -/
theorem lines_read (line : Nat) (rest : List Char) :
    ∃ tokens last,
      Lexes line ((String.join (t.pieces.map Template.line)).toList ++ rest) tokens last rest
      ∧ GivesInFront tokens t.stmts := by
  obtain ⟨before, middle, hbefore, hgivesBefore⟩ := rows_read (textRow t.before.chars) line
    ((Template.line (.raw (String.ofList t.call))
      ++ String.join ((textRow t.after).map fun row => Template.line row.piece)).toList ++ rest)
  obtain ⟨inside, hinside, ⟨s, more, hbegins⟩, hstmt⟩ := t.line_reads middle
    ((String.join ((textRow t.after).map fun row => Template.line row.piece)).toList ++ rest)
  obtain ⟨after, last, hafter, hgivesAfter⟩ := rows_read (textRow t.after) (middle + 1) rest
  refine ⟨before ++ (inside ++ after), last, ?_, ?_⟩
  · have h := hbefore.append
      ((by simpa only [String.toList_append, List.append_assoc] using hinside.append hafter))
    simpa only [pieces, textPiece_eq_rows, List.map_append, List.map_cons, List.map_map,
      Function.comp_def, String.join_append, String.join_cons, String.toList_append,
      List.append_assoc] using h
  · intro need behind rest' others hneed h
    have hlast := hgivesAfter hneed h
    have hone := hstmt (after ++ behind)
    rw [hbegins] at hone
    have hone' : Gives statement (4 * (more.length + 1) + (4 * after.length + need) - 1) _ _ _ :=
      hone.mono (by rw [List.length_cons]; omega)
    have hboth := gives_statements_cons hone' (hlast.mono (by omega))
    have hwhole := hgivesBefore (Nat.le_add_left _ _) (hboth.mono (Nat.le_refl _))
    rw [stmts, List.append_assoc, hbegins, List.append_assoc, List.append_assoc]
    refine (hwhole.mono ?_)
    simp only [List.length_append, List.length_cons]
    omega

/-- **The routine of the template is parsed into its program.** -/
theorem parse_splice (params : List String) :
    parseProgram params (inDataScope (generate (tokenize (writeInclusions t.print))))
      = .ok ⟨params, t.body⟩ := by
  obtain ⟨tokens, line, hlexes, hgives⟩ := t.lines_read 3 lastLines.toList
  rw [← t.tokenize_splice] at hlexes
  obtain ⟨last, hlex⟩ := lex_generate hlexes
  rw [parseProgram]
  rw [hlex]
  exact parseTokens_routine params hgives line last

/-- Nothing is numbered in the program. -/
theorem numbered_body (params : List String) :
    Program.numbered ⟨params, t.body⟩ = ⟨params, t.body⟩ := by
  refine numbered_routine params fun rest count h => ?_
  rw [stmts, List.append_assoc]
  refine numberedStmts_rows _ _ count ?_
  have hafter := numberedStmts_rows (textRow t.after) rest count h
  show (let first := t.stmt.numbered count
    let others := numberedStmts ((textRow t.after).map Row.stmt ++ rest) first.2
    (first.1 :: others.1, others.2)) = _
  have hstmt : t.stmt.numbered count = (t.stmt, count) := rfl
  rw [hstmt]
  dsimp only
  rw [hafter]
  rfl

end Splice

end Stencil.Reading
