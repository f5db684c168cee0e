import Stencil.Proofs.Reading.Pages

/-!
# The program of a page

The routine of a page has a line for each of its rows, and each line is parsed into a statement that
writes a text or what a call gives back.

* `Row.stmt`, `pageBody` — the program that the rows of a page stand for;
* `Row.reads`, `rows_read` — the lines of rows are lexed and parsed into their statements;
* `parse_page` — the program of the routine of a page.
-/

namespace Stencil.Reading

open Routine Routine.Parser Template

/-- The statement of a row. -/
def Row.stmt : Row → Stmt
  | .text cs => writeStmt (.text (String.ofList cs))
  | .call i => writeStmt (.call (.name i.function) [.text i.name.name] false)

/-- The body of the routine of a page. -/
def pageBody (rows : List Row) : List Stmt :=
  [.within (.name dataName) false
    (.declare .variable [(outputName, some (.text ""))]
      :: (rows.map Row.stmt ++ [.giveBack (some (.name outputName))]))]

/-! ### The line of a row -/

/-- The argument of an inclusion is lexed as the name of the fragment. -/
theorem Inclusion.lexes_argument (i : Inclusion) (line : Nat) (rest : List Char) :
    ∃ here last, Lexes line (i.argument ++ ')' :: rest) [onLine here (.text i.name.name)] last
      (')' :: rest) := by
  rw [argument]
  split
  · exact (Literal.quoted i.name).lexes line rest
  · rename_i selector _
    exact selector.lexes line rest

/-- The call of an inclusion is lexed. -/
theorem Inclusion.lexes_call (i : Inclusion) (line : Nat) (rest : List Char) :
    ∃ here last, Lexes line (i.call ++ rest)
      [onLine line (.name i.function), onLine line (.sign .openParen),
        onLine here (.text i.name.name), onLine last (.sign .closeParen)] last rest := by
  obtain ⟨here, last, hargument⟩ := i.lexes_argument line rest
  have hname : Lexes line (i.function.toList ++ '(' :: (i.argument ++ ')' :: rest))
      [onLine line (.name i.function)] line ('(' :: (i.argument ++ ')' :: rest)) := by
    rw [function]
    split
    · exact lexes_word line _ '_' ['_', 'p', 'a', 'r', 't', 'i', 'a', 'l'] '(' (by decide)
    · exact lexes_word line _ '_'
        ['_', 'p', 'a', 'r', 't', 'i', 'a', 'l', '_', 'd', 'y', 'n', 'a', 'm', 'i', 'c'] '('
        (by decide)
  have h := hname.append ((lexes_sign line _ .openParen (by decide)).append
    (hargument.append (lexes_sign last rest .closeParen (by decide))))
  refine ⟨here, last, ?_⟩
  simpa [call] using h

theorem Inclusion.unary?_function (i : Inclusion) : unary? (some (.name i.function)) = none := by
  rw [function]
  split <;> rfl

theorem Inclusion.nameExpr_function (i : Inclusion) : nameExpr i.function = .name i.function := by
  rw [function]
  split <;> rfl

/-- The call of an inclusion in parentheses is read off. -/
theorem Inclusion.gives_call (i : Inclusion) (line here last : Nat) {tokens : List Token}
    (h : EndsOperand tokens) :
    Gives (expression · itemPower) 9
      (onLine line (.sign .openParen) :: onLine line (.name i.function)
        :: onLine line (.sign .openParen) :: onLine here (.text i.name.name)
        :: onLine last (.sign .closeParen) :: onLine last (.sign .closeParen) :: tokens)
      (.call (.name i.function) [.text i.name.name] false) tokens := by
  have hargument := gives_expression_text here i.name.name itemPower
    (endsOperand_closeParen last (onLine last (.sign .closeParen) :: tokens))
  have hcall := gives_expression_callName line 0 i.unary?_function i.nameExpr_function rfl
    (by omega) hargument (endsOperand_closeParen last tokens)
  have harrow : closesBefore .arrow (onLine line (.sign .openParen)
      :: onLine line (.name i.function) :: onLine line (.sign .openParen)
      :: onLine here (.text i.name.name) :: onLine last (.sign .closeParen)
      :: onLine last (.sign .closeParen) :: tokens) = false := by
    obtain ⟨line, rest, rfl | rfl⟩ := h <;> rfl
  exact gives_expression_inParens line itemPower harrow hcall h

/-- The line of a row is lexed into tokens that begin with a name and are read off as the statement
of the row. -/
theorem Row.reads (row : Row) (line : Nat) (rest : List Char) :
    ∃ tokens last, Lexes line ((Template.line row.piece).toList ++ rest) tokens last rest
      ∧ (∃ s more, tokens = onLine line (.name s) :: more)
      ∧ ∀ after, Gives statement (4 * tokens.length) (tokens ++ after) row.stmt after := by
  cases row with
  | text cs =>
    refine ⟨writing.map (onLine line)
        ++ [onLine line (.text (String.ofList cs)), onLine line (.sign .semicolon)], line + 1,
      ?_, ⟨_, _, rfl⟩, fun after => ?_⟩
    · have h := (lexes_writing line _).append
        ((Lexes.quoted line cs _).append (lexes_semicolon line rest))
      simpa [Row.piece, Template.line, outputName, Json.quote, onLine] using h
    · have hvalue := gives_expression_text line (String.ofList cs) itemPower
        (endsOperand_semicolon line after)
      exact (gives_statement_write line (by omega) hvalue).mono (by show 6 ≤ 16; omega)
  | call i =>
    obtain ⟨here, last, hcall⟩ := i.lexes_call line (')' :: ';' :: '\n' :: rest)
    refine ⟨writing.map (onLine line) ++ onLine line (.sign .openParen)
        :: onLine line (.name i.function) :: onLine line (.sign .openParen)
        :: onLine here (.text i.name.name) :: onLine last (.sign .closeParen)
        :: onLine last (.sign .closeParen) :: [onLine last (.sign .semicolon)], last + 1,
      ?_, ⟨_, _, rfl⟩, fun after => ?_⟩
    · have h := (lexes_writing line _).append
        ((lexes_sign line _ .openParen (by decide)).append
          (hcall.append ((lexes_sign last _ .closeParen (by decide)).append
            (lexes_semicolon last rest))))
      simpa [Row.piece, Template.line, outputName, onLine, Punctuator.spelling] using h
    · have hvalue := i.gives_call line here last (endsOperand_semicolon last after)
      exact (gives_statement_write line (by omega) hvalue).mono (by show 12 ≤ 36; omega)

/-! ### The whole routine -/

/-- The lines of rows are lexed into tokens that are read off as the statements of the rows. -/
theorem rows_read (rows : List Row) (line : Nat) (rest : List Char) :
    ∃ tokens last,
      Lexes line ((String.join (rows.map fun row => Template.line row.piece)).toList ++ rest)
        tokens last rest
      ∧ GivesInFront tokens (rows.map Row.stmt) := by
  induction rows generalizing line with
  | nil => exact ⟨[], line, .nil line rest, fun _ h => h.mono (by omega)⟩
  | cons row rows ih =>
    obtain ⟨first, middle, hfirst, ⟨s, more, hbegins⟩, hstmt⟩ := row.reads line
      ((String.join (rows.map fun row => Template.line row.piece)).toList ++ rest)
    obtain ⟨others, last, hothers, hstmts⟩ := ih middle
    refine ⟨first ++ others, last, ?_, ?_⟩
    · rw [List.map_cons, String.join_cons, String.toList_append, List.append_assoc]
      exact hfirst.append hothers
    · intro need after rest' stmts hneed h
      have hlater := hstmts hneed h
      have hone := hstmt (others ++ after)
      rw [List.append_assoc, List.length_append, List.map_cons]
      rw [hbegins] at hone ⊢
      have hone' : Gives statement (4 * (more.length + 1) + (4 * others.length + need) - 1) _ _ _ :=
        hone.mono (by rw [List.length_cons]; omega)
      have hboth := gives_statements_cons hone' (hlater.mono (by omega))
      refine hboth.mono ?_
      rw [List.length_cons]
      omega

/-- Nothing is numbered in the statements of rows. -/
theorem numberedStmts_rows (rows : List Row) (rest : List Stmt) (count : Nat)
    (h : numberedStmts rest count = (rest, count)) :
    numberedStmts (rows.map Row.stmt ++ rest) count = (rows.map Row.stmt ++ rest, count) := by
  induction rows with
  | nil => exact h
  | cons row rows ih =>
    have hrow : row.stmt.numbered count = (row.stmt, count) := by
      cases row <;> rfl
    show (let first := row.stmt.numbered count
      let others := numberedStmts (rows.map Row.stmt ++ rest) first.2
      (first.1 :: others.1, others.2)) = _
    rw [hrow]
    dsimp only
    rw [ih]
    rfl

/-- Numbering leaves the program of a page as it is. -/
theorem numbered_pageBody (params : List String) (rows : List Row) :
    Program.numbered ⟨params, pageBody rows⟩ = ⟨params, pageBody rows⟩ :=
  numbered_routine params fun rest count h => numberedStmts_rows rows rest count h

/-- **The routine of a page is parsed into the program of its rows.** -/
theorem parse_page (params : List String) (p : Page) :
    parseProgram params (inDataScope (generate (tokenize (writeInclusions p.print))))
      = .ok ⟨params, pageBody p.rows⟩ := by
  obtain ⟨tokens, line, hlexes, hgives⟩ := rows_read p.rows 3 lastLines.toList
  have hlines : Lexes 3
      ((String.join ((tokenize (writeInclusions p.print)).map Template.line)).toList
        ++ lastLines.toList)
      tokens line lastLines.toList := by
    rw [tokenize_page, List.map_map]
    exact hlexes
  obtain ⟨last, hlex⟩ := lex_generate hlines
  rw [parseProgram]
  rw [hlex]
  exact parseTokens_routine params hgives line last

end Stencil.Reading
