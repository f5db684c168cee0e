import Mathlib
import Stencil.Proofs.ParserEnds
import Stencil.Proofs.Reading.Elsewhere

/-!
# The routine of pieces read one by one

The markers of a template become the source of a routine as text, and the parser reads that source
as a whole.  What it finds for a marker is what it finds for the source of the marker by itself,
whatever the neighbours are, if the source is one expression that does not end in a comment, or
statements behind which no others are pasted.

* `IsExpression`, `ReadsAs` — a source that is one expression, and what a piece is by itself;
* `CodeApart` — no two pieces of statements next to each other;
* `gives_code` — the statements of a marker in front of others;
* `gives_pieces` — the pieces of a template in a row;
* `parse_pieces` — the main theorem.
-/

namespace Stencil.Reading

open Routine Routine.Parser Template Spot

/-! ### Pieces by themselves -/

/-- The source is one expression, and nothing follows it. -/
def IsExpression (source : String) (e : Expr) : Prop :=
  ∃ lexed, lex source = .ok lexed
    ∧ (expression (callBound lexed.tokens.length) 0).run ⟨lexed.tokens, lexed.endLine⟩
      = .ok (e, ⟨[], lexed.endLine⟩)

/-- The statements that a piece is by itself. -/
inductive ReadsAs : Piece → List Stmt → Prop
  | text (s : String) : ReadsAs (.text s) [writeStmt (.text s)]
  | escaped {source : String} {e : Expr} (h : IsExpression source e)
      (hcomment : endsInComment source = false) :
      ReadsAs (.escaped source) [writeStmt (.call (.name escapeName) [e] false)]
  | raw {source : String} {e : Expr} (h : IsExpression source e)
      (hcomment : endsInComment source = false) : ReadsAs (.raw source) [writeStmt e]
  | code {source : String} {stmts : List Stmt} (h : parseProgram [] source = .ok ⟨[], stmts⟩) :
      ReadsAs (.code source) stmts

/-- No two pieces of statements stand next to each other. -/
def CodeApart : List Piece → Prop
  | .code _ :: .code _ :: _ => False
  | _ :: pieces => CodeApart pieces
  | [] => True

/-! ### Expressions -/

/-- No joint binds more loosely than an item of a list. -/
theorem itemPower_lt_of_joint? {x : Option Lexeme} {power : Power} {joint : Joint}
    (h : joint? x = some (power, joint)) : itemPower < power.left := by
  cases x with
  | none => cases h
  | some x =>
    cases x with
    | sign p =>
      have hp : jointOf? p = some (power, joint) := h
      cases p <;> cases hp <;> decide
    | number x => cases h
    | text t => cases h
    | name word => cases h

theorem continueWith_itemPower (bound : Nat) (left : Expr) :
    continueWith bound itemPower left = continueWith bound 0 left := by
  induction bound generalizing left with
  | zero => rfl
  | succ bound ih =>
    rw [continueWith, continueWith]
    congr 1
    funext here
    cases hjoint : joint? here with
    | none => rfl
    | some found =>
      obtain ⟨power, joint⟩ := found
      have hpower := itemPower_lt_of_joint? hjoint
      dsimp only
      rw [if_neg (Nat.not_lt.mpr (Nat.le_of_lt hpower)), if_neg (Nat.not_lt_zero power.left)]
      simp only [ih]

/-- An expression is an item of a list as it stands. -/
theorem expression_itemPower (bound : Nat) :
    expression bound itemPower = expression bound 0 := by
  cases bound with
  | zero => rfl
  | succ bound =>
    rw [expression, expression]
    simp only [continueWith_itemPower]

/-- An expression that is all of its tokens is the same in front of a closing parenthesis.  It
closes its brackets and does not begin with such a parenthesis. -/
theorem gives_expression_moved {s : Spot} {tokens : List Token} {bound last : Nat} {e : Expr}
    (hnext : s.next.lexeme = .sign .closeParen)
    (h : expression bound 0 ⟨tokens, last⟩ = .ok (e, ⟨[], last⟩)) :
    Gives (expression · 0) bound (s.put tokens) e (s.next :: s.others) ∧ Balanced tokens
      ∧ leads .closeParen (s.put tokens) = false := by
  have hholds : s.Holds tokens := fun hapart => absurd hnext hapart
  have hmoved (bound' : Nat) (hbound : bound ≤ bound') :
      Balanced tokens ∧ ∀ l, expression bound' 0 ⟨s.put tokens, l⟩ = .ok (e, ⟨s.put [], l⟩) := by
    obtain ⟨taken, rest, rfl, hafter, hclosing, hresult⟩ :=
      (carried s bound).expression bound' hbound 0 tokens hholds last e _ h
    cases hafter
    rw [List.append_nil]
    rw [List.append_nil] at hresult
    exact ⟨hclosing, hresult fun _ => trivial⟩
  have hbalanced : Balanced tokens := (hmoved bound (Nat.le_refl bound)).1
  refine ⟨fun bound' hbound l => (hmoved bound' hbound).2 l, hbalanced, ?_⟩
  cases tokens with
  | nil =>
    obtain ⟨fault, hfault⟩ := expression_nil bound 0 last
    rw [hfault] at h
    cases h
  | cons token tokens =>
    rw [leads_put, ← Bool.not_eq_true]
    intro hleads
    obtain ⟨line, rest, heq⟩ := Carries.eq_cons_of_leads hleads
    rw [heq] at hbalanced
    cases hbalanced.not_closes

/-! ### Statements -/

/-- A statement is the same in front of one on a line below.  It takes a token, the first of which
does not close a block. -/
theorem gives_statement_moved {s : Spot} (hapart : s.Apart) {bound last : Nat} {token : Token}
    {tokens : List Token} {first : Stmt} {after : Input}
    (h : statement bound ⟨token :: tokens, last⟩ = .ok (first, after))
    (hholds : s.Holds (token :: tokens)) (hbound : 8 * (tokens.length + 1) + 4 ≤ bound) :
    ∃ behind, after = ⟨behind, last⟩ ∧ behind.length ≤ tokens.length ∧ s.Holds behind
      ∧ token.lexeme ≠ .sign .closeBrace
      ∧ Gives statement bound (s.put (token :: tokens)) first (s.put behind) := by
  have hmoved (bound' : Nat) (hbound' : bound ≤ bound') : ∃ taken behind,
      token :: tokens = taken ++ behind ∧ after = ⟨behind, last⟩ ∧ Balanced taken
        ∧ ∀ l, statement bound' ⟨s.put (token :: tokens), l⟩ = .ok (first, ⟨s.put behind, l⟩) := by
    obtain ⟨taken, behind, htokens, hafter, hclosing, hresult⟩ :=
      (carried s bound).statement bound' hbound' _ hholds last first after h
    exact ⟨taken, behind, htokens, hafter, hclosing, hresult fun _ => hapart⟩
  obtain ⟨taken, behind, htokens, rfl, hbalanced, -⟩ := hmoved bound (Nat.le_refl bound)
  have hlength : behind.length ≤ tokens.length := by
    rcases (parserEnds (Nat.le_refl bound)).statement (tokens.length + 1) hbound
      ⟨token :: tokens, last⟩ (Nat.le_refl _) with ⟨e, he, -⟩ | ⟨a, i', ha, -, -, hless⟩
    · rw [he] at h
      cases h
    · rw [ha] at h
      cases h
      exact Nat.le_of_lt_succ hless
  refine ⟨behind, rfl, hlength, ?_, ?_, fun bound' hbound' l => ?_⟩
  · rw [htokens] at hholds
    exact hholds.right
  · -- What is taken closes its brackets, so it does not begin with a brace that closes another.
    intro hbrace
    cases taken with
    | nil =>
      have hwhole := congrArg List.length htokens
      rw [List.nil_append, List.length_cons] at hwhole
      omega
    | cons token' taken =>
      obtain ⟨x, line⟩ := token
      cases htokens
      cases hbrace
      cases hbalanced.not_closes
  · obtain ⟨taken', behind', htokens', hafter, -, hresult⟩ := hmoved bound' hbound'
    cases hafter
    exact hresult l

/-- Statements that are all of their tokens are the same in front of a statement on a line below. -/
theorem gives_code {s : Spot} (hapart : s.Apart) {need total : Nat} {others : List Stmt}
    {rest : List Token} (hothers : Gives statements need (s.next :: s.others) others rest)
    {bound last : Nat} {tokens : List Token} {stmts : List Stmt} {after : Input}
    (h : topStatements bound ⟨tokens, last⟩ = .ok (stmts, after)) (hholds : s.Holds tokens)
    (hbound : 8 * tokens.length + 5 ≤ bound) (htotal : bound ≤ total)
    (hneed : tokens.length + need ≤ total) :
    Gives statements total (s.put tokens) (stmts ++ others) rest := by
  induction bound generalizing tokens stmts total with
  | zero => omega
  | succ bound ih =>
    rw [topStatements] at h
    cases tokens with
    | nil =>
      have h : (Except.ok ([], ⟨[], last⟩) : Except Stop (List Stmt × Input))
          = .ok (stmts, after) := h
      cases h
      exact hothers.mono (by omega)
    | cons token tokens =>
      have h : (statement bound >>= fun first => topStatements bound >>= fun later =>
          Pure.pure (first :: later)) ⟨token :: tokens, last⟩ = .ok (stmts, after) := h
      obtain ⟨first, middle, hfirst, hlater⟩ := exists_of_bind_ok h
      obtain ⟨later, ending, hlater, hstmts⟩ := exists_of_bind_ok hlater
      cases hstmts
      rw [List.length_cons] at hbound hneed
      obtain ⟨behind, rfl, hlength, hbehind, htoken, hgives⟩ :=
        gives_statement_moved hapart hfirst hholds (by omega)
      obtain ⟨total, rfl⟩ : ∃ t, total = t + 1 := ⟨total - 1, by omega⟩
      have hlaterGives : Gives statements total (s.put behind) (later ++ others) rest :=
        ih hlater hbehind (by omega) (by omega) (by omega)
      rw [put_cons]
      exact gives_statements_token htoken (hgives.mono (by omega)) hlaterGives

/-! ### Pieces in a routine -/

/-- What may stand behind the statements of a marker: something to write, or the end of the
routine. -/
def Follows (line : Nat) (tokens : List Token) : Prop :=
  ∃ word more, tokens = onLine line (.name word) :: more ∧ (word = outputName ∨ word = "return")

/-- The tokens of a piece from one line to another. -/
structure Placed (piece : Piece) (stmts : List Stmt) (line : Nat) (tokens : List Token)
    (line' : Nat) : Prop where
  /-- The line of the piece is lexed into the tokens. -/
  lexes (rest : List Char) : Lexes line ((Template.line piece).toList ++ rest) tokens line' rest
  /-- A piece that is no statements of its own begins by naming the output. -/
  head : (∃ source, piece = .code source) ∨ ∃ more, tokens = onLine line (.name outputName) :: more
  /-- The tokens are read off as the statements. -/
  gives {need : Nat} {after rest : List Token} {others : List Stmt} (hneed : 16 ≤ need)
    (hafter : Follows line' after ∨ ∀ source, piece ≠ .code source)
    (h : Gives statements need after others rest) :
    Gives statements (8 * tokens.length + need) (tokens ++ after) (stmts ++ others) rest

/-- A value that is added to the output, up to the end of its line. -/
theorem placed_write {piece : Piece} {e : Expr} {k k' : Nat} (need : Nat) (value : List Token)
    (hlexes : ∀ rest, Lexes (1 + k) ((Template.line piece).toList ++ rest)
      (writing.map (onLine (1 + k)) ++ (value ++ [onLine k' (.sign .semicolon)])) (k' + 1) rest)
    (hneed : 1 ≤ need) (hlength : need ≤ 8 * value.length + 16)
    (hgives : ∀ rest, Gives (expression · itemPower) need
      (value ++ onLine k' (.sign .semicolon) :: rest) e (onLine k' (.sign .semicolon) :: rest)) :
    Placed piece [writeStmt e] (1 + k)
      (writing.map (onLine (1 + k)) ++ (value ++ [onLine k' (.sign .semicolon)])) (k' + 1) where
  lexes := hlexes
  head := .inr ⟨_, rfl⟩
  gives := by
    intro need' after rest others hneed' _ h
    have hstatement := gives_statement_write (1 + k) hneed (hgives after)
    have hwhole := gives_statements_cons (hstatement.mono (Nat.le_max_left _ need'))
      (h.mono (Nat.le_max_right (need + 3) need'))
    simp only [writing, List.map_cons, List.map_nil, List.cons_append, List.append_assoc,
      List.nil_append] at hwhole ⊢
    refine hwhole.mono ?_
    simp only [List.length_cons, List.length_append, List.length_nil]
    omega

theorem placed_text (t : String) (k : Nat) :
    ∃ tokens k', Placed (.text t) [writeStmt (.text t)] (1 + k) tokens (k' + 1) := by
  refine ⟨_, 1 + k, placed_write 3 [onLine (1 + k) (.text t)] (fun rest => ?_) (by omega)
    (by rw [List.length_singleton]; omega) fun rest => ?_⟩
  · have h := (lexes_writing (1 + k) _).append
      ((Lexes.quoted (1 + k) t.toList _).append (lexes_semicolon (1 + k) rest))
    simpa [Template.line, outputName, Json.quote, onLine] using h
  · exact gives_expression_text (1 + k) t itemPower (endsOperand_semicolon (1 + k) rest)

/-- A source that is one expression, between parentheses. -/
theorem IsExpression.enclosed {source : String} {e : Expr} (h : IsExpression source e)
    (hcomment : endsInComment source = false) (k : Nat) :
    ∃ tokens last,
      (∀ rest, Lexes (1 + k) (source.toList ++ ')' :: rest) tokens last (')' :: rest))
      ∧ Balanced tokens
      ∧ ∀ rest, leads .closeParen (tokens ++ onLine last (.sign .closeParen) :: rest) = false
        ∧ Gives (expression · 0) (8 * tokens.length + 16)
            (tokens ++ onLine last (.sign .closeParen) :: rest) e
            (onLine last (.sign .closeParen) :: rest) := by
  obtain ⟨⟨tokens, last⟩, hlex, hexpr⟩ := h
  have hends : endsInComment source = true → ')' = '\n' := by
    intro htrue
    rw [hcomment] at htrue
    cases htrue
  have hmoved (rest : List Token) := gives_expression_moved
    (s := ⟨k, onLine (last + k) (.sign .closeParen), rest, .inl rfl⟩) rfl hexpr
  have hlength : (tokens.map (Token.down k)).length = tokens.length := List.length_map _
  refine ⟨tokens.map (Token.down k), last + k,
    fun rest => lexes_inside Stops.closeParen hlex hends k rest, ?_, fun rest => ?_⟩
  · exact (hmoved []).2.1.map fun _ => rfl
  · obtain ⟨hgives, -, hstart⟩ := hmoved rest
    refine ⟨hstart, hgives.mono ?_⟩
    rw [hlength]
    show 8 * (tokens.length + 2) ≤ 8 * tokens.length + 16
    omega

theorem placed_escaped {source : String} {e : Expr} (h : IsExpression source e)
    (hcomment : endsInComment source = false) (k : Nat) :
    ∃ tokens k', Placed (.escaped source) [writeStmt (.call (.name escapeName) [e] false)] (1 + k)
      tokens (k' + 1) := by
  obtain ⟨tokens, last, hlexes, -, hexpr⟩ := h.enclosed hcomment k
  refine ⟨_, last, placed_write (8 * tokens.length + 19)
    (onLine (1 + k) (.name escapeName) :: onLine (1 + k) (.sign .openParen)
      :: (tokens ++ [onLine last (.sign .closeParen)]))
    (fun rest => ?_) (by omega) ?_ fun rest => ?_⟩
  · have h := (lexes_writing (1 + k) _).append
      ((lexes_word (1 + k) _ 'e' ['s', 'c', 'a', 'p', 'e', 'H', 'T', 'M', 'L'] '('
          (by decide)).append
        ((lexes_sign (1 + k) _ .openParen (by decide)).append
          ((hlexes _).append
            ((lexes_sign last _ .closeParen (by decide)).append (lexes_semicolon last rest)))))
    simpa [Template.line, outputName, escapeName, onLine, Punctuator.spelling] using h
  · simp only [List.length_cons, List.length_append, List.length_nil]
    omega
  · obtain ⟨hstart, hgives⟩ := hexpr (onLine last (.sign .semicolon) :: rest)
    simp only [← expression_itemPower] at hgives
    have hcall : Gives (expression · itemPower) _ _ (.call (.name escapeName) [e] false) _ :=
      gives_expression_callName (1 + k) itemPower rfl rfl hstart (by omega) hgives
        (endsOperand_semicolon last rest)
    simpa only [List.cons_append, List.append_assoc, List.nil_append] using hcall

theorem placed_raw {source : String} {e : Expr} (h : IsExpression source e)
    (hcomment : endsInComment source = false) (k : Nat) :
    ∃ tokens k', Placed (.raw source) [writeStmt e] (1 + k) tokens (k' + 1) := by
  obtain ⟨tokens, last, hlexes, hbalanced, hexpr⟩ := h.enclosed hcomment k
  refine ⟨_, last, placed_write (8 * tokens.length + 19)
    (onLine (1 + k) (.sign .openParen) :: (tokens ++ [onLine last (.sign .closeParen)]))
    (fun rest => ?_) (by omega) ?_ fun rest => ?_⟩
  · have h := (lexes_writing (1 + k) _).append
      ((lexes_sign (1 + k) _ .openParen (by decide)).append
        ((hlexes _).append
          ((lexes_sign last _ .closeParen (by decide)).append (lexes_semicolon last rest))))
    simpa [Template.line, outputName, onLine, Punctuator.spelling] using h
  · simp only [List.length_cons, List.length_append, List.length_nil]
    omega
  · obtain ⟨-, hgives⟩ := hexpr (onLine last (.sign .semicolon) :: rest)
    have harrow : closesBefore .arrow (onLine (1 + k) (.sign .openParen) :: (tokens
        ++ onLine last (.sign .closeParen) :: onLine last (.sign .semicolon) :: rest)) = false :=
      closesBefore_enclosed hbalanced rfl rfl .arrow _
    have hvalue := gives_expression_inParens (1 + k) itemPower harrow hgives
      (endsOperand_semicolon last rest)
    simpa only [List.cons_append, List.append_assoc, List.nil_append] using hvalue

/-- A source that is a program is read off up to its end. -/
theorem topStatements_of_parseProgram {params : List String} {source : String} {stmts : List Stmt}
    (h : parseProgram params source = .ok ⟨params, stmts⟩) :
    ∃ tokens last after, lex source = .ok ⟨tokens, last⟩
      ∧ topStatements (callBound tokens.length) ⟨tokens, last⟩ = .ok (stmts, after) := by
  rw [parseProgram] at h
  cases hlex : lex source with
  | error e =>
    rw [hlex] at h
    cases h
  | ok lexed =>
    obtain ⟨tokens, last⟩ := lexed
    rw [hlex] at h
    have h : (topStatements (callBound tokens.length) ⟨tokens, last⟩).map
        (fun result => (⟨params, result.1⟩ : Program)) = .ok ⟨params, stmts⟩ := h
    cases htop : topStatements (callBound tokens.length) ⟨tokens, last⟩ with
    | error e =>
      rw [htop] at h
      cases h
    | ok result =>
      rw [htop] at h
      cases h
      exact ⟨tokens, last, result.2, rfl, htop⟩

theorem placed_code {source : String} {stmts : List Stmt}
    (h : parseProgram [] source = .ok ⟨[], stmts⟩) (k : Nat) :
    ∃ tokens k', Placed (.code source) stmts (1 + k) tokens (k' + 1) := by
  obtain ⟨tokens, last, after, hlex, htop⟩ := topStatements_of_parseProgram h
  have hlength : (tokens.map (Token.down k)).length = tokens.length := List.length_map _
  refine ⟨tokens.map (Token.down k), last + k, ?_, .inl ⟨source, rfl⟩, ?_⟩
  · intro rest
    have h := (lexes_inside Stops.newline hlex (fun _ => rfl) k rest).append
      (Lexes.newline (last + k) rest)
    simpa [Template.line] using h
  · intro need followed rest others hneed hfollows hothers
    obtain ⟨word, more, rfl, hword⟩ : Follows (last + k + 1) followed :=
      hfollows.resolve_right fun hnone => hnone source rfl
    -- What follows stands on the line behind the last one of the source.
    let s : Spot := ⟨k, onLine (last + k + 1) (.name word), more, by
      rcases hword with rfl | rfl
      · exact .inr (.inl rfl)
      · exact .inr (.inr rfl)⟩
    have hholds : s.Holds tokens := by
      intro _ token htoken
      have hline := line_le_of_lex hlex token htoken
      show token.line + k < last + k + 1
      omega
    exact gives_code (s := s) (by rintro ⟨⟩) hothers htop hholds (by unfold callBound; omega)
      (by rw [hlength]; unfold callBound; omega) (by rw [hlength]; omega)

/-- A piece that reads as statements has its place in a routine. -/
theorem ReadsAs.placed {piece : Piece} {stmts : List Stmt} (h : ReadsAs piece stmts) (k : Nat) :
    ∃ tokens k', Placed piece stmts (1 + k) tokens (k' + 1) := by
  cases h with
  | text t => exact placed_text t k
  | escaped h hcomment => exact placed_escaped h hcomment k
  | raw h hcomment => exact placed_raw h hcomment k
  | code h => exact placed_code h k

/-! ### Templates -/

theorem CodeApart.tail {piece : Piece} {pieces : List Piece} (h : CodeApart (piece :: pieces)) :
    CodeApart pieces := by
  unfold CodeApart at h
  split at h
  · exact h.elim
  · rename_i heq
    cases heq
    exact h
  · rename_i heq
    cases heq

theorem CodeApart.ne_code {source source' : String} {pieces : List Piece}
    (h : CodeApart (.code source :: pieces)) (more : List Piece) :
    pieces ≠ .code source' :: more := by
  rintro rfl
  exact h

/-- The pieces of a template are read off one after the other, up to the last lines of the
routine. -/
theorem gives_pieces {pieces : List Piece} {parts : List (List Stmt)}
    (h : List.Forall₂ ReadsAs pieces parts) (hapart : CodeApart pieces) (k : Nat) :
    ∃ tokens last,
      (∀ rest, Lexes (1 + k) ((String.join (pieces.map Template.line)).toList ++ rest) tokens last
        rest)
      ∧ ((∃ source more, pieces = .code source :: more)
        ∨ Follows (1 + k) (tokens ++ closingTokens last))
      ∧ Gives statements (8 * tokens.length + 16) (tokens ++ closingTokens last)
          (parts.flatten ++ [.giveBack (some (.name outputName))]) [] := by
  induction h generalizing k with
  | nil =>
    refine ⟨[], 1 + k, fun rest => .nil (1 + k) rest, .inr ⟨_, _, rfl, .inr rfl⟩, ?_⟩
    exact (gives_statements_closing (1 + k)).mono (by omega)
  | @cons piece stmts pieces parts hpiece _ ih =>
    obtain ⟨front, k', hplaced⟩ := hpiece.placed k
    rw [Nat.add_comm k' 1] at hplaced
    obtain ⟨back, last, hlexes, hfollows, hgives⟩ := ih hapart.tail k'
    refine ⟨front ++ back, last, fun rest => ?_, ?_, ?_⟩
    · rw [List.map_cons, String.join_cons, String.toList_append, List.append_assoc]
      exact (hplaced.lexes _).append (hlexes rest)
    · rcases hplaced.head with ⟨source, rfl⟩ | ⟨more, hmore⟩
      · exact .inl ⟨source, pieces, rfl⟩
      · rw [hmore]
        exact .inr ⟨outputName, more ++ back ++ closingTokens last, rfl, .inl rfl⟩
    · have hafter : Follows (1 + k') (back ++ closingTokens last)
          ∨ ∀ source, piece ≠ .code source := by
        cases piece with
        | code source =>
          refine .inl (hfollows.resolve_left ?_)
          rintro ⟨source', more, heq⟩
          exact hapart.ne_code more heq
        | text t => exact .inr fun _ => nofun
        | escaped source => exact .inr fun _ => nofun
        | raw source => exact .inr fun _ => nofun
      have hwhole := hplaced.gives (by omega) hafter hgives
      rw [List.flatten_cons, List.append_assoc, List.append_assoc, List.length_append]
      exact hwhole.mono (by omega)

/-- **Compiling is compositional**: the routine of a template is a data scope in which the output
begins empty, the statements of the pieces by themselves follow in order, and the output is given
back. -/
theorem parse_pieces (params : List String) {pieces : List Piece} {parts : List (List Stmt)}
    (h : List.Forall₂ ReadsAs pieces parts) (hapart : CodeApart pieces) :
    parseProgram params (inDataScope (generate pieces))
      = .ok ⟨params, [.within (.name dataName) false
          (.declare .variable [(outputName, some (.text ""))]
            :: (parts.flatten ++ [.giveBack (some (.name outputName))]))]⟩ := by
  obtain ⟨tokens, line, hlexes, -, hgives⟩ := gives_pieces h hapart 2
  obtain ⟨last, hlex⟩ := lex_generate (hlexes lastLines.toList)
  rw [parseProgram]
  rw [hlex]
  exact parseTokens_inScope params (by omega) hgives last

/-- A choice ends with its marker, and so does a return that gives nothing back. -/
theorem parse_pieces_greeting :
    parseProgram [dataName, escapeName] (inDataScope (generate
        [.code "if (user) seen = user", .text "Hi ", .escaped "user.name", .code "return",
          .raw "a"]))
      = .ok ⟨[dataName, escapeName], [.within (.name dataName) false
          [.declare .variable [(outputName, some (.text ""))],
            .branch (.name "user") (.expr (.assign none (.name "seen") (.name "user"))) none,
            writeStmt (.text "Hi "),
            writeStmt (.call (.name escapeName) [.member (.name "user") "name" false] false),
            .giveBack none, writeStmt (.name "a"), .giveBack (some (.name outputName))]]⟩ := by
  have hchoice : parseProgram [] "if (user) seen = user" = .ok ⟨[],
      [.branch (.name "user") (.expr (.assign none (.name "seen") (.name "user"))) none]⟩ := by
    cbv
  have hreturn : parseProgram [] "return" = .ok ⟨[], [.giveBack none]⟩ := by cbv
  have huser : IsExpression "user.name" (.member (.name "user") "name" false) :=
    ⟨⟨[⟨.name "user", 1⟩, ⟨.sign .dot, 1⟩, ⟨.name "name", 1⟩], 1⟩, by cbv, by cbv⟩
  have ha : IsExpression "a" (.name "a") := ⟨⟨[⟨.name "a", 1⟩], 1⟩, by cbv, by cbv⟩
  exact parse_pieces [dataName, escapeName]
    (.cons (.code hchoice) (.cons (.text "Hi ") (.cons (.escaped huser (by cbv))
      (.cons (.code hreturn) (.cons (.raw ha (by cbv)) .nil))))) trivial

end Stencil.Reading
