import Stencil.Proofs.Kept
import Stencil.Proofs.Reading.Composition

/-!
# Comments in markers

The content of a marker stands on a line of the routine.  A comment at its end reaches up to the end
of that line, and so takes with it whatever the line has behind the content: nothing, where the
content is code, and the end of a statement, where it is written.

* `lexes_swallowed`, `lexes_commented` — what a comment reaches over gives no tokens;
* `MarkerKind` — the kinds of markers, each with what its line has around the content;
* `MarkerKind.lexes_line`, `MarkerKind.lexes_commentedLine` — the tokens of such a line;
* `lex_around` — the routine of a template around one of its pieces;
* `balanced_of_topStatements` — the brackets of a program are closed;
* `not_balanced_without` — a closing parenthesis is missed.
-/

namespace Stencil.Reading

open Text Template Routine Routine.Parser

/-! ### What a comment reaches over -/

theorem stops_space : Stops ' ' where
  name := by decide
  part := by decide
  power := by decide
  sign := by intro p; cases p <;> decide
  comment := by decide
  escape := by decide

/-- A step at the front of a comment. -/
theorem step_comment (line : Nat) (cs : List Char) :
    step line '/' ('/' :: cs) = .ok ⟨none, line, ('/' :: cs).dropWhile (· != '\n')⟩ := by
  have hslashes : startsWith ['/', '/'] ('/' :: '/' :: cs) = true := by
    rw [startsWith_cons, startsWith_cons]
    rfl
  rw [step]
  rw [if_neg (by decide), if_neg (by decide), if_pos hslashes]

/-- A comment that begins here reaches up to the end of the line. -/
theorem lexes_comment (line : Nat) {c : List Char} (hc : '\n' ∉ c) (rest : List Char) :
    Lexes line ('/' :: '/' :: (c ++ '\n' :: rest)) [] line ('\n' :: rest) := by
  have hdrop : ('/' :: (c ++ '\n' :: rest)).dropWhile (· != '\n') = '\n' :: rest := by
    have hslash : ∀ d ∈ '/' :: c, (d != '\n') = true := by
      intro d hd
      rw [bne_iff_ne]
      rintro rfl
      exact (List.mem_cons.mp hd).elim nofun hc
    rw [← List.cons_append, List.dropWhile_append_of_pos hslash]
    rfl
  refine Lexes.pass ((step_comment line _).trans (by rw [hdrop])) ?_
  simp only [List.length_cons, List.length_append]
  omega

/-- The characters with which a comment begins. -/
theorem eq_of_startsWith_comment {c : Char} {cs : List Char}
    (h : startsWith ['/', '/'] (c :: cs) = true) : ∃ cs', c = '/' ∧ cs = '/' :: cs' := by
  rw [startsWith_cons, Bool.and_eq_true, decide_eq_true_iff] at h
  obtain ⟨rfl, h⟩ := h
  cases cs with
  | nil => cases h
  | cons e cs =>
    rw [startsWith_cons, Bool.and_eq_true, decide_eq_true_iff] at h
    obtain ⟨rfl, -⟩ := h
    exact ⟨cs, rfl, rfl⟩

/-- Where a comment is open at the end of a source, it reaches over what follows on its line. -/
theorem lexes_swallowed_within {d : Char} (hd : Stops d) {t : List Char} (ht : '\n' ∉ d :: t)
    {bound line last : Nat} {cs : List Char} {tokens : List Token} (hbound : cs.length ≤ bound)
    (h : lexWithin bound line [] cs = .ok ⟨tokens, last⟩)
    (hends : endsInCommentWithin bound line cs = true) (k : Nat) (more : List Char) :
    Lexes (line + k) (cs ++ d :: (t ++ '\n' :: more)) (tokens.map (Token.down k)) (last + k)
      ('\n' :: more) := by
  -- The induction is on the steps up to the one that opens the comment.
  induction bound generalizing line cs tokens with
  | zero => cases hends
  | succ bound ih =>
    cases cs with
    | nil => cases hends
    | cons c cs =>
      have hlength : cs.length ≤ bound := Nat.le_of_succ_le_succ hbound
      obtain ⟨found, others, hstep, hothers, rfl⟩ := lexWithin_cons hlength h
      rw [endsInCommentWithin, hstep] at hends
      dsimp only at hends
      by_cases hopens : (startsWith ['/', '/'] (c :: cs) && found.rest.isEmpty) = true
      · rw [Bool.and_eq_true, List.isEmpty_iff] at hopens
        obtain ⟨cs, rfl, rfl⟩ := eq_of_startsWith_comment hopens.1
        rw [step_comment] at hstep
        cases hstep
        have hnone : ('/' :: cs).dropWhile (· != '\n') = [] := hopens.2
        have hline : '\n' ∉ cs ++ d :: t := by
          rw [List.mem_append, not_or]
          rw [List.dropWhile_eq_nil_iff] at hnone
          exact ⟨fun hmem => absurd (hnone '\n' (List.mem_cons_of_mem _ hmem)) (by decide), ht⟩
        dsimp only at hothers
        rw [hnone] at hothers
        cases bound <;> cases hothers <;>
          simpa using lexes_comment _ hline more
      · rw [Bool.eq_false_iff.mpr hopens, Bool.false_or] at hends
        rw [Bool.and_eq_true, List.isEmpty_iff] at hopens
        have hmoved := step_append hd hstep
          (fun hslashes hrest => absurd ⟨hslashes, hrest⟩ hopens) k (t ++ '\n' :: more)
        have hfirst := Lexes.of_step hmoved (length_step hmoved)
        have hbehind := ih (Nat.le_trans (length_step hstep) hlength) hothers hends
        have htoken : (found.token.map (Token.down k)).toList
            = found.token.toList.map (Token.down k) := by
          cases found.token <;> rfl
        rw [List.map_append, ← htoken]
        exact hfirst.append hbehind

/-- Behind a source that ends in a comment, nothing on its line gives tokens. -/
theorem lexes_swallowed {d : Char} (hd : Stops d) {t : List Char} (ht : '\n' ∉ d :: t)
    {source : String} {tokens : List Token} {last : Nat} (h : lex source = .ok ⟨tokens, last⟩)
    (hends : endsInComment source = true) (k : Nat) (more : List Char) :
    Lexes (1 + k) (source.toList ++ d :: (t ++ '\n' :: more)) (tokens.map (Token.down k)) (last + k)
      ('\n' :: more) :=
  lexes_swallowed_within hd ht (Nat.le_refl _) h hends k more

/-- **A comment behind a source** gives no tokens, and nor does what follows it on its line. -/
theorem lexes_commented {source : String} {tokens : List Token} {last : Nat}
    (h : lex source = .ok ⟨tokens, last⟩) {c : List Char} (hc : '\n' ∉ c) (k : Nat)
    (more : List Char) :
    Lexes (1 + k) (source.toList ++ ' ' :: '/' :: '/' :: (c ++ '\n' :: more))
      (tokens.map (Token.down k)) (last + k) ('\n' :: more) := by
  cases hends : endsInComment source with
  | true =>
    have hline : '\n' ∉ ' ' :: '/' :: '/' :: c := by simpa using hc
    exact lexes_swallowed stops_space hline h hends k more
  | false =>
    have hsource := lexes_inside stops_space h (by rw [hends]; nofun) k
      ('/' :: '/' :: (c ++ '\n' :: more))
    have hcomment := (Lexes.space (last + k) _).append (lexes_comment (last + k) hc more)
    simpa using hsource.append hcomment

/-! ### The lines of markers -/

/-- A content with a comment behind it. -/
def commented (source : String) (c : List Char) : String :=
  String.ofList (source.toList ++ ' ' :: '/' :: '/' :: c)

/-- The kinds of markers. -/
inductive MarkerKind where
  /-- What it holds is written with special characters escaped. -/
  | escaped
  /-- What it holds is written. -/
  | raw
  /-- What it holds is code. -/
  | code
  deriving DecidableEq

namespace MarkerKind

/-- What a marker of the kind has in front of its content. -/
def sigil : MarkerKind → List Char
  | escaped => ['=']
  | raw => ['-']
  | code => []

/-- The piece that a marker of the kind is. -/
def piece : MarkerKind → String → Piece
  | escaped => .escaped
  | raw => .raw
  | code => .code

/-- The lexemes on its line in front of the content. -/
def front : MarkerKind → List Lexeme
  | escaped => writing ++ [.name escapeName, .sign .openParen]
  | raw => writing ++ [.sign .openParen]
  | code => []

/-- The lexemes on its line behind the content. -/
def back : MarkerKind → List Lexeme
  | code => []
  | _ => [.sign .closeParen, .sign .semicolon]

/-- What is written is written by a call. -/
theorem back_of_ne_code {kind : MarkerKind} (h : kind ≠ code) :
    kind.back = [.sign .closeParen, .sign .semicolon] := by
  cases kind with
  | code => exact absurd rfl h
  | escaped | raw => rfl

variable (kind : MarkerKind)

/-- The line of a marker goes on with its content and its end. -/
theorem lexes_line_of {source : String} {tokens : List Token} {line line' : Nat}
    {rest : List Char}
    (h : Lexes line (source.toList ++ ((if kind = code then [] else [')', ';']) ++ '\n' :: rest))
      tokens line' ('\n' :: rest)) :
    Lexes line ((Template.line (kind.piece source)).toList ++ rest)
      (kind.front.map (onLine line) ++ tokens) (line' + 1) rest := by
  have hend := h.append (Lexes.newline line' rest)
  rw [List.append_nil] at hend
  cases kind with
  | escaped =>
    have h := (lexes_writing line _).append
      ((lexes_word line _ 'e' ['s', 'c', 'a', 'p', 'e', 'H', 'T', 'M', 'L'] '('
          (by decide)).append
        ((lexes_sign line _ .openParen (by decide)).append hend))
    simpa [piece, front, Template.line, outputName, escapeName, onLine, Punctuator.spelling] using h
  | raw =>
    have h := (lexes_writing line _).append
      ((lexes_sign line _ .openParen (by decide)).append hend)
    simpa [piece, front, Template.line, outputName, onLine, Punctuator.spelling] using h
  | code => simpa [piece, front, Template.line] using hend

/-- **The line of a marker** gives the tokens of the content and of what it has around it, but for
what a comment at the end of the content reaches over. -/
theorem lexes_line {source : String} {tokens : List Token} {last : Nat}
    (h : lex source = .ok ⟨tokens, last⟩) (k : Nat) (rest : List Char) :
    Lexes (1 + k) ((Template.line (kind.piece source)).toList ++ rest)
      (kind.front.map (onLine (1 + k)) ++ (tokens.map (Token.down k)
        ++ if endsInComment source then [] else kind.back.map (onLine (last + k))))
      (last + k + 1) rest := by
  refine kind.lexes_line_of ?_
  by_cases hkind : kind = code
  · have hsource := lexes_inside Stops.newline h (fun _ => rfl) k rest
    rw [hkind]
    simpa [back] using hsource
  · rw [if_neg hkind, back_of_ne_code hkind]
    cases hends : endsInComment source with
    | true =>
      have hsource := lexes_swallowed Stops.closeParen (t := [';']) (by decide) h hends k rest
      simpa using hsource
    | false =>
      have hsource := lexes_inside Stops.closeParen h (by rw [hends]; nofun) k
        (';' :: '\n' :: rest)
      have hend := (lexes_sign (last + k) (';' :: '\n' :: rest) .closeParen (by decide)).append
        (lexes_sign (last + k) ('\n' :: rest) .semicolon (by decide))
      simpa [onLine, Punctuator.spelling] using hsource.append hend

/-- The line of a marker with a comment behind its content gives the tokens in front of the
comment. -/
theorem lexes_commentedLine {source : String} {tokens : List Token} {last : Nat}
    (h : lex source = .ok ⟨tokens, last⟩) {c : List Char} (hc : '\n' ∉ c) (k : Nat)
    (rest : List Char) :
    Lexes (1 + k) ((Template.line (kind.piece (commented source c))).toList ++ rest)
      (kind.front.map (onLine (1 + k)) ++ tokens.map (Token.down k)) (last + k + 1) rest := by
  refine kind.lexes_line_of ?_
  have hline : '\n' ∉ c ++ if kind = code then [] else [')', ';'] := by
    rw [List.mem_append, not_or]
    refine ⟨hc, ?_⟩
    split <;> decide
  simpa [commented] using lexes_commented h hline k rest

end MarkerKind

/-! ### Routines around a piece -/

/-- What the piece holds from its template is cut into tokens by itself. -/
def LexesAlone : Piece → Prop
  | .text _ => True
  | .escaped source => ∃ lexed, lex source = .ok lexed
  | .raw source => ∃ lexed, lex source = .ok lexed
  | .code source => ∃ lexed, lex source = .ok lexed

theorem LexesAlone.lexes {piece : Piece} (h : LexesAlone piece) (k : Nat) :
    ∃ tokens k', ∀ rest,
      Lexes (1 + k) ((Template.line piece).toList ++ rest) tokens (1 + k') rest := by
  have marker (kind : MarkerKind) {source : String} (hsource : ∃ lexed, lex source = .ok lexed) :
      ∃ tokens k', ∀ rest, Lexes (1 + k) ((Template.line (kind.piece source)).toList ++ rest)
        tokens (1 + k') rest := by
    obtain ⟨lexed, hlexed⟩ := hsource
    have hline := kind.lexes_line hlexed k
    rw [Nat.add_comm _ 1] at hline
    exact ⟨_, _, hline⟩
  cases piece with
  | text t =>
    obtain ⟨tokens, k', htext⟩ := placed_text t k
    rw [Nat.add_comm k' 1] at htext
    exact ⟨tokens, k', htext.lexes⟩
  | escaped source => exact marker .escaped h
  | raw source => exact marker .raw h
  | code source => exact marker .code h

/-- Pieces that are cut into tokens by themselves are so one after the other. -/
theorem lexes_pieces {pieces : List Piece} (h : ∀ piece ∈ pieces, LexesAlone piece) (k : Nat) :
    ∃ tokens k', ∀ rest,
      Lexes (1 + k) ((String.join (pieces.map Template.line)).toList ++ rest) tokens (1 + k')
        rest := by
  induction pieces generalizing k with
  | nil => exact ⟨[], k, fun rest => .nil (1 + k) rest⟩
  | cons piece pieces ih =>
    obtain ⟨hpiece, hpieces⟩ := List.forall_mem_cons.mp h
    obtain ⟨tokens, k₁, hfirst⟩ := hpiece.lexes k
    obtain ⟨tokens', k₂, hothers⟩ := ih hpieces k₁
    refine ⟨tokens ++ tokens', k₂, fun rest => ?_⟩
    rw [List.map_cons, String.join_cons, String.toList_append, List.append_assoc]
    exact (hfirst _).append (hothers rest)

/-- The characters of a routine behind the line of one of its pieces. -/
def charsBehind (back : List Piece) : List Char :=
  (String.join (back.map Template.line)).toList ++ lastLines.toList

/-- **The routine of a template around one of its pieces.**  What stands in front of the piece gives
the same tokens, whatever the piece is, and what stands behind it is read on. -/
theorem lex_around {front : List Piece} (h : ∀ piece ∈ front, LexesAlone piece) (back : List Piece) :
    ∃ before k, ∀ piece tokens last,
      (∀ rest, Lexes (1 + k) ((Template.line piece).toList ++ rest) tokens last rest) →
      lex (inDataScope (generate (front ++ piece :: back)))
        = (lexWithin (charsBehind back).length last [] (charsBehind back)).map
            (Lexed.behind (before ++ tokens).reverse) := by
  obtain ⟨tokens, k, hfront⟩ := lexes_pieces h 2
  refine ⟨openingTokens ++ tokens, k, fun piece tokens' last hpiece => ?_⟩
  have hwhole := (lexes_opening _).append ((hfront _).append (hpiece (charsBehind back)))
  have hsource : (inDataScope (generate (front ++ piece :: back))).toList
      = ("with (" ++ dataName ++ ") \x7b\n" ++ "let " ++ outputName ++ " = \"\";\n").toList
        ++ ((String.join (front.map Template.line)).toList
          ++ ((Template.line piece).toList ++ charsBehind back)) := by
    rw [inDataScope, generate, charsBehind, lastLines]
    simp only [List.map_append, List.map_cons, String.join_append, String.join_cons,
      String.toList_append, List.append_assoc]
  rw [lex]
  rw [hsource, hwhole.lexChars_eq, List.append_assoc]

/-! ### Brackets of programs -/

/-- The statements of a source close their brackets. -/
theorem balanced_of_topStatements {bound last : Nat} {tokens : List Token} {stmts : List Stmt}
    {after : Input} (h : topStatements bound ⟨tokens, last⟩ = .ok (stmts, after)) :
    Balanced tokens := by
  induction bound generalizing tokens stmts after with
  | zero => cases h
  | succ bound ih =>
    cases tokens with
    | nil => exact .nil
    | cons token tokens =>
      rw [topStatements] at h
      have h : (statement bound >>= fun first => topStatements bound >>= fun later =>
          Pure.pure (first :: later)) ⟨token :: tokens, last⟩ = .ok (stmts, after) := h
      obtain ⟨first, middle, hfirst, hlater⟩ := exists_of_bind_ok h
      obtain ⟨later, ending, hlater, -⟩ := exists_of_bind_ok hlater
      -- In front of a closing parenthesis there is no condition on the lines.
      let s : Spot := ⟨0, ⟨.sign .closeParen, 0⟩, [], .inl rfl⟩
      obtain ⟨taken, rest, htokens, rfl, htaken, -⟩ :=
        (carried s bound).statement bound (Nat.le_refl bound) _
          (fun hapart => absurd rfl hapart) last first middle hfirst
      rw [htokens]
      exact Balanced.append htaken (ih hlater)

/-- The brackets of a program are closed. -/
theorem balanced_of_parseProgram {params : List String} {source : String} {p : Program}
    (h : parseProgram params source = .ok p) :
    ∃ lexed, lex source = .ok lexed ∧ Balanced lexed.tokens := by
  obtain ⟨params', stmts⟩ := p
  obtain rfl : params' = params := params_of_parseProgram h
  obtain ⟨tokens, last, after, hlex, htop⟩ := topStatements_of_parseProgram h
  exact ⟨⟨tokens, last⟩, hlex, balanced_of_topStatements htop⟩

/-- Tokens whose brackets are closed do not stay so without a closing parenthesis. -/
theorem not_balanced_without {tokens others : List Token} {line line' : Nat} {x : Lexeme}
    (hx : ∀ p, x = .sign p → p.opens = false ∧ p.closes = false)
    (h : Balanced (tokens ++ ⟨.sign .closeParen, line⟩ :: ⟨x, line'⟩ :: others)) :
    ¬ Balanced (tokens ++ others) := by
  intro hwithout
  rcases afterClosing_append tokens (Nat.le_refl 1) with ⟨found, hfound⟩ | ⟨depth, hdepth, hgoOn⟩
  · have hnone : afterClosing 1 (tokens ++ others ++ []) = none := hwithout 0 []
    rw [List.append_assoc, hfound] at hnone
    cases hnone
  · obtain ⟨d, rfl⟩ : ∃ d, depth = d + 1 := ⟨depth - 1, by omega⟩
    -- The others close the bracket that is open in front of them, and then they do not.
    have hless : afterClosing (d + 1) (others ++ [⟨.sign .closeParen, 0⟩]) = some [] := by
      rw [← Nat.add_zero (d + 1), ← hgoOn, ← List.append_assoc]
      exact hwithout 0 [⟨.sign .closeParen, 0⟩]
    have hmore : afterClosing (d + 1) (others ++ [⟨.sign .closeParen, 0⟩]) = none := by
      have hend := h 1 [⟨.sign .closeParen, 0⟩]
      have hx : afterClosing (d + 1) (⟨x, line'⟩ :: (others ++ [⟨.sign .closeParen, 0⟩]))
          = afterClosing (d + 1) (others ++ [⟨.sign .closeParen, 0⟩]) := Balanced.single hx d _
      rw [List.append_assoc, show 1 + 0 + 1 = 1 + 1 from rfl, hgoOn, List.cons_append,
        afterClosing_close rfl, if_neg (by omega)] at hend
      exact hx.symm.trans hend
    rw [hless] at hmore
    cases hmore

/-! ### Routines with a comment -/

section Commented

variable {front : List Piece} (hfront : ∀ piece ∈ front, LexesAlone piece) (kind : MarkerKind)
  {source : String} (hsource : ∃ lexed, lex source = .ok lexed) {c : List Char} (hc : '\n' ∉ c)
  (back : List Piece) (params : List String)
include hfront hsource hc

/-- **A comment behind code**, or behind another comment, changes nothing: the source has the same
tokens. -/
theorem parseProgram_commented (h : kind = .code ∨ endsInComment source = true) :
    parseProgram params (inDataScope (generate (front ++ kind.piece (commented source c) :: back)))
      = parseProgram params (inDataScope (generate (front ++ kind.piece source :: back))) := by
  obtain ⟨⟨tokens, last⟩, hlex⟩ := hsource
  obtain ⟨before, k, haround⟩ := lex_around hfront back
  have hplain := kind.lexes_line hlex k
  have hback : (if endsInComment source then [] else kind.back.map (onLine (last + k)))
      = ([] : List Token) := by
    rcases h with rfl | hends
    · exact ite_self []
    · exact if_pos hends
  rw [hback, List.append_nil] at hplain
  rw [parseProgram, parseProgram, haround _ _ _ hplain,
    haround _ _ _ (kind.lexes_commentedLine hlex hc k)]

/-- **A comment behind what is written** takes away the parenthesis that closes behind it: if the
source is a program without the comment, it is none with it. -/
theorem parseProgram_ne_commented (hkind : kind ≠ .code) (hends : endsInComment source = false)
    {p : Program}
    (h : parseProgram params (inDataScope (generate (front ++ kind.piece source :: back))) = .ok p)
    (p' : Program) :
    parseProgram params (inDataScope (generate (front ++ kind.piece (commented source c) :: back)))
      ≠ .ok p' := by
  intro hcommented
  obtain ⟨⟨tokens, last⟩, hlex⟩ := hsource
  obtain ⟨before, k, haround⟩ := lex_around hfront back
  obtain ⟨lexed, hlexed, hbalanced⟩ := balanced_of_parseProgram h
  obtain ⟨lexed', hlexed', hbalanced'⟩ := balanced_of_parseProgram hcommented
  rw [haround _ _ _ (kind.lexes_line hlex k)] at hlexed
  rw [haround _ _ _ (kind.lexes_commentedLine hlex hc k)] at hlexed'
  cases hrest : lexWithin (charsBehind back).length (last + k + 1) [] (charsBehind back) with
  | error e =>
    rw [hrest] at hlexed
    cases hlexed
  | ok others =>
    rw [hrest] at hlexed hlexed'
    cases hlexed
    cases hlexed'
    have hsemicolon : ∀ p, (Lexeme.sign .semicolon) = .sign p →
        p.opens = false ∧ p.closes = false := by
      rintro p ⟨⟩
      exact ⟨rfl, rfl⟩
    have hwith : Balanced (before ++ (kind.front.map (onLine (1 + k)) ++ tokens.map (Token.down k))
        ++ ⟨.sign .closeParen, last + k⟩ :: ⟨.sign .semicolon, last + k⟩ :: others.tokens) := by
      rw [hends, MarkerKind.back_of_ne_code hkind] at hbalanced
      simpa [Lexed.behind, onLine] using hbalanced
    have hwithout : Balanced (before ++ (kind.front.map (onLine (1 + k))
        ++ tokens.map (Token.down k)) ++ others.tokens) := by
      simpa [Lexed.behind] using hbalanced'
    exact not_balanced_without hsemicolon hwith hwithout

end Commented

end Stencil.Reading
