import Stencil.Proofs.Reading.Tokens

/-!
# The program of a tree

The tokens of the routine of a tree are parsed into a statement for each node.

* `Path.expr`, `Node.stmt`, `stmtsOf` — the program that a tree stands for;
* `Gives` — a parser reads a tree off the front of the tokens, once its bound is large enough;
* `gives_expression_path`, `gives_statements` — paths and trees are read off;
* `parse_source` — the program of the routine of a printed tree.
-/

namespace Stencil.Reading

open Routine Routine.Parser Template

/-! ### Programs of trees -/

/-- The expression of a path. -/
def Path.expr (p : Path) : Expr :=
  p.members.foldl (fun e m => .member e m.name false) (.name p.head.name)

/-- The statement that writes the value of an expression. -/
def writeStmt (e : Expr) : Stmt := .expr (.assign (some .add) (.name outputName) e)

mutual

/-- The statement of a node. -/
def Node.stmt : Node (List Char) → Stmt
  | .text cs => writeStmt (.text (String.ofList cs))
  | .escaped p => writeStmt (.call (.name escapeName) [p.expr] false)
  | .raw p => writeStmt p.expr
  | .branch test yes no => .branch test.expr (.block (stmtsOf yes)) (some (.block (stmtsOf no)))
  | .each x source body => .each .items (some .constant) x.name source.expr (.block (stmtsOf body))

/-- The statements of a tree. -/
def stmtsOf : List (Node (List Char)) → List Stmt
  | [] => []
  | n :: ns => n.stmt :: stmtsOf ns

end

/-- The body of the routine of a tree. -/
def bodyOf (ns : List (Node (List Char))) : List Stmt :=
  [.within (.name dataName) false
    (.declare .variable [(outputName, some (.text ""))]
      :: (stmtsOf ns ++ [.giveBack (some (.name outputName))]))]

/-! ### Reading off -/

/-- Once its bound is large enough, the parser reads the result off the front of the tokens. -/
def Gives {α : Type} (p : Nat → Parser α) (need : Nat) (tokens : List Token) (a : α)
    (rest : List Token) : Prop :=
  ∀ bound, need ≤ bound → ∀ last, p bound ⟨tokens, last⟩ = .ok (a, ⟨rest, last⟩)

section

variable {α β : Type} {p : Nat → Parser α} {need : Nat} {a : α} {tokens rest : List Token}

theorem Gives.mono {more : Nat} (h : Gives p need tokens a rest) (hle : need ≤ more) :
    Gives p more tokens a rest :=
  fun bound hbound => h bound (Nat.le_trans hle hbound)

/-- A parser that counts its bound down needs one more than what it calls. -/
theorem Gives.succ
    (h : ∀ bound, need ≤ bound → ∀ last, p (bound + 1) ⟨tokens, last⟩ = .ok (a, ⟨rest, last⟩)) :
    Gives p (need + 1) tokens a rest := by
  intro bound hbound last
  obtain ⟨bound, rfl⟩ : ∃ b, bound = b + 1 := ⟨bound - 1, by omega⟩
  exact h bound (by omega) last

/-- What follows a step that gives a result. -/
theorem bind_ok {q : Parser α} {f : α → Parser β} {i i' : Input} (h : q i = .ok (a, i')) :
    (q >>= f) i = f a i' := by
  show StateT.bind q f i = _
  rw [StateT.bind]
  rw [h]
  rfl

/-- What has no result does not get any further. -/
theorem error_bind {q : Parser α} {f : α → Parser β} {i : Input} {e : Stop} (h : q i = .error e) :
    (q >>= f) i = .error e := by
  show StateT.bind q f i = _
  rw [StateT.bind]
  rw [h]
  rfl

/-- A result of two parsers in a row comes from a result of each. -/
theorem exists_of_bind_ok {q : Parser α} {f : α → Parser β} {i : Input} {r : β × Input}
    (h : (q >>= f) i = .ok r) : ∃ a j, q i = .ok (a, j) ∧ f a j = .ok r := by
  cases hq : q i with
  | error e =>
    rw [error_bind hq] at h
    cases h
  | ok result =>
    obtain ⟨a, j⟩ := result
    rw [bind_ok hq] at h
    exact ⟨a, j, rfl, h⟩

end

/-! ### Single steps -/

section

variable {p : Punctuator} {tokens : List Token} {last : Nat}

theorem leads_sign (line : Nat) (p q : Punctuator) (tokens : List Token) :
    leads q (onLine line (.sign p) :: tokens) = (p == q) := by
  show (some (Lexeme.sign p) == some (.sign q)) = (p == q)
  rw [Bool.eq_iff_iff]
  simp

theorem at?_eq (p : Punctuator) (tokens : List Token) (last : Nat) :
    at? p ⟨tokens, last⟩ = .ok (leads p tokens, ⟨tokens, last⟩) := rfl

theorem eat_eq_of_leads (h : leads p tokens = true) :
    eat p ⟨tokens, last⟩ = .ok (true, ⟨tokens.drop 1, last⟩) := by
  rw [eat]
  rw [bind_ok (at?_eq p tokens last), h]
  rfl

theorem eat_eq_of_not_leads (h : leads p tokens = false) :
    eat p ⟨tokens, last⟩ = .ok (false, ⟨tokens, last⟩) := by
  rw [eat]
  rw [bind_ok (at?_eq p tokens last), h]
  rfl

theorem expect_eq_of_leads (h : leads p tokens = true) :
    expect p ⟨tokens, last⟩ = .ok ((), ⟨tokens.drop 1, last⟩) := by
  rw [expect]
  rw [bind_ok (eat_eq_of_leads h)]
  rfl

end

section Steps

variable {line line' need : Nat} {tokens middle rest : List Token}

/-! ### Expressions -/

/-- A token behind which no operand goes on. -/
def EndsOperand (tokens : List Token) : Prop :=
  ∃ line rest, tokens = onLine line (.sign .closeParen) :: rest
    ∨ tokens = onLine line (.sign .semicolon) :: rest

theorem endsOperand_closeParen (line : Nat) (rest : List Token) :
    EndsOperand (onLine line (.sign .closeParen) :: rest) :=
  ⟨line, rest, .inl rfl⟩

theorem endsOperand_semicolon (line : Nat) (rest : List Token) :
    EndsOperand (onLine line (.sign .semicolon) :: rest) :=
  ⟨line, rest, .inr rfl⟩

theorem gives_selections_end (e : Expr) (h : EndsOperand tokens) :
    Gives (selections · e) 1 tokens e tokens := by
  refine Gives.succ ?_
  intro bound _ last
  obtain ⟨line, rest, rfl | rfl⟩ := h <;> rw [selections] <;> rfl

theorem gives_continueWith_end (least : Nat) (e : Expr) (h : EndsOperand tokens) :
    Gives (continueWith · least e) 1 tokens e tokens := by
  refine Gives.succ ?_
  intro bound _ last
  obtain ⟨line, rest, rfl | rfl⟩ := h <;> rw [continueWith] <;> rfl

theorem gives_expression {least : Nat} {left e : Expr}
    (hleft : Gives operand need tokens left middle)
    (he : Gives (continueWith · least left) need middle e rest) :
    Gives (expression · least) (need + 1) tokens e rest := by
  refine Gives.succ ?_
  intro bound hbound last
  rw [expression]
  exact (bind_ok (hleft bound hbound last)).trans (he bound hbound last)

/-- An operand that begins with a name or a text. -/
theorem gives_operand {x : Lexeme} {e selected : Expr} (hunary : unary? (some x) = none)
    (hcounts : counts? (some x) = none)
    (he : Gives primary need (onLine line x :: tokens) e middle)
    (hselected : Gives (selections · e) need middle selected rest) :
    Gives operand (need + 1) (onLine line x :: tokens) selected rest := by
  refine Gives.succ ?_
  intro bound hbound last
  have hstart : operand (bound + 1) ⟨onLine line x :: tokens, last⟩
      = (primary bound >>= selections bound) ⟨onLine line x :: tokens, last⟩ := by
    have hpeek : peek ⟨onLine line x :: tokens, last⟩
        = .ok (some x, ⟨onLine line x :: tokens, last⟩) := rfl
    rw [operand, bind_ok hpeek, hunary]
    dsimp only
    rw [hcounts]
  rw [hstart]
  exact (bind_ok (he bound hbound last)).trans (hselected bound hbound last)

theorem gives_primary_text (line : Nat) (s : String) :
    Gives primary 1 (onLine line (.text s) :: rest) (.text s) rest := by
  refine Gives.succ ?_
  intro bound _ last
  rw [primary]
  rfl

/-- A name that no arrow follows. -/
theorem gives_primary_name (line : Nat) (s : String) (h : leads .arrow rest = false) :
    Gives primary 1 (onLine line (.name s) :: rest) (nameExpr s) rest := by
  refine Gives.succ ?_
  intro bound _ last
  rw [primary]
  show (if leads .arrow rest = true then _ else _ : Parser Expr) _ = _
  rw [if_neg (Bool.eq_false_iff.mp h)]
  rfl

theorem unary?_name {s : String} (h : s ≠ "typeof") : unary? (some (.name s)) = none := by
  simp only [unary?]
  split
  · rename_i heq
    cases heq
  · rename_i heq
    cases heq
  · rename_i heq
    cases heq
  · rename_i heq
    cases heq
    exact absurd rfl h
  · rfl

theorem nameExpr_variable (x : Variable) : nameExpr x.name = .name x.name := by
  have hfree : x.name ∉ takenNames := x.free
  simp only [nameExpr]
  split
  · rename_i heq
    rw [heq] at hfree
    exact absurd (by decide) hfree
  · rename_i heq
    rw [heq] at hfree
    exact absurd (by decide) hfree
  · rename_i heq
    rw [heq] at hfree
    exact absurd (by decide) hfree
  · rename_i heq
    rw [heq] at hfree
    exact absurd (by decide) hfree
  · rfl

theorem unary?_variable (x : Variable) : unary? (some (.name x.name)) = none := by
  refine unary?_name fun heq => ?_
  have hfree : x.name ∉ takenNames := x.free
  rw [heq] at hfree
  exact absurd (by decide) hfree

/-! ### Paths -/

theorem gives_selections_member {e selected : Expr} (m : Identifier)
    (h : Gives (selections · (.member e m.name false)) need tokens selected rest) :
    Gives (selections · e) (need + 1)
      (onLine line (.sign .dot) :: onLine line (.name m.name) :: tokens) selected rest := by
  refine Gives.succ ?_
  intro bound hbound last
  rw [selections]
  exact h bound hbound last

theorem gives_selections_members (line : Nat) (members : List Identifier) (e : Expr)
    (h : EndsOperand tokens) :
    Gives (selections · e) (members.length + 1)
      ((members.flatMap fun m => [.sign .dot, .name m.name]).map (onLine line) ++ tokens)
      (members.foldl (fun e m => .member e m.name false) e) tokens := by
  induction members generalizing e with
  | nil => exact gives_selections_end e h
  | cons m members ih => exact gives_selections_member m (ih (.member e m.name false))

/-- Behind a variable, neither a member nor an end is an arrow. -/
theorem leads_arrow_members (line : Nat) (members : List Identifier) (h : EndsOperand tokens) :
    leads .arrow ((members.flatMap fun m => [.sign .dot, .name m.name]).map (onLine line) ++ tokens)
      = false := by
  cases members with
  | nil => obtain ⟨line, rest, rfl | rfl⟩ := h <;> rfl
  | cons m members => rfl

/-- A path is read off. -/
theorem gives_expression_path (line : Nat) (p : Path) (least : Nat) (h : EndsOperand tokens) :
    Gives (expression · least) (p.members.length + 3) (p.lexemes.map (onLine line) ++ tokens) p.expr
      tokens := by
  have hhead := gives_primary_name line p.head.name (leads_arrow_members line p.members h)
  rw [nameExpr_variable] at hhead
  have hmembers := gives_selections_members line p.members (.name p.head.name) h
  have hoperand := gives_operand (unary?_variable p.head) rfl (hhead.mono (by omega)) hmembers
  exact gives_expression hoperand ((gives_continueWith_end least p.expr h).mono (by omega))

/-! ### Values that are written -/

theorem gives_expression_text (line : Nat) (s : String) (least : Nat) (h : EndsOperand tokens) :
    Gives (expression · least) 3 (onLine line (.text s) :: tokens) (.text s) tokens := by
  have hoperand := gives_operand rfl rfl (gives_primary_text line s)
    (gives_selections_end (.text s) h)
  exact gives_expression hoperand ((gives_continueWith_end least (.text s) h).mono (by omega))

/-- What closes the parenthesis in front of a path. -/
theorem afterClosing_path (line : Nat) (p : Path) (depth : Nat) (tokens : List Token) :
    afterClosing depth (p.lexemes.map (onLine line) ++ tokens) = afterClosing depth tokens := by
  have hmembers (members : List Identifier) :
      afterClosing depth
        ((members.flatMap fun m => [.sign .dot, .name m.name]).map (onLine line) ++ tokens)
        = afterClosing depth tokens := by
    induction members with
    | nil => rfl
    | cons m members ih => exact ih
  exact hmembers p.members

/-- An expression in parentheses is read off, unless an arrow follows them. -/
theorem gives_primary_inParens (line : Nat) {e : Expr}
    (harrow : closesBefore .arrow (onLine line (.sign .openParen) :: tokens) = false)
    (he : Gives (expression · 0) need tokens e (onLine line' (.sign .closeParen) :: rest)) :
    Gives primary (need + 1) (onLine line (.sign .openParen) :: tokens) e rest := by
  refine Gives.succ ?_
  intro bound hbound last
  rw [primary]
  show (if closesBefore .arrow _ = true then _ else _ : Parser Expr) _ = _
  rw [if_neg (Bool.eq_false_iff.mp harrow)]
  refine (bind_ok rfl).trans ?_
  exact (bind_ok (he bound hbound last)).trans rfl

theorem gives_expression_inParens (line : Nat) {e : Expr} (least : Nat)
    (harrow : closesBefore .arrow (onLine line (.sign .openParen) :: tokens) = false)
    (he : Gives (expression · 0) need tokens e (onLine line' (.sign .closeParen) :: rest))
    (h : EndsOperand rest) :
    Gives (expression · least) (need + 3) (onLine line (.sign .openParen) :: tokens) e rest := by
  have hprimary := gives_primary_inParens line harrow he
  have hoperand := gives_operand rfl rfl hprimary ((gives_selections_end e h).mono (by omega))
  exact gives_expression hoperand ((gives_continueWith_end least e h).mono (by omega))

/-- A path in parentheses is read off. -/
theorem gives_expression_paren (line : Nat) (p : Path) (least : Nat) (h : EndsOperand tokens) :
    Gives (expression · least) (p.members.length + 6)
      (onLine line (.sign .openParen)
        :: (p.lexemes.map (onLine line) ++ onLine line (.sign .closeParen) :: tokens))
      p.expr tokens := by
  have hpath := gives_expression_path line p 0 (endsOperand_closeParen line tokens)
  have harrow : closesBefore .arrow (onLine line (.sign .openParen)
      :: (p.lexemes.map (onLine line) ++ onLine line (.sign .closeParen) :: tokens)) = false := by
    have hclosing (tokens : List Token) :
        afterClosing 0 (onLine line (.sign .openParen) :: tokens) = afterClosing 1 tokens := rfl
    rw [closesBefore, hclosing, afterClosing_path]
    obtain ⟨line, rest, rfl | rfl⟩ := h <;> rfl
  exact gives_expression_inParens line least harrow hpath h

/-- A single item up to the closing parenthesis. -/
theorem commaList_single {item : Parser Expr} {e : Expr} {last bound : Nat}
    (hstart : leads .closeParen tokens = false)
    (hitem : item ⟨tokens, last⟩ = .ok (e, ⟨onLine line (.sign .closeParen) :: rest, last⟩))
    (hbound : 1 ≤ bound) :
    commaList item .closeParen bound ⟨tokens, last⟩ = .ok ([e], ⟨rest, last⟩) := by
  obtain ⟨bound, rfl⟩ : ∃ b, bound = b + 1 := ⟨bound - 1, by omega⟩
  have hhere : at? .closeParen ⟨tokens, last⟩ = .ok (false, ⟨tokens, last⟩) :=
    congrArg (fun here => Except.ok (here, Input.mk tokens last)) hstart
  rw [commaList]
  exact (bind_ok hhere).trans ((bind_ok hitem).trans rfl)

/-- A call of a function with one argument is read off. -/
theorem gives_expression_callName (line : Nat) {name : String} {e : Expr} (least : Nat)
    (hunary : unary? (some (.name name)) = none) (hname : nameExpr name = .name name)
    (hstart : leads .closeParen tokens = false) (hneed : 1 ≤ need)
    (he : Gives (expression · itemPower) need tokens e (onLine line' (.sign .closeParen) :: rest))
    (h : EndsOperand rest) :
    Gives (expression · least) (need + 3)
      (onLine line (.name name) :: onLine line (.sign .openParen) :: tokens)
      (.call (.name name) [e] false) rest := by
  have hargs (bound : Nat) (hbound : need ≤ bound) (last : Nat) :
      commaList (expression bound itemPower) .closeParen bound ⟨tokens, last⟩
      = .ok ([e], ⟨rest, last⟩) :=
    commaList_single hstart (he bound hbound last) (by omega)
  have hselections : Gives (selections · (.name name)) (need + 1)
      (onLine line (.sign .openParen) :: tokens) (.call (.name name) [e] false) rest := by
    refine Gives.succ ?_
    intro bound hbound last
    rw [selections]
    refine (bind_ok rfl).trans ?_
    refine (bind_ok rfl).trans ?_
    refine (bind_ok (hargs bound hbound last)).trans ?_
    exact gives_selections_end _ h bound (by omega) last
  have hprimary : Gives primary 1
      (onLine line (.name name) :: onLine line (.sign .openParen) :: tokens) (nameExpr name)
      (onLine line (.sign .openParen) :: tokens) := gives_primary_name line name rfl
  rw [hname] at hprimary
  have hoperand := gives_operand hunary rfl (hprimary.mono (by omega)) hselections
  exact gives_expression hoperand ((gives_continueWith_end least _ h).mono (by omega))

/-- A call of the function that escapes with a path is read off. -/
theorem gives_expression_call (line : Nat) (p : Path) (least : Nat) (h : EndsOperand tokens) :
    Gives (expression · least) (p.members.length + 6)
      (onLine line (.name escapeName) :: onLine line (.sign .openParen)
        :: (p.lexemes.map (onLine line) ++ onLine line (.sign .closeParen) :: tokens))
      (.call (.name escapeName) [p.expr] false) tokens :=
  gives_expression_callName line least rfl rfl rfl (by omega)
    (gives_expression_path line p itemPower (endsOperand_closeParen line tokens)) h

/-! ### Statements -/

/-- Adding a value to the output is read off. -/
theorem gives_statement_write (line : Nat) {e : Expr} (hneed : 1 ≤ need)
    (h : Gives (expression · itemPower) need tokens e (onLine line' (.sign .semicolon) :: rest)) :
    Gives statement (need + 3) (writing.map (onLine line) ++ tokens) (writeStmt e) rest := by
  have hend : Gives (continueWith · 0 (.assign (some .add) (.name outputName) e)) 1
      (onLine line' (.sign .semicolon) :: rest) _ _ :=
    gives_continueWith_end 0 _ (endsOperand_semicolon line' rest)
  have hcontinue : Gives (continueWith · 0 (.name outputName)) (need + 1)
      (onLine line (.sign .addTo) :: tokens) (.assign (some .add) (.name outputName) e)
      (onLine line' (.sign .semicolon) :: rest) := by
    refine Gives.succ ?_
    intro bound hbound last
    have hstart : continueWith (bound + 1) 0 (.name outputName)
        ⟨onLine line (.sign .addTo) :: tokens, last⟩
        = (expression bound itemPower >>= fun value =>
            continueWith bound 0 (.assign (some .add) (.name outputName) value))
          ⟨tokens, last⟩ := by
      rw [continueWith]
      rfl
    rw [hstart]
    exact (bind_ok (h bound hbound last)).trans (hend bound (by omega) last)
  have hname : Gives primary 1 (onLine line (.name outputName) :: onLine line (.sign .addTo)
      :: tokens) (.name outputName) _ := gives_primary_name line outputName rfl
  have hselections : Gives (selections · (.name outputName)) 1
      (onLine line (.sign .addTo) :: tokens) (.name outputName)
      (onLine line (.sign .addTo) :: tokens) := by
    refine Gives.succ ?_
    intro bound _ last
    rw [selections]
    rfl
  have hoperand : Gives operand 2 _ _ _ := gives_operand rfl rfl hname hselections
  have hwhole := gives_expression (hoperand.mono (by omega)) hcontinue
  refine Gives.succ ?_
  intro bound hbound last
  have hstart : statement (bound + 1) ⟨writing.map (onLine line) ++ tokens, last⟩
      = (expression bound 0 >>= fun e => do
          endStatement
          return .expr e) ⟨writing.map (onLine line) ++ tokens, last⟩ := by
    rw [statement]
    rfl
  rw [hstart]
  exact (bind_ok (hwhole bound hbound last)).trans rfl

theorem gives_statements_close (line : Nat) (rest : List Token) :
    Gives statements 1 (onLine line (.sign .closeBrace) :: rest) [] rest := by
  refine Gives.succ ?_
  intro bound _ last
  rw [statements]
  rfl

/-- A statement in front of others, which begins with anything but the end of a block. -/
theorem gives_statements_token {token : Token} {first : Stmt} {others : List Stmt}
    (htoken : token.lexeme ≠ .sign .closeBrace)
    (hfirst : Gives statement need (token :: tokens) first middle)
    (hothers : Gives statements need middle others rest) :
    Gives statements (need + 1) (token :: tokens) (first :: others) rest := by
  refine Gives.succ ?_
  intro bound hbound last
  have hstart : statements (bound + 1) ⟨token :: tokens, last⟩
      = (statement bound >>= fun first => statements bound >>= fun others =>
          return first :: others) ⟨token :: tokens, last⟩ := by
    obtain ⟨x, line⟩ := token
    have hpeek : peek ⟨⟨x, line⟩ :: tokens, last⟩ = .ok (some x, ⟨⟨x, line⟩ :: tokens, last⟩) := rfl
    rw [statements, bind_ok hpeek]
    generalize hhere : some x = here
    split
    · cases hhere
      exact absurd rfl htoken
    · cases hhere
    · rfl
  rw [hstart]
  exact (bind_ok (hfirst bound hbound last)).trans ((bind_ok (hothers bound hbound last)).trans rfl)

/-- A statement in front of others; none of ours begins with a sign. -/
theorem gives_statements_cons {s : String} {first : Stmt} {others : List Stmt}
    (hfirst : Gives statement need (onLine line (.name s) :: tokens) first middle)
    (hothers : Gives statements need middle others rest) :
    Gives statements (need + 1) (onLine line (.name s) :: tokens) (first :: others) rest :=
  gives_statements_token nofun hfirst hothers

/-- A block is read off as a statement. -/
theorem gives_statement_block (line : Nat) {stmts : List Stmt}
    (h : Gives statements need tokens stmts rest) :
    Gives statement (need + 2) (onLine line (.sign .openBrace) :: tokens) (.block stmts) rest := by
  have hblock : Gives block (need + 1) (onLine line (.sign .openBrace) :: tokens) stmts rest := by
    refine Gives.succ ?_
    intro bound hbound last
    rw [block]
    exact (bind_ok rfl).trans (h bound hbound last)
  refine Gives.succ ?_
  intro bound hbound last
  rw [statement]
  refine (bind_ok rfl).trans ?_
  refine (bind_ok rfl).trans ?_
  exact (bind_ok (hblock bound hbound last)).trans rfl

/-- A choice is read off. -/
theorem gives_statement_branch (line : Nat) (p : Path) {yes no : Stmt} {after : List Token}
    (hneed : p.members.length + 3 ≤ need)
    (hyes : Gives statement need tokens yes (onLine line' (.name "else") :: after))
    (hno : Gives statement need after no rest) :
    Gives statement (need + 1)
      (onLine line (.name "if") :: onLine line (.sign .openParen)
        :: (p.lexemes.map (onLine line) ++ onLine line (.sign .closeParen) :: tokens))
      (.branch p.expr yes (some no)) rest := by
  have htest := (gives_expression_path line p 0 (endsOperand_closeParen line tokens)).mono hneed
  refine Gives.succ ?_
  intro bound hbound last
  have hstart : statement (bound + 1) ⟨onLine line (.name "if") :: onLine line (.sign .openParen)
        :: (p.lexemes.map (onLine line) ++ onLine line (.sign .closeParen) :: tokens), last⟩
      = (expression bound 0 >>= fun test => do
          expect .closeParen
          let yes ← statement bound
          if (← peek) == some (Lexeme.name "else") then
            advance
            return .branch test yes (some (← statement bound))
          else return .branch test yes none)
        ⟨p.lexemes.map (onLine line) ++ onLine line (.sign .closeParen) :: tokens, last⟩ := by
    rw [statement]
    rfl
  rw [hstart]
  refine (bind_ok (htest bound hbound last)).trans ?_
  refine (bind_ok rfl).trans ?_
  refine (bind_ok (hyes bound hbound last)).trans ?_
  show (statement bound >>= fun no => return Stmt.branch p.expr yes (some no)) ⟨after, last⟩ = _
  exact (bind_ok (hno bound hbound last)).trans rfl

/-- A repetition is read off. -/
theorem gives_statement_each (line : Nat) (x : Variable) (p : Path) {body : Stmt}
    (hneed : p.members.length + 3 ≤ need) (hbody : Gives statement need tokens body rest) :
    Gives statement (need + 2)
      (onLine line (.name "for") :: onLine line (.sign .openParen) :: onLine line (.name "const")
        :: onLine line (.name x.name) :: onLine line (.name "of")
        :: (p.lexemes.map (onLine line) ++ onLine line (.sign .closeParen) :: tokens))
      (.each .items (some .constant) x.name p.expr body) rest := by
  have hsource := (gives_expression_path line p 0 (endsOperand_closeParen line tokens)).mono hneed
  have hloop : Gives forLoop (need + 1)
      (onLine line (.sign .openParen) :: onLine line (.name "const")
        :: onLine line (.name x.name) :: onLine line (.name "of")
        :: (p.lexemes.map (onLine line) ++ onLine line (.sign .closeParen) :: tokens))
      (.each .items (some .constant) x.name p.expr body) rest := by
    refine Gives.succ ?_
    intro bound hbound last
    have hstart : forLoop (bound + 1) ⟨onLine line (.sign .openParen) :: onLine line (.name "const")
          :: onLine line (.name x.name) :: onLine line (.name "of")
          :: (p.lexemes.map (onLine line) ++ onLine line (.sign .closeParen) :: tokens), last⟩
        = (expression bound 0 >>= fun source => do
            expect .closeParen
            return .each .items (some .constant) x.name source (← statement bound))
          ⟨p.lexemes.map (onLine line) ++ onLine line (.sign .closeParen) :: tokens, last⟩ := by
      rw [forLoop]
      rfl
    rw [hstart]
    refine (bind_ok (hsource bound hbound last)).trans ?_
    refine (bind_ok rfl).trans ?_
    exact (bind_ok (hbody bound hbound last)).trans rfl
  refine Gives.succ ?_
  intro bound hbound last
  have hstart : statement (bound + 1) ⟨onLine line (.name "for") :: onLine line (.sign .openParen)
        :: onLine line (.name "const") :: onLine line (.name x.name) :: onLine line (.name "of")
        :: (p.lexemes.map (onLine line) ++ onLine line (.sign .closeParen) :: tokens), last⟩
      = forLoop bound ⟨onLine line (.sign .openParen) :: onLine line (.name "const")
          :: onLine line (.name x.name) :: onLine line (.name "of")
          :: (p.lexemes.map (onLine line) ++ onLine line (.sign .closeParen) :: tokens), last⟩ := by
    rw [statement]
    rfl
  rw [hstart]
  exact hloop bound hbound last

end Steps

/-! ### Trees -/

theorem tokensFrom_append (line : Nat) (ls ms : List (Line (List Char))) :
    tokensFrom line (ls ++ ms) = tokensFrom line ls ++ tokensFrom (line + ls.length) ms := by
  induction ls generalizing line with
  | nil => rfl
  | cons l ls ih =>
    rw [List.cons_append, tokensFrom, ih, tokensFrom, List.append_assoc, List.length_cons,
      Nat.add_assoc, Nat.add_comm 1]

theorem Path.length_lexemes (p : Path) : p.lexemes.length = 2 * p.members.length + 1 := by
  have hmembers (members : List Identifier) :
      (members.flatMap fun m => [Lexeme.sign .dot, .name m.name]).length = 2 * members.length := by
    induction members with
    | nil => rfl
    | cons m members ih =>
      rw [List.flatMap_cons, List.length_append, ih]
      show 2 + 2 * members.length = 2 * (members.length + 1)
      omega
  rw [Path.lexemes, List.length_cons, hmembers]

/-- The statements of a node begin with a name. -/
theorem Node.tokens_eq (n : Node (List Char)) (line : Nat) :
    ∃ s more, tokensFrom line n.lines = onLine line (.name s) :: more := by
  cases n with
  | text cs => exact ⟨_, _, rfl⟩
  | escaped p => exact ⟨_, _, rfl⟩
  | raw p => exact ⟨_, _, rfl⟩
  | branch test yes no => exact ⟨_, _, rfl⟩
  | each x source body => exact ⟨_, _, rfl⟩

theorem Node.tokens_escaped (p : Path) (line : Nat) :
    tokensFrom line (Node.lines (.escaped p))
      = writing.map (onLine line) ++ onLine line (.name escapeName)
        :: onLine line (.sign .openParen) :: (p.lexemes.map (onLine line)
          ++ [onLine line (.sign .closeParen), onLine line (.sign .semicolon)]) := by
  simp [Node.lines, tokensFrom, Line.lexemes]

theorem Node.tokens_raw (p : Path) (line : Nat) :
    tokensFrom line (Node.lines (.raw p))
      = writing.map (onLine line) ++ onLine line (.sign .openParen)
        :: (p.lexemes.map (onLine line)
          ++ [onLine line (.sign .closeParen), onLine line (.sign .semicolon)]) := by
  simp [Node.lines, tokensFrom, Line.lexemes]

/-- The `else` stands on the line behind the first part, the last brace on the line behind the
second. -/
theorem Node.tokens_branch (test : Path) (yes no : List (Node (List Char))) (line : Nat) :
    ∃ middle last, tokensFrom line (Node.lines (.branch test yes no))
      = onLine line (.name "if") :: onLine line (.sign .openParen)
        :: (test.lexemes.map (onLine line) ++ onLine line (.sign .closeParen)
          :: onLine line (.sign .openBrace) :: (tokensFrom (line + 1) (linesOf yes)
            ++ onLine middle (.sign .closeBrace) :: onLine middle (.name "else")
              :: onLine middle (.sign .openBrace) :: (tokensFrom (middle + 1) (linesOf no)
                ++ [onLine last (.sign .closeBrace)]))) := by
  refine ⟨line + 1 + (linesOf yes).length,
    line + 1 + (linesOf yes).length + 1 + (linesOf no).length, ?_⟩
  simp [Node.lines, tokensFrom, tokensFrom_append, Line.lexemes]

theorem Node.tokens_each (x : Variable) (source : Path) (body : List (Node (List Char)))
    (line : Nat) :
    ∃ last, tokensFrom line (Node.lines (.each x source body))
      = onLine line (.name "for") :: onLine line (.sign .openParen)
        :: onLine line (.name "const") :: onLine line (.name x.name) :: onLine line (.name "of")
        :: (source.lexemes.map (onLine line) ++ onLine line (.sign .closeParen)
          :: onLine line (.sign .openBrace) :: (tokensFrom (line + 1) (linesOf body)
            ++ [onLine last (.sign .closeBrace)])) := by
  refine ⟨line + 1 + (linesOf body).length, ?_⟩
  simp [Node.lines, tokensFrom, tokensFrom_append, Line.lexemes]

mutual

/-- The tokens of a node are read off as its statement. -/
theorem Node.gives_stmt (n : Node (List Char)) (line : Nat) (rest : List Token) :
    Gives statement (4 * (tokensFrom line n.lines).length) (tokensFrom line n.lines ++ rest) n.stmt
      rest := by
  match n with
  | .text cs =>
    have hvalue := gives_expression_text line (String.ofList cs) itemPower
      (endsOperand_semicolon line rest)
    exact (gives_statement_write line (by omega) hvalue).mono (by show 6 ≤ 16; omega)
  | .escaped p =>
    have hlength := p.length_lexemes
    have hvalue := gives_expression_call line p itemPower (endsOperand_semicolon line rest)
    have h := gives_statement_write line (by omega) hvalue
    rw [Node.tokens_escaped]
    simp only [writing, List.map_cons, List.map_nil, List.cons_append, List.append_assoc,
      List.nil_append, List.length_cons, List.length_append, List.length_map,
      List.length_nil] at h ⊢
    exact h.mono (by omega)
  | .raw p =>
    have hlength := p.length_lexemes
    have hvalue := gives_expression_paren line p itemPower (endsOperand_semicolon line rest)
    have h := gives_statement_write line (by omega) hvalue
    rw [Node.tokens_raw]
    simp only [writing, List.map_cons, List.map_nil, List.cons_append, List.append_assoc,
      List.nil_append, List.length_cons, List.length_append, List.length_map,
      List.length_nil] at h ⊢
    exact h.mono (by omega)
  | .branch test yes no =>
    obtain ⟨middle, last, htokens⟩ := Node.tokens_branch test yes no line
    have hyes := gives_statement_block line (gives_statements yes (line + 1) (Nat.le_refl 1)
      (gives_statements_close middle (onLine middle (.name "else")
        :: onLine middle (.sign .openBrace) :: (tokensFrom (middle + 1) (linesOf no)
          ++ onLine last (.sign .closeBrace) :: rest))))
    have hno := gives_statement_block middle (gives_statements no (middle + 1) (Nat.le_refl 1)
      (gives_statements_close last rest))
    rw [List.append_nil] at hyes hno
    have hneed : test.members.length + 3
        ≤ 4 * (2 * test.members.length + (tokensFrom (line + 1) (linesOf yes)).length
          + (tokensFrom (middle + 1) (linesOf no)).length) + 3 := by
      omega
    have h := gives_statement_branch line test hneed (hyes.mono (by omega)) (hno.mono (by omega))
    have hlength := test.length_lexemes
    rw [htokens]
    simp only [List.cons_append, List.append_assoc, List.nil_append, List.length_cons,
      List.length_append, List.length_map, List.length_nil]
    exact h.mono (by omega)
  | .each x source body =>
    obtain ⟨last, htokens⟩ := Node.tokens_each x source body line
    have hbody := gives_statement_block line (gives_statements body (line + 1) (Nat.le_refl 1)
      (gives_statements_close last rest))
    rw [List.append_nil] at hbody
    have hneed : source.members.length + 3
        ≤ 4 * (2 * source.members.length + (tokensFrom (line + 1) (linesOf body)).length) + 3 := by
      omega
    have h := gives_statement_each line x source hneed (hbody.mono (by omega))
    have hlength := source.length_lexemes
    rw [htokens]
    simp only [List.cons_append, List.append_assoc, List.nil_append, List.length_cons,
      List.length_append, List.length_map, List.length_nil]
    exact h.mono (by omega)

/-- The tokens of a tree are read off as its statements, in front of those that follow. -/
theorem gives_statements (ns : List (Node (List Char))) (line : Nat) {need : Nat}
    {rest rest' : List Token} {stmts : List Stmt} (hneed : 1 ≤ need)
    (h : Gives statements need rest stmts rest') :
    Gives statements (4 * (tokensFrom line (linesOf ns)).length + need)
      (tokensFrom line (linesOf ns) ++ rest) (stmtsOf ns ++ stmts) rest' := by
  match ns with
  | [] =>
    refine h.mono ?_
    omega
  | n :: ns =>
    have hlater := gives_statements ns (line + n.lines.length) hneed h
    have hfirst := n.gives_stmt line
      (tokensFrom (line + n.lines.length) (linesOf ns) ++ rest)
    obtain ⟨s, more, hmore⟩ := n.tokens_eq line
    rw [linesOf, tokensFrom_append, List.append_assoc, List.length_append]
    rw [hmore] at hfirst ⊢
    have hfirst' : Gives statement (4 * (more.length + 1)
        + (4 * (tokensFrom (line + n.lines.length) (linesOf ns)).length + need) - 1) _ _ _ :=
      hfirst.mono (by rw [List.length_cons]; omega)
    have h := gives_statements_cons hfirst' (hlater.mono (by omega))
    refine h.mono ?_
    rw [List.length_cons]
    omega

end

/-! ### The whole routine -/

/-- A name of the routine itself is read off. -/
theorem gives_expression_name (line : Nat) (s : String) {tokens : List Token} (least : Nat)
    (hunary : unary? (some (.name s)) = none) (hname : nameExpr s = .name s)
    (h : EndsOperand tokens) :
    Gives (expression · least) 3 (onLine line (.name s) :: tokens) (.name s) tokens := by
  have harrow : leads .arrow tokens = false := by
    obtain ⟨line, rest, rfl | rfl⟩ := h <;> rfl
  have hprimary := gives_primary_name line s harrow
  rw [hname] at hprimary
  have hoperand := gives_operand hunary rfl hprimary (gives_selections_end (.name s) h)
  exact gives_expression hoperand ((gives_continueWith_end least (.name s) h).mono (by omega))

/-- The declaration of the output is read off. -/
theorem gives_statement_output (line : Nat) (rest : List Token) :
    Gives statement 5
      (onLine line (.name "let") :: onLine line (.name outputName) :: onLine line (.sign .becomes)
        :: onLine line (.text "") :: onLine line (.sign .semicolon) :: rest)
      (.declare .variable [(outputName, some (.text ""))]) rest := by
  have hvalue := gives_expression_text line "" itemPower (endsOperand_semicolon line rest)
  have hdeclaration : Gives (declaration · .variable) 4
      (onLine line (.name outputName) :: onLine line (.sign .becomes) :: onLine line (.text "")
        :: onLine line (.sign .semicolon) :: rest)
      [(outputName, some (.text ""))] (onLine line (.sign .semicolon) :: rest) := by
    refine Gives.succ ?_
    intro bound hbound last
    have hmap : (some <$> expression bound itemPower)
        ⟨onLine line (.text "") :: onLine line (.sign .semicolon) :: rest, last⟩
        = .ok (some (.text ""), ⟨onLine line (.sign .semicolon) :: rest, last⟩) := by
      show (expression bound itemPower >>= fun e => pure (some e)) _ = _
      exact (bind_ok (hvalue bound hbound last)).trans rfl
    rw [declaration]
    refine (bind_ok rfl).trans ?_
    refine (bind_ok rfl).trans ?_
    show (some <$> expression bound itemPower >>= fun value => do
      if ← eat .comma then return (outputName, value) :: (← declaration bound .variable)
      else return [(outputName, value)]) _ = _
    exact (bind_ok hmap).trans rfl
  refine Gives.succ ?_
  intro bound hbound last
  rw [statement]
  refine (bind_ok rfl).trans ?_
  refine (bind_ok rfl).trans ?_
  refine (bind_ok rfl).trans ?_
  exact (bind_ok (hdeclaration bound hbound last)).trans rfl

/-- Giving back the output is read off. -/
theorem gives_statement_giveBack (line : Nat) (rest : List Token) :
    Gives statement 4
      (onLine line (.name "return") :: onLine line (.name outputName)
        :: onLine line (.sign .semicolon) :: rest)
      (.giveBack (some (.name outputName))) rest := by
  have hvalue := gives_expression_name line outputName 0 rfl rfl (endsOperand_semicolon line rest)
  refine Gives.succ ?_
  intro bound hbound last
  have hstart : statement (bound + 1) ⟨onLine line (.name "return")
        :: onLine line (.name outputName) :: onLine line (.sign .semicolon) :: rest, last⟩
      = (if (line != line) = true then do
            endStatement
            return .giveBack none
          else do
            let e ← expression bound 0
            endStatement
            return .giveBack (some e) : Parser Stmt)
        ⟨onLine line (.name outputName) :: onLine line (.sign .semicolon) :: rest, last⟩ := by
    rw [statement]
    rfl
  rw [hstart, bne_self_eq_false, if_neg Bool.false_ne_true]
  exact (bind_ok (hvalue bound hbound last)).trans rfl

/-- The data scope is read off. -/
theorem gives_statement_within {need : Nat} {tokens rest : List Token} {stmts : List Stmt}
    (hneed : 3 ≤ need) (h : Gives statements need tokens stmts rest) :
    Gives statement (need + 2)
      (onLine 1 (.name "with") :: onLine 1 (.sign .openParen) :: onLine 1 (.name dataName)
        :: onLine 1 (.sign .closeParen) :: onLine 1 (.sign .openBrace) :: tokens)
      (.within (.name dataName) false stmts) rest := by
  have hobject := gives_expression_name 1 dataName 0 rfl rfl
    (endsOperand_closeParen 1 (onLine 1 (.sign .openBrace) :: tokens))
  have hblock : Gives block (need + 1) (onLine 1 (.sign .openBrace) :: tokens) stmts rest := by
    refine Gives.succ ?_
    intro bound hbound last
    rw [block]
    exact (bind_ok rfl).trans (h bound hbound last)
  refine Gives.succ ?_
  intro bound hbound last
  have hstart : statement (bound + 1) ⟨onLine 1 (.name "with") :: onLine 1 (.sign .openParen)
        :: onLine 1 (.name dataName) :: onLine 1 (.sign .closeParen)
        :: onLine 1 (.sign .openBrace) :: tokens, last⟩
      = (expression bound 0 >>= fun object => do
          expect .closeParen
          return .within object false (← block bound))
        ⟨onLine 1 (.name dataName) :: onLine 1 (.sign .closeParen)
          :: onLine 1 (.sign .openBrace) :: tokens, last⟩ := by
    rw [statement]
    rfl
  rw [hstart]
  refine (bind_ok (hobject bound (by omega) last)).trans ?_
  refine (bind_ok rfl).trans ?_
  exact (bind_ok (hblock bound hbound last)).trans rfl

/-- In front of statements, the tokens are read off as more of them. -/
def GivesInFront (tokens : List Token) (stmts : List Stmt) : Prop :=
  ∀ {need : Nat} {after rest : List Token} {others : List Stmt}, 1 ≤ need →
    Gives statements need after others rest →
    Gives statements (4 * tokens.length + need) (tokens ++ after) (stmts ++ others) rest

/-- The tokens of a routine are its program if those behind its second line are read off as its
statements and the return of the output. -/
theorem parseTokens_inScope (params : List String) {tokens : List Token} {stmts : List Stmt}
    {need line : Nat} (hneed : need ≤ 8 * tokens.length + 64)
    (h : Gives statements need (tokens ++ closingTokens line)
      (stmts ++ [.giveBack (some (.name outputName))]) []) (last : Nat) :
    parseTokens params ⟨openingTokens ++ (tokens ++ closingTokens line), last⟩
      = .ok ⟨params, [.within (.name dataName) false
          (.declare .variable [(outputName, some (.text ""))]
            :: (stmts ++ [.giveBack (some (.name outputName))]))]⟩ := by
  have houtput := gives_statements_cons
    ((gives_statement_output 2 _).mono (Nat.le_add_left 5 need)) (h.mono (Nat.le_add_right need 5))
  have hwhole := gives_statement_within (by omega) houtput
  generalize hall : openingTokens ++ (tokens ++ closingTokens line) = all
  have hlength : all.length = tokens.length + 14 := by
    simp only [← hall, openingTokens, closingTokens, List.length_append, List.length_map,
      List.length_cons, List.length_nil]
    omega
  obtain ⟨bound, hbound⟩ : ∃ b, callBound all.length = b + 2 :=
    ⟨callBound all.length - 2, by unfold callBound; omega⟩
  have hstatement := hwhole (bound + 1) (by unfold callBound at hbound; omega) last
  have htop : topStatements (bound + 2) ⟨all, last⟩
      = .ok ([.within (.name dataName) false (.declare .variable [(outputName, some (.text ""))]
          :: (stmts ++ [.giveBack (some (.name outputName))]))], ⟨[], last⟩) := by
    rw [← hall, topStatements]
    refine (bind_ok rfl).trans ?_
    exact (bind_ok hstatement).trans rfl
  rw [parseTokens]
  rw [hbound]
  show (topStatements (bound + 2) _).map _ = _
  rw [htop]
  rfl

/-- The last two lines of a routine are read off. -/
theorem gives_statements_closing (line : Nat) :
    Gives statements 5 (closingTokens line) [.giveBack (some (.name outputName))] [] :=
  gives_statements_cons ((gives_statement_giveBack line _).mono (Nat.le_refl 4))
    ((gives_statements_close (line + 1) []).mono (by omega))

/-- The tokens of a routine are its program if those between the first and the last lines are read
off as its statements. -/
theorem parseTokens_routine (params : List String) {tokens : List Token} {stmts : List Stmt}
    (h : GivesInFront tokens stmts) (line last : Nat) :
    parseTokens params ⟨openingTokens ++ (tokens ++ closingTokens line), last⟩
      = .ok ⟨params, [.within (.name dataName) false
          (.declare .variable [(outputName, some (.text ""))]
            :: (stmts ++ [.giveBack (some (.name outputName))]))]⟩ :=
  parseTokens_inScope params (by omega) (h (by omega) (gives_statements_closing line)) last

/-- The tokens of the routine of a tree are its program. -/
theorem parse_routineTokens (params : List String) (ns : List (Node (List Char))) (last : Nat) :
    parseTokens params ⟨routineTokens (linesOf ns), last⟩ = .ok ⟨params, bodyOf ns⟩ :=
  parseTokens_routine params (gives_statements ns 3) (3 + (linesOf ns).length) last

/-- The routine of a printed tree is parsed into the program of the tree. -/
theorem parse_source (params : List String) (ns : List (Node TextRun)) :
    parseProgram params (inDataScope (generate (tokenize (print ns))))
      = .ok ⟨params, bodyOf (mergeNodes [] ns)⟩ := by
  obtain ⟨last, hlex⟩ := lex_source ns
  rw [parseProgram]
  rw [hlex]
  exact parse_routineTokens params (mergeNodes [] ns) last

/-! ### Numbering -/

/-- No function is written in a path, so there is nothing to number. -/
theorem Path.numbered_expr (p : Path) (count : Nat) : p.expr.numbered count = (p.expr, count) := by
  have hmembers (members : List Identifier) (e : Expr) (he : e.numbered count = (e, count)) :
      (members.foldl (fun e m => Expr.member e m.name false) e).numbered count
        = (members.foldl (fun e m => Expr.member e m.name false) e, count) := by
    induction members generalizing e with
    | nil => exact he
    | cons m members ih =>
      refine ih (.member e m.name false) ?_
      rw [Expr.numbered]
      show (Expr.member (e.numbered count).1 m.name false, (e.numbered count).2) = _
      rw [he]
  exact hmembers p.members _ rfl

mutual

theorem Node.numbered_stmt (n : Node (List Char)) (count : Nat) :
    n.stmt.numbered count = (n.stmt, count) := by
  match n with
  | .text cs => rfl
  | .escaped p =>
    show (writeStmt (.call (.name escapeName) [(p.expr.numbered count).1] false),
      (p.expr.numbered count).2) = _
    rw [p.numbered_expr]
    rfl
  | .raw p =>
    show (writeStmt (p.expr.numbered count).1, (p.expr.numbered count).2) = _
    rw [p.numbered_expr]
    rfl
  | .branch test yes no =>
    have hblocks :
        (Stmt.branch test.expr (.block (stmtsOf yes)) (some (.block (stmtsOf no)))).numbered count
        = (.branch test.expr (.block (stmtsOf yes)) (some (.block (stmtsOf no))), count) := by
      show (let t := test.expr.numbered count
        let y := numberedStmts (stmtsOf yes) t.2
        let n := numberedStmts (stmtsOf no) y.2
        (Stmt.branch t.1 (.block y.1) (some (.block n.1)), n.2)) = _
      rw [test.numbered_expr]
      have hyes := numbered_stmtsOf yes [] count rfl
      have hno := numbered_stmtsOf no [] count rfl
      rw [List.append_nil] at hyes hno
      dsimp only
      rw [hyes, hno]
    exact hblocks
  | .each x source body =>
    have hblock : (Stmt.each .items (some .constant) x.name source.expr
        (.block (stmtsOf body))).numbered count
        = (.each .items (some .constant) x.name source.expr (.block (stmtsOf body)), count) := by
      show (let v := source.expr.numbered count
        let b := numberedStmts (stmtsOf body) v.2
        (Stmt.each .items (some .constant) x.name v.1 (.block b.1), b.2)) = _
      rw [source.numbered_expr]
      have hbody := numbered_stmtsOf body [] count rfl
      rw [List.append_nil] at hbody
      dsimp only
      rw [hbody]
    exact hblock

/-- No function is written in a tree, so there is nothing to number. -/
theorem numbered_stmtsOf (ns : List (Node (List Char))) (rest : List Stmt) (count : Nat)
    (h : numberedStmts rest count = (rest, count)) :
    numberedStmts (stmtsOf ns ++ rest) count = (stmtsOf ns ++ rest, count) := by
  match ns with
  | [] => exact h
  | n :: ns =>
    show (let first := n.stmt.numbered count
      let others := numberedStmts (stmtsOf ns ++ rest) first.2
      (first.1 :: others.1, others.2)) = _
    rw [n.numbered_stmt]
    dsimp only
    rw [numbered_stmtsOf ns rest count h]
    rfl

end

/-- Numbering leaves a routine as it is whose statements it leaves as they are. -/
theorem numbered_routine (params : List String) {stmts : List Stmt}
    (h : ∀ rest count, numberedStmts rest count = (rest, count) →
      numberedStmts (stmts ++ rest) count = (stmts ++ rest, count)) :
    Program.numbered ⟨params, [.within (.name dataName) false
        (.declare .variable [(outputName, some (.text ""))]
          :: (stmts ++ [.giveBack (some (.name outputName))]))]⟩
      = ⟨params, [.within (.name dataName) false
          (.declare .variable [(outputName, some (.text ""))]
            :: (stmts ++ [.giveBack (some (.name outputName))]))]⟩ := by
  have hstmts := h [.giveBack (some (.name outputName))] 0 rfl
  show (⟨params, [.within (.name dataName) false (.declare .variable [(outputName, some (.text ""))]
    :: (numberedStmts (stmts ++ [.giveBack (some (.name outputName))]) 0).1)]⟩ : Program) = _
  rw [hstmts]

/-- Numbering leaves the program of a tree as it is. -/
theorem numbered_bodyOf (params : List String) (ns : List (Node (List Char))) :
    Program.numbered ⟨params, bodyOf ns⟩ = ⟨params, bodyOf ns⟩ :=
  numbered_routine params fun rest count h => numbered_stmtsOf ns rest count h

end Stencil.Reading
