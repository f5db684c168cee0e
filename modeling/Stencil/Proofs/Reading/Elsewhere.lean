import Stencil.Proofs.Reading.Relocation

/-!
# The functions of the parser elsewhere

Each function of the parser reads a stretch of tokens on every spot as it reads it by itself.  Where
a function looks ahead for the end of a bracket, the tokens that it takes close that bracket, so it
sees the same wherever they stand.

* `closesBefore_put` — looking ahead on a spot;
* `Carried` — every function of the parser carries its results to a spot, whatever its bound there;
* `carried` — the main theorem.
-/

namespace Stencil.Reading

open Routine Routine.Parser Template Spot

variable {s : Spot}

/-! ### Looking ahead -/

/-- Where the search for a bracket ends in a stretch, it ends there on the spot. -/
theorem afterClosing_put {tokens rest : List Token} {depth : Nat}
    (h : afterClosing depth tokens = some rest) :
    afterClosing depth (s.put tokens) = some (s.put rest) := by
  induction tokens generalizing depth with
  | nil => cases h
  | cons token tokens ih =>
    obtain ⟨lexeme, line⟩ := token
    rw [put_cons]
    cases lexeme with
    | number x => exact ih h
    | text t => exact ih h
    | name word => exact ih h
    | sign p =>
      rw [Token.down]
      by_cases hp : p.opens = true
      · rw [afterClosing_open hp] at h ⊢
        exact ih h
      · by_cases hq : p.closes = true
        · rw [afterClosing_close hq] at h ⊢
          split at h
          · rename_i hone
            cases h
            rw [if_pos hone]
          · rename_i hone
            rw [if_neg hone]
            exact ih h
        · simp only [afterClosing, if_neg hp, if_neg hq] at h ⊢
          exact ih h

/-- What the parser sees behind a bracket, it sees on the spot, if the bracket closes within the
stretch whenever the parser sees nothing. -/
theorem closesBefore_put {p sought : Punctuator} {line : Nat} {tokens : List Token}
    (hp : p.opens = true) (hsought : sought ≠ .closeParen)
    (h : closesBefore sought (⟨.sign p, line⟩ :: tokens) = false →
      ∃ taken rest, tokens = taken ++ rest ∧ Closing 1 taken) :
    closesBefore sought (s.put (⟨.sign p, line⟩ :: tokens))
      = closesBefore sought (⟨.sign p, line⟩ :: tokens) := by
  -- Where the search ends in the stretch, there is something behind it on both sides or on none.
  have hends {r : List Token} (hr : afterClosing 1 tokens = some r) :
      closesBefore sought (s.put (⟨.sign p, line⟩ :: tokens))
        = closesBefore sought (⟨.sign p, line⟩ :: tokens) := by
    have hown : afterClosing 0 (⟨.sign p, line⟩ :: tokens) = some r := by
      rw [afterClosing_open hp]
      exact hr
    rw [closesBefore, closesBefore, afterClosing_put hown, hown]
    cases r with
    | nil => exact s.not_leads hsought
    | cons token r => rfl
  cases hclosing : closesBefore sought (⟨.sign p, line⟩ :: tokens) with
  | false =>
    obtain ⟨taken, rest, rfl, htaken⟩ := h hclosing
    obtain ⟨r, hr⟩ := htaken.finds
    rw [← hclosing]
    exact hends (hr rest)
  | true =>
    have hsome := hclosing
    rw [closesBefore, afterClosing_open hp] at hsome
    cases hr : afterClosing 1 tokens with
    | none =>
      rw [hr] at hsome
      cases hsome
    | some r =>
      rw [← hclosing]
      exact hends hr

/-! ### Where nothing is left -/

theorem primary_nil (bound last : Nat) : ∃ e, primary bound ⟨[], last⟩ = .error e := by
  cases bound with
  | zero => exact ⟨_, rfl⟩
  | succ bound =>
    rw [primary]
    exact ⟨_, rfl⟩

theorem operand_nil (bound last : Nat) : ∃ e, operand bound ⟨[], last⟩ = .error e := by
  cases bound with
  | zero => exact ⟨_, rfl⟩
  | succ bound =>
    obtain ⟨e, he⟩ := primary_nil bound last
    rw [operand]
    exact ⟨e, (bind_ok rfl).trans (error_bind he)⟩

theorem expression_nil (bound least last : Nat) :
    ∃ e, expression bound least ⟨[], last⟩ = .error e := by
  cases bound with
  | zero => exact ⟨_, rfl⟩
  | succ bound =>
    obtain ⟨e, he⟩ := operand_nil bound last
    rw [expression]
    exact ⟨e, error_bind he⟩

theorem objectMember_nil (bound last : Nat) : ∃ e, objectMember bound ⟨[], last⟩ = .error e := by
  cases bound with
  | zero => exact ⟨_, rfl⟩
  | succ bound =>
    rw [objectMember]
    exact ⟨_, rfl⟩

theorem statements_nil (bound last : Nat) : ∃ e, statements bound ⟨[], last⟩ = .error e := by
  cases bound with
  | zero => exact ⟨_, rfl⟩
  | succ bound =>
    rw [statements]
    exact ⟨_, rfl⟩

theorem statement_nil (bound last : Nat) : ∃ e, statement bound ⟨[], last⟩ = .error e := by
  cases bound with
  | zero => exact ⟨_, rfl⟩
  | succ bound =>
    obtain ⟨e, he⟩ := expression_nil bound 0 last
    have hstart : statement (bound + 1) ⟨[], last⟩
        = (expression bound 0 >>= fun e => do
            endStatement
            return .expr e) ⟨[], last⟩ := by
      rw [statement]
      rfl
    exact ⟨e, hstart.trans (error_bind he)⟩

/-- The word of a declaration is no bracket. -/
theorem steps_declKind? {x : Lexeme} {kind : DeclKind} (h : declKind? (some x) = some kind)
    (n : Nat) : Carries.Steps x n n := by
  refine Carries.steps_plain n ?_
  rintro p rfl
  cases h

/-! ### The heads of loops -/

/-- The name and the word in front of a loop over items or keys. -/
def eachHead? (tokens : List Token) : Option (String × String) :=
  match tokens with
  | ⟨.name name, _⟩ :: ⟨.name word, _⟩ :: _ =>
    if word == "of" || word == "in" then some (name, word) else none
  | _ => none

/-- The kind of variable that a loop declares, and the name and the word behind it if it is a loop
over items or keys. -/
def loopHead (tokens : List Token) : Option DeclKind × Option (String × String) :=
  let kind := declKind? (tokens.head?.map Token.lexeme)
  (kind, eachHead? (if kind.isSome then tokens.drop 1 else tokens))

/-- A loop whose head was seen. -/
def loopFrom (bound : Nat) : Option DeclKind × Option (String × String) → Parser Stmt
  | (kind, some (name, word)) => do
    if kind.isSome then advance
    advance
    advance
    let source ← expression bound 0
    expect .closeParen
    let head := if word == "of" then EachHead.items else EachHead.keys
    return .each head kind name source (← statement bound)
  | (kind, none) => countedLoop bound kind

theorem forLoop_eq (bound : Nat) :
    forLoop (bound + 1)
      = (expect .openParen >>= fun _ => get >>= fun i => loopFrom bound (loopHead i.rest)) := by
  rw [forLoop]
  congr 1
  funext _
  funext i
  show (match (if (declKind? (i.rest.head?.map Token.lexeme)).isSome = true then i.rest.drop 1
      else i.rest) with
    | ⟨.name name, _⟩ :: ⟨.name word, _⟩ :: _ => _
    | _ => _ : Parser Stmt) i = loopFrom bound (loopHead i.rest) i
  simp only [loopHead]
  generalize (if (declKind? (i.rest.head?.map Token.lexeme)).isSome = true then i.rest.drop 1
    else i.rest) = tokens
  rw [eachHead?.eq_def]
  split
  · split
    · rfl
    · rfl
  · rfl
theorem eq_of_eachHead? {tokens : List Token} {name word : String}
    (h : eachHead? tokens = some (name, word)) :
    ∃ line line' rest, tokens = ⟨.name name, line⟩ :: ⟨.name word, line'⟩ :: rest := by
  rw [eachHead?.eq_def] at h
  split at h
  · split at h
    · cases h
      exact ⟨_, _, _, rfl⟩
    · cases h
  · cases h

theorem eachHead?_put {tokens : List Token} (h : tokens ≠ []) :
    eachHead? (s.put tokens) = eachHead? tokens := by
  match tokens with
  | [] => exact absurd rfl h
  | [⟨x, line⟩] =>
    -- What follows is no word of such a loop.
    obtain ⟨shift, ⟨next, nextLine⟩, others, hends⟩ := s
    have hnone : eachHead? [⟨x, line⟩] = none := by cases x <;> rfl
    rw [hnone]
    show eachHead? (⟨x, line + shift⟩ :: ⟨next, nextLine⟩ :: others) = none
    rcases hends with hnext | hnext | hnext <;> cases hnext <;> cases x <;> rfl
  | ⟨x, line⟩ :: ⟨y, line'⟩ :: rest => cases x <;> cases y <;> rfl

/-- The head of a loop is the same on the spot, unless too little of it is there. -/
theorem loopHead_put (tokens : List Token) :
    tokens = [] ∨ (∃ token kind, tokens = [token] ∧ declKind? (some token.lexeme) = some kind)
      ∨ loopHead (s.put tokens) = loopHead tokens := by
  cases tokens with
  | nil => exact .inl rfl
  | cons token rest =>
    refine .inr ?_
    have hkind : declKind? ((s.put (token :: rest)).head?.map Token.lexeme)
        = declKind? (some token.lexeme) := rfl
    have hown : declKind? ((token :: rest).head?.map Token.lexeme)
        = declKind? (some token.lexeme) := rfl
    cases hdecl : declKind? (some token.lexeme) with
    | none =>
      right
      rw [loopHead, loopHead, hkind, hown, hdecl]
      exact congrArg (none, ·) (eachHead?_put (List.cons_ne_nil _ _))
    | some kind =>
      cases rest with
      | nil => exact .inl ⟨token, kind, rfl, hdecl⟩
      | cons other rest =>
        right
        rw [loopHead, loopHead, hkind, hown, hdecl]
        exact congrArg (some kind, ·) (eachHead?_put (List.cons_ne_nil _ _))

/-- A loop of which there is nothing but a word has no result. -/
theorem countedLoop_short {tokens : List Token} {kind : Option DeclKind}
    (h : tokens = [] ∧ kind = none ∨ ∃ token, tokens = [token] ∧ kind.isSome = true)
    (hhead : leads .semicolon tokens = false) (bound last : Nat) :
    ∃ e, countedLoop bound kind ⟨tokens, last⟩ = .error e := by
  cases bound with
  | zero => exact ⟨_, rfl⟩
  | succ bound =>
    have hnone : ¬ leads .semicolon tokens = true := Bool.eq_false_iff.mp hhead
    rw [countedLoop, bind_ok (at?_eq .semicolon tokens last), if_neg hnone]
    rcases h with ⟨rfl, rfl⟩ | ⟨token, rfl, hkind⟩
    · obtain ⟨e, he⟩ := expression_nil bound 0 last
      exact ⟨e, error_bind he⟩
    · cases kind with
      | none => cases hkind
      | some kind =>
        have hdeclaration : ∃ e, declaration bound kind ⟨[], last⟩ = .error e := by
          cases bound with
          | zero => exact ⟨_, rfl⟩
          | succ bound =>
            rw [declaration]
            exact ⟨_, rfl⟩
        obtain ⟨e, he⟩ := hdeclaration
        exact ⟨e, (bind_ok rfl).trans (error_bind he)⟩

/-! ### Lists -/

/-- A list of items that have no result where nothing is left. -/
theorem Carries.commaList {α : Type} {item item' : Parser α} {close : Punctuator}
    (hclose : close.closes = true) (hitem : ∀ tokens, s.Carries True 0 item item' tokens)
    (hnil : ∀ last, ∃ e, item ⟨[], last⟩ = .error e) {bound bound' : Nat} (hbound : bound ≤ bound')
    (tokens : List Token) :
    s.Carries True 1 (Parser.commaList item close bound) (Parser.commaList item' close bound')
      tokens := by
  have hsteps : Carries.Steps (.sign close) 1 0 := Carries.steps_close hclose 0
  induction bound generalizing bound' tokens with
  | zero => exact Carries.of_error fun _ => ⟨_, rfl⟩
  | succ bound ih =>
    obtain ⟨bound', rfl⟩ : ∃ b, bound' = b + 1 := ⟨bound' - 1, by omega⟩
    rw [Parser.commaList, Parser.commaList]
    cases tokens with
    | nil =>
      refine Carries.of_error fun last => ?_
      obtain ⟨e, he⟩ := hnil last
      exact ⟨e, (bind_ok rfl).trans (error_bind he)⟩
    | cons token tokens =>
      refine Carries.at? (by rintro ⟨⟩) ?_
      cases hleads : leads close (token :: tokens) with
      | true =>
        obtain ⟨line, rest, hrest⟩ := Carries.eq_cons_of_leads hleads
        rw [hrest]
        exact Carries.advance_cons hsteps (.pure [])
      | false =>
        refine (hitem _).bind (Nat.zero_add 1) fun a rest => ?_
        refine Carries.eat (by decide)
          (Carries.steps_sign .comma 1 rfl rfl) (fun rest => ?_) ?_
        · exact (ih (Nat.le_of_succ_le_succ hbound) rest).result
        · exact Carries.expect hsteps fun _ => .pure [a]

/-! ### The functions -/

/-- Every function of the parser carries its results to the spot, whatever its bound is there, if it
is no smaller. -/
structure Carried (s : Spot) (bound : Nat) : Prop where
  expression (bound' : Nat) (h : bound ≤ bound') (least : Nat) (tokens : List Token) :
    s.Carries True 0 (expression bound least) (expression bound' least) tokens
  continueWith (bound' : Nat) (h : bound ≤ bound') (least : Nat) (left : Expr)
    (tokens : List Token) :
    s.Carries True 0 (continueWith bound least left) (continueWith bound' least left) tokens
  operand (bound' : Nat) (h : bound ≤ bound') (tokens : List Token) :
    s.Carries True 0 (operand bound) (operand bound') tokens
  selections (bound' : Nat) (h : bound ≤ bound') (e : Expr) (tokens : List Token) :
    s.Carries True 0 (selections bound e) (selections bound' e) tokens
  primary (bound' : Nat) (h : bound ≤ bound') (tokens : List Token) :
    s.Carries True 0 (primary bound) (primary bound') tokens
  objectMember (bound' : Nat) (h : bound ≤ bound') (tokens : List Token) :
    s.Carries True 0 (objectMember bound) (objectMember bound') tokens
  functionBody (bound' : Nat) (h : bound ≤ bound') (params : List String) (tokens : List Token) :
    s.Carries True 0 (functionBody bound params) (functionBody bound' params) tokens
  block (bound' : Nat) (h : bound ≤ bound') (tokens : List Token) :
    s.Carries True 0 (block bound) (block bound') tokens
  statements (bound' : Nat) (h : bound ≤ bound') (tokens : List Token) :
    s.Carries True 1 (statements bound) (statements bound') tokens
  statement (bound' : Nat) (h : bound ≤ bound') (tokens : List Token) :
    s.Carries s.Apart 0 (statement bound) (statement bound') tokens
  declaration (bound' : Nat) (h : bound ≤ bound') (kind : DeclKind) (tokens : List Token) :
    s.Carries True 0 (declaration bound kind) (declaration bound' kind) tokens
  forLoop (bound' : Nat) (h : bound ≤ bound') (tokens : List Token) :
    s.Carries s.Apart 0 (forLoop bound) (forLoop bound') tokens
  countedLoop (bound' : Nat) (h : bound ≤ bound') (kind : Option DeclKind)
    (tokens : List Token) (hkind : declKind? (tokens.head?.map Token.lexeme) = kind) :
    s.Carries s.Apart 1 (countedLoop bound kind) (countedLoop bound' kind) tokens

namespace Carried

variable {bound bound' : Nat} (ih : Carried s bound) (h : bound ≤ bound')
include ih h

theorem expression_succ (least : Nat) (tokens : List Token) :
    s.Carries True 0 (Routine.expression (bound + 1) least)
      (Routine.expression (bound' + 1) least) tokens := by
  rw [Routine.expression, Routine.expression]
  exact (ih.operand bound' h tokens).bind rfl fun left rest =>
    ih.continueWith bound' h least left rest

theorem continueWith_succ (least : Nat) (left : Expr) (tokens : List Token) :
    s.Carries True 0 (Routine.continueWith (bound + 1) least left)
      (Routine.continueWith (bound' + 1) least left) tokens := by
  rw [Routine.continueWith, Routine.continueWith]
  -- What follows once the sign was taken.
  have hright (power : Nat) (rest : List Token) : s.Carries True 0
      (Routine.expression bound power) (Routine.expression bound' power) rest :=
    ih.expression bound' h power rest
  have hgoOn (next : Expr) (rest : List Token) : s.Carries True 0
      (Routine.continueWith bound least next) (Routine.continueWith bound' least next) rest :=
    ih.continueWith bound' h least next rest
  cases tokens with
  | nil =>
    refine Carries.peek_nil rfl ?_
    rcases s.ends with hx | hx | hx <;> rw [hx] <;> rfl
  | cons token tokens =>
    obtain ⟨x, line⟩ := token
    refine Carries.peek_cons ?_
    cases hjoint : joint? (some x) with
    | none => exact .pure left
    | some found =>
      obtain ⟨power, joint⟩ := found
      dsimp only
      split
      · exact .pure left
      · refine Carries.advance_cons (Carries.steps_plain 0 ?_) ?_
        · rintro p rfl
          have hsign : jointOf? p = some (power, joint) := hjoint
          revert hsign
          cases p <;> simp [jointOf?, Punctuator.opens, Punctuator.closes]
        · cases joint with
          | assign op =>
            dsimp only
            split
            · exact (hright power.right tokens).bind (Nat.add_zero 0) fun value rest => hgoOn _ rest
            · exact Carries.of_error fun _ => ⟨_, rfl⟩
          | conditional =>
            refine (hright itemPower tokens).bind (Nat.add_zero 0) fun yes rest => ?_
            refine Carries.expect (Carries.steps_sign .colon 0 rfl rfl) fun rest => ?_
            exact (hright power.right rest).bind rfl fun no rest => hgoOn _ rest
          | logical op => exact (hright power.right tokens).bind rfl fun right rest => hgoOn _ rest
          | binary op => exact (hright power.right tokens).bind rfl fun right rest => hgoOn _ rest

theorem operand_succ (tokens : List Token) :
    s.Carries True 0 (Routine.operand (bound + 1)) (Routine.operand (bound' + 1)) tokens := by
  cases tokens with
  | nil => exact Carries.of_error fun last => operand_nil (bound + 1) last
  | cons token tokens =>
    obtain ⟨x, line⟩ := token
    -- The sign or word in front of an operand is no bracket.
    have hplain (hx : unary? (some x) ≠ none ∨ counts? (some x) ≠ none) : Carries.Steps x 0 0 := by
      refine Carries.steps_plain 0 ?_
      rintro p rfl
      revert hx
      cases p <;> simp [unary?, counts?, Punctuator.opens, Punctuator.closes]
    have hinner : s.Carries True 0 (Routine.expression bound operandPower)
        (Routine.expression bound' operandPower) tokens :=
      ih.expression bound' h operandPower tokens
    rw [Routine.operand, Routine.operand]
    refine Carries.peek_cons ?_
    cases hunary : unary? (some x) with
    | some op =>
      exact Carries.advance_cons (hplain (.inl (by rw [hunary]; exact Option.some_ne_none _))) hinner.result
    | none =>
      cases hcounts : counts? (some x) with
      | some up =>
        exact Carries.advance_cons (hplain (.inr (by rw [hcounts]; exact Option.some_ne_none _))) hinner.result
      | none =>
        exact (ih.primary bound' h _).bind rfl fun e rest => ih.selections bound' h e rest

theorem selections_succ (e : Expr) (tokens : List Token) :
    s.Carries True 0 (Routine.selections (bound + 1) e) (Routine.selections (bound' + 1) e)
      tokens := by
  have hgoOn (e : Expr) (rest : List Token) : s.Carries True 0 (Routine.selections bound e)
      (Routine.selections bound' e) rest := ih.selections bound' h e rest
  have hmember (optional : Bool) (rest : List Token) : s.Carries True 0
      (expectName >>= fun property => Routine.selections bound (.member e property optional))
      (expectName >>= fun property => Routine.selections bound' (.member e property optional))
      rest :=
    (Carries.expectName rest).bind rfl fun property rest => hgoOn _ rest
  have hindex (optional : Bool) (rest : List Token) : s.Carries True 1
      (Routine.expression bound 0 >>= fun key => expect .closeBracket >>= fun _ =>
        Routine.selections bound (.index e key optional))
      (Routine.expression bound' 0 >>= fun key => expect .closeBracket >>= fun _ =>
        Routine.selections bound' (.index e key optional)) rest :=
    (ih.expression bound' h 0 rest).bind (Nat.zero_add 1) fun key rest =>
      Carries.expect (Carries.steps_close rfl 0) fun rest => hgoOn _ rest
  have hcall (optional : Bool) (rest : List Token) : s.Carries True 1
      (commaList (Routine.expression bound itemPower) .closeParen bound >>= fun args =>
        Routine.selections bound (.call e args optional))
      (commaList (Routine.expression bound' itemPower) .closeParen bound' >>= fun args =>
        Routine.selections bound' (.call e args optional)) rest :=
    (Carries.commaList rfl (fun rest => ih.expression bound' h itemPower rest)
      (fun last => expression_nil bound itemPower last) h rest).bind rfl fun args rest =>
        hgoOn _ rest
  rw [Routine.selections, Routine.selections]
  cases tokens with
  | nil =>
    refine Carries.peek_nil rfl ?_
    rcases s.ends with hx | hx | hx <;> rw [hx] <;> rfl
  | cons token tokens =>
    obtain ⟨x, line⟩ := token
    refine Carries.peek_cons ?_
    have hcount (up : Bool) (hp : Carries.Steps x 0 0) : s.Carries True 0
        (if e.isTarget = true then advance >>= fun _ =>
            Routine.selections bound (.update up false e)
          else Pure.pure e : Parser Expr)
        (if e.isTarget = true then advance >>= fun _ =>
            Routine.selections bound' (.update up false e)
          else Pure.pure e : Parser Expr) (⟨x, line⟩ :: tokens) := by
      split
      · exact Carries.advance_cons hp (hgoOn _ tokens)
      · exact .pure e
    cases x with
    | number x => exact .pure e
    | text t => exact .pure e
    | name word => exact .pure e
    | sign p =>
      cases p with
      | dot => exact Carries.advance_cons (Carries.steps_sign .dot 0 rfl rfl) (hmember false tokens)
      | optionalDot =>
        refine Carries.advance_cons (Carries.steps_sign .optionalDot 0 rfl rfl) ?_
        refine Carries.eat (by decide) (Carries.steps_open rfl 0)
          (fun rest => hcall true rest) ?_
        exact Carries.eat (by decide) (Carries.steps_open rfl 0)
          (fun rest => hindex true rest) (hmember true tokens)
      | openBracket => exact Carries.advance_cons (Carries.steps_open rfl 0) (hindex false tokens)
      | openParen => exact Carries.advance_cons (Carries.steps_open rfl 0) (hcall false tokens)
      | increment => exact hcount true (Carries.steps_sign .increment 0 rfl rfl)
      | decrement => exact hcount false (Carries.steps_sign .decrement 0 rfl rfl)
      | _ => exact .pure e

theorem primary_succ (tokens : List Token) :
    s.Carries True 0 (Routine.primary (bound + 1)) (Routine.primary (bound' + 1)) tokens := by
  have hlist {close : Punctuator} (hclose : close.closes = true) (rest : List Token) :
      s.Carries True 1 (commaList (Routine.expression bound itemPower) close bound)
        (commaList (Routine.expression bound' itemPower) close bound') rest :=
    Carries.commaList hclose (fun rest => ih.expression bound' h itemPower rest)
      (fun last => expression_nil bound itemPower last) h rest
  cases tokens with
  | nil => exact Carries.of_error fun last => primary_nil (bound + 1) last
  | cons token tokens =>
    obtain ⟨x, line⟩ := token
    rw [Routine.primary, Routine.primary]
    refine Carries.peek_cons ?_
    cases x with
    | number x => exact Carries.advance_cons (Carries.steps_plain 0 (by rintro _ ⟨⟩)) (.pure _)
    | text t => exact Carries.advance_cons (Carries.steps_plain 0 (by rintro _ ⟨⟩)) (.pure _)
    | name word =>
      have hname : Carries.Steps (.name word) 0 0 := Carries.steps_name word 0
      refine Carries.look (F := fun tokens => leads .arrow (tokens.drop 1)) (fun harrow => ?_)
        (fun _ => ?_) ?_
      · have harrow : leads .arrow tokens = true := harrow
        obtain ⟨line', rest, hrest⟩ := Carries.eq_cons_of_leads harrow
        rw [hrest]
        exact Carries.advance_cons hname (Carries.advance_cons
          (Carries.steps_sign .arrow 0 rfl rfl) (ih.functionBody bound' h [word] rest))
      · exact Carries.advance_cons hname (.pure _)
      · intro last rest e _ hown _
        cases tokens with
        | nil =>
          -- Nothing is left behind the name, so what follows must not be an arrow.
          have hown : (Except.ok (nameExpr word, ⟨[], last⟩) : Except Stop (Expr × Input))
              = .ok (e, ⟨rest, last⟩) := hown
          cases hown
          exact s.not_leads (by decide)
        | cons token tokens => rfl
    | sign p =>
      cases p with
      | openParen =>
        have hparams : s.Carries True 1
            (commaList expectName .closeParen bound >>= fun params => expect .arrow >>= fun _ =>
              Routine.functionBody bound params)
            (commaList expectName .closeParen bound' >>= fun params => expect .arrow >>= fun _ =>
              Routine.functionBody bound' params) tokens :=
          (Carries.commaList rfl Carries.expectName (fun _ => ⟨_, rfl⟩) h tokens).bind rfl
            fun params rest => Carries.expect (Carries.steps_sign .arrow 0 rfl rfl) fun rest =>
              ih.functionBody bound' h params rest
        have hgroup : s.Carries True 1
            (Routine.expression bound 0 >>= fun e => expect .closeParen >>= fun _ => Pure.pure e)
            (Routine.expression bound' 0 >>= fun e => expect .closeParen >>= fun _ => Pure.pure e)
            tokens :=
          (ih.expression bound' h 0 tokens).bind (Nat.zero_add 1) fun e rest =>
            Carries.expect (Carries.steps_close rfl 0) fun rest => .pure e
        have hopen : Carries.Steps (.sign .openParen) 0 1 := Carries.steps_open rfl 0
        refine Carries.look (fun _ => Carries.advance_cons hopen hparams)
          (fun _ => Carries.advance_cons hopen hgroup) ?_
        intro last rest e hholds hown _
        refine closesBefore_put rfl (by decide) fun harrow => ?_
        -- Without an arrow, the parenthesis closes within what is taken.
        rw [if_neg (Bool.eq_false_iff.mp harrow)] at hown
        obtain ⟨taken, rest', htokens, hafter, hclosing, -⟩ := hgroup hholds.tail last e _ hown
        cases hafter
        exact ⟨taken, rest, htokens, hclosing⟩
      | openBracket =>
        exact Carries.advance_cons (Carries.steps_open rfl 0) (hlist rfl tokens).result
      | openBrace =>
        refine Carries.advance_cons (Carries.steps_open rfl 0) ?_
        exact (Carries.commaList rfl (fun rest => ih.objectMember bound' h rest)
          (fun last => objectMember_nil bound last) h tokens).result
      | _ => exact Carries.unexpected _

theorem objectMember_succ (tokens : List Token) :
    s.Carries True 0 (Routine.objectMember (bound + 1)) (Routine.objectMember (bound' + 1))
      tokens := by
  cases tokens with
  | nil => exact Carries.of_error fun last => objectMember_nil (bound + 1) last
  | cons token tokens =>
    obtain ⟨x, line⟩ := token
    rw [Routine.objectMember, Routine.objectMember]
    refine Carries.peek_cons ?_
    rw [Option.bind_some]
    cases hname : memberName? x with
    | none => exact Carries.fault _
    | some name =>
      refine Carries.advance_cons (Carries.steps_plain 0 ?_) ?_
      · rintro p rfl
        cases hname
      · refine Carries.eat (by decide)
          (Carries.steps_sign .colon 0 rfl rfl) (fun rest => ?_) (.pure _)
        exact (ih.expression bound' h itemPower rest).result

theorem functionBody_succ (params : List String) (tokens : List Token) :
    s.Carries True 0 (Routine.functionBody (bound + 1) params)
      (Routine.functionBody (bound' + 1) params) tokens := by
  rw [Routine.functionBody, Routine.functionBody]
  refine Carries.at? (fun _ => by decide) ?_
  split
  · exact (ih.block bound' h tokens).result
  · exact (ih.expression bound' h itemPower tokens).result

theorem block_succ (tokens : List Token) :
    s.Carries True 0 (Routine.block (bound + 1)) (Routine.block (bound' + 1)) tokens := by
  rw [Routine.block, Routine.block]
  exact Carries.expect (Carries.steps_open rfl 0) fun rest => ih.statements bound' h rest

theorem statements_succ (tokens : List Token) :
    s.Carries True 1 (Routine.statements (bound + 1)) (Routine.statements (bound' + 1))
      tokens := by
  cases tokens with
  | nil => exact Carries.of_error fun last => statements_nil (bound + 1) last
  | cons token tokens =>
    obtain ⟨x, line⟩ := token
    rw [Routine.statements, Routine.statements]
    refine Carries.peek_cons ?_
    -- Behind the last statement comes a brace, so something is left behind each of them.
    have hmore : s.Carries True 1
        (Routine.statement bound >>= fun first => Routine.statements bound >>= fun others =>
          Pure.pure (first :: others))
        (Routine.statement bound' >>= fun first => Routine.statements bound' >>= fun others =>
          Pure.pure (first :: others)) (⟨x, line⟩ :: tokens) := by
      refine (ih.statement bound' h _).bind_followed (Nat.zero_add 1) (fun first last => ?_)
        fun first rest => (ih.statements bound' h rest).result
      obtain ⟨e, he⟩ := statements_nil bound last
      exact ⟨e, error_bind he⟩
    cases x with
    | number x => exact hmore
    | text t => exact hmore
    | name word => exact hmore
    | sign p =>
      cases p with
      | closeBrace => exact Carries.advance_cons (Carries.steps_close rfl 0) (.pure [])
      | _ => exact hmore

theorem declaration_succ (kind : DeclKind) (tokens : List Token) :
    s.Carries True 0 (Routine.declaration (bound + 1) kind)
      (Routine.declaration (bound' + 1) kind) tokens := by
  rw [Routine.declaration, Routine.declaration]
  -- What follows the value, if there is one.
  have hrest (name : String) (value : Option Expr) (rest : List Token) : s.Carries True 0 (do
        if ← Parser.eat .comma then
          return (name, value) :: (← Routine.declaration bound kind)
        else return [(name, value)]) (do
        if ← Parser.eat .comma then
          return (name, value) :: (← Routine.declaration bound' kind)
        else return [(name, value)]) rest :=
    Carries.eat (by decide) (Carries.steps_sign .comma 0 rfl rfl)
      (fun rest => (ih.declaration bound' h kind rest).result) (.pure _)
  refine (Carries.expectName tokens).bind (Nat.add_zero 0) fun name rest => ?_
  refine Carries.eat (by decide) (Carries.steps_sign .becomes 0 rfl rfl)
    (fun rest => ?_) ?_
  · have hvalue : s.Carries True 0 (some <$> Routine.expression bound itemPower)
        (some <$> Routine.expression bound' itemPower) rest :=
      (ih.expression bound' h itemPower rest).result
    exact hvalue.bind (Nat.add_zero 0) fun value rest => hrest name value rest
  · simp only [Bool.false_eq_true, if_false]
    split
    · exact Carries.of_error fun _ => ⟨_, rfl⟩
    · exact hrest name none rest

theorem countedLoop_succ (kind : Option DeclKind) (tokens : List Token)
    (hkind : declKind? (tokens.head?.map Token.lexeme) = kind) :
    s.Carries s.Apart 1 (Routine.countedLoop (bound + 1) kind)
      (Routine.countedLoop (bound' + 1) kind) tokens := by
  have hsemicolon (n : Nat) : Carries.Steps (.sign .semicolon) n n :=
    Carries.steps_sign .semicolon n rfl rfl
  have hpart (rest : List Token) : s.Carries s.Apart 0 (some <$> Routine.expression bound 0)
      (some <$> Routine.expression bound' 0) rest :=
    ((ih.expression bound' h 0 rest).mono fun _ => trivial).result
  rw [Routine.countedLoop, Routine.countedLoop]
  refine Carries.at? (fun _ => by decide) ?_
  extract_lets afterInit afterInit'
  have hafterInit (init : Option Stmt) (rest : List Token) :
      s.Carries s.Apart 1 (afterInit init) (afterInit' init) rest := by
    refine Carries.expect (hsemicolon 1) fun rest => ?_
    refine Carries.at? (fun _ => by decide) ?_
    extract_lets afterTest afterTest'
    have hafterTest (test : Option Expr) (rest : List Token) :
        s.Carries s.Apart 1 (afterTest test) (afterTest' test) rest := by
      refine Carries.expect (hsemicolon 1) fun rest => ?_
      cases rest with
      | nil =>
        refine Carries.of_error fun last => ?_
        obtain ⟨e, he⟩ := expression_nil bound 0 last
        refine ⟨e, (bind_ok (at?_eq .closeParen [] last)).trans ?_⟩
        have hnone : ¬ leads .closeParen [] = true := by decide
        have hupdate : (some <$> Routine.expression bound 0) ⟨[], last⟩ = .error e := by
          show (Routine.expression bound 0 >>= fun e => pure (some e)) ⟨[], last⟩ = _
          exact error_bind he
        rw [if_neg hnone]
        exact error_bind hupdate
      | cons token rest =>
        refine Carries.at? (by rintro ⟨⟩) ?_
        extract_lets afterUpdate afterUpdate'
        have hafterUpdate (update : Option Expr) (rest : List Token) :
            s.Carries s.Apart 1 (afterUpdate update) (afterUpdate' update) rest :=
          Carries.expect (Carries.steps_close rfl 0) fun rest =>
            (ih.statement bound' h rest).result
        split
        · exact hafterUpdate none _
        · exact (hpart _).bind (Nat.zero_add 1) fun update rest => hafterUpdate update rest
    split
    · exact hafterTest none rest
    · exact (hpart rest).bind (Nat.zero_add 1) fun test rest => hafterTest test rest
  split
  · exact hafterInit none tokens
  · cases kind with
    | some kind =>
      cases tokens with
      | nil => cases hkind
      | cons token tokens =>
        obtain ⟨x, line⟩ := token
        refine Carries.advance_cons (steps_declKind? hkind 1) ?_
        exact ((ih.declaration bound' h kind tokens).mono fun _ => trivial).bind (Nat.zero_add 1)
          fun bindings rest => hafterInit (some (.declare kind bindings)) rest
    | none =>
      exact ((ih.expression bound' h 0 tokens).mono fun _ => trivial).bind (Nat.zero_add 1)
        fun e rest => hafterInit (some (.expr e)) rest

theorem forLoop_succ (tokens : List Token) :
    s.Carries s.Apart 0 (Routine.forLoop (bound + 1)) (Routine.forLoop (bound' + 1)) tokens := by
  rw [forLoop_eq, forLoop_eq]
  refine Carries.expect (Carries.steps_open rfl 0) fun tokens => ?_
  -- What follows the name and the word of a loop over items or keys.
  have heach (head : EachHead) (kind : Option DeclKind) (name : String) (rest : List Token) :
      s.Carries s.Apart 1 (do
        let source ← Routine.expression bound 0
        expect .closeParen
        return Stmt.each head kind name source (← Routine.statement bound)) (do
        let source ← Routine.expression bound' 0
        expect .closeParen
        return Stmt.each head kind name source (← Routine.statement bound')) rest :=
    ((ih.expression bound' h 0 rest).mono fun _ => trivial).bind (Nat.zero_add 1)
      fun source rest => Carries.expect (Carries.steps_close rfl 0) fun rest =>
        (ih.statement bound' h rest).result
  rcases loopHead_put (s := s) tokens with rfl | ⟨token, kind, rfl, hdecl⟩ | hput
  · exact Carries.of_error fun last => countedLoop_short (.inl ⟨rfl, rfl⟩) rfl bound last
  · refine Carries.of_error fun last => ?_
    obtain ⟨x, line⟩ := token
    have hkind : declKind? (([⟨x, line⟩] : List Token).head?.map Token.lexeme) = some kind := hdecl
    have hhead : loopHead [⟨x, line⟩] = (some kind, none) := by
      simp only [loopHead, hkind]
      rfl
    have hleads : leads .semicolon [⟨x, line⟩] = false := by
      cases x with
      | name word => rfl
      | number x => rfl
      | text t => rfl
      | sign p => cases hdecl
    show ∃ e, loopFrom bound (loopHead [⟨x, line⟩]) ⟨[⟨x, line⟩], last⟩ = .error e
    rw [hhead]
    exact countedLoop_short (.inr ⟨_, rfl, rfl⟩) hleads bound last
  · refine Carries.inspect hput ?_
    have hkind : declKind? (tokens.head?.map Token.lexeme) = (loopHead tokens).1 := rfl
    have hhead : eachHead? (if (loopHead tokens).1.isSome then tokens.drop 1 else tokens)
        = (loopHead tokens).2 := rfl
    revert hkind hhead
    generalize loopHead tokens = seen
    intro hkind hhead
    match seen, hkind, hhead with
    | (kind, none), hkind, _ => exact ih.countedLoop bound' h kind tokens hkind
    | (none, some (name, word)), _, hhead =>
      obtain ⟨line, line', rest, rfl⟩ := eq_of_eachHead? hhead
      exact Carries.advance_cons (Carries.steps_name name 1)
        (Carries.advance_cons (Carries.steps_name word 1) (heach _ none name rest))
    | (some kind, some (name, word)), hkind, hhead =>
      cases tokens with
      | nil => cases hkind
      | cons token tokens =>
        obtain ⟨line, line', rest, rfl⟩ := eq_of_eachHead? hhead
        obtain ⟨x, line''⟩ := token
        exact Carries.advance_cons (steps_declKind? hkind 1)
          (Carries.advance_cons (Carries.steps_name name 1)
            (Carries.advance_cons (Carries.steps_name word 1) (heach _ (some kind) name rest)))

end Carried

/-! ### Statements -/

namespace Carried

variable {bound bound' : Nat}

/-- The tokens behind an opening parenthesis that a name stands in front of close it, if they begin
an expression. -/
theorem closes_of_call (hbelow : ∀ c < bound, Carried s c) {word : String} {line line' last : Nat}
    {tokens : List Token} {e : Expr} {after : Input} (hword : unary? (some (.name word)) = none)
    (hholds : s.Holds (⟨.name word, line⟩ :: ⟨.sign .openParen, line'⟩ :: tokens))
    (h : Routine.expression bound 0
      ⟨⟨.name word, line⟩ :: ⟨.sign .openParen, line'⟩ :: tokens, last⟩ = .ok (e, after)) :
    ∃ taken rest, tokens = taken ++ rest ∧ Closing 1 taken := by
  have hpeek : peek ⟨⟨.name word, line⟩ :: ⟨.sign .openParen, line'⟩ :: tokens, last⟩
      = .ok (some (.name word), ⟨⟨.name word, line⟩ :: ⟨.sign .openParen, line'⟩ :: tokens, last⟩) :=
    rfl
  rcases bound with _ | _ | _ | b
  · cases h
  · rw [Routine.expression] at h
    cases h
  · rw [Routine.expression, Routine.operand] at h
    obtain ⟨left, middle, hleft, -⟩ := exists_of_bind_ok h
    rw [bind_ok hpeek, hword] at hleft
    cases hleft
  · have hb : Carried s b := hbelow b (by omega)
    rw [Routine.expression, Routine.operand] at h
    obtain ⟨left, middle, hleft, hright⟩ := exists_of_bind_ok h
    rw [bind_ok hpeek, hword, Routine.primary] at hleft
    have hleft : Routine.selections (b + 1) (nameExpr word)
        ⟨⟨.sign .openParen, line'⟩ :: tokens, last⟩ = .ok (left, middle) := hleft
    rw [Routine.selections] at hleft
    have hcall : s.Carries True 1
        (commaList (Routine.expression b itemPower) .closeParen b >>= fun args =>
          Routine.selections b (.call (nameExpr word) args false))
        (commaList (Routine.expression b itemPower) .closeParen b >>= fun args =>
          Routine.selections b (.call (nameExpr word) args false)) tokens :=
      (Carries.commaList rfl (fun rest => hb.expression b (Nat.le_refl b) itemPower rest)
        (fun last => expression_nil b itemPower last) (Nat.le_refl b) tokens).bind rfl
          fun args rest => hb.selections b (Nat.le_refl b) _ rest
    obtain ⟨taken, rest, htokens, -, hclosing, -⟩ :=
      hcall hholds.tail.tail last left middle hleft
    exact ⟨taken, rest, htokens, hclosing⟩

/-- Whether a scope begins is the same on the spot, if the words of scopes begin an expression
otherwise. -/
theorem opensScope_put {x : Lexeme} {line : Nat} {tokens : List Token}
    (h : ∀ word line' rest, x = .name word → (word == "with" || word == "strict") = true →
      tokens = ⟨.sign .openParen, line'⟩ :: rest →
      opensScope (⟨x, line⟩ :: tokens) = false →
      ∃ taken rest', rest = taken ++ rest' ∧ Closing 1 taken) :
    opensScope (s.put (⟨x, line⟩ :: tokens)) = opensScope (⟨x, line⟩ :: tokens) := by
  cases x with
  | number x => rfl
  | text t => rfl
  | sign p => rfl
  | name word =>
    show ((word == "with" || word == "strict") && leads .openParen (s.put tokens)
        && closesBefore .openBrace (s.put tokens))
      = ((word == "with" || word == "strict") && leads .openParen tokens
        && closesBefore .openBrace tokens)
    cases hword : word == "with" || word == "strict" with
    | false => rfl
    | true =>
      have hleads : leads .openParen (s.put tokens) = leads .openParen tokens := by
        cases tokens with
        | nil => exact s.not_leads (by decide)
        | cons token tokens => rfl
      cases hown : leads .openParen tokens with
      | false => rw [hleads, hown]; rfl
      | true =>
        obtain ⟨line', rest, rfl⟩ := Carries.eq_cons_of_leads hown
        have hclosing : closesBefore .openBrace (s.put (⟨.sign .openParen, line'⟩ :: rest))
            = closesBefore .openBrace (⟨.sign .openParen, line'⟩ :: rest) := by
          refine closesBefore_put rfl (by decide) fun hnone => ?_
          refine h word line' rest rfl hword rfl ?_
          show ((word == "with" || word == "strict") && leads .openParen _
            && closesBefore .openBrace _) = false
          rw [hnone, Bool.and_false]
        rw [hleads, hown, hclosing]

/-- What follows the first branch: another one, or nothing. -/
theorem otherwise {A : Prop} {p q : Parser Stmt} {make : Option Stmt → Stmt}
    (h : ∀ rest, s.Carries A 0 (p >>= fun no => Pure.pure (make (some no)))
      (q >>= fun no => Pure.pure (make (some no))) rest) (tokens : List Token) :
    s.Carries A 0
      (peek >>= fun next =>
        if next == some (.name "else") then advance >>= fun _ => p >>= fun no =>
          Pure.pure (make (some no))
        else Pure.pure (make none))
      (peek >>= fun next =>
        if next == some (.name "else") then advance >>= fun _ => q >>= fun no =>
          Pure.pure (make (some no))
        else Pure.pure (make none)) tokens := by
  cases tokens with
  | nil =>
    refine Carries.peek_nil rfl ?_
    rcases s.ends with hx | hx | hx <;> rw [hx] <;> rfl
  | cons token tokens =>
    obtain ⟨x, line⟩ := token
    refine Carries.peek_cons ?_
    split
    · rename_i helse
      cases beq_iff_eq.mp helse
      exact Carries.advance_cons (Carries.steps_name "else" 0) (h tokens)
    · exact .pure _

/-- A return with nothing behind it on its line gives nothing back.  That is the one place where the
lines matter. -/
theorem giveBack (line : Nat) (tokens : List Token)
    (h : ∀ rest, s.Carries s.Apart 0 (Routine.expression bound 0) (Routine.expression bound' 0)
      rest) :
    let f (bound line : Nat) : Parser Stmt := do
      advance
      let next ← peek
      let nextLine ← lineHere
      if next == some (.sign .semicolon) || next == some (.sign .closeBrace) || next == none
          || nextLine != line then
        endStatement
        return .giveBack none
      else
        let e ← Routine.expression bound 0
        endStatement
        return .giveBack (some e)
    s.Carries s.Apart 0 (f bound line) (f bound' (line + s.shift))
      (⟨.name "return", line⟩ :: tokens) := by
  intro f
  cases tokens with
  | nil =>
    rintro hholds last a after hown
    cases hown
    refine ⟨[⟨.name "return", line⟩], [], rfl, rfl, Carries.steps_name "return" 0 line []
      Balanced.nil, fun hend l => ?_⟩
    have hlater : s.next.line != line + s.shift :=
      bne_iff_ne.mpr (Nat.ne_of_gt (hholds (hend rfl) _ (List.mem_singleton_self _)))
    have hstart : f bound' (line + s.shift) ⟨s.put [⟨.name "return", line⟩], l⟩
        = (if some s.next.lexeme == some (.sign .semicolon)
              || some s.next.lexeme == some (.sign .closeBrace) || some s.next.lexeme == none
              || s.next.line != line + s.shift then
            endStatement >>= fun _ => Pure.pure (Stmt.giveBack none)
          else Routine.expression bound' 0 >>= fun e => endStatement >>= fun _ =>
            Pure.pure (Stmt.giveBack (some e)) : Parser Stmt) ⟨s.put [], l⟩ := rfl
    rw [hstart, hlater, Bool.or_true, if_pos rfl]
    have hleads : leads .semicolon (s.put []) = false := s.not_leads (by decide)
    have hnothing : endStatement ⟨s.put [], l⟩ = .ok ((), ⟨s.put [], l⟩) :=
      bind_ok (eat_eq_of_not_leads hleads)
    exact bind_ok hnothing
  | cons token tokens =>
    obtain ⟨x, line'⟩ := token
    refine Carries.advance_cons (Carries.steps_name "return" 0) ?_
    refine Carries.peek_cons (Carries.lineHere_cons ?_)
    have hlines : (line' + s.shift != line + s.shift) = (line' != line) := by
      rw [Bool.eq_iff_iff, bne_iff_ne, bne_iff_ne]
      omega
    rw [hlines]
    split
    · exact (Carries.endStatement _).result
    · exact (h _).bind (Nat.zero_add 0) fun e rest => (Carries.endStatement rest).result

theorem statement_succ (ih : Carried s bound) (hbelow : ∀ c < bound, Carried s c)
    (h : bound ≤ bound') (tokens : List Token) :
    s.Carries s.Apart 0 (Routine.statement (bound + 1)) (Routine.statement (bound' + 1))
      tokens := by
  have hexpr (rest : List Token) : s.Carries s.Apart 0 (Routine.expression bound 0)
      (Routine.expression bound' 0) rest := (ih.expression bound' h 0 rest).mono fun _ => trivial
  -- A statement that is an expression behind its word, or without any.
  have hends (make : Expr → Stmt) (rest : List Token) : s.Carries s.Apart 0
      (Routine.expression bound 0 >>= fun e => endStatement >>= fun _ => Pure.pure (make e))
      (Routine.expression bound' 0 >>= fun e => endStatement >>= fun _ => Pure.pure (make e))
      rest :=
    (hexpr rest).bind (Nat.zero_add 0) fun e rest => (Carries.endStatement rest).result
  -- What follows the word of a statement with something in parentheses.
  have hheaded {f g : Expr → Parser Stmt} (rest : List Token)
      (hf : ∀ e rest, s.Carries s.Apart 0 (f e) (g e) rest) : s.Carries s.Apart 0
      (expect .openParen >>= fun _ => Routine.expression bound 0 >>= fun e =>
        expect .closeParen >>= fun _ => f e)
      (expect .openParen >>= fun _ => Routine.expression bound' 0 >>= fun e =>
        expect .closeParen >>= fun _ => g e) rest :=
    Carries.expect (Carries.steps_open rfl 0) fun rest => (hexpr rest).bind (Nat.zero_add 1)
      fun e rest => Carries.expect (Carries.steps_close rfl 0) fun rest => hf e rest
  cases tokens with
  | nil => exact Carries.of_error fun last => statement_nil (bound + 1) last
  | cons token tokens =>
    obtain ⟨x, line⟩ := token
    rw [Routine.statement, Routine.statement]
    refine Carries.peek_cons (Carries.lineHere_cons ?_)
    generalize hhere : some x = here
    split
    · cases hhere
      exact (ih.block bound' h _).result.mono fun _ => trivial
    · cases hhere
      exact Carries.advance_cons (Carries.steps_sign .semicolon 0 rfl rfl) (.pure _)
    · split
      · rename_i kind hkind
        subst hhere
        refine Carries.advance_cons (steps_declKind? hkind 0) ?_
        exact ((ih.declaration bound' h kind tokens).mono fun _ => trivial).bind (Nat.zero_add 0)
          fun bindings rest => (Carries.endStatement rest).result
      · refine Carries.look (F := opensScope) (fun hscope => ?_) (fun _ => ?_) ?_
        · have hx : Carries.Steps x 0 0 := by
            refine Carries.steps_plain 0 ?_
            rintro p rfl
            cases hscope
          refine Carries.advance_cons hx (hheaded tokens fun e rest => ?_)
          exact (ih.block bound' h rest).result.mono fun _ => trivial
        · -- The words of statements in the order of the parser, then everything else.
          split
          · cases hhere
            refine Carries.advance_cons (Carries.steps_name _ 0) (hheaded tokens fun e rest => ?_)
            refine (ih.statement bound' h rest).bind (Nat.zero_add 0) fun yes rest => ?_
            exact otherwise (fun rest => (ih.statement bound' h rest).result) rest
          · cases hhere
            exact Carries.advance_cons (Carries.steps_name _ 0) (ih.forLoop bound' h tokens)
          · cases hhere
            exact Carries.advance_cons (Carries.steps_name _ 0) (hheaded tokens fun e rest =>
              (ih.statement bound' h rest).result)
          · cases hhere
            exact Carries.advance_cons (Carries.steps_name _ 0) (Carries.endStatement tokens).result
          · cases hhere
            exact Carries.advance_cons (Carries.steps_name _ 0) (Carries.endStatement tokens).result
          · cases hhere
            exact giveBack line tokens hexpr
          · cases hhere
            exact Carries.advance_cons (Carries.steps_name _ 0) (hends .raise tokens)
          · exact Carries.unexpected _
          · exact hends .expr _
        · -- Where no scope begins, the word of one is the name of a function that is called.
          intro last rest e hholds hown _
          refine opensScope_put ?_
          rintro word line' rest' rfl hword rfl hnone
          rw [if_neg (Bool.eq_false_iff.mp hnone)] at hown
          subst hhere
          rcases (Bool.or_eq_true _ _).mp hword with hwith | hstrict
          · cases beq_iff_eq.mp hwith
            obtain ⟨value, after, hvalue, -⟩ := exists_of_bind_ok hown
            exact closes_of_call hbelow rfl hholds hvalue
          · cases beq_iff_eq.mp hstrict
            obtain ⟨value, after, hvalue, -⟩ := exists_of_bind_ok hown
            exact closes_of_call hbelow rfl hholds hvalue

end Carried

/-- **Every function of the parser carries its results to the spot.** -/
theorem carried (s : Spot) (bound : Nat) : Carried s bound := by
  induction bound using Nat.strongRecOn with
  | ind bound hbelow =>
    cases bound with
    | zero => constructor <;> intros <;> exact Carries.of_error fun _ => ⟨_, rfl⟩
    | succ bound =>
      have ih : Carried s bound := hbelow bound (Nat.lt_succ_self bound)
      have hpred {P : Nat → Prop} (h : ∀ bound', bound ≤ bound' → P (bound' + 1)) (bound' : Nat)
          (hbound : bound + 1 ≤ bound') : P bound' := by
        cases bound' with
        | zero => omega
        | succ bound' => exact h bound' (Nat.le_of_succ_le_succ hbound)
      exact {
        expression := hpred fun _ h => ih.expression_succ h
        continueWith := hpred fun _ h => ih.continueWith_succ h
        operand := hpred fun _ h => ih.operand_succ h
        selections := hpred fun _ h => ih.selections_succ h
        primary := hpred fun _ h => ih.primary_succ h
        objectMember := hpred fun _ h => ih.objectMember_succ h
        functionBody := hpred fun _ h => ih.functionBody_succ h
        block := hpred fun _ h => ih.block_succ h
        statements := hpred fun _ h => ih.statements_succ h
        statement := hpred fun _ h =>
          ih.statement_succ (fun c hc => hbelow c (Nat.lt_succ_of_lt hc)) h
        declaration := hpred fun _ h => ih.declaration_succ h
        forLoop := hpred fun _ h => ih.forLoop_succ h
        countedLoop := hpred fun _ h => ih.countedLoop_succ h }

end Stencil.Reading
