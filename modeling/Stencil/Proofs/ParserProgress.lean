import Mathlib.Data.List.Infix
import Stencil.Proofs.ParserEnds

/-!
# The parser advances

Without a bound on its calls, the parser is what it is with any bound that is large enough.  Every
call that has a result moves the cursor on, every round of a loop does or is the last, and no call
moves the cursor past the end of the tokens.  So the parser comes to an end on every source.

* `unbounded` — a function of the parser without a bound;
* `Moves` — by how much a parser moves the cursor on;
* `Call`, `Loop` — what is said of a call and of a loop;
* `CallsAdvance`, `LoopsAdvance` — what is said of the calls and the loops of the parser;
* `afterClosing?`, `LooksAhead` — the search for a closing bracket, with its depth checked;
* `parser_advances` — the main theorem.
-/

namespace Stencil.Routine

open Routine.Parser

/-! ### The cursor -/

/-- What is left of a source behind its first tokens. -/
def Lexed.inputAt (l : Lexed) (place : Nat) : Input := ⟨l.tokens.drop place, l.endLine⟩

theorem Lexed.length_inputAt (l : Lexed) (place : Nat) :
    (l.inputAt place).rest.length = l.tokens.length - place := List.length_drop

/-- What is left of an input of a source is an input of that source. -/
theorem Input.LeftOf.eq_inputAt {l : Lexed} {place : Nat} {i : Input}
    (h : i.LeftOf (l.inputAt place)) : i = l.inputAt (l.tokens.length - i.rest.length) := by
  obtain ⟨rest, endLine⟩ := i
  obtain ⟨hrest, hline⟩ := h
  have hsuffix : rest <:+ l.tokens := hrest.trans (List.drop_suffix place l.tokens)
  rw [Lexed.inputAt, ← List.suffix_iff_eq_drop.mp hsuffix]
  exact congrArg _ hline

/-- At every place of every source, the parser finds a fault, or it has a result and moves the
cursor on, by so many tokens at least, and not past the end of the tokens. -/
def Moves {α : Type} (p : Parser α) (least : α → Nat) : Prop :=
  ∀ (l : Lexed) (place : Nat), place ≤ l.tokens.length →
    (∃ e, p (l.inputAt place) = .error (.fault e))
      ∨ ∃ a place', p (l.inputAt place) = .ok (a, l.inputAt place') ∧ place + least a ≤ place'
          ∧ place' ≤ l.tokens.length

theorem Moves.of_settle {α : Type} {p p' : Parser α} {m : Nat → α → Nat} {least : α → Nat}
    (h : ∀ n, Settle p p' n (m n)) (hm : ∀ n a, m n a + least a ≤ n + 1) : Moves p least := by
  intro l place hplace
  have hlength := l.length_inputAt place
  rcases h _ _ (Nat.le_of_eq hlength) with ⟨e, he, -⟩ | ⟨a, i, ha, -, hleft, hlt⟩
  · exact .inl ⟨e, he⟩
  · have hle := hm (l.tokens.length - place) a
    rw [hleft.eq_inputAt] at ha
    exact .inr ⟨a, _, ha, by omega, Nat.sub_le _ _⟩

/-! ### Without a bound -/

/-- A function of the parser with a bound that it does not reach. -/
def unbounded {α : Type} (p : Nat → Parser α) : Parser α := fun i => p (callBound i.rest.length) i

/-- Whatever the bound is, if it is large enough, the function does the same and leaves fewer
tokens than it was given, or no more than those and the slack. -/
def Ends {α : Type} (slack : Nat) (p : Nat → Parser α) : Prop :=
  ∀ n bound bound', bound ≤ bound' → 8 * n + 5 ≤ bound →
    Settle (p bound) (p bound') n fun _ => n + slack

namespace Ends

variable {α : Type} {slack : Nat} {p : Nat → Parser α} (h : Ends slack p)
include h

theorem settle {n bound bound' : Nat} (hbound : 8 * n + 5 ≤ bound) (hbound' : 8 * n + 5 ≤ bound') :
    Settle (p bound) (p bound') n fun _ => n + slack := by
  rcases Nat.le_total bound bound' with hle | hle
  · exact h n bound bound' hle hbound
  · exact (h n bound' bound hle hbound').symm

theorem eq_unbounded {bound : Nat} {i : Input} (hbound : 8 * i.rest.length + 5 ≤ bound) :
    p bound i = unbounded p i :=
  (h.settle hbound (by unfold callBound; omega)).eq (Nat.le_refl _)

theorem settle_unbounded {n bound : Nat} (hbound : 8 * n + 5 ≤ bound) :
    Settle (p bound) (unbounded p) n fun _ => n + slack := by
  intro i hi
  rw [← h.eq_unbounded (Nat.le_trans (by omega) hbound)]
  exact h n bound bound (Nat.le_refl _) hbound i hi

end Ends

theorem ends_expression (least : Nat) : Ends 0 (expression · least) :=
  fun n _ _ hle h => (parserEnds hle).expression n least (by omega)

theorem ends_continueWith (least : Nat) (left : Expr) : Ends 1 (continueWith · least left) :=
  fun n _ _ hle h => (parserEnds hle).continueWith n least left (by omega)

theorem ends_selections (e : Expr) : Ends 1 (selections · e) :=
  fun n _ _ hle h => (parserEnds hle).selections n e (by omega)

theorem ends_objectMember : Ends 0 objectMember :=
  fun n _ _ hle h => (parserEnds hle).objectMember n (by omega)

theorem ends_block : Ends 0 block := fun n _ _ hle h => (parserEnds hle).block n (by omega)

theorem ends_statements : Ends 0 statements :=
  fun n _ _ hle h => (parserEnds hle).statements n (by omega)

theorem ends_statement : Ends 0 statement :=
  fun n _ _ hle h => (parserEnds hle).statement n (by omega)

theorem ends_declaration (kind : DeclKind) : Ends 0 (declaration · kind) :=
  fun n _ _ hle h => (parserEnds hle).declaration n kind (by omega)

theorem ends_topStatements : Ends 1 topStatements := fun _ _ _ hle h => keeps_topStatements hle h

/-- The items up to a closing sign, with one bound for the list and its items. -/
def listOf {α : Type} (item : Nat → Parser α) (close : Punctuator) (bound : Nat) :
    Parser (List α) := commaList (item bound) close bound

theorem ends_listOf {α : Type} {item : Nat → Parser α} (h : Ends 0 item) (close : Punctuator) :
    Ends 0 (listOf item close) :=
  fun _ _ _ hle hbound => takes_commaList (by omega) (by omega) fun l hl => h l _ _ hle (by omega)

/-! ### Calls -/

/-- What is said of a call: with any bound that is large enough it does the same, and it moves the
cursor on. -/
structure Call {α : Type} (p : Nat → Parser α) (least : Nat) : Prop where
  /-- No bound from this one on makes a difference. -/
  steady (bound : Nat) (i : Input) (h : callBound i.rest.length ≤ bound) : p bound i = unbounded p i
  /-- The cursor moves on. -/
  moves : Moves (unbounded p) fun _ => least

theorem Ends.call {α : Type} {slack least : Nat} {p : Nat → Parser α} (h : Ends slack p)
    (hleast : slack + least ≤ 1) : Call p least where
  steady := fun bound i hbound => h.eq_unbounded (by unfold callBound at hbound; omega)
  moves := .of_settle (fun n => (h.settle_unbounded (Nat.le_refl (8 * n + 5))).right)
    fun n _ => by omega

/-- The calls of the parser. -/
structure CallsAdvance : Prop where
  program : Call topStatements 0
  statement : Call statement 1
  block : Call block 1
  declaration (kind : DeclKind) : Call (declaration · kind) 1
  expression (least : Nat) : Call (expression · least) 1

theorem callsAdvance : CallsAdvance where
  program := ends_topStatements.call (Nat.le_refl 1)
  statement := ends_statement.call (Nat.le_refl 1)
  block := ends_block.call (Nat.le_refl 1)
  declaration kind := (ends_declaration kind).call (Nat.le_refl 1)
  expression least := (ends_expression least).call (Nat.le_refl 1)

/-! ### Loops -/

/-- How many tokens a round takes at least: one, unless it is the last. -/
def Round.least {α β : Type} : Round α β → Nat
  | .last _ => 0
  | .more _ => 1

/-- What is said of a loop: it consists of rounds, each of which moves the cursor on or is the
last. -/
structure Loop {α β : Type} (loop : Parser β) (round : Parser (Round α β))
    (others : α → Parser β) : Prop where
  /-- The loop is a round, and behind it the others. -/
  eq_rounds : loop = rounds round others
  /-- The cursor moves on. -/
  moves : Moves round Round.least

theorem Loop.of_settle {α β : Type} {loop : Nat → Parser β} {roundAt : Nat → Parser (Round α β)}
    {othersAt : Nat → α → Parser β} {round : Parser (Round α β)} {others : α → Parser β}
    {m : Nat → Round α β → Nat} {slack : Nat}
    (hloop : ∀ bound, loop (bound + 1) = rounds (roundAt bound) (othersAt bound))
    (hround : ∀ n bound, 8 * n + 5 ≤ bound → Settle (roundAt bound) round n (m n))
    (hothers : ∀ a n bound, 8 * n + 5 ≤ bound →
      Settle (othersAt bound a) (others a) n fun _ => n + slack)
    (hlast : ∀ n b, m n (.last b) ≤ n + 1) (hmore : ∀ n a, m n (.more a) = n) :
    Loop (unbounded loop) round others where
  eq_rounds := by
    funext i
    show loop (8 * i.rest.length + 15 + 1) i = _
    rw [hloop]
    refine Settle.eq (.rounds (k := fun _ => i.rest.length + 1 + slack) (hround _ _ (by omega))
      (fun a _ => ?_) fun b => Nat.le_add_right_of_le (hlast _ b)) (Nat.le_refl _)
    exact (hothers a _ _ (by rw [hmore]; omega)).mono (by rw [hmore]; omega)
  moves := by
    refine .of_settle (fun n => (hround n _ (Nat.le_refl _)).right) fun n found => ?_
    cases found with
    | last b => exact hlast n b
    | more a => exact Nat.le_of_eq (congrArg (· + 1) (hmore n a))

theorem loop_listOf {α : Type} {item : Nat → Parser α} (h : Ends 0 item) (close : Punctuator) :
    Loop (unbounded (listOf item close)) (itemRound (unbounded item) close)
      fun a => (a :: ·) <$> unbounded (listOf item close) := by
  have hitem {n bound : Nat} (hbound : 8 * n + 5 ≤ bound) : Takes (item bound) (unbounded item) n :=
    h.settle_unbounded hbound
  -- The items keep their bound when the list counts its own down.
  have hothers {n bound : Nat} (hbound : 8 * n + 5 ≤ bound) :
      Settle (commaList (item (bound + 1)) close bound) (unbounded (listOf item close)) n
        fun _ => n + 0 := by
    intro i hi
    have hlist : Takes (commaList (item (bound + 1)) close bound)
        (listOf item close (callBound i.rest.length)) i.rest.length := by
      refine takes_commaList (by omega) (by unfold callBound; omega) fun m hm => ?_
      exact h.settle (by omega) (by unfold callBound; omega)
    exact hlist.mono hi i (Nat.le_refl _)
  exact .of_settle (fun bound => commaList_succ bound (item (bound + 1)) close)
    (fun _ _ hbound => takes_itemRound (hitem (Nat.le_succ_of_le hbound)))
    (fun _ _ _ hbound => (hothers hbound).map) (fun n _ => Nat.le_succ n) fun _ _ => rfl

/-- The loops of the parser. -/
structure LoopsAdvance : Prop where
  /-- The statements of a source. -/
  program : Loop (unbounded topStatements) (topRound (unbounded statement))
    fun s => (s :: ·) <$> unbounded topStatements
  /-- The statements of a block. -/
  block : Loop (unbounded statements) (blockRound (unbounded statement))
    fun s => (s :: ·) <$> unbounded statements
  /-- The variables of a declaration. -/
  declaration (kind : DeclKind) : Loop (unbounded (declaration · kind))
    (variableRound (fun least => unbounded (expression · least)) kind)
    fun x => (x :: ·) <$> unbounded (declaration · kind)
  /-- The joints behind an operand. -/
  joints (least : Nat) (left : Expr) : Loop (unbounded (continueWith · least left))
    (jointRound (fun least => unbounded (expression · least)) least left)
    fun next => unbounded (continueWith · least next)
  /-- The selections behind an operand. -/
  selections (e : Expr) : Loop (unbounded (selections · e))
    (selectionRound (fun least => unbounded (expression · least))
      (unbounded (listOf (expression · itemPower) .closeParen)) e)
    fun next => unbounded (selections · next)
  /-- The arguments of a call. -/
  arguments : Loop (unbounded (listOf (expression · itemPower) .closeParen))
    (itemRound (unbounded (expression · itemPower)) .closeParen)
    fun e => (e :: ·) <$> unbounded (listOf (expression · itemPower) .closeParen)
  /-- The items of an array. -/
  items : Loop (unbounded (listOf (expression · itemPower) .closeBracket))
    (itemRound (unbounded (expression · itemPower)) .closeBracket)
    fun e => (e :: ·) <$> unbounded (listOf (expression · itemPower) .closeBracket)
  /-- The members of an object. -/
  members : Loop (unbounded (listOf objectMember .closeBrace))
    (itemRound (unbounded objectMember) .closeBrace)
    fun x => (x :: ·) <$> unbounded (listOf objectMember .closeBrace)
  /-- The parameters of a function. -/
  parameters : Loop (unbounded (listOf (fun _ => expectName) .closeParen))
    (itemRound expectName .closeParen)
    fun name => (name :: ·) <$> unbounded (listOf (fun _ => expectName) .closeParen)

theorem loopsAdvance : LoopsAdvance where
  program := .of_settle topStatements_succ
    (fun _ _ h => settle_topRound fun _ => ends_statement.settle_unbounded h)
    (fun _ _ _ h => (ends_topStatements.settle_unbounded h).map)
    (fun _ _ => Nat.le_refl _) fun _ _ => rfl
  block := .of_settle statements_succ
    (fun _ _ h => takes_blockRound fun _ => ends_statement.settle_unbounded h)
    (fun _ _ _ h => (ends_statements.settle_unbounded h).map)
    (fun n _ => Nat.le_succ n) fun _ _ => rfl
  declaration kind := .of_settle (declaration_succ · kind)
    (fun _ _ h => takes_variableRound
      (fun least _ hm => (ends_expression least).settle_unbounded (by omega)) kind)
    (fun _ _ _ h => ((ends_declaration kind).settle_unbounded h).map)
    (fun n _ => Nat.le_succ n) fun _ _ => rfl
  joints least left := .of_settle (continueWith_succ · least left)
    (fun _ _ h => settle_jointRound
      (fun least _ hm => (ends_expression least).settle_unbounded (by omega)) least left)
    (fun next _ _ h => (ends_continueWith least next).settle_unbounded h)
    (fun _ _ => Nat.le_refl _) fun _ _ => rfl
  selections e := .of_settle (selections_succ · e)
    (fun _ _ h => settle_selectionRound
      (fun least _ hm => (ends_expression least).settle_unbounded (by omega))
      (fun _ hm => (ends_listOf (ends_expression itemPower) _).settle_unbounded (by omega)) e)
    (fun next _ _ h => (ends_selections next).settle_unbounded h)
    (fun _ _ => Nat.le_refl _) fun _ _ => rfl
  arguments := loop_listOf (ends_expression itemPower) .closeParen
  items := loop_listOf (ends_expression itemPower) .closeBracket
  members := loop_listOf ends_objectMember .closeBrace
  parameters := loop_listOf (fun _ _ _ _ _ => .expectName) .closeParen

/-! ### Looking ahead -/

/-- A step of the search for a closing bracket, with `depth` brackets open; nothing, if there would
be fewer than none of them. -/
def searchRound (depth : Nat) (token : Token) : Option (Round Nat Unit) :=
  match token.lexeme with
  | .sign p =>
    if p.opens then some (.more (depth + 1))
    else if p.closes then
      match depth with
      | 0 => none
      | 1 => some (.last ())
      | depth + 2 => some (.more (depth + 1))
    else some (.more depth)
  | _ => some (.more depth)

/-- `afterClosing` with its depth checked.  Each step passes a token or is the last. -/
def afterClosing? : Nat → List Token → Option (Option (List Token))
  | _, [] => some none
  | depth, token :: rest =>
    match searchRound depth token with
    | none => none
    | some (.last _) => some (some rest)
    | some (.more depth) => afterClosing? depth rest

/-- Within a bracket, the depth does not fall below zero. -/
theorem afterClosing?_succ (depth : Nat) (tokens : List Token) :
    afterClosing? (depth + 1) tokens = some (afterClosing (depth + 1) tokens) := by
  induction tokens generalizing depth with
  | nil => rfl
  | cons token tokens ih =>
    obtain ⟨lexeme, line⟩ := token
    cases lexeme with
    | number x => exact ih depth
    | text s => exact ih depth
    | name s => exact ih depth
    | sign p =>
      simp only [afterClosing?, searchRound, afterClosing]
      by_cases hopens : p.opens = true
      · rw [if_pos hopens, if_pos hopens]
        exact ih (depth + 1)
      · by_cases hcloses : p.closes = true
        · rw [if_neg hopens, if_neg hopens, if_pos hcloses, if_pos hcloses]
          cases depth with
          | zero => rfl
          | succ depth => exact ih depth
        · rw [if_neg hopens, if_neg hopens, if_neg hcloses, if_neg hcloses]
          exact ih depth

/-- From a bracket that opens, the depth does not fall below zero. -/
theorem afterClosing?_open {p : Punctuator} (hp : p.opens = true) (line : Nat)
    (tokens : List Token) :
    afterClosing? 0 (⟨.sign p, line⟩ :: tokens)
      = some (afterClosing 0 (⟨.sign p, line⟩ :: tokens)) := by
  simp only [afterClosing?, searchRound, afterClosing, if_pos hp]
  exact afterClosing?_succ 0 tokens

/-- `closesBefore` with its depth checked. -/
def closesBefore? (p : Punctuator) (tokens : List Token) : Option Bool :=
  (afterClosing? 0 tokens).map fun
    | some rest => leads p rest
    | none => false

/-- From a parenthesis, the depth does not fall below zero. -/
theorem closesBefore?_eq {p : Punctuator} {tokens : List Token}
    (h : leads .openParen tokens = true) :
    closesBefore? p tokens = some (closesBefore p tokens) := by
  cases tokens with
  | nil => cases h
  | cons token tokens =>
    obtain ⟨lexeme, line⟩ := token
    obtain rfl : lexeme = .sign .openParen := by simpa [leads] using h
    rw [closesBefore?, afterClosing?_open rfl, closesBefore]
    rfl

/-- `opensScope` with the depth of its search checked. -/
def opensScope? (tokens : List Token) : Option Bool :=
  match tokens with
  | ⟨.name word, _⟩ :: rest =>
    if (word == "with" || word == "strict") && leads .openParen rest then
      closesBefore? .openBrace rest
    else some false
  | _ => some false

/-- What stands in parentheses or between a parenthesis and an arrow, with the depth of the search
for the arrow checked. -/
def parenthesized (bound : Nat) : Parser Expr := do
  match closesBefore? .arrow (← get).rest with
  | none => exhausted
  | some true =>
    advance
    let params ← commaList expectName .closeParen bound
    expect .arrow
    functionBody bound params
  | some false =>
    advance
    let e ← expression bound 0
    expect .closeParen
    return e

/-- What the search finds stands behind the bracket. -/
theorem length_lt_of_afterClosing {depth : Nat} {tokens rest : List Token}
    (h : afterClosing depth tokens = some rest) :
    rest <:+ tokens ∧ rest.length < tokens.length := by
  induction tokens generalizing depth with
  | nil => cases h
  | cons token tokens ih =>
    have hlater {depth : Nat} (h : afterClosing depth tokens = some rest) :
        rest <:+ token :: tokens ∧ rest.length < (token :: tokens).length :=
      ⟨(ih h).1.trans (List.suffix_cons token tokens), Nat.lt_succ_of_lt (ih h).2⟩
    rw [afterClosing] at h
    split at h
    · split at h
      · exact hlater h
      · split at h
        · split at h
          · cases h
            exact ⟨List.suffix_cons _ _, Nat.lt_succ_self _⟩
          · exact hlater h
        · exact hlater h
    · exact hlater h

theorem opensScope?_eq (tokens : List Token) : opensScope? tokens = some (opensScope tokens) := by
  cases tokens with
  | nil => rfl
  | cons token tokens =>
    obtain ⟨lexeme, line⟩ := token
    cases lexeme with
    | number x => rfl
    | text s => rfl
    | sign p => rfl
    | name word =>
      rw [opensScope?, opensScope]
      by_cases h : leads .openParen tokens = true
      · rw [closesBefore?_eq h]
        cases (word == "with" || word == "strict") && leads .openParen tokens <;> rfl
      · rw [Bool.eq_false_iff.mpr h, Bool.and_false]
        rfl

theorem primary_eq_parenthesized {i : Input} (h : leads .openParen i.rest = true) (bound : Nat) :
    primary (bound + 1) i = parenthesized bound i := by
  have hpeek : peek i = .ok (some (.sign .openParen), i) := by
    have hhere : i.rest.head?.map Token.lexeme = some (.sign .openParen) := by
      simpa [leads] using h
    rw [← hhere]
    rfl
  have hget : (get : Parser Input) i = .ok (i, i) := rfl
  rw [primary, Settle.bind_ok hpeek, parenthesized]
  dsimp only
  rw [Settle.bind_ok hget, Settle.bind_ok hget, closesBefore?_eq h]
  cases closesBefore .arrow i.rest with
  | true => rfl
  | false => rfl

/-- The parser searches for closing brackets in two places.  The search gets on, and its depth does
not fall below zero. -/
structure LooksAhead : Prop where
  /-- Behind a bracket that opens. -/
  behind (p : Punctuator) (hp : p.opens = true) (line : Nat) (tokens : List Token) :
    afterClosing? 0 (⟨.sign p, line⟩ :: tokens)
      = some (afterClosing 0 (⟨.sign p, line⟩ :: tokens))
  /-- What is found stands further on. -/
  found (depth : Nat) (tokens rest : List Token) (h : afterClosing depth tokens = some rest) :
    rest <:+ tokens ∧ rest.length < tokens.length
  /-- In front of a scope. -/
  scope (tokens : List Token) : opensScope? tokens = some (opensScope tokens)
  /-- In front of what stands in parentheses. -/
  parenthesis (bound : Nat) (i : Input) (h : leads .openParen i.rest = true) :
    primary (bound + 1) i = parenthesized bound i

theorem looksAhead : LooksAhead where
  behind _ hp := afterClosing?_open hp
  found _ _ _ h := length_lt_of_afterClosing h
  scope tokens := opensScope?_eq tokens
  parenthesis bound _ h := primary_eq_parenthesized h bound

/-! ### The whole parser -/

/-- **The parser comes to an end.**  On every source it has a program or finds a fault, the same
with every larger bound on its calls.  Its calls and the rounds of its loops move the cursor on, but
never past the end of the tokens, and its searches for brackets never count below zero. -/
theorem parser_advances :
    (∀ params source, (∃ program, parseProgram params source = .ok program)
        ∨ ∃ e, parseProgram params source = .error (.fault e))
      ∧ (∀ params (l : Lexed) more, parseTokens params l
          = (topStatements (callBound l.tokens.length + more) (l.inputAt 0)).map
              fun (body, _) => ⟨params, body⟩)
      ∧ CallsAdvance ∧ LoopsAdvance ∧ Moves advance (fun _ => 0) ∧ LooksAhead := by
  refine ⟨fun params source => ?_, fun params l more => ?_, callsAdvance, loopsAdvance, ?_,
    looksAhead⟩
  · have hends := parseProgram_ne_exhausted params source
    cases hparse : parseProgram params source with
    | ok program => exact .inl ⟨program, rfl⟩
    | error stop =>
      cases stop with
      | fault e => exact .inr ⟨e, rfl⟩
      | exhausted => exact absurd hparse hends
  · rw [callsAdvance.program.steady (callBound l.tokens.length + more) (l.inputAt 0)
      (Nat.le_add_right _ _)]
    rfl
  · have hadvance (n : Nat) : Settle advance advance n fun _ => n + 1 :=
      .advance (f := pure) (.pure _ (by omega))
    exact .of_settle hadvance fun n _ => Nat.le_refl _

end Stencil.Routine
