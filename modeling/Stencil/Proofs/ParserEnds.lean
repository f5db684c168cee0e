import Stencil.Proofs.ParserRounds

/-!
# The parser ends

The bound that the parser counts down is never reached: a call that takes no token is one of a
handful in a row, so eight calls for each token are more than enough.  A larger bound changes
nothing, so two bounds are looked at together.

* `Settle p p' n m` — given at most `n` tokens, neither parser exhausts its bound, both do the same,
  and where they have a result they leave the last of the tokens, fewer than `m` allows;
* `Takes`, `Keeps` — the two cases that matter, with and without a token that is taken for sure;
* `Settle.bind`, `Settle.eat`, `Settle.expect` and others — parsers in a row;
* `Settle.rounds`, `settle_jointRound` and others — loops whose rounds take a token or are the last;
* `ParserEnds` — every function of the parser ends, with what its bound must be at least;
* `parseProgram_ne_exhausted` — the main theorem.
-/

namespace Stencil.Routine

/-- The input is what is left of another one. -/
def Input.LeftOf (i' i : Input) : Prop := i'.rest <:+ i.rest ∧ i'.endLine = i.endLine

namespace Input.LeftOf

theorem refl (i : Input) : i.LeftOf i := ⟨List.suffix_refl _, rfl⟩

theorem trans {i i' i'' : Input} (h : i''.LeftOf i') (h' : i'.LeftOf i) : i''.LeftOf i :=
  ⟨h.1.trans h'.1, h.2.trans h'.2⟩

theorem drop (i : Input) : Input.LeftOf { i with rest := i.rest.drop 1 } i :=
  ⟨List.drop_suffix 1 i.rest, rfl⟩

end Input.LeftOf

/-- What a round may leave of `n` tokens: fewer of them, unless it is the last. -/
def Round.left {α β : Type} (n : Nat) : Round α β → Nat
  | .last _ => n + 1
  | .more _ => n

namespace Parser

variable {α β : Type} {n : Nat}

/-- Given at most `n` tokens, the parsers find the same fault, or they have the same result and
leave the same tokens, the last ones and fewer than the result allows. -/
def Settle (p p' : Parser α) (n : Nat) (m : α → Nat) : Prop :=
  ∀ i, i.rest.length ≤ n →
    (∃ e, p i = .error (.fault e) ∧ p' i = .error (.fault e))
      ∨ ∃ a i', p i = .ok (a, i') ∧ p' i = .ok (a, i') ∧ i'.LeftOf i ∧ i'.rest.length < m a

/-- With a result, both parsers have taken a token. -/
abbrev Takes (p p' : Parser α) (n : Nat) : Prop := Settle p p' n fun _ => n

/-- With a result, both parsers have taken tokens or none. -/
abbrev Keeps (p p' : Parser α) (n : Nat) : Prop := Settle p p' n fun _ => n + 1

namespace Settle

variable {p p' : Parser α} {f f' : α → Parser β} {m : α → Nat} {k : β → Nat}

/-- The value of a step in a row. -/
theorem bind_ok {i i' : Input} {a : α} (h : p i = .ok (a, i')) : (p >>= f) i = f a i' := by
  show (p i >>= fun result => f result.1 result.2) = _
  rw [h]
  rfl

theorem pure (a : α) (h : n < m a) : Settle (Pure.pure a) (Pure.pure a) n m :=
  fun i hi => .inr ⟨a, i, rfl, rfl, .refl i, Nat.lt_of_le_of_lt hi h⟩

theorem mono {m m' : Nat} (h : Settle p p' n fun _ => m) (hm : m ≤ m') :
    Settle p p' n fun _ => m' := by
  intro i hi
  rcases h i hi with hfault | ⟨a, i', hp, hp', hleft, hlt⟩
  · exact .inl hfault
  · exact .inr ⟨a, i', hp, hp', hleft, Nat.lt_of_lt_of_le hlt hm⟩

theorem symm (h : Settle p p' n m) : Settle p' p n m := by
  intro i hi
  rcases h i hi with ⟨e, he, he'⟩ | ⟨a, i', ha, ha', hleft⟩
  · exact .inl ⟨e, he', he⟩
  · exact .inr ⟨a, i', ha', ha, hleft⟩

theorem right (h : Settle p p' n m) : Settle p' p' n m := by
  intro i hi
  rcases h i hi with ⟨e, -, he'⟩ | ⟨a, i', -, ha', hleft, hlt⟩
  · exact .inl ⟨e, he', he'⟩
  · exact .inr ⟨a, i', ha', ha', hleft, hlt⟩

theorem eq (h : Settle p p' n m) {i : Input} (hi : i.rest.length ≤ n) : p i = p' i := by
  rcases h i hi with ⟨e, he, he'⟩ | ⟨a, i', ha, ha', -⟩
  · rw [he, he']
  · rw [ha, ha']

/-- Where the first parsers take a token, the second ones have fewer of them. -/
theorem bind (hp : Settle p p' n m) (hf : ∀ a, 0 < m a → Settle (f a) (f' a) (m a - 1) k) :
    Settle (p >>= f) (p' >>= f') n k := by
  intro i hi
  rcases hp i hi with ⟨e, he, he'⟩ | ⟨a, i', ha, ha', hleft, hlt⟩
  · refine .inl ⟨e, ?_, ?_⟩
    · show (p i >>= fun result => f result.1 result.2) = _
      rw [he]
      rfl
    · show (p' i >>= fun result => f' result.1 result.2) = _
      rw [he']
      rfl
  · rw [bind_ok ha, bind_ok ha']
    rcases hf a (by omega) i' (by omega) with hfault | ⟨b, i'', hb, hb', hleft', hlt'⟩
    · exact .inl hfault
    · exact .inr ⟨b, i'', hb, hb', hleft'.trans hleft, hlt'⟩

/-- A result that is made from that of a parser. -/
theorem result {m : Nat} {g : α → β} (hp : Settle p p' n fun _ => m) :
    Settle (p >>= fun a => Pure.pure (g a)) (p' >>= fun a => Pure.pure (g a)) n fun _ => m :=
  hp.bind fun a hm => .pure (g a) (by omega)

theorem map {m : Nat} {g : α → β} (hp : Settle p p' n fun _ => m) :
    Settle (g <$> p) (g <$> p') n fun _ => m := hp.result

/-! ### Single steps -/

theorem fault (f : SyntaxFault) : Settle (fail f : Parser α) (fail f) n m :=
  fun _ _ => .inl ⟨_, rfl, rfl⟩

theorem unexpected (what : String) :
    Settle (unexpected what : Parser α) (Parser.unexpected what) n m :=
  fun _ _ => .inl ⟨_, rfl, rfl⟩

/-- Nothing follows a fault. -/
theorem stop (e : SyntaxFault) : Settle (fail e >>= f) (fail e >>= f') n k :=
  (fault (m := fun _ => 0) e).bind fun _ h => absurd h (Nat.lt_irrefl 0)

/-- What is done about the token that stands here, if one does. -/
theorem lexeme {f f' : Option Lexeme → Parser β}
    (h : ∀ here, (here.isSome = true → 0 < n) → Settle (f here) (f' here) n k) :
    Settle (Parser.peek >>= f) (Parser.peek >>= f') n k := by
  intro i hi
  refine h (i.rest.head?.map Token.lexeme) (fun hsome => ?_) i hi
  cases hrest : i.rest with
  | nil =>
    rw [hrest] at hsome
    cases hsome
  | cons token rest =>
    rw [hrest, List.length_cons] at hi
    omega

theorem peek {f f' : Option Lexeme → Parser β} (hnone : Settle (f none) (f' none) n k)
    (hsome : ∀ x, 0 < n → Settle (f (some x)) (f' (some x)) n k) :
    Settle (Parser.peek >>= f) (Parser.peek >>= f') n k := by
  refine lexeme fun here hpos => ?_
  cases here with
  | none => exact hnone
  | some x => exact hsome x (hpos rfl)

/-- A step that looks at what is left and takes nothing. -/
theorem look (hp : ∀ i, ∃ a, p i = .ok (a, i)) (hf : ∀ a, Settle (f a) (f' a) n k) :
    Settle (p >>= f) (p >>= f') n k := by
  intro i hi
  obtain ⟨a, ha⟩ := hp i
  rw [bind_ok ha, bind_ok ha]
  exact hf a i hi

theorem lineHere {f f' : Nat → Parser β} (hf : ∀ line, Settle (f line) (f' line) n k) :
    Settle (lineHere >>= f) (Parser.lineHere >>= f') n k :=
  look (fun _ => ⟨_, rfl⟩) hf

theorem input {f f' : Input → Parser β} (hf : ∀ i, Settle (f i) (f' i) n k) :
    Settle (get >>= f) (get >>= f') n k :=
  look (fun i => ⟨i, rfl⟩) hf

theorem length_pos_of_here {i : Input} {p : Punctuator}
    (h : (i.rest.head?.map Token.lexeme == some (.sign p)) = true) : 0 < i.rest.length := by
  cases hrest : i.rest with
  | nil =>
    rw [hrest] at h
    cases h
  | cons token rest => exact Nat.succ_pos _

/-- What is done about a sign that may stand here. -/
theorem at? {p : Punctuator} {f f' : Bool → Parser β}
    (hf : ∀ b, (b = true → 0 < n) → Settle (f b) (f' b) n k) :
    Settle (at? p >>= f) (Parser.at? p >>= f') n k := by
  intro i hi
  refine hf (i.rest.head?.map Token.lexeme == some (.sign p)) (fun hhere => ?_) i hi
  exact Nat.lt_of_lt_of_le (length_pos_of_here hhere) hi

/-- Past the token that stands here, if one does. -/
theorem advance {f f' : Unit → Parser β} (hf : Settle (f ()) (f' ()) (n - 1) k) :
    Settle (advance >>= f) (Parser.advance >>= f') n k := by
  intro i hi
  have hlength : (i.rest.drop 1).length ≤ n - 1 := by
    rw [List.length_drop]
    omega
  rcases hf { i with rest := i.rest.drop 1 } hlength with
    hfault | ⟨b, i', hb, hb', hleft, hlt⟩
  · exact .inl hfault
  · exact .inr ⟨b, i', hb, hb', hleft.trans (.drop i), hlt⟩

/-- A sign that may stand here is taken if it does. -/
theorem eat {p : Punctuator} {f f' : Bool → Parser β}
    (htrue : 0 < n → Settle (f true) (f' true) (n - 1) k)
    (hfalse : Settle (f false) (f' false) n k) :
    Settle (eat p >>= f) (Parser.eat p >>= f') n k := by
  intro i hi
  by_cases hhere : (i.rest.head?.map Token.lexeme == some (.sign p)) = true
  · have hpos := length_pos_of_here hhere
    have heat (f : Bool → Parser β) :
        (Parser.eat p >>= f) i = (Parser.advance >>= fun _ => f true) i := by
      show ((if (i.rest.head?.map Token.lexeme == some (.sign p)) = true then _ else _ :
        Parser Bool) i >>= fun result => f result.1 result.2) = _
      rw [if_pos hhere]
      rfl
    rw [heat, heat]
    exact advance (htrue (by omega)) i hi
  · have heat (f : Bool → Parser β) : (Parser.eat p >>= f) i = f false i := by
      show ((if (i.rest.head?.map Token.lexeme == some (.sign p)) = true then _ else _ :
        Parser Bool) i >>= fun result => f result.1 result.2) = _
      rw [if_neg hhere]
      rfl
    rw [heat, heat]
    exact hfalse i hi

/-- A sign that must stand here. -/
theorem expect (p : Punctuator) : Takes (expect p) (Parser.expect p) n :=
  eat (fun hn => .pure () (by omega)) (unexpected _)

/-- A name that must stand here. -/
theorem expectName : Takes expectName Parser.expectName n := by
  refine peek (unexpected _) fun x hn => ?_
  cases x with
  | name s => exact advance (.pure s (by omega))
  | number | text | sign => exact unexpected _

theorem endStatement : Keeps endStatement Parser.endStatement n :=
  eat (fun _ => .pure () (by omega)) (.pure () (by omega))

/-! ### Loops -/

variable {round round' : Parser (Round α β)} {others others' : α → Parser β}

/-- A loop whose rounds settle, and so do the others behind a round that is not the last. -/
theorem rounds {m : Round α β → Nat} (hround : Settle round round' n m)
    (hmore : ∀ a, 0 < m (.more a) → Settle (others a) (others' a) (m (.more a) - 1) k)
    (hlast : ∀ b, m (.last b) ≤ k b) :
    Settle (Routine.rounds round others) (Routine.rounds round' others') n k := by
  refine hround.bind fun found hpos => ?_
  cases found with
  | last b =>
    have hle := hlast b
    exact .pure b (by omega)
  | more a => exact hmore a hpos

/-- A loop each of whose rounds takes a token. -/
theorem rounds_takes (hround : Takes round round' n)
    (hmore : ∀ a, 0 < n → Settle (others a) (others' a) (n - 1) fun _ => n) :
    Takes (Routine.rounds round others) (Routine.rounds round' others') n :=
  rounds hround hmore fun _ => Nat.le_refl n

/-- A loop each of whose rounds takes a token or is the last. -/
theorem rounds_keeps (hround : Settle round round' n (Round.left n))
    (hmore : ∀ a, 0 < n → Settle (others a) (others' a) (n - 1) fun _ => n + 1) :
    Keeps (Routine.rounds round others) (Routine.rounds round' others') n :=
  rounds hround hmore fun _ => Nat.le_refl (n + 1)

end Settle

end Parser

open Routine.Parser

variable {n : Nat}

/-! ### The rounds of the loops -/

theorem settle_topRound {statement statement' : Parser Stmt}
    (hstatement : 0 < n → Takes statement statement' n) :
    Settle (topRound statement) (topRound statement') n (Round.left n) :=
  .peek (.pure _ (Nat.lt_succ_self n)) fun _ hn =>
    (hstatement hn).bind fun _ _ => .pure _ (Nat.sub_lt hn Nat.one_pos)

theorem takes_blockRound {statement statement' : Parser Stmt}
    (hstatement : 0 < n → Takes statement statement' n) :
    Takes (blockRound statement) (blockRound statement') n := by
  refine .peek (.unexpected _) fun x hn => ?_
  split
  · exact .advance (.pure _ (by omega))
  · rename_i hnone
    cases hnone
  · exact (hstatement hn).bind fun _ _ => .pure _ (by omega)

section

variable {expr expr' : Nat → Parser Expr}
  (hexpr : ∀ power m, m < n → Takes (expr power) (expr' power) m)
include hexpr

theorem takes_variableRound (kind : DeclKind) :
    Takes (variableRound expr kind) (variableRound expr' kind) n := by
  -- What follows the value, if there is one.
  have hrest (name : String) (value : Option Expr) {m : Nat} (hm : m < n) :
      Settle (do
        if ← eat .comma then return Round.more (name, value) else return .last [(name, value)])
        (do
        if ← eat .comma then return Round.more (name, value) else return .last [(name, value)])
        m fun _ => n :=
    .eat (fun _ => .pure _ (by omega)) (.pure _ hm)
  refine Settle.expectName.bind fun name hn => .eat (fun hn' => ?_) ?_
  · exact ((hexpr itemPower _ (by omega)).map (g := some)).bind fun value _ =>
      hrest name value (by omega)
  · simp only [Bool.false_eq_true, if_false]
    split
    · exact .stop _
    · exact hrest name none (by omega)

theorem settle_jointRound (least : Nat) (left : Expr) :
    Settle (jointRound expr least left) (jointRound expr' least left) n (Round.left n) := by
  refine .peek (.pure _ (Nat.lt_succ_self n)) fun x hn => ?_
  cases joint? (some x) with
  | none => exact .pure _ (Nat.lt_succ_self n)
  | some found =>
    obtain ⟨power, joint⟩ := found
    dsimp only
    split
    · exact .pure _ (Nat.lt_succ_self n)
    · have hmore (next : Expr) {m : Nat} (hm : m < n) :
          Settle (pure (Round.more next) : Parser (Round Expr Expr)) (pure (.more next)) m
            (Round.left n) := .pure _ hm
      refine .advance ?_
      have hn' : n - 1 < n := by omega
      cases joint with
      | assign op =>
        dsimp only
        split
        · exact (hexpr power.right _ hn').bind fun value _ => hmore _ (by omega)
        · exact .stop _
      | conditional =>
        refine (hexpr itemPower _ hn').bind fun yes _ => ?_
        refine (Settle.expect .colon).bind fun _ _ => ?_
        exact (hexpr power.right _ (by omega)).bind fun no _ => hmore _ (by omega)
      | logical op => exact (hexpr power.right _ hn').bind fun right _ => hmore _ (by omega)
      | binary op => exact (hexpr power.right _ hn').bind fun right _ => hmore _ (by omega)

theorem settle_selectionRound {args args' : Parser (List Expr)}
    (hargs : ∀ m < n, Takes args args' m) (e : Expr) :
    Settle (selectionRound expr args e) (selectionRound expr' args' e) n (Round.left n) := by
  have hmore (next : Expr) {m : Nat} (hm : m < n) :
      Settle (pure (Round.more next) : Parser (Round Expr Expr)) (pure (.more next)) m
        (Round.left n) := .pure _ hm
  have hproperty (optional : Bool) {m : Nat} (hm : m < n) :
      Settle (expectName >>= fun property =>
          pure (Round.more (.member e property optional)) : Parser (Round Expr Expr))
        (expectName >>= fun property => pure (.more (.member e property optional))) m
        (Round.left n) :=
    Settle.expectName.bind fun property _ => hmore _ (by omega)
  have hindex (optional : Bool) {m : Nat} (hm : m < n) :
      Settle (expr 0 >>= fun key => expect .closeBracket >>= fun _ =>
          pure (Round.more (.index e key optional)) : Parser (Round Expr Expr))
        (expr' 0 >>= fun key => expect .closeBracket >>= fun _ =>
          pure (.more (.index e key optional))) m (Round.left n) :=
    (hexpr 0 m hm).bind fun key _ => (Settle.expect _).bind fun _ _ => hmore _ (by omega)
  have hcall (optional : Bool) {m : Nat} (hm : m < n) :
      Settle (args >>= fun args => pure (Round.more (.call e args optional)) :
          Parser (Round Expr Expr))
        (args' >>= fun args => pure (.more (.call e args optional))) m (Round.left n) :=
    (hargs m hm).bind fun args _ => hmore _ (by omega)
  refine .peek (.pure _ (Nat.lt_succ_self n)) fun x hn => ?_
  have hn' : n - 1 < n := by omega
  split
  · exact .advance (hproperty false hn')
  · refine .advance (.eat (fun _ => hcall true (by omega)) ?_)
    refine .eat (fun _ => hindex true (by omega)) ?_
    exact hproperty true hn'
  · exact .advance (hindex false hn')
  · exact .advance (hcall false hn')
  · split
    · exact .pure _ (Nat.lt_succ_self n)
    · split
      · exact .advance (hmore _ hn')
      · exact .pure _ (Nat.lt_succ_self n)

end

/-- A round of a list of items each of which takes a token. -/
theorem takes_itemRound {α : Type} {item item' : Parser α} {close : Punctuator}
    (hitem : Takes item item' n) : Takes (itemRound item close) (itemRound item' close) n := by
  refine .at? fun here hpos => ?_
  split
  · rename_i hhere
    exact .advance (.pure _ (Nat.sub_lt (hpos hhere) Nat.one_pos))
  · refine hitem.bind fun a hn => .eat (fun _ => .pure _ ?_) ?_
    · show n - 1 - 1 < n
      omega
    · exact (Settle.expect close).bind fun _ _ => .pure _ (by omega)

/-- A list of items each of which takes a token. -/
theorem takes_commaList {α : Type} {item item' : Parser α} {close : Punctuator} {bound bound' : Nat}
    (hbound : n < bound) (hbound' : n < bound') (hitem : ∀ m ≤ n, Takes item item' m) :
    Takes (commaList item close bound) (commaList item' close bound') n := by
  induction bound generalizing n bound' with
  | zero => omega
  | succ bound ih =>
    obtain ⟨bound', rfl⟩ : ∃ b, bound' = b + 1 := ⟨bound' - 1, by omega⟩
    rw [commaList_succ, commaList_succ]
    refine .rounds_takes (takes_itemRound (hitem n (Nat.le_refl n))) fun a hn => ?_
    exact ((ih (by omega) (by omega) fun m hm => hitem m (by omega)).map).mono (by omega)

/-! ### The functions -/

/-- With a bound this large, no function of the parser exhausts it, and a larger one changes
nothing.  All functions but those for what may be empty take a token. -/
structure ParserEnds (bound bound' : Nat) : Prop where
  expression (n least : Nat) (h : 8 * n + 3 ≤ bound) :
    Takes (expression bound least) (expression bound' least) n
  continueWith (n least : Nat) (left : Expr) (h : 8 * n + 1 ≤ bound) :
    Keeps (continueWith bound least left) (continueWith bound' least left) n
  operand (n : Nat) (h : 8 * n + 2 ≤ bound) : Takes (operand bound) (operand bound') n
  selections (n : Nat) (e : Expr) (h : 8 * n + 1 ≤ bound) :
    Keeps (selections bound e) (selections bound' e) n
  primary (n : Nat) (h : 8 * n + 1 ≤ bound) : Takes (primary bound) (primary bound') n
  objectMember (n : Nat) (h : 8 * n + 1 ≤ bound) :
    Takes (objectMember bound) (objectMember bound') n
  functionBody (n : Nat) (params : List String) (h : 8 * n + 4 ≤ bound) :
    Takes (functionBody bound params) (functionBody bound' params) n
  block (n : Nat) (h : 8 * n + 1 ≤ bound) : Takes (block bound) (block bound') n
  statements (n : Nat) (h : 8 * n + 5 ≤ bound) : Takes (statements bound) (statements bound') n
  statement (n : Nat) (h : 8 * n + 4 ≤ bound) : Takes (statement bound) (statement bound') n
  declaration (n : Nat) (kind : DeclKind) (h : 8 * n + 1 ≤ bound) :
    Takes (declaration bound kind) (declaration bound' kind) n
  forLoop (n : Nat) (h : 8 * n + 1 ≤ bound) : Takes (forLoop bound) (forLoop bound') n
  countedLoop (n : Nat) (kind : Option DeclKind) (h : 8 * n + 4 ≤ bound) :
    Takes (countedLoop bound kind) (countedLoop bound' kind) n

namespace ParserEnds

variable {bound bound' : Nat} (ih : ParserEnds bound bound')
include ih

theorem expression_succ (least : Nat) (h : 8 * n + 3 ≤ bound + 1) :
    Takes (Routine.expression (bound + 1) least) (Routine.expression (bound' + 1) least) n := by
  rw [Routine.expression, Routine.expression]
  exact (ih.operand n (by omega)).bind fun left hn =>
    (ih.continueWith (n - 1) least left (by omega)).mono (by omega)

theorem continueWith_succ (least : Nat) (left : Expr) (h : 8 * n + 1 ≤ bound + 1) :
    Keeps (Routine.continueWith (bound + 1) least left)
      (Routine.continueWith (bound' + 1) least left) n := by
  rw [Routine.continueWith_succ, Routine.continueWith_succ]
  refine .rounds_keeps (settle_jointRound ?_ least left) fun next hn => ?_
  · exact fun power m hm => ih.expression m power (by omega)
  · exact (ih.continueWith (n - 1) least next (by omega)).mono (by omega)

theorem operand_succ (h : 8 * n + 2 ≤ bound + 1) :
    Takes (Routine.operand (bound + 1)) (Routine.operand (bound' + 1)) n := by
  rw [Routine.operand, Routine.operand]
  have hplain : Takes (Routine.primary bound >>= fun e => Routine.selections bound e)
      (Routine.primary bound' >>= fun e => Routine.selections bound' e) n :=
    (ih.primary n (by omega)).bind fun e hn => (ih.selections (n - 1) e (by omega)).mono (by omega)
  refine .peek hplain fun x hn => ?_
  split
  · exact .advance ((ih.expression (n - 1) _ (by omega)).result.mono (by omega))
  · split
    · exact .advance ((ih.expression (n - 1) _ (by omega)).result.mono (by omega))
    · exact hplain

theorem selections_succ (hle : bound ≤ bound') (e : Expr) (h : 8 * n + 1 ≤ bound + 1) :
    Keeps (Routine.selections (bound + 1) e) (Routine.selections (bound' + 1) e) n := by
  rw [Routine.selections_succ, Routine.selections_succ]
  have hexpr (power m : Nat) (hm : m < n) :
      Takes (Routine.expression bound power) (Routine.expression bound' power) m :=
    ih.expression m power (by omega)
  refine .rounds_keeps (settle_selectionRound hexpr (fun m hm => ?_) e) fun next hn => ?_
  · exact takes_commaList (by omega) (by omega) fun l hl => hexpr itemPower l (by omega)
  · exact (ih.selections (n - 1) next (by omega)).mono (by omega)

theorem primary_succ (hle : bound ≤ bound') (h : 8 * n + 1 ≤ bound + 1) :
    Takes (Routine.primary (bound + 1)) (Routine.primary (bound' + 1)) n := by
  rw [Routine.primary, Routine.primary]
  have hlist {m : Nat} (hm : m < n) (close : Punctuator) :
      Takes (commaList (Routine.expression bound itemPower) close bound)
        (commaList (Routine.expression bound' itemPower) close bound') m :=
    takes_commaList (by omega) (by omega) fun l hl => ih.expression l itemPower (by omega)
  have hbody (params : List String) {m : Nat} (hm : m < n) :
      Settle (Routine.functionBody bound params) (Routine.functionBody bound' params) m
        fun _ => n :=
    (ih.functionBody m params (by omega)).mono (by omega)
  refine .peek (.unexpected _) fun x hn => ?_
  have hn' : n - 1 < n := by omega
  have hnames : Takes (commaList expectName .closeParen bound)
      (commaList expectName .closeParen bound') (n - 1) :=
    takes_commaList (by omega) (by omega) fun l _ => .expectName
  split
  · exact .advance (.pure _ hn')
  · exact .advance (.pure _ hn')
  · refine .input fun i => ?_
    split
    · exact .advance (.advance (hbody _ (by omega)))
    · exact .advance (.pure _ hn')
  · refine .input fun i => ?_
    split
    · refine .advance (hnames.bind fun params _ => ?_)
      exact (Settle.expect .arrow).bind fun _ _ => hbody params (by omega)
    · refine .advance ((ih.expression (n - 1) 0 (by omega)).bind fun e _ => ?_)
      exact (Settle.expect .closeParen).result.mono (by omega)
  · exact .advance ((hlist hn' _).result.mono (by omega))
  · refine .advance (Settle.mono (.result ?_) (Nat.le_of_lt hn'))
    exact takes_commaList (by omega) (by omega) fun l hl => ih.objectMember l (by omega)
  · exact .unexpected _

theorem objectMember_succ (h : 8 * n + 1 ≤ bound + 1) :
    Takes (Routine.objectMember (bound + 1)) (Routine.objectMember (bound' + 1)) n := by
  rw [Routine.objectMember, Routine.objectMember]
  refine .peek (.fault _) fun x hn => ?_
  split
  · exact .fault _
  · refine .advance (.eat (fun _ => ?_) (.pure _ (by omega)))
    exact (ih.expression _ itemPower (by omega)).result.mono (by omega)

theorem functionBody_succ (params : List String) (h : 8 * n + 4 ≤ bound + 1) :
    Takes (Routine.functionBody (bound + 1) params) (Routine.functionBody (bound' + 1) params)
      n := by
  rw [Routine.functionBody, Routine.functionBody]
  refine .at? fun here _ => ?_
  split
  · exact (ih.block n (by omega)).result
  · exact (ih.expression n itemPower (by omega)).result

theorem block_succ (h : 8 * n + 1 ≤ bound + 1) :
    Takes (Routine.block (bound + 1)) (Routine.block (bound' + 1)) n := by
  rw [Routine.block, Routine.block]
  exact (Settle.expect .openBrace).bind fun _ hn =>
    (ih.statements (n - 1) (by omega)).mono (by omega)

theorem statements_succ (h : 8 * n + 5 ≤ bound + 1) :
    Takes (Routine.statements (bound + 1)) (Routine.statements (bound' + 1)) n := by
  rw [Routine.statements_succ, Routine.statements_succ]
  refine .rounds_takes (takes_blockRound fun _ => ih.statement n (by omega)) fun s hn => ?_
  exact (ih.statements (n - 1) (by omega)).map.mono (by omega)

theorem declaration_succ (kind : DeclKind) (h : 8 * n + 1 ≤ bound + 1) :
    Takes (Routine.declaration (bound + 1) kind) (Routine.declaration (bound' + 1) kind) n := by
  rw [Routine.declaration_succ, Routine.declaration_succ]
  refine .rounds_takes (takes_variableRound ?_ kind) fun x hn => ?_
  · exact fun power m hm => ih.expression m power (by omega)
  · exact (ih.declaration (n - 1) kind (by omega)).map.mono (by omega)

theorem countedLoop_succ (kind : Option DeclKind) (h : 8 * n + 4 ≤ bound + 1) :
    Takes (Routine.countedLoop (bound + 1) kind) (Routine.countedLoop (bound' + 1) kind) n := by
  rw [Routine.countedLoop, Routine.countedLoop]
  refine .at? fun here _ => ?_
  extract_lets afterInit afterInit'
  have hafterInit (init : Option Stmt) {m : Nat} (hm : m ≤ n) :
      Settle (afterInit init) (afterInit' init) m fun _ => n := by
    refine (Settle.expect _).bind fun _ hpos => .at? fun here _ => ?_
    extract_lets afterTest afterTest'
    have hafterTest (test : Option Expr) {m : Nat} (hm : m < n) :
        Settle (afterTest test) (afterTest' test) m fun _ => n := by
      refine (Settle.expect _).bind fun _ hpos => .at? fun here _ => ?_
      extract_lets afterUpdate afterUpdate'
      have hafterUpdate (update : Option Expr) {m : Nat} (hm : m < n) :
          Settle (afterUpdate update) (afterUpdate' update) m fun _ => n :=
        (Settle.expect _).bind fun _ _ => (ih.statement _ (by omega)).result.mono (by omega)
      cases here with
      | true => exact hafterUpdate none (by omega)
      | false =>
        exact ((ih.expression (m - 1) 0 (by omega)).map (g := some)).bind fun update _ =>
          hafterUpdate update (by omega)
    cases here with
    | true => exact hafterTest none (by omega)
    | false =>
      exact ((ih.expression (m - 1) 0 (by omega)).map (g := some)).bind fun test _ =>
        hafterTest test (by omega)
  cases here with
  | true => exact hafterInit none (by omega)
  | false =>
    cases kind with
    | some kind =>
      exact .advance ((ih.declaration (n - 1) kind (by omega)).bind fun bindings _ =>
        hafterInit (some (.declare kind bindings)) (by omega))
    | none =>
      exact (ih.expression n 0 (by omega)).bind fun e _ => hafterInit (some (.expr e)) (by omega)

theorem forLoop_succ (h : 8 * n + 1 ≤ bound + 1) :
    Takes (Routine.forLoop (bound + 1)) (Routine.forLoop (bound' + 1)) n := by
  rw [Routine.forLoop, Routine.forLoop]
  have hcounted (kind : Option DeclKind) {m : Nat} (hm : m < n) :
      Settle (Routine.countedLoop bound kind) (Routine.countedLoop bound' kind) m fun _ => n :=
    (ih.countedLoop m kind (by omega)).mono (by omega)
  have heach (head : EachHead) (kind : Option DeclKind) (name : String) {m : Nat} (hm : m < n) :
      Settle (do
          let source ← Routine.expression bound 0
          expect .closeParen
          return Stmt.each head kind name source (← Routine.statement bound))
        (do
          let source ← Routine.expression bound' 0
          expect .closeParen
          return Stmt.each head kind name source (← Routine.statement bound')) m fun _ => n :=
    (ih.expression m 0 (by omega)).bind fun source _ => (Settle.expect _).bind fun _ _ =>
      (ih.statement _ (by omega)).result.mono (by omega)
  refine (Settle.expect _).bind fun _ hn => ?_
  refine .look (fun _ => ⟨_, rfl⟩) fun here => .input fun i => ?_
  dsimp only
  split
  · split
    · split
      · exact .advance (.advance (.advance (heach _ _ _ (by omega))))
      · exact .advance (.advance (heach _ _ _ (by omega)))
    · exact hcounted _ (by omega)
  · exact hcounted _ (by omega)

theorem statement_succ (h : 8 * n + 4 ≤ bound + 1) :
    Takes (Routine.statement (bound + 1)) (Routine.statement (bound' + 1)) n := by
  rw [Routine.statement, Routine.statement]
  have hexpr {m : Nat} (hm : m ≤ n) (least : Nat) :
      Takes (Routine.expression bound least) (Routine.expression bound' least) m :=
    ih.expression m least (by omega)
  have hstmt {m : Nat} (hm : m < n) :
      Takes (Routine.statement bound) (Routine.statement bound') m :=
    ih.statement m (by omega)
  have hend {γ : Type} (s : γ) {m : Nat} (hm : m < n) :
      Settle (endStatement >>= fun _ => Pure.pure s) (endStatement >>= fun _ => Pure.pure s) m
        fun _ => n :=
    Settle.endStatement.result.mono (by omega)
  have hdone (s : Stmt) (hn : 0 < n) :
      Settle (Pure.pure s : Parser Stmt) (Pure.pure s) (n - 1) fun _ => n := .pure s (by omega)
  refine .lexeme fun here hpos => .lineHere fun line => ?_
  split
  · exact (ih.block n (by omega)).result
  · exact .advance (hdone _ (hpos rfl))
  · split
    · rename_i kind hkind
      have hn : 0 < n := by
        cases here with
        | none => cases hkind
        | some x => exact hpos rfl
      refine .advance ((ih.declaration (n - 1) kind (by omega)).bind fun bindings _ => ?_)
      exact hend _ (by omega)
    · refine .input fun i => ?_
      split
      · refine .advance ((Settle.expect _).bind fun _ _ => ?_)
        refine (hexpr (by omega) 0).bind fun object _ => (Settle.expect _).bind fun _ _ => ?_
        exact (ih.block _ (by omega)).result.mono (by omega)
      · split
        · have hn := hpos rfl
          refine .advance ((Settle.expect _).bind fun _ _ => ?_)
          refine (hexpr (by omega) 0).bind fun test _ => (Settle.expect _).bind fun _ _ => ?_
          refine (hstmt (by omega)).bind fun yes _ => .look (fun _ => ⟨_, rfl⟩) fun next => ?_
          split
          · exact .advance ((hstmt (by omega)).result.mono (by omega))
          · exact .pure _ (by omega)
        · have hn := hpos rfl
          exact .advance ((ih.forLoop (n - 1) (by omega)).mono (by omega))
        · have hn := hpos rfl
          refine .advance ((Settle.expect _).bind fun _ _ => ?_)
          refine (hexpr (by omega) 0).bind fun test _ => (Settle.expect _).bind fun _ _ => ?_
          exact (hstmt (by omega)).result.mono (by omega)
        · have hn := hpos rfl
          exact .advance (hend _ (by omega))
        · have hn := hpos rfl
          exact .advance (hend _ (by omega))
        · have hn := hpos rfl
          refine .advance (.look (fun _ => ⟨_, rfl⟩) fun next => .lineHere fun nextLine => ?_)
          split
          · exact hend _ (by omega)
          · exact (hexpr (by omega) 0).bind fun e _ => hend _ (by omega)
        · have hn := hpos rfl
          exact .advance ((hexpr (by omega) 0).bind fun e _ => hend _ (by omega))
        · exact .unexpected _
        · exact (hexpr (Nat.le_refl n) 0).bind fun e _ => hend _ (by omega)

end ParserEnds

/-- Every function of the parser ends with every bound that is large enough. -/
theorem parserEnds {bound bound' : Nat} (hle : bound ≤ bound') : ParserEnds bound bound' := by
  induction bound generalizing bound' with
  | zero => constructor <;> intros <;> omega
  | succ bound ih =>
    obtain ⟨bound', rfl⟩ : ∃ b, bound' = b + 1 := ⟨bound' - 1, by omega⟩
    have hle' : bound ≤ bound' := Nat.le_of_succ_le_succ hle
    have ih := ih hle'
    exact {
      expression := fun n => ih.expression_succ
      continueWith := fun n => ih.continueWith_succ
      operand := fun n => ih.operand_succ
      selections := fun n => ih.selections_succ hle'
      primary := fun n => ih.primary_succ hle'
      objectMember := fun n => ih.objectMember_succ
      functionBody := fun n => ih.functionBody_succ
      block := fun n => ih.block_succ
      statements := fun n => ih.statements_succ
      statement := fun n => ih.statement_succ
      declaration := fun n => ih.declaration_succ
      forLoop := fun n => ih.forLoop_succ
      countedLoop := fun n => ih.countedLoop_succ }

theorem keeps_topStatements {bound bound' : Nat} (hle : bound ≤ bound') (h : 8 * n + 5 ≤ bound) :
    Keeps (topStatements bound) (topStatements bound') n := by
  induction bound generalizing n bound' with
  | zero => omega
  | succ bound ih =>
    obtain ⟨bound', rfl⟩ : ∃ b, bound' = b + 1 := ⟨bound' - 1, by omega⟩
    rw [topStatements_succ, topStatements_succ]
    have hstatement : Takes (statement bound) (statement bound') n :=
      (parserEnds (by omega)).statement n (by omega)
    refine .rounds_keeps (settle_topRound fun _ => hstatement) fun s hn => ?_
    exact ((ih (by omega) (by omega)).map).mono (by omega)

/-- **The parser never reaches its bound**: a source has a program or a fault. -/
theorem parseProgram_ne_exhausted (params : List String) (source : String) :
    parseProgram params source ≠ .error .exhausted := by
  rw [parseProgram]
  cases lex source with
  | error e => exact nofun
  | ok lexed =>
    have hends : Keeps (topStatements (callBound lexed.tokens.length))
        (topStatements (callBound lexed.tokens.length)) lexed.tokens.length :=
      keeps_topStatements (Nat.le_refl _) (by unfold callBound; omega)
    show ((topStatements (callBound lexed.tokens.length) ⟨lexed.tokens, lexed.endLine⟩).map _ :
      Except Stop Program) ≠ _
    rcases hends ⟨lexed.tokens, lexed.endLine⟩ (Nat.le_refl _) with ⟨e, he, _⟩ | ⟨a, i', ha, _⟩
    · rw [he]
      exact nofun
    · rw [ha]
      exact nofun

end Stencil.Routine
