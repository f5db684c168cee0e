import Stencil.Proofs.Brackets
import Stencil.Proofs.Embedding
import Stencil.Proofs.Reading.Parsing

/-!
# The parser elsewhere

What the parser makes of a stretch of tokens does not depend on the lines that the stretch stands
on, on what follows it, or on the bound, as long as what follows goes on with nothing.

* `Spot` — lines further down, in front of a token that goes on with no expression and others;
* `Spot.Carries` — where one parser gives a result, another gives the same one on the spot, and the
  tokens that it takes close as many brackets as it should;
* `Carries.bind`, `Carries.eat`, … — parsers in a row.
-/

namespace Stencil.Reading

open Routine Routine.Parser Template

/-! ### Spots -/

/-- Where a stretch of tokens may stand. -/
structure Spot where
  /-- How many lines further down. -/
  shift : Nat
  /-- The token that follows. -/
  next : Token
  /-- The tokens behind it. -/
  others : List Token
  /-- The token that follows goes on with no expression. -/
  ends : next.lexeme = .sign .closeParen ∨ next.lexeme = .name outputName
    ∨ next.lexeme = .name "return"

namespace Spot

/-- A stretch of tokens on the spot, with what follows it. -/
def put (s : Spot) (tokens : List Token) : List Token :=
  tokens.map (Token.down s.shift) ++ s.next :: s.others

/-- What follows is a statement. -/
def Apart (s : Spot) : Prop := s.next.lexeme ≠ .sign .closeParen

/-- A statement that follows stands on a line below the stretch. -/
def Holds (s : Spot) (tokens : List Token) : Prop :=
  s.Apart → ∀ token ∈ tokens, token.line + s.shift < s.next.line

variable {s : Spot}

/-- Of all signs, only one may follow. -/
theorem not_leads (s : Spot) {p : Punctuator} (hp : p ≠ .closeParen) :
    leads p (s.next :: s.others) = false := by
  have hnext : leads p (s.next :: s.others) = (some s.next.lexeme == some (.sign p)) := rfl
  rw [hnext]
  rcases s.ends with h | h | h
  · rw [h, beq_eq_false_iff_ne]
    rintro ⟨⟩
    exact hp rfl
  · rw [h]
    rfl
  · rw [h]
    rfl

theorem put_cons (s : Spot) (token : Token) (tokens : List Token) :
    s.put (token :: tokens) = token.down s.shift :: s.put tokens := rfl

theorem Holds.tail {token : Token} {tokens : List Token} (h : s.Holds (token :: tokens)) :
    s.Holds tokens :=
  fun hapart other hother => h hapart other (List.mem_cons_of_mem token hother)

theorem Holds.right {tokens others : List Token} (h : s.Holds (tokens ++ others)) :
    s.Holds others :=
  fun hapart token htoken => h hapart token (List.mem_append_right tokens htoken)

/-- A sign at the front of a stretch is at its front on the spot. -/
theorem leads_put (p : Punctuator) (token : Token) (tokens : List Token) :
    leads p (s.put (token :: tokens)) = leads p (token :: tokens) := rfl

/-! ### Carrying results -/

/-- Where the first parser gives a result on a stretch, it takes tokens that close `n` brackets, and
the second one gives the same result on the spot, provided that what follows is as it should be if
nothing of the stretch is left. -/
def Carries {α : Type} (s : Spot) (A : Prop) (n : Nat) (p q : Parser α) (tokens : List Token) :
    Prop :=
  s.Holds tokens → ∀ last a after, p ⟨tokens, last⟩ = .ok (a, after) →
    ∃ taken rest, tokens = taken ++ rest ∧ after = ⟨rest, last⟩ ∧ Closing n taken
      ∧ ((rest = [] → A) → ∀ l, q ⟨s.put tokens, l⟩ = .ok (a, ⟨s.put rest, l⟩))

namespace Carries

variable {α β : Type} {A B : Prop} {m n k : Nat} {p q : Parser α} {f g : α → Parser β}
  {x : Lexeme} {line : Nat} {tokens : List Token}

theorem mono (h : s.Carries A n p q tokens) (hA : B → A) : s.Carries B n p q tokens := by
  intro hholds last a after hown
  obtain ⟨taken, rest, htokens, hafter, hclosing, hmoved⟩ := h hholds last a after hown
  exact ⟨taken, rest, htokens, hafter, hclosing, fun hend => hmoved fun hrest => hA (hend hrest)⟩

/-- A parser without a result. -/
theorem of_error (h : ∀ last, ∃ e, p ⟨tokens, last⟩ = .error e) : s.Carries A n p q tokens := by
  intro _ last a after hown
  obtain ⟨e, he⟩ := h last
  rw [he] at hown
  cases hown

theorem fault (fault : SyntaxFault) : s.Carries A n (fail fault) q tokens :=
  of_error fun _ => ⟨_, rfl⟩

theorem unexpected (what : String) : s.Carries A n (unexpected what) q tokens :=
  of_error fun _ => ⟨_, rfl⟩

/-- A result without taking anything. -/
theorem pure (a : α) : s.Carries A 0 (Pure.pure a) (Pure.pure a) tokens := by
  rintro - last b after ⟨⟩
  exact ⟨[], tokens, rfl, rfl, Balanced.nil, fun _ _ => rfl⟩

/-- Two parsers in a row, the second of which may have its own condition on what follows if it has
no result where nothing is left. -/
theorem bind_general {C : Prop} (hn : m + n = k) (hp : s.Carries A m p q tokens)
    (hA : (∃ a last, ∀ e, f a ⟨[], last⟩ ≠ .error e) → C → A)
    (hf : ∀ a rest, s.Carries C n (f a) (g a) rest) :
    s.Carries C k (p >>= f) (q >>= g) tokens := by
  intro hholds last b after hown
  obtain ⟨a, middle, hfirst, hsecond⟩ := exists_of_bind_ok hown
  obtain ⟨taken, rest, rfl, rfl, hclosing, hmoved⟩ := hp hholds last a middle hfirst
  obtain ⟨taken', rest', rfl, rfl, hclosing', hmoved'⟩ :=
    hf a rest hholds.right last b after hsecond
  refine ⟨taken ++ taken', rest', (List.append_assoc taken taken' rest').symm, rfl, ?_, ?_⟩
  · rw [← hn]
    exact hclosing.append hclosing'
  · intro hend l
    have hmiddle : taken' ++ rest' = [] → A := by
      intro hnil
      have hleft : rest' = [] := (List.append_eq_nil_iff.mp hnil).2
      rw [hnil] at hsecond
      refine hA ⟨a, last, fun e he => ?_⟩ (hend hleft)
      rw [he] at hsecond
      cases hsecond
    exact (bind_ok (hmoved hmiddle l)).trans (hmoved' hend l)

/-- Two parsers in a row. -/
theorem bind (hn : m + n = k) (hp : s.Carries A m p q tokens)
    (hf : ∀ a rest, s.Carries A n (f a) (g a) rest) : s.Carries A k (p >>= f) (q >>= g) tokens :=
  hp.bind_general hn (fun _ hA => hA) hf

/-- Two parsers in a row, where the second one has no result if nothing is left. -/
theorem bind_followed (hn : m + n = k) (hp : s.Carries A m p q tokens)
    (hnil : ∀ a last, ∃ e, f a ⟨[], last⟩ = .error e)
    (hf : ∀ a rest, s.Carries B n (f a) (g a) rest) : s.Carries B k (p >>= f) (q >>= g) tokens :=
  hp.bind_general hn
    (fun hsome => by
      obtain ⟨a, last, hnone⟩ := hsome
      obtain ⟨e, he⟩ := hnil a last
      exact absurd he (hnone e))
    hf

/-- A result that is made from that of a parser. -/
theorem result {γ : Type} {h : α → γ} (hp : s.Carries A n p q tokens) :
    s.Carries A n (p >>= fun a => Pure.pure (h a)) (q >>= fun a => Pure.pure (h a)) tokens :=
  hp.bind (Nat.add_zero n) fun a _ => pure (h a)

/-! ### Single steps -/

/-- What is done about the token that stands here. -/
theorem peek_cons {f g : Option Lexeme → Parser β}
    (h : s.Carries A n (f (some x)) (g (some x)) (⟨x, line⟩ :: tokens)) :
    s.Carries A n (peek >>= f) (peek >>= g) (⟨x, line⟩ :: tokens) := h

/-- What is done where nothing of the stretch is left. -/
theorem peek_nil {f g : Option Lexeme → Parser β} {b : β} (hown : f none = Pure.pure b)
    (hmoved : g (some s.next.lexeme) = Pure.pure b) :
    s.Carries A 0 (peek >>= f) (peek >>= g) [] := by
  intro _ last b' after h
  have h : f none ⟨[], last⟩ = .ok (b', after) := h
  rw [hown] at h
  cases h
  refine ⟨[], [], rfl, rfl, Balanced.nil, fun _ l => ?_⟩
  show g (some s.next.lexeme) _ = _
  rw [hmoved]
  rfl

/-- What is done about the line of the token that stands here. -/
theorem lineHere_cons {f g : Nat → Parser β}
    (h : s.Carries A n (f line) (g (line + s.shift)) (⟨x, line⟩ :: tokens)) :
    s.Carries A n (lineHere >>= f) (lineHere >>= g) (⟨x, line⟩ :: tokens) := h

/-- What taking the lexeme does to the brackets: rows that close `m` of them close `n` with it. -/
def Steps (x : Lexeme) (n m : Nat) : Prop :=
  ∀ line tokens, Closing m tokens → Closing n (⟨x, line⟩ :: tokens)

theorem steps_plain {x : Lexeme} (n : Nat)
    (h : ∀ p, x = .sign p → p.opens = false ∧ p.closes = false) : Steps x n n := by
  intro line tokens htokens
  have hsingle : Closing 0 [⟨x, line⟩] := Balanced.single h
  have hboth := hsingle.append htokens
  rw [Nat.zero_add] at hboth
  exact hboth

theorem steps_sign (p : Punctuator) (n : Nat) (hopens : p.opens = false)
    (hcloses : p.closes = false) : Steps (.sign p) n n := by
  refine steps_plain n ?_
  rintro q ⟨⟩
  exact ⟨hopens, hcloses⟩

theorem steps_name (word : String) (n : Nat) : Steps (.name word) n n :=
  steps_plain n fun _ => nofun

theorem steps_open {p : Punctuator} (hp : p.opens = true) (n : Nat) : Steps (.sign p) n (n + 1) :=
  fun _ _ h => h.cons_open hp

theorem steps_close {p : Punctuator} (hp : p.closes = true) (n : Nat) :
    Steps (.sign p) (n + 1) n :=
  fun _ _ h => h.cons_close hp

/-- Past the token that stands here. -/
theorem advance_cons {f g : Unit → Parser β} (hx : Steps x n m)
    (h : s.Carries A m (f ()) (g ()) tokens) :
    s.Carries A n (advance >>= f) (advance >>= g) (⟨x, line⟩ :: tokens) := by
  intro hholds last a after hown
  have hown : f () ⟨tokens, last⟩ = .ok (a, after) := hown
  obtain ⟨taken, rest, rfl, hafter, hclosing, hmoved⟩ :=
    h hholds.tail last a after hown
  exact ⟨⟨x, line⟩ :: taken, rest, rfl, hafter, hx line taken hclosing, fun hend l => hmoved hend l⟩

/-- Whether a sign stands here. -/
theorem at? {p : Punctuator} {f g : Bool → Parser β} (hp : tokens = [] → p ≠ .closeParen)
    (h : s.Carries A n (f (leads p tokens)) (g (leads p tokens)) tokens) :
    s.Carries A n (at? p >>= f) (at? p >>= g) tokens := by
  intro hholds last a after hown
  rw [bind_ok (at?_eq p tokens last)] at hown
  obtain ⟨taken, rest, htokens, hafter, hclosing, hmoved⟩ := h hholds last a after hown
  refine ⟨taken, rest, htokens, hafter, hclosing, fun hend l => ?_⟩
  rw [bind_ok (at?_eq p _ l)]
  have hleads : leads p (s.put tokens) = leads p tokens := by
    cases tokens with
    | nil => exact s.not_leads (hp rfl)
    | cons token tokens => rfl
  rw [hleads]
  exact hmoved hend l

/-- A token whose lexeme is known by its sign. -/
theorem eq_cons_of_leads {p : Punctuator} {tokens : List Token} (h : leads p tokens = true) :
    ∃ line rest, tokens = ⟨.sign p, line⟩ :: rest := by
  cases tokens with
  | nil => cases h
  | cons token rest =>
    obtain ⟨lexeme, line⟩ := token
    have hlexeme : some lexeme = some (Lexeme.sign p) := beq_iff_eq.mp h
    cases hlexeme
    exact ⟨line, rest, rfl⟩

/-- A sign that may stand here is taken if it does. -/
theorem eat {p : Punctuator} {f g : Bool → Parser β} (hp : p ≠ .closeParen)
    (hsteps : Steps (.sign p) n m) (htrue : ∀ rest, s.Carries A m (f true) (g true) rest)
    (hfalse : s.Carries A n (f false) (g false) tokens) :
    s.Carries A n (eat p >>= f) (eat p >>= g) tokens := by
  intro hholds last a after hown
  cases hleads : leads p tokens with
  | true =>
    obtain ⟨line, rest, rfl⟩ := eq_cons_of_leads hleads
    rw [bind_ok (eat_eq_of_leads hleads)] at hown
    have h : s.Carries A n (advance >>= fun _ => f true) (advance >>= fun _ => g true)
        (⟨.sign p, line⟩ :: rest) := advance_cons hsteps (htrue rest)
    obtain ⟨taken, rest', htokens, hafter, hclosing, hmoved⟩ := h hholds last a after hown
    refine ⟨taken, rest', htokens, hafter, hclosing, fun hend l => ?_⟩
    have hleads' : leads p (s.put (⟨.sign p, line⟩ :: rest)) = true := hleads
    rw [bind_ok (eat_eq_of_leads hleads')]
    exact hmoved hend l
  | false =>
    rw [bind_ok (eat_eq_of_not_leads hleads)] at hown
    obtain ⟨taken, rest, htokens, hafter, hclosing, hmoved⟩ := hfalse hholds last a after hown
    refine ⟨taken, rest, htokens, hafter, hclosing, fun hend l => ?_⟩
    have hleads' : leads p (s.put tokens) = false := by
      cases tokens with
      | nil => exact s.not_leads hp
      | cons token tokens => exact hleads
    rw [bind_ok (eat_eq_of_not_leads hleads')]
    exact hmoved hend l

theorem expect_error {p : Punctuator} {last : Nat} (h : leads p tokens = false) :
    ∃ e, expect p ⟨tokens, last⟩ = .error e := by
  rw [Parser.expect]
  rw [bind_ok (eat_eq_of_not_leads h)]
  exact ⟨_, rfl⟩

/-- A sign that must stand here. -/
theorem expect {p : Punctuator} {f g : Unit → Parser β} (hp : Steps (.sign p) n m)
    (h : ∀ rest, s.Carries A m (f ()) (g ()) rest) :
    s.Carries A n (expect p >>= f) (expect p >>= g) tokens := by
  intro hholds last a after hown
  cases hleads : leads p tokens with
  | false =>
    have herror : ∃ e, Parser.expect p ⟨tokens, last⟩ = .error e := expect_error hleads
    obtain ⟨e, he⟩ := herror
    rw [error_bind he] at hown
    cases hown
  | true =>
    obtain ⟨line, rest, rfl⟩ := eq_cons_of_leads hleads
    rw [bind_ok (expect_eq_of_leads hleads)] at hown
    have h : s.Carries A n (advance >>= f) (advance >>= g) (⟨.sign p, line⟩ :: rest) :=
      advance_cons hp (h rest)
    obtain ⟨taken, rest', htokens, hafter, hclosing, hmoved⟩ := h hholds last a after hown
    refine ⟨taken, rest', htokens, hafter, hclosing, fun hend l => ?_⟩
    have hleads' : leads p (s.put (⟨.sign p, line⟩ :: rest)) = true := hleads
    rw [bind_ok (expect_eq_of_leads hleads')]
    exact hmoved hend l

/-- A name that must stand here. -/
theorem expectName (tokens : List Token) : s.Carries A 0 expectName expectName tokens := by
  cases tokens with
  | nil => exact of_error fun _ => ⟨_, rfl⟩
  | cons token tokens =>
    obtain ⟨lexeme, line⟩ := token
    refine peek_cons ?_
    cases lexeme with
    | name word => exact advance_cons (steps_name word 0) (pure word)
    | number x => exact unexpected _
    | text t => exact unexpected _
    | sign p => exact unexpected _

theorem endStatement (tokens : List Token) :
    s.Carries A 0 endStatement endStatement tokens :=
  eat (by decide) (steps_sign .semicolon 0 rfl rfl) (fun _ => pure ()) (pure ())

/-- A parser that depends on something about what is left, which is the same on the spot. -/
theorem inspect {γ : Type} {F : List Token → γ} {f g : γ → Parser β}
    (hF : F (s.put tokens) = F tokens) (h : s.Carries A n (f (F tokens)) (g (F tokens)) tokens) :
    s.Carries A n (get >>= fun i => f (F i.rest)) (get >>= fun i => g (F i.rest)) tokens := by
  intro hholds last b after hown
  obtain ⟨taken, rest, htokens, hafter, hclosing, hmoved⟩ := h hholds last b after hown
  refine ⟨taken, rest, htokens, hafter, hclosing, fun hend l => ?_⟩
  show g (F (s.put tokens)) ⟨s.put tokens, l⟩ = _
  rw [hF]
  exact hmoved hend l

/-- A choice between two parsers by what is left, which must be the same on the spot. -/
theorem look {F : List Token → Bool} {p p' q q' : Parser β}
    (htrue : F tokens = true → s.Carries A n p q tokens)
    (hfalse : F tokens = false → s.Carries A n p' q' tokens)
    (hput : ∀ {last rest b}, s.Holds tokens →
      (if F tokens = true then p else p') ⟨tokens, last⟩ = .ok (b, ⟨rest, last⟩) →
      (rest = [] → A) → F (s.put tokens) = F tokens) :
    s.Carries A n (get >>= fun i => if F i.rest = true then p else p')
      (get >>= fun i => if F i.rest = true then q else q') tokens := by
  intro hholds last b after hown
  have hown : (if F tokens = true then p else p') ⟨tokens, last⟩ = .ok (b, after) := hown
  have hboth : s.Carries A n (if F tokens = true then p else p')
      (if F tokens = true then q else q') tokens := by
    split
    · rename_i hF
      exact htrue hF
    · rename_i hF
      exact hfalse (Bool.eq_false_iff.mpr hF)
  obtain ⟨taken, rest, htokens, rfl, hclosing, hmoved⟩ := hboth hholds last b after hown
  refine ⟨taken, rest, htokens, rfl, hclosing, fun hend l => ?_⟩
  show (if F (s.put tokens) = true then q else q') ⟨s.put tokens, l⟩ = _
  rw [hput hholds hown hend]
  exact hmoved hend l

end Carries

end Spot

end Stencil.Reading
