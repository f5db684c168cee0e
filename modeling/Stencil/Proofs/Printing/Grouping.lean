import Stencil.Proofs.Brackets
import Stencil.Proofs.Printing.Term
import Stencil.Proofs.Reading.Parsing

/-!
# Grouping of printed expressions

The parser reads the marks of an expression as its tree, provided that nothing behind them takes
the last operand away.  It goes on with what it has read for as long as the signs bind tightly
enough, so what it makes of an expression is said for whatever it goes on to make of the rest.

* `Loose` — tokens that do not go on with an operand of a level;
* `edge` — what may follow an expression of a level;
* `Selects`, `Groups` — marks that are read as a tree in front of selections, and in front of signs;
* `Reads` — marks that are read as a tree wherever a level allows them;
* `reads_infix`, `reads_assign`, `reads_conditional`, … — one lemma for each kind of expression.
-/

namespace Stencil.Printing

open Routine Routine.Parser Reading

/-! ### What follows an operand -/

/-- The signs that go on with any operand, and the one that makes a function of it. -/
def selectingSigns : List Punctuator :=
  [.dot, .optionalDot, .openBracket, .openParen, .increment, .decrement, .arrow]

/-- Tokens that go on with no operand of the level. -/
structure Loose (level : Nat) (rest : List Token) : Prop where
  /-- A sign between operands binds more loosely. -/
  joints : ∀ power joint, joint? (rest.head?.map Token.lexeme) = some (power, joint) →
    power.left < level
  /-- Nothing is selected. -/
  apart : ∀ p ∈ selectingSigns, leads p rest = false

section Following

variable {level line need : Nat} {p : Punctuator} {rest : List Token}

theorem Loose.mono {level' : Nat} (h : Loose level rest) (hle : level ≤ level') :
    Loose level' rest :=
  ⟨fun power joint hjoint => Nat.lt_of_lt_of_le (h.joints power joint hjoint) hle, h.apart⟩

/-- A sign between operands. -/
theorem loose_joint {power : Power} {joint : Joint} (h : jointOf? p = some (power, joint))
    (hlt : power.left < level) : Loose level (onLine line (.sign p) :: rest) := by
  constructor
  · intro power' joint' hjoint
    have hjoint : jointOf? p = some (power', joint') := hjoint
    rw [h] at hjoint
    cases hjoint
    exact hlt
  · intro q hq
    rw [leads_sign, beq_eq_false_iff_ne]
    rintro rfl
    revert hq h
    cases p <;> simp [selectingSigns, jointOf?]

/-- A sign that does neither. -/
theorem loose_sign (h : jointOf? p = none) (h' : p ∉ selectingSigns) :
    Loose level (onLine line (.sign p) :: rest) := by
  constructor
  · intro power joint hjoint
    have hjoint : jointOf? p = some (power, joint) := hjoint
    rw [h] at hjoint
    cases hjoint
  · intro q hq
    rw [leads_sign, beq_eq_false_iff_ne]
    rintro rfl
    exact h' hq

theorem loose_close (hp : p.closes = true) : Loose level (onLine line (.sign p) :: rest) := by
  refine loose_sign ?_ ?_ <;> revert hp <;> cases p <;> decide

theorem gives_selections_loose (e : Expr) (h : Loose level rest) :
    Gives (selections · e) 1 rest e rest := by
  have hapart := h.apart
  refine Gives.succ ?_
  intro bound _ last
  rw [selections]
  cases rest with
  | nil => rfl
  | cons token rest =>
    obtain ⟨lexeme, line⟩ := token
    cases lexeme with
    | number x => rfl
    | text s => rfl
    | name s => rfl
    | sign p =>
      have hp : p ∉ selectingSigns := fun hmem => by
        have hleads := (leads_sign line p p rest).symm.trans (hapart p hmem)
        rw [beq_self_eq_true] at hleads
        cases hleads
      revert hp
      cases p <;> first | (intro _; rfl) | (intro hp; exact absurd (by decide) hp)

theorem gives_continueWith_loose {least : Nat} (e : Expr) (h : Loose level rest)
    (hle : level ≤ least) : Gives (continueWith · least e) 1 rest e rest := by
  refine Gives.succ ?_
  intro bound _ last
  have hpeek : peek ⟨rest, last⟩ = .ok (rest.head?.map Token.lexeme, ⟨rest, last⟩) := rfl
  rw [continueWith, bind_ok hpeek]
  cases hjoint : joint? (rest.head?.map Token.lexeme) with
  | none => rfl
  | some found =>
    obtain ⟨power, joint⟩ := found
    have hlt := h.joints power joint hjoint
    dsimp only
    rw [if_pos (by omega)]
    rfl

end Following

/-! ### Reading marks -/

section Tokens

variable (line : Nat) (ms ns : List Mark) (m : Mark)

theorem tokensOf_append : tokensOf line (ms ++ ns) = tokensOf line ms ++ tokensOf line ns :=
  List.map_append

theorem tokensOf_cons : tokensOf line (m :: ms) = onLine line m.lexeme :: tokensOf line ms := rfl

end Tokens

/-- What may follow an expression of a level without taking its last operand away: what binds more
loosely than that operand is read.  A sign that groups to the left reads the operand behind it more
tightly than it binds itself, one that groups to the right reads it more loosely. -/
def edge (level : Nat) : Nat :=
  if level < logicalLevel .either then level - 1
  else if level < leadingLevel then level + 1
  else level

theorem edge_mono {m n : Nat} (h : m ≤ n) : edge m ≤ edge n := by
  have heither : logicalLevel .either = 6 := rfl
  have hleading : leadingLevel = 18 := rfl
  unfold edge
  split_ifs <;> omega

/-- In front of selections, the marks are read as the tree that they are selected from. -/
def Selects (ms : List Mark) (e : Expr) : Prop :=
  ∀ {line need : Nat} {rest rest' : List Token} {selected : Expr}, leads .arrow rest = false →
    Gives (selections · e) need rest selected rest' →
    Gives operand (4 * ms.length + need) (tokensOf line ms ++ rest) selected rest'

/-- In front of tokens that do not take the last operand away, the marks are read as the first
operand of what goes on with them. -/
def Groups (least level : Nat) (ms : List Mark) (e : Expr) : Prop :=
  ∀ {line need : Nat} {rest rest' : List Token} {whole : Expr}, Loose (edge level) rest →
    Gives (continueWith · least e) need rest whole rest' →
    Gives (expression · least) (4 * ms.length + need + 2) (tokensOf line ms ++ rest) whole rest'

/-- The marks are read as the tree wherever an expression of the level may stand. -/
structure Reads (level : Nat) (ms : List Mark) (e : Expr) : Prop where
  /-- There are marks. -/
  nonempty : ms ≠ []
  /-- Every bracket among them is closed. -/
  balanced : ∀ line, Balanced (tokensOf line ms)
  /-- They are read where signs follow. -/
  groups : ∀ least ≤ level, Groups least level ms e
  /-- They are read where something is selected from them. -/
  selects : closeLevel ≤ level → Selects ms e

section Reading

variable {level least line need : Nat} {ms : List Mark} {e : Expr} {rest : List Token}

/-- An expression is read off, if what follows goes on with it neither inside nor behind. -/
theorem Reads.gives {limit : Nat} (h : Reads level ms e) (hleast : least ≤ level)
    (hrest : Loose limit rest) (hlimit : limit ≤ least) (hedge : limit ≤ edge level) :
    Gives (expression · least) (4 * ms.length + 3) (tokensOf line ms ++ rest) e rest :=
  h.groups least hleast (hrest.mono hedge) (gives_continueWith_loose e hrest hlimit)

/-- An expression in front of something that goes on with no operand. -/
theorem Reads.gives_whole (h : Reads level ms e) (hleast : least ≤ level) (hrest : Loose 0 rest) :
    Gives (expression · least) (4 * ms.length + 3) (tokensOf line ms ++ rest) e rest :=
  h.gives hleast hrest (Nat.zero_le _) (Nat.zero_le _)

theorem Selects.groups (h : Selects ms e) (least : Nat) : Groups least closeLevel ms e := by
  intro line need rest rest' whole hrest hgo
  have harrow : leads .arrow rest = false := hrest.apart .arrow (by decide)
  have hoperand : Gives operand (4 * ms.length + 1) (tokensOf line ms ++ rest) e rest :=
    h harrow (gives_selections_loose e hrest)
  exact (gives_expression (hoperand.mono (by omega)) (hgo.mono (by omega))).mono (Nat.le_refl _)

theorem reads_of_selects (hnonempty : ms ≠ []) (hbalanced : ∀ line, Balanced (tokensOf line ms))
    (h : Selects ms e) : Reads closeLevel ms e :=
  ⟨hnonempty, hbalanced, fun least _ => h.groups least, fun _ => h⟩

/-- An expression that is read whole as an operand. -/
theorem reads_of_operand (hnonempty : ms ≠ []) (hbalanced : ∀ line, Balanced (tokensOf line ms))
    (hlevel : level < closeLevel)
    (h : ∀ line rest, Loose (edge level) rest →
      Gives operand (4 * ms.length) (tokensOf line ms ++ rest) e rest) : Reads level ms e := by
  refine ⟨hnonempty, hbalanced, fun least _ => ?_, fun hclose => absurd hclose (by omega)⟩
  intro line need rest rest' whole hrest hgo
  have hoperand := h line rest hrest
  exact (gives_expression (hoperand.mono (by omega)) (hgo.mono (by omega))).mono (Nat.le_refl _)

end Reading

/-! ### Parentheses -/

theorem tokensOf_enclosed (line : Nat) (ms : List Mark) (rest : List Token) :
    tokensOf line (enclosed ms) ++ rest
      = onLine line (.sign .openParen)
        :: (tokensOf line ms ++ onLine line (.sign .closeParen) :: rest) := by
  rw [enclosed, tokensOf_cons, tokensOf_append]
  simp [tokensOf, Mark.lexeme]

theorem length_enclosed (ms : List Mark) : (enclosed ms).length = ms.length + 2 := by
  simp [enclosed]

/-- Balanced marks in brackets. -/
theorem balanced_brackets {line : Nat} {ms : List Mark} {p q : Punctuator}
    (h : Balanced (tokensOf line ms)) (hp : p.opens = true) (hq : q.closes = true) :
    Balanced (tokensOf line (.sign p :: (ms ++ [.sign q]))) := by
  rw [tokensOf_cons, tokensOf_append]
  exact h.enclose hp hq

section Kinds

variable {level : Nat} {ms : List Mark} {e : Expr}

/-- An expression in parentheses can stand everywhere. -/
theorem reads_enclosed (h : Reads level ms e) : Reads closeLevel (enclosed ms) e := by
  refine reads_of_selects (List.cons_ne_nil _ _)
    (fun line => balanced_brackets (h.balanced line) rfl rfl) ?_
  intro line need rest rest' selected harrow hgo
  have hinner : Gives (expression · 0) (4 * ms.length + 3)
      (tokensOf line ms ++ onLine line (.sign .closeParen) :: rest) e
      (onLine line (.sign .closeParen) :: rest) :=
    h.gives_whole (Nat.zero_le level) (loose_close rfl)
  have hclosing : closesBefore .arrow (onLine line (.sign .openParen)
      :: (tokensOf line ms ++ onLine line (.sign .closeParen) :: rest)) = leads .arrow rest :=
    closesBefore_enclosed (h.balanced line) rfl rfl .arrow rest
  rw [harrow] at hclosing
  have hprimary := gives_primary_inParens line hclosing hinner
  rw [tokensOf_enclosed, length_enclosed]
  have hoperand := gives_operand rfl rfl (hprimary.mono (by omega))
    (hgo.mono (Nat.le_add_left need (4 * ms.length + 4)))
  exact hoperand.mono (by omega)

/-- In parentheses where it must be, an operand of any level can stand at every place. -/
theorem Reads.fit (h : Reads level ms e) {least : Nat} (hleast : least ≤ closeLevel) :
    ∃ l, least ≤ l ∧ Reads l (fitted least level ms) e := by
  rw [fitted]
  split
  · exact ⟨closeLevel, hleast, reads_enclosed h⟩
  · exact ⟨level, by omega, h⟩

/-! ### Lists -/

end Kinds

/-- The marks are read as an item of a list. -/
structure IsItem {α : Type} (item : Nat → Parser α) (ms : List Mark) (a : α) : Prop where
  /-- There are marks. -/
  nonempty : ms ≠ []
  /-- Every bracket among them is closed. -/
  balanced : ∀ line, Balanced (tokensOf line ms)
  /-- They are read in front of what ends an item. -/
  gives : ∀ line rest, Loose 0 rest →
    Gives item (4 * ms.length + 3) (tokensOf line ms ++ rest) a rest

theorem length_le_listed {ms : List Mark} {mss : List (List Mark)} (h : ms ∈ mss) :
    ms.length ≤ (listed mss).length := by
  fun_induction listed mss with
  | case1 => cases h
  | case2 ns =>
    exact Nat.le_of_eq (congrArg List.length (List.mem_singleton.mp h))
  | case3 ns mss hmss ih =>
    rw [List.length_append, List.length_cons]
    rcases List.mem_cons.mp h with rfl | hmem
    · omega
    · have hle := ih hmem
      omega

/-- There are no more rows than marks in the list of them. -/
theorem length_listed {mss : List (List Mark)} (h : ∀ ms ∈ mss, ms ≠ []) :
    mss.length ≤ (listed mss).length := by
  fun_induction listed mss with
  | case1 => exact Nat.le_refl _
  | case2 ns => exact List.length_pos_iff.mpr (h ns List.mem_cons_self)
  | case3 ns mss hmss ih =>
    have hle := ih fun ms hms => h ms (List.mem_cons_of_mem ns hms)
    rw [List.length_append, List.length_cons, List.length_cons]
    omega

theorem balanced_listed {line : Nat} {mss : List (List Mark)}
    (h : ∀ ms ∈ mss, Balanced (tokensOf line ms)) : Balanced (tokensOf line (listed mss)) := by
  fun_induction listed mss with
  | case1 => exact Balanced.nil
  | case2 ns => exact h ns List.mem_cons_self
  | case3 ns mss hmss ih =>
    rw [tokensOf_append, tokensOf_cons]
    have hlater := ih fun ms hms => h ms (List.mem_cons_of_mem ns hms)
    refine (h ns List.mem_cons_self).append (Balanced.cons ?_ hlater)
    rintro p ⟨⟩
    exact ⟨rfl, rfl⟩

section Lists

variable {α : Type} {item : Nat → Parser α} {close : Punctuator} {line : Nat}

theorem IsItem.not_leads {ms : List Mark} {a : α} (h : IsItem item ms a)
    (hclose : close.closes = true) (rest : List Token) :
    leads close (tokensOf line ms ++ rest) = false := by
  have hbalanced := h.balanced line
  cases ms with
  | nil => exact absurd rfl h.nonempty
  | cons m ms =>
    rw [tokensOf_cons] at hbalanced ⊢
    cases hm : m.lexeme with
    | number x => rfl
    | text s => rfl
    | name s => rfl
    | sign p =>
      rw [hm] at hbalanced
      rw [List.cons_append, leads_sign, beq_eq_false_iff_ne]
      rintro rfl
      rw [hbalanced.not_closes] at hclose
      cases hclose

/-- Items with commas between them are read off, up to the sign that closes their list. -/
theorem commaList_listed (hclose : close.closes = true) {parts : List (List Mark × α)}
    (hparts : ∀ part ∈ parts, IsItem item part.1 part.2) {bound : Nat}
    (hbound : ∀ part ∈ parts, 4 * part.1.length + 3 ≤ bound) {count : Nat}
    (hcount : parts.length < count) (rest : List Token) (last : Nat) :
    commaList (item bound) close count
        ⟨tokensOf line (listed (parts.map Prod.fst)) ++ onLine line (.sign close) :: rest, last⟩
      = .ok (parts.map Prod.snd, ⟨rest, last⟩) := by
  have hself : leads close (onLine line (.sign close) :: rest) = true := by
    rw [leads_sign, beq_self_eq_true]
  obtain ⟨count, rfl⟩ : ∃ c, count = c + 1 := ⟨count - 1, by omega⟩
  rw [commaList]
  rcases parts with _ | ⟨⟨ms, a⟩, _ | ⟨part, parts⟩⟩
  · refine (bind_ok (at?_eq close _ last)).trans ?_
    rw [show tokensOf line (listed (List.map Prod.fst ([] : List (List Mark × α)))) = [] from rfl,
      List.nil_append, hself]
    rfl
  · have hitem := hparts (ms, a) List.mem_cons_self
    have hread := hitem.gives line (onLine line (.sign close) :: rest) (loose_close hclose) bound
      (hbound _ List.mem_cons_self) last
    have hcomma : leads .comma (onLine line (.sign close) :: rest) = false := by
      rw [leads_sign]
      revert hclose
      cases close <;> decide
    show (at? close >>= _) ⟨tokensOf line ms ++ onLine line (.sign close) :: rest, last⟩ = _
    refine (bind_ok (at?_eq close _ last)).trans ?_
    rw [hitem.not_leads hclose]
    refine (bind_ok hread).trans ?_
    refine (bind_ok (eat_eq_of_not_leads hcomma)).trans ?_
    exact (bind_ok (expect_eq_of_leads hself)).trans rfl
  · have hitem := hparts (ms, a) List.mem_cons_self
    have hlater := commaList_listed hclose (fun p hp => hparts p (List.mem_cons_of_mem _ hp))
      (fun p hp => hbound p (List.mem_cons_of_mem _ hp)) (Nat.lt_of_succ_lt_succ hcount) rest last
    generalize hmore : tokensOf line (listed ((part :: parts).map Prod.fst))
      ++ onLine line (.sign close) :: rest = more at hlater
    have hshape : tokensOf line (listed (((ms, a) :: part :: parts).map Prod.fst))
        ++ onLine line (.sign close) :: rest
        = tokensOf line ms ++ onLine line (.sign .comma) :: more := by
      rw [← hmore]
      show tokensOf line (ms ++ .sign .comma :: listed ((part :: parts).map Prod.fst)) ++ _ = _
      rw [tokensOf_append, tokensOf_cons, List.append_assoc]
      rfl
    have hread := hitem.gives line (onLine line (.sign .comma) :: more)
      (loose_sign rfl (by decide)) bound (hbound _ List.mem_cons_self) last
    rw [hshape]
    refine (bind_ok (at?_eq close _ last)).trans ?_
    rw [hitem.not_leads hclose]
    refine (bind_ok hread).trans ?_
    refine (bind_ok rfl).trans ?_
    exact (bind_ok hlater).trans rfl

end Lists

/-! ### Operands that stand for themselves -/

/-- A single mark. -/
theorem reads_single {m : Mark} {e : Expr} (hsign : ∀ p, m.lexeme ≠ .sign p)
    (hunary : unary? (some m.lexeme) = none)
    (h : ∀ line rest, leads .arrow rest = false →
      Gives primary 1 (onLine line m.lexeme :: rest) e rest) : Reads closeLevel [m] e := by
  have hcounts : counts? (some m.lexeme) = none := by
    cases hm : m.lexeme with
    | sign p => exact absurd hm (hsign p)
    | _ => rfl
  refine reads_of_selects (List.cons_ne_nil _ _)
    (fun line => Balanced.single fun p hp => absurd hp (hsign p)) ?_
  intro line need rest rest' selected harrow hgo
  have hprimary := (h line rest harrow).mono (Nat.le_add_right 1 need)
  exact (gives_operand hunary hcounts hprimary (hgo.mono (by omega))).mono (by
    rw [List.length_singleton]
    omega)

theorem reads_number (n : Numeral) : Reads closeLevel [.number n] (.number n.value) := by
  refine reads_single (fun _ => nofun) rfl fun line rest _ => Gives.succ ?_
  intro bound _ last
  rw [primary]
  rfl

theorem reads_text (s : String) : Reads closeLevel [.text s] (.text s) :=
  reads_single (fun _ => nofun) rfl fun line _ _ => gives_primary_text line s

theorem reads_name {i : Identifier} (h : i.name ≠ "typeof") :
    Reads closeLevel [.name i] (nameExpr i.name) :=
  reads_single (fun _ => nofun) (unary?_name h) fun line _ harrow =>
    gives_primary_name line i.name harrow

/-- Marks in brackets that are an operand. -/
theorem reads_brackets {p q : Punctuator} {ms : List Mark} {e : Expr} (hp : p.opens = true)
    (hq : q.closes = true) (hbalanced : ∀ line, Balanced (tokensOf line ms))
    (h : ∀ line rest, Gives primary (4 * ms.length + 4)
      (onLine line (.sign p) :: (tokensOf line ms ++ onLine line (.sign q) :: rest)) e rest) :
    Reads closeLevel (.sign p :: (ms ++ [.sign q])) e := by
  have hunary : unary? (some (.sign p)) = none := by
    revert hp
    cases p <;> decide
  have hcounts : counts? (some (.sign p)) = none := by
    revert hp
    cases p <;> decide
  refine reads_of_selects (List.cons_ne_nil _ _)
    (fun line => balanced_brackets (hbalanced line) hp hq) ?_
  intro line need rest rest' selected _ hgo
  have hprimary := (h line rest).mono (Nat.le_add_right _ need)
  have hoperand := gives_operand hunary hcounts hprimary (hgo.mono (by omega))
  rw [tokensOf_cons, tokensOf_append, List.cons_append, List.append_assoc]
  refine hoperand.mono ?_
  simp only [List.length_cons, List.length_append, List.length_nil]
  omega

section

variable {α : Type} {item : Nat → Parser α} {parts : List (List Mark × α)}

theorem balanced_parts (h : ∀ part ∈ parts, IsItem item part.1 part.2) (line : Nat) :
    Balanced (tokensOf line (listed (parts.map Prod.fst))) := by
  refine balanced_listed fun ms hms => ?_
  obtain ⟨part, hpart, rfl⟩ := List.mem_map.mp hms
  exact (h part hpart).balanced line

theorem parts_bounds (h : ∀ part ∈ parts, IsItem item part.1 part.2) {bound : Nat}
    (hbound : 4 * (listed (parts.map Prod.fst)).length + 3 ≤ bound) :
    (∀ part ∈ parts, 4 * part.1.length + 3 ≤ bound) ∧ parts.length < bound := by
  constructor
  · intro part hpart
    have hle := length_le_listed (List.mem_map_of_mem (f := Prod.fst) hpart)
    omega
  · have hle : (parts.map Prod.fst).length ≤ _ := length_listed fun ms hms => by
      obtain ⟨part, hpart, rfl⟩ := List.mem_map.mp hms
      exact (h part hpart).nonempty
    rw [List.length_map] at hle
    omega

/-- The list behind an opening bracket, with the bound that its items have. -/
theorem commaList_parts {close : Punctuator} (hclose : close.closes = true)
    (h : ∀ part ∈ parts, IsItem item part.1 part.2) {bound line : Nat}
    (hbound : 4 * (listed (parts.map Prod.fst)).length + 3 ≤ bound) (rest : List Token)
    (last : Nat) :
    commaList (item bound) close bound
        ⟨tokensOf line (listed (parts.map Prod.fst)) ++ onLine line (.sign close) :: rest, last⟩
      = .ok (parts.map Prod.snd, ⟨rest, last⟩) :=
  have ⟨hparts, hcount⟩ := parts_bounds h hbound
  commaList_listed hclose h hparts hcount rest last

end

/-- An expression is an item of a list. -/
theorem Reads.isItem {level : Nat} {ms : List Mark} {e : Expr} (h : Reads level ms e)
    (hlevel : itemPower ≤ level) : IsItem (expression · itemPower) ms e :=
  ⟨h.nonempty, h.balanced, fun _ _ hrest => h.gives_whole hlevel hrest⟩

theorem reads_array {parts : List (List Mark × Expr)}
    (h : ∀ part ∈ parts, IsItem (expression · itemPower) part.1 part.2) :
    Reads closeLevel
      (.sign .openBracket :: (listed (parts.map Prod.fst) ++ [.sign .closeBracket]))
      (.array (parts.map Prod.snd)) := by
  refine reads_brackets rfl rfl (balanced_parts h) fun line rest => ?_
  refine Gives.succ fun bound hbound last => ?_
  have hclose : Punctuator.closes .closeBracket = true := rfl
  rw [primary]
  refine (bind_ok rfl).trans ?_
  refine (bind_ok rfl).trans ?_
  exact (bind_ok (commaList_parts hclose h hbound rest last)).trans rfl

theorem memberName?_nameMark (s : String) : memberName? (nameMark s).lexeme = some s := by
  rw [nameMark]
  split
  · show some (String.ofList s.toList) = some s
    rw [String.ofList_toList]
  · rfl

theorem nameMark_ne_sign (s : String) (p : Punctuator) : (nameMark s).lexeme ≠ .sign p := by
  rw [nameMark]
  split <;> exact nofun

/-- A named expression is a member of an object. -/
theorem Reads.isMember {level : Nat} {ms : List Mark} {e : Expr} (h : Reads level ms e)
    (hlevel : itemPower ≤ level) (s : String) :
    IsItem objectMember (nameMark s :: .sign .colon :: ms) (s, e) := by
  refine ⟨List.cons_ne_nil _ _, fun line => ?_, fun line rest hrest => ?_⟩
  · refine Balanced.cons (fun p hp => absurd hp (nameMark_ne_sign s p)) (Balanced.cons ?_
      (h.balanced line))
    rintro p ⟨⟩
    exact ⟨rfl, rfl⟩
  · have hname := memberName?_nameMark s
    have hmember : Gives objectMember (4 * ms.length + 3 + 1)
        (tokensOf line (nameMark s :: .sign .colon :: ms) ++ rest) (s, e) rest := by
      refine Gives.succ fun bound hbound last => ?_
      have hvalue : expression bound itemPower ⟨tokensOf line ms ++ rest, last⟩
          = .ok (e, ⟨rest, last⟩) := h.gives_whole hlevel hrest bound hbound last
      have hpeek : peek ⟨tokensOf line (nameMark s :: .sign .colon :: ms) ++ rest, last⟩
          = .ok (some (nameMark s).lexeme,
            ⟨tokensOf line (nameMark s :: .sign .colon :: ms) ++ rest, last⟩) := rfl
      rw [objectMember, bind_ok hpeek, Option.bind_some, hname]
      refine (bind_ok rfl).trans ?_
      refine (bind_ok rfl).trans ?_
      exact (bind_ok hvalue).trans rfl
    refine hmember.mono ?_
    simp only [List.length_cons]
    omega

theorem reads_object {parts : List (List Mark × String × Expr)}
    (h : ∀ part ∈ parts, IsItem objectMember part.1 part.2) :
    Reads closeLevel
      (.sign .openBrace :: (listed (parts.map Prod.fst) ++ [.sign .closeBrace]))
      (.object (parts.map Prod.snd)) := by
  refine reads_brackets rfl rfl (balanced_parts h) fun line rest => ?_
  refine Gives.succ fun bound hbound last => ?_
  have hclose : Punctuator.closes .closeBrace = true := rfl
  rw [primary]
  refine (bind_ok rfl).trans ?_
  refine (bind_ok rfl).trans ?_
  exact (bind_ok (commaList_parts hclose h hbound rest last)).trans rfl

/-! ### Selections -/

section Selections

variable {level : Nat} {ms : List Mark} {e : Expr}

/-- Marks that select something from what stands in front of them. -/
theorem reads_selection {p : Punctuator} {suffix : List Mark} {selected : Expr}
    (h : Reads level ms e) (hlevel : closeLevel ≤ level) (hp : p ≠ .arrow)
    (hbalanced : ∀ line, Balanced (tokensOf line (.sign p :: suffix)))
    (hselect : ∀ {line need : Nat} {rest rest' : List Token} {whole : Expr},
      Gives (selections · selected) need rest whole rest' →
      ∀ bound, 4 * suffix.length + need + 3 ≤ bound → ∀ last,
        selections (bound + 1) e ⟨onLine line (.sign p) :: (tokensOf line suffix ++ rest), last⟩
          = .ok (whole, ⟨rest', last⟩)) :
    Reads closeLevel (ms ++ .sign p :: suffix) selected := by
  refine reads_of_selects (by simp)
    (fun line => by
      rw [tokensOf_append]
      exact (h.balanced line).append (hbalanced line)) ?_
  intro line need rest rest' whole _ hgo
  have harrow : leads .arrow (onLine line (.sign p) :: (tokensOf line suffix ++ rest)) = false := by
    rw [leads_sign, beq_eq_false_iff_ne]
    exact hp
  have hselected : Gives (selections · e) (4 * suffix.length + need + 3 + 1)
      (onLine line (.sign p) :: (tokensOf line suffix ++ rest)) whole rest' :=
    Gives.succ (hselect hgo)
  have hoperand : Gives operand _ (tokensOf line ms ++ _) whole rest' :=
    h.selects hlevel harrow hselected
  rw [tokensOf_append, tokensOf_cons, List.append_assoc]
  refine hoperand.mono ?_
  rw [List.length_append, List.length_cons]
  omega

theorem reads_member (h : Reads level ms e) (hlevel : closeLevel ≤ level) (i : Identifier)
    (optional : Bool) :
    Reads closeLevel (ms ++ [.sign (if optional then .optionalDot else .dot), .name i])
      (.member e i.name optional) := by
  refine reads_selection h hlevel (by cases optional <;> decide) (fun line => ?_) ?_
  · refine Balanced.cons ?_ (Balanced.single fun p => nofun)
    rintro p hp
    cases hp
    cases optional <;> exact ⟨rfl, rfl⟩
  · intro line need rest rest' whole hgo bound hbound last
    have hlater := hgo bound (by omega) last
    rw [selections]
    cases optional <;> exact hlater

theorem reads_index {keyLevel : Nat} {keyMarks : List Mark} {key : Expr} (h : Reads level ms e)
    (hlevel : closeLevel ≤ level) (hkey : Reads keyLevel keyMarks key) (optional : Bool) :
    Reads closeLevel
      (ms ++ optionally optional (.sign .openBracket :: (keyMarks ++ [.sign .closeBracket])))
      (.index e key optional) := by
  have hbrackets (line : Nat) :
      Balanced (tokensOf line (.sign .openBracket :: (keyMarks ++ [.sign .closeBracket]))) :=
    balanced_brackets (hkey.balanced line) rfl rfl
  -- What the parser does behind the opening bracket.
  have hinside {line bound last : Nat} (hbound : 4 * keyMarks.length + 3 ≤ bound)
      (rest : List Token) :
      expression bound 0
          ⟨tokensOf line (keyMarks ++ [.sign .closeBracket]) ++ rest, last⟩
        = .ok (key, ⟨onLine line (.sign .closeBracket) :: rest, last⟩) := by
    rw [tokensOf_append, List.append_assoc]
    exact hkey.gives_whole (Nat.zero_le keyLevel) (loose_close rfl) bound hbound last
  cases optional with
  | false =>
    refine reads_selection h hlevel (by decide) hbrackets ?_
    intro line need rest rest' whole hgo bound hbound last
    rw [List.length_append] at hbound
    rw [selections]
    refine (bind_ok rfl).trans ?_
    refine (bind_ok rfl).trans ?_
    refine (bind_ok (hinside (by omega) rest)).trans ?_
    exact (bind_ok rfl).trans (hgo bound (by omega) last)
  | true =>
    refine reads_selection h hlevel (by decide)
      (fun line => Balanced.cons (by rintro p ⟨⟩; exact ⟨rfl, rfl⟩) (hbrackets line)) ?_
    intro line need rest rest' whole hgo bound hbound last
    rw [List.length_cons, List.length_append] at hbound
    rw [selections]
    refine (bind_ok rfl).trans ?_
    refine (bind_ok rfl).trans ?_
    refine (bind_ok rfl).trans ?_
    refine (bind_ok rfl).trans ?_
    refine (bind_ok (hinside (by omega) rest)).trans ?_
    exact (bind_ok rfl).trans (hgo bound (by omega) last)

theorem reads_call {parts : List (List Mark × Expr)} (h : Reads level ms e)
    (hlevel : closeLevel ≤ level)
    (hparts : ∀ part ∈ parts, IsItem (expression · itemPower) part.1 part.2) (optional : Bool) :
    Reads closeLevel
      (ms ++ optionally optional (enclosed (listed (parts.map Prod.fst))))
      (.call e (parts.map Prod.snd) optional) := by
  have hbrackets (line : Nat) : Balanced (tokensOf line (enclosed (listed (parts.map Prod.fst)))) :=
    balanced_brackets (balanced_parts hparts line) rfl rfl
  -- What the parser does behind the opening parenthesis.
  have hinside {line bound last : Nat}
      (hbound : 4 * (listed (parts.map Prod.fst)).length + 3 ≤ bound) (rest : List Token) :
      commaList (expression bound itemPower) .closeParen bound
          ⟨tokensOf line (listed (parts.map Prod.fst) ++ [.sign .closeParen]) ++ rest, last⟩
        = .ok (parts.map Prod.snd, ⟨rest, last⟩) := by
    rw [tokensOf_append, List.append_assoc]
    exact commaList_parts rfl hparts hbound rest last
  cases optional with
  | false =>
    refine reads_selection h hlevel (by decide) hbrackets ?_
    intro line need rest rest' whole hgo bound hbound last
    rw [List.length_append] at hbound
    rw [selections]
    refine (bind_ok rfl).trans ?_
    refine (bind_ok rfl).trans ?_
    exact (bind_ok (hinside (by omega) rest)).trans (hgo bound (by omega) last)
  | true =>
    refine reads_selection h hlevel (by decide)
      (fun line => Balanced.cons (by rintro p ⟨⟩; exact ⟨rfl, rfl⟩) (hbrackets line)) ?_
    intro line need rest rest' whole hgo bound hbound last
    rw [length_enclosed] at hbound
    rw [selections]
    refine (bind_ok rfl).trans ?_
    refine (bind_ok rfl).trans ?_
    refine (bind_ok rfl).trans ?_
    exact (bind_ok (hinside (by omega) rest)).trans (hgo bound (by omega) last)

/-- Counting up or down behind a target. -/
theorem reads_counted (h : Reads level ms e) (hlevel : closeLevel ≤ level)
    (htarget : e.isTarget = true) (up : Bool) :
    Reads closeLevel (ms ++ [.sign (countSign up)]) (.update up false e) := by
  refine reads_selection h hlevel (by cases up <;> decide) (fun line => ?_) ?_
  · refine Balanced.single ?_
    rintro p hp
    cases hp
    cases up <;> exact ⟨rfl, rfl⟩
  · intro line need rest rest' whole hgo bound hbound last
    have hcount : selections (bound + 1) e ⟨onLine line (.sign (countSign up)) :: rest, last⟩
        = (if e.isTarget = true then advance >>= fun _ => selections bound (.update up false e)
            else pure e : Parser Expr) ⟨onLine line (.sign (countSign up)) :: rest, last⟩ := by
      rw [selections]
      cases up <;> rfl
    rw [if_pos htarget] at hcount
    exact hcount.trans (hgo bound (by omega) last)

end Selections

/-! ### Signs in front of operands and between them -/

section Signs

variable {level l r : Nat} {ms lms rms : List Mark} {e left right : Expr}

/-- A sign or word in front of an operand. -/
theorem reads_leading {m : Mark} {build : Expr → Expr} (h : Reads l ms e) (hl : leadingLevel ≤ l)
    (hsign : ∀ p, m.lexeme = .sign p → p.opens = false ∧ p.closes = false)
    (hoperand : ∀ line bound last rest, operand (bound + 1) ⟨onLine line m.lexeme :: rest, last⟩
      = (expression bound operandPower >>= fun e => pure (build e)) ⟨rest, last⟩) :
    Reads leadingLevel (m :: ms) (build e) := by
  refine reads_of_operand (List.cons_ne_nil _ _)
    (fun line => Balanced.cons hsign (h.balanced line)) (by decide) ?_
  intro line rest hrest
  have hread : Gives (expression · operandPower) (4 * ms.length + 3) (tokensOf line ms ++ rest) e
      rest := h.gives hl hrest (by decide) (edge_mono hl)
  refine Gives.succ fun bound hbound last => ?_
  exact (hoperand line bound last _).trans ((bind_ok (hread bound hbound last)).trans rfl)

theorem reads_unary (op : UnaryOp) (h : Reads l ms e) (hl : leadingLevel ≤ l) :
    Reads leadingLevel (unaryMark op :: ms) (.unary op e) := by
  refine reads_leading h hl (fun p hp => ?_) fun line bound last rest => ?_
  · cases op <;> cases hp <;> exact ⟨rfl, rfl⟩
  · rw [operand]
    cases op <;> rfl

theorem reads_updated (up : Bool) (h : Reads l ms e) (hl : leadingLevel ≤ l) :
    Reads leadingLevel (.sign (countSign up) :: ms) (.update up true e) := by
  refine reads_leading h hl (fun p hp => ?_) fun line bound last rest => ?_
  · cases up <;> cases hp <;> exact ⟨rfl, rfl⟩
  · rw [operand]
    cases up <;> rfl

/-- Marks behind a sign that goes on with what stands in front of it. -/
theorem reads_infix {p : Punctuator} {power : Power} {joint : Joint} {whole : Expr}
    (hsign : jointOf? p = some (power, joint)) (hleft : Reads l lms left) (hl : level ≤ l)
    (hedge : power.left < edge l) (hlevel : level < closeLevel)
    (hbalanced : ∀ line, Balanced (tokensOf line rms))
    (hgoOn : ∀ {line need least : Nat} {rest rest' : List Token} {result : Expr}, least ≤ level →
      Loose (edge level) rest → Gives (continueWith · least whole) need rest result rest' →
      ∀ bound, 4 * rms.length + need + 3 ≤ bound → ∀ last,
        continueWith (bound + 1) least left
            ⟨onLine line (.sign p) :: (tokensOf line rms ++ rest), last⟩
          = .ok (result, ⟨rest', last⟩)) :
    Reads level (lms ++ .sign p :: rms) whole := by
  have hplain : p.opens = false ∧ p.closes = false := by
    revert hsign
    cases p <;> simp [jointOf?, Punctuator.opens, Punctuator.closes]
  refine ⟨by simp, fun line => ?_, fun least hleast => ?_, fun hclose => absurd hclose (by omega)⟩
  · rw [tokensOf_append]
    refine (hleft.balanced line).append (Balanced.cons ?_ (hbalanced line))
    rintro q ⟨⟩
    exact hplain
  · intro line need rest rest' result hrest hgo
    have hcontinue : Gives (continueWith · least left) (4 * rms.length + need + 3 + 1)
        (onLine line (.sign p) :: (tokensOf line rms ++ rest)) result rest' :=
      Gives.succ (hgoOn hleast hrest hgo)
    have hwhole : Gives (expression · least) _ (tokensOf line lms ++ _) result rest' :=
      hleft.groups least (by omega) (loose_joint hsign hedge) hcontinue
    rw [tokensOf_append, tokensOf_cons, List.append_assoc]
    refine hwhole.mono ?_
    rw [List.length_append, List.length_cons]
    omega

/-- A sign that groups to the left. -/
theorem reads_leftward {p : Punctuator} {n : Nat} {joint : Joint} {build : Expr → Expr → Expr}
    (hsign : jointOf? p = some (.leftward n, joint)) (hn : edge n = n + 1) (hclose : n < closeLevel)
    (hjoint : ∀ line bound least last rest, least ≤ n →
      continueWith (bound + 1) least left ⟨onLine line (.sign p) :: rest, last⟩
        = (expression bound (n + 1) >>= fun right => continueWith bound least (build left right))
          ⟨rest, last⟩)
    (hleft : Reads l lms left) (hl : n ≤ l) (hright : Reads r rms right) (hr : n + 1 ≤ r) :
    Reads n (lms ++ .sign p :: rms) (build left right) := by
  have hedge : n < edge l := by
    have hle := edge_mono hl
    omega
  refine reads_infix hsign hleft hl hedge hclose hright.balanced ?_
  intro line need least rest rest' result hleast hrest hgo bound hbound last
  have hoperand : Gives (expression · (n + 1)) (4 * rms.length + 3) (tokensOf line rms ++ rest)
      right
      rest := by
    have hle := edge_mono hr
    have hstep : edge n ≤ edge (n + 1) := edge_mono (Nat.le_succ n)
    exact hright.gives hr hrest (by omega) (by omega)
  refine (hjoint line bound least last _ hleast).trans ?_
  exact (bind_ok (hoperand bound (by omega) last)).trans (hgo bound (by omega) last)

theorem reads_binary (op : BinaryOp) (hleft : Reads l lms left) (hl : binaryLevel op ≤ l)
    (hright : Reads r rms right) (hr : binaryLevel op + 1 ≤ r) :
    Reads (binaryLevel op) (lms ++ .sign (binarySign op) :: rms) (.binary op left right) := by
  have hsign : jointOf? (binarySign op) = some (.leftward (binaryLevel op), .binary op) := by
    cases op <;> rfl
  refine reads_leftward hsign (by cases op <;> rfl) (by cases op <;> decide) ?_ hleft hl hright hr
  intro line bound least last rest hleast
  have hpeek : peek ⟨onLine line (.sign (binarySign op)) :: rest, last⟩
      = .ok (some (.sign (binarySign op)), ⟨onLine line (.sign (binarySign op)) :: rest, last⟩) :=
    rfl
  have hleast : ¬ (Power.leftward (binaryLevel op)).left < least := Nat.not_lt.mpr hleast
  rw [continueWith, bind_ok hpeek, joint?, hsign]
  dsimp only
  rw [if_neg hleast]
  rfl

theorem reads_logical (op : LogicalOp) (hleft : Reads l lms left) (hl : logicalLevel op ≤ l)
    (hright : Reads r rms right) (hr : logicalLevel op + 1 ≤ r) :
    Reads (logicalLevel op) (lms ++ .sign (logicalSign op) :: rms) (.logical op left right) := by
  have hsign : jointOf? (logicalSign op) = some (.leftward (logicalLevel op), .logical op) := by
    cases op <;> rfl
  refine reads_leftward hsign (by cases op <;> rfl) (by cases op <;> decide) ?_ hleft hl hright hr
  intro line bound least last rest hleast
  have hpeek : peek ⟨onLine line (.sign (logicalSign op)) :: rest, last⟩
      = .ok (some (.sign (logicalSign op)), ⟨onLine line (.sign (logicalSign op)) :: rest, last⟩) :=
    rfl
  have hleast : ¬ (Power.leftward (logicalLevel op)).left < least := Nat.not_lt.mpr hleast
  rw [continueWith, bind_ok hpeek, joint?, hsign]
  dsimp only
  rw [if_neg hleast]
  rfl

theorem reads_assign (op : Assigning) (hleft : Reads l lms left) (hl : closeLevel ≤ l)
    (htarget : left.isTarget = true) (hright : Reads r rms right) (hr : assignLevel ≤ r) :
    Reads assignLevel (lms ++ .sign op.sign :: rms) (.assign op.op left right) := by
  have hsign : jointOf? op.sign = some (.rightward 2, .assign op.op) := by
    cases op <;> rfl
  have hlevel : assignLevel ≤ l := Nat.le_trans (by decide) hl
  have hedge : (Power.rightward 2).left < edge l := Nat.lt_of_lt_of_le (by decide) (edge_mono hl)
  refine reads_infix hsign hleft hlevel hedge (by decide) hright.balanced ?_
  intro line need least rest rest' result hleast hrest hgo bound hbound last
  have hvalue : Gives (expression · (Power.rightward 2).right) (4 * rms.length + 3)
      (tokensOf line rms ++ rest) right rest :=
    hright.gives (Nat.le_trans (by decide) hr) hrest (by decide) (edge_mono hr)
  have hpeek : peek ⟨onLine line (.sign op.sign) :: (tokensOf line rms ++ rest), last⟩
      = .ok (some (.sign op.sign), ⟨onLine line (.sign op.sign) :: (tokensOf line rms ++ rest),
        last⟩) := rfl
  have hleast : ¬ (Power.rightward 2).left < least := Nat.not_lt.mpr hleast
  rw [continueWith, bind_ok hpeek, joint?, hsign]
  dsimp only
  rw [if_neg hleast, htarget]
  refine (bind_ok rfl).trans ?_
  exact (bind_ok (hvalue bound (by omega) last)).trans (hgo bound (by omega) last)

theorem reads_conditional {y n : Nat} {yms nms : List Mark} {test yes no : Expr}
    (htest : Reads l lms test) (hl : conditionalLevel + 1 ≤ l) (hyes : Reads y yms yes)
    (hy : assignLevel ≤ y) (hno : Reads n nms no) (hn : conditionalLevel ≤ n) :
    Reads conditionalLevel (lms ++ .sign .question :: (yms ++ .sign .colon :: nms))
      (.conditional test yes no) := by
  have hsign : jointOf? .question = some (.rightward 4, .conditional) := rfl
  have hlevel : conditionalLevel ≤ l := Nat.le_of_succ_le hl
  have hedge : (Power.rightward 4).left < edge l := Nat.lt_of_lt_of_le (by decide) (edge_mono hl)
  have hbalanced (line : Nat) : Balanced (tokensOf line (yms ++ .sign .colon :: nms)) := by
    rw [tokensOf_append]
    refine (hyes.balanced line).append (Balanced.cons ?_ (hno.balanced line))
    rintro p ⟨⟩
    exact ⟨rfl, rfl⟩
  refine reads_infix hsign htest hlevel hedge (by decide) hbalanced ?_
  intro line need least rest rest' result hleast hrest hgo bound hbound last
  rw [List.length_append, List.length_cons] at hbound
  have hfirst : Gives (expression · itemPower) (4 * yms.length + 3)
      (tokensOf line yms ++ onLine line (.sign .colon) :: (tokensOf line nms ++ rest)) yes
      (onLine line (.sign .colon) :: (tokensOf line nms ++ rest)) :=
    hyes.gives_whole (Nat.le_trans (by decide) hy) (loose_sign rfl (by decide))
  have hsecond : Gives (expression · (Power.rightward 4).right) (4 * nms.length + 3)
      (tokensOf line nms ++ rest) no rest :=
    hno.gives (Nat.le_trans (by decide) hn) hrest (by decide) (edge_mono hn)
  have hleast : ¬ (Power.rightward 4).left < least := Nat.not_lt.mpr hleast
  have hpeek (tokens : List Token) : peek ⟨onLine line (.sign .question) :: tokens, last⟩
      = .ok (some (.sign .question), ⟨onLine line (.sign .question) :: tokens, last⟩) := rfl
  rw [tokensOf_append, tokensOf_cons, List.append_assoc, continueWith, bind_ok (hpeek _), joint?,
    hsign]
  dsimp only
  rw [if_neg hleast]
  refine (bind_ok rfl).trans ?_
  refine (bind_ok (hfirst bound (by omega) last)).trans ?_
  refine (bind_ok rfl).trans ?_
  exact (bind_ok (hsecond bound (by omega) last)).trans (hgo bound (by omega) last)

end Signs

/-! ### Functions -/

/-- A name is a parameter of a function. -/
theorem isItem_param (i : Identifier) : IsItem (fun _ => expectName) [.name i] i.name :=
  ⟨List.cons_ne_nil _ _, fun _ => Balanced.single fun _ => nofun, fun _ _ _ _ _ _ => rfl⟩

/-- A function whose body does not begin with a brace. -/
theorem reads_arrow {level : Nat} {ms : List Mark} {e : Expr} (params : List Identifier)
    (h : Reads level ms e) (hlevel : itemPower ≤ level) (hbrace : beginsBrace ms = false) :
    Reads functionLevel (enclosed (listed (params.map fun i => [.name i])) ++ .sign .arrow :: ms)
      (.arrow 0 (params.map Identifier.name) (.expr e)) := by
  -- The parameters as items of a list.
  let parts := params.map fun i => ([Mark.name i], i.name)
  have hmarks : params.map (fun i => [Mark.name i]) = parts.map Prod.fst := by
    rw [List.map_map]
    rfl
  have hnames : params.map Identifier.name = parts.map Prod.snd := by
    rw [List.map_map]
    rfl
  have hparts : ∀ part ∈ parts, IsItem (fun _ => expectName) part.1 part.2 := by
    intro part hpart
    obtain ⟨i, -, rfl⟩ := List.mem_map.mp hpart
    exact isItem_param i
  rw [hmarks, hnames]
  generalize parts = parts at hparts
  have hbalanced (line : Nat) :
      Balanced (tokensOf line (enclosed (listed (parts.map Prod.fst)) ++ .sign .arrow :: ms)) := by
    rw [tokensOf_append]
    refine (balanced_brackets (balanced_parts hparts line) rfl rfl).append
      (Balanced.cons ?_ (h.balanced line))
    rintro p ⟨⟩
    exact ⟨rfl, rfl⟩
  refine reads_of_operand (by simp) hbalanced (by decide) ?_
  intro line rest hrest
  have hbody : Gives (functionBody · (parts.map Prod.snd)) (4 * ms.length + 3 + 1)
      (tokensOf line ms ++ rest) (.arrow 0 (parts.map Prod.snd) (.expr e)) rest := by
    have hlead : leads .openBrace (tokensOf line ms ++ rest) = false := by
      cases hms : ms with
      | nil => exact absurd hms h.nonempty
      | cons m ms =>
        rw [hms] at hbrace
        exact hbrace
    have hread : Gives (expression · itemPower) (4 * ms.length + 3) (tokensOf line ms ++ rest) e
        rest := h.gives hlevel hrest (by decide) (edge_mono hlevel)
    refine Gives.succ fun bound hbound last => ?_
    rw [functionBody]
    refine (bind_ok (at?_eq .openBrace _ last)).trans ?_
    rw [hlead]
    exact (bind_ok (hread bound hbound last)).trans rfl
  have hclosing : closesBefore .arrow (onLine line (.sign .openParen)
      :: (tokensOf line (listed (parts.map Prod.fst)) ++ onLine line (.sign .closeParen)
        :: onLine line (.sign .arrow) :: (tokensOf line ms ++ rest))) = true :=
    closesBefore_enclosed (balanced_parts hparts line) rfl rfl .arrow _
  have hprimary : Gives primary
      (4 * (listed (parts.map Prod.fst)).length + 4 * ms.length + 7 + 1)
      (onLine line (.sign .openParen)
        :: (tokensOf line (listed (parts.map Prod.fst)) ++ onLine line (.sign .closeParen)
          :: onLine line (.sign .arrow) :: (tokensOf line ms ++ rest)))
      (.arrow 0 (parts.map Prod.snd) (.expr e)) rest := by
    refine Gives.succ fun bound hbound last => ?_
    have hclose : Punctuator.closes .closeParen = true := rfl
    have hbehind (more : List Token) : commaList expectName .closeParen bound
        ⟨tokensOf line (listed (parts.map Prod.fst)) ++ onLine line (.sign .closeParen) :: more,
          last⟩ = .ok (parts.map Prod.snd, ⟨more, last⟩) :=
      commaList_parts hclose hparts (by omega) more last
    rw [primary]
    show (if closesBefore .arrow _ = true then _ else _ : Parser Expr) _ = _
    rw [if_pos hclosing]
    refine (bind_ok rfl).trans ?_
    refine (bind_ok (hbehind _)).trans ?_
    refine (bind_ok rfl).trans ?_
    exact hbody bound (by omega) last
  have hoperand := gives_operand rfl rfl hprimary
    ((gives_selections_loose _ hrest).mono (by omega))
  rw [tokensOf_append, tokensOf_cons, List.append_assoc, tokensOf_enclosed]
  refine hoperand.mono ?_
  rw [List.length_append, length_enclosed, List.length_cons]
  omega

end Stencil.Printing
