import Mathlib.Data.List.Nodup
import Stencil.Proofs.Everywhere

/-!
# The functions that a routine writes

Two function values are compared by the place where they were written, and the place is a number
that the routine gives to it.  So the numbers have to tell the functions of a routine apart.

* `Arrow` — a function as it is written;
* `Expr.arrows`, `Program.arrows` — the functions that are written in a tree, the outer ones in
  front of those in their bodies;
* `Expr.every_listed` — conditions on functions hold everywhere if they hold of these;
* `Expr.arrows_numbered` — numbering gives them consecutive numbers;
* `Program.eq_of_site_eq` — in a numbered routine no two have the same.
-/

namespace Stencil.Routine

/-- A function as it is written. -/
structure Arrow where
  /-- The number of its place. -/
  site : Nat
  /-- Its parameters. -/
  params : List String
  /-- Its body. -/
  body : Body

mutual

/-- The functions that are written in an expression. -/
def Expr.arrows : Expr → List Arrow
  | .number _ => []
  | .text _ => []
  | .bool _ => []
  | .null => []
  | .undefined => []
  | .name _ => []
  | .array items => exprsArrows items
  | .object members => membersArrows members
  | .member object _ _ => object.arrows
  | .index object key _ => object.arrows ++ key.arrows
  | .call callee args _ => callee.arrows ++ exprsArrows args
  | .unary _ operand => operand.arrows
  | .binary _ left right => left.arrows ++ right.arrows
  | .logical _ left right => left.arrows ++ right.arrows
  | .conditional test yes no => test.arrows ++ (yes.arrows ++ no.arrows)
  | .assign _ target value => target.arrows ++ value.arrows
  | .update _ _ target => target.arrows
  | .arrow site params body => ⟨site, params, body⟩ :: body.arrows

/-- `Expr.arrows` along a list. -/
def exprsArrows : List Expr → List Arrow
  | [] => []
  | e :: es => e.arrows ++ exprsArrows es

/-- `Expr.arrows` along named expressions. -/
def membersArrows : List (String × Expr) → List Arrow
  | [] => []
  | (_, e) :: es => e.arrows ++ membersArrows es

/-- `Expr.arrows` along declared names, which may have no value. -/
def bindingsArrows : List (String × Option Expr) → List Arrow
  | [] => []
  | (_, none) :: es => bindingsArrows es
  | (_, some e) :: es => e.arrows ++ bindingsArrows es

/-- `Expr.arrows` where there is an expression. -/
def optionArrows : Option Expr → List Arrow
  | none => []
  | some e => e.arrows

/-- The functions that are written in the body of a function. -/
def Body.arrows : Body → List Arrow
  | .expr e => e.arrows
  | .block stmts => stmtsArrows stmts

/-- The functions that are written in a statement. -/
def Stmt.arrows : Stmt → List Arrow
  | .empty => []
  | .expr e => e.arrows
  | .declare _ bindings => bindingsArrows bindings
  | .block stmts => stmtsArrows stmts
  | .branch test yes no => test.arrows ++ (yes.arrows ++ optionStmtArrows no)
  | .each _ _ _ source body => source.arrows ++ body.arrows
  | .loop init test update body =>
    optionStmtArrows init ++ (optionArrows test ++ (optionArrows update ++ body.arrows))
  | .repeatWhile test body => test.arrows ++ body.arrows
  | .leave => []
  | .skip => []
  | .giveBack value => optionArrows value
  | .raise e => e.arrows
  | .within object _ body => object.arrows ++ stmtsArrows body

/-- `Stmt.arrows` along a list. -/
def stmtsArrows : List Stmt → List Arrow
  | [] => []
  | s :: ss => s.arrows ++ stmtsArrows ss

/-- `Stmt.arrows` where there is a statement. -/
def optionStmtArrows : Option Stmt → List Arrow
  | none => []
  | some s => s.arrows

end

/-- The functions that are written in a routine. -/
def Program.arrows (p : Program) : List Arrow := stmtsArrows p.body

theorem mem_stmtsArrows {a : Arrow} {s : Stmt} {ss : List Stmt} (ha : a ∈ s.arrows) (hs : s ∈ ss) :
    a ∈ stmtsArrows ss := by
  induction ss with
  | nil => cases hs
  | cons first ss ih =>
    rcases List.mem_cons.mp hs with rfl | hs
    · exact List.mem_append_left _ ha
    · exact List.mem_append_right _ (ih hs)

/-! ### Conditions on functions -/

/-- A condition on functions, which asks nothing of other expressions. -/
def Expr.listed (t : Arrow → Bool) : Expr → Bool
  | .arrow site params body => t ⟨site, params, body⟩
  | _ => true

section Listed

variable (t : Arrow → Bool)

mutual

theorem Expr.every_listed : (e : Expr) →
    e.every (Expr.listed t) (fun _ => true) = e.arrows.all t
  | .number _ => rfl
  | .text _ => rfl
  | .bool _ => rfl
  | .null => rfl
  | .undefined => rfl
  | .name _ => rfl
  | .array items => exprsEvery_listed items
  | .object members => membersEvery_listed members
  | .member object _ _ => Expr.every_listed object
  | .index object key _ => by
    simp only [Expr.every, Expr.listed, Expr.arrows, List.all_append, Bool.true_and,
      Expr.every_listed object, Expr.every_listed key]
  | .call callee args _ => by
    simp only [Expr.every, Expr.listed, Expr.arrows, List.all_append, Bool.true_and,
      Expr.every_listed callee, exprsEvery_listed args]
  | .unary _ operand => Expr.every_listed operand
  | .binary _ left right => by
    simp only [Expr.every, Expr.listed, Expr.arrows, List.all_append, Bool.true_and,
      Expr.every_listed left, Expr.every_listed right]
  | .logical _ left right => by
    simp only [Expr.every, Expr.listed, Expr.arrows, List.all_append, Bool.true_and,
      Expr.every_listed left, Expr.every_listed right]
  | .conditional test yes no => by
    simp only [Expr.every, Expr.listed, Expr.arrows, List.all_append, Bool.true_and,
      Expr.every_listed test, Expr.every_listed yes, Expr.every_listed no, Bool.and_assoc]
  | .assign _ target value => by
    simp only [Expr.every, Expr.listed, Expr.arrows, List.all_append, Bool.true_and,
      Expr.every_listed target, Expr.every_listed value]
  | .update _ _ target => Expr.every_listed target
  | .arrow site params body => by
    simp only [Expr.every, Expr.listed, Expr.arrows, List.all_cons, Body.every_listed body]

theorem exprsEvery_listed : (es : List Expr) →
    exprsEvery (Expr.listed t) (fun _ => true) es = (exprsArrows es).all t
  | [] => rfl
  | e :: es => by
    simp only [exprsEvery, exprsArrows, List.all_append, Expr.every_listed e, exprsEvery_listed es]

theorem membersEvery_listed : (es : List (String × Expr)) →
    membersEvery (Expr.listed t) (fun _ => true) es = (membersArrows es).all t
  | [] => rfl
  | (_, e) :: es => by
    simp only [membersEvery, membersArrows, List.all_append, Expr.every_listed e,
      membersEvery_listed es]

theorem bindingsEvery_listed : (es : List (String × Option Expr)) →
    bindingsEvery (Expr.listed t) (fun _ => true) es = (bindingsArrows es).all t
  | [] => rfl
  | (_, none) :: es => bindingsEvery_listed es
  | (_, some e) :: es => by
    simp only [bindingsEvery, bindingsArrows, List.all_append, Expr.every_listed e,
      bindingsEvery_listed es]

theorem optionEvery_listed : (e : Option Expr) →
    optionEvery (Expr.listed t) (fun _ => true) e = (optionArrows e).all t
  | none => rfl
  | some e => Expr.every_listed e

theorem Body.every_listed : (b : Body) →
    b.every (Expr.listed t) (fun _ => true) = b.arrows.all t
  | .expr e => Expr.every_listed e
  | .block stmts => stmtsEvery_listed stmts

theorem Stmt.every_listed : (s : Stmt) →
    s.every (Expr.listed t) (fun _ => true) = s.arrows.all t
  | .empty => rfl
  | .expr e => Expr.every_listed e
  | .declare _ bindings => bindingsEvery_listed bindings
  | .block stmts => stmtsEvery_listed stmts
  | .branch test yes no => by
    simp only [Stmt.every, Stmt.arrows, List.all_append, Bool.true_and, Bool.and_assoc,
      Expr.every_listed test, Stmt.every_listed yes, optionStmtEvery_listed no]
  | .each _ _ _ source body => by
    simp only [Stmt.every, Stmt.arrows, List.all_append, Bool.true_and,
      Expr.every_listed source, Stmt.every_listed body]
  | .loop init test update body => by
    simp only [Stmt.every, Stmt.arrows, List.all_append, Bool.true_and, Bool.and_assoc,
      optionStmtEvery_listed init, optionEvery_listed test, optionEvery_listed update,
      Stmt.every_listed body]
  | .repeatWhile test body => by
    simp only [Stmt.every, Stmt.arrows, List.all_append, Bool.true_and,
      Expr.every_listed test, Stmt.every_listed body]
  | .leave => rfl
  | .skip => rfl
  | .giveBack value => optionEvery_listed value
  | .raise e => Expr.every_listed e
  | .within object _ body => by
    simp only [Stmt.every, Stmt.arrows, List.all_append, Bool.true_and,
      Expr.every_listed object, stmtsEvery_listed body]

theorem stmtsEvery_listed : (ss : List Stmt) →
    stmtsEvery (Expr.listed t) (fun _ => true) ss = (stmtsArrows ss).all t
  | [] => rfl
  | s :: ss => by
    simp only [stmtsEvery, stmtsArrows, List.all_append, Stmt.every_listed s, stmtsEvery_listed ss]

theorem optionStmtEvery_listed : (s : Option Stmt) →
    optionStmtEvery (Expr.listed t) (fun _ => true) s = (optionStmtArrows s).all t
  | none => rfl
  | some s => Stmt.every_listed s

end

end Listed

/-! ### Numbers -/

/-- The functions have consecutive numbers, from one number up to another. -/
structure Counts (n : Nat) (as : List Arrow) (m : Nat) : Prop where
  sites : as.map Arrow.site = List.range' n as.length
  last : m = n + as.length

namespace Counts

variable {n m k : Nat} {as bs : List Arrow}

theorem nil (n : Nat) : Counts n [] n := ⟨rfl, rfl⟩

theorem append (has : Counts n as m) (hbs : Counts m bs k) : Counts n (as ++ bs) k := by
  obtain ⟨hsites, rfl⟩ := has
  obtain ⟨hsites', rfl⟩ := hbs
  refine ⟨?_, by rw [List.length_append, Nat.add_assoc]⟩
  rw [List.map_append, List.length_append, hsites, hsites', List.range'_append_1]

/-- The function around others has the number in front of theirs. -/
theorem cons (params : List String) (body : Body) (has : Counts (n + 1) as m) :
    Counts n (⟨n, params, body⟩ :: as) m := by
  obtain ⟨hsites, rfl⟩ := has
  refine ⟨?_, by rw [List.length_cons]; omega⟩
  rw [List.map_cons, List.length_cons, List.range'_succ, hsites]

/-- Consecutive numbers are different. -/
theorem eq_of_site_eq (has : Counts n as m) {a b : Arrow} (ha : a ∈ as) (hb : b ∈ as)
    (hsite : a.site = b.site) : a = b := by
  have hnodup : (as.map Arrow.site).Nodup := has.sites ▸ List.nodup_range'
  exact List.inj_on_of_nodup_map hnodup ha hb hsite

end Counts

mutual

theorem Expr.arrows_numbered : (e : Expr) → ∀ n, Counts n (e.numbered n).1.arrows (e.numbered n).2
  | .number _, n => .nil n
  | .text _, n => .nil n
  | .bool _, n => .nil n
  | .null, n => .nil n
  | .undefined, n => .nil n
  | .name _, n => .nil n
  | .array items, n => exprsArrows_numbered items n
  | .object members, n => membersArrows_numbered members n
  | .member object _ _, n => Expr.arrows_numbered object n
  | .index object key _, n => (Expr.arrows_numbered object n).append (Expr.arrows_numbered key _)
  | .call callee args _, n => (Expr.arrows_numbered callee n).append (exprsArrows_numbered args _)
  | .unary _ operand, n => Expr.arrows_numbered operand n
  | .binary _ left right, n => (Expr.arrows_numbered left n).append (Expr.arrows_numbered right _)
  | .logical _ left right, n => (Expr.arrows_numbered left n).append (Expr.arrows_numbered right _)
  | .conditional test yes no, n =>
    (Expr.arrows_numbered test n).append
      ((Expr.arrows_numbered yes _).append (Expr.arrows_numbered no _))
  | .assign _ target value, n =>
    (Expr.arrows_numbered target n).append (Expr.arrows_numbered value _)
  | .update _ _ target, n => Expr.arrows_numbered target n
  | .arrow _ params body, n => .cons params _ (Body.arrows_numbered body (n + 1))

theorem exprsArrows_numbered : (es : List Expr) → ∀ n,
    Counts n (exprsArrows (numberedExprs es n).1) (numberedExprs es n).2
  | [], n => .nil n
  | e :: es, n => (Expr.arrows_numbered e n).append (exprsArrows_numbered es _)

theorem membersArrows_numbered : (es : List (String × Expr)) → ∀ n,
    Counts n (membersArrows (numberedMembers es n).1) (numberedMembers es n).2
  | [], n => .nil n
  | (_, e) :: es, n => (Expr.arrows_numbered e n).append (membersArrows_numbered es _)

theorem bindingsArrows_numbered : (es : List (String × Option Expr)) → ∀ n,
    Counts n (bindingsArrows (numberedBindings es n).1) (numberedBindings es n).2
  | [], n => .nil n
  | (_, none) :: es, n => bindingsArrows_numbered es n
  | (_, some e) :: es, n => (Expr.arrows_numbered e n).append (bindingsArrows_numbered es _)

theorem optionArrows_numbered : (e : Option Expr) → ∀ n,
    Counts n (optionArrows (numberedOption Expr.numbered e n).1)
      (numberedOption Expr.numbered e n).2
  | none, n => .nil n
  | some e, n => Expr.arrows_numbered e n

theorem Body.arrows_numbered : (b : Body) → ∀ n, Counts n (b.numbered n).1.arrows (b.numbered n).2
  | .expr e, n => Expr.arrows_numbered e n
  | .block stmts, n => stmtsArrows_numbered stmts n

theorem Stmt.arrows_numbered : (s : Stmt) → ∀ n, Counts n (s.numbered n).1.arrows (s.numbered n).2
  | .empty, n => .nil n
  | .expr e, n => Expr.arrows_numbered e n
  | .declare _ bindings, n => bindingsArrows_numbered bindings n
  | .block stmts, n => stmtsArrows_numbered stmts n
  | .branch test yes none, n =>
    (Expr.arrows_numbered test n).append ((Stmt.arrows_numbered yes _).append (.nil _))
  | .branch test yes (some no), n =>
    (Expr.arrows_numbered test n).append
      ((Stmt.arrows_numbered yes _).append (Stmt.arrows_numbered no _))
  | .each _ _ _ source body, n =>
    (Expr.arrows_numbered source n).append (Stmt.arrows_numbered body _)
  | .loop init test update body, n => by
    rw [Stmt.numbered_loop]
    exact (optionStmtArrows_numbered init n).append ((optionArrows_numbered test _).append
      ((optionArrows_numbered update _).append (Stmt.arrows_numbered body _)))
  | .repeatWhile test body, n =>
    (Expr.arrows_numbered test n).append (Stmt.arrows_numbered body _)
  | .leave, n => .nil n
  | .skip, n => .nil n
  | .giveBack none, n => .nil n
  | .giveBack (some e), n => Expr.arrows_numbered e n
  | .raise e, n => Expr.arrows_numbered e n
  | .within object _ body, n =>
    (Expr.arrows_numbered object n).append (stmtsArrows_numbered body _)

theorem stmtsArrows_numbered : (ss : List Stmt) → ∀ n,
    Counts n (stmtsArrows (numberedStmts ss n).1) (numberedStmts ss n).2
  | [], n => .nil n
  | s :: ss, n => (Stmt.arrows_numbered s n).append (stmtsArrows_numbered ss _)

theorem optionStmtArrows_numbered : (s : Option Stmt) → ∀ n,
    Counts n (optionStmtArrows (numberedOption Stmt.numbered s n).1)
      (numberedOption Stmt.numbered s n).2
  | none, n => .nil n
  | some s, n => Stmt.arrows_numbered s n

end

/-- **The functions of a numbered routine are told apart by their numbers.** -/
theorem Program.eq_of_site_eq {p : Program} {a b : Arrow} (ha : a ∈ p.numbered.arrows)
    (hb : b ∈ p.numbered.arrows) (hsite : a.site = b.site) : a = b :=
  (stmtsArrows_numbered p.body 0).eq_of_site_eq ha hb hsite

end Stencil.Routine
