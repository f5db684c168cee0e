import Mathlib.Data.List.Basic
import Stencil.Routine.Tree

/-!
# Free loops

A loop over a value ends when the value has been visited.  A `while` and a `for` with a test of its
own end only when their test says so; these are the free loops.

* `Expr.isLoopFree`, `Body.isLoopFree`, `Stmt.isLoopFree` — trees without free loops;
* `Expr.parts`, `Stmt.exprs`, `Stmt.stmts` — what the value of an expression and the end of a
  statement are found from.  The parts are smaller, and have no free loops if the whole has none.
-/

namespace Stencil.Routine

mutual

/-- Whether an expression has no free loop in its functions. -/
def Expr.isLoopFree : Expr → Bool
  | .number _ => true
  | .text _ => true
  | .bool _ => true
  | .null => true
  | .undefined => true
  | .name _ => true
  | .array items => exprsLoopFree items
  | .object members => membersLoopFree members
  | .member object _ _ => object.isLoopFree
  | .index object key _ => object.isLoopFree && key.isLoopFree
  | .call callee args _ => callee.isLoopFree && exprsLoopFree args
  | .unary _ operand => operand.isLoopFree
  | .binary _ left right => left.isLoopFree && right.isLoopFree
  | .logical _ left right => left.isLoopFree && right.isLoopFree
  | .conditional test yes no => test.isLoopFree && yes.isLoopFree && no.isLoopFree
  | .assign _ target value => target.isLoopFree && value.isLoopFree
  | .update _ _ target => target.isLoopFree
  | .arrow _ _ body => body.isLoopFree

/-- `Expr.isLoopFree` along a list. -/
def exprsLoopFree : List Expr → Bool
  | [] => true
  | e :: es => e.isLoopFree && exprsLoopFree es

/-- `Expr.isLoopFree` along named expressions. -/
def membersLoopFree : List (String × Expr) → Bool
  | [] => true
  | (_, e) :: es => e.isLoopFree && membersLoopFree es

/-- `Expr.isLoopFree` along declared names, which may have no value. -/
def bindingsLoopFree : List (String × Option Expr) → Bool
  | [] => true
  | (_, none) :: es => bindingsLoopFree es
  | (_, some e) :: es => e.isLoopFree && bindingsLoopFree es

/-- Whether the body of a function has no free loop. -/
def Body.isLoopFree : Body → Bool
  | .expr e => e.isLoopFree
  | .block stmts => stmtsLoopFree stmts

/-- Whether a statement has no free loop, in its functions neither. -/
def Stmt.isLoopFree : Stmt → Bool
  | .empty => true
  | .expr e => e.isLoopFree
  | .declare _ bindings => bindingsLoopFree bindings
  | .block stmts => stmtsLoopFree stmts
  | .branch test yes none => test.isLoopFree && yes.isLoopFree
  | .branch test yes (some no) => test.isLoopFree && yes.isLoopFree && no.isLoopFree
  | .each _ _ _ source body => source.isLoopFree && body.isLoopFree
  | .loop _ _ _ _ => false
  | .repeatWhile _ _ => false
  | .leave => true
  | .skip => true
  | .giveBack none => true
  | .giveBack (some e) => e.isLoopFree
  | .raise e => e.isLoopFree
  | .within object _ body => object.isLoopFree && stmtsLoopFree body

/-- `Stmt.isLoopFree` along a list. -/
def stmtsLoopFree : List Stmt → Bool
  | [] => true
  | s :: ss => s.isLoopFree && stmtsLoopFree ss

end

/-- Whether the statements of a program have no free loop. -/
def Program.isLoopFree (p : Program) : Bool := stmtsLoopFree p.body

theorem exprsLoopFree_iff (es : List Expr) :
    exprsLoopFree es = true ↔ ∀ e ∈ es, e.isLoopFree = true := by
  induction es with
  | nil => simp [exprsLoopFree]
  | cons e es ih => simp [exprsLoopFree, ih]

theorem stmtsLoopFree_iff (ss : List Stmt) :
    stmtsLoopFree ss = true ↔ ∀ s ∈ ss, s.isLoopFree = true := by
  induction ss with
  | nil => simp [stmtsLoopFree]
  | cons s ss ih => simp [stmtsLoopFree, ih]

theorem membersLoopFree_iff (es : List (String × Expr)) :
    membersLoopFree es = true ↔ ∀ e ∈ es.map Prod.snd, e.isLoopFree = true := by
  induction es with
  | nil => simp [membersLoopFree]
  | cons e es ih => simp [membersLoopFree, ih]

theorem bindingsLoopFree_iff (es : List (String × Option Expr)) :
    bindingsLoopFree es = true ↔ ∀ e ∈ es.filterMap Prod.snd, e.isLoopFree = true := by
  induction es with
  | nil => simp [bindingsLoopFree]
  | cons e es ih =>
    obtain ⟨name, value⟩ := e
    cases value with
    | none => simpa [bindingsLoopFree] using ih
    | some e => simp [bindingsLoopFree, ih]

/-! ### Parts -/

/-- What is evaluated on the way to a target. -/
def Expr.targetParts : Expr → List Expr
  | .member front _ _ => [front]
  | .index front key _ => [front, key]
  | _ => []

/-- What the value of an expression is found from. -/
def Expr.parts : Expr → List Expr
  | .array items => items
  | .object members => members.map Prod.snd
  | .member front _ _ => [front]
  | .index front key _ => [front, key]
  | .call callee args _ => callee :: (callee.targetParts ++ args)
  | .unary _ operand => [operand]
  | .binary _ left right => [left, right]
  | .logical _ left right => [left, right]
  | .conditional test yes no => [test, yes, no]
  | .assign _ target value => target :: value :: target.targetParts
  | .update _ _ target => target :: target.targetParts
  | _ => []

/-- The expressions from which the end of a statement is found. -/
def Stmt.exprs : Stmt → List Expr
  | .expr e => [e]
  | .declare _ bindings => bindings.filterMap Prod.snd
  | .branch test _ _ => [test]
  | .each _ _ _ source _ => [source]
  | .loop _ test update _ => test.toList ++ update.toList
  | .repeatWhile test _ => [test]
  | .giveBack value => value.toList
  | .raise e => [e]
  | .within object _ _ => [object]
  | _ => []

/-- The statements from which the end of a statement is found. -/
def Stmt.stmts : Stmt → List Stmt
  | .block stmts => stmts
  | .branch _ yes no => yes :: no.toList
  | .each _ _ _ _ body => [body]
  | .loop init _ _ body => body :: init.toList
  | .repeatWhile _ body => [body]
  | .within _ _ body => body
  | _ => []

/-! #### The parts have no free loops -/

theorem Expr.isLoopFree_targetParts {e : Expr} (h : e.isLoopFree = true) :
    ∀ part ∈ e.targetParts, part.isLoopFree = true := by
  cases e <;> simp_all [Expr.targetParts, Expr.isLoopFree]

theorem Expr.isLoopFree_parts {e : Expr} (h : e.isLoopFree = true) :
    ∀ part ∈ e.parts, part.isLoopFree = true := by
  cases e with
  | array items => exact (exprsLoopFree_iff items).mp h
  | object members => exact (membersLoopFree_iff members).mp h
  | call callee args optional =>
    simp only [Expr.isLoopFree, Bool.and_eq_true, exprsLoopFree_iff] at h
    have htarget := Expr.isLoopFree_targetParts h.1
    intro part hpart
    simp only [Expr.parts, List.mem_cons, List.mem_append] at hpart
    rcases hpart with rfl | hpart | hpart
    · exact h.1
    · exact htarget part hpart
    · exact h.2 part hpart
  | assign op target value =>
    simp only [Expr.isLoopFree, Bool.and_eq_true] at h
    have htarget := Expr.isLoopFree_targetParts h.1
    simp only [Expr.parts, List.mem_cons, forall_eq_or_imp]
    exact ⟨h.1, h.2, htarget⟩
  | update up leading target =>
    have htarget := Expr.isLoopFree_targetParts (e := target) h
    simp only [Expr.parts, List.mem_cons, forall_eq_or_imp]
    exact ⟨h, htarget⟩
  | _ => simp_all [Expr.parts, Expr.isLoopFree]

theorem Stmt.isLoopFree_exprs {s : Stmt} (h : s.isLoopFree = true) :
    ∀ e ∈ s.exprs, e.isLoopFree = true := by
  cases s with
  | declare kind bindings => exact (bindingsLoopFree_iff bindings).mp h
  | branch test yes no => cases no <;> simp_all [Stmt.exprs, Stmt.isLoopFree]
  | giveBack value => cases value <;> simp_all [Stmt.exprs, Stmt.isLoopFree]
  | _ => simp_all [Stmt.exprs, Stmt.isLoopFree]

theorem Stmt.isLoopFree_stmts {s : Stmt} (h : s.isLoopFree = true) :
    ∀ part ∈ s.stmts, part.isLoopFree = true := by
  cases s with
  | block stmts => exact (stmtsLoopFree_iff stmts).mp h
  | within object guarded body =>
    simp only [Stmt.isLoopFree, Bool.and_eq_true] at h
    exact (stmtsLoopFree_iff body).mp h.2
  | branch test yes no => cases no <;> simp_all [Stmt.stmts, Stmt.isLoopFree]
  | _ => simp_all [Stmt.stmts, Stmt.isLoopFree]

/-! #### The parts are smaller -/

theorem Expr.sizeOf_targetParts {e part : Expr} (h : part ∈ e.targetParts) :
    sizeOf part < sizeOf e := by
  cases e <;> simp [Expr.targetParts] at h
  · subst h
    simp only [Expr.member.sizeOf_spec]
    omega
  · rcases h with rfl | rfl <;> simp only [Expr.index.sizeOf_spec] <;> omega

theorem Expr.sizeOf_parts {e part : Expr} (h : part ∈ e.parts) : sizeOf part < sizeOf e := by
  cases e with
  | array items =>
    have hlt := List.sizeOf_lt_of_mem h
    simp only [Expr.parts] at hlt
    simp only [Expr.array.sizeOf_spec]
    omega
  | object members =>
    obtain ⟨member, hmem, rfl⟩ := List.mem_map.mp h
    have hlt := List.sizeOf_lt_of_mem hmem
    obtain ⟨name, e⟩ := member
    simp only [Prod.mk.sizeOf_spec] at hlt
    simp only [Expr.object.sizeOf_spec]
    omega
  | call callee args optional =>
    simp only [Expr.parts, List.mem_cons, List.mem_append] at h
    simp only [Expr.call.sizeOf_spec]
    rcases h with rfl | h | h
    · omega
    · have hlt := Expr.sizeOf_targetParts h
      omega
    · have hlt := List.sizeOf_lt_of_mem h
      omega
  | assign op target value =>
    simp only [Expr.parts, List.mem_cons] at h
    simp only [Expr.assign.sizeOf_spec]
    rcases h with rfl | rfl | h
    · omega
    · omega
    · have hlt := Expr.sizeOf_targetParts h
      omega
  | update up leading target =>
    simp only [Expr.parts, List.mem_cons] at h
    simp only [Expr.update.sizeOf_spec]
    rcases h with rfl | h
    · omega
    · have hlt := Expr.sizeOf_targetParts h
      omega
  | member object property optional =>
    simp only [Expr.parts, List.mem_singleton] at h
    subst h
    simp only [Expr.member.sizeOf_spec]
    omega
  | index object key optional =>
    simp only [Expr.parts, List.mem_cons, List.not_mem_nil, or_false] at h
    rcases h with rfl | rfl <;> simp only [Expr.index.sizeOf_spec] <;> omega
  | unary op operand =>
    simp only [Expr.parts, List.mem_singleton] at h
    subst h
    simp only [Expr.unary.sizeOf_spec]
    omega
  | binary op left right =>
    simp only [Expr.parts, List.mem_cons, List.not_mem_nil, or_false] at h
    rcases h with rfl | rfl <;> simp only [Expr.binary.sizeOf_spec] <;> omega
  | logical op left right =>
    simp only [Expr.parts, List.mem_cons, List.not_mem_nil, or_false] at h
    rcases h with rfl | rfl <;> simp only [Expr.logical.sizeOf_spec] <;> omega
  | conditional test yes no =>
    simp only [Expr.parts, List.mem_cons, List.not_mem_nil, or_false] at h
    rcases h with rfl | rfl | rfl <;> simp only [Expr.conditional.sizeOf_spec] <;> omega
  | number | text | bool | null | undefined | name | arrow => cases h

theorem Stmt.sizeOf_stmts {s part : Stmt} (h : part ∈ s.stmts) : sizeOf part < sizeOf s := by
  cases s with
  | block stmts =>
    have hlt := List.sizeOf_lt_of_mem h
    simp only [Stmt.stmts] at hlt
    simp only [Stmt.block.sizeOf_spec]
    omega
  | within object guarded body =>
    have hlt := List.sizeOf_lt_of_mem h
    simp only [Stmt.stmts] at hlt
    simp only [Stmt.within.sizeOf_spec]
    omega
  | branch test yes no =>
    simp only [Stmt.stmts, List.mem_cons, Option.mem_toList] at h
    simp only [Stmt.branch.sizeOf_spec]
    rcases h with rfl | rfl
    · omega
    · simp only [Option.some.sizeOf_spec]
      omega
  | loop init test update body =>
    simp only [Stmt.stmts, List.mem_cons, Option.mem_toList] at h
    simp only [Stmt.loop.sizeOf_spec]
    rcases h with rfl | rfl
    · omega
    · simp only [Option.some.sizeOf_spec]
      omega
  | each head kind name source body =>
    simp only [Stmt.stmts, List.mem_singleton] at h
    subst h
    simp only [Stmt.each.sizeOf_spec]
    omega
  | repeatWhile test body =>
    simp only [Stmt.stmts, List.mem_singleton] at h
    subst h
    simp only [Stmt.repeatWhile.sizeOf_spec]
    omega
  | empty | expr | declare | leave | skip | giveBack | raise => cases h

end Stencil.Routine
