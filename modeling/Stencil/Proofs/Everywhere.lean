import Stencil.Proofs.FreeLoops

/-!
# Conditions on every part

Many conditions on a routine are conditions on its expressions and statements one by one: which
names are assigned, which functions are written.  They hold of the parts if they hold of the whole,
and the bodies of functions are parts too.

* `Expr.every`, `Body.every`, `Stmt.every` — a condition on expressions and one on statements hold
  everywhere in a tree;
* `Expr.every_parts`, `Stmt.every_exprs`, `Stmt.every_stmts` — so they hold everywhere in the parts;
* `Unnumbered` — conditions that do not ask for the numbers of functions;
* `every_numbered` — these hold everywhere in a numbered program if they do so in the program.
-/

namespace Stencil.Routine

section Every

variable (p : Expr → Bool) (q : Stmt → Bool)

mutual

/-- Whether the conditions hold of the expression and of everything in it. -/
def Expr.every : Expr → Bool
  | .number x => p (.number x)
  | .text s => p (.text s)
  | .bool b => p (.bool b)
  | .null => p .null
  | .undefined => p .undefined
  | .name s => p (.name s)
  | .array items => p (.array items) && exprsEvery items
  | .object members => p (.object members) && membersEvery members
  | .member object property optional => p (.member object property optional) && object.every
  | .index object key optional => p (.index object key optional) && object.every && key.every
  | .call callee args optional =>
    p (.call callee args optional) && callee.every && exprsEvery args
  | .unary op operand => p (.unary op operand) && operand.every
  | .binary op left right => p (.binary op left right) && left.every && right.every
  | .logical op left right => p (.logical op left right) && left.every && right.every
  | .conditional test yes no =>
    p (.conditional test yes no) && test.every && yes.every && no.every
  | .assign op target value => p (.assign op target value) && target.every && value.every
  | .update up leading target => p (.update up leading target) && target.every
  | .arrow site params body => p (.arrow site params body) && body.every

/-- `Expr.every` along a list. -/
def exprsEvery : List Expr → Bool
  | [] => true
  | e :: es => e.every && exprsEvery es

/-- `Expr.every` along named expressions. -/
def membersEvery : List (String × Expr) → Bool
  | [] => true
  | (_, e) :: es => e.every && membersEvery es

/-- `Expr.every` along declared names, which may have no value. -/
def bindingsEvery : List (String × Option Expr) → Bool
  | [] => true
  | (_, none) :: es => bindingsEvery es
  | (_, some e) :: es => e.every && bindingsEvery es

/-- `Expr.every` where there is an expression. -/
def optionEvery : Option Expr → Bool
  | none => true
  | some e => e.every

/-- Whether the conditions hold everywhere in the body of a function. -/
def Body.every : Body → Bool
  | .expr e => e.every
  | .block stmts => stmtsEvery stmts

/-- Whether the conditions hold of the statement and of everything in it. -/
def Stmt.every : Stmt → Bool
  | .empty => q .empty
  | .expr e => q (.expr e) && e.every
  | .declare kind bindings => q (.declare kind bindings) && bindingsEvery bindings
  | .block stmts => q (.block stmts) && stmtsEvery stmts
  | .branch test yes no =>
    q (.branch test yes no) && test.every && yes.every && optionStmtEvery no
  | .each head kind name source body =>
    q (.each head kind name source body) && source.every && body.every
  | .loop init test update body =>
    q (.loop init test update body) && optionStmtEvery init && optionEvery test
      && optionEvery update && body.every
  | .repeatWhile test body => q (.repeatWhile test body) && test.every && body.every
  | .leave => q .leave
  | .skip => q .skip
  | .giveBack value => q (.giveBack value) && optionEvery value
  | .raise e => q (.raise e) && e.every
  | .within object guarded body =>
    q (.within object guarded body) && object.every && stmtsEvery body

/-- `Stmt.every` along a list. -/
def stmtsEvery : List Stmt → Bool
  | [] => true
  | s :: ss => s.every && stmtsEvery ss

/-- `Stmt.every` where there is a statement. -/
def optionStmtEvery : Option Stmt → Bool
  | none => true
  | some s => s.every

end

end Every

variable {p : Expr → Bool} {q : Stmt → Bool}

theorem exprsEvery_iff (es : List Expr) :
    exprsEvery p q es = true ↔ ∀ e ∈ es, e.every p q = true := by
  induction es with
  | nil => simp [exprsEvery]
  | cons e es ih => simp [exprsEvery, ih]

theorem stmtsEvery_iff (ss : List Stmt) :
    stmtsEvery p q ss = true ↔ ∀ s ∈ ss, s.every p q = true := by
  induction ss with
  | nil => simp [stmtsEvery]
  | cons s ss ih => simp [stmtsEvery, ih]

theorem membersEvery_iff (es : List (String × Expr)) :
    membersEvery p q es = true ↔ ∀ e ∈ es.map Prod.snd, e.every p q = true := by
  induction es with
  | nil => simp [membersEvery]
  | cons e es ih => simp [membersEvery, ih]

theorem bindingsEvery_iff (es : List (String × Option Expr)) :
    bindingsEvery p q es = true ↔ ∀ e ∈ es.filterMap Prod.snd, e.every p q = true := by
  induction es with
  | nil => simp [bindingsEvery]
  | cons e es ih =>
    obtain ⟨name, value⟩ := e
    cases value with
    | none => simpa [bindingsEvery] using ih
    | some e => simp [bindingsEvery, ih]

/-! ### The whole and its parts -/

theorem Expr.every_self {e : Expr} (h : e.every p q = true) : p e = true := by
  cases e <;> simp_all [Expr.every]

theorem Stmt.every_self {s : Stmt} (h : s.every p q = true) : q s = true := by
  cases s <;> simp_all [Stmt.every]

theorem Expr.every_targetParts {e : Expr} (h : e.every p q = true) :
    ∀ part ∈ e.targetParts, part.every p q = true := by
  cases e <;> simp_all [Expr.targetParts, Expr.every]

theorem Expr.every_parts {e : Expr} (h : e.every p q = true) :
    ∀ part ∈ e.parts, part.every p q = true := by
  cases e with
  | array items =>
    simp only [Expr.every, Bool.and_eq_true] at h
    exact (exprsEvery_iff items).mp h.2
  | object members =>
    simp only [Expr.every, Bool.and_eq_true] at h
    exact (membersEvery_iff members).mp h.2
  | call callee args optional =>
    simp only [Expr.every, Bool.and_eq_true, exprsEvery_iff] at h
    have htarget := Expr.every_targetParts h.1.2
    intro part hpart
    simp only [Expr.parts, List.mem_cons, List.mem_append] at hpart
    rcases hpart with rfl | hpart | hpart
    · exact h.1.2
    · exact htarget part hpart
    · exact h.2 part hpart
  | assign op target value =>
    simp only [Expr.every, Bool.and_eq_true] at h
    have htarget := Expr.every_targetParts h.1.2
    simp only [Expr.parts, List.mem_cons, forall_eq_or_imp]
    exact ⟨h.1.2, h.2, htarget⟩
  | update up leading target =>
    simp only [Expr.every, Bool.and_eq_true] at h
    have htarget := Expr.every_targetParts h.2
    simp only [Expr.parts, List.mem_cons, forall_eq_or_imp]
    exact ⟨h.2, htarget⟩
  | _ => simp_all [Expr.parts, Expr.every]

theorem Stmt.every_exprs {s : Stmt} (h : s.every p q = true) :
    ∀ e ∈ s.exprs, e.every p q = true := by
  cases s with
  | declare kind bindings =>
    simp only [Stmt.every, Bool.and_eq_true] at h
    exact (bindingsEvery_iff bindings).mp h.2
  | loop init test update body =>
    cases test <;> cases update <;> simp_all [Stmt.exprs, Stmt.every, optionEvery]
  | giveBack value => cases value <;> simp_all [Stmt.exprs, Stmt.every, optionEvery]
  | _ => simp_all [Stmt.exprs, Stmt.every]

theorem Stmt.every_stmts {s : Stmt} (h : s.every p q = true) :
    ∀ part ∈ s.stmts, part.every p q = true := by
  cases s with
  | block stmts =>
    simp only [Stmt.every, Bool.and_eq_true] at h
    exact (stmtsEvery_iff stmts).mp h.2
  | within object guarded body =>
    simp only [Stmt.every, Bool.and_eq_true] at h
    exact (stmtsEvery_iff body).mp h.2
  | branch test yes no => cases no <;> simp_all [Stmt.stmts, Stmt.every, optionStmtEvery]
  | loop init test update body =>
    cases init <;> simp_all [Stmt.stmts, Stmt.every, optionStmtEvery]
  | _ => simp_all [Stmt.stmts, Stmt.every]

/-! ### Numbered programs -/

/-- The conditions do not ask for the numbers of functions. -/
structure Unnumbered (p : Expr → Bool) (q : Stmt → Bool) : Prop where
  expr (e : Expr) (n : Nat) : p (e.numbered n).1 = p e
  stmt (s : Stmt) (n : Nat) : q (s.numbered n).1 = q s

/-- Numbers what may be missing. -/
def numberedOption {α : Type} (number : α → StateM Nat α) : Option α → StateM Nat (Option α)
  | none => return none
  | some a => some <$> number a

/-- The parts of a counted loop are numbered in order. -/
theorem Stmt.numbered_loop (init : Option Stmt) (test update : Option Expr) (body : Stmt) :
    (Stmt.loop init test update body).numbered = (do
      let init ← numberedOption Stmt.numbered init
      let test ← numberedOption Expr.numbered test
      let update ← numberedOption Expr.numbered update
      return .loop init test update (← body.numbered)) := by
  cases init <;> cases test <;> cases update <;> rfl

section Numbered

variable (h : Unnumbered p q)
include h

set_option linter.unusedSectionVars false in
mutual

theorem Expr.every_numbered : (e : Expr) → ∀ n, (e.numbered n).1.every p q = e.every p q
  | .number _, _ => rfl
  | .text _, _ => rfl
  | .bool _, _ => rfl
  | .null, _ => rfl
  | .undefined, _ => rfl
  | .name _, _ => rfl
  | .array items, n =>
    congrArg₂ and (h.expr (.array items) n) (exprsEvery_numbered items n)
  | .object members, n =>
    congrArg₂ and (h.expr (.object members) n) (membersEvery_numbered members n)
  | .member object property optional, n =>
    congrArg₂ and (h.expr (.member object property optional) n) (Expr.every_numbered object n)
  | .index object key optional, n =>
    congrArg₂ and (congrArg₂ and (h.expr (.index object key optional) n)
      (Expr.every_numbered object n)) (Expr.every_numbered key _)
  | .call callee args optional, n =>
    congrArg₂ and (congrArg₂ and (h.expr (.call callee args optional) n)
      (Expr.every_numbered callee n)) (exprsEvery_numbered args _)
  | .unary op operand, n =>
    congrArg₂ and (h.expr (.unary op operand) n) (Expr.every_numbered operand n)
  | .binary op left right, n =>
    congrArg₂ and (congrArg₂ and (h.expr (.binary op left right) n)
      (Expr.every_numbered left n)) (Expr.every_numbered right _)
  | .logical op left right, n =>
    congrArg₂ and (congrArg₂ and (h.expr (.logical op left right) n)
      (Expr.every_numbered left n)) (Expr.every_numbered right _)
  | .conditional test yes no, n =>
    congrArg₂ and (congrArg₂ and (congrArg₂ and (h.expr (.conditional test yes no) n)
      (Expr.every_numbered test n)) (Expr.every_numbered yes _)) (Expr.every_numbered no _)
  | .assign op target value, n =>
    congrArg₂ and (congrArg₂ and (h.expr (.assign op target value) n)
      (Expr.every_numbered target n)) (Expr.every_numbered value _)
  | .update up leading target, n =>
    congrArg₂ and (h.expr (.update up leading target) n) (Expr.every_numbered target n)
  | .arrow site params body, n =>
    congrArg₂ and (h.expr (.arrow site params body) n) (Body.every_numbered body _)

theorem exprsEvery_numbered :
    (es : List Expr) → ∀ n, exprsEvery p q (numberedExprs es n).1 = exprsEvery p q es
  | [], _ => rfl
  | e :: es, n => congrArg₂ and (Expr.every_numbered e n) (exprsEvery_numbered es _)

theorem membersEvery_numbered : (es : List (String × Expr)) → ∀ n,
    membersEvery p q (numberedMembers es n).1 = membersEvery p q es
  | [], _ => rfl
  | (_, e) :: es, n => congrArg₂ and (Expr.every_numbered e n) (membersEvery_numbered es _)

theorem bindingsEvery_numbered : (es : List (String × Option Expr)) → ∀ n,
    bindingsEvery p q (numberedBindings es n).1 = bindingsEvery p q es
  | [], _ => rfl
  | (_, none) :: es, n => bindingsEvery_numbered es n
  | (_, some e) :: es, n =>
    congrArg₂ and (Expr.every_numbered e n) (bindingsEvery_numbered es _)

theorem Body.every_numbered : (b : Body) → ∀ n, (b.numbered n).1.every p q = b.every p q
  | .expr e, n => Expr.every_numbered e n
  | .block stmts, n => stmtsEvery_numbered stmts n

theorem Stmt.every_numbered : (s : Stmt) → ∀ n, (s.numbered n).1.every p q = s.every p q
  | .empty, _ => rfl
  | .expr e, n => congrArg₂ and (h.stmt (.expr e) n) (Expr.every_numbered e n)
  | .declare kind bindings, n =>
    congrArg₂ and (h.stmt (.declare kind bindings) n) (bindingsEvery_numbered bindings n)
  | .block stmts, n => congrArg₂ and (h.stmt (.block stmts) n) (stmtsEvery_numbered stmts n)
  | .branch test yes none, n =>
    congrArg₂ and (congrArg₂ and (congrArg₂ and (h.stmt (.branch test yes none) n)
      (Expr.every_numbered test n)) (Stmt.every_numbered yes _)) rfl
  | .branch test yes (some no), n =>
    congrArg₂ and (congrArg₂ and (congrArg₂ and (h.stmt (.branch test yes (some no)) n)
      (Expr.every_numbered test n)) (Stmt.every_numbered yes _)) (Stmt.every_numbered no _)
  | .each head kind name source body, n =>
    congrArg₂ and (congrArg₂ and (h.stmt (.each head kind name source body) n)
      (Expr.every_numbered source n)) (Stmt.every_numbered body _)
  | .loop init test update body, n => by
    have hself := h.stmt (.loop init test update body) n
    have hinit : ∀ m, optionStmtEvery p q (numberedOption Stmt.numbered init m).1
        = optionStmtEvery p q init := by
      cases init with
      | none => exact fun _ => rfl
      | some s => exact Stmt.every_numbered s
    have hoption : ∀ e ∈ [test, update], ∀ m,
        optionEvery p q (numberedOption Expr.numbered e m).1 = optionEvery p q e := by
      simp only [List.mem_cons, List.not_mem_nil, or_false, forall_eq_or_imp, forall_eq]
      constructor
      · cases test with
        | none => exact fun _ => rfl
        | some e => exact Expr.every_numbered e
      · cases update with
        | none => exact fun _ => rfl
        | some e => exact Expr.every_numbered e
    rw [Stmt.numbered_loop] at hself ⊢
    exact congrArg₂ and (congrArg₂ and (congrArg₂ and (congrArg₂ and hself (hinit n))
      (hoption test (by simp) _)) (hoption update (by simp) _)) (Stmt.every_numbered body _)
  | .repeatWhile test body, n =>
    congrArg₂ and (congrArg₂ and (h.stmt (.repeatWhile test body) n)
      (Expr.every_numbered test n)) (Stmt.every_numbered body _)
  | .leave, _ => rfl
  | .skip, _ => rfl
  | .giveBack none, _ => rfl
  | .giveBack (some e), n =>
    congrArg₂ and (h.stmt (.giveBack (some e)) n) (Expr.every_numbered e n)
  | .raise e, n => congrArg₂ and (h.stmt (.raise e) n) (Expr.every_numbered e n)
  | .within object guarded body, n =>
    congrArg₂ and (congrArg₂ and (h.stmt (.within object guarded body) n)
      (Expr.every_numbered object n)) (stmtsEvery_numbered body _)

theorem stmtsEvery_numbered :
    (ss : List Stmt) → ∀ n, stmtsEvery p q (numberedStmts ss n).1 = stmtsEvery p q ss
  | [], _ => rfl
  | s :: ss, n => congrArg₂ and (Stmt.every_numbered s n) (stmtsEvery_numbered ss _)

end

end Numbered

end Stencil.Routine
