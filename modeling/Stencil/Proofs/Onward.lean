import Stencil.Proofs.Alike
import Stencil.Proofs.Everywhere
import Stencil.Routine.Evaluate

/-!
# Statements that go on

A statement that gives back ends the function around it, and one that leaves or skips ends a loop or
a round of it.  Statements that do nothing of this outside the functions and loops in them let the
next statement follow, however deep they nest.

* `Stmt.goesOn` — nothing in the statement ends what is around it, but for the loops in it;
* `ComesTo` — what steps come to, if they come to something;
* `comesTo_exec` — statements that go on end nothing but loops around them.
-/

namespace Stencil.Routine

mutual

/-- Whether nothing in the statement ends what is around it.  Inside a loop it may end the loop or
the round, and the functions in it may end as they like. -/
def Stmt.goesOn : Bool → Stmt → Bool
  | inLoop, .block stmts => stmtsGoOn inLoop stmts
  | inLoop, .branch _ yes no => yes.goesOn inLoop && optionGoesOn inLoop no
  | _, .each _ _ _ _ body => body.goesOn true
  | _, .loop _ _ _ body => body.goesOn true
  | _, .repeatWhile _ body => body.goesOn true
  | inLoop, .leave => inLoop
  | inLoop, .skip => inLoop
  | _, .giveBack _ => false
  | inLoop, .within _ _ body => stmtsGoOn inLoop body
  | _, .empty => true
  | _, .expr _ => true
  | _, .declare _ _ => true
  | _, .raise _ => true

/-- `Stmt.goesOn` along a list. -/
def stmtsGoOn : Bool → List Stmt → Bool
  | _, [] => true
  | inLoop, s :: ss => s.goesOn inLoop && stmtsGoOn inLoop ss

/-- `Stmt.goesOn` where there is a statement. -/
def optionGoesOn : Bool → Option Stmt → Bool
  | _, none => true
  | inLoop, some s => s.goesOn inLoop

end

theorem stmtsGoOn_iff {inLoop : Bool} {ss : List Stmt} :
    stmtsGoOn inLoop ss = true ↔ ∀ s ∈ ss, s.goesOn inLoop = true := by
  induction ss with
  | nil => simp [stmtsGoOn]
  | cons s ss ih => simp [stmtsGoOn, ih]

/-! ### Numbered statements -/

theorem numberedStmts_append (ss ts : List Stmt) (n : Nat) :
    (numberedStmts (ss ++ ts) n).1
      = (numberedStmts ss n).1 ++ (numberedStmts ts (numberedStmts ss n).2).1 := by
  induction ss generalizing n with
  | nil => rfl
  | cons s ss ih => exact congrArg ((s.numbered n).1 :: ·) (ih _)

mutual

/-- Numbering changes nothing about it. -/
theorem Stmt.goesOn_numbered : (s : Stmt) → ∀ inLoop n,
    (s.numbered n).1.goesOn inLoop = s.goesOn inLoop
  | .empty, _, _ => rfl
  | .expr _, _, _ => rfl
  | .declare _ _, _, _ => rfl
  | .block stmts, inLoop, n => stmtsGoOn_numbered stmts inLoop n
  | .branch _ yes none, inLoop, _ =>
    congrArg₂ and (Stmt.goesOn_numbered yes inLoop _) rfl
  | .branch _ yes (some no), inLoop, _ =>
    congrArg₂ and (Stmt.goesOn_numbered yes inLoop _) (Stmt.goesOn_numbered no inLoop _)
  | .each _ _ _ _ body, _, _ => Stmt.goesOn_numbered body true _
  | .loop _ _ _ body, _, _ => by
    rw [Stmt.numbered_loop]
    exact Stmt.goesOn_numbered body true _
  | .repeatWhile _ body, _, _ => Stmt.goesOn_numbered body true _
  | .leave, _, _ => rfl
  | .skip, _, _ => rfl
  | .giveBack none, _, _ => rfl
  | .giveBack (some _), _, _ => rfl
  | .raise _, _, _ => rfl
  | .within _ _ body, inLoop, _ => stmtsGoOn_numbered body inLoop _

theorem stmtsGoOn_numbered : (ss : List Stmt) → ∀ inLoop n,
    stmtsGoOn inLoop (numberedStmts ss n).1 = stmtsGoOn inLoop ss
  | [], _, _ => rfl
  | s :: ss, inLoop, n =>
    congrArg₂ and (Stmt.goesOn_numbered s inLoop n) (stmtsGoOn_numbered ss inLoop _)

end

/-! ### What steps come to -/

/-- If the steps come to something, it has the property. -/
def ComesTo {α : Type} (P : α → Prop) (m : Run α) : Prop := ∀ s a t, m s = .ok a t → P a

namespace ComesTo

variable {α β : Type} {P : α → Prop} {Q : β → Prop} {m : Run α} {f : α → Run β}

theorem pure {a : α} (h : P a) : ComesTo P (Pure.pure a) := by
  intro s b t hb
  cases hb
  exact h

theorem bind (hm : ComesTo P m) (hf : ∀ a, P a → ComesTo Q (f a)) : ComesTo Q (m >>= f) := by
  intro s b t hb
  obtain ⟨a, u, ha, hb⟩ := exists_of_run_bind_ok hb
  exact hf a (hm s a u ha) u b t hb

/-- What the first steps come to does not matter. -/
theorem behind (hf : ∀ a, ComesTo Q (f a)) : ComesTo Q (m >>= f) :=
  bind (P := fun _ => True) (fun _ _ _ _ => trivial) fun a _ => hf a

theorem endless : ComesTo P (Run.endless : Run α) := nofun

theorem fail (e : Failure) : ComesTo P (Run.fail e : Run α) := nofun

end ComesTo

/-! ### Flows -/

/-- How a statement ends that may only end a loop around it. -/
def Flow.staysIn (inLoop : Bool) : Flow → Prop
  | .onward => True
  | .leave | .skip => inLoop = true
  | .giveBack _ => False

theorem Flow.eq_onward {flow : Flow} (h : flow.staysIn false) : flow = .onward := by
  cases flow with
  | onward => rfl
  | leave | skip => cases h
  | giveBack v => exact h.elim

/-- A round that only ends its loop lets the statement behind the loop follow. -/
theorem Flow.afterRound_of_staysIn {flow ending : Flow} (h : flow.staysIn true)
    (hending : flow.afterRound = some ending) : ending = .onward := by
  cases flow with
  | onward | skip => cases hending
  | leave =>
    cases hending
    rfl
  | giveBack v => exact h.elim

namespace ComesTo

variable {inLoop : Bool}

theorem inOrder {run : Stmt → Run Flow} {ss : List Stmt}
    (h : ∀ s ∈ ss, ComesTo (Flow.staysIn inLoop) (run s)) :
    ComesTo (Flow.staysIn inLoop) (inOrder run ss) := by
  induction ss with
  | nil => exact pure trivial
  | cons s ss ih =>
    obtain ⟨hs, hss⟩ := List.forall_mem_cons.mp h
    refine hs.bind fun flow hflow => ?_
    cases flow with
    | onward => exact ih hss
    | leave | skip | giveBack => exact pure hflow

theorem eachItem {round : Value → Run Flow}
    (h : ∀ v, ComesTo (Flow.staysIn true) (round v)) (vs : List Value) :
    ComesTo (Flow.staysIn inLoop) (eachItem round vs) := by
  induction vs with
  | nil => exact pure trivial
  | cons v vs ih =>
    refine (h v).bind fun flow hflow => ?_
    cases hending : flow.afterRound with
    | none => exact ih
    | some ending =>
      cases Flow.afterRound_of_staysIn hflow hending
      exact pure trivial

/-- A round of a loop ends it only so that the next statement follows. -/
def RoundEnds (ending : Option Flow) : Prop := ∀ flow, ending = some flow → flow = .onward

theorem roundEnds_some {flow : Flow} (h : flow = .onward) : RoundEnds (some flow) := by
  intro ending hending
  cases hending
  exact h

theorem repeatedly {round : Run (Option Flow)} (h : ComesTo RoundEnds round) (bound : Nat) :
    ComesTo (Flow.staysIn inLoop) (repeatedly round bound) := by
  induction bound with
  | zero => exact endless
  | succ bound ih =>
    refine h.bind fun ending hending => ?_
    cases ending with
    | none => exact ih
    | some flow =>
      cases hending flow rfl
      exact pure trivial

end ComesTo

open ComesTo in
/-- **Statements that go on end only the loops around them.** -/
theorem comesTo_exec (bound : Nat) (around : Surroundings) {inLoop : Bool} (scope : Scope)
    {s : Stmt} (hs : s.goesOn inLoop = true) :
    ComesTo (Flow.staysIn inLoop) (exec bound around scope s) := by
  induction bound generalizing inLoop scope s with
  | zero => exact endless
  | succ bound ih =>
    cases s with
    | empty => exact .pure trivial
    | expr | declare => exact .behind fun _ => .pure trivial
    | block stmts =>
      exact .behind fun inner => .inOrder fun s hmem => ih inner (stmtsGoOn_iff.mp hs s hmem)
    | branch test yes no =>
      obtain ⟨hyes, hno⟩ := Bool.and_eq_true_iff.mp hs
      refine .behind fun v => ?_
      split
      · exact ih scope hyes
      · cases no with
        | none => exact .pure trivial
        | some no => exact ih scope hno
    | each head kind name source body =>
      have hround (v : Value) : ComesTo (Flow.staysIn true)
          (eachRound kind name scope (fun inner => exec bound around inner body) v) := by
        refine .behind fun inner => ?_
        cases kind with
        | none => exact .behind fun _ => ih inner hs
        | some kind => exact .behind fun _ => ih inner hs
      refine .behind fun v => ?_
      cases head with
      | items => exact .behind fun vs => .eachItem hround vs
      | keys => exact .behind fun vs => .eachItem hround vs
    | loop init test update body =>
      have hbody (inner : Scope) :
          ComesTo (Flow.staysIn true) (exec bound around inner body) := ih inner hs
      have hround (inner : Scope) (goesOn : Bool) :
          ComesTo RoundEnds (countedRound (eval bound around inner) (exec bound around inner)
            update body goesOn) := by
        rw [countedRound]
        split
        · refine (hbody inner).bind fun flow hflow => ?_
          cases hending : flow.afterRound with
          | some ending => exact .pure (roundEnds_some (Flow.afterRound_of_staysIn hflow hending))
          | none =>
            cases update with
            | none => exact .pure (by rintro _ ⟨⟩)
            | some update => exact .behind fun _ => .pure (by rintro _ ⟨⟩)
        · exact .pure (roundEnds_some rfl)
      refine .behind fun inner => ?_
      cases init with
      | none =>
        cases test with
        | none => exact .repeatedly (hround inner true) bound
        | some test => exact .repeatedly (.behind fun v => hround inner (Value.truthy v)) bound
      | some init =>
        refine .behind fun _ => ?_
        cases test with
        | none => exact .repeatedly (hround inner true) bound
        | some test => exact .repeatedly (.behind fun v => hround inner (Value.truthy v)) bound
    | repeatWhile test body =>
      refine .repeatedly (.behind fun v => ?_) bound
      split
      · have hbody : ComesTo (Flow.staysIn true) (exec bound around scope body) := ih scope hs
        exact hbody.bind fun flow hflow =>
          .pure fun ending hending => Flow.afterRound_of_staysIn hflow hending
      · exact .pure (roundEnds_some rfl)
    | leave | skip => exact .pure hs
    | giveBack value => cases hs
    | raise e => exact .behind fun _ => .behind fun _ => .fail _
    | within object guarded body =>
      exact .behind fun _ => .behind fun inner =>
        .inOrder fun s hmem => ih inner (stmtsGoOn_iff.mp hs s hmem)

end Stencil.Routine
