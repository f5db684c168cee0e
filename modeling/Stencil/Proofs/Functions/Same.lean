import Stencil.Proofs.Functions.Reached

/-!
# Functions that are the same

Two native functions are the same if they were made in one act, and two functions of a routine if
they were written at one place.  Whatever an engine was used for, and in the middle of any of its
runs, functions that are the same differ in nothing but the scope that they see, and functions that
differ in nothing else are the same.

* `Value.unscoped` — a function without the scope that it sees;
* `Origins.same_iff` — which functions are the same, by an account of what was made;
* `Reached.same_iff_unscoped` — the same for every engine in use, and which functions an array has;
* `render_sameFunctions` — two of them that give back different values.
-/

namespace Stencil

open Routine

namespace Routine

/-- The scope that a function of a routine sees. -/
def Value.scope : Value → Scope
  | .closure _ _ _ _ scope => scope
  | _ => []

/-- The value without the scope that it sees, if it is a function of a routine. -/
def Value.unscoped : Value → Value
  | .closure r site params body _ => .closure r site params body []
  | v => v

theorem Value.eq_of_unscoped_eq {f g : Value} (h : f.unscoped = g.unscoped)
    (hscope : f.scope = g.scope) : f = g := by
  cases f <;> cases g <;> simp_all [Value.unscoped, Value.scope]

theorem Value.same_comm_of_isFunction {f : Value} (h : f.isFunction = true) (v : Value) :
    v.same f = f.same v := by
  cases f with
  | native name code identity =>
    cases v with
    | native name' code' identity' => exact Bool.beq_comm
    | undefined | null | bool | number | text | array | object | closure => rfl
  | closure r site params body scope =>
    cases v with
    | closure r' site' params' body' scope' => exact congrArg₂ and Bool.beq_comm Bool.beq_comm
    | undefined | null | bool | number | text | array | object | native => rfl
  | undefined | null | bool | number | text | array | object => cases h

/-- **Functions of one account are the same if they differ at most in what they see.** -/
theorem Origins.same_iff {w : Origins} {f g : Value} (hf : w.Has f) (hg : w.Has g)
    (hfunction : f.isFunction = true) : f.same g = true ↔ f.unscoped = g.unscoped := by
  constructor
  · intro hsame
    cases f with
    | native name code identity =>
      cases g with
      | native name' code' identity' =>
        obtain rfl : identity = identity' := beq_iff_eq.mp hsame
        have hf : w.natives[identity]? = some (name, code) := hf
        have hg : w.natives[identity]? = some (name', code') := hg
        cases hf.symm.trans hg
        rfl
      | undefined | null | bool | number | text | array | object | closure => cases hsame
    | closure r site params body scope =>
      cases g with
      | closure r' site' params' body' scope' =>
        obtain ⟨hr, hsite⟩ := Bool.and_eq_true_iff.mp hsame
        obtain rfl : r = r' := beq_iff_eq.mp hr
        obtain rfl : site = site' := beq_iff_eq.mp hsite
        have written {params : List String} {body : Body} {scope : Scope}
            (h : w.Has (.closure r site params body scope)) : w.Writes r ⟨site, params, body⟩ :=
          admits_iff.mp (has_closure_iff.mp h) _ List.mem_cons_self
        cases (written hf).eq (written hg) rfl
        rfl
      | undefined | null | bool | number | text | array | object | native => cases hsame
    | undefined | null | bool | number | text | array | object => cases hfunction
  · intro heq
    cases f with
    | native name code identity =>
      cases g <;> cases heq
      exact beq_self_eq_true identity
    | closure r site params body scope =>
      cases g <;> cases heq
      exact Bool.and_eq_true_iff.mpr ⟨beq_self_eq_true r, beq_self_eq_true site⟩
    | undefined | null | bool | number | text | array | object => cases hfunction

/-! ### Functions in arrays -/

theorem apply_includes (call : Caller) (place : Nat) (v : Value) (s : Store) :
    ArrayMethod.includes.apply call place [v] s
      = .ok (.bool ((s.heap.items place).toList.any (·.same v))) s :=
  rfl

theorem apply_indexOf (call : Caller) (place : Nat) (v : Value) (s : Store) :
    ArrayMethod.indexOf.apply call place [v] s
      = .ok (((s.heap.items place).toList.findIdx? (·.same v)).elim (.number (-1.0)) countValue)
        s := by
  have hitems : itemsAt place s = .ok (s.heap.items place).toList s := rfl
  rw [ArrayMethod.apply]
  refine (run_bind_ok hitems).trans ?_
  have hsought : argument [v] 0 = v := rfl
  rw [hsought]
  cases (s.heap.items place).toList.findIdx? (·.same v) <;> rfl

end Routine

namespace Reached

variable {e : Engine} {vs : List Value} {cs : List Compiled}

/-- **Functions are the same if they differ at most in the scope that they see**, on every engine in
use.  So an array has a function as soon as it has one that differs from it in nothing else, and the
first of these is where it is found.  Functions that are the same do the same when they are called,
if they see one scope. -/
theorem same_iff_unscoped (h : Reached e vs cs) {f : Value} (hf : f ∈ vs)
    (hfunction : f.isFunction = true) :
    (∀ g ∈ vs, e.store.heap.binary .strictEqual f g = some (.bool true) ↔ f.unscoped = g.unscoped)
      ∧ (∀ (call : Caller) (place : Nat) (items : List Value),
        (e.store.heap.items place).toList = items → ∃ found : Option Nat,
          (∀ i, found = some i ↔ ∃ hi : i < items.length,
            items[i].unscoped = f.unscoped ∧ ∀ j (hj : j < i), items[j].unscoped ≠ f.unscoped)
          ∧ ArrayMethod.includes.apply call place [f] e.store = .ok (.bool found.isSome) e.store
          ∧ ArrayMethod.indexOf.apply call place [f] e.store
            = .ok (found.elim (.number (-1.0)) countValue) e.store)
      ∧ ∀ g ∈ vs, e.store.heap.binary .strictEqual f g = some (.bool true) → f.scope = g.scope →
        ∀ bound around args, callValue bound around f args = callValue bound around g args := by
  obtain ⟨w, h⟩ := h.explained
  have hsame {g : Value} (hg : w.Has g) : f.same g = true ↔ f.unscoped = g.unscoped :=
    Origins.same_iff (h.values f hf) hg hfunction
  have hequal {g : Value} : e.store.heap.binary .strictEqual f g = some (.bool true)
      ↔ f.same g = true := by simp [Heap.binary]
  refine ⟨fun g hg => hequal.trans (hsame (h.values g hg)), ?_, ?_⟩
  · rintro call place items rfl
    have hitem {v : Value} (hv : v ∈ (e.store.heap.items place).toList) :
        v.same f = true ↔ v.unscoped = f.unscoped := by
      rw [Value.same_comm_of_isFunction hfunction v]
      exact (hsame (h.store.heap.has_of_stores (.item hv))).trans eq_comm
    refine ⟨(e.store.heap.items place).toList.findIdx? (·.same f), fun i => ?_, ?_, ?_⟩
    · rw [List.findIdx?_eq_some_iff_getElem]
      refine exists_congr fun hi => and_congr (hitem (List.getElem_mem hi)) ?_
      refine forall_congr' fun j => forall_congr' fun hj => not_congr ?_
      exact hitem (List.getElem_mem _)
    · rw [List.findIdx?_isSome]
      exact apply_includes call place f e.store
    · exact apply_indexOf call place f e.store
  · intro g hg hfg hscope bound around args
    have heq := Value.eq_of_unscoped_eq ((hsame (h.values g hg)).mp (hequal.mp hfg)) hscope
    rw [heq]

/-- An array of functions that are written at one place, each made in a call of its own. -/
def twins (outer inner : Nat) : Expr :=
  .call (.member (.array [.number 1.0, .number 2.0]) "map" false)
    [.arrow outer ["x"] (.expr (.arrow inner [] (.expr (.name "x"))))] false

/-- One of these functions. -/
def twin (place : Nat) : Value := .closure 0 1 [] (.expr (.name "x")) [.locals place]

/-- The two functions of such an array are the same, and give back different values. -/
theorem same_iff_unscoped_twins : ∃ e vs cs, Reached e vs cs
    ∧ twin 1 ∈ vs ∧ (twin 1).isFunction = true
    ∧ (∀ g ∈ vs, e.store.heap.binary .strictEqual (twin 1) g = some (.bool true)
      ↔ (twin 1).unscoped = g.unscoped)
    ∧ twin 0 ∈ vs ∧ (twin 1).unscoped = (twin 0).unscoped
    ∧ ∀ ask r, (∃ t, callValue 2 ⟨ask, r, 1⟩ (twin 0) [] e.store = .ok (.number 1.0) t)
      ∧ ∃ t, callValue 2 ⟨ask, r, 1⟩ (twin 1) [] e.store = .ok (.number 2.0) t := by
  let p : Program := ⟨[], [.expr (twins 0 0)]⟩
  have hstart : Reached _ [] [⟨0, p.numbered⟩] := .number p (.create 1)
  have hmade := hstart.run (.eval 10 64 [] (x := twins 0 1) List.mem_cons_self
    (fun a ha => List.mem_append_left _ ha) .alone)
  have hfirst := hmade.stored (v := twin 0) (@Heap.Stores.item _ 1 _ List.mem_cons_self)
  have hboth := hfirst.stored (v := twin 1)
    (@Heap.Stores.item _ 1 _ (List.mem_cons_of_mem _ List.mem_cons_self))
  have hsame := hboth.same_iff_unscoped List.mem_cons_self rfl
  refine ⟨_, _, _, hboth, List.mem_cons_self, rfl, hsame.1,
    List.mem_cons_of_mem _ List.mem_cons_self, rfl, fun ask r => ?_⟩
  exact ⟨⟨_, rfl⟩, ⟨_, rfl⟩⟩

end Reached

/-- Two functions of one place in a routine count as the same, though they see different variables
and give back different values. -/
theorem render_sameFunctions :
    ((Engine.create 1).render 1000
      (some ("[[ const fs = [1, 2].map(x => () => x), f = fs[0], g = fs[1] ]]"
        ++ "[[= f === g ]] [[= f() ]] [[= g() ]] [[= fs.indexOf(g) ]]")) (.object [])).1
      = .ok "true 1 2 0" := by
  decide +kernel

end Stencil
