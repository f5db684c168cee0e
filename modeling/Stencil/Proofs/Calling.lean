import Stencil.Proofs.Targets

/-!
# Calls through a selection

`r.key(…)` and `r[key](…)` do not read the item first and call it then: what is called is decided by
the receiver, after the arguments have been evaluated.

* `Selects` — the receiver and the key that a selection comes to;
* `receiver_of_function` — only objects and arrays have functions to select;
* `eval_call_selection` — the arguments come before the method;
* `ofName?_of_placeOf?` — the key of an item is the name of no method of arrays;
* `call_selected` — a function that is selected and then called: from an object it is called as if
  it had been read first, unless the arguments replace it, and from an array it is not called;
* `render_calledItem` — a function in an array;
* `call_missing` — optional calls where there is nothing to call: the arguments are left alone when a
  variable holds nothing, but not when a member does;
* `render_optionalCall` — a member that is missing.
-/

namespace Stencil.Routine

variable {around : Surroundings} {scope : Scope} {bound : Nat}

/-! ### Selections -/

/-- The selection comes to a receiver and the key that is selected from it. -/
inductive Selects (bound : Nat) (around : Surroundings) (scope : Scope) (s₀ : Store) :
    Expr → Value → String → Store → Prop where
  | member {object : Expr} {r : Value} {s : Store} (property : String) (optional : Bool)
    (hobject : eval bound around scope object s₀ = .ok r s) :
    Selects bound around scope s₀ (.member object property optional) r property s
  | index {object item : Expr} {r k : Value} {key : String} {s₁ s : Store} (optional : Bool)
    (hobject : eval bound around scope object s₀ = .ok r s₁)
    (hitem : eval bound around scope item s₁ = .ok k s) (hkey : s.heap.display k = some key) :
    Selects bound around scope s₀ (.index object item optional) r key s

theorem textOf_shown {v : Value} {text : String} {s : Store} (h : s.heap.display v = some text) :
    Run.textOf v s = .ok text s := by
  refine (run_bind_ok rfl).trans ?_
  rw [h]
  rfl

/-- Only objects and arrays have functions to select. -/
theorem receiver_of_function {h : Heap} {r f : Value} {key : String}
    (hf : h.property? r key = some f) (hfun : f.isFunction = true) :
    (∃ place, r = .object place) ∨ ∃ place, r = .array place := by
  cases r with
  | object place => exact .inl ⟨place, rfl⟩
  | array place => exact .inr ⟨place, rfl⟩
  | undefined | null => cases hf
  | bool | number | native | closure =>
    cases hf
    cases hfun
  | text s =>
    simp only [Heap.property?] at hf
    split at hf
    · cases hf
      cases hfun
    · cases hf
      cases hplace : placeOf? key with
      | none =>
        rw [hplace] at hfun
        cases hfun
      | some i =>
        rw [hplace, Option.bind_some] at hfun
        cases hitem : s.toList[i]? <;> rw [hitem] at hfun <;> cases hfun

variable {s₀ s t : Store} {callee : Expr} {r f : Value} {key : String}

/-- Reading a selection gives what the receiver has under the key. -/
theorem eval_selection (h : Selects bound around scope s₀ callee r key s)
    (hr : r.isNullish = false) (hf : s.heap.property? r key = some f) :
    eval (bound + 1) around scope callee s₀ = .ok f s := by
  cases h with
  | member property optional hobject =>
    refine (run_bind_ok hobject).trans ?_
    rw [hr, Bool.and_false]
    exact getProperty_found hf
  | index optional hobject hitem hkey =>
    refine (run_bind_ok hobject).trans ?_
    rw [hr, Bool.and_false]
    refine (run_bind_ok hitem).trans ((run_bind_ok (textOf_shown hkey)).trans ?_)
    exact getProperty_found hf

/-- Calling through a selection evaluates the arguments before it asks the receiver. -/
theorem eval_call_selection (h : Selects bound around scope s₀ callee r key s)
    (hr : r.isNullish = false) (args : List Expr) (optional : Bool) :
    eval (bound + 1) around scope (.call callee args optional) s₀
      = (do
        let vs ← args.mapM (eval bound around scope)
        callMethod (callValue bound around) r key vs) s := by
  cases h with
  | member property _ hobject =>
    refine (run_bind_ok hobject).trans ?_
    rw [hr, Bool.and_false]
    rfl
  | index _ hobject hitem hkey =>
    refine (run_bind_ok hobject).trans ?_
    rw [hr, Bool.and_false]
    exact (run_bind_ok hitem).trans (run_bind_ok (textOf_shown hkey))

/-- The expression selects something from a value. -/
def Expr.isSelection : Expr → Bool
  | .member _ _ _ => true
  | .index _ _ _ => true
  | _ => false

/-- A call that does not go through a selection evaluates what it calls first. -/
theorem eval_call_value (hcallee : callee.isSelection = false) (args : List Expr)
    (optional : Bool) (hf : eval bound around scope callee s = .ok f t) :
    eval (bound + 1) around scope (.call callee args optional) s
      = (if optional && f.isNullish then return Value.undefined
        else do
          let vs ← args.mapM (eval bound around scope)
          callValue bound around f vs) t := by
  cases callee with
  | member | index => cases hcallee
  | _ => exact run_bind_ok hf

/-! ### Receivers -/

/-- An object calls the function that it has under the key at that time. -/
theorem callMember_function (call : Caller) {place : Nat} (vs : List Value)
    (hf : s.heap.property? (.object place) key = some f) (hfun : f.isFunction = true) :
    callMember call place key vs s = call f vs s := by
  have hget : (s.heap.members place).get? key = some f := by
    cases hget : (s.heap.members place).get? key with
    | some g =>
      rw [Heap.property?, hget] at hf
      exact hf
    | none =>
      rw [Heap.property?, hget] at hf
      cases hf
      cases hfun
  refine (run_bind_ok rfl).trans ?_
  rw [hget]
  dsimp only
  rw [hfun]
  rfl

/-- An object that has no function under the key calls nothing. -/
theorem callMember_missing (call : Caller) {place : Nat} (vs : List Value)
    (hf : s.heap.property? (.object place) key = some f) (hfun : f.isFunction = false) :
    callMember call place key vs s = .error (.failed (.notCallable key)) s := by
  refine (run_bind_ok rfl).trans ?_
  cases hget : (s.heap.members place).get? key with
  | none => rfl
  | some g =>
    have hg : g.isFunction = false := by
      rw [Heap.property?, hget] at hf
      cases hf
      exact hfun
    dsimp only
    rw [hg]
    rfl

/-- The key of an item is the name of no method. -/
theorem ofName?_of_placeOf? {place : Nat} (h : placeOf? key = some place) :
    ArrayMethod.ofName? key = none := by
  cases hname : ArrayMethod.ofName? key with
  | none => rfl
  | some m =>
    have hnone : placeOf? key = none := by
      unfold ArrayMethod.ofName? at hname
      split at hname <;> first | decide | cases hname
    rw [hnone] at h
    cases h

/-- A function in an array has the key of an item. -/
theorem exists_placeOf?_of_isFunction {h : Heap} {array : Nat}
    (hf : h.property? (.array array) key = some f) (hfun : f.isFunction = true) :
    ∃ place, placeOf? key = some place := by
  simp only [Heap.property?] at hf
  split at hf
  · cases hf
    cases hfun
  · cases hplace : placeOf? key with
    | some place => exact ⟨place, rfl⟩
    | none =>
      rw [hplace] at hf
      cases hf
      cases hfun

/-- **A function that is selected and then called.**  It belongs to an object or to an array, and
reading the selection gives it.  Called through an object it is called with the arguments, as if it
had been read first, as long as evaluating them leaves it where it is.  Called through an array it
is not: once the arguments are evaluated, the array has no method of that name. -/
theorem call_selected (h : Selects bound around scope s₀ callee r key s)
    (hf : s.heap.property? r key = some f) (hfun : f.isFunction = true) (args : List Expr)
    (optional : Bool) :
    ((∃ place, r = .object place) ∨ ∃ place, r = .array place) ∧
    eval (bound + 1) around scope callee s₀ = .ok f s ∧
    (∀ place, r = .object place →
      (∀ vs t, args.mapM (eval bound around scope) s = .ok vs t →
        t.heap.property? r key = some f) →
      eval (bound + 1) around scope (.call callee args optional) s₀
        = (do
          let vs ← args.mapM (eval bound around scope)
          callValue bound around f vs) s) ∧
    (∀ place, r = .array place →
      eval (bound + 1) around scope (.call callee args optional) s₀
        = (do
          let _ ← args.mapM (eval bound around scope)
          Run.fail (.notCallable ("array." ++ key))) s) := by
  have hreceiver := receiver_of_function hf hfun
  have hr : r.isNullish = false := by
    rcases hreceiver with ⟨place, rfl⟩ | ⟨place, rfl⟩ <;> rfl
  refine ⟨hreceiver, eval_selection h hr hf, ?_, ?_⟩
  · rintro place rfl hkept
    rw [eval_call_selection h hr]
    exact run_bind_congr_ok fun vs t hvs => callMember_function _ vs (hkept vs t hvs) hfun
  · rintro place rfl
    obtain ⟨i, hplace⟩ := exists_placeOf?_of_isFunction hf hfun
    rw [eval_call_selection h hr]
    refine run_bind_congr_ok fun vs t _ => ?_
    rw [callMethod, ofName?_of_placeOf? hplace]

/-! ### A function in an object and in an array -/

/-- The variables `o`, an object, and `a`, an array, that hold the same function, and `i`. -/
def holdingFunction (i : Value) : Store where
  heap := {
    arrays := #[#[.closure 0 0 ["x"] (.expr (.name "x")) []]]
    objects := #[⟨[("f", .closure 0 0 ["x"] (.expr (.name "x")) [])], by decide⟩]
    frames := #[⟨[("o", ⟨.object 0, true⟩), ("a", ⟨.array 0, true⟩), ("i", ⟨i, true⟩)],
      (by decide : ["o", "a", "i"].Nodup)⟩] }

/-- `o.f(i++)` calls the function with what the argument was, and `a[0](i++)` counts and fails. -/
theorem call_selected_counting :
    eval 5 unattended [.locals 0]
        (.call (.member (.name "o") "f" false) [.update true false (.name "i")] false)
        (holdingFunction (.number 3))
      = callValue 4 unattended (.closure 0 0 ["x"] (.expr (.name "x")) []) [.number 3]
        (holdingFunction (.number (counted true 3)))
    ∧ eval 5 unattended [.locals 0]
        (.call (.index (.name "a") (.text "0") false) [.update true false (.name "i")] false)
        (holdingFunction (.number 3))
      = .error (.failed (.notCallable "array.0")) (holdingFunction (.number (counted true 3))) := by
  have hargs : [Expr.update true false (.name "i")].mapM (eval 4 unattended [.locals 0])
      (holdingFunction (.number 3))
        = .ok [.number 3] (holdingFunction (.number (counted true 3))) := rfl
  have hmember : Selects 4 unattended [.locals 0] (holdingFunction (.number 3))
      (.member (.name "o") "f" false) (.object 0) "f" (holdingFunction (.number 3)) :=
    .member "f" false (valueOf_found rfl)
  have hindex : Selects 4 unattended [.locals 0] (holdingFunction (.number 3))
      (.index (.name "a") (.text "0") false) (.array 0) "0" (holdingFunction (.number 3)) :=
    .index false (valueOf_found rfl) rfl rfl
  have hitem : (holdingFunction (.number 3)).heap.property? (.array 0) "0"
      = some (.closure 0 0 ["x"] (.expr (.name "x")) []) := by
    have hplace : placeOf? "0" = some 0 := by decide +kernel
    rw [Heap.property?, if_neg (by decide), hplace]
    rfl
  obtain ⟨-, -, hobject, -⟩ :=
    call_selected hmember (f := .closure 0 0 ["x"] (.expr (.name "x")) []) rfl rfl
      [.update true false (.name "i")] false
  obtain ⟨-, -, -, harray⟩ :=
    call_selected hindex hitem rfl [.update true false (.name "i")] false
  rw [show "array." ++ "0" = "array.0" by decide] at harray
  have hkept (vs : List Value) (t : Store)
      (ht : [Expr.update true false (.name "i")].mapM (eval 4 unattended [.locals 0])
        (holdingFunction (.number 3)) = .ok vs t) :
      t.heap.property? (.object 0) "f" = some (.closure 0 0 ["x"] (.expr (.name "x")) []) := by
    cases hargs.symm.trans ht
    rfl
  constructor
  · rw [hobject 0 rfl hkept, run_bind_ok hargs]
  · rw [harray 0 rfl, run_bind_ok hargs]
    rfl

end Stencil.Routine

namespace Stencil

/-- A function in an array is called after it was read, but not through the array. -/
theorem render_calledItem :
    let rendered (template : String) :=
      ((Engine.create 1).render 1000 (some template) (.object [])).1
    rendered "[[ const a = [() => 1]; const f = a[0] ]][[= f() ]]" = .ok "1" ∧
    rendered "[[ const a = [() => 1] ]][[= a[0]() ]]"
      = .error (.render (.notCallable "array.0")) := by
  refine ⟨?_, ?_⟩ <;> decide +kernel

end Stencil

namespace Stencil.Routine

variable {around : Surroundings} {scope : Scope} {bound : Nat} {f : Value}

/-! ### Functions that are missing -/

/-- **Optional calls where there is nothing to call.**  A callee that selects nothing is evaluated
first, and then the call is `undefined` and its arguments are left alone.  A callee that selects
from an object is `undefined` or `null` too when it is read; but the call evaluates the arguments,
optional or not, and then calls the function that the object has by then, or fails. -/
theorem call_missing (hf : f.isNullish = true) (args : List Expr) :
    (∀ callee s t, callee.isSelection = false → eval bound around scope callee s = .ok f t →
      eval (bound + 1) around scope (.call callee args true) s = .ok .undefined t) ∧
    (∀ callee place key s₀ s, Selects bound around scope s₀ callee (.object place) key s →
      s.heap.property? (.object place) key = some f →
      eval (bound + 1) around scope callee s₀ = .ok f s ∧
      ∀ optional,
        (∀ halt t, args.mapM (eval bound around scope) s = .error halt t →
          eval (bound + 1) around scope (.call callee args optional) s₀ = .error halt t) ∧
        (∀ vs t g, args.mapM (eval bound around scope) s = .ok vs t →
          t.heap.property? (.object place) key = some g →
          eval (bound + 1) around scope (.call callee args optional) s₀
            = if g.isFunction then callValue bound around g vs t
              else .error (.failed (.notCallable key)) t)) := by
  refine ⟨fun callee s t hcallee hvalue => ?_, fun callee place key s₀ s hselects hmember =>
    ⟨eval_selection hselects rfl hmember, fun optional => ⟨fun halt t hargs => ?_,
      fun vs t g hargs hg => ?_⟩⟩⟩
  · rw [eval_call_value hcallee args true hvalue, hf]
    rfl
  · rw [eval_call_selection hselects rfl]
    exact run_bind_error hargs
  · rw [eval_call_selection hselects rfl, run_bind_ok hargs]
    cases hfun : g.isFunction with
    | true => exact callMember_function _ vs hg hfun
    | false => exact callMember_missing _ vs hg hfun

/-- `i?.(i = 1)` leaves `i` alone, and `o.g?.(i = 1)` sets it and fails. -/
theorem call_missing_setting :
    eval 5 unattended [.locals 0]
        (.call (.name "i") [.assign none (.name "i") (.number 1)] true) (holdingFunction .null)
      = .ok .undefined (holdingFunction .null)
    ∧ eval 5 unattended [.locals 0]
        (.call (.member (.name "o") "g" false) [.assign none (.name "i") (.number 1)] true)
        (holdingFunction .null)
      = .error (.failed (.notCallable "g")) (holdingFunction (.number 1)) := by
  have hargs : [Expr.assign none (.name "i") (.number 1)].mapM (eval 4 unattended [.locals 0])
      (holdingFunction .null) = .ok [.number 1] (holdingFunction (.number 1)) := rfl
  have hmember : Selects 4 unattended [.locals 0] (holdingFunction .null)
      (.member (.name "o") "g" false) (.object 0) "g" (holdingFunction .null) :=
    .member "g" false (valueOf_found rfl)
  constructor
  · exact (call_missing (f := .null) rfl _).1 (.name "i") _ _ rfl (valueOf_found rfl)
  · exact ((call_missing (f := .undefined) rfl _).2 _ _ _ _ _ hmember rfl).2 true
      |>.2 _ _ _ hargs rfl

end Stencil.Routine

namespace Stencil

/-- A missing function is left uncalled when a variable holds nothing, but not when a member does. -/
theorem render_optionalCall :
    let rendered (template : String) :=
      ((Engine.create 1).render 1000 (some template) (.object [])).1
    rendered "[[ const f = null ]][[= f?.(1) === undefined ]]" = .ok "true" ∧
    rendered "[[ const o = {f: null} ]][[= o.f === null ]]" = .ok "true" ∧
    rendered "[[ const o = {f: null} ]][[= o.f?.(1) === undefined ]]"
      = .error (.render (.notCallable "f")) := by
  refine ⟨?_, ?_, ?_⟩ <;> decide +kernel

end Stencil
