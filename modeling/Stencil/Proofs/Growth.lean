import Stencil.Engine.Hooks

/-!
# How hooks grow

Whatever plugins do, hooks only grow: preprocessors and wrappers at either end, parameters and their
values at the end.  A `Growth` says by how much, so an act is a growth, acts in a row are growths
added up, and what `absorb` does becomes a law about growths.

* `applyAll_eq_grow` — acts in a row are one growth;
* `absorb_grow` — hooks that were collected apart come in as if they had been added first;
* `absorb?_grow` — no subtraction on the way falls below zero, and no place lies outside its list.
-/

namespace Stencil

/-! ### Lists of hooks -/

namespace HookList

variable {α : Type}

/-- The list with hooks added at the front, which count as put there, and at the back. -/
def grow (l : HookList α) (front back : List α) : HookList α :=
  ⟨front ++ l.hooks ++ back, l.leading + front.length⟩

theorem grow_nil (l : HookList α) : l.grow [] [] = l := by
  cases l
  simp [grow]

theorem grow_grow (l : HookList α) (front back front' back' : List α) :
    (l.grow front back).grow front' back' = l.grow (front' ++ front) (back ++ back') := by
  simp only [grow, List.append_assoc, List.length_append, HookList.mk.injEq, true_and]
  omega

theorem add_eq_grow (l : HookList α) (a : α) : l.add a = l.grow [] [a] := by
  simp [add, grow]

theorem addFirst_eq_grow (l : HookList α) (a : α) : l.addFirst a = l.grow [a] [] := by
  simp [addFirst, grow]

/-- What was put in front since the mark stands up to the front place. -/
theorem frontPlace_grow (l : HookList α) (front back : List α) :
    (l.grow front back).frontPlace l.mark = front.length := by
  show l.leading + front.length - l.leading = front.length
  omega

/-- What was there at the mark ends at the back place. -/
theorem backPlace_grow (l : HookList α) (front back : List α) :
    (l.grow front back).backPlace l.mark = (front ++ l.hooks).length := by
  show l.leading + front.length + l.hooks.length - l.leading = _
  rw [List.length_append]
  omega

end HookList

theorem insertAt_append {α : Type} (more xs ys : List α) :
    insertAt xs.length more (xs ++ ys) = xs ++ more ++ ys := by
  rw [insertAt, List.take_left, List.drop_left]

namespace HookList

variable {α : Type}

/-- What grew apart comes in at the mark, inside of everything that grew since. -/
theorem absorb_grow (l : HookList α) (front back front' back' : List α) :
    (l.grow front back).absorb (({} : HookList α).grow front' back') l.mark
      = (l.grow front' back').grow front back := by
  have htake : (({} : HookList α).grow front' back').hooks.take
      (({} : HookList α).grow front' back').leading = front' := by
    simp [grow]
  have hdrop : (({} : HookList α).grow front' back').hooks.drop
      (({} : HookList α).grow front' back').leading = back' := by
    simp [grow]
  have hback : insertAt (front ++ l.hooks).length back' (l.grow front back).hooks
      = front ++ (l.hooks ++ back' ++ back) := by
    rw [show (l.grow front back).hooks = (front ++ l.hooks) ++ back from rfl, insertAt_append]
    simp only [List.append_assoc]
  rw [absorb, htake, hdrop, frontPlace_grow, backPlace_grow, hback, insertAt_append]
  simp only [grow, List.append_assoc, HookList.mk.injEq, true_and, Nat.zero_add]
  omega

end HookList

/-! ### Checked arithmetic -/

/-- The difference of two numbers, if there is one. -/
def minus? (a b : Nat) : Option Nat := if b ≤ a then some (a - b) else none

/-- A list with another one inserted at a place, if the list has the place. -/
def insertAt? {α : Type} (place : Nat) (more xs : List α) : Option (List α) :=
  if place ≤ xs.length then some (insertAt place more xs) else none

/-- A list cut in two at a place, if the list has the place. -/
def cutAt? {α : Type} (place : Nat) (xs : List α) : Option (List α × List α) :=
  if place ≤ xs.length then some (xs.take place, xs.drop place) else none

theorem minus?_add (a b : Nat) : minus? (a + b) a = some b := by
  rw [minus?, if_pos (Nat.le_add_right a b), Nat.add_sub_cancel_left]

theorem insertAt?_append {α : Type} (more xs ys : List α) :
    insertAt? xs.length more (xs ++ ys) = some (insertAt xs.length more (xs ++ ys)) := by
  rw [insertAt?, if_pos (by rw [List.length_append]; omega)]

namespace HookList

variable {α : Type}

/-- `absorb` with every subtraction and every place checked. -/
def absorb? (l nested : HookList α) (m : HookMark) : Option (HookList α) := do
  let frontPlace ← minus? l.leading m.leading
  let backPlace ← minus? (l.leading + m.size) m.leading
  let (front, back) ← cutAt? nested.leading nested.hooks
  let hooks ← insertAt? backPlace back l.hooks
  let hooks ← insertAt? frontPlace front hooks
  return ⟨hooks, l.leading + nested.leading⟩

/-- Nothing fails the checks when a list that grew absorbs one that grew from nothing. -/
theorem absorb?_grow (l : HookList α) (front back front' back' : List α) :
    (l.grow front back).absorb? (({} : HookList α).grow front' back') l.mark
      = some ((l.grow front' back').grow front back) := by
  have hfront : minus? (l.grow front back).leading l.mark.leading = some front.length :=
    minus?_add l.leading front.length
  have hback : minus? ((l.grow front back).leading + l.mark.size) l.mark.leading
      = some (front ++ l.hooks).length := by
    rw [show (l.grow front back).leading + l.mark.size
        = l.mark.leading + (front ++ l.hooks).length from by
      rw [List.length_append]
      show l.leading + front.length + l.hooks.length = l.leading + _
      omega]
    exact minus?_add _ _
  have hcut : cutAt? (({} : HookList α).grow front' back').leading
      (({} : HookList α).grow front' back').hooks = some (front', back') := by
    simp [cutAt?, grow]
  have hhooks : insertAt? (front ++ l.hooks).length back' (l.grow front back).hooks
      = some (front ++ (l.hooks ++ back' ++ back)) := by
    rw [show (l.grow front back).hooks = (front ++ l.hooks) ++ back from rfl, insertAt?_append,
      insertAt_append]
    simp only [List.append_assoc]
  simp only [absorb?, hfront, hback, hcut, hhooks, insertAt?_append, insertAt_append,
    Option.bind_eq_bind, Option.bind_some, Option.pure_def, Option.some.injEq]
  simp only [grow, List.append_assoc, HookList.mk.injEq, true_and, Nat.zero_add]
  omega

end HookList

/-! ### All hooks -/

/-- By how much hooks grow. -/
structure Growth where
  /-- Preprocessors in front. -/
  preFront : List Preprocessor := []
  /-- Preprocessors at the back. -/
  preBack : List Preprocessor := []
  /-- Wrappers in front. -/
  wrapFront : List Wrapper := []
  /-- Wrappers at the back. -/
  wrapBack : List Wrapper := []
  /-- Names of parameters. -/
  params : List String := []
  /-- Sources of their values. -/
  providers : List Provider := []

namespace Growth

/-- One growth and then another. -/
def andThen (g g' : Growth) : Growth where
  preFront := g'.preFront ++ g.preFront
  preBack := g.preBack ++ g'.preBack
  wrapFront := g'.wrapFront ++ g.wrapFront
  wrapBack := g.wrapBack ++ g'.wrapBack
  params := g.params ++ g'.params
  providers := g.providers ++ g'.providers

/-- The growth that an act is. -/
def ofHook : Hook → Growth
  | .addPreprocessor p => { preBack := [p] }
  | .addFirstPreprocessor p => { preFront := [p] }
  | .addWrapper w => { wrapBack := [w] }
  | .addFirstWrapper w => { wrapFront := [w] }
  | .parameter name => { params := [name] }
  | .value p => { providers := [p] }
  | .inject name p => { params := [name], providers := [p] }

/-- The growth that acts in a row are. -/
def ofHooks : List Hook → Growth
  | [] => {}
  | h :: hs => (ofHook h).andThen (ofHooks hs)

end Growth

namespace Hooks

/-- The hooks after a growth.  The version counts the parameters. -/
def grow (h : Hooks) (g : Growth) : Hooks where
  preprocessors := h.preprocessors.grow g.preFront g.preBack
  wrappers := h.wrappers.grow g.wrapFront g.wrapBack
  params := h.params ++ g.params
  providers := h.providers ++ g.providers
  version := h.version + g.params.length

/-- The hooks after acts in a row. -/
def applyAll (h : Hooks) (acts : List Hook) : Hooks := acts.foldl Hooks.apply h

theorem grow_empty (h : Hooks) : h.grow {} = h := by
  cases h
  simp [grow, HookList.grow_nil]

theorem grow_andThen (h : Hooks) (g g' : Growth) : h.grow (g.andThen g') = (h.grow g).grow g' := by
  simp only [grow, Growth.andThen, HookList.grow_grow, List.append_assoc, List.length_append,
    Nat.add_assoc]

theorem apply_eq_grow (h : Hooks) (act : Hook) : h.apply act = h.grow (.ofHook act) := by
  cases act <;>
    simp [apply, addParam, addProvider, grow, Growth.ofHook, HookList.grow_nil,
      HookList.add_eq_grow, HookList.addFirst_eq_grow]

@[simp] theorem applyAll_nil (h : Hooks) : h.applyAll [] = h := rfl

@[simp] theorem applyAll_cons (h : Hooks) (act : Hook) (acts : List Hook) :
    h.applyAll (act :: acts) = (h.apply act).applyAll acts := rfl

theorem applyAll_append (h : Hooks) (acts acts' : List Hook) :
    h.applyAll (acts ++ acts') = (h.applyAll acts).applyAll acts' :=
  List.foldl_append

/-- Acts in a row are one growth. -/
theorem applyAll_eq_grow (h : Hooks) (acts : List Hook) :
    h.applyAll acts = h.grow (.ofHooks acts) := by
  induction acts generalizing h with
  | nil => exact (grow_empty h).symm
  | cons act acts ih =>
    rw [applyAll_cons, ih, apply_eq_grow, ← grow_andThen]
    rfl

/-- What grew apart comes in at the mark, inside of everything that grew since. -/
theorem absorb_grow (h : Hooks) (own nested : Growth) :
    (h.grow own).absorb (({} : Hooks).grow nested) h.mark = (h.grow nested).grow own := by
  have hparams : insertAt h.params.length nested.params (h.params ++ own.params)
      = h.params ++ nested.params ++ own.params := insertAt_append _ _ _
  have hproviders : insertAt h.providers.length nested.providers (h.providers ++ own.providers)
      = h.providers ++ nested.providers ++ own.providers := insertAt_append _ _ _
  have hpre := h.preprocessors.absorb_grow own.preFront own.preBack nested.preFront nested.preBack
  have hwrap := h.wrappers.absorb_grow own.wrapFront own.wrapBack nested.wrapFront nested.wrapBack
  simp only [absorb, mark, grow, hpre, hwrap, List.nil_append, hparams, hproviders, Nat.zero_add,
    Hooks.mk.injEq, true_and]
  omega

/-- Collecting hooks apart and absorbing them is the same as having added them first. -/
theorem absorb_applyAll (h : Hooks) (own nested : List Hook) :
    (h.applyAll own).absorb (({} : Hooks).applyAll nested) h.mark
      = h.applyAll (nested ++ own) := by
  rw [applyAll_append, applyAll_eq_grow, applyAll_eq_grow, applyAll_eq_grow, applyAll_eq_grow,
    absorb_grow]

/-- `absorb` with every subtraction and every place checked. -/
def absorb? (h nested : Hooks) (m : HooksMark) : Option Hooks := do
  return {
    preprocessors := ← h.preprocessors.absorb? nested.preprocessors m.preprocessors
    wrappers := ← h.wrappers.absorb? nested.wrappers m.wrappers
    params := ← insertAt? m.params nested.params h.params
    providers := ← insertAt? m.providers nested.providers h.providers
    version := h.version + nested.version }

/-- Nothing fails the checks when hooks absorb what was collected apart meanwhile. -/
theorem absorb?_applyAll (h : Hooks) (own nested : List Hook) :
    (h.applyAll own).absorb? (({} : Hooks).applyAll nested) h.mark
      = some ((h.applyAll own).absorb (({} : Hooks).applyAll nested) h.mark) := by
  rw [applyAll_eq_grow, applyAll_eq_grow, absorb_grow]
  generalize Growth.ofHooks own = g
  generalize Growth.ofHooks nested = g'
  have hpre := h.preprocessors.absorb?_grow g.preFront g.preBack g'.preFront g'.preBack
  have hwrap := h.wrappers.absorb?_grow g.wrapFront g.wrapBack g'.wrapFront g'.wrapBack
  have hparams : insertAt? h.params.length g'.params (h.params ++ g.params)
      = some (h.params ++ g'.params ++ g.params) := by
    rw [insertAt?_append, insertAt_append]
  have hproviders : insertAt? h.providers.length g'.providers (h.providers ++ g.providers)
      = some (h.providers ++ g'.providers ++ g.providers) := by
    rw [insertAt?_append, insertAt_append]
  simp only [absorb?, mark, grow, hpre, hwrap, List.nil_append, hparams, hproviders, Nat.zero_add,
    Option.bind_eq_bind, Option.bind_some, Option.pure_def, Option.some.injEq, Hooks.mk.injEq,
    true_and]
  omega

end Hooks

end Stencil
