import Stencil.Proofs.Alike
import Stencil.Proofs.Binding
import Stencil.Proofs.LikeSteps

/-!
# Evaluation respects a likeness

The steps of a run respect a likeness, and so do loops over values, methods that call functions,
expressions, statements and calls.  Each of these is found from smaller parts, and is alike on both
sides as soon as the parts are: the statements here go one layer deep, and leave it to those who use
them by which induction the layers are put together.

* `Settles.arrayMethod`, `Settles.callMethod` — methods, given that calls are alike;
* `Evaluates`, `Executes`, `Calls` — an expression, a statement and all calls are alike;
* `Evaluates.succ`, `Executes.succ`, `Calls.succ` — one layer of each;
* `Settles.programRun` — a whole routine.
-/

namespace Stencil.Routine

open Filter

/-! ### Rows of items -/

/-- Items with their places that are taken as the same. -/
def Kinship.Placed (K : Kinship) (w : K.Stage) (item item' : Value × Nat) : Prop :=
  K.Values w item.1 item'.1 ∧ item.2 = item'.2

theorem Kinship.Placed.mono {K : Kinship} {w w' : K.Stage} {item item' : Value × Nat}
    (hw : w ≤ w') (h : K.Placed w item item') : K.Placed w' item item' :=
  ⟨h.1.mono hw, h.2⟩

theorem Kinship.Rows.placed {K : Kinship} {w : K.Stage} {vs vs' : List Value}
    (h : K.Rows w vs vs') : List.Forall₂ (K.Placed w) (placed vs) (placed vs') := by
  have go : ∀ n, List.Forall₂ (K.Placed w) (vs.zipIdx n) (vs'.zipIdx n) := by
    induction h with
    | nil => exact fun _ => .nil
    | cons hv _ ih => exact fun n => .cons ⟨hv, rfl⟩ (ih (n + 1))
  exact go 0

namespace Likeness

variable {L : Likeness} {ι : Type} {F : Filter ι} {w : L.Stage} {α β : Type}

namespace Settles

variable {v v' : Value}

/-! ### Loops -/

theorem forM {R : α → α → Prop} {as as' : List α} (has : List.Forall₂ R as as')
    {f f' : ι → α → Run PUnit}
    (hf : ∀ a a', R a a' → L.Settles F w L.Same (fun i => f i a) (fun i => f' i a')) :
    L.Settles F w L.Same (fun i => as.forM (f i)) (fun i => as'.forM (f' i)) := by
  induction has with
  | nil => exact same _
  | cons ha _ ih => exact (hf _ _ ha).andThen ih

theorem flow {f f' : Flow} (h : L.Flows w f f') :
    L.Settles F w L.Flows (fun _ => Pure.pure f) (fun _ => Pure.pure f') :=
  pure fun _ hw => h.mono hw

/-- The end of a loop, if a round ended it. -/
theorem ending {f f' : Option Flow} (h : Option.Rel (L.Flows w) f f') :
    L.Settles F w (fun w => Option.Rel (L.Flows w)) (fun _ => Pure.pure f)
      (fun _ => Pure.pure f') := by
  cases h with
  | none => exact pure fun _ _ => .none
  | some h => exact pure fun _ hw => .some (h.mono hw)

theorem inOrder {run run' : ι → Stmt → Run Flow} {ss ss' : List Stmt}
    (h : List.Forall₂ (fun s s' => L.Settles F w L.Flows (fun i => run i s) (fun i => run' i s'))
      ss ss') :
    L.Settles F w L.Flows (fun i => inOrder (run i) ss) (fun i => inOrder (run' i) ss') := by
  induction h with
  | nil => exact flow .onward
  | cons hs _ ih =>
    refine hs.bind fun w' hw f f' hf => ?_
    cases hf with
    | onward => exact ih.mono hw
    | leave => exact flow .leave
    | skip => exact flow .skip
    | giveBack hv => exact flow (.giveBack hv)

/-- How loops end after rounds that end alike. -/
theorem afterRound_rel {f f' : Flow} (h : L.Flows w f f') :
    Option.Rel (L.Flows w) f.afterRound f'.afterRound := by
  cases h with
  | onward | skip => exact .none
  | leave => exact .some .onward
  | giveBack h => exact .some (.giveBack h)

theorem eachItem {round round' : ι → Value → Run Flow} {vs vs' : List Value}
    (hvs : L.Rows w vs vs')
    (h : ∀ v v', L.Values w v v' →
      L.Settles F w L.Flows (fun i => round i v) (fun i => round' i v')) :
    L.Settles F w L.Flows (fun i => eachItem (round i) vs) (fun i => eachItem (round' i) vs') := by
  induction hvs with
  | nil => exact flow .onward
  | cons hv _ ih =>
    refine (h _ _ hv).bind fun w' hw f f' hf => ?_
    have hend := afterRound_rel hf
    generalize f.afterRound = ending at hend ⊢
    generalize f'.afterRound = ending' at hend ⊢
    cases hend with
    | none => exact ih.mono hw
    | some hf => exact flow hf

section Counted

variable {evaluate evaluate' : ι → Expr → Run Value} {run run' : ι → Stmt → Run Flow}
  {update : Option Expr} {body : Stmt}
  (hbody : ∀ w', w ≤ w' → L.Settles F w' L.Flows (fun i => run i body) (fun i => run' i body))
  (hupdate : ∀ w', w ≤ w' → ∀ e ∈ update,
    L.Settles F w' L.Values (fun i => evaluate i e) (fun i => evaluate' i e))
include hbody hupdate

theorem countedRound (goesOn : Bool) :
    L.Settles F w (fun w => Option.Rel (L.Flows w))
      (fun i => countedRound (evaluate i) (run i) update body goesOn)
      (fun i => countedRound (evaluate' i) (run' i) update body goesOn) := by
  cases goesOn with
  | false => exact ending (.some .onward)
  | true =>
    refine (hbody w le_rfl).bind fun w₁ hw₁ f f' hf => ?_
    have hend := afterRound_rel hf
    generalize f.afterRound = stop at hend ⊢
    generalize f'.afterRound = stop' at hend ⊢
    cases hend with
    | some hf => exact ending (.some hf)
    | none =>
      cases update with
      | none => exact ending .none
      | some update => exact (hupdate w₁ hw₁ update rfl).andThen (ending .none)

/-- A round of a loop with a test. -/
theorem testedRound {test : Expr}
    (htest : L.Settles F w L.Values (fun i => evaluate i test) (fun i => evaluate' i test)) :
    L.Settles F w (fun w => Option.Rel (L.Flows w))
      (fun i => do
        Routine.countedRound (evaluate i) (run i) update body (← evaluate i test).truthy)
      (fun i => do
        Routine.countedRound (evaluate' i) (run' i) update body
          (← evaluate' i test).truthy) := by
  refine htest.bind fun w₁ hw₁ v v' hv => ?_
  rw [hv.truthy_eq]
  exact countedRound (fun w₂ hw₂ => hbody w₂ (hw₁.trans hw₂))
    (fun w₂ hw₂ => hupdate w₂ (hw₁.trans hw₂)) v'.truthy

end Counted

/-! ### Methods that visit items -/

section Items

variable {test test' : ι → Value × Nat → Run Value} {items items' : List (Value × Nat)}
  (htest : ∀ item item', L.Placed w item item' →
    L.Settles F w L.Values (fun i => test i item) (fun i => test' i item'))
include htest

theorem firstWhere (wanted : Bool) (hitems : List.Forall₂ (L.Placed w) items items') :
    L.Settles F w (fun w => Option.Rel (L.Placed w)) (fun i => firstWhere (test i) wanted items)
      (fun i => firstWhere (test' i) wanted items') := by
  induction hitems with
  | nil => exact pure fun _ _ => .none
  | cons hitem _ ih =>
    refine (htest _ _ hitem).bind fun w' hw v v' hv => ?_
    rw [hv.truthy_eq]
    split
    · exact pure fun _ hw' => .some (hitem.mono (hw.trans hw'))
    · exact ih.mono hw

theorem itemsWhere (hitems : List.Forall₂ (L.Placed w) items items') :
    L.Settles F w L.Rows (fun i => itemsWhere (test i) items)
      (fun i => itemsWhere (test' i) items') := by
  induction hitems with
  | nil => exact row .nil
  | cons hitem _ ih =>
    refine (htest _ _ hitem).bind fun w' hw v v' hv => ?_
    rw [hv.truthy_eq]
    split
    · exact (ih.mono hw).bind fun _ hw' _ _ hvs => row (.cons (hitem.1.mono (hw.trans hw')) hvs)
    · exact ih.mono hw

end Items

/-- The last of the items, if there is any. -/
theorem last {xs xs' : Array Value} (h : L.Rows w xs.toList xs'.toList) :
    L.Values w (xs.back?.getD .undefined) (xs'.back?.getD .undefined) := by
  have hrel := h.getElem? (xs.size - 1)
  have hsize : xs.size = xs'.size := h.length_eq
  rw [Array.getElem?_toList, Array.getElem?_toList] at hrel
  rw [Array.back?_eq_getElem?, Array.back?_eq_getElem?, ← hsize]
  generalize xs[xs.size - 1]? = a at hrel ⊢
  generalize xs'[xs.size - 1]? = a' at hrel ⊢
  cases hrel with
  | some h => exact h
  | none => exact .undefined

end Settles

/-- Functions that are called on the left and on the right come to the same. -/
def CallsAlike (L : Likeness) (F : Filter ι) (w : L.Stage) (call call' : ι → Caller) : Prop :=
  ∀ w', w ≤ w' → ∀ f f' args args', L.Values w' f f' → L.Rows w' args args' →
    L.Settles F w' L.Values (fun i => call i f args) (fun i => call' i f' args')

theorem CallsAlike.mono {w' : L.Stage} {call call' : ι → Caller} (hw : w ≤ w')
    (h : L.CallsAlike F w call call') : L.CallsAlike F w' call call' :=
  fun w₁ hw₁ => h w₁ (hw.trans hw₁)

namespace Settles

variable {v v' : Value}

section Calls

variable {call call' : ι → Caller} {f f' : Value} {p p' : Nat}

theorem visit (hcall : L.CallsAlike F w call call') (hf : L.Values w f f') (hp : L.array w p p') :
    ∀ w', w ≤ w' → ∀ item item', L.Placed w' item item' →
      L.Settles F w' L.Values (fun i => visit (call i) f p item)
        (fun i => visit (call' i) f' p' item') := by
  intro w' hw item item' hitem
  refine hcall w' hw _ _ _ _ (hf.mono hw) ?_
  rw [hitem.2]
  exact .cons hitem.1 (.cons (.number _) (.cons (.array (L.array_mono hw hp)) .nil))

theorem carry (hcall : L.CallsAlike F w call call') (hf : L.Values w f f') (hp : L.array w p p')
    {items items' : List (Value × Nat)} (hitems : List.Forall₂ (L.Placed w) items items')
    {result result' : Value} (hresult : L.Values w result result') :
    L.Settles F w L.Values (fun i => carry (call i) f p result items)
      (fun i => carry (call' i) f' p' result' items') := by
  induction items generalizing w result result' items' with
  | nil =>
    cases hitems
    exact value hresult
  | cons item items ih =>
    cases hitems with
    | @cons _ item' _ _ hitem hitems =>
      have hcount : L.Values w (countValue item.2) (countValue item'.2) := by
        rw [hitem.2]
        exact .number _
      have hargs : L.Rows w [result, item.1, countValue item.2, .array p]
          [result', item'.1, countValue item'.2, .array p'] :=
        .cons hresult (.cons hitem.1 (.cons hcount (.cons (.array hp) .nil)))
      refine (hcall w le_rfl _ _ _ _ hf hargs).bind fun w' hw v v' hv => ?_
      exact ih (hcall.mono hw) (hf.mono hw) (L.array_mono hw hp)
        (hitems.imp fun _ _ => Kinship.Placed.mono hw) hv

end Calls

variable [L.Lawful]

/-! ### Variables and targets -/

theorem withFrame {names : List String} {scope scope' : Scope}
    (hs : L.Sees w names scope scope') :
    L.Settles F w (fun w => L.Sees w names) (fun _ => withFrame scope)
      (fun _ => withFrame scope') := by
  refine (make (P := fun w₁ l l' => w ≤ w₁ ∧ L.Sees w₁ names (l :: scope) (l' :: scope'))
    fun w₁ hw₁ g g' hg => ?_).bind fun _ _ _ _ h => pure fun _ hw => h.2.mono hw
  obtain ⟨w₂, hw₂, hl, hg, hshows⟩ := Lawful.newFrame hg
  have hs := hs.mono (hw₁.trans hw₂)
  exact ⟨w₂, hw₂, ⟨hw₁.trans hw₂, .cons hl hs.scopes, hshows _ _ hs.shows⟩, hg⟩

theorem declareName {scope scope' : Scope} (hs : L.Scopes w scope scope') (name : String)
    (hv : L.Values w v v') (changeable : Bool) :
    L.Settles F w L.Same (fun _ => declareName scope name v changeable)
      (fun _ => declareName scope' name v' changeable) :=
  change fun _ hw _ _ hg => Lawful.declare name changeable hg (hs.mono hw) (hv.mono hw)

theorem bindParams {scope scope' : Scope} (hs : L.Scopes w scope scope') (names : List String)
    {vs vs' : List Value} (hvs : L.Rows w vs vs') :
    L.Settles F w L.Same (fun _ => bindParams scope names vs)
      (fun _ => bindParams scope' names vs') := by
  induction names generalizing vs vs' with
  | nil => exact same _
  | cons name names ih =>
    cases hvs with
    | nil => exact (declareName hs name .undefined true).andThen (ih .nil)
    | cons hv hvs => exact (declareName hs name hv true).andThen (ih hvs)

theorem assignTo {evaluate evaluate' : ι → Expr → Run Value} {scope scope' : Scope}
    (target : Expr)
    (h : ∀ w', w ≤ w' → ∀ part ∈ target.targetParts,
      L.Settles F w' L.Values (fun i => evaluate i part) (fun i => evaluate' i part))
    {names : List String} (hs : L.Sees w names scope scope') (hnames : target.names ⊆ names)
    (hv : L.Values w v v') :
    L.Settles F w L.Same (fun i => assignTo (evaluate i) scope target v)
      (fun i => assignTo (evaluate' i) scope' target v') := by
  cases target with
  | name s => exact assignName hs (hnames List.mem_cons_self) hv
  | member front property optional =>
    refine (h w le_rfl front (by simp [Expr.targetParts])).bind fun _ hw _ _ hfront => ?_
    exact putProperty hfront property (hv.mono hw)
  | index front key optional =>
    refine (h w le_rfl front (by simp [Expr.targetParts])).bind fun w₁ hw₁ _ _ hfront => ?_
    refine (h w₁ hw₁ key (by simp [Expr.targetParts])).bind fun w₂ hw₂ _ _ hkey => ?_
    exact putItem (hfront.mono hw₂) hkey (hv.mono (hw₁.trans hw₂))
  | _ => exact fail _

theorem raisedText (hv : L.Values w v v') :
    L.Settles F w L.Same (fun _ => raisedText v) (fun _ => raisedText v') := by
  have hplain := textOf (F := F) hv
  cases hv with
  | object hp =>
    refine heap.bind fun w₁ hw₁ h h' hh => ?_
    have hmessage := (Lawful.members hh (L.object_mono hw₁ hp)).lookup "message"
    simp only [Roster.get?]
    generalize lookupName "message" (h.members _).entries = a at hmessage ⊢
    generalize lookupName "message" (h'.members _).entries = a' at hmessage ⊢
    cases hmessage with
    | some hv => exact textOf hv
    | none => exact hplain.mono hw₁
  | undefined | null | bool | number | text | array | native | closure => exact hplain

/-! ### Rounds over items -/

theorem eachRound {names : List String} {scope scope' : Scope} (hs : L.Sees w names scope scope')
    {kind : Option DeclKind} {name : String} (hname : kind = none → name ∈ names)
    {run run' : ι → Scope → Run Flow}
    (hrun : ∀ w', w ≤ w' → ∀ inner inner', L.Sees w' names inner inner' →
      L.Settles F w' L.Flows (fun i => run i inner) (fun i => run' i inner'))
    (hv : L.Values w v v') :
    L.Settles F w L.Flows (fun i => eachRound kind name scope (run i) v)
      (fun i => eachRound kind name scope' (run' i) v') := by
  refine (withFrame hs).bind fun w₁ hw₁ inner inner' hinner => ?_
  have hbody := hrun w₁ hw₁ inner inner' hinner
  cases kind with
  | some kind => exact (declareName hinner.scopes name (hv.mono hw₁) _).andThen hbody
  | none => exact (assignName hinner (hname rfl) (hv.mono hw₁)).andThen hbody

/-! ### Methods that call functions -/

theorem itemsAt {p p' : Nat} (hp : L.array w p p') :
    L.Settles F w L.Rows (fun _ => itemsAt p) (fun _ => itemsAt p') :=
  heap.bind fun _ hw _ _ hh => row (Lawful.items hh (L.array_mono hw hp))

theorem spread (hv : L.Values w v v') :
    L.Settles F w L.Rows (fun _ => spread v) (fun _ => spread v') := by
  have hsingle : L.Settles F w L.Rows (fun _ => Pure.pure [v]) (fun _ => Pure.pure [v']) :=
    row (.cons hv .nil)
  cases hv with
  | array hp => exact itemsAt hp
  | undefined | null | bool | number | text | object | native | closure => exact hsingle

theorem itemText (hv : L.Values w v v') :
    L.Settles F w L.Same (fun _ => itemText v) (fun _ => itemText v') := by
  rw [Routine.itemText, Routine.itemText, hv.isNullish_eq]
  split
  · exact same _
  · exact textOf hv

section Calls

variable {call call' : ι → Caller} {f f' : Value} {p p' : Nat}

theorem reduceMethod (hcall : L.CallsAlike F w call call') (hp : L.array w p p')
    {args args' : List Value} (hargs : L.Rows w args args') :
    L.Settles F w L.Values (fun i => ArrayMethod.reduce.apply (call i) p args)
      (fun i => ArrayMethod.reduce.apply (call' i) p' args') := by
  refine (itemsAt hp).bind fun w₁ hw₁ vs vs' hvs => ?_
  have hstart := hargs.getElem? 1
  have hcarry {items items' : List (Value × Nat)}
      (hitems : List.Forall₂ (L.Placed w₁) items items') {x x' : Value} (hx : L.Values w₁ x x') :=
    carry (hcall.mono hw₁) ((hargs.argument 0).mono hw₁) (L.array_mono hw₁ hp) hitems hx
  dsimp only
  generalize args[1]? = start at hstart ⊢
  generalize args'[1]? = start' at hstart ⊢
  cases hstart with
  | some h => exact hcarry hvs.placed (h.mono hw₁)
  | none =>
    have hplaced := hvs.placed
    generalize placed vs = items at hplaced ⊢
    generalize placed vs' = items' at hplaced ⊢
    cases hplaced with
    | nil => exact fail _
    | cons hitem hrest => exact hcarry hrest hitem.1

theorem joined (hp : L.array w p p') (separator : String) :
    L.Settles F w L.Values
      (fun _ => do
        return .text (separator.intercalate (← (← Routine.itemsAt p).mapM Routine.itemText)))
      (fun _ => do
        return .text (separator.intercalate (← (← Routine.itemsAt p').mapM Routine.itemText))) :=
  (itemsAt hp).bind fun _ _ _ _ hvs =>
    (mapSame hvs fun _ _ hv => itemText hv).bind fun _ _ _ _ e => e ▸ value (.text _)

theorem joinMethod (hp : L.array w p p') {args args' : List Value} (hargs : L.Rows w args args') :
    L.Settles F w L.Values (fun i => ArrayMethod.join.apply (call i) p args)
      (fun i => ArrayMethod.join.apply (call' i) p' args') := by
  have hf := hargs.argument 0
  have htext : L.Settles F w L.Values
      (fun _ => do
        let separator ← Run.textOf (argument args 0)
        return .text (separator.intercalate (← (← Routine.itemsAt p).mapM Routine.itemText)))
      (fun _ => do
        let separator ← Run.textOf (argument args' 0)
        return .text (separator.intercalate
          (← (← Routine.itemsAt p').mapM Routine.itemText))) := by
    refine (textOf hf).bind fun w₁ hw₁ t t' e => ?_
    obtain rfl : t = t' := e
    exact joined (L.array_mono hw₁ hp) t
  simp only [ArrayMethod.apply]
  generalize argument args 0 = v at hf htext ⊢
  generalize argument args' 0 = v' at hf htext ⊢
  cases hf with
  | undefined => exact joined hp ","
  | null | bool | number | text | array | object | native | closure => exact htext

theorem arrayMethod (hcall : L.CallsAlike F w call call') (m : ArrayMethod)
    (hp : L.array w p p') {args args' : List Value} (hargs : L.Rows w args args') :
    L.Settles F w L.Values (fun i => m.apply (call i) p args)
      (fun i => m.apply (call' i) p' args') := by
  have hf := hargs.argument 0
  have hvisit := visit hcall hf hp
  have hitems := itemsAt (F := F) hp
  cases m with
  | forEach =>
    refine hitems.bind fun w₁ hw₁ vs vs' hvs => ?_
    refine (forM hvs.placed fun item item' hitem => ?_).andThen (value .undefined)
    exact (hvisit w₁ hw₁ item item' hitem).bind fun _ _ _ _ _ => same _
  | map =>
    refine hitems.bind fun w₁ hw₁ vs vs' hvs => ?_
    exact (mapValues hvs.placed (hvisit w₁ hw₁)).bind fun _ _ _ _ h => newArray h
  | filter =>
    refine hitems.bind fun w₁ hw₁ vs vs' hvs => ?_
    refine (itemsWhere (hvisit w₁ hw₁) hvs.placed).bind ?_
    exact fun _ _ _ _ h => newArray h
  | find =>
    refine hitems.bind fun w₁ hw₁ vs vs' hvs => ?_
    refine (firstWhere (hvisit w₁ hw₁) true hvs.placed).bind ?_
    intro w₂ _ found found' h
    cases h with
    | none => exact value .undefined
    | some h => exact value h.1
  | findIndex =>
    refine hitems.bind fun w₁ hw₁ vs vs' hvs => ?_
    refine (firstWhere (hvisit w₁ hw₁) true hvs.placed).bind ?_
    intro w₂ _ found found' h
    cases h with
    | none => exact value (.number _)
    | some h =>
      dsimp only
      rw [h.2]
      exact value (.number _)
  | anyOf | allOf =>
    refine hitems.bind fun w₁ hw₁ vs vs' hvs => ?_
    refine (firstWhere (hvisit w₁ hw₁) _ hvs.placed).bind ?_
    intro w₂ _ found found' h
    cases h with
    | none => exact value (.bool _)
    | some h => exact value (.bool _)
  | reduce => exact reduceMethod hcall hp hargs
  | join => exact joinMethod hp hargs
  | includes =>
    refine hitems.bind fun w₁ hw₁ vs vs' hvs => ?_
    rw [hvs.any_same (hf.mono hw₁)]
    exact value (.bool _)
  | indexOf =>
    refine hitems.bind fun w₁ hw₁ vs vs' hvs => ?_
    rw [hvs.findIdx_same (hf.mono hw₁)]
    cases vs'.findIdx? (·.same (argument args' 0)) with
    | some i => exact value (.number _)
    | none => exact value (.number _)
  | push =>
    have hpush : ∀ w', w ≤ w' → ∀ xs xs' : Array Value, L.Rows w' xs.toList xs'.toList →
        L.Rows w' (xs ++ args).toList (xs' ++ args').toList := by
      intro w' hw xs xs' h
      rw [Array.toList_appendList, Array.toList_appendList]
      exact List.rel_append h (hargs.mono hw)
    refine (modifyItems hp hpush).andThen (heap.bind fun w₁ hw₁ h h' hh => ?_)
    have hsize : (h.items p).size = (h'.items p').size :=
      (Lawful.items hh (L.array_mono hw₁ hp)).length_eq
    rw [hsize]
    exact value (.number _)
  | pop =>
    refine heap.bind fun w₁ hw₁ h h' hh => ?_
    have hp₁ := L.array_mono hw₁ hp
    refine (modifyItems hp₁ fun _ _ xs xs' h => ?_).andThen
      (value (last (Lawful.items hh hp₁)))
    rw [Array.toList_pop, Array.toList_pop, List.dropLast_eq_take, List.dropLast_eq_take,
      h.length_eq]
    exact List.forall₂_take _ h
  | slice =>
    refine hitems.bind fun w₁ hw₁ vs vs' hvs => ?_
    rw [hvs.length_eq]
    refine (placeArgument (hf.mono hw₁) _ _).bind fun w₂ hw₂ start start' e => ?_
    obtain rfl : start = start' := e
    refine (placeArgument ((hargs.argument 1).mono (hw₁.trans hw₂)) _ _).bind
      fun w₃ hw₃ stop stop' e => ?_
    obtain rfl : stop = stop' := e
    exact newArray (List.forall₂_take _ (List.forall₂_drop _ (hvs.mono (hw₂.trans hw₃))))
  | reverse =>
    refine (modifyItems hp fun _ _ xs xs' h => ?_).andThen (value (.array hp))
    rw [Array.toList_reverse, Array.toList_reverse]
    exact List.rel_reverse h
  | concat =>
    refine (mapM hargs (P := L.Rows) (fun hw h => h.mono hw) fun _ _ hv => spread hv).bind
      fun w₁ hw₁ more more' hmore => ?_
    refine (hitems.mono hw₁).bind fun w₂ hw₂ vs vs' hvs => newArray ?_
    exact List.rel_append hvs (List.rel_flatten (hmore.imp fun _ _ h => h.mono hw₂))
  | text => exact (textOf (.array hp)).bind fun _ _ _ _ e => e ▸ value (.text _)

theorem callMember (hcall : L.CallsAlike F w call call') {o o' : Nat} (ho : L.object w o o')
    (name : String) {args args' : List Value} (hargs : L.Rows w args args') :
    L.Settles F w L.Values (fun i => callMember (call i) o name args)
      (fun i => callMember (call' i) o' name args') := by
  refine heap.bind fun w₁ hw₁ h h' hh => ?_
  have hfound := (Lawful.members hh (L.object_mono hw₁ ho)).lookup name
  simp only [Roster.get?]
  generalize lookupName name (h.members o).entries = a at hfound ⊢
  generalize lookupName name (h'.members o').entries = a' at hfound ⊢
  cases hfound with
  | none => exact fail _
  | some hf =>
    dsimp only
    rw [hf.isFunction_eq]
    split
    · exact hcall w₁ hw₁ _ _ _ _ hf (hargs.mono hw₁)
    · exact fail _

theorem callMethod (hcall : L.CallsAlike F w call call') {receiver receiver' : Value}
    (hreceiver : L.Values w receiver receiver') (name : String) {args args' : List Value}
    (hargs : L.Rows w args args') :
    L.Settles F w L.Values (fun i => callMethod (call i) receiver name args)
      (fun i => callMethod (call' i) receiver' name args') := by
  cases hreceiver with
  | undefined | null | native | closure => exact fail _
  | object ho => exact callMember hcall ho name hargs
  | array hp =>
    simp only [Routine.callMethod]
    cases ArrayMethod.ofName? name with
    | some m => exact arrayMethod hcall m hp hargs
    | none => exact fail _
  | text s =>
    simp only [Routine.callMethod]
    cases TextMethod.ofName? name with
    | some m => exact textMethod hargs m s
    | none => exact fail _
  | number x =>
    simp only [Routine.callMethod]
    cases NumberMethod.ofName? name with
    | some m => exact numberMethod hargs m x
    | none => exact fail _
  | bool b =>
    simp only [Routine.callMethod]
    split
    · exact value (.text _)
    · exact fail _

end Calls

end Settles

/-! ### Layers of evaluation -/

/-- What the surroundings of the runs do comes to the same. -/
def Serves (L : Likeness) (F : Filter ι) (base : L.Stage)
    (ask ask' : ι → Service → List Value → Run Value) : Prop :=
  ∀ w, base ≤ w → ∀ s args args', L.Rows w args args' →
    L.Settles F w L.Values (fun i => ask i s args) (fun i => ask' i s args')

section Layers

variable (L) (F) (base : L.Stage) (ask ask' : ι → Service → List Value → Run Value) (b : ι → Nat)
  (calls : Nat)

/-- The expression has the same values on both sides, at the bounds and with that many calls
left. -/
def Evaluates (e : Expr) : Prop :=
  ∀ w, base ≤ w → ∀ r r' scope scope', L.routine w r r' → L.Sees w e.names scope scope' →
    L.Settles F w L.Values (fun i => eval (b i) ⟨ask i, r, calls⟩ scope e)
      (fun i => eval (b i) ⟨ask' i, r', calls⟩ scope' e)

/-- The left statement ends on the left as the right one does on the right. -/
def Executes (s s' : Stmt) : Prop :=
  ∀ w, base ≤ w → ∀ r r' scope scope', L.routine w r r' → L.Sees w s.names scope scope' →
    L.Settles F w L.Flows (fun i => exec (b i) ⟨ask i, r, calls⟩ scope s)
      (fun i => exec (b i) ⟨ask' i, r', calls⟩ scope' s')

/-- Functions give the same back on both sides. -/
def Calls : Prop :=
  ∀ w, base ≤ w → ∀ r r', L.CallsAlike F w (fun i => callValue (b i) ⟨ask i, r, calls⟩)
    (fun i => callValue (b i) ⟨ask' i, r', calls⟩)

/-- Rounds that are alike make loops of as many rounds as the bounds say that are alike. -/
def Repeats : Prop :=
  ∀ w (round round' : ι → Run (Option Flow)),
    L.Settles F w (fun w => Option.Rel (L.Flows w)) round round' →
    L.Settles F w L.Flows (fun i => repeatedly (round i) (b i))
      (fun i => repeatedly (round' i) (b i))

end Layers

variable {base : L.Stage} {ask ask' : ι → Service → List Value → Run Value} {b : ι → Nat}
  {calls : Nat}

namespace Settles

/-- Runs that stop at a missing value in front of them, if they may, and else go on alike. -/
theorem optionally {v v' : Value} (hv : L.Values w v v') (optional : Bool)
    {m m' : ι → Run Value} (h : L.Settles F w L.Values m m') :
    L.Settles F w L.Values
      (fun i => if optional && v.isNullish then Pure.pure .undefined else m i)
      (fun i => if optional && v'.isNullish then Pure.pure .undefined else m' i) := by
  rw [hv.isNullish_eq]
  split
  · exact pure fun _ _ => .undefined
  · exact h

end Settles

theorem Evaluates.row {es : List Expr}
    (h : ∀ e ∈ es, L.Evaluates F base ask ask' b calls e) (hw : base ≤ w) {r r' : Nat}
    {scope scope' : Scope} (hr : L.routine w r r')
    (hs : ∀ e ∈ es, L.Sees w e.names scope scope') :
    L.Settles F w L.Rows (fun i => es.mapM (eval (b i) ⟨ask i, r, calls⟩ scope))
      (fun i => es.mapM (eval (b i) ⟨ask' i, r', calls⟩ scope')) := by
  have hes : List.Forall₂ (fun e e' => e = e' ∧ e ∈ es) es es :=
    List.forall₂_same.mpr fun _ he => ⟨rfl, he⟩
  refine Settles.mapValues hes fun e e' he => ?_
  obtain ⟨rfl, hmem⟩ := he
  exact h e hmem w hw r r' scope scope' hr (hs e hmem)

theorem Settles.at_bounds {P : L.Stage → α → α → Prop} {c : ι → Nat} (heq : ∀ᶠ i in F, c i = b i)
    {m n : ι → Nat → Run α} (h : L.Settles F w P (fun i => m i (c i)) (fun i => n i (c i))) :
    L.Settles F w P (fun i => m i (b i)) (fun i => n i (b i)) :=
  h.congr (heq.mono fun _ hi => by rw [hi]) (heq.mono fun _ hi => by rw [hi])

variable [L.Lawful]

/-- **One layer of expressions**: an expression is alike if its parts and all calls are. -/
theorem Evaluates.succ {e : Expr} (hfine : L.loops ∨ e.isLoopFree = true)
    (hparts : ∀ part ∈ e.parts, L.Evaluates F base ask ask' b calls part)
    (hcalls : L.Calls F base ask ask' b calls) :
    L.Evaluates F base ask ask' (fun i => b i + 1) calls e := by
  intro w hw r r' scope scope' hr hs
  -- What the hypotheses say at a later stage.
  have he {w₁ : L.Stage} (hw₁ : w ≤ w₁) {p : Expr} (hp : p ∈ e.parts) :=
    hparts p hp w₁ (hw.trans hw₁) r r' scope scope' (L.routine_mono hw₁ hr)
      ((hs.mono hw₁).subset (Expr.names_parts hp))
  have hargs {w₁ : L.Stage} (hw₁ : w ≤ w₁) {args : List Expr} (hsub : args ⊆ e.parts) :=
    Evaluates.row (fun arg harg => hparts arg (hsub harg)) (hw.trans hw₁)
      (L.routine_mono hw₁ hr) fun _ harg => (hs.mono hw₁).subset (Expr.names_parts (hsub harg))
  have hcall {w₁ : L.Stage} (hw₁ : w ≤ w₁) := hcalls w₁ (hw.trans hw₁) r r'
  have hassign {w₁ : L.Stage} (hw₁ : w ≤ w₁) {target : Expr} {v v' : Value}
      (hmem : target ∈ e.parts) (hsub : target.targetParts ⊆ e.parts) (hv : L.Values w₁ v v') :=
    Settles.assignTo target (fun w₂ hw₂ part hpart => he (hw₁.trans hw₂) (hsub hpart))
      (hs.mono hw₁) (Expr.names_parts hmem) hv
  cases e with
  | number x => exact .value (.number x)
  | text s => exact .value (.text s)
  | bool b => exact .value (.bool b)
  | null => exact .value .null
  | undefined => exact .value .undefined
  | name s => exact .valueOf hs List.mem_cons_self
  | array items => exact (hargs le_rfl fun _ h => h).bind fun _ _ _ _ hvs => .newArray hvs
  | object members =>
    have hmembers : List.Forall₂ (fun m m' => m = m' ∧ m ∈ members) members members :=
      List.forall₂_same.mpr fun _ hm => ⟨rfl, hm⟩
    refine (Settles.mapM hmembers
      (P := fun w (m m' : String × Value) => m.1 = m'.1 ∧ L.Values w m.2 m'.2)
      (fun hw h => ⟨h.1, h.2.mono hw⟩) fun m m' hm => ?_).bind fun _ _ _ _ h => .newObject h
    obtain ⟨rfl, hm⟩ := hm
    refine (he le_rfl (List.mem_map_of_mem hm)).bind fun _ _ _ _ hv => ?_
    exact .pure fun _ hw => ⟨rfl, hv.mono hw⟩
  | member front property optional =>
    refine (he le_rfl (p := front) (by simp [Expr.parts])).bind fun _ _ _ _ hv => ?_
    exact .optionally hv optional (.getProperty hv property)
  | index front key optional =>
    refine (he le_rfl (p := front) (by simp [Expr.parts])).bind fun w₁ hw₁ _ _ hv => ?_
    refine .optionally hv optional ?_
    refine (he hw₁ (p := key) (by simp [Expr.parts])).bind fun w₂ hw₂ _ _ hkey => ?_
    exact .getItem (hv.mono hw₂) hkey
  | call callee args optional =>
    have hsub : args ⊆ (Expr.call callee args optional).parts := by
      intro arg harg
      simp [Expr.parts, harg]
    cases callee with
    | member front property optional' =>
      refine (he le_rfl (p := front) (by simp [Expr.parts, Expr.targetParts])).bind
        fun w₁ hw₁ _ _ hv => .optionally hv optional' ?_
      refine (hargs hw₁ hsub).bind fun w₂ hw₂ _ _ hvs => ?_
      exact .callMethod (hcall (hw₁.trans hw₂)) (hv.mono hw₂) property hvs
    | index front key optional' =>
      refine (he le_rfl (p := front) (by simp [Expr.parts, Expr.targetParts])).bind
        fun w₁ hw₁ _ _ hv => .optionally hv optional' ?_
      refine (he hw₁ (p := key) (by simp [Expr.parts, Expr.targetParts])).bind
        fun w₂ hw₂ _ _ hkey => (Settles.textOf hkey).bind fun w₃ hw₃ s s' hs' => ?_
      obtain rfl : s = s' := hs'
      have hw₁₃ := hw₂.trans hw₃
      refine (hargs (hw₁.trans hw₁₃) hsub).bind fun w₄ hw₄ _ _ hvs => ?_
      exact .callMethod (hcall ((hw₁.trans hw₁₃).trans hw₄)) (hv.mono (hw₁₃.trans hw₄)) s hvs
    | _ =>
      refine (he le_rfl (by simp only [Expr.parts]; exact List.mem_cons_self)).bind
        fun w₁ hw₁ _ _ hv => .optionally hv optional ?_
      refine (hargs hw₁ hsub).bind fun w₂ hw₂ _ _ hvs => ?_
      exact hcall (hw₁.trans hw₂) w₂ le_rfl _ _ _ _ (hv.mono hw₂) hvs
  | unary op operand =>
    exact (he le_rfl (p := operand) (by simp [Expr.parts])).bind fun _ _ _ _ hv =>
      .unary op hv
  | binary op left right =>
    refine (he le_rfl (p := left) (by simp [Expr.parts])).bind fun w₁ hw₁ _ _ ha => ?_
    refine (he hw₁ (p := right) (by simp [Expr.parts])).bind fun w₂ hw₂ _ _ hb => ?_
    exact .binary op (ha.mono hw₂) hb
  | logical op left right =>
    refine (he le_rfl (p := left) (by simp [Expr.parts])).bind fun w₁ hw₁ v v' hv => ?_
    have hsettled : op.settledBy v = op.settledBy v' := by
      cases op <;> simp only [LogicalOp.settledBy, hv.truthy_eq, hv.isNullish_eq]
    rw [hsettled]
    split
    · exact .value hv
    · exact he hw₁ (by simp [Expr.parts])
  | conditional test yes no =>
    refine (he le_rfl (p := test) (by simp [Expr.parts])).bind fun w₁ hw₁ v v' hv => ?_
    rw [hv.truthy_eq]
    split
    · exact he hw₁ (by simp [Expr.parts])
    · exact he hw₁ (by simp [Expr.parts])
  | assign op target value =>
    have hsub : target.targetParts ⊆ (Expr.assign op target value).parts := by
      intro part hpart
      simp [Expr.parts, hpart]
    have hmem : target ∈ (Expr.assign op target value).parts := by simp [Expr.parts]
    cases op with
    | none =>
      refine (he le_rfl (p := value) (by simp [Expr.parts])).bind fun w₁ hw₁ _ _ hv => ?_
      exact (hassign hw₁ hmem hsub hv).bind fun _ hw₂ _ _ _ => .value (hv.mono hw₂)
    | some op =>
      refine (he le_rfl (p := target) (by simp [Expr.parts])).bind fun w₁ hw₁ _ _ ha => ?_
      refine (he hw₁ (p := value) (by simp [Expr.parts])).bind fun w₂ hw₂ _ _ hb => ?_
      refine .finiteThen (P := L.Values)
        (fun _ hw₃ _ _ hg => computes_binary hg (ha.mono (hw₂.trans hw₃)) (hb.mono hw₃) op) ?_
      intro w₃ hw₃ v v' hv
      exact (hassign ((hw₁.trans hw₂).trans hw₃) hmem hsub hv).bind fun _ hw₄ _ _ _ =>
        .value (hv.mono hw₄)
  | update up leading target =>
    refine (he le_rfl (p := target) (by simp [Expr.parts])).bind fun w₁ hw₁ _ _ hv => ?_
    refine (Settles.numberOf hv).bind fun w₂ hw₂ x x' hx => ?_
    obtain rfl : x = x' := hx
    have hsub : target.targetParts ⊆ (Expr.update up leading target).parts := by
      intro part hpart
      simp [Expr.parts, hpart]
    have hmem : target ∈ (Expr.update up leading target).parts := by simp [Expr.parts]
    exact (hassign (hw₁.trans hw₂) hmem hsub (.number _)).andThen (.value (.number _))
  | arrow site params body => exact .value (.closure site params hr hfine hs)

/-- **One layer of statements**: a statement is alike if its parts are, and if free loops are where
they may occur. -/
theorem Executes.succ {s : Stmt} (hfine : L.loops ∨ s.isLoopFree = true)
    (hexprs : ∀ e ∈ s.exprs, L.Evaluates F base ask ask' b calls e)
    (hstmts : ∀ part ∈ s.stmts, L.Executes F base ask ask' b calls part part)
    (hrepeat : L.loops → L.Repeats F b) :
    L.Executes F base ask ask' (fun i => b i + 1) calls s s := by
  intro w hw r r' scope scope' hr hs
  have he {w₁ : L.Stage} (hw₁ : w ≤ w₁) {scope scope' : Scope}
      (hs : L.Sees w₁ s.names scope scope') {e : Expr} (hmem : e ∈ s.exprs) :=
    hexprs e hmem w₁ (hw.trans hw₁) r r' scope scope' (L.routine_mono hw₁ hr)
      (hs.subset (Stmt.names_exprs hmem))
  have hx {w₁ : L.Stage} (hw₁ : w ≤ w₁) {scope scope' : Scope}
      (hs : L.Sees w₁ s.names scope scope') {p : Stmt} (hmem : p ∈ s.stmts) :=
    hstmts p hmem w₁ (hw.trans hw₁) r r' scope scope' (L.routine_mono hw₁ hr)
      (hs.subset (Stmt.names_stmts hmem))
  cases s with
  | empty => exact .flow .onward
  | leave => exact .flow .leave
  | skip => exact .flow .skip
  | expr e => exact (he le_rfl hs (by simp [Stmt.exprs])).andThen (.flow .onward)
  | declare kind bindings =>
    have hbindings : List.Forall₂ (fun d d' => d = d' ∧ d ∈ bindings) bindings bindings :=
      List.forall₂_same.mpr fun _ hd => ⟨rfl, hd⟩
    refine (Settles.forM hbindings fun d d' hd => ?_).andThen (.flow .onward)
    obtain ⟨rfl, hmem⟩ := hd
    obtain ⟨name, value⟩ := d
    cases value with
    | none => exact .declareName hs.scopes name .undefined _
    | some e =>
      have hmem : e ∈ (Stmt.declare kind bindings).exprs := List.mem_filterMap.mpr ⟨_, hmem, rfl⟩
      exact (he le_rfl hs hmem).bind fun _ hw₁ _ _ hv =>
        .declareName (hs.scopes.mono hw₁) name hv _
  | block stmts =>
    exact (Settles.withFrame hs).bind fun _ hw₁ _ _ hinner =>
      .inOrder (List.forall₂_same.mpr fun part hpart => hx hw₁ hinner hpart)
  | branch test yes no =>
    refine (he le_rfl hs (e := test) (by simp [Stmt.exprs])).bind fun w₁ hw₁ v v' hv => ?_
    rw [hv.truthy_eq]
    split
    · exact hx hw₁ (hs.mono hw₁) (by simp [Stmt.stmts])
    · cases no with
      | some no => exact hx hw₁ (hs.mono hw₁) (by simp [Stmt.stmts])
      | none => exact .flow .onward
  | each head kind name source body =>
    have hround {w₁ : L.Stage} (hw₁ : w ≤ w₁) (v v' : Value) (hv : L.Values w₁ v v') :
        L.Settles F w₁ L.Flows
          (fun i => eachRound kind name scope
            (fun inner => exec (b i) ⟨ask i, r, calls⟩ inner body) v)
          (fun i => eachRound kind name scope'
            (fun inner => exec (b i) ⟨ask' i, r', calls⟩ inner body) v') :=
      .eachRound (hs.mono hw₁) (by rintro rfl; exact List.mem_cons_self)
        (fun _ hw₂ _ _ hinner => hx (hw₁.trans hw₂) hinner (by simp [Stmt.stmts])) hv
    refine (he le_rfl hs (e := source) (by simp [Stmt.exprs])).bind fun w₁ hw₁ v v' hv => ?_
    cases head with
    | items =>
      exact (Settles.itemsIn hv).bind fun w₂ hw₂ _ _ hvs => .eachItem hvs (hround (hw₁.trans hw₂))
    | keys =>
      exact (Settles.keysIn hv).bind fun w₂ hw₂ _ _ hvs => .eachItem hvs (hround (hw₁.trans hw₂))
  | loop init test update body =>
    have hloops : L.loops := hfine.resolve_right (by simp [Stmt.isLoopFree])
    refine (Settles.withFrame hs).bind fun w₁ hw₁ inner inner' hinner => ?_
    -- The parts of a round, at any later stage.
    have hbody (w₂ : L.Stage) (hw₂ : w₁ ≤ w₂) :=
      hx (hw₁.trans hw₂) (hinner.mono hw₂) (p := body) (by simp [Stmt.stmts])
    have hupdate (w₂ : L.Stage) (hw₂ : w₁ ≤ w₂) (e : Expr) (hmem : e ∈ update) :=
      he (hw₁.trans hw₂) (hinner.mono hw₂) (e := e)
        (by simp [Stmt.exprs, Option.mem_def.mp hmem])
    have hround {w₂ : L.Stage} (hw₂ : w₁ ≤ w₂) (goesOn : Bool) :=
      Settles.countedRound (fun w₃ hw₃ => hbody w₃ (hw₂.trans hw₃))
        (fun w₃ hw₃ => hupdate w₃ (hw₂.trans hw₃)) goesOn
    have htested {w₂ : L.Stage} (hw₂ : w₁ ≤ w₂) {e : Expr} (htest : test = some e) :=
      Settles.testedRound (fun w₃ hw₃ => hbody w₃ (hw₂.trans hw₃))
        (fun w₃ hw₃ => hupdate w₃ (hw₂.trans hw₃))
        (he (hw₁.trans hw₂) (hinner.mono hw₂) (e := e) (by simp [Stmt.exprs, htest]))
    cases init with
    | none =>
      cases test with
      | none => exact hrepeat hloops w₁ _ _ (hround le_rfl true)
      | some test => exact hrepeat hloops w₁ _ _ (htested le_rfl rfl)
    | some init =>
      refine (hx hw₁ hinner (p := init) (by simp [Stmt.stmts])).bind fun w₂ hw₂ _ _ _ => ?_
      cases test with
      | none => exact hrepeat hloops w₂ _ _ (hround hw₂ true)
      | some test => exact hrepeat hloops w₂ _ _ (htested hw₂ rfl)
  | repeatWhile test body =>
    have hloops : L.loops := hfine.resolve_right (by simp [Stmt.isLoopFree])
    refine hrepeat hloops w _ _ ?_
    refine (he le_rfl hs (e := test) (by simp [Stmt.exprs])).bind fun w₁ hw₁ v v' hv => ?_
    rw [hv.truthy_eq]
    split
    · refine (hx hw₁ (hs.mono hw₁) (by simp [Stmt.stmts])).bind fun _ _ _ _ hf => ?_
      exact .ending (Settles.afterRound_rel hf)
    · exact .ending (.some .onward)
  | giveBack value =>
    cases value with
    | none => exact .flow (.giveBack .undefined)
    | some e =>
      exact (he le_rfl hs (by simp [Stmt.exprs])).bind fun _ _ _ _ hv => .flow (.giveBack hv)
  | raise e =>
    refine (he le_rfl hs (e := e) (by simp [Stmt.exprs])).bind fun _ _ _ _ hv => ?_
    exact (Settles.raisedText hv).bind fun _ _ _ _ ht => ht ▸ .fail _
  | within front guarded body =>
    refine (he le_rfl hs (e := front) (by simp [Stmt.exprs])).bind fun w₁ hw₁ v v' hv => ?_
    have hs₁ := hs.mono hw₁
    have hopened : L.Sees w₁ (Stmt.within front guarded body).names
        (openedLink v guarded :: scope) (openedLink v' guarded :: scope') :=
      ⟨.cons (Lawful.opened guarded hv) hs₁.scopes, Lawful.shows_opened guarded hv hs₁.shows⟩
    exact (Settles.withFrame hopened).bind fun _ hw₂ _ _ hinner =>
      .inOrder (List.forall₂_same.mpr fun part hpart => hx (hw₁.trans hw₂) hinner hpart)

theorem Settles.notCallable {v v' : Value} (hv : L.Values w v v') :
    L.Settles F w L.Values (fun _ => do Run.fail (.notCallable (← Run.textOf v)))
      (fun _ => do Run.fail (.notCallable (← Run.textOf v'))) :=
  (Settles.textOf hv).bind fun _ _ _ _ e => e ▸ .fail _

/-- **One layer of calls**: calls are alike if bodies are, with one call less. -/
theorem Calls.succ (hserves : L.Serves F base ask ask')
    (hexpr : ∀ e : Expr, L.loops ∨ e.isLoopFree = true → L.Evaluates F base ask ask' b calls e)
    (hstmt : ∀ s : Stmt, L.loops ∨ s.isLoopFree = true →
      L.Executes F base ask ask' b calls s s) :
    L.Calls F base ask ask' (fun i => b i + 1) (calls + 1) := by
  intro w hw r r' w₁ hw₁ f f' args args' hf hargs
  have hcomplain := Settles.notCallable (F := F) hf
  cases hf with
  | native name code h =>
    cases code with
    | builtin b => exact .builtin hargs b
    | service s => exact hserves w₁ (hw.trans hw₁) s args args' hargs
  | @closure own own' site params body scope scope' hr hb hs =>
    refine (Settles.withFrame hs).bind fun w₂ hw₂ inner inner' hinner => ?_
    refine (Settles.bindParams hinner.scopes params (hargs.mono hw₂)).bind fun w₃ hw₃ _ _ _ => ?_
    have hw₀ := (hw.trans hw₁).trans (hw₂.trans hw₃)
    have hown := L.routine_mono (hw₂.trans hw₃) hr
    cases body with
    | expr e => exact hexpr e hb w₃ hw₀ own own' _ _ hown (hinner.mono hw₃)
    | block stmts =>
      have hstmts : ∀ s ∈ stmts, L.loops ∨ s.isLoopFree = true :=
        fun s hmem => hb.imp_right fun h => (stmtsLoopFree_iff stmts).mp h s hmem
      refine (Settles.inOrder (List.forall₂_same.mpr fun s hmem =>
        hstmt s (hstmts s hmem) w₃ hw₀ own own' _ _ hown
          ((hinner.mono hw₃).subset (names_subset_stmtsNames hmem)))).bind ?_
      intro w₄ _ flow flow' hflow
      cases hflow with
      | giveBack hv => exact .value hv
      | onward | leave | skip => exact .value .undefined
  | undefined | null | bool | number | text | array | object => exact hcomplain

/-- Where no calls are left, all calls fail in the same way. -/
theorem Calls.zero : L.Calls F base ask ask' (fun i => b i + 1) 0 := by
  intro w _ r r' w₁ _ f f' args args' hf _
  have hcomplain := Settles.notCallable (F := F) hf
  cases hf with
  | native | closure => exact .fail _
  | undefined | null | bool | number | text | array | object => exact hcomplain

/-! ### All layers -/

section Fixed

/-! The layers below a fixed bound, where every heap may leave a run without an end. -/

variable (hloops : L.loops) (hknot : ∀ h, L.knot h) (hserves : L.Serves F base ask ask')

omit [L.Lawful] in
include hknot in
theorem Repeats.fixed (bound : Nat) : L.Repeats F fun _ => bound := by
  intro w round round' hround
  induction bound generalizing w with
  | zero => exact .endless hknot
  | succ bound ih =>
    refine hround.bind fun w₁ hw₁ flow flow' hflow => ?_
    cases hflow with
    | none => exact (ih w hround).mono hw₁
    | some h => exact .flow h

/-- All expressions, statements and calls are alike below a bound. -/
structure Everything (L : Likeness) (F : Filter ι) (base : L.Stage)
    (ask ask' : ι → Service → List Value → Run Value) (b : ι → Nat) : Prop where
  evaluates (calls : Nat) (e : Expr) : L.Evaluates F base ask ask' b calls e
  executes (calls : Nat) (s : Stmt) : L.Executes F base ask ask' b calls s s
  calls (calls : Nat) : L.Calls F base ask ask' b calls

omit [L.Lawful] in
/-- Statements in a row are alike. -/
theorem Everything.inOrder (h : L.Everything F base ask ask' b) (hw : base ≤ w) {r r' : Nat}
    (hr : L.routine w r r') {stmts : List Stmt} {scope scope' : Scope}
    (hs : L.Sees w (stmtsNames stmts) scope scope') (calls : Nat) :
    L.Settles F w L.Flows (fun i => inOrder (exec (b i) ⟨ask i, r, calls⟩ scope) stmts)
      (fun i => inOrder (exec (b i) ⟨ask' i, r', calls⟩ scope') stmts) :=
  .inOrder (List.forall₂_same.mpr fun s hmem =>
    h.executes calls s w hw r r' scope scope' hr (hs.subset (names_subset_stmtsNames hmem)))

include hloops hknot hserves in
theorem everything_fixed (bound : Nat) : L.Everything F base ask ask' fun _ => bound := by
  induction bound with
  | zero =>
    refine ⟨fun _ _ _ _ _ _ _ _ _ _ => ?_, fun _ _ _ _ _ _ _ _ _ _ => ?_,
      fun _ _ _ _ _ _ _ _ _ _ _ _ _ => ?_⟩
    · simp only [eval]
      exact .endless hknot
    · simp only [exec]
      exact .endless hknot
    · simp only [callValue]
      exact .endless hknot
  | succ bound ih =>
    refine ⟨fun calls e => ?_, fun calls s => ?_, fun calls => ?_⟩
    · exact .succ (.inl hloops) (fun part _ => ih.evaluates calls part) (ih.calls calls)
    · exact .succ (.inl hloops) (fun e _ => ih.evaluates calls e)
        (fun part _ => ih.executes calls part) fun _ => .fixed hknot bound
    · cases calls with
      | zero => exact .zero
      | succ calls =>
        exact .succ hserves (fun e _ => ih.evaluates calls e) fun s _ => ih.executes calls s

end Fixed

section Growing

/-! The layers at bounds that grow beyond all limits, without free loops.  Expressions and
statements are taken by their size, and calls by how many of them may still nest. -/

variable (hserves : L.Serves F base ask ask')

/-- Bounds that grow beyond all limits can be lowered by one. -/
theorem tendsto_pred (hb : Tendsto b F atTop) :
    Tendsto (fun i => b i - 1) F atTop ∧ ∀ᶠ i in F, b i - 1 + 1 = b i := by
  refine ⟨(tendsto_sub_atTop_nat 1).comp hb, ?_⟩
  filter_upwards [hb.eventually_ge_atTop 1] with i hi
  omega

theorem evaluates_growing {b : ι → Nat}
    (hcalls : ∀ b : ι → Nat, Tendsto b F atTop → L.Calls F base ask ask' b calls)
    (hb : Tendsto b F atTop) (e : Expr) (he : e.isLoopFree = true) :
    L.Evaluates F base ask ask' b calls e := by
  obtain ⟨hpred, heq⟩ := tendsto_pred hb
  intro w hw r r' scope scope' hr hs
  have hlayer := Evaluates.succ (b := fun i => b i - 1) (.inr he)
    (fun part hpart => evaluates_growing hcalls hpred part (Expr.isLoopFree_parts he part hpart))
    (hcalls _ hpred) w hw r r' scope scope' hr hs
  exact .at_bounds heq (m := fun i c => eval c ⟨ask i, r, calls⟩ scope e)
    (n := fun i c => eval c ⟨ask' i, r', calls⟩ scope' e) hlayer
termination_by sizeOf e
decreasing_by exact Expr.sizeOf_parts hpart

theorem executes_growing {b : ι → Nat} (hloops : ¬ L.loops)
    (hcalls : ∀ b : ι → Nat, Tendsto b F atTop → L.Calls F base ask ask' b calls)
    (hb : Tendsto b F atTop) (s : Stmt) (hs : s.isLoopFree = true) :
    L.Executes F base ask ask' b calls s s := by
  obtain ⟨hpred, heq⟩ := tendsto_pred hb
  intro w hw r r' scope scope' hr hscope
  have hlayer := Executes.succ (b := fun i => b i - 1) (.inr hs)
    (fun e he => evaluates_growing hcalls hpred e (Stmt.isLoopFree_exprs hs e he))
    (fun part hpart =>
      executes_growing hloops hcalls hpred part (Stmt.isLoopFree_stmts hs part hpart))
    (fun h => absurd h hloops) w hw r r' scope scope' hr hscope
  exact .at_bounds heq (m := fun i c => exec c ⟨ask i, r, calls⟩ scope s)
    (n := fun i c => exec c ⟨ask' i, r', calls⟩ scope' s) hlayer
termination_by sizeOf s
decreasing_by exact Stmt.sizeOf_stmts hpart

include hserves in
theorem calls_growing (hloops : ¬ L.loops) (calls : Nat) (b : ι → Nat) (hb : Tendsto b F atTop) :
    L.Calls F base ask ask' b calls := by
  induction calls generalizing b with
  | zero =>
    obtain ⟨_, heq⟩ := tendsto_pred hb
    intro w hw r r' w₁ hw₁ f f' args args' hf hargs
    have hzero : L.Calls F base ask ask' (fun i => b i - 1 + 1) 0 := .zero
    have hlayer := hzero w hw r r' w₁ hw₁ f f' args args' hf hargs
    exact .at_bounds heq (m := fun i c => callValue c ⟨ask i, r, 0⟩ f args)
      (n := fun i c => callValue c ⟨ask' i, r', 0⟩ f' args') hlayer
  | succ calls ih =>
    obtain ⟨hpred, heq⟩ := tendsto_pred hb
    intro w hw r r' w₁ hw₁ f f' args args' hf hargs
    have hlayer := Calls.succ (b := fun i => b i - 1) hserves
      (fun e he => evaluates_growing ih hpred e (he.resolve_left hloops))
      (fun s hs => executes_growing hloops ih hpred s (hs.resolve_left hloops))
      w hw r r' w₁ hw₁ f f' args args' hf hargs
    exact .at_bounds heq (m := fun i c => callValue c ⟨ask i, r, calls + 1⟩ f args)
      (n := fun i c => callValue c ⟨ask' i, r', calls + 1⟩ f' args') hlayer

end Growing

/-- Routines whose parameters are bound are alike if their statements are. -/
theorem Settles.runBound {p p' : Program} (hw : base ≤ w)
    (hstmts : List.Forall₂ (L.Executes F base ask ask' b calls) p.body p'.body) {r r' : Nat}
    (hr : L.routine w r r') {outer outer' : Scope}
    (houter : L.Sees w (stmtsNames p.body) outer outer') :
    L.Settles F w L.Values (fun i => p.runBound (b i) ⟨ask i, r, calls⟩ outer)
      (fun i => p'.runBound (b i) ⟨ask' i, r', calls⟩ outer') := by
  refine (Settles.withFrame houter).bind fun w₁ hw₁ inner inner' hinner => ?_
  have hmembers := (List.forall₂_and_left _ _).mpr
    ⟨fun s (hs : s ∈ p.body) => names_subset_stmtsNames hs, hstmts⟩
  refine (Settles.inOrder (hmembers.imp fun s s' hs => hs.2 w₁ (hw.trans hw₁) r r' _ _
    (L.routine_mono hw₁ hr) (hinner.subset hs.1))).bind fun w₂ _ flow flow' hflow => ?_
  cases hflow with
  | giveBack hv => exact .value hv
  | onward | leave | skip => exact .value .undefined

/-- Whole routines with the same parameters are alike if their statements are. -/
theorem Settles.programRun {p p' : Program} (hw : base ≤ w) (hparams : p.params = p'.params)
    (hstmts : List.Forall₂ (L.Executes F base ask ask' b calls) p.body p'.body) {r r' : Nat}
    (hr : L.routine w r r') {args args' : List Value} (hargs : L.Rows w args args') :
    L.Settles F w L.Values (fun i => p.run (b i) ⟨ask i, r, calls⟩ args)
      (fun i => p'.run (b i) ⟨ask' i, r', calls⟩ args') := by
  simp only [Program.run, ← hparams]
  have hnil : L.Sees w (stmtsNames p.body) [] [] := ⟨.nil, Lawful.shows_nil w _⟩
  refine (Settles.withFrame hnil).bind fun w₁ hw₁ outer outer' houter => ?_
  refine (Settles.bindParams houter.scopes p.params (hargs.mono hw₁)).bind fun w₂ hw₂ _ _ _ => ?_
  have hw₀ := hw₁.trans hw₂
  exact Settles.runBound (hw.trans hw₀) hstmts (L.routine_mono hw₀ hr) (houter.mono hw₂)

end Likeness

end Stencil.Routine
