import Stencil.Proofs.Functions.Origins
import Stencil.Routine.Evaluate

/-!
# Evaluation makes functions of what is written

Expressions, statements and calls keep to what was made: the functions that they come to, and those
that they leave anywhere, have their origin there, also if they fail.

* `Traces.arrayMethod`, `Traces.callMethod` — methods, given how functions are called;
* `Everything.eval_succ`, `Everything.exec_succ`, `Everything.call_succ` — one layer of expressions,
  statements and calls;
* `everything` — all of them;
* `Traces.run` — a whole routine that was compiled.
-/

namespace Stencil.Routine.Origins

variable {w w' : Origins} {α β : Type}

namespace Traces

/-! ### Methods that visit items -/

theorem itemsAt (place : Nat) :
    w.Traces (fun w' vs => ∀ item ∈ placed vs, w'.Has item.1) (itemsAt place) := by
  refine quiet fun w' _ => (Realm.Quiet.itemsAt trivial).imp fun vs hvs item hitem => ?_
  exact hvs item.1 (List.fst_mem_of_mem_zipIdx hitem)

section Items

variable {test : Value × Nat → Run Value} {items : List (Value × Nat)}
  (htest : ∀ item ∈ items, w.Traces Has (test item)) (hitems : ∀ item ∈ items, w.Has item.1)
include htest hitems

theorem firstWhere (wanted : Bool) :
    w.Traces (fun w' found => ∀ item ∈ found, w'.Has item.1) (firstWhere test wanted items) := by
  induction items with
  | nil => exact pure fun _ _ => nofun
  | cons item items ih =>
    obtain ⟨hfirst, htest⟩ := List.forall_mem_cons.mp htest
    obtain ⟨hitem, hitems⟩ := List.forall_mem_cons.mp hitems
    refine hfirst.bind fun w₁ hw₁ v _ => ?_
    split
    · refine pure fun w₂ hw₂ found hfound => ?_
      cases hfound
      exact hitem.mono (hw₁.trans hw₂)
    · exact (ih htest hitems).mono hw₁

theorem itemsWhere : w.Traces HasAll (itemsWhere test items) := by
  induction items with
  | nil => exact pure fun _ _ => .nil
  | cons item items ih =>
    obtain ⟨hfirst, htest⟩ := List.forall_mem_cons.mp htest
    obtain ⟨hitem, hitems⟩ := List.forall_mem_cons.mp hitems
    refine hfirst.bind fun w₁ hw₁ v _ => ?_
    split
    · exact ((ih htest hitems).mono hw₁).bind fun w₂ hw₂ vs hvs =>
        pure fun w₃ hw₃ => .cons (hitem.mono ((hw₁.trans hw₂).trans hw₃)) (HasAll.mono hw₃ hvs)
    · exact (ih htest hitems).mono hw₁

end Items

section Calls

variable {call : Caller}
  (hcall : ∀ w', w ≤ w' → ∀ f args, w'.Has f → w'.HasAll args → w'.Traces Has (call f args))
include hcall

theorem carry {f : Value} (hf : w.Has f) (array : Nat) {items : List (Value × Nat)}
    (hitems : ∀ item ∈ items, w.Has item.1) {result : Value} (hresult : w.Has result) :
    w.Traces Has (carry call f array result items) := by
  induction items generalizing w result with
  | nil => exact value hresult
  | cons item items ih =>
    obtain ⟨hitem, hitems⟩ := List.forall_mem_cons.mp hitems
    have hargs : w.HasAll [result, item.1, countValue item.2, .array array] :=
      .cons hresult (.cons hitem (.cons trivial (.cons trivial .nil)))
    refine (hcall w le_rfl f _ hf hargs).bind fun w₁ hw₁ v hv => ?_
    exact ih (fun w₂ hw₂ => hcall w₂ (hw₁.trans hw₂)) (hf.mono hw₁)
      (fun item hmem => (hitems item hmem).mono hw₁) hv

theorem visit {f : Value} (hf : w.Has f) (array : Nat) {item : Value × Nat}
    (hitem : w.Has item.1) : w.Traces Has (visit call f array item) :=
  hcall w le_rfl f _ hf (.cons hitem (.cons trivial (.cons trivial .nil)))

theorem arrayMethod (m : ArrayMethod) (array : Nat) {args : List Value} (hargs : w.HasAll args) :
    w.Traces Has (m.apply call array args) := by
  have hf : w.Has (argument args 0) := Realm.HasAll.argument hargs 0
  -- What is asked of each item, once the items are known.
  have hvisit {w₁ : Origins} (hw₁ : w ≤ w₁) {items : List (Value × Nat)}
      (hitems : ∀ item ∈ items, w₁.Has item.1) :
      ∀ item ∈ items, w₁.Traces Has (Routine.visit call (argument args 0) array item) :=
    fun item hmem => visit (fun w₂ hw₂ => hcall w₂ (hw₁.trans hw₂)) (hf.mono hw₁) array
      (hitems item hmem)
  have hnew {w₁ : Origins} {vs : List Value} (hvs : w₁.HasAll vs) :
      w₁.Traces Has (Run.newArray vs.toArray) :=
    quiet fun w₂ hw₂ => .newArray (HasAll.mono hw₂ hvs)
  cases hm : m.callsFunctions with
  | false => exact quiet fun w₁ hw₁ => .arrayMethod call hm trivial (HasAll.mono hw₁ hargs)
  | true =>
    cases m with
    | forEach =>
      refine (itemsAt array).bind fun w₁ hw₁ vs hvs => (forM fun item hmem => ?_).andThen
        fun _ => pure fun _ _ => trivial
      exact (hvisit hw₁ hvs item hmem).bind fun _ _ _ _ => any
    | map =>
      exact (itemsAt array).bind fun w₁ hw₁ vs hvs =>
        (mapM Has.mono (hvisit hw₁ hvs)).bind fun _ _ _ h => hnew h
    | filter =>
      exact (itemsAt array).bind fun w₁ hw₁ vs hvs =>
        (itemsWhere (hvisit hw₁ hvs) hvs).bind fun _ _ _ h => hnew h
    | find =>
      refine (itemsAt array).bind fun w₁ hw₁ vs hvs =>
        (firstWhere (hvisit hw₁ hvs) hvs true).bind fun w₂ _ found hfound => ?_
      cases found with
      | none => exact pure fun _ _ => trivial
      | some item => exact value (hfound item rfl)
    | findIndex =>
      refine (itemsAt array).bind fun w₁ hw₁ vs hvs =>
        (firstWhere (hvisit hw₁ hvs) hvs true).bind fun w₂ _ found _ => ?_
      cases found with
      | none => exact pure fun _ _ => trivial
      | some item => exact pure fun _ _ => trivial
    | anyOf | allOf =>
      exact (itemsAt array).bind fun w₁ hw₁ vs hvs =>
        (firstWhere (hvisit hw₁ hvs) hvs _).bind fun _ _ _ _ => pure fun _ _ => trivial
    | reduce =>
      refine (itemsAt array).bind fun w₁ hw₁ vs hvs => ?_
      dsimp only
      have hcall' (w₂ : Origins) (hw₂ : w₁ ≤ w₂) := hcall w₂ (hw₁.trans hw₂)
      cases hstart : args[1]? with
      | some start =>
        have hhas := hargs start (List.mem_of_getElem? hstart)
        exact carry hcall' (hf.mono hw₁) array hvs (Has.mono hw₁ hhas)
      | none =>
        generalize placed vs = items at hvs ⊢
        cases items with
        | nil => exact fail _
        | cons first rest =>
          obtain ⟨hfirst, hrest⟩ := List.forall_mem_cons.mp hvs
          exact carry hcall' (hf.mono hw₁) array hrest hfirst
    | join | includes | indexOf | push | pop | slice | reverse | concat | text => cases hm

theorem callMember (object : Nat) (name : String) {args : List Value} (hargs : w.HasAll args) :
    w.Traces Has (callMember call object name args) := by
  have hheap : w.Traces (fun w' h => w'.realm.Keeps h) Run.heap := quiet fun _ _ => .heap
  refine hheap.bind fun w₁ hw₁ h hh => ?_
  cases hmember : (h.members object).get? name with
  | none => exact fail _
  | some f =>
    dsimp only
    have hf : w₁.Has f := hh.members object trivial (name, f) (mem_of_lookupName hmember)
    split
    · exact hcall w₁ hw₁ f args hf (HasAll.mono hw₁ hargs)
    · exact fail _

theorem callMethod (receiver : Value) (name : String) {args : List Value} (hargs : w.HasAll args) :
    w.Traces Has (callMethod call receiver name args) := by
  cases receiver with
  | object place => exact callMember hcall place name hargs
  | array place =>
    simp only [Routine.callMethod]
    cases ArrayMethod.ofName? name with
    | none => exact fail _
    | some m => exact arrayMethod hcall m place hargs
  | undefined | null | bool | number | text | native | closure =>
    exact quiet fun _ _ => .callMethod call (by simp) (by simp) name args

end Calls

/-! ### Targets -/

theorem assignTo {evaluate : Expr → Run Value} (scope : Scope) {target : Expr} {v : Value}
    (h : ∀ part ∈ target.targetParts, w.Traces Has (evaluate part)) (hv : w.Has v) :
    w.Traces Any (assignTo evaluate scope target v) := by
  cases target with
  | name s => exact assignName scope s hv
  | member object property optional =>
    refine (h object (by simp [Expr.targetParts])).bind fun w₁ hw₁ target htarget => ?_
    exact quiet fun w₂ hw₂ => .putProperty (htarget.mono hw₂) property (hv.mono (hw₁.trans hw₂))
  | index object key optional =>
    refine (h object (by simp [Expr.targetParts])).bind fun w₁ hw₁ target htarget => ?_
    refine ((h key (by simp [Expr.targetParts])).mono hw₁).bind fun w₂ hw₂ key _ => ?_
    exact quiet fun w₃ hw₃ => .putItem (htarget.mono (hw₂.trans hw₃)) key
      (hv.mono ((hw₁.trans hw₂).trans hw₃))
  | _ => exact fail _

end Traces

/-! ### Layers of evaluation -/

/-- What a run asks for keeps to what was made. -/
def Serves (w : Origins) (ask : Service → List Value → Run Value) : Prop :=
  ∀ s args w', w ≤ w' → w'.HasAll args → w'.Traces Has (ask s args)

theorem Serves.mono (hw : w ≤ w') {ask : Service → List Value → Run Value} (h : w.Serves ask) :
    w'.Serves ask :=
  fun s args w'' hw' => h s args w'' (hw.trans hw')

/-- All expressions, statements and calls keep to what was made, below a bound. -/
structure Everything (w : Origins) (ask : Service → List Value → Run Value) (bound : Nat) :
    Prop where
  eval {w' : Origins} (hw : w ≤ w') (r calls : Nat) (scope : Scope) {e : Expr}
    (he : w'.Admits r e) : w'.Traces Has (eval bound ⟨ask, r, calls⟩ scope e)
  exec {w' : Origins} (hw : w ≤ w') (r calls : Nat) (scope : Scope) {s : Stmt}
    (hs : w'.AdmitsStmt r s) : w'.Traces HasFlow (exec bound ⟨ask, r, calls⟩ scope s)
  call {w' : Origins} (hw : w ≤ w') (r calls : Nat) {f : Value} {args : List Value}
    (hf : w'.Has f) (hargs : w'.HasAll args) :
    w'.Traces Has (callValue bound ⟨ask, r, calls⟩ f args)

section Layers

variable {ask : Service → List Value → Run Value} {bound : Nat}

/-- Steps that stop at a missing value in front of them, if they may. -/
theorem Traces.optionally (optional : Bool) (v : Value) {m : Run Value} (h : w.Traces Has m) :
    w.Traces Has (if optional && v.isNullish then Pure.pure .undefined else m) := by
  split
  · exact .pure fun _ _ => trivial
  · exact h

/-- A round over what is visited. -/
theorem Traces.eachRound (kind : Option DeclKind) (name : String) (scope : Scope)
    {run : Scope → Run Flow} (h : ∀ inner, w.Traces HasFlow (run inner)) {v : Value}
    (hv : w.Has v) : w.Traces HasFlow (Routine.eachRound kind name scope run v) := by
  refine (withFrame scope).andThen fun inner => ?_
  cases kind with
  | none => exact (assignName inner name hv).andThen fun _ => h inner
  | some kind => exact (declareName inner name hv _).andThen fun _ => h inner

/-- A round of a counted loop. -/
theorem Traces.countedRound {evaluate : Expr → Run Value} {run : Stmt → Run Flow}
    {update : Option Expr} {body : Stmt}
    (he : ∀ e ∈ update, w.Traces Has (evaluate e)) (hs : w.Traces HasFlow (run body))
    (goesOn : Bool) :
    w.Traces HasEnding (Routine.countedRound evaluate run update body goesOn) := by
  cases goesOn with
  | false =>
    refine pure fun _ _ flow hflow => ?_
    cases hflow
    trivial
  | true =>
    refine hs.bind fun w₁ hw₁ flow hflow => ?_
    cases hending : flow.afterRound with
    | some flow' => exact ending (hending ▸ hflow.afterRound)
    | none =>
      cases update with
      | none => exact pure fun _ _ => nofun
      | some update => exact ((he update rfl).mono hw₁).bind fun _ _ _ _ => pure fun _ _ => nofun

/-- What is computed from the heap and comes to no function. -/
theorem Traces.finite {f : Heap → Option Value}
    (h : ∀ w' g v, w ≤ w' → f g = some v → w'.Has v) :
    w.Traces Has (do Run.finite (f (← Run.heap))) :=
  quiet fun w' hw => Realm.Quiet.heap.bind fun g _ => .finite fun v => h w' g v hw

variable (h : w.Everything ask bound)
include h

theorem Everything.eval_succ (hw : w ≤ w') (r calls : Nat) (scope : Scope) {e : Expr}
    (he : w'.Admits r e) : w'.Traces Has (Routine.eval (bound + 1) ⟨ask, r, calls⟩ scope e) := by
  have hpart {p : Expr} (hmem : p ∈ e.parts) :
      w'.Traces Has (Routine.eval bound ⟨ask, r, calls⟩ scope p) :=
    h.eval hw r calls scope (Expr.every_parts he p hmem)
  have hargs {args : List Expr} (hsub : args ⊆ e.parts) :
      w'.Traces HasAll (args.mapM (Routine.eval bound ⟨ask, r, calls⟩ scope)) :=
    .mapM Has.mono fun _ hmem => hpart (hsub hmem)
  have hcall (w₁ : Origins) (hw₁ : w' ≤ w₁) (f : Value) (args : List Value) (hf : w₁.Has f)
      (hargs : w₁.HasAll args) := h.call (hw.trans hw₁) r calls hf hargs
  have htarget {w₁ : Origins} (hw₁ : w' ≤ w₁) {target : Expr} (hsub : target.targetParts ⊆ e.parts)
      {v : Value} (hv : w₁.Has v) :
      w₁.Traces Any (assignTo (Routine.eval bound ⟨ask, r, calls⟩ scope) scope target v) :=
    .assignTo scope (fun _ hmem => (hpart (hsub hmem)).mono hw₁) hv
  cases e with
  | number | text | bool | null | undefined => exact .pure fun _ _ => trivial
  | arrow site params body => exact .value (has_closure_iff.mpr he)
  | name s => exact .valueOf scope s
  | array items =>
    exact (hargs fun _ hmem => hmem).bind fun w₁ _ vs hvs =>
      .quiet fun w₂ hw₂ => .newArray (HasAll.mono hw₂ hvs)
  | object members =>
    refine (Traces.mapM (Q := fun w₁ (e : String × Value) => w₁.Has e.2)
      (fun hw₁ _ h => h.mono hw₁) fun member hmem => ?_).bind fun w₁ _ vs hvs =>
        .quiet fun w₂ hw₂ => .newObject fun e hmem => (hvs e hmem).mono hw₂
    exact (hpart (List.mem_map_of_mem hmem)).bind fun w₁ _ v hv => .pure fun _ hw₂ => hv.mono hw₂
  | member object property optional =>
    exact (hpart (p := object) (by simp [Expr.parts])).bind fun w₁ _ v hv =>
      .optionally optional v (.quiet fun w₂ hw₂ => .getProperty (hv.mono hw₂) property)
  | index object key optional =>
    exact (hpart (p := object) (by simp [Expr.parts])).bind fun w₁ hw₁ v hv =>
      .optionally optional v (((hpart (p := key) (by simp [Expr.parts])).mono hw₁).bind
        fun w₂ hw₂ key _ => .quiet fun w₃ hw₃ => .getItem (hv.mono (hw₂.trans hw₃)) key)
  | call callee args optional =>
    have hsub : args ⊆ (Expr.call callee args optional).parts := by
      intro arg harg
      simp [Expr.parts, harg]
    cases callee with
    | member object property optional' =>
      refine (hpart (p := object) (by simp [Expr.parts, Expr.targetParts])).bind
        fun w₁ hw₁ v _ => .optionally optional' v ?_
      refine ((hargs hsub).mono hw₁).bind fun w₂ hw₂ vs hvs => ?_
      exact .callMethod (fun w₃ hw₃ => hcall w₃ ((hw₁.trans hw₂).trans hw₃)) v property hvs
    | index object key optional' =>
      refine (hpart (p := object) (by simp [Expr.parts, Expr.targetParts])).bind
        fun w₁ hw₁ v _ => .optionally optional' v ?_
      refine ((hpart (p := key) (by simp [Expr.parts, Expr.targetParts])).mono hw₁).bind
        fun w₂ hw₂ k _ => .look (.textOf k) fun property => ?_
      refine ((hargs hsub).mono (hw₁.trans hw₂)).bind fun w₃ hw₃ vs hvs => ?_
      exact .callMethod (fun w₄ hw₄ => hcall w₄ (((hw₁.trans hw₂).trans hw₃).trans hw₄)) v
        property hvs
    | _ =>
      refine (hpart (by simp only [Expr.parts]; exact List.mem_cons_self)).bind
        fun w₁ hw₁ f hf => .optionally optional f ?_
      exact ((hargs hsub).mono hw₁).bind fun w₂ hw₂ vs hvs =>
        hcall w₂ (hw₁.trans hw₂) f vs (hf.mono hw₂) hvs
  | unary op operand =>
    exact (hpart (p := operand) (by simp [Expr.parts])).bind fun w₁ _ v _ =>
      .finite fun _ _ _ _ => Realm.Quiet.has_of_unary
  | binary op left right =>
    exact (hpart (p := left) (by simp [Expr.parts])).bind fun w₁ hw₁ _ _ =>
      ((hpart (p := right) (by simp [Expr.parts])).mono hw₁).bind fun w₂ _ _ _ =>
        .finite fun _ _ _ _ => Realm.Quiet.has_of_binary
  | logical op left right =>
    refine (hpart (p := left) (by simp [Expr.parts])).bind fun w₁ hw₁ v hv => ?_
    split
    · exact .value hv
    · exact (hpart (by simp [Expr.parts])).mono hw₁
  | conditional test yes no =>
    refine (hpart (p := test) (by simp [Expr.parts])).bind fun w₁ hw₁ v _ => ?_
    split
    · exact (hpart (by simp [Expr.parts])).mono hw₁
    · exact (hpart (by simp [Expr.parts])).mono hw₁
  | assign op target value =>
    have hsub : target.targetParts ⊆ (Expr.assign op target value).parts := by
      intro part hmem
      simp [Expr.parts, hmem]
    cases op with
    | some op =>
      refine (hpart (p := target) (by simp [Expr.parts])).bind fun w₁ hw₁ old _ => ?_
      refine ((hpart (p := value) (by simp [Expr.parts])).mono hw₁).bind fun w₂ hw₂ operand _ => ?_
      refine .look .heap fun g => ?_
      have hcomputed : w₂.Traces Has (Run.finite (g.binary op old operand)) :=
        .quiet fun _ _ => .finite fun _ => Realm.Quiet.has_of_binary
      refine hcomputed.bind fun w₃ hw₃ v hv => ?_
      exact (htarget ((hw₁.trans hw₂).trans hw₃) hsub hv).bind fun w₄ hw₄ _ _ =>
        .value (hv.mono hw₄)
    | none =>
      refine (hpart (p := value) (by simp [Expr.parts])).bind fun w₁ hw₁ v hv => ?_
      exact (htarget hw₁ hsub hv).bind fun w₂ hw₂ _ _ => .value (hv.mono hw₂)
  | update up leading target =>
    have hsub : target.targetParts ⊆ (Expr.update up leading target).parts := by
      intro part hmem
      simp [Expr.parts, hmem]
    refine (hpart (p := target) (by simp [Expr.parts])).bind fun w₁ hw₁ v _ =>
      .look (.numberOf v) fun old => ?_
    have hcounted : w₁.Has (.number (counted up old)) := trivial
    exact (htarget hw₁ hsub hcounted).andThen fun _ => .pure fun _ _ => trivial

theorem Everything.exec_succ (hw : w ≤ w') (r calls : Nat) (scope : Scope) {s : Stmt}
    (hstmt : w'.AdmitsStmt r s) :
    w'.Traces HasFlow (Routine.exec (bound + 1) ⟨ask, r, calls⟩ scope s) := by
  have he (scope : Scope) {e : Expr} (hmem : e ∈ s.exprs) :
      w'.Traces Has (Routine.eval bound ⟨ask, r, calls⟩ scope e) :=
    h.eval hw r calls scope (Stmt.every_exprs hstmt e hmem)
  have hx (scope : Scope) {p : Stmt} (hmem : p ∈ s.stmts) :
      w'.Traces HasFlow (Routine.exec bound ⟨ask, r, calls⟩ scope p) :=
    h.exec hw r calls scope (Stmt.every_stmts hstmt p hmem)
  cases s with
  | empty | leave | skip => exact .pure fun _ _ => trivial
  | expr e =>
    exact (he scope (by simp [Stmt.exprs])).bind fun _ _ _ _ => .pure fun _ _ => trivial
  | declare kind bindings =>
    refine (Traces.forM fun b hmem => ?_).andThen fun _ => .pure fun _ _ => trivial
    obtain ⟨name, value⟩ := b
    cases value with
    | none =>
      have hundefined : w'.Has .undefined := trivial
      exact .declareName scope name hundefined _
    | some e =>
      have hmem : e ∈ (Stmt.declare kind bindings).exprs := List.mem_filterMap.mpr ⟨_, hmem, rfl⟩
      exact (he scope hmem).bind fun w₁ _ v hv => .declareName scope name hv _
  | block stmts =>
    exact (Traces.withFrame scope).andThen fun inner => .inOrder fun _ hmem => hx inner hmem
  | branch test yes no =>
    refine (he scope (e := test) (by simp [Stmt.exprs])).bind fun w₁ hw₁ v _ => ?_
    split
    · exact (hx scope (by simp [Stmt.stmts])).mono hw₁
    · cases no with
      | none => exact .pure fun _ _ => trivial
      | some no => exact (hx scope (by simp [Stmt.stmts])).mono hw₁
  | each head kind name source body =>
    have hround {w₁ : Origins} (hw₁ : w' ≤ w₁) {v : Value} (hv : w₁.Has v) :=
      Traces.eachRound kind name scope
        (fun inner => (hx inner (p := body) (by simp [Stmt.stmts])).mono hw₁) hv
    refine (he scope (e := source) (by simp [Stmt.exprs])).bind fun w₁ hw₁ v hv => ?_
    cases head with
    | items =>
      exact (Traces.quiet fun w₂ hw₂ => .itemsIn (hv.mono hw₂)).bind
        fun w₂ hw₂ vs hvs => .eachItem fun v hmem => hround (hw₁.trans hw₂) (hvs v hmem)
    | keys =>
      exact (Traces.quiet fun w₂ _ => .keysIn v).bind
        fun w₂ hw₂ vs hvs => .eachItem fun v hmem => hround (hw₁.trans hw₂) (hvs v hmem)
  | loop init test update body =>
    refine (Traces.withFrame scope).andThen fun inner => ?_
    have hround (goesOn : Bool) := Traces.countedRound
      (fun e (hmem : e ∈ update) => he inner (e := e) (by simp_all [Stmt.exprs]))
      (hx inner (p := body) (by simp [Stmt.stmts])) goesOn
    have hrounds : w'.Traces HasFlow (repeatedly
        (testedRound (Routine.eval bound ⟨ask, r, calls⟩ inner)
          (Routine.exec bound ⟨ask, r, calls⟩ inner) test update body) bound) := by
      refine .repeatedly ?_ bound
      cases test with
      | none => exact hround true
      | some test =>
        exact (he inner (e := test) (by simp [Stmt.exprs])).bind
          fun _ hw₁ v _ => (hround v.truthy).mono hw₁
    cases init with
    | none => exact hrounds
    | some init =>
      exact (hx inner (p := init) (by simp [Stmt.stmts])).bind fun _ hw₁ _ _ => hrounds.mono hw₁
  | repeatWhile test body =>
    refine .repeatedly ((he scope (e := test) (by simp [Stmt.exprs])).bind fun w₁ hw₁ v _ => ?_)
      bound
    split
    · exact ((hx scope (p := body) (by simp [Stmt.stmts])).mono hw₁).bind
        fun _ _ flow hflow => .ending hflow.afterRound
    · refine .pure fun _ _ flow hflow => ?_
      cases hflow
      trivial
  | giveBack value =>
    cases value with
    | none => exact .pure fun _ _ => trivial
    | some e =>
      exact (he scope (by simp [Stmt.exprs])).bind fun w₁ _ v hv => .pure fun _ hw₂ => hv.mono hw₂
  | raise e =>
    exact (he scope (e := e) (by simp [Stmt.exprs])).bind fun w₁ _ v _ =>
      .look (Realm.Quiet.looks_raisedText v) fun _ => .fail _
  | within object guarded body =>
    refine (he scope (e := object) (by simp [Stmt.exprs])).bind fun w₁ hw₁ v _ => ?_
    exact (Traces.withFrame _).andThen fun inner => .inOrder fun _ hmem => (hx inner hmem).mono hw₁

theorem Everything.call_succ (hask : w.Serves ask) (hw : w ≤ w') (r calls : Nat) {f : Value}
    {args : List Value} (hf : w'.Has f) (hargs : w'.HasAll args) :
    w'.Traces Has (callValue (bound + 1) ⟨ask, r, calls⟩ f args) := by
  cases f with
  | native name code identity =>
    cases calls with
    | zero => exact .fail _
    | succ calls =>
      cases code with
      | builtin b => exact .quiet fun w₁ hw₁ => .builtin b (HasAll.mono hw₁ hargs)
      | service s => exact hask s args w' hw hargs
  | closure own site params body scope =>
    cases calls with
    | zero => exact .fail _
    | succ calls =>
      have hwritten := has_closure_iff.mp hf
      refine (Traces.withFrame scope).andThen fun inner =>
        (Traces.bindParams inner params hargs).andThen fun _ => ?_
      simp only [Admits, Realm.Admits, Expr.every, Bool.and_eq_true] at hwritten
      cases body with
      | expr e => exact h.eval hw own calls inner hwritten.2
      | block stmts =>
        refine (Traces.inOrder fun s hmem => h.exec hw own calls inner ?_).bind
          fun _ _ flow hflow => .value hflow.result
        exact (stmtsEvery_iff stmts).mp hwritten.2 s hmem
  | undefined | null | bool | number | text | array | object =>
    exact .look (.textOf _) fun _ => .fail _

end Layers

/-- All runs that ask for what keeps to what was made do so as well. -/
theorem everything {ask : Service → List Value → Run Value} (hask : w.Serves ask) (bound : Nat) :
    w.Everything ask bound := by
  induction bound with
  | zero =>
    exact ⟨fun _ _ _ _ _ _ => .endless, fun _ _ _ _ _ _ => .endless,
      fun _ _ _ _ _ _ _ => .endless⟩
  | succ bound ih => exact ⟨ih.eval_succ, ih.exec_succ, ih.call_succ hask⟩

/-- A routine that was compiled, as a whole. -/
theorem Traces.run {ask : Service → List Value → Run Value} (hask : w.Serves ask) {c : Compiled}
    (hc : w.Compiles c) (bound calls : Nat) {args : List Value} (hargs : w.HasAll args) :
    w.Traces Has (c.program.run bound ⟨ask, c.number, calls⟩ args) := by
  refine (withFrame []).andThen fun outer => (bindParams outer _ hargs).andThen fun _ =>
    (withFrame outer).andThen fun inner => ?_
  refine (inOrder fun s hs => ?_).bind fun _ _ flow hflow => value hflow.result
  have hwritten : w.AdmitsStmt c.number s :=
    admitsStmt_iff.mpr fun a ha => hc.writes (mem_stmtsArrows ha hs)
  exact (everything hask bound).exec le_rfl c.number calls inner hwritten

end Stencil.Routine.Origins
