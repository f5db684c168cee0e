import Stencil.Routine.Evaluate

/-!
# Runs that differ only in what they are told

A running routine touches the heap and asks its surroundings for services, and that is all it does
to a store.  `Alike` relates two runs that take the same steps, except that the one asks through
`ask` and the other through `ask'`.  What the steps do is fixed here once: a fact about runs follows
by induction on `Alike` as soon as it holds of the six kinds of steps.

* `Failure.isOrdinary` — the failures that a routine can have by itself;
* `Alike` — the relation;
* `EvaluationAlike`, `Alike.evaluation` — expressions, statements and calls;
* `Alike.programRun` — a whole routine.
-/

namespace Stencil.Routine

/-- Whether a routine can fail in this way by itself, not through its surroundings. -/
def Failure.isOrdinary : Failure → Bool
  | .arity _ _ => false
  | .noEngine => false
  | .fragmentSource _ => false
  | .noFragment _ => false
  | .fragmentDepth _ => false
  | .reported _ _ => false
  | _ => true

/-- Runs that take the same steps, except that the one asks through `ask` and the other through
`ask'`. -/
inductive Alike (ask ask' : Service → List Value → Run Value) :
    {α : Type} → Run α → Run α → Prop where
  | pure {α : Type} (a : α) : Alike ask ask' (Pure.pure a : Run α) (Pure.pure a)
  | bind {α β : Type} {m m' : Run α} {f f' : α → Run β} :
    Alike ask ask' m m' → (∀ a, Alike ask ask' (f a) (f' a)) →
      Alike ask ask' (m >>= f) (m' >>= f')
  | make {α : Type} (f : Heap → α × Heap) : Alike ask ask' (Run.make f) (Run.make f)
  | fail {α : Type} (f : Failure) (h : f.isOrdinary = true) :
    Alike ask ask' (Run.fail f : Run α) (Run.fail f)
  | endless {α : Type} : Alike ask ask' (Run.endless : Run α) Run.endless
  | ask (s : Service) (args : List Value) : Alike ask ask' (ask s args) (ask' s args)

/-- Goes on with what an act on the heap made. -/
def Run.resume {α : Type} : Except Failure α → Run α
  | .ok a => Pure.pure a
  | .error e => Run.fail e

/-- A round of a loop over what is visited, with what it visits under a name. -/
def eachRound (kind : Option DeclKind) (name : String) (scope : Scope) (run : Scope → Run Flow)
    (v : Value) : Run Flow := do
  let inner ← withFrame scope
  match kind with
  | some kind => declareName inner name v kind.changeable
  | none => assignName inner name v
  run inner

/-- A round of a counted loop, if the loop goes on: its body and, unless that ends the loop, its
counting. -/
def countedRound (evaluate : Expr → Run Value) (run : Stmt → Run Flow) (update : Option Expr)
    (body : Stmt) (goesOn : Bool) : Run (Option Flow) := do
  if goesOn then
    match (← run body).afterRound with
    | some flow => return some flow
    | none =>
      if let some update := update then
        let _ ← evaluate update
      return none
  else return some .onward

/-- A round of a counted loop behind its test. -/
def testedRound (evaluate : Expr → Run Value) (run : Stmt → Run Flow) (test update : Option Expr)
    (body : Stmt) : Run (Option Flow) := do
  let goesOn ← match test with
    | some test => do pure (← evaluate test).truthy
    | none => pure true
  countedRound evaluate run update body goesOn

namespace Alike

variable {ask ask' : Service → List Value → Run Value} {α β : Type}

/-! ### Steps on the heap -/

theorem heap : Alike ask ask' Run.heap Run.heap := by
  have h : Run.heap = Run.make fun h => (h, h) := rfl
  rw [h]
  exact .make _

theorem change (f : Heap → Heap) : Alike ask ask' (Run.change f) (Run.change f) := by
  have h : Run.change f = Run.make fun h => ((), f h) := rfl
  rw [h]
  exact .make _

theorem finite (a : Option α) : Alike ask ask' (Run.finite a) (Run.finite a) := by
  cases a with
  | none => exact .endless
  | some a => exact .pure a

theorem textOf (v : Value) : Alike ask ask' (Run.textOf v) (Run.textOf v) :=
  .bind .heap fun _ => .finite _

theorem numberOf (v : Value) : Alike ask ask' (Run.numberOf v) (Run.numberOf v) :=
  .bind .heap fun _ => .finite _

theorem newArray (items : Array Value) : Alike ask ask' (Run.newArray items) (Run.newArray items) :=
  .make _

theorem newObject (members : Roster Value) :
    Alike ask ask' (Run.newObject members) (Run.newObject members) :=
  .make _

/-- An act on the heap, if it fails only in ordinary ways. -/
theorem attempt {f : Heap → Except Failure α × Heap}
    (h : ∀ heap e, (f heap).1 = .error e → e.isOrdinary = true) :
    Alike ask ask' (Run.attempt f) (Run.attempt f) := by
  -- The results that `f` can have, with the proof that a failure among them is ordinary.
  let g : Heap → { r : Except Failure α // ∀ e, r = .error e → e.isOrdinary = true } × Heap :=
    fun heap => (⟨(f heap).1, h heap⟩, (f heap).2)
  have hg : Run.attempt f = Run.make g >>= fun r => Run.resume r.1 := rfl
  rw [hg]
  refine .bind (.make g) ?_
  intro r
  obtain ⟨r, hr⟩ := r
  cases r with
  | ok a => exact .pure a
  | error e => exact .fail e (hr e rfl)

/-! ### Along lists -/

theorem mapM {f f' : α → Run β} (h : ∀ a, Alike ask ask' (f a) (f' a)) (as : List α) :
    Alike ask ask' (as.mapM f) (as.mapM f') := by
  induction as with
  | nil => exact .pure []
  | cons a as ih =>
    rw [List.mapM_cons, List.mapM_cons]
    exact .bind (h a) fun b => .bind ih fun bs => .pure (b :: bs)

theorem forM {f f' : α → Run PUnit} (h : ∀ a, Alike ask ask' (f a) (f' a)) (as : List α) :
    Alike ask ask' (as.forM f) (as.forM f') := by
  induction as with
  | nil => exact .pure _
  | cons a as ih => exact .bind (h a) fun _ => ih

theorem inOrder {run run' : Stmt → Run Flow} (h : ∀ s, Alike ask ask' (run s) (run' s))
    (ss : List Stmt) : Alike ask ask' (inOrder run ss) (inOrder run' ss) := by
  induction ss with
  | nil => exact .pure _
  | cons s ss ih =>
    refine .bind (h s) ?_
    intro flow
    cases flow with
    | onward => exact ih
    | leave => exact .pure _
    | skip => exact .pure _
    | giveBack v => exact .pure _

theorem eachItem {round round' : Value → Run Flow} (h : ∀ v, Alike ask ask' (round v) (round' v))
    (vs : List Value) : Alike ask ask' (eachItem round vs) (eachItem round' vs) := by
  induction vs with
  | nil => exact .pure _
  | cons v vs ih =>
    refine .bind (h v) ?_
    intro flow
    cases flow.afterRound with
    | none => exact ih
    | some flow => exact .pure _

theorem repeatedly {round round' : Run (Option Flow)} (h : Alike ask ask' round round')
    (bound : Nat) : Alike ask ask' (repeatedly round bound) (repeatedly round' bound) := by
  induction bound with
  | zero => exact .endless
  | succ bound ih =>
    refine .bind h ?_
    intro flow
    cases flow with
    | none => exact ih
    | some flow => exact .pure _

/-! ### Members, names and functions that every routine can name -/

theorem getProperty (v : Value) (key : String) :
    Alike ask ask' (getProperty v key) (getProperty v key) := by
  refine .bind .heap ?_
  intro h
  cases h.property? v key with
  | none => exact .fail _ rfl
  | some found => exact .pure found

theorem getItem (v key : Value) : Alike ask ask' (getItem v key) (getItem v key) :=
  .bind (.textOf key) fun _ => .getProperty _ _

theorem isOrdinary_of_setProperty {target : Value} {key : String} {v : Value} {h : Heap}
    {e : Failure} (he : (h.setProperty target key v).1 = .error e) : e.isOrdinary = true := by
  cases target with
  | undefined => cases he; rfl
  | null => cases he; rfl
  | array place =>
    rw [Heap.setProperty] at he
    cases hplace : placeOf? key with
    | none => simp [hplace] at he
    | some i =>
      simp only [hplace, Heap.setItem] at he
      split at he
      · cases he; rfl
      · cases he
  | bool | number | text | object | native | closure => cases he

theorem putProperty (target : Value) (key : String) (v : Value) :
    Alike ask ask' (putProperty target key v) (putProperty target key v) :=
  .attempt fun _ _ => isOrdinary_of_setProperty

theorem putItem (target key v : Value) :
    Alike ask ask' (putItem target key v) (putItem target key v) :=
  .bind (.textOf key) fun _ => .putProperty _ _ _

theorem itemsIn (v : Value) : Alike ask ask' (itemsIn v) (itemsIn v) := by
  cases v with
  | array place => exact .bind .heap fun _ => .pure _
  | text s => exact .pure _
  | undefined | null | bool | number | object | native | closure =>
    exact .bind (.textOf _) fun _ => .fail _ rfl

theorem keysIn (v : Value) : Alike ask ask' (keysIn v) (keysIn v) := by
  cases v with
  | array place => exact .bind .heap fun _ => .pure _
  | object place => exact .bind .heap fun _ => .pure _
  | undefined | null | bool | number | text | native | closure => exact .pure _

theorem isOrdinary_of_assign {h : Heap} {name : String} {v : Value} {scope : Scope} {e : Failure}
    (he : (h.assign name v scope).1 = .error e) : e.isOrdinary = true := by
  simp only [Heap.assign, Heap.assignAt] at he
  split at he
  · split at he
    · split at he
      · split at he <;> cases he
        rfl
      · cases he; rfl
    · cases he
    · cases he; rfl
  · cases he; rfl

theorem assignName (scope : Scope) (name : String) (v : Value) :
    Alike ask ask' (assignName scope name v) (assignName scope name v) :=
  .attempt fun _ _ => isOrdinary_of_assign

theorem valueOf (scope : Scope) (name : String) :
    Alike ask ask' (valueOf scope name) (valueOf scope name) := by
  refine .bind .heap ?_
  intro h
  cases h.find? name scope with
  | some v => exact .pure v
  | none =>
    dsimp only
    split
    · exact .fail _ rfl
    · cases global? name with
      | some value => exact .make value
      | none => exact .fail _ rfl

theorem numeric (f : Float → Float) (args : List Value) :
    Alike ask ask' (numeric f args) (numeric f args) :=
  .bind (.numberOf _) fun _ => .pure _

theorem builtin (b : Builtin) (args : List Value) :
    Alike ask ask' (b.apply args) (b.apply args) := by
  cases b with
  | string =>
    cases args with
    | nil => exact .pure _
    | cons v vs => exact .bind (.textOf v) fun _ => .pure _
  | number =>
    cases args with
    | nil => exact .pure _
    | cons v vs => exact .bind (.numberOf v) fun _ => .pure _
  | boolean => exact .pure _
  | parseInt => exact .bind (.textOf _) fun _ => .pure _
  | parseFloat => exact .bind (.textOf _) fun _ => .pure _
  | isNaN => exact .bind (.numberOf _) fun _ => .pure _
  | stringify =>
    refine .bind .heap fun _ => .bind (.finite _) fun json => ?_
    cases json with
    | none => exact .pure _
    | some json => exact .pure _
  | parse =>
    refine .bind (.textOf _) ?_
    intro s
    cases Json.read s with
    | ok json => exact .make _
    | error e => exact .fail _ rfl
  | keys => exact .bind (.keysIn _) fun _ => .newArray _
  | values =>
    exact .bind (.keysIn _) fun ks => .bind (.mapM (.getItem _) ks) fun _ => .newArray _
  | entries =>
    refine .bind (.keysIn _) fun ks => .bind (.mapM (fun key => ?_) ks) fun _ => .newArray _
    exact .bind (.getItem _ key) fun _ => .newArray _
  | isArray =>
    simp only [Builtin.apply]
    split <;> exact .pure _
  | floor | ceil | round | abs | sqrt | trunc => exact .numeric _ args
  | min | max => exact .bind (.mapM .numberOf args) fun _ => .pure _
  | pow => exact .bind (.numberOf _) fun _ => .bind (.numberOf _) fun _ => .pure _

/-! ### Methods -/

theorem placeArgument (v : Value) (length standard : Nat) :
    Alike ask ask' (placeArgument v length standard) (placeArgument v length standard) := by
  cases v with
  | undefined => exact .pure _
  | null | bool | number | text | array | object | native | closure =>
    exact .bind (.numberOf _) fun _ => .pure _

theorem naturalArgument (v : Value) :
    Alike ask ask' (naturalArgument v) (naturalArgument v) :=
  .bind (.numberOf v) fun _ => .pure _

theorem charsArgument (args : List Value) (i : Nat) :
    Alike ask ask' (charsArgument args i) (charsArgument args i) :=
  .bind (.textOf _) fun _ => .pure _

theorem splitText (cs : List Char) (args : List Value) :
    Alike ask ask' (splitText cs args) (splitText cs args) := by
  rw [Routine.splitText]
  split
  · exact .newArray _
  · exact .bind (.textOf _) fun _ => .newArray _

theorem repeatText (s : String) (count : Value) :
    Alike ask ask' (repeatText s count) (repeatText s count) := by
  refine .bind (.numberOf count) ?_
  intro x
  dsimp only
  split
  · exact .fail _ rfl
  · split
    · exact .pure _
    · split
      · exact .fail _ rfl
      · exact .pure _

theorem paddingFor (s : String) (args : List Value) :
    Alike ask ask' (paddingFor s args) (paddingFor s args) := by
  have rest : ∀ (target : Nat) (filler : List Char),
      Alike ask ask'
        (if target ≤ s.length || filler.isEmpty then Pure.pure ""
          else if textLengthLimit < target then Run.fail .textLength
          else Pure.pure (Text.filling filler (target - s.length)) : Run String)
        (if target ≤ s.length || filler.isEmpty then Pure.pure ""
          else if textLengthLimit < target then Run.fail .textLength
          else Pure.pure (Text.filling filler (target - s.length))) := by
    intro target filler
    split
    · exact .pure _
    · split
      · exact .fail _ rfl
      · exact .pure _
  refine .bind (.naturalArgument _) ?_
  intro target
  dsimp only
  split
  · exact rest target _
  · exact .bind (.textOf _) fun s => rest target _

theorem textMethod (m : TextMethod) (s : String) (args : List Value) :
    Alike ask ask' (m.apply s args) (m.apply s args) := by
  cases m with
  | upper | lower | trim | trimStart | trimEnd | itself => exact .pure _
  | includes | startsWith | endsWith => exact .bind (.charsArgument _ _) fun _ => .pure _
  | indexOf =>
    refine .bind (.charsArgument _ _) ?_
    intro needle
    cases Text.indexOf? needle s.toList with
    | some i => exact .pure _
    | none => exact .pure _
  | split => exact .splitText _ _
  | replace | replaceAll =>
    exact .bind (.charsArgument _ _) fun _ => .bind (.charsArgument _ _) fun _ => .pure _
  | slice | substring =>
    exact .bind (.placeArgument _ _ _) fun _ => .bind (.placeArgument _ _ _) fun _ => .pure _
  | charAt => exact .bind (.naturalArgument _) fun _ => .pure _
  | repeated => exact .repeatText _ _
  | padStart | padEnd => exact .bind (.paddingFor _ _) fun _ => .pure _

theorem numberMethod (m : NumberMethod) (x : Float) (args : List Value) :
    Alike ask ask' (m.apply x args) (m.apply x args) := by
  cases m with
  | fixed =>
    refine .bind (.naturalArgument _) ?_
    intro places
    split
    · exact .fail _ rfl
    · exact .pure _
  | text => exact .pure _

theorem itemsAt (place : Nat) : Alike ask ask' (itemsAt place) (itemsAt place) :=
  .bind .heap fun _ => .pure _

theorem spread (v : Value) : Alike ask ask' (spread v) (spread v) := by
  cases v with
  | array place => exact .itemsAt place
  | undefined | null | bool | number | text | object | native | closure => exact .pure _

theorem itemText (v : Value) : Alike ask ask' (itemText v) (itemText v) := by
  rw [Routine.itemText]
  split
  · exact .pure _
  · exact .textOf v

section Calls

variable {call call' : Caller} (hcall : ∀ f args, Alike ask ask' (call f args) (call' f args))
include hcall

theorem visit (f : Value) (array : Nat) (item : Value × Nat) :
    Alike ask ask' (visit call f array item) (visit call' f array item) :=
  hcall _ _

theorem carry (f : Value) (array : Nat) (items : List (Value × Nat)) (result : Value) :
    Alike ask ask' (carry call f array result items) (carry call' f array result items) := by
  induction items generalizing result with
  | nil => exact .pure _
  | cons item items ih => exact .bind (hcall _ _) fun v => ih v

end Calls

theorem firstWhere {test test' : Value × Nat → Run Value}
    (h : ∀ item, Alike ask ask' (test item) (test' item)) (wanted : Bool)
    (items : List (Value × Nat)) :
    Alike ask ask' (firstWhere test wanted items) (firstWhere test' wanted items) := by
  induction items with
  | nil => exact .pure _
  | cons item items ih =>
    refine .bind (h item) ?_
    intro v
    split
    · exact .pure _
    · exact ih

theorem itemsWhere {test test' : Value × Nat → Run Value}
    (h : ∀ item, Alike ask ask' (test item) (test' item)) (items : List (Value × Nat)) :
    Alike ask ask' (itemsWhere test items) (itemsWhere test' items) := by
  induction items with
  | nil => exact .pure _
  | cons item items ih =>
    refine .bind (h item) ?_
    intro v
    split
    · exact .bind ih fun _ => .pure _
    · exact ih

theorem arrayMethod {call call' : Caller}
    (hcall : ∀ f args, Alike ask ask' (call f args) (call' f args)) (m : ArrayMethod) (array : Nat)
    (args : List Value) : Alike ask ask' (m.apply call array args) (m.apply call' array args) := by
  have hvisit := fun item => visit hcall (argument args 0) array item
  cases m with
  | forEach =>
    refine .bind (.itemsAt array) ?_
    intro items
    exact .bind (.forM (fun item => .bind (hvisit item) fun _ => .pure _) _) fun _ => .pure _
  | map =>
    exact .bind (.itemsAt array) fun items => .bind (.mapM hvisit _) fun _ => .newArray _
  | filter =>
    exact .bind (.itemsAt array) fun items => .bind (.itemsWhere hvisit _) fun _ => .newArray _
  | find | findIndex =>
    refine .bind (.itemsAt array) fun items => .bind (.firstWhere hvisit _ _) fun found => ?_
    cases found with
    | none => exact .pure _
    | some item => exact .pure _
  | anyOf | allOf =>
    exact .bind (.itemsAt array) fun items => .bind (.firstWhere hvisit _ _) fun _ => .pure _
  | reduce =>
    refine .bind (.itemsAt array) ?_
    intro items
    dsimp only
    split
    · exact carry hcall _ _ _ _
    · split
      · exact .fail _ rfl
      · exact carry hcall _ _ _ _
  | join =>
    have rest (separator : String) :
        let joined : Run Value := do
          return .text (separator.intercalate
            (← (← Routine.itemsAt array).mapM Routine.itemText))
        Alike ask ask' joined joined :=
      .bind (.itemsAt array) fun items => .bind (.mapM .itemText items) fun _ => .pure _
    simp only [ArrayMethod.apply]
    split
    · exact rest ","
    · exact .bind (.textOf _) rest
  | includes => exact .bind (.itemsAt array) fun _ => .pure _
  | indexOf =>
    refine .bind (.itemsAt array) ?_
    intro items
    split <;> exact .pure _
  | push => exact .bind (.change _) fun _ => .bind .heap fun _ => .pure _
  | pop => exact .bind .heap fun _ => .bind (.change _) fun _ => .pure _
  | slice =>
    exact .bind (.itemsAt array) fun items => .bind (.placeArgument _ _ _) fun _ =>
      .bind (.placeArgument _ _ _) fun _ => .newArray _
  | reverse => exact .bind (.change _) fun _ => .pure _
  | concat =>
    exact .bind (.mapM .spread args) fun _ => .bind (.itemsAt array) fun _ => .newArray _
  | text => exact .bind (.textOf _) fun _ => .pure _

theorem callMember {call call' : Caller}
    (hcall : ∀ f args, Alike ask ask' (call f args) (call' f args)) (object : Nat) (name : String)
    (args : List Value) :
    Alike ask ask' (callMember call object name args) (callMember call' object name args) := by
  refine .bind .heap ?_
  intro h
  split
  · split
    · exact hcall _ _
    · exact .fail _ rfl
  · exact .fail _ rfl

theorem callMethod {call call' : Caller}
    (hcall : ∀ f args, Alike ask ask' (call f args) (call' f args)) (receiver : Value)
    (name : String) (args : List Value) :
    Alike ask ask' (callMethod call receiver name args) (callMethod call' receiver name args) := by
  cases receiver with
  | undefined | null | native | closure => exact .fail _ rfl
  | object place => exact callMember hcall place name args
  | array place =>
    simp only [Routine.callMethod]
    split
    · exact arrayMethod hcall _ _ _
    · exact .fail _ rfl
  | text s =>
    simp only [Routine.callMethod]
    split
    · exact .textMethod _ _ _
    · exact .fail _ rfl
  | number x =>
    simp only [Routine.callMethod]
    split
    · exact .numberMethod _ _ _
    · exact .fail _ rfl
  | bool b =>
    simp only [Routine.callMethod]
    split
    · exact .pure _
    · exact .fail _ rfl

/-! ### Variables and targets -/

theorem withFrame (scope : Scope) : Alike ask ask' (withFrame scope) (withFrame scope) :=
  .bind (.make _) fun _ => .pure _

theorem declareName (scope : Scope) (name : String) (v : Value) (changeable : Bool) :
    Alike ask ask' (declareName scope name v changeable) (declareName scope name v changeable) :=
  .change _

theorem bindParams (scope : Scope) (names : List String) (vs : List Value) :
    Alike ask ask' (bindParams scope names vs) (bindParams scope names vs) := by
  induction names generalizing vs with
  | nil => exact .pure _
  | cons name names ih =>
    cases vs with
    | nil => exact .bind (.declareName _ _ _ _) fun _ => ih []
    | cons v vs => exact .bind (.declareName _ _ _ _) fun _ => ih vs

theorem assignTo {evaluate evaluate' : Expr → Run Value}
    (h : ∀ e, Alike ask ask' (evaluate e) (evaluate' e)) (scope : Scope) (target : Expr)
    (v : Value) :
    Alike ask ask' (assignTo evaluate scope target v) (assignTo evaluate' scope target v) := by
  simp only [Routine.assignTo]
  split
  · exact .assignName _ _ _
  · exact .bind (h _) fun _ => .putProperty _ _ _
  · exact .bind (h _) fun _ => .bind (h _) fun _ => .putItem _ _ _
  · exact .fail _ rfl

theorem raisedText (v : Value) : Alike ask ask' (raisedText v) (raisedText v) := by
  simp only [Routine.raisedText]
  split
  · refine .bind .heap ?_
    intro h
    split
    · exact .textOf _
    · exact .textOf _
  · exact .textOf _

/-! ### Rounds of loops -/

theorem eachRound {run run' : Scope → Run Flow}
    (h : ∀ inner, Alike ask ask' (run inner) (run' inner)) (kind : Option DeclKind) (name : String)
    (scope : Scope) (v : Value) :
    Alike ask ask' (eachRound kind name scope run v) (eachRound kind name scope run' v) := by
  refine .bind (.withFrame scope) ?_
  intro inner
  cases kind with
  | some kind => exact .bind (.declareName _ _ _ _) fun _ => h inner
  | none => exact .bind (.assignName _ _ _) fun _ => h inner

theorem countedRound {evaluate evaluate' : Expr → Run Value} {run run' : Stmt → Run Flow}
    (he : ∀ e, Alike ask ask' (evaluate e) (evaluate' e))
    (hs : ∀ s, Alike ask ask' (run s) (run' s)) (update : Option Expr) (body : Stmt)
    (goesOn : Bool) :
    Alike ask ask' (countedRound evaluate run update body goesOn)
      (countedRound evaluate' run' update body goesOn) := by
  simp only [Routine.countedRound]
  split
  · refine .bind (hs body) ?_
    intro flow
    cases flow.afterRound with
    | some flow => exact .pure _
    | none =>
      cases update with
      | none => exact .pure _
      | some update => exact .bind (he update) fun _ => .pure _
  · exact .pure _

/-! ### Evaluation -/

/-- Expressions, statements and calls are alike below a bound. -/
structure EvaluationAlike (ask ask' : Service → List Value → Run Value) (bound : Nat) : Prop where
  eval (routine calls : Nat) (scope : Scope) (e : Expr) :
    Alike ask ask' (eval bound ⟨ask, routine, calls⟩ scope e)
      (eval bound ⟨ask', routine, calls⟩ scope e)
  exec (routine calls : Nat) (scope : Scope) (s : Stmt) :
    Alike ask ask' (exec bound ⟨ask, routine, calls⟩ scope s)
      (exec bound ⟨ask', routine, calls⟩ scope s)
  callValue (routine calls : Nat) (f : Value) (args : List Value) :
    Alike ask ask' (callValue bound ⟨ask, routine, calls⟩ f args)
      (callValue bound ⟨ask', routine, calls⟩ f args)

namespace EvaluationAlike

variable {bound : Nat} (ih : EvaluationAlike ask ask' bound)
include ih

theorem eval_succ (routine calls : Nat) (scope : Scope) (e : Expr) :
    Alike ask ask' (Routine.eval (bound + 1) ⟨ask, routine, calls⟩ scope e)
      (Routine.eval (bound + 1) ⟨ask', routine, calls⟩ scope e) := by
  have he := ih.eval routine calls scope
  have hargs := fun args => Alike.mapM he args
  have hcall := ih.callValue routine calls
  -- What follows the value in front of a selection, a call or an index.
  have optionally {rest rest' : Run Value} (optional : Bool) (v : Value)
      (h : Alike ask ask' rest rest') :
      Alike ask ask' (if optional && v.isNullish then Pure.pure .undefined else rest)
        (if optional && v.isNullish then Pure.pure .undefined else rest') := by
    split
    · exact .pure _
    · exact h
  cases e with
  | number | text | bool | null | undefined => exact .pure _
  | name s => exact .valueOf scope s
  | array items => exact .bind (hargs items) fun _ => .newArray _
  | object members =>
    exact .bind (.mapM (fun member => .bind (he _) fun _ => .pure _) members) fun _ => .newObject _
  | member object property optional =>
    exact .bind (he object) fun v => optionally optional v (.getProperty _ _)
  | index object key optional =>
    exact .bind (he object) fun v => optionally optional v (.bind (he key) fun _ => .getItem _ _)
  | call callee args optional =>
    have plain : Alike ask ask'
        (Routine.eval bound ⟨ask, routine, calls⟩ scope callee >>= fun f =>
          if optional && f.isNullish then Pure.pure .undefined
          else args.mapM (Routine.eval bound ⟨ask, routine, calls⟩ scope) >>=
            Routine.callValue bound ⟨ask, routine, calls⟩ f)
        (Routine.eval bound ⟨ask', routine, calls⟩ scope callee >>= fun f =>
          if optional && f.isNullish then Pure.pure .undefined
          else args.mapM (Routine.eval bound ⟨ask', routine, calls⟩ scope) >>=
            Routine.callValue bound ⟨ask', routine, calls⟩ f) :=
      .bind (he callee) fun f => optionally optional f (.bind (hargs args) fun vs => hcall f vs)
    cases callee with
    | member object property optional' =>
      exact .bind (he object) fun v =>
        optionally optional' v (.bind (hargs args) fun _ => .callMethod hcall _ _ _)
    | index object key optional' =>
      exact .bind (he object) fun v => optionally optional' v (.bind (he key) fun _ =>
        .bind (.textOf _) fun _ => .bind (hargs args) fun _ => .callMethod hcall _ _ _)
    | _ => exact plain
  | unary op operand => exact .bind (he operand) fun _ => .bind .heap fun _ => .finite _
  | binary op left right =>
    exact .bind (he left) fun _ => .bind (he right) fun _ => .bind .heap fun _ => .finite _
  | logical op left right =>
    refine .bind (he left) ?_
    intro v
    split
    · exact .pure _
    · exact he right
  | conditional test yes no =>
    refine .bind (he test) ?_
    intro v
    split
    · exact he yes
    · exact he no
  | assign op target value =>
    cases op with
    | none => exact .bind (he value) fun _ => .bind (.assignTo he _ _ _) fun _ => .pure _
    | some op =>
      exact .bind (he target) fun _ => .bind (he value) fun _ => .bind .heap fun _ =>
        .bind (.finite _) fun _ => .bind (.assignTo he _ _ _) fun _ => .pure _
  | update up leading target =>
    exact .bind (he target) fun _ => .bind (.numberOf _) fun _ =>
      .bind (.assignTo he _ _ _) fun _ => .pure _
  | arrow site params body => exact .pure _

theorem exec_succ (routine calls : Nat) (scope : Scope) (s : Stmt) :
    Alike ask ask' (Routine.exec (bound + 1) ⟨ask, routine, calls⟩ scope s)
      (Routine.exec (bound + 1) ⟨ask', routine, calls⟩ scope s) := by
  have he := ih.eval routine calls
  have hs := ih.exec routine calls
  cases s with
  | empty | leave | skip => exact .pure _
  | expr e => exact .bind (he scope e) fun _ => .pure _
  | declare kind bindings =>
    refine .bind (.forM (fun binding => ?_) bindings) fun _ => .pure _
    dsimp only
    split
    · exact .bind (he scope _) fun _ => .declareName _ _ _ _
    · exact .declareName _ _ _ _
  | block stmts => exact .bind (.withFrame scope) fun inner => .inOrder (hs inner) stmts
  | branch test yes no =>
    refine .bind (he scope test) ?_
    intro v
    split
    · exact hs scope yes
    · split
      · exact hs scope _
      · exact .pure _
  | each head kind name source body =>
    have round (v : Value) :=
      Alike.eachRound (fun inner => hs inner body) kind name scope v
    refine .bind (he scope source) ?_
    intro v
    cases head with
    | items => exact .bind (.itemsIn v) fun visited => .eachItem round visited
    | keys => exact .bind (.keysIn v) fun visited => .eachItem round visited
  | loop init test update body =>
    refine .bind (.withFrame scope) ?_
    intro inner
    have round (goesOn : Bool) :=
      Alike.countedRound (he inner) (hs inner) update body goesOn
    cases init with
    | none =>
      refine .repeatedly ?_ bound
      cases test with
      | none => exact round true
      | some test => exact .bind (he inner test) fun v => round v.truthy
    | some init =>
      refine .bind (hs inner init) fun _ => .repeatedly ?_ bound
      cases test with
      | none => exact round true
      | some test => exact .bind (he inner test) fun v => round v.truthy
  | repeatWhile test body =>
    refine .repeatedly (.bind (he scope test) fun v => ?_) bound
    split
    · exact .bind (hs scope body) fun _ => .pure _
    · exact .pure _
  | giveBack value =>
    cases value with
    | none => exact .pure _
    | some e => exact .bind (he scope e) fun _ => .pure _
  | raise e => exact .bind (he scope e) fun _ => .bind (.raisedText _) fun _ => .fail _ rfl
  | within object guarded body =>
    exact .bind (he scope object) fun _ =>
      .bind (.withFrame _) fun inner => .inOrder (hs inner) body

theorem callValue_succ (routine calls : Nat) (f : Value) (args : List Value) :
    Alike ask ask' (Routine.callValue (bound + 1) ⟨ask, routine, calls⟩ f args)
      (Routine.callValue (bound + 1) ⟨ask', routine, calls⟩ f args) := by
  cases f with
  | native name code identity =>
    cases calls with
    | zero => exact .fail _ rfl
    | succ calls =>
      cases code with
      | builtin b => exact .builtin b args
      | service s => exact .ask s args
  | closure own site params body scope =>
    cases calls with
    | zero => exact .fail _ rfl
    | succ calls =>
      refine .bind (.withFrame scope) fun inner => .bind (.bindParams inner params args) fun _ => ?_
      cases body with
      | expr e => exact ih.eval own calls inner e
      | block stmts => exact .bind (.inOrder (ih.exec own calls inner) stmts) fun _ => .pure _
  | undefined | null | bool | number | text | array | object =>
    exact .bind (.textOf _) fun _ => .fail _ rfl

end EvaluationAlike

/-- Expressions, statements and calls are alike. -/
theorem evaluation (bound : Nat) : EvaluationAlike ask ask' bound := by
  induction bound with
  | zero =>
    refine ⟨fun _ _ _ _ => ?_, fun _ _ _ _ => ?_, fun _ _ _ _ => ?_⟩
    · rw [Routine.eval]
      exact .endless
    · rw [Routine.exec]
      exact .endless
    · rw [Routine.callValue]
      exact .endless
  | succ bound ih => exact ⟨ih.eval_succ, ih.exec_succ, ih.callValue_succ⟩

/-- Whole routines are alike. -/
theorem programRun (p : Program) (bound routine calls : Nat) (args : List Value) :
    Alike ask ask' (p.run bound ⟨ask, routine, calls⟩ args)
      (p.run bound ⟨ask', routine, calls⟩ args) :=
  .bind (.withFrame []) fun outer => .bind (.bindParams outer p.params args) fun _ =>
    .bind (.withFrame outer) fun inner =>
      .bind (.inOrder ((evaluation bound).exec routine calls inner) p.body) fun _ => .pure _

end Alike

end Stencil.Routine
