import Stencil.Proofs.Alike
import Stencil.Template.Generate

/-!
# Runs that record their output

What a template writes is added to one variable, so nothing tells afterwards which pieces were
written and when.  A recording run does the same as a run and keeps the pieces besides.

* `Recording` — steps of a run that keep a record;
* `Heap.written?` — the text that an assignment adds to the output;
* `Recording.eval`, `Recording.exec`, `Recording.callValue`, `Recording.program` — what runs do,
  with a record;
* `Forgets` — a recording run that is a given run as soon as its record is forgotten;
* `faithful`, `forgets_program` — the recorded runs are the runs.

An assignment that adds to a variable reads the variable before it evaluates what is to be added.
Whatever is written in between is lost, and the record goes back to what it was.
-/

namespace Stencil.Routine

open Template

/-- Runs that keep a record of what they write, the earliest piece in front. -/
abbrev Recording : Type → Type := StateT (List String) Run

/-- Whether the link that has a name is a frame of variables. -/
def Heap.isVariable (h : Heap) (name : String) (scope : Scope) : Bool :=
  match h.holder? name scope with
  | some (.locals _) => true
  | _ => false

/-- The text that an assignment adds to the output: that of the operand, if it is added to the
variable of the output. -/
def Heap.written? (h : Heap) (scope : Scope) : BinaryOp → Expr → Value → Option String
  | .add, .name s, operand =>
    if s = outputName ∧ h.isVariable s scope then h.display operand else none
  | _, _, _ => none

namespace Recording

/-! ### Statements in a row and loops -/

/-- Runs statements one after the other, as long as each lets the next follow. -/
def inOrder (run : Stmt → Recording Flow) : List Stmt → Recording Flow
  | [] => return .onward
  | s :: ss => do
    match ← run s with
    | .onward => inOrder run ss
    | flow => return flow

/-- A loop with a round for each value. -/
def eachItem (round : Value → Recording Flow) : List Value → Recording Flow
  | [] => return .onward
  | v :: vs => do
    match (← round v).afterRound with
    | some flow => return flow
    | none => eachItem round vs

/-- Takes rounds until one says how the loop ends. -/
def repeatedly (round : Recording (Option Flow)) : Nat → Recording Flow
  | 0 => Run.endless
  | bound + 1 => do
    match ← round with
    | some flow => return flow
    | none => repeatedly round bound

/-- A round of a loop over what is visited, with what it visits under a name. -/
def eachRound (kind : Option DeclKind) (name : String) (scope : Scope)
    (run : Scope → Recording Flow) (v : Value) : Recording Flow := do
  let inner ← withFrame scope
  match kind with
  | some kind => declareName inner name v kind.changeable
  | none => assignName inner name v
  run inner

/-- A round of a counted loop, if the loop goes on. -/
def countedRound (evaluate : Expr → Recording Value) (run : Stmt → Recording Flow)
    (update : Option Expr) (body : Stmt) (goesOn : Bool) : Recording (Option Flow) := do
  if goesOn then
    match (← run body).afterRound with
    | some flow => return some flow
    | none =>
      if let some update := update then
        let _ ← evaluate update
      return none
  else return some .onward

/-- Gives the target of an assignment a value. -/
def assignTo (evaluate : Expr → Recording Value) (scope : Scope) (target : Expr) (v : Value) :
    Recording Unit := do
  match target with
  | .name s => assignName scope s v
  | .member object property _ => putProperty (← evaluate object) property v
  | .index object key _ => do
    let object ← evaluate object
    putItem object (← evaluate key) v
  | _ => Run.fail .target

/-! ### Methods that call functions -/

/-- How functions are called. -/
abbrev Caller : Type := Value → List Value → Recording Value

/-- Calls a function with an item, its place and the array. -/
def visit (call : Caller) (f : Value) (array : Nat) (item : Value × Nat) : Recording Value :=
  call f [item.1, countValue item.2, .array array]

/-- The first item of which the test is as wanted. -/
def firstWhere (test : Value × Nat → Recording Value) (wanted : Bool) :
    List (Value × Nat) → Recording (Option (Value × Nat))
  | [] => return none
  | item :: items => do
    if (← test item).truthy == wanted then return some item
    else firstWhere test wanted items

/-- The items of which the test succeeds. -/
def itemsWhere (test : Value × Nat → Recording Value) :
    List (Value × Nat) → Recording (List Value)
  | [] => return []
  | item :: items => do
    if (← test item).truthy then return item.1 :: (← itemsWhere test items)
    else itemsWhere test items

/-- Carries a result along the items. -/
def carry (call : Caller) (f : Value) (array : Nat) : Value → List (Value × Nat) → Recording Value
  | result, [] => return result
  | result, item :: items => do
    carry call f array (← call f [result, item.1, countValue item.2, .array array]) items

/-- What the array at a place answers.  A method that calls no function is asked as in any run, with
functions that nobody calls. -/
def arrayMethod (call : Caller) (m : ArrayMethod) (array : Nat) (args : List Value) :
    Recording Value :=
  let f := argument args 0
  match m with
  | .forEach => do
    (placed (← itemsAt array)).forM fun item => do let _ ← visit call f array item
    return .undefined
  | .map => do
    let made ← (placed (← itemsAt array)).mapM (visit call f array)
    Run.newArray made.toArray
  | .filter => do
    let kept ← itemsWhere (visit call f array) (placed (← itemsAt array))
    Run.newArray kept.toArray
  | .find => do
    match ← firstWhere (visit call f array) true (placed (← itemsAt array)) with
    | some item => return item.1
    | none => return .undefined
  | .findIndex => do
    match ← firstWhere (visit call f array) true (placed (← itemsAt array)) with
    | some item => return countValue item.2
    | none => return .number (-1.0)
  | .anyOf => do
    return .bool (← firstWhere (visit call f array) true (placed (← itemsAt array))).isSome
  | .allOf => do
    return .bool (← firstWhere (visit call f array) false (placed (← itemsAt array))).isNone
  | .reduce => do
    let items := placed (← itemsAt array)
    match args[1]? with
    | some start => carry call f array start items
    | none =>
      match items with
      | [] => Run.fail .emptyReduce
      | first :: rest => carry call f array first.1 rest
  | m => m.apply (fun _ _ => Run.endless) array args

/-- Calls the member of an object. -/
def callMember (call : Caller) (object : Nat) (name : String) (args : List Value) :
    Recording Value := do
  match ((← Run.heap).members object).get? name with
  | some f => if f.isFunction then call f args else Run.fail (.notCallable name)
  | none => Run.fail (.notCallable name)

/-- Calls what a value has under a name. -/
def callMethod (call : Caller) (receiver : Value) (name : String) (args : List Value) :
    Recording Value :=
  match receiver with
  | .object place => callMember call place name args
  | .array place =>
    match ArrayMethod.ofName? name with
    | some m => arrayMethod call m place args
    | none => Run.fail (.notCallable ("array." ++ name))
  | v => Routine.callMethod (fun _ _ => Run.endless) v name args

/-! ### Evaluation -/

mutual

/-- The value of an expression. -/
def eval : Nat → Surroundings → Scope → Expr → Recording Value
  | 0, _, _, _ => Run.endless
  | bound + 1, around, scope, e =>
    match e with
    | .number x => return .number x
    | .text s => return .text s
    | .bool b => return .bool b
    | .null => return .null
    | .undefined => return .undefined
    | .name s => valueOf scope s
    | .array items => do
      let vs ← items.mapM (eval bound around scope)
      Run.newArray vs.toArray
    | .object members => do
      let vs ← members.mapM fun member => do return (member.1, ← eval bound around scope member.2)
      Run.newObject (.ofList vs)
    | .member object property optional => do
      let v ← eval bound around scope object
      if optional && v.isNullish then return .undefined
      else getProperty v property
    | .index object key optional => do
      let v ← eval bound around scope object
      if optional && v.isNullish then return .undefined
      else
        let key ← eval bound around scope key
        getItem v key
    | .call (.member object property optional) args _ => do
      let v ← eval bound around scope object
      if optional && v.isNullish then return .undefined
      else
        let vs ← args.mapM (eval bound around scope)
        callMethod (callValue bound around) v property vs
    | .call (.index object key optional) args _ => do
      let v ← eval bound around scope object
      if optional && v.isNullish then return .undefined
      else
        let key ← eval bound around scope key
        let property ← Run.textOf key
        let vs ← args.mapM (eval bound around scope)
        callMethod (callValue bound around) v property vs
    | .call callee args optional => do
      let f ← eval bound around scope callee
      if optional && f.isNullish then return .undefined
      else
        let vs ← args.mapM (eval bound around scope)
        callValue bound around f vs
    | .unary op operand => do
      let v ← eval bound around scope operand
      Run.finite ((← Run.heap).unary op v)
    | .binary op left right => do
      let a ← eval bound around scope left
      let b ← eval bound around scope right
      Run.finite ((← Run.heap).binary op a b)
    | .logical op left right => do
      let v ← eval bound around scope left
      if op.settledBy v then return v
      else eval bound around scope right
    | .conditional test yes no => do
      if (← eval bound around scope test).truthy then eval bound around scope yes
      else eval bound around scope no
    | .assign none target value => do
      let v ← eval bound around scope value
      assignTo (eval bound around scope) scope target v
      return v
    | .assign (some op) target value => do
      let before ← get
      let old ← eval bound around scope target
      let operand ← eval bound around scope value
      let h ← Run.heap
      let v ← Run.finite (h.binary op old operand)
      assignTo (eval bound around scope) scope target v
      -- What the operand wrote is lost with the old value that it was written to.
      if let some piece := h.written? scope op target operand then set (before ++ [piece])
      return v
    | .update up leading target => do
      let v ← eval bound around scope target
      let old ← Run.numberOf v
      assignTo (eval bound around scope) scope target (.number (counted up old))
      return .number (if leading then counted up old else old)
    | .arrow site params body => return .closure around.routine site params body scope

/-- How a statement ends. -/
def exec : Nat → Surroundings → Scope → Stmt → Recording Flow
  | 0, _, _, _ => Run.endless
  | bound + 1, around, scope, s =>
    match s with
    | .empty => return .onward
    | .expr e => do
      let _ ← eval bound around scope e
      return .onward
    | .declare kind bindings => do
      bindings.forM fun binding => do
        let v ← match binding.2 with
          | some e => eval bound around scope e
          | none => pure .undefined
        declareName scope binding.1 v kind.changeable
      return .onward
    | .block stmts => do
      let inner ← withFrame scope
      inOrder (exec bound around inner) stmts
    | .branch test yes no => do
      if (← eval bound around scope test).truthy then exec bound around scope yes
      else
        match no with
        | some no => exec bound around scope no
        | none => return .onward
    | .each head kind name source body => do
      let v ← eval bound around scope source
      let visited ← match head with
        | .items => itemsIn v
        | .keys => keysIn v
      eachItem (eachRound kind name scope fun inner => exec bound around inner body) visited
    | .loop init test update body => do
      let inner ← withFrame scope
      if let some init := init then
        let _ ← exec bound around inner init
      repeatedly (do
        let goesOn ← match test with
          | some test => do pure (← eval bound around inner test).truthy
          | none => pure true
        countedRound (eval bound around inner) (exec bound around inner) update body goesOn) bound
    | .repeatWhile test body =>
      repeatedly (do
        if (← eval bound around scope test).truthy then
          return (← exec bound around scope body).afterRound
        else return some .onward) bound
    | .leave => return .leave
    | .skip => return .skip
    | .giveBack none => return .giveBack .undefined
    | .giveBack (some e) => do return .giveBack (← eval bound around scope e)
    | .raise e => do
      let v ← eval bound around scope e
      let text ← raisedText v
      Run.fail (.raised text)
    | .within object guarded body => do
      let v ← eval bound around scope object
      let inner ← withFrame (openedLink v guarded :: scope)
      inOrder (exec bound around inner) body

/-- The value that a function gives back. -/
def callValue : Nat → Surroundings → Value → List Value → Recording Value
  | 0, _, _, _ => Run.endless
  | bound + 1, around, f, args =>
    match f with
    | .native _ code _ =>
      match around.calls with
      | 0 => Run.fail .callDepth
      | _ + 1 =>
        match code with
        | .builtin b => b.apply args
        | .service s => around.perform s args
    | .closure routine _ params body scope =>
      match around.calls with
      | 0 => Run.fail .callDepth
      | calls + 1 => do
        let inner ← withFrame scope
        bindParams inner params args
        match body with
        | .expr e => eval bound ⟨around.perform, routine, calls⟩ inner e
        | .block stmts => do
          return (← inOrder (exec bound ⟨around.perform, routine, calls⟩ inner) stmts).result
    | v => do
      let text ← Run.textOf v
      Run.fail (.notCallable text)

end

/-- What a routine gives back for its arguments. -/
def program (p : Program) (bound : Nat) (around : Surroundings) (args : List Value) :
    Recording Value := do
  let outer ← withFrame []
  bindParams outer p.params args
  let inner ← withFrame outer
  return (← inOrder (exec bound around inner) p.body).result

/-! ### What recording steps come to -/

section Steps

variable {α β : Type} {record record' : List String} {s t : Store}

theorem bind_ok {m : Recording α} {f : α → Recording β} {a : α}
    (h : m record s = .ok (a, record') t) : (m >>= f) record s = f a record' t := by
  show (m record >>= fun r => f r.1 r.2) s = _
  exact run_bind_ok h

/-- Steps in a row come to something step by step. -/
theorem exists_of_bind_ok {m : Recording α} {f : α → Recording β} {b : β}
    (h : (m >>= f) record s = .ok (b, record') t) :
    ∃ a between u, m record s = .ok (a, between) u ∧ f a between u = .ok (b, record') t := by
  change (m record >>= fun r => f r.1 r.2) s = _ at h
  obtain ⟨r, u, hm, hf⟩ := exists_of_run_bind_ok h
  exact ⟨r.1, r.2, u, hm, hf⟩

/-- Steps that write nothing leave the record as it is. -/
theorem ok_of_lift {m : Run α} {a : α}
    (h : (liftM m : Recording α) record s = .ok (a, record') t) :
    m s = .ok a t ∧ record' = record := by
  change (m >>= fun a => Pure.pure (a, record)) s = _ at h
  obtain ⟨b, u, hm, hpure⟩ := exists_of_run_bind_ok h
  cases hpure
  exact ⟨hm, rfl⟩

/-- The value of a name is looked up. -/
theorem valueOf_of_eval {bound : Nat} {around : Surroundings} {scope : Scope} {name : String}
    {v : Value} (h : eval bound around scope (.name name) record s = .ok (v, record') t) :
    valueOf scope name s = .ok v t ∧ record' = record := by
  cases bound with
  | zero => cases h
  | succ bound => exact ok_of_lift h

end Steps

end Recording

/-! ### Forgetting the record -/

/-- Without its record the recording run is the other one. -/
def Forgets {α : Type} (m : Recording α) (n : Run α) : Prop := ∀ record, Prod.fst <$> m record = n

namespace Forgets

variable {α β : Type} {m : Recording α} {n : Run α} {f : α → Recording β} {g : α → Run β}

theorem pure (a : α) : Forgets (Pure.pure a) (Pure.pure a) := fun record => by
  show Prod.fst <$> (Pure.pure (a, record) : Run _) = _
  rw [map_pure]

theorem bind (hm : Forgets m n) (hf : ∀ a, Forgets (f a) (g a)) : Forgets (m >>= f) (n >>= g) := by
  intro record
  show Prod.fst <$> (m record >>= fun r => f r.1 r.2) = _
  rw [map_bind, ← hm record, bind_map_left]
  exact congrArg _ (funext fun r => hf r.1 r.2)

/-- Steps that write nothing. -/
theorem lift (n : Run α) : Forgets n n := fun record => by
  show Prod.fst <$> (n >>= fun a => Pure.pure (a, record)) = _
  rw [map_bind]
  simp only [map_pure, bind_pure]

/-- Reading the record. -/
theorem get {f : List String → Recording α} (h : ∀ record, Forgets (f record) n) :
    Forgets (MonadState.get >>= f) n := fun record => h record record

/-- Going on with another record. -/
theorem set {f : PUnit → Recording α} (record : List String) (h : Forgets (f ⟨⟩) n) :
    Forgets (MonadStateOf.set record >>= f) n := fun _ => h record

/-- The run comes to what the recording run comes to. -/
theorem ok (h : Forgets m n) {s t : Store} {a : α} (record : List String) (hn : n s = .ok a t) :
    ∃ record', m record s = .ok (a, record') t := by
  rw [← h record] at hn
  change EStateM.map Prod.fst (m record) s = _ at hn
  unfold EStateM.map at hn
  split at hn
  · rename_i r t' hm
    cases hn
    exact ⟨r.2, hm⟩
  · cases hn

/-- What the recording run comes to, the run comes to as well. -/
theorem of_ok (h : Forgets m n) {record record' : List String} {s t : Store} {a : α}
    (hm : m record s = .ok (a, record') t) : n s = .ok a t := by
  rw [← h record]
  show EStateM.map Prod.fst (m record) s = _
  rw [EStateM.map, hm]

theorem mapM {f : β → Recording α} {g : β → Run α} (h : ∀ b, Forgets (f b) (g b)) (bs : List β) :
    Forgets (bs.mapM f) (bs.mapM g) := by
  induction bs with
  | nil => exact pure []
  | cons b bs ih =>
    rw [List.mapM_cons, List.mapM_cons]
    exact (h b).bind fun _ => ih.bind fun _ => pure _

theorem forM {f : β → Recording PUnit} {g : β → Run PUnit} (h : ∀ b, Forgets (f b) (g b))
    (bs : List β) : Forgets (bs.forM f) (bs.forM g) := by
  induction bs with
  | nil => exact pure _
  | cons b bs ih => exact (h b).bind fun _ => ih

/-! ### Loops and targets -/

theorem inOrder {run : Stmt → Recording Flow} {run' : Stmt → Run Flow}
    (h : ∀ s, Forgets (run s) (run' s)) (ss : List Stmt) :
    Forgets (Recording.inOrder run ss) (Routine.inOrder run' ss) := by
  induction ss with
  | nil => exact pure _
  | cons s ss ih =>
    refine (h s).bind fun flow => ?_
    cases flow with
    | onward => exact ih
    | leave | skip | giveBack => exact pure _

theorem eachItem {round : Value → Recording Flow} {round' : Value → Run Flow}
    (h : ∀ v, Forgets (round v) (round' v)) (vs : List Value) :
    Forgets (Recording.eachItem round vs) (Routine.eachItem round' vs) := by
  induction vs with
  | nil => exact pure _
  | cons v vs ih =>
    refine (h v).bind fun flow => ?_
    cases flow.afterRound with
    | none => exact ih
    | some flow => exact pure _

theorem repeatedly {round : Recording (Option Flow)} {round' : Run (Option Flow)}
    (h : Forgets round round') (bound : Nat) :
    Forgets (Recording.repeatedly round bound) (Routine.repeatedly round' bound) := by
  induction bound with
  | zero => exact lift _
  | succ bound ih =>
    refine h.bind fun ending => ?_
    cases ending with
    | none => exact ih
    | some flow => exact pure _

theorem eachRound (kind : Option DeclKind) (name : String) (scope : Scope)
    {run : Scope → Recording Flow} {run' : Scope → Run Flow}
    (h : ∀ inner, Forgets (run inner) (run' inner)) (v : Value) :
    Forgets (Recording.eachRound kind name scope run v)
      (Routine.eachRound kind name scope run' v) := by
  refine (lift _).bind fun inner => ?_
  cases kind with
  | none => exact (lift _).bind fun _ => h inner
  | some kind => exact (lift _).bind fun _ => h inner

theorem countedRound {evaluate : Expr → Recording Value} {evaluate' : Expr → Run Value}
    (he : ∀ e, Forgets (evaluate e) (evaluate' e)) {run : Stmt → Recording Flow}
    {run' : Stmt → Run Flow} (hs : ∀ s, Forgets (run s) (run' s)) (update : Option Expr)
    (body : Stmt) (goesOn : Bool) :
    Forgets (Recording.countedRound evaluate run update body goesOn)
      (Routine.countedRound evaluate' run' update body goesOn) := by
  cases goesOn with
  | false => exact pure _
  | true =>
    refine (hs body).bind fun flow => ?_
    cases flow.afterRound with
    | some flow => exact pure _
    | none =>
      cases update with
      | none => exact pure _
      | some update => exact (he update).bind fun _ => pure _

theorem assignTo {evaluate : Expr → Recording Value} {evaluate' : Expr → Run Value}
    (h : ∀ e, Forgets (evaluate e) (evaluate' e)) (scope : Scope) (target : Expr) (v : Value) :
    Forgets (Recording.assignTo evaluate scope target v)
      (Routine.assignTo evaluate' scope target v) := by
  cases target with
  | name s => exact lift _
  | member object property optional => exact (h object).bind fun _ => lift _
  | index object key optional => exact (h object).bind fun _ => (h key).bind fun _ => lift _
  | _ => exact lift _

/-! ### Methods -/

theorem firstWhere {test : Value × Nat → Recording Value} {test' : Value × Nat → Run Value}
    (h : ∀ item, Forgets (test item) (test' item)) (wanted : Bool) (items : List (Value × Nat)) :
    Forgets (Recording.firstWhere test wanted items) (Routine.firstWhere test' wanted items) := by
  induction items with
  | nil => exact pure _
  | cons item items ih =>
    refine (h item).bind fun v => ?_
    split
    · exact pure _
    · exact ih

theorem itemsWhere {test : Value × Nat → Recording Value} {test' : Value × Nat → Run Value}
    (h : ∀ item, Forgets (test item) (test' item)) (items : List (Value × Nat)) :
    Forgets (Recording.itemsWhere test items) (Routine.itemsWhere test' items) := by
  induction items with
  | nil => exact pure _
  | cons item items ih =>
    refine (h item).bind fun v => ?_
    split
    · exact ih.bind fun _ => pure _
    · exact ih

section Calls

variable {call : Recording.Caller} {call' : Routine.Caller}
  (h : ∀ f args, Forgets (call f args) (call' f args))
include h

theorem carry (f : Value) (array : Nat) (result : Value) (items : List (Value × Nat)) :
    Forgets (Recording.carry call f array result items)
      (Routine.carry call' f array result items) := by
  induction items generalizing result with
  | nil => exact pure _
  | cons item items ih => exact (h f _).bind fun _ => ih _

theorem arrayMethod (m : ArrayMethod) (array : Nat) (args : List Value) :
    Forgets (Recording.arrayMethod call m array args) (m.apply call' array args) := by
  have hvisit (item : Value × Nat) :
      Forgets (Recording.visit call (argument args 0) array item)
        (Routine.visit call' (argument args 0) array item) := h _ _
  have hitems {f : List Value → Recording Value} {g : List Value → Run Value}
      (hf : ∀ vs, Forgets (f vs) (g vs)) :
      Forgets (itemsAt array >>= f) (itemsAt array >>= g) := (lift _).bind hf
  cases m with
  | forEach =>
    exact hitems fun vs => (forM (fun item => (hvisit item).bind fun _ => pure _) _).bind
      fun _ => pure _
  | map => exact hitems fun vs => (mapM hvisit _).bind fun _ => lift _
  | filter => exact hitems fun vs => (itemsWhere hvisit _).bind fun _ => lift _
  | find | findIndex =>
    refine hitems fun vs => (firstWhere hvisit true _).bind fun found => ?_
    cases found with
    | none => exact pure _
    | some item => exact pure _
  | anyOf | allOf => exact hitems fun vs => (firstWhere hvisit _ _).bind fun _ => pure _
  | reduce =>
    refine hitems fun vs => ?_
    cases args[1]? with
    | some start => exact carry h _ _ _ _
    | none =>
      cases placed vs with
      | nil => exact lift _
      | cons first rest => exact carry h _ _ _ _
  | join | includes | indexOf | push | pop | slice | reverse | concat | text => exact lift _

theorem callMember (object : Nat) (name : String) (args : List Value) :
    Forgets (Recording.callMember call object name args)
      (Routine.callMember call' object name args) := by
  refine (lift Run.heap).bind fun heap => ?_
  cases (heap.members object).get? name with
  | none => exact lift _
  | some f =>
    dsimp only
    split
    · exact h f args
    · exact lift _

theorem callMethod (receiver : Value) (name : String) (args : List Value) :
    Forgets (Recording.callMethod call receiver name args)
      (Routine.callMethod call' receiver name args) := by
  cases receiver with
  | object place => exact callMember h place name args
  | array place =>
    simp only [Recording.callMethod, Routine.callMethod]
    cases ArrayMethod.ofName? name with
    | some m => exact arrayMethod h m place args
    | none => exact lift _
  | undefined | null | bool | number | text | native | closure => exact lift _

end Calls

end Forgets

/-! ### Forgetting the record of a whole run -/

/-- The recording runs with a bound are the runs with it. -/
structure Faithful (bound : Nat) : Prop where
  eval (around : Surroundings) (scope : Scope) (e : Expr) :
    Forgets (Recording.eval bound around scope e) (Routine.eval bound around scope e)
  exec (around : Surroundings) (scope : Scope) (s : Stmt) :
    Forgets (Recording.exec bound around scope s) (Routine.exec bound around scope s)
  call (around : Surroundings) (f : Value) (args : List Value) :
    Forgets (Recording.callValue bound around f args) (Routine.callValue bound around f args)

section Layers

variable {bound : Nat} (h : Faithful bound)
include h

theorem Faithful.eval_succ (around : Surroundings) (scope : Scope) (e : Expr) :
    Forgets (Recording.eval (bound + 1) around scope e)
      (Routine.eval (bound + 1) around scope e) := by
  have he := h.eval around scope
  have hargs := Forgets.mapM he
  have hcall := h.call around
  -- What follows a value that may be missing.
  have hoptional (optional : Bool) (v : Value) {m : Recording Value} {n : Run Value}
      (hm : Forgets m n) :
      Forgets (if optional && v.isNullish then pure .undefined else m)
        (if optional && v.isNullish then pure .undefined else n) := by
    split
    · exact .pure _
    · exact hm
  cases e with
  | number | text | bool | null | undefined | arrow => exact .pure _
  | name s => exact .lift _
  | array items => exact (hargs items).bind fun _ => .lift _
  | object members =>
    exact (Forgets.mapM (fun member => (he member.2).bind fun _ => .pure _) members).bind
      fun _ => .lift _
  | member object property optional =>
    exact (he object).bind fun v => hoptional optional v (.lift _)
  | index object key optional =>
    exact (he object).bind fun v => hoptional optional v ((he key).bind fun _ => .lift _)
  | call callee args optional =>
    cases callee with
    | member object property optional' =>
      refine (he object).bind fun v => hoptional optional' v ?_
      exact (hargs args).bind fun _ => .callMethod hcall _ _ _
    | index object key optional' =>
      refine (he object).bind fun v => hoptional optional' v ((he key).bind fun _ => ?_)
      exact (Forgets.lift _).bind fun _ => (hargs args).bind fun _ => .callMethod hcall _ _ _
    | _ =>
      exact (he _).bind fun f => hoptional optional f ((hargs args).bind fun _ => hcall _ _)
  | unary op operand =>
    exact (he operand).bind fun _ => (Forgets.lift Run.heap).bind fun _ => .lift _
  | binary op left right =>
    exact (he left).bind fun _ => (he right).bind fun _ => (Forgets.lift Run.heap).bind
      fun _ => .lift _
  | logical op left right =>
    refine (he left).bind fun v => ?_
    split
    · exact .pure _
    · exact he right
  | conditional test yes no =>
    refine (he test).bind fun v => ?_
    split
    · exact he yes
    · exact he no
  | assign op target value =>
    cases op with
    | none => exact (he value).bind fun _ => (Forgets.assignTo he _ _ _).bind fun _ => .pure _
    | some op =>
      refine .get fun before => (he target).bind fun old => (he value).bind fun operand =>
        (Forgets.lift Run.heap).bind fun heap => (Forgets.lift _).bind fun v =>
        (Forgets.assignTo he _ _ _).bind fun _ => ?_
      cases heap.written? scope op target operand with
      | none => exact .pure _
      | some piece => exact .set _ (.pure _)
  | update up leading target =>
    exact (he target).bind fun _ => (Forgets.lift _).bind fun _ =>
      (Forgets.assignTo he _ _ _).bind fun _ => .pure _

theorem Faithful.exec_succ (around : Surroundings) (scope : Scope) (s : Stmt) :
    Forgets (Recording.exec (bound + 1) around scope s)
      (Routine.exec (bound + 1) around scope s) := by
  have he := h.eval around
  have hx := h.exec around
  cases s with
  | empty | leave | skip => exact .pure _
  | expr e => exact (he scope e).bind fun _ => .pure _
  | declare kind bindings =>
    refine (Forgets.forM (fun binding => ?_) bindings).bind fun _ => .pure _
    obtain ⟨name, value⟩ := binding
    cases value with
    | none => exact (Forgets.pure _).bind fun _ => .lift _
    | some e => exact (he scope e).bind fun _ => .lift _
  | block stmts =>
    exact (Forgets.lift (Routine.withFrame scope)).bind fun inner => .inOrder (hx inner) stmts
  | branch test yes no =>
    refine (he scope test).bind fun v => ?_
    split
    · exact hx scope yes
    · cases no with
      | none => exact .pure _
      | some no => exact hx scope no
  | each head kind name source body =>
    refine (he scope source).bind fun v => ?_
    have hround := Forgets.eachRound kind name scope fun inner => hx inner body
    cases head with
    | items => exact (Forgets.lift (itemsIn v)).bind fun vs => .eachItem hround vs
    | keys => exact (Forgets.lift (keysIn v)).bind fun vs => .eachItem hround vs
  | loop init test update body =>
    refine (Forgets.lift (Routine.withFrame scope)).bind fun inner => ?_
    have hround := Forgets.countedRound (he inner) (hx inner) update body
    cases init with
    | none =>
      cases test with
      | none => exact .repeatedly (hround true) bound
      | some test => exact .repeatedly ((he inner test).bind fun v => hround v.truthy) bound
    | some init =>
      refine (hx inner init).bind fun _ => ?_
      cases test with
      | none => exact .repeatedly (hround true) bound
      | some test => exact .repeatedly ((he inner test).bind fun v => hround v.truthy) bound
  | repeatWhile test body =>
    refine .repeatedly ((he scope test).bind fun v => ?_) bound
    split
    · exact (hx scope body).bind fun _ => .pure _
    · exact .pure _
  | giveBack value =>
    cases value with
    | none => exact .pure _
    | some e => exact (he scope e).bind fun _ => .pure _
  | raise e => exact (he scope e).bind fun _ => (Forgets.lift _).bind fun _ => .lift _
  | within object guarded body =>
    exact (he scope object).bind fun v => (Forgets.lift _).bind fun inner =>
      .inOrder (hx inner) body

theorem Faithful.call_succ (around : Surroundings) (f : Value) (args : List Value) :
    Forgets (Recording.callValue (bound + 1) around f args)
      (Routine.callValue (bound + 1) around f args) := by
  obtain ⟨perform, r, calls⟩ := around
  cases f with
  | native name code identity =>
    cases calls with
    | zero => exact .lift _
    | succ calls => cases code <;> exact .lift _
  | closure routine site params body scope =>
    cases calls with
    | zero => exact .lift _
    | succ calls =>
      refine (Forgets.lift _).bind fun inner => (Forgets.lift _).bind fun _ => ?_
      cases body with
      | expr e => exact h.eval _ _ _
      | block stmts => exact (Forgets.inOrder (h.exec _ _) stmts).bind fun _ => .pure _
  | undefined | null | bool | number | text | array | object =>
    exact (Forgets.lift _).bind fun _ => .lift _

end Layers

theorem faithful (bound : Nat) : Faithful bound := by
  induction bound with
  | zero => exact ⟨fun _ _ _ => .lift _, fun _ _ _ => .lift _, fun _ _ _ => .lift _⟩
  | succ bound ih => exact ⟨ih.eval_succ, ih.exec_succ, ih.call_succ⟩

/-- **Recording changes nothing**: a routine that records its output comes to what the routine comes
to. -/
theorem forgets_program (p : Program) (bound : Nat) (around : Surroundings) (args : List Value) :
    Forgets (Recording.program p bound around args) (p.run bound around args) :=
  (Forgets.lift _).bind fun _ => (Forgets.lift _).bind fun _ => (Forgets.lift _).bind fun inner =>
    (Forgets.inOrder ((faithful bound).exec around inner) p.body).bind fun _ => .pure _

end Stencil.Routine
