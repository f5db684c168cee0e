import Stencil.Routine.Method
import Stencil.Routine.Name
import Stencil.Routine.Operator

/-!
# Running routines

Expressions have values and statements have a way to end.  Both count down a bound, which limits how
deep they nest and how many rounds a loop takes; when it is used up, the run gives up and says so,
and a larger bound changes nothing else.

* `Surroundings` — what a run can ask of those who started it, and how deep calls may still nest;
* `Flow` — how a statement ends;
* `eval`, `exec`, `callValue` — expressions, statements and calls;
* `Program.run` — a whole routine with its arguments.

The parts that do not depend on how expressions are evaluated are functions of their own: `inOrder`,
`eachItem` and `repeatedly` for statements in a row and loops, and `assignTo` for the targets of
assignments.
-/

namespace Stencil.Routine

/-- How deep calls may nest. -/
def callLimit : Nat := 64

/-- What surrounds a run. -/
structure Surroundings where
  /-- What those who started the run do for it. -/
  perform : Service → List Value → Run Value
  /-- The number of the compiled routine in which the running code is written. -/
  routine : Nat
  /-- How many calls may still be nested in each other. -/
  calls : Nat := callLimit

/-- How a statement ends. -/
inductive Flow where
  /-- The next statement follows. -/
  | onward
  /-- The loop around it ends. -/
  | leave
  /-- The round of the loop around it ends. -/
  | skip
  /-- The function around it ends and gives this value back. -/
  | giveBack (v : Value)

/-- What is given back when the statements of a function end this way. -/
def Flow.result : Flow → Value
  | .giveBack v => v
  | _ => .undefined

/-- How a loop ends when a round of it ends this way, if it does end. -/
def Flow.afterRound : Flow → Option Flow
  | .onward => none
  | .skip => none
  | .leave => some .onward
  | .giveBack v => some (.giveBack v)

/-! ### Statements in a row and loops -/

/-- Runs statements one after the other, as long as each lets the next follow. -/
def inOrder (run : Stmt → Run Flow) : List Stmt → Run Flow
  | [] => return .onward
  | s :: ss => do
    match ← run s with
    | .onward => inOrder run ss
    | flow => return flow

/-- A loop with a round for each value. -/
def eachItem (round : Value → Run Flow) : List Value → Run Flow
  | [] => return .onward
  | v :: vs => do
    match (← round v).afterRound with
    | some flow => return flow
    | none => eachItem round vs

/-- Takes rounds until one says how the loop ends. -/
def repeatedly (round : Run (Option Flow)) : Nat → Run Flow
  | 0 => Run.endless
  | bound + 1 => do
    match ← round with
    | some flow => return flow
    | none => repeatedly round bound

/-! ### Variables and targets -/

/-- The scope with a new frame of variables in front. -/
def withFrame (scope : Scope) : Run Scope := do return (← Run.make Heap.newFrame) :: scope

/-- Declares a variable in the innermost frame. -/
def declareName (scope : Scope) (name : String) (v : Value) (changeable : Bool) : Run Unit :=
  Run.change fun h => h.declare scope name ⟨v, changeable⟩

/-- Declares parameters; one without an argument is `undefined`. -/
def bindParams (scope : Scope) : List String → List Value → Run Unit
  | [], _ => return
  | name :: names, [] => do
    declareName scope name .undefined true
    bindParams scope names []
  | name :: names, v :: vs => do
    declareName scope name v true
    bindParams scope names vs

/-- Gives the target of an assignment a value. -/
def assignTo (evaluate : Expr → Run Value) (scope : Scope) (target : Expr) (v : Value) :
    Run Unit := do
  match target with
  | .name s => assignName scope s v
  | .member object property _ => putProperty (← evaluate object) property v
  | .index object key _ => do
    let object ← evaluate object
    putItem object (← evaluate key) v
  | _ => Run.fail .target

/-- The number that counting up or down by one makes of a number. -/
def counted (up : Bool) (x : Float) : Float := if up then x + 1.0 else x - 1.0

/-- Whether the second operand of a choice stays unevaluated. -/
def LogicalOp.settledBy (op : LogicalOp) (v : Value) : Bool :=
  match op with
  | .both => !v.truthy
  | .either => v.truthy
  | .fallback => !v.isNullish

/-- The message that a raised value carries: the text of its member `message`, or its own text. -/
def raisedText (v : Value) : Run String := do
  match v with
  | .object place =>
    match ((← Run.heap).members place).get? "message" with
    | some message => Run.textOf message
    | none => Run.textOf v
  | v => Run.textOf v

/-- The link that opens a value; one that is no object has no members to name. -/
def openedLink (v : Value) (guarded : Bool) : Link :=
  match v with
  | .object place => .members (some place) guarded
  | _ => .members none guarded

/-! ### Evaluation -/

mutual

/-- The value of an expression. -/
def eval : Nat → Surroundings → Scope → Expr → Run Value
  | 0, _, _, _ => Run.endless
  | bound + 1, around, scope, e =>
    match e with
    | .number x => return .number x
    | .text s => return .text s
    | .bool b => return .bool b
    | .null => return .null
    | .undefined => return .undefined
    | .name s => valueOf scope s
    | .array items => do
      let vs ← items.mapM (eval bound around scope)
      Run.newArray vs.toArray
    | .object members => do
      let vs ← members.mapM fun member => do return (member.1, ← eval bound around scope member.2)
      Run.newObject (.ofList vs)
    | .member object property optional => do
      let v ← eval bound around scope object
      if optional && v.isNullish then return .undefined
      else getProperty v property
    | .index object key optional => do
      let v ← eval bound around scope object
      if optional && v.isNullish then return .undefined
      else getItem v (← eval bound around scope key)
    | .call (.member object property optional) args _ => do
      let v ← eval bound around scope object
      if optional && v.isNullish then return .undefined
      else
        let vs ← args.mapM (eval bound around scope)
        callMethod (callValue bound around) v property vs
    | .call (.index object key optional) args _ => do
      let v ← eval bound around scope object
      if optional && v.isNullish then return .undefined
      else
        let property ← Run.textOf (← eval bound around scope key)
        let vs ← args.mapM (eval bound around scope)
        callMethod (callValue bound around) v property vs
    | .call callee args optional => do
      let f ← eval bound around scope callee
      if optional && f.isNullish then return .undefined
      else
        let vs ← args.mapM (eval bound around scope)
        callValue bound around f vs
    | .unary op operand => do
      let v ← eval bound around scope operand
      Run.finite ((← Run.heap).unary op v)
    | .binary op left right => do
      let a ← eval bound around scope left
      let b ← eval bound around scope right
      Run.finite ((← Run.heap).binary op a b)
    | .logical op left right => do
      let v ← eval bound around scope left
      if op.settledBy v then return v
      else eval bound around scope right
    | .conditional test yes no => do
      if (← eval bound around scope test).truthy then eval bound around scope yes
      else eval bound around scope no
    | .assign none target value => do
      let v ← eval bound around scope value
      assignTo (eval bound around scope) scope target v
      return v
    | .assign (some op) target value => do
      let old ← eval bound around scope target
      let operand ← eval bound around scope value
      let v ← Run.finite ((← Run.heap).binary op old operand)
      assignTo (eval bound around scope) scope target v
      return v
    | .update up leading target => do
      let old ← Run.numberOf (← eval bound around scope target)
      assignTo (eval bound around scope) scope target (.number (counted up old))
      return .number (if leading then counted up old else old)
    | .arrow site params body => return .closure around.routine site params body scope

/-- How a statement ends. -/
def exec : Nat → Surroundings → Scope → Stmt → Run Flow
  | 0, _, _, _ => Run.endless
  | bound + 1, around, scope, s =>
    match s with
    | .empty => return .onward
    | .expr e => do
      let _ ← eval bound around scope e
      return .onward
    | .declare kind bindings => do
      bindings.forM fun binding => do
        let v ← match binding.2 with
          | some e => eval bound around scope e
          | none => pure .undefined
        declareName scope binding.1 v kind.changeable
      return .onward
    | .block stmts => do
      let inner ← withFrame scope
      inOrder (exec bound around inner) stmts
    | .branch test yes no => do
      if (← eval bound around scope test).truthy then exec bound around scope yes
      else
        match no with
        | some no => exec bound around scope no
        | none => return .onward
    | .each head kind name source body => do
      let v ← eval bound around scope source
      let visited ← match head with
        | .items => itemsIn v
        | .keys => keysIn v
      eachItem (fun v => do
        let inner ← withFrame scope
        match kind with
        | some kind => declareName inner name v kind.changeable
        | none => assignName inner name v
        exec bound around inner body) visited
    | .loop init test update body => do
      let inner ← withFrame scope
      if let some init := init then
        let _ ← exec bound around inner init
      repeatedly (do
        let goesOn ← match test with
          | some test => do pure (← eval bound around inner test).truthy
          | none => pure true
        if goesOn then
          match (← exec bound around inner body).afterRound with
          | some flow => return some flow
          | none =>
            if let some update := update then
              let _ ← eval bound around inner update
            return none
        else return some .onward) bound
    | .repeatWhile test body =>
      repeatedly (do
        if (← eval bound around scope test).truthy then
          return (← exec bound around scope body).afterRound
        else return some .onward) bound
    | .leave => return .leave
    | .skip => return .skip
    | .giveBack none => return .giveBack .undefined
    | .giveBack (some e) => do return .giveBack (← eval bound around scope e)
    | .raise e => do
      let v ← eval bound around scope e
      Run.fail (.raised (← raisedText v))
    | .within object guarded body => do
      let v ← eval bound around scope object
      let inner ← withFrame (openedLink v guarded :: scope)
      inOrder (exec bound around inner) body

/-- The value that a function gives back. -/
def callValue : Nat → Surroundings → Value → List Value → Run Value
  | 0, _, _, _ => Run.endless
  | bound + 1, around, f, args =>
    match f with
    | .native _ code _ =>
      match around.calls with
      | 0 => Run.fail .callDepth
      | _ + 1 =>
        match code with
        | .builtin b => b.apply args
        | .service s => around.perform s args
    | .closure routine _ params body scope =>
      match around.calls with
      | 0 => Run.fail .callDepth
      | calls + 1 => do
        let inner ← withFrame scope
        bindParams inner params args
        match body with
        | .expr e => eval bound ⟨around.perform, routine, calls⟩ inner e
        | .block stmts => do
          return (← inOrder (exec bound ⟨around.perform, routine, calls⟩ inner) stmts).result
    | v => do Run.fail (.notCallable (← Run.textOf v))

end

/-- What a routine gives back for its arguments. -/
def Program.run (p : Program) (bound : Nat) (around : Surroundings) (args : List Value) :
    Run Value := do
  let outer ← withFrame []
  bindParams outer p.params args
  let inner ← withFrame outer
  return (← inOrder (exec bound around inner) p.body).result

end Stencil.Routine
