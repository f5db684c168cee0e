import Stencil.Routine.ArrayMethod

/-!
# Calling through a value

`callMethod` answers a call that is written with a value in front: an object calls its member, and
arrays, texts, numbers and truth values have methods of their own.  How a function is called is
given to it, since functions written in routines can be called only by running them.
-/

namespace Stencil.Routine

/-- Whether the value is a function. -/
def Value.isFunction : Value → Bool
  | .native _ _ _ => true
  | .closure _ _ _ _ _ => true
  | _ => false

/-- Calls the member of an object. -/
def callMember (call : Caller) (object : Nat) (name : String) (args : List Value) : Run Value := do
  match ((← Run.heap).members object).get? name with
  | some f => if f.isFunction then call f args else Run.fail (.notCallable name)
  | none => Run.fail (.notCallable name)

/-- Calls what a value has under a name. -/
def callMethod (call : Caller) (receiver : Value) (name : String) (args : List Value) :
    Run Value :=
  match receiver with
  | .undefined => Run.fail (.unreadable "undefined" name)
  | .null => Run.fail (.unreadable "null" name)
  | .object place => callMember call place name args
  | .array place =>
    match ArrayMethod.ofName? name with
    | some m => m.apply call place args
    | none => Run.fail (.notCallable ("array." ++ name))
  | .text s =>
    match TextMethod.ofName? name with
    | some m => m.apply s args
    | none => Run.fail (.notCallable ("string." ++ name))
  | .number x =>
    match NumberMethod.ofName? name with
    | some m => m.apply x args
    | none => Run.fail (.notCallable ("number." ++ name))
  | .bool b =>
    if name = "toString" then return .text (plainText (.bool b))
    else Run.fail (.notCallable name)
  | _ => Run.fail (.notCallable name)

end Stencil.Routine
