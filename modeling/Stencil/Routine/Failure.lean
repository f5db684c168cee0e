import Stencil.Json.Cursor
import Stencil.Routine.Lexeme
import Stencil.Routine.NumberText

/-!
# Failures of a running routine

* `Failure` — the causes for which a routine stops;
* `Failure.message` — their wording;
* `Failure.kind` — three kinds of failure.  A fragment that is not there and fragments nested too
  deep are failures of the template itself and not of its data, and nothing may hide them.
-/

namespace Stencil.Routine

/-- How deep fragments and layouts may be nested. -/
def nestingLimit : Nat := 10

/-- The kinds of failure. -/
inductive FailureKind where
  | runtime
  | notFound
  | depthExceeded
  deriving DecidableEq, Repr

/-- Why a routine stopped. -/
inductive Failure where
  /-- A statement raised this message. -/
  | raised (message : String)
  /-- Nothing has the name. -/
  | unbound (name : String)
  /-- Nothing in a guarded scope has the name. -/
  | undefinedVariable (name : String)
  /-- A constant cannot be given another value. -/
  | constant
  /-- Only a name or a member can be given a value. -/
  | target
  /-- What was called is no function. -/
  | notCallable (what : String)
  /-- `undefined` and `null` have no members to read. -/
  | unreadable (what name : String)
  /-- `undefined` and `null` have no members to set. -/
  | unwritable (what name : String)
  /-- Only arrays and texts have items. -/
  | notIterable (what : String)
  /-- There is no item to begin with. -/
  | emptyReduce
  /-- Calls are nested too deep. -/
  | callDepth
  /-- A text would become too long. -/
  | textLength
  /-- An array would become too long. -/
  | arrayLength
  /-- A text cannot be repeated this often. -/
  | repetition (count : Float)
  /-- A number cannot be written with so many places. -/
  | places
  /-- A text is not in the JSON format. -/
  | json (e : Json.ReadError)
  /-- The routine has another number of parameters than it was given arguments. -/
  | arity (expected received : Nat)
  /-- Fragments need an engine that renders them. -/
  | noEngine
  /-- The source of a fragment has a fault. -/
  | fragmentSource (e : SyntaxError)
  /-- No fragment has the name. -/
  | noFragment (name : String)
  /-- The fragment would be nested too deep. -/
  | fragmentDepth (name : String)
  /-- A helper failed in its own way. -/
  | reported (kind : FailureKind) (message : String)
  deriving DecidableEq

/-- The failure in words. -/
def Failure.message : Failure → String
  | .raised message => message
  | .unbound name => "ReferenceError: " ++ name ++ " is not defined"
  | .undefinedVariable name => "Variable \"" ++ name ++ "\" is not defined"
  | .constant => "TypeError: Assignment to constant variable."
  | .target => "SyntaxError: Invalid left-hand side in assignment"
  | .notCallable what => "TypeError: " ++ what ++ " is not a function"
  | .unreadable what name =>
    "TypeError: Cannot read properties of " ++ what ++ " (reading '" ++ name ++ "')"
  | .unwritable what name =>
    "TypeError: Cannot set properties of " ++ what ++ " (setting '" ++ name ++ "')"
  | .notIterable what => "TypeError: " ++ what ++ " is not iterable"
  | .emptyReduce => "TypeError: Reduce of empty array with no initial value"
  | .callDepth => "RangeError: Maximum call stack size exceeded"
  | .textLength => "RangeError: Invalid string length"
  | .arrayLength => "RangeError: Invalid array length"
  | .repetition count => "RangeError: Invalid count value: " ++ numberText count
  | .places => "RangeError: toFixed() digits argument must be between 0 and 100"
  | .json e => "SyntaxError: " ++ e.message
  | .arity expected received =>
    "arity mismatch: routine expects " ++ Decimal.naturalText expected
      ++ " argument(s) but received " ++ Decimal.naturalText received
  | .noEngine => "partials can only be rendered through an engine"
  | .fragmentSource e => "Compilation failed: " ++ e.message
  | .noFragment name => "Partial \"" ++ name ++ "\" not found"
  | .fragmentDepth name =>
    "Partial \"" ++ name ++ "\" exceeds the maximum inclusion depth of "
      ++ Decimal.naturalText nestingLimit
  | .reported _ message => message

/-- The kind of a failure. -/
def Failure.kind : Failure → FailureKind
  | .noFragment _ => .notFound
  | .fragmentDepth _ => .depthExceeded
  | .reported kind _ => kind
  | _ => .runtime

/-- Whether nothing may hide the failure. -/
def Failure.isProtocol (f : Failure) : Bool := f.kind != .runtime

end Stencil.Routine
