import Stencil.Cache
import Stencil.Routine.Convert
import Stencil.Routine.Failure

/-!
# Runs of routines

A routine that runs changes the heap, and rendering a fragment on the way may compile a routine and
keep it.  What a run did stays done when it fails.

* `Halt` — why a run has no value: a failure, or no end within the bound on its steps;
* `Compiled` — a compiled routine, with the number that tells its functions from those of others;
* `Store` — everything that runs change;
* `Run` — the steps, with `Run.heap`, `Run.change` and `Run.make` for the heap.
-/

namespace Stencil.Routine

/-- Why a run has no value. -/
inductive Halt where
  /-- It failed. -/
  | failed (f : Failure)
  /-- It was not at its end when its bound on steps was reached, or it asked for the text of an
  array that contains itself, which has no end. -/
  | endless
  deriving DecidableEq

/-- A compiled routine. -/
structure Compiled where
  /-- Its number, which no other routine has if routines are counted. -/
  number : Nat
  /-- What it does. -/
  program : Program

instance : Inhabited Compiled := ⟨⟨0, default⟩⟩

/-- How many arguments the routine takes. -/
def Compiled.arity (c : Compiled) : Nat := c.program.params.length

/-- Everything that runs change. -/
structure Store where
  /-- The contents of what is shared. -/
  heap : Heap := {}
  /-- The routines that are kept, by the template they come from. -/
  cache : Cache Compiled := Cache.create Cache.defaultBound
  /-- The version of the parameter list for which they were compiled. -/
  version : Nat := 0
  /-- How many routines have been compiled so far. -/
  compiled : Nat := 0

instance : Inhabited Store := ⟨{}⟩

/-- Steps of a run. -/
abbrev Run : Type → Type := EStateM Halt Store

namespace Run

variable {α : Type}

/-- Fails. -/
def fail (f : Failure) : Run α := throw (.failed f)

/-- Gives up, because there is no end. -/
def endless : Run α := throw .endless

/-- The value, if there is an end to computing it. -/
def finite : Option α → Run α
  | some a => pure a
  | none => endless

/-- The heap. -/
def heap : Run Heap := do return (← get).heap

/-- Changes the heap. -/
def change (f : Heap → Heap) : Run Unit := modify fun s => { s with heap := f s.heap }

/-- Changes the heap and gives what that makes. -/
def make (f : Heap → α × Heap) : Run α :=
  modifyGet fun s =>
    match s with
    | ⟨h, cache, version, compiled⟩ =>
      match f h with
      | (a, h) => (a, ⟨h, cache, version, compiled⟩)

/-- Changes the heap by an act that may fail, and gives what that makes. -/
def attempt (f : Heap → Except Failure α × Heap) : Run α := do
  match ← make f with
  | .ok a => return a
  | .error e => fail e

/-- The text of a value. -/
def textOf (v : Value) : Run String := do finite ((← heap).display v)

/-- The number of a value. -/
def numberOf (v : Value) : Run Float := do finite ((← heap).toNumber v)

/-- The new array of these items. -/
def newArray (items : Array Value) : Run Value := make fun h => h.newArray items

/-- The new object of these members. -/
def newObject (members : Roster Value) : Run Value := make fun h => h.newObject members

end Run

/-! ### What steps come to -/

section Steps

variable {α β : Type} {m : Run α} {f : α → Run β} {store store' : Store} {a : α} {halt : Halt}

theorem run_bind_ok (h : m store = .ok a store') : (m >>= f) store = f a store' := by
  show EStateM.bind m f store = _
  rw [EStateM.bind, h]

theorem run_bind_error (h : m store = .error halt store') :
    (m >>= f) store = .error halt store' := by
  show EStateM.bind m f store = _
  rw [EStateM.bind, h]

/-- Steps in a row come to something step by step. -/
theorem exists_of_run_bind_ok {b : β} (h : (m >>= f) store = .ok b store') :
    ∃ a between, m store = .ok a between ∧ f a between = .ok b store' := by
  cases hm : m store with
  | ok a between =>
    rw [run_bind_ok hm] at h
    exact ⟨a, between, rfl, h⟩
  | error halt between =>
    rw [run_bind_error hm] at h
    cases h

/-- What follows steps is decided by what they come to. -/
theorem run_bind_congr {m' : Run α} (h : m store = m' store') :
    (m >>= f) store = (m' >>= f) store' := by
  cases hm : m' store' with
  | ok a t => rw [run_bind_ok (h.trans hm), run_bind_ok hm]
  | error halt t => rw [run_bind_error (h.trans hm), run_bind_error hm]

/-- Steps that agree on what comes before them agree. -/
theorem run_bind_congr_ok {g : α → Run β} (h : ∀ a t, m store = .ok a t → f a t = g a t) :
    (m >>= f) store = (m >>= g) store := by
  cases hm : m store with
  | ok a t => rw [run_bind_ok hm, run_bind_ok hm, h a t hm]
  | error halt t => rw [run_bind_error hm, run_bind_error hm]

theorem run_tryCatch_ok {handle : Halt → Run α} (h : m store = .ok a store') :
    tryCatch m handle store = .ok a store' := by
  show EStateM.tryCatch m handle store = _
  unfold EStateM.tryCatch
  rw [h]

theorem run_tryCatch_error {handle : Halt → Run α} (h : m store = .error halt store') :
    tryCatch m handle store = handle halt store' := by
  show EStateM.tryCatch m handle store = _
  unfold EStateM.tryCatch
  rw [h]
  rfl

theorem run_attempt_ok {act : Heap → Except Failure α × Heap} {heap : Heap}
    (h : act store.heap = (.ok a, heap)) :
    Run.attempt act store = .ok a { store with heap := heap } := by
  have hmake : Run.make act store
      = .ok (act store.heap).1 { store with heap := (act store.heap).2 } := rfl
  rw [h] at hmake
  exact (run_bind_ok hmake).trans rfl

end Steps

end Stencil.Routine
