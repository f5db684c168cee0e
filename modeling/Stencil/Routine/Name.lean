import Stencil.Routine.Builtin

/-!
# Names in scopes

A name means what the innermost link of the scope that has it says.  Reading and assigning go by
the same link; assigning never makes a variable, and a constant cannot be assigned.

* `Heap.holder?` — the link that has a name;
* `Heap.assign` — gives the name a new value there;
* `valueOf` — the value of a name, which is one of the built-in ones if no link has it, unless a
  link is guarded.
-/

namespace Stencil.Routine

namespace Heap

/-- Whether a link has a name. -/
def holds (h : Heap) (name : String) : Link → Bool
  | .locals place => (h.frame place).contains name
  | .members (some place) _ => (h.members place).contains name
  | .members none _ => false

/-- A link has the names that it gives values to. -/
theorem isSome_linkValue? (h : Heap) (name : String) (l : Link) :
    (h.linkValue? name l).isSome = h.holds name l := by
  cases l with
  | locals place => simp [holds, linkValue?, Roster.contains]
  | members object guarded => cases object <;> rfl

/-- The innermost link that has a name. -/
def holder? (h : Heap) (name : String) (scope : Scope) : Option Link := scope.find? (h.holds name)

/-- Gives a name of a link a new value. -/
def assignAt (h : Heap) (name : String) (v : Value) : Link → Except Failure Unit × Heap
  | .locals place =>
    match (h.frame place).get? name with
    | some b =>
      if b.changeable then (.ok (), h.setLocal place name ⟨v, true⟩) else (.error .constant, h)
    | none => (.error (.unbound name), h)
  | .members (some place) _ => (.ok (), h.setMember place name v)
  | .members none _ => (.error (.unbound name), h)

/-- Gives a name a new value in the innermost link that has it. -/
def assign (h : Heap) (name : String) (v : Value) (scope : Scope) : Except Failure Unit × Heap :=
  match h.holder? name scope with
  | some link => h.assignAt name v link
  | none => (.error (.unbound name), h)

end Heap

/-- Gives a name a new value. -/
def assignName (scope : Scope) (name : String) (v : Value) : Run Unit :=
  Run.attempt fun h => h.assign name v scope

/-- The value of a name. -/
def valueOf (scope : Scope) (name : String) : Run Value := do
  match (← Run.heap).find? name scope with
  | some v => return v
  | none =>
    if scope.isGuarded then Run.fail (.undefinedVariable name)
    else
      match global? name with
      | some value => Run.make value
      | none => Run.fail (.unbound name)

theorem valueOf_found {scope : Scope} {name : String} {store : Store} {v : Value}
    (h : store.heap.find? name scope = some v) : valueOf scope name store = .ok v store := by
  refine (run_bind_ok rfl).trans ?_
  rw [h]
  rfl

/-- A name that no link has and that routines do not know of themselves. -/
theorem valueOf_unbound {scope : Scope} {name : String} {store : Store}
    (h : store.heap.find? name scope = none) (hscope : scope.isGuarded = false)
    (hglobal : global? name = none) :
    valueOf scope name store = .error (.failed (.unbound name)) store := by
  refine (run_bind_ok rfl).trans ?_
  rw [h, hscope, hglobal]
  rfl

end Stencil.Routine
