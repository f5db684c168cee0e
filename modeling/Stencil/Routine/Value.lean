import Stencil.Roster
import Stencil.Routine.Tree

/-!
# Values and the heap

What a routine computes with.  Arrays and objects are shared: a value holds only the place of one in
the heap, so that a change through one name shows through every other.  Variables live in the heap
too, because a function goes on seeing the variables around the place where it was written.

* `Value` — the values; `Native` names the functions that are not written in a routine;
* `Link`, `Scope` — the chain of variable frames and opened objects in which a name is looked up;
* `Heap` — the contents of arrays, objects and frames, with the operations on each.

Two native functions are the same only if they were made in one act, so the heap numbers them.
-/

namespace Stencil.Routine

/-- A function that every routine can name. -/
inductive Builtin where
  | string
  | number
  | boolean
  | parseInt
  | parseFloat
  | isNaN
  | stringify
  | parse
  | keys
  | values
  | entries
  | isArray
  | floor
  | ceil
  | round
  | abs
  | sqrt
  | trunc
  | min
  | max
  | pow
  deriving DecidableEq, Repr

/-- A function that the surroundings of a routine provide. -/
inductive Service where
  /-- Escapes the text of a value. -/
  | escape
  /-- Renders the fragment of a name. -/
  | fragment
  /-- Renders the fragment that a computed value names. -/
  | chosenFragment
  /-- Gives the message of a key. -/
  | message
  /-- The helper in this slot. -/
  | helper (slot : Nat)
  deriving DecidableEq, Repr

/-- What a native function does. -/
inductive Native where
  | builtin (b : Builtin)
  | service (s : Service)
  deriving DecidableEq, Repr

/-- One link of a scope. -/
inductive Link where
  /-- The variables of the frame at this place. -/
  | locals (place : Nat)
  /-- The members of an opened object, if it is an object.  A guarded one keeps names that nothing
  binds from reaching the functions that every routine can name. -/
  | members (object : Option Nat) (guarded : Bool)
  deriving DecidableEq, Repr

/-- The chain in which a name is looked up, the innermost link in front. -/
abbrev Scope : Type := List Link

/-- A value of the routine language. -/
inductive Value where
  | undefined
  | null
  | bool (b : Bool)
  | number (x : Float)
  | text (s : String)
  /-- The array at this place. -/
  | array (place : Nat)
  /-- The object at this place. -/
  | object (place : Nat)
  /-- A function that is not written in a routine, with the number of the act that made it. -/
  | native (name : String) (code : Native) (identity : Nat)
  /-- A function written in a routine: the routine and the place in it, its parameters and body, and
  the scope around it. -/
  | closure (routine site : Nat) (params : List String) (body : Body) (scope : Scope)

namespace Value

instance : Inhabited Value := ⟨.undefined⟩

/-- Whether the value is `undefined` or `null`. -/
def isNullish : Value → Bool
  | .undefined => true
  | .null => true
  | _ => false

/-- Whether a test with the value succeeds. -/
def truthy : Value → Bool
  | .undefined => false
  | .null => false
  | .bool b => b
  | .number x => !(x == 0.0) && x == x
  | .text s => !s.isEmpty
  | .array _ => true
  | .object _ => true
  | .native _ _ _ => true
  | .closure _ _ _ _ _ => true

/-- The word for the kind of a value. -/
def kindName : Value → String
  | .undefined => "undefined"
  | .null => "object"
  | .bool _ => "boolean"
  | .number _ => "number"
  | .text _ => "string"
  | .array _ => "object"
  | .object _ => "object"
  | .native _ _ _ => "function"
  | .closure _ _ _ _ _ => "function"

/-- Whether two values are the same: equal if they are plain, at one place if they are arrays or
objects, made in one act if they are native, and written at one place if they are not. -/
def same : Value → Value → Bool
  | .undefined, .undefined => true
  | .null, .null => true
  | .bool a, .bool b => a == b
  | .number a, .number b => a == b
  | .text a, .text b => a == b
  | .array a, .array b => a == b
  | .object a, .object b => a == b
  | .native _ _ a, .native _ _ b => a == b
  | .closure r s _ _ _, .closure r' s' _ _ _ => r == r' && s == s'
  | _, _ => false

end Value

/-- A variable. -/
structure Binding where
  /-- Its value. -/
  value : Value
  /-- Whether it can be given another. -/
  changeable : Bool

instance : Inhabited Binding := ⟨⟨.undefined, true⟩⟩

/-- The contents of everything that is shared. -/
structure Heap where
  /-- The items of each array. -/
  arrays : Array (Array Value) := #[]
  /-- The members of each object. -/
  objects : Array (Roster Value) := #[]
  /-- The variables of each frame. -/
  frames : Array (Roster Binding) := #[]
  /-- The number of the next act that makes native functions. -/
  identities : Nat := 0

namespace Heap

instance : Inhabited Heap := ⟨{}⟩

/-! ### Arrays -/

/-- The items of an array. -/
def items (h : Heap) (place : Nat) : Array Value := h.arrays.getD place #[]

/-- Changes the items of an array. -/
def modifyItems (h : Heap) (place : Nat) (f : Array Value → Array Value) : Heap :=
  { h with arrays := h.arrays.modify place f }

/-- Makes an array. -/
def newArray (h : Heap) (items : Array Value) : Value × Heap :=
  (.array h.arrays.size, { h with arrays := h.arrays.push items })

/-! ### Objects -/

/-- The members of an object. -/
def members (h : Heap) (place : Nat) : Roster Value := h.objects.getD place .empty

/-- Gives a member of an object a value. -/
def setMember (h : Heap) (place : Nat) (name : String) (v : Value) : Heap :=
  { h with objects := h.objects.modify place (·.insert name v) }

/-- Makes an object. -/
def newObject (h : Heap) (members : Roster Value) : Value × Heap :=
  (.object h.objects.size, { h with objects := h.objects.push members })

/-! ### Variables -/

/-- The variables of a frame. -/
def frame (h : Heap) (place : Nat) : Roster Binding := h.frames.getD place .empty

/-- Makes a frame without variables. -/
def newFrame (h : Heap) : Link × Heap :=
  (.locals h.frames.size, { h with frames := h.frames.push .empty })

/-- Sets a variable of a frame. -/
def setLocal (h : Heap) (place : Nat) (name : String) (b : Binding) : Heap :=
  { h with frames := h.frames.modify place (·.insert name b) }

/-- Declares a variable in the innermost frame, in place of one with the same name. -/
def declare (h : Heap) (scope : Scope) (name : String) (b : Binding) : Heap :=
  match scope with
  | .locals place :: _ => h.setLocal place name b
  | _ => h

/-- The value that a link gives to a name. -/
def linkValue? (h : Heap) (name : String) : Link → Option Value
  | .locals place => ((h.frame place).get? name).map Binding.value
  | .members (some place) _ => (h.members place).get? name
  | .members none _ => none

/-- The value that the innermost link with the name gives to it. -/
def find? (h : Heap) (name : String) (scope : Scope) : Option Value :=
  scope.findSome? (h.linkValue? name)

/-! ### Native functions -/

/-- Makes a native function. -/
def newNative (h : Heap) (name : String) (code : Native) : Value × Heap :=
  (.native name code h.identities, { h with identities := h.identities + 1 })

/-- Makes native functions in one go and an object of them. -/
def newNatives (h : Heap) (functions : List (String × Native)) : Value × Heap :=
  let (members, h) := functions.foldl
    (fun (members, h) (name, code) =>
      let (f, h) := newNative h name code
      (Roster.insert members name f, h))
    (Roster.empty, h)
  h.newObject members

/-! ### What the operations change -/

@[simp] theorem items_setMember (h : Heap) (place other : Nat) (name : String) (v : Value) :
    (h.setMember place name v).items other = h.items other := rfl

@[simp] theorem frame_setMember (h : Heap) (place other : Nat) (name : String) (v : Value) :
    (h.setMember place name v).frame other = h.frame other := rfl

/-- Of all objects, only the one at the place changes. -/
theorem members_setMember (h : Heap) {place : Nat} (other : Nat) (name : String) (v : Value)
    (hp : place < h.objects.size) :
    (h.setMember place name v).members other
      = if place = other then (h.members place).insert name v else h.members other := by
  unfold setMember members
  simp only [Array.getD_eq_getD_getElem?, Array.getElem?_modify]
  split
  · rename_i he
    subst he
    simp [hp]
  · rfl

/-- Of all frames, only the one at the place changes. -/
theorem frame_setLocal (h : Heap) {place : Nat} (other : Nat) (name : String) (b : Binding)
    (hp : place < h.frames.size) :
    (h.setLocal place name b).frame other
      = if place = other then (h.frame place).insert name b else h.frame other := by
  unfold setLocal frame
  simp only [Array.getD_eq_getD_getElem?, Array.getElem?_modify]
  split
  · rename_i he
    subst he
    simp [hp]
  · rfl

@[simp] theorem size_setLocal (h : Heap) (place : Nat) (name : String) (b : Binding) :
    (h.setLocal place name b).frames.size = h.frames.size := by
  rw [setLocal, Array.size_modify]

theorem size_newFrame (h : Heap) : h.newFrame.2.frames.size = h.frames.size + 1 :=
  Array.size_push _

theorem frame_newFrame (h : Heap) (place : Nat) :
    h.newFrame.2.frame place = if place = h.frames.size then .empty else h.frame place := by
  show (h.frames.push .empty).getD place .empty = _
  rw [frame, Array.getD_eq_getD_getElem?, Array.getD_eq_getD_getElem?, Array.getElem?_push]
  split <;> rfl

/-- Of all arrays, only the one at the place changes. -/
theorem items_modifyItems (h : Heap) {place : Nat} (other : Nat) (f : Array Value → Array Value)
    (hp : place < h.arrays.size) :
    (h.modifyItems place f).items other
      = if place = other then f (h.items place) else h.items other := by
  unfold modifyItems items
  simp only [Array.getD_eq_getD_getElem?, Array.getElem?_modify]
  split
  · rename_i he
    subst he
    simp [hp]
  · rfl

/-- The new array has the items, and all others have theirs. -/
theorem items_newArray (h : Heap) (place : Nat) (items : Array Value) :
    (h.newArray items).2.items place
      = if place = h.arrays.size then items else h.items place := by
  unfold newArray Heap.items
  simp only [Array.getD_eq_getD_getElem?, Array.getElem?_push]
  split <;> rfl

/-- The new object has the members, and all others have theirs. -/
theorem members_newObject (h : Heap) (place : Nat) (members : Roster Value) :
    (h.newObject members).2.members place
      = if place = h.objects.size then members else h.members place := by
  unfold newObject Heap.members
  simp only [Array.getD_eq_getD_getElem?, Array.getElem?_push]
  split <;> rfl

end Heap

/-- Whether a scope has a guarded link. -/
def Scope.isGuarded (scope : Scope) : Bool :=
  scope.any fun link =>
    match link with
    | .members _ guarded => guarded
    | .locals _ => false

end Stencil.Routine
