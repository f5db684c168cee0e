import Stencil.Routine.Value

/-!
# Hooks

What plugins hook into an engine: changes to the text of a template before it is compiled, changes
to the source of its routine, and more parameters of the routine with the values for them.

* `HookList` — hooks in the order in which they run, some of them put in front;
* `Preprocessor`, `Wrapper`, `Provider`, `Hook` — the kinds of hooks;
* `Hooks` — all hooks of an engine;
* `Hooks.mark`, `Hooks.absorb` — hooks that were collected apart come in where the lists ended
  before, as if they had been added first.
-/

namespace Stencil

/-! ### Lists of hooks -/

/-- Hooks in the order in which they run. -/
structure HookList (α : Type) where
  /-- The hooks. -/
  hooks : List α := []
  /-- How many hooks at the front were put in front of others. -/
  leading : Nat := 0

/-- How far a list of hooks had grown at some time. -/
structure HookMark where
  /-- How many hooks there were. -/
  size : Nat
  /-- How many of them had been put in front. -/
  leading : Nat

/-- A list with another one inserted at a place. -/
def insertAt {α : Type} (place : Nat) (more xs : List α) : List α :=
  xs.take place ++ more ++ xs.drop place

/-- Inserting nothing changes nothing. -/
theorem insertAt_nil {α : Type} (place : Nat) (xs : List α) : insertAt place [] xs = xs := by
  simp [insertAt]

namespace HookList

variable {α : Type}

/-- The list with a hook behind all others. -/
def add (l : HookList α) (a : α) : HookList α := { l with hooks := l.hooks ++ [a] }

/-- The list with a hook in front of all others. -/
def addFirst (l : HookList α) (a : α) : HookList α := ⟨a :: l.hooks, l.leading + 1⟩

/-- How far the list has grown. -/
def mark (l : HookList α) : HookMark := ⟨l.hooks.length, l.leading⟩

/-- The place in the list up to which hooks were put in front since the mark was taken. -/
def frontPlace (l : HookList α) (m : HookMark) : Nat := l.leading - m.leading

/-- The place in the list behind the hooks that were there when the mark was taken. -/
def backPlace (l : HookList α) (m : HookMark) : Nat := l.leading + m.size - m.leading

/-- The list with another one inserted as if its hooks had been added when the mark was taken. -/
def absorb (l nested : HookList α) (m : HookMark) : HookList α where
  hooks :=
    insertAt (l.frontPlace m) (nested.hooks.take nested.leading)
      (insertAt (l.backPlace m) (nested.hooks.drop nested.leading) l.hooks)
  leading := l.leading + nested.leading

/-- An empty list changes nothing wherever it comes in. -/
theorem absorb_empty (l : HookList α) (m : HookMark) : l.absorb {} m = l := by
  simp [absorb, insertAt_nil]

end HookList

/-! ### Kinds of hooks -/

/-- A change to the text of a template. -/
inductive Preprocessor where
  /-- Layouts are resolved. -/
  | layouts
  /-- Inclusions are written as output markers. -/
  | inclusions
  /-- Messages are written as output markers. -/
  | messages
  /-- Any other change. -/
  | custom (change : String → String)

/-- A change to the source of a routine, which is given with the part inside the data scope. -/
inductive Wrapper where
  /-- The data scope is guarded. -/
  | guarded
  /-- Any other change. -/
  | custom (change : String → String → String)

/-- Where the value of a parameter comes from at each run. -/
inductive Provider where
  /-- It is always this value. -/
  | constant (v : Routine.Value)
  /-- It is a new object of the helpers that there are. -/
  | helpers
  /-- Any other source. -/
  | custom (make : Routine.Heap → Routine.Value × Routine.Heap)

/-- A single act on the hooks. -/
inductive Hook where
  | addPreprocessor (p : Preprocessor)
  | addFirstPreprocessor (p : Preprocessor)
  | addWrapper (w : Wrapper)
  | addFirstWrapper (w : Wrapper)
  /-- A parameter without a value for it. -/
  | parameter (name : String)
  /-- A value without a parameter for it. -/
  | value (p : Provider)
  /-- A parameter and the value for it. -/
  | inject (name : String) (p : Provider)

/-- All hooks of an engine. -/
structure Hooks where
  /-- The changes to the text of a template. -/
  preprocessors : HookList Preprocessor := {}
  /-- The changes to the source of a routine. -/
  wrappers : HookList Wrapper := {}
  /-- The names of the additional parameters. -/
  params : List String := []
  /-- The sources of their values. -/
  providers : List Provider := []
  /-- How often the parameters changed. -/
  version : Nat := 0

instance : Inhabited Hooks := ⟨{}⟩

/-- How far the hooks had grown at some time. -/
structure HooksMark where
  preprocessors : HookMark
  wrappers : HookMark
  /-- How many parameters there were. -/
  params : Nat
  /-- How many sources of values there were. -/
  providers : Nat

namespace Hooks

/-- The hooks with one more parameter. -/
def addParam (h : Hooks) (name : String) : Hooks :=
  { h with params := h.params ++ [name], version := h.version + 1 }

/-- The hooks with one more source of a value. -/
def addProvider (h : Hooks) (p : Provider) : Hooks := { h with providers := h.providers ++ [p] }

/-- The hooks after an act on them. -/
def apply (h : Hooks) : Hook → Hooks
  | .addPreprocessor p => { h with preprocessors := h.preprocessors.add p }
  | .addFirstPreprocessor p => { h with preprocessors := h.preprocessors.addFirst p }
  | .addWrapper w => { h with wrappers := h.wrappers.add w }
  | .addFirstWrapper w => { h with wrappers := h.wrappers.addFirst w }
  | .parameter name => h.addParam name
  | .value p => h.addProvider p
  | .inject name p => (h.addParam name).addProvider p

/-- Whether every additional parameter has a value. -/
def isBalanced (h : Hooks) : Bool := h.params.length == h.providers.length

/-- How far the hooks have grown. -/
def mark (h : Hooks) : HooksMark :=
  ⟨h.preprocessors.mark, h.wrappers.mark, h.params.length, h.providers.length⟩

/-- The hooks with others inserted as if they had been added when the mark was taken. -/
def absorb (h nested : Hooks) (m : HooksMark) : Hooks where
  preprocessors := h.preprocessors.absorb nested.preprocessors m.preprocessors
  wrappers := h.wrappers.absorb nested.wrappers m.wrappers
  params := insertAt m.params nested.params h.params
  providers := insertAt m.providers nested.providers h.providers
  version := h.version + nested.version

/-- Where nothing was collected apart, nothing changes. -/
theorem absorb_empty (h : Hooks) (m : HooksMark) : h.absorb {} m = h := by
  simp [absorb, HookList.absorb_empty, insertAt_nil]

end Hooks

end Stencil
