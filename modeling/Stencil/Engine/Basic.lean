import Stencil.Catalog
import Stencil.Engine.Hooks
import Stencil.Error
import Stencil.Routine.Run
import Stencil.Template.Generate

/-!
# Engines

An engine turns templates into text.  What decides how it does so is its setting; what rendering
changes is its store.

* `Setting` — the hooks, and what the installed features know: fragments, layouts, helpers and
  messages.  A feature that is not installed knows nothing (`none`) and cannot be told anything;
* `Engine` — a setting and a store;
* `Engine.create`, `Engine.anew` — engines without features;
* the other functions tell an engine about fragments, layouts, helpers and messages, or ask what it
  knows.
-/

namespace Stencil

open Routine

/-- A function that templates can call as a helper. -/
abbrev Helper : Type := List Value → Heap → Except Failure Value × Heap

/-- What decides how an engine renders. -/
structure Setting where
  /-- The hooks. -/
  hooks : Hooks := {}
  /-- The sources of the fragments. -/
  fragments : Option (Roster String) := none
  /-- The sources of the layouts. -/
  layouts : Option (Roster String) := none
  /-- The helpers. -/
  helpers : Option (Roster Value) := none
  /-- The messages. -/
  catalog : Option Catalog := none
  /-- Whether the data scope is guarded. -/
  guarded : Bool := false
  /-- What the helpers do, by the slot that their values hold. -/
  codes : Array Helper := #[]
  /-- The function that escapes markup characters. -/
  escape : Value := .undefined
  /-- A remark that somebody left on the engine. -/
  note : Option String := none
  /-- The number of a new routine, from its source and from how many were compiled before it. -/
  numbering : String → Nat → Nat := fun _ count => count

/-- An engine. -/
structure Engine where
  /-- What decides how it renders. -/
  setting : Setting := {}
  /-- What rendering changes. -/
  store : Store := {}

instance : Inhabited Engine := ⟨{}⟩

/-- The names of the parameters of every routine: the data, the function that escapes, and then the
additional ones. -/
def Setting.params (s : Setting) : List String :=
  [Template.dataName, Template.escapeName] ++ s.hooks.params

namespace Engine

/-- Changes what decides how the engine renders. -/
def change (e : Engine) (f : Setting → Setting) : Engine := { e with setting := f e.setting }

/-- Makes a value in the heap of the engine. -/
def make {α : Type} (e : Engine) (f : Heap → α × Heap) : α × Engine :=
  let (a, heap) := f e.store.heap
  (a, { e with store := { e.store with heap := heap } })

/-- An engine without features that begins with this store and these codes of helpers, and keeps no
more routines than the bound. -/
def onStore (store : Store) (codes : Array Helper) (bound : Nat) : Engine :=
  let (escape, heap) := store.heap.newNative Template.escapeName (.service .escape)
  { setting := { codes := codes, escape := escape }
    store := { store with heap := heap, cache := Cache.create bound, version := 0 } }

/-- An engine without features. -/
def create (bound : Nat) : Engine := onStore {} #[] bound

/-- An engine without features whose values can meet those of another one. -/
def anew (e : Engine) (bound : Nat) : Engine := onStore e.store e.setting.codes bound

/-! ### Kept routines -/

/-- How many routines the engine keeps. -/
def cached (e : Engine) : Nat := e.store.cache.size

/-- Whether the engine keeps the routine of a template. -/
def isCached (e : Engine) (template : String) : Bool := e.store.cache.contains template

/-- The engine without its routines. -/
def clear (e : Engine) : Engine := { e with store := { e.store with cache := e.store.cache.clear } }

/-! ### Hooks -/

/-- The engine after an act on its hooks. -/
def applyHook (e : Engine) (h : Hook) : Engine :=
  e.change fun s => { s with hooks := s.hooks.apply h }

/-! ### Remarks -/

/-- Leaves a remark on the engine, in place of an earlier one. -/
def setNote (e : Engine) (text : String) : Engine :=
  e.change fun s => { s with note := some text }

/-- Adds to the remark on the engine, if there is one. -/
def appendNote (e : Engine) (text : String) : Engine :=
  e.change fun s => { s with note := s.note.map (· ++ text) }

/-! ### Fragments -/

/-- The fragments, if the engine can have any. -/
def fragments (e : Engine) : Except Error (Roster String) :=
  match e.setting.fragments with
  | some fragments => .ok fragments
  | none => .error (.notInstalled .fragments)

/-- Registers the source of a fragment. -/
def registerFragment (e : Engine) (name source : String) : Except Error Engine := do
  let fragments ← e.fragments
  return e.change fun s => { s with fragments := some (fragments.insert name source) }

/-- Registers fragments one after the other. -/
def registerFragments (e : Engine) (pairs : List (String × String)) : Except Error Engine :=
  pairs.foldlM (fun e pair => e.registerFragment pair.1 pair.2) e

/-- Removes a fragment and gives its source. -/
def removeFragment (e : Engine) (name : String) : Except Error (Option String × Engine) := do
  let fragments ← e.fragments
  return (fragments.get? name,
    e.change fun s => { s with fragments := some (fragments.erase name) })

/-! ### Layouts -/

/-- The layouts, if the engine can have any. -/
def layouts (e : Engine) : Except Error (Roster String) :=
  match e.setting.layouts with
  | some layouts => .ok layouts
  | none => .error (.notInstalled .layouts)

/-- Registers the source of a layout. -/
def registerLayout (e : Engine) (name source : String) : Except Error Engine := do
  let layouts ← e.layouts
  return e.change fun s => { s with layouts := some (layouts.insert name source) }

/-- Registers layouts one after the other. -/
def registerLayouts (e : Engine) (pairs : List (String × String)) : Except Error Engine :=
  pairs.foldlM (fun e pair => e.registerLayout pair.1 pair.2) e

/-! ### Helpers -/

/-- The helpers, if the engine can have any. -/
def helpers (e : Engine) : Except Error (Roster Value) :=
  match e.setting.helpers with
  | some helpers => .ok helpers
  | none => .error (.notInstalled .helpers)

/-- Registers a helper. -/
def registerHelper (e : Engine) (name : String) (code : Helper) : Except Error Engine := do
  let helpers ← e.helpers
  let (f, e) := e.make fun h => h.newNative name (.service (.helper e.setting.codes.size))
  return e.change fun s =>
    { s with helpers := some (helpers.insert name f), codes := s.codes.push code }

/-! ### Messages -/

/-- The messages, if the engine can have any. -/
def catalog (e : Engine) : Except Error Catalog :=
  match e.setting.catalog with
  | some catalog => .ok catalog
  | none => .error (.notInstalled .messages)

/-- The engine with another catalog. -/
def withCatalog (e : Engine) (c : Catalog) : Engine :=
  e.change fun s => { s with catalog := some c }

/-- Adds messages to a locale. -/
def addMessages (e : Engine) (locale : String) (messages : List (String × String)) :
    Except Error Engine := do
  return e.withCatalog ((← e.catalog).add locale messages)

/-- Makes another locale the active one. -/
def setLocale (e : Engine) (locale : String) : Except Error Engine := do
  return e.withCatalog ((← e.catalog).setLocale locale)

/-- The active locale. -/
def locale (e : Engine) : Except Error String := do return (← e.catalog).locale

end Engine

end Stencil
