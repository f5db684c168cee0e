import Stencil.Engine.Plugin
import Stencil.Files.Fragments
import Stencil.Text.Blank

/-!
# Configurations

A configuration says how an engine is set up.  Everything in it has a default.

* `Config` — what it says;
* `Config.validate` — whether it makes sense;
* `Config.resolve` — the same with its folders seen from the folder of the configuration;
* `Config.build` — the engine that it asks for.
-/

namespace Stencil

/-- How an engine is set up. -/
structure Config where
  /-- How many routines are kept at most. -/
  cacheBound : Nat := Cache.defaultBound
  /-- Whether the data scope is guarded. -/
  strict : Bool := false
  /-- The folder of fragments. -/
  fragmentFolder : Option String := none
  /-- The folder of layouts. -/
  layoutFolder : Option String := none
  /-- The locale that is active. -/
  locale : Option String := none
  /-- The messages of each locale. -/
  messages : Roster (Roster String) := .empty

instance : Inhabited Config := ⟨{}⟩

namespace Config

/-- What makes no sense in the configuration, if anything does not. -/
def fault? (c : Config) : Option ConfigFault :=
  if c.cacheBound = 0 then some .cacheBound
  else
    match c.locale with
    | some locale => if (Text.trimText locale).isEmpty then some .blankLocale else none
    | none => none

/-- Checks that the configuration makes sense. -/
def validate (c : Config) : Except Error Unit :=
  match c.fault? with
  | some fault => .error (.config fault)
  | none => .ok ()

/-- The configuration with its folders seen from another one. -/
def resolve (c : Config) (folder : String) : Config :=
  { c with
    fragmentFolder := c.fragmentFolder.map (joinPath folder)
    layoutFolder := c.layoutFolder.map (joinPath folder) }

/-- The engine with the fragments of a folder, if there is one. -/
def addFragments (d : Disk) (e : Engine) : Option String → Except Error Engine
  | none => .ok e
  | some folder => do (e.use .fragments).registerFragments (← loadFragments d folder).entries

/-- The engine with the layouts of a folder, if there is one. -/
def addLayouts (d : Disk) (e : Engine) : Option String → Except Error Engine
  | none => .ok e
  | some folder => do (e.use .layouts).registerLayouts (← loadFragments d folder).entries

/-- The engine with messages, if there are any or a locale is chosen. -/
def addMessages (c : Config) (e : Engine) : Except Error Engine :=
  if c.locale.isNone && c.messages.entries.isEmpty then .ok e
  else
    c.messages.entries.foldlM (fun e entry => e.addMessages entry.1 entry.2.entries)
      (e.use (.messages (c.locale.getD Catalog.defaultLocale)))

/-- The engine that the configuration asks for, made from an engine without features that keeps as
many routines as it is told.  The guard comes last. -/
def build (c : Config) (d : Disk) (blank : Nat → Engine) : Except Error Engine := do
  c.validate
  let e ← addFragments d (blank c.cacheBound) c.fragmentFolder
  let e ← addLayouts d e c.layoutFolder
  let e ← c.addMessages e
  return if c.strict then e.use .guard else e

end Config

/-! ### Fields -/

/-- A field of a configuration. -/
inductive ConfigField where
  | cacheBound
  | strict
  | fragmentFolder
  | layoutFolder
  | locale
  | messages
  deriving DecidableEq, Repr

namespace ConfigField

/-- The name of a field. -/
def text : ConfigField → String
  | .cacheBound => "max_cache"
  | .strict => "strict"
  | .fragmentFolder => "partials_dir"
  | .layoutFolder => "layouts_dir"
  | .locale => "locale"
  | .messages => "translations"

/-- All fields in order. -/
def all : List ConfigField :=
  [.cacheBound, .strict, .fragmentFolder, .layoutFolder, .locale, .messages]

/-- The field of a name. -/
def ofName? (name : String) : Option ConfigField := all.find? (·.text = name)

end ConfigField

end Stencil
