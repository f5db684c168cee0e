import Stencil.Engine.Basic
import Stencil.Template.Shorthand

/-!
# Plugins

A plugin sets an engine up once, when it is installed.  It works on hooks that are given to it and
may install further plugins on the engine itself; what those hook in is collected apart and comes in
where the first plugin began, as if they had been installed first.

* `Plugin`, `PluginStep` — the features, two plugins one after the other, and plugins step by step;
* `Plugin.install` — what a plugin does to the engine and the hooks it is given;
* `Engine.use` — installs a plugin.

A feature that is installed already is left as it is.
-/

namespace Stencil

open Routine

mutual

/-- What sets an engine up. -/
inductive Plugin where
  /-- Templates can include fragments. -/
  | fragments
  /-- Templates can extend layouts. -/
  | layouts
  /-- Templates can call helpers. -/
  | helpers
  /-- Templates can show messages, at first in this locale. -/
  | messages (locale : String)
  /-- Names that nothing binds are refused. -/
  | guard
  /-- One plugin and then another. -/
  | both (first second : Plugin)
  /-- Steps one after the other. -/
  | steps (steps : List PluginStep)

/-- A step of a plugin. -/
inductive PluginStep where
  /-- An act on the hooks. -/
  | hook (h : Hook)
  /-- A plugin is installed on the engine. -/
  | use (p : Plugin)
  /-- A remark is left on the engine. -/
  | note (text : String)

end

instance : Inhabited Plugin := ⟨.steps []⟩

/-- The parameter that holds the helpers. -/
def helpersName : String := "helpers"

namespace Engine

/-- Makes fragments known to an engine that did not know them. -/
def installFragments (e : Engine) (hooks : Hooks) : Engine × Hooks :=
  if e.setting.fragments.isSome then (e, hooks)
  else
    let e := e.change fun s => { s with fragments := some .empty }
    let (byName, e) := e.make fun h => h.newNative Template.fragmentFunction (.service .fragment)
    let (byValue, e) := e.make fun h =>
      h.newNative Template.chosenFragmentFunction (.service .chosenFragment)
    (e, ((hooks.apply (.addPreprocessor .inclusions)).apply
      (.inject Template.fragmentFunction (.constant byName))).apply
      (.inject Template.chosenFragmentFunction (.constant byValue)))

/-- Makes layouts known to an engine that did not know them. -/
def installLayouts (e : Engine) (hooks : Hooks) : Engine × Hooks :=
  if e.setting.layouts.isSome then (e, hooks)
  else
    (e.change fun s => { s with layouts := some .empty },
      hooks.apply (.addFirstPreprocessor .layouts))

/-- Makes helpers known to an engine that did not know them. -/
def installHelpers (e : Engine) (hooks : Hooks) : Engine × Hooks :=
  if e.setting.helpers.isSome then (e, hooks)
  else
    (e.change fun s => { s with helpers := some .empty },
      hooks.apply (.inject helpersName .helpers))

/-- Makes messages known to an engine that did not know them. -/
def installMessages (locale : String) (e : Engine) (hooks : Hooks) : Engine × Hooks :=
  if e.setting.catalog.isSome then (e, hooks)
  else
    let e := e.change fun s => { s with catalog := some { locale := locale } }
    let (byKey, e) := e.make fun h =>
      h.newNative Template.messageFunction (.service .message)
    (e, (hooks.apply (.addPreprocessor .messages)).apply
      (.inject Template.messageFunction (.constant byKey)))

/-- Guards the data scope of an engine that did not guard it. -/
def installGuard (e : Engine) (hooks : Hooks) : Engine × Hooks :=
  if e.setting.guarded then (e, hooks)
  else (e.change fun s => { s with guarded := true }, hooks.apply (.addWrapper .guarded))

/-- The engine with its hooks replaced. -/
def withHooks (e : Engine) (hooks : Hooks) : Engine := e.change fun s => { s with hooks := hooks }

/-- Installs on an engine what works on an engine and the hooks it is given.  It is given the hooks
of the engine, while the engine itself collects the hooks of what is installed in between. -/
def useWith (install : Engine → Hooks → Engine × Hooks) (e : Engine) : Engine :=
  let hooks := e.setting.hooks
  let (inner, after) := install (e.withHooks {}) hooks
  inner.withHooks (after.absorb inner.setting.hooks hooks.mark)

end Engine

mutual

/-- What a plugin does to an engine and to the hooks it is given. -/
def Plugin.install : Plugin → Engine → Hooks → Engine × Hooks
  | .fragments, e, hooks => e.installFragments hooks
  | .layouts, e, hooks => e.installLayouts hooks
  | .helpers, e, hooks => e.installHelpers hooks
  | .messages locale, e, hooks => e.installMessages locale hooks
  | .guard, e, hooks => e.installGuard hooks
  | .both first second, e, hooks =>
    let (e, hooks) := first.install e hooks
    second.install e hooks
  | .steps steps, e, hooks => installSteps steps e hooks

/-- What a step of a plugin does. -/
def PluginStep.install : PluginStep → Engine → Hooks → Engine × Hooks
  | .hook h, e, hooks => (e, hooks.apply h)
  | .use p, e, hooks => (e.useWith p.install, hooks)
  | .note text, e, hooks => (e.setNote text, hooks)

/-- What steps do one after the other. -/
def installSteps : List PluginStep → Engine → Hooks → Engine × Hooks
  | [], e, hooks => (e, hooks)
  | step :: steps, e, hooks =>
    let (e, hooks) := step.install e hooks
    installSteps steps e hooks

end

/-- Installs a plugin. -/
def Engine.use (e : Engine) (p : Plugin) : Engine := e.useWith p.install

end Stencil
