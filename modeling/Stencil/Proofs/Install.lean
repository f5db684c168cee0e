import Stencil.Engine.Plugin
import Stencil.Proofs.Growth

/-!
# What an installation leaves behind

A plugin works on the hooks it is given, while the engine collects apart what further plugins hook
in.  `Plugin.trace` says which acts those are: for each plugin installed in between, in the order in
which they end, its own acts, and then the plugin's own acts.

* `hooks_use` — installing a plugin performs the acts of all plugins in between first, and then its
  own;
* `use_hookPlugin` — for plugins that work on hooks and install others, to any depth, that order is
  the flat one, and no check of the merge fails on the way.
-/

namespace Stencil

/-! ### The acts of a plugin -/

/-- The acts of an installation, plugin by plugin. -/
structure Trace where
  /-- The own acts of the plugins that were installed in between. -/
  inner : List (List Hook) := []
  /-- The own acts of the plugin itself. -/
  own : List Hook := []

namespace Trace

/-- One trace and then another, of the same plugin. -/
def andThen (t t' : Trace) : Trace := ⟨t.inner ++ t'.inner, t.own ++ t'.own⟩

/-- The own acts of all plugins, those in between first. -/
def units (t : Trace) : List (List Hook) := t.inner ++ [t.own]

/-- The acts of the plugins in between. -/
def innerActs (t : Trace) : List Hook := t.inner.flatten

/-- All acts in the order in which they count. -/
def acts (t : Trace) : List Hook := t.units.flatten

theorem acts_eq (t : Trace) : t.acts = t.innerActs ++ t.own := by
  simp [acts, units, innerActs]

end Trace

namespace Engine

/-- What a feature hooks in that makes fragments known. -/
def fragmentActs (e : Engine) : List Hook :=
  if e.setting.fragments.isSome then []
  else
    let (byName, h) := e.store.heap.newNative Template.fragmentFunction (.service .fragment)
    let (byValue, _) := h.newNative Template.chosenFragmentFunction (.service .chosenFragment)
    [.addPreprocessor .inclusions, .inject Template.fragmentFunction (.constant byName),
      .inject Template.chosenFragmentFunction (.constant byValue)]

/-- What a feature hooks in that makes layouts known. -/
def layoutActs (e : Engine) : List Hook :=
  if e.setting.layouts.isSome then [] else [.addFirstPreprocessor .layouts]

/-- What a feature hooks in that makes helpers known. -/
def helperActs (e : Engine) : List Hook :=
  if e.setting.helpers.isSome then [] else [.inject helpersName .helpers]

/-- What a feature hooks in that makes messages known. -/
def messageActs (e : Engine) : List Hook :=
  if e.setting.catalog.isSome then []
  else
    let (byKey, _) := e.store.heap.newNative Template.messageFunction (.service .message)
    [.addPreprocessor .messages, .inject Template.messageFunction (.constant byKey)]

/-- What a feature hooks in that guards the data scope. -/
def guardActs (e : Engine) : List Hook :=
  if e.setting.guarded then [] else [.addWrapper .guarded]

end Engine

mutual

/-- The acts of a plugin that is installed on an engine. -/
def Plugin.trace : Plugin → Engine → Trace
  | .fragments, e => { own := e.fragmentActs }
  | .layouts, e => { own := e.layoutActs }
  | .helpers, e => { own := e.helperActs }
  | .messages _, e => { own := e.messageActs }
  | .guard, e => { own := e.guardActs }
  | .both first second, e =>
    (first.trace e).andThen (second.trace (first.install e {}).1)
  | .steps steps, e => stepsTrace steps e

/-- The acts of a step of a plugin. -/
def PluginStep.trace : PluginStep → Engine → Trace
  | .hook h, _ => { own := [h] }
  | .use p, e => { inner := (p.trace (e.withHooks {})).units }
  | .note _, _ => {}

/-- The acts of steps one after the other. -/
def stepsTrace : List PluginStep → Engine → Trace
  | [], _ => {}
  | step :: steps, e => (step.trace e).andThen (stepsTrace steps (step.install e {}).1)

end

/-! ### Performing a trace -/

/-- The installation performs the trace on the engine: the engine collects the inner acts, and the
own acts come to whatever hooks are given. -/
def Performs (install : Engine → Hooks → Engine × Hooks) (e : Engine) (t : Trace) : Prop :=
  ∃ after : Engine, after.setting.hooks = e.setting.hooks.applyAll t.innerActs ∧
    ∀ hooks : Hooks, install e hooks = (after, hooks.applyAll t.own)

namespace Performs

variable {install next : Engine → Hooks → Engine × Hooks} {e : Engine} {t t' : Trace}

/-- One installation after another performs one trace after the other. -/
theorem andThen (h : Performs install e t) (h' : Performs next (install e {}).1 t') :
    Performs (fun e hooks => next (install e hooks).1 (install e hooks).2) e (t.andThen t') := by
  obtain ⟨between, hinner, hgiven⟩ := h
  obtain ⟨after, hinner', hgiven'⟩ := h'
  rw [hgiven {}] at hinner' hgiven'
  refine ⟨after, ?_, fun hooks => ?_⟩
  · rw [hinner', hinner, ← Hooks.applyAll_append]
    simp only [Trace.innerActs, Trace.andThen, List.flatten_append]
  · show next (install e hooks).1 (install e hooks).2 = _
    rw [hgiven hooks, hgiven', ← Hooks.applyAll_append]
    rfl

/-- Installing through the engine merges the trace into the hooks of the engine. -/
theorem hooks_useWith (h : Performs install (e.withHooks {}) t) :
    (e.useWith install).setting.hooks = e.setting.hooks.applyAll t.acts := by
  obtain ⟨after, hinner, hgiven⟩ := h
  show (install (e.withHooks {}) e.setting.hooks).2.absorb
    (install (e.withHooks {}) e.setting.hooks).1.setting.hooks e.setting.hooks.mark = _
  rw [hgiven, hinner, Trace.acts_eq]
  exact Hooks.absorb_applyAll _ _ _

end Performs

/-! ### Plugins -/

/-- A feature that is installed already performs nothing. -/
theorem performs_feature {install : Engine → Hooks → Engine × Hooks} {e after : Engine}
    {acts : List Hook} (installed : Bool)
    (h : ∀ hooks, install e hooks
      = if installed then (e, hooks) else (after, hooks.applyAll acts))
    (hafter : after.setting.hooks = e.setting.hooks) :
    Performs install e { own := if installed then [] else acts } := by
  cases installed with
  | true => exact ⟨e, rfl, h⟩
  | false => exact ⟨after, hafter, h⟩

mutual

/-- Every plugin performs its trace. -/
theorem Plugin.performs (p : Plugin) (e : Engine) : Performs p.install e (p.trace e) := by
  match p with
  | .fragments => exact performs_feature e.setting.fragments.isSome (fun _ => rfl) rfl
  | .layouts => exact performs_feature e.setting.layouts.isSome (fun _ => rfl) rfl
  | .helpers => exact performs_feature e.setting.helpers.isSome (fun _ => rfl) rfl
  | .messages _ => exact performs_feature e.setting.catalog.isSome (fun _ => rfl) rfl
  | .guard => exact performs_feature e.setting.guarded (fun _ => rfl) rfl
  | .both first second => exact (first.performs e).andThen (second.performs _)
  | .steps steps => exact performs_installSteps steps e

/-- Every step performs its trace. -/
theorem PluginStep.performs (step : PluginStep) (e : Engine) :
    Performs step.install e (step.trace e) := by
  match step with
  | .hook h => exact ⟨e, rfl, fun _ => rfl⟩
  | .note text => exact ⟨e.setNote text, rfl, fun _ => rfl⟩
  | .use p =>
    have h : (e.useWith p.install).setting.hooks = e.setting.hooks.applyAll _ :=
      (p.performs (e.withHooks {})).hooks_useWith
    exact ⟨e.useWith p.install, h, fun _ => rfl⟩

/-- Steps in a row perform their traces in a row. -/
theorem performs_installSteps (steps : List PluginStep) (e : Engine) :
    Performs (installSteps steps) e (stepsTrace steps e) := by
  match steps with
  | [] => exact ⟨e, rfl, fun _ => rfl⟩
  | step :: steps => exact (step.performs e).andThen (performs_installSteps steps _)

end

/-- Installing a plugin performs the acts of all plugins in between, and then its own. -/
theorem hooks_use (e : Engine) (p : Plugin) :
    (e.use p).setting.hooks = e.setting.hooks.applyAll (p.trace (e.withHooks {})).acts :=
  (p.performs _).hooks_useWith

/-! ### Plugins that work on hooks and install others -/

/-- A step of a plugin that only works on hooks and installs plugins of the same kind. -/
inductive HookStep where
  /-- An act of the plugin itself. -/
  | own (h : Hook)
  /-- A plugin with these steps is installed on the engine. -/
  | nested (steps : List HookStep)

mutual

/-- The step of a plugin that it is. -/
def HookStep.toStep : HookStep → PluginStep
  | .own h => .hook h
  | .nested steps => .use (.steps (toSteps steps))

/-- `HookStep.toStep` along a list. -/
def toSteps : List HookStep → List PluginStep
  | [] => []
  | step :: steps => step.toStep :: toSteps steps

end

/-- The plugin with these steps. -/
def hookPlugin (steps : List HookStep) : Plugin := .steps (toSteps steps)

/-- The acts of a plugin itself, in order. -/
def ownActs : List HookStep → List Hook
  | [] => []
  | .own h :: steps => h :: ownActs steps
  | .nested _ :: steps => ownActs steps

mutual

/-- The acts of the plugins that a step installs. -/
def HookStep.flatActs : HookStep → List Hook
  | .own _ => []
  | .nested steps => nestedActs steps ++ ownActs steps

/-- The acts of the plugins that steps install, in the order of the installations. -/
def nestedActs : List HookStep → List Hook
  | [] => []
  | step :: steps => step.flatActs ++ nestedActs steps

end

/-- All acts of a plugin in flat order: first those of the plugins that it installs, each in flat
order itself, and then its own. -/
def flatOrder (steps : List HookStep) : List Hook := nestedActs steps ++ ownActs steps

mutual

/-- What a step does to the hooks that the engine collects and to those that the plugin is given,
with every subtraction and every place of the merge checked. -/
def HookStep.install? : HookStep → Hooks × Hooks → Option (Hooks × Hooks)
  | .own h, (collected, given) => some (collected, given.apply h)
  | .nested steps, (collected, given) => do
    let (inner, after) ← installSteps? steps ({}, collected)
    let merged ← after.absorb? inner collected.mark
    return (merged, given)

/-- `HookStep.install?` along a list. -/
def installSteps? : List HookStep → Hooks × Hooks → Option (Hooks × Hooks)
  | [], hooks => some hooks
  | step :: steps, hooks => do installSteps? steps (← step.install? hooks)

end

/-- The hooks after an installation in which every subtraction and every place is checked. -/
def installed? (steps : List HookStep) (hooks : Hooks) : Option Hooks := do
  let (inner, after) ← installSteps? steps ({}, hooks)
  after.absorb? inner hooks.mark

theorem ownActs_cons (step : HookStep) (steps : List HookStep) :
    ownActs (step :: steps) = ownActs [step] ++ ownActs steps := by
  cases step <;> rfl

mutual

/-- The trace of a step is in flat order, whatever engine it is installed on. -/
theorem HookStep.trace_toStep (step : HookStep) (e : Engine) :
    (step.toStep.trace e).innerActs = step.flatActs ∧
      (step.toStep.trace e).own = ownActs [step] := by
  match step with
  | .own h => exact ⟨rfl, rfl⟩
  | .nested steps =>
    obtain ⟨hinner, hown⟩ := trace_toSteps steps (e.withHooks {})
    refine ⟨?_, rfl⟩
    show (stepsTrace (toSteps steps) (e.withHooks {})).acts = nestedActs steps ++ ownActs steps
    rw [Trace.acts_eq, hinner, hown]

/-- The trace of steps is in flat order, whatever engine they are installed on. -/
theorem trace_toSteps (steps : List HookStep) (e : Engine) :
    (stepsTrace (toSteps steps) e).innerActs = nestedActs steps ∧
      (stepsTrace (toSteps steps) e).own = ownActs steps := by
  match steps with
  | [] => exact ⟨rfl, rfl⟩
  | step :: steps =>
    obtain ⟨hinner, hown⟩ := step.trace_toStep e
    obtain ⟨hinner', hown'⟩ := trace_toSteps steps (step.toStep.install e {}).1
    constructor
    · show ((step.toStep.trace e).inner ++ _).flatten = step.flatActs ++ nestedActs steps
      rw [List.flatten_append, ← hinner, ← hinner']
      rfl
    · rw [ownActs_cons, ← hown, ← hown']
      rfl

end

mutual

/-- No check fails in a step. -/
theorem HookStep.install?_eq (step : HookStep) (collected given : Hooks) :
    step.install? (collected, given)
      = some (collected.applyAll step.flatActs, given.applyAll (ownActs [step])) := by
  match step with
  | .own h => rfl
  | .nested steps =>
    have h : installSteps? steps ({}, collected)
        = some (({} : Hooks).applyAll (nestedActs steps), collected.applyAll (ownActs steps)) :=
      installSteps?_eq steps {} collected
    simp only [HookStep.install?, h, Hooks.absorb?_applyAll, Hooks.absorb_applyAll,
      Option.bind_eq_bind, Option.bind_some, Option.pure_def]
    rfl

/-- No check fails in steps in a row. -/
theorem installSteps?_eq (steps : List HookStep) (collected given : Hooks) :
    installSteps? steps (collected, given)
      = some (collected.applyAll (nestedActs steps), given.applyAll (ownActs steps)) := by
  match steps with
  | [] => rfl
  | step :: steps =>
    have h := step.install?_eq collected given
    simp only [installSteps?, h, Option.bind_eq_bind, Option.bind_some]
    rw [installSteps?_eq steps, ownActs_cons step steps, Hooks.applyAll_append, nestedActs,
      Hooks.applyAll_append]

end

/-- The checked installation performs the acts in flat order. -/
theorem installed?_eq (steps : List HookStep) (hooks : Hooks) :
    installed? steps hooks = some (hooks.applyAll (flatOrder steps)) := by
  simp only [installed?, installSteps?_eq, Hooks.absorb?_applyAll, Hooks.absorb_applyAll,
    Option.bind_eq_bind, Option.bind_some]
  rfl

/-- **Nested installations count as if they came first.**  Installing a plugin that works on hooks
and installs others, to any depth, leaves exactly the hooks that its acts leave in flat order; and
the installation goes through as well when every subtraction and every place of the merge is
checked. -/
theorem use_hookPlugin (e : Engine) (steps : List HookStep) :
    (e.use (hookPlugin steps)).setting.hooks = e.setting.hooks.applyAll (flatOrder steps) ∧
      installed? steps e.setting.hooks = some (e.use (hookPlugin steps)).setting.hooks := by
  have h : (e.use (hookPlugin steps)).setting.hooks
      = e.setting.hooks.applyAll (flatOrder steps) := by
    obtain ⟨hinner, hown⟩ := trace_toSteps steps (e.withHooks {})
    rw [hooks_use, Trace.acts_eq, flatOrder, ← hinner, ← hown]
    rfl
  exact ⟨h, by rw [h, installed?_eq]⟩

end Stencil
