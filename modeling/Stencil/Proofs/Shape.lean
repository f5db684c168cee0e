import Stencil.Proofs.History

/-!
# How operations change the pipeline

What templates become is decided by the preprocessors, the wrappers and the layouts.  Operations
change these in a way that depends on them and on the features that are installed, but on no value
and on no routine.

* `Setting.pipeline` — what decides what templates become;
* `Setting.SameShape` — two settings with one pipeline and the same features;
* `Plugin.keepsShape` — a plugin does the same to the shape of both;
* `sameShape_perform` — and so does every operation.
-/

namespace Stencil

open Routine

/-! ### Pipelines -/

/-- What decides what templates become, apart from the parameters. -/
def Setting.pipeline (s : Setting) :
    HookList Preprocessor × HookList Wrapper × Option (Roster String) :=
  (s.hooks.preprocessors, s.hooks.wrappers, s.layouts)

/-- While the pipeline and the parameters stay, templates become the same. -/
theorem source_eq {s s' : Setting} (h : s.pipeline = s'.pipeline) (template : String) :
    s.source template = s'.source template := by
  simp only [Setting.pipeline] at h
  rw [Prod.mk.injEq, Prod.mk.injEq] at h
  obtain ⟨hpre, hwrap, hlayouts⟩ := h
  simp only [Setting.source, Setting.wrap, Setting.preprocess]
  rw [hpre, hwrap, hlayouts]

/-- Two settings with one pipeline and the same features. -/
structure Setting.SameShape (s s' : Setting) : Prop where
  preprocessors : s.hooks.preprocessors = s'.hooks.preprocessors
  wrappers : s.hooks.wrappers = s'.hooks.wrappers
  layouts : s.layouts = s'.layouts
  fragments : s.fragments.isSome = s'.fragments.isSome
  helpers : s.helpers.isSome = s'.helpers.isSome
  catalog : s.catalog.isSome = s'.catalog.isSome
  guarded : s.guarded = s'.guarded

/-- Two lists of hooks that differ at most in parameters and values. -/
structure Hooks.SameShape (h h' : Hooks) : Prop where
  preprocessors : h.preprocessors = h'.preprocessors
  wrappers : h.wrappers = h'.wrappers

theorem Setting.SameShape.pipeline {s s' : Setting} (h : s.SameShape s') :
    s.pipeline = s'.pipeline := by
  simp only [Setting.pipeline]
  rw [h.preprocessors, h.wrappers, h.layouts]

theorem Setting.SameShape.hooks {s s' : Setting} (h : s.SameShape s') :
    s.hooks.SameShape s'.hooks :=
  ⟨h.preprocessors, h.wrappers⟩

theorem Setting.SameShape.withHooks {s s' : Setting} (h : s.SameShape s') {hooks hooks' : Hooks}
    (hh : hooks.SameShape hooks') :
    Setting.SameShape { s with hooks := hooks } { s' with hooks := hooks' } :=
  ⟨hh.preprocessors, hh.wrappers, h.layouts, h.fragments, h.helpers, h.catalog, h.guarded⟩

/-- An act does the same to both, whatever values it brings. -/
theorem Hooks.SameShape.apply {h h' : Hooks} (hh : h.SameShape h') (act : Hook) :
    (h.apply act).SameShape (h'.apply act) := by
  cases act with
  | addPreprocessor p | addFirstPreprocessor p =>
    refine ⟨?_, hh.wrappers⟩
    show _ = _
    simp only [Hooks.apply, hh.preprocessors]
  | addWrapper w | addFirstWrapper w =>
    refine ⟨hh.preprocessors, ?_⟩
    simp only [Hooks.apply, hh.wrappers]
  | parameter | value | inject => exact ⟨hh.preprocessors, hh.wrappers⟩

theorem Hooks.SameShape.inject {h h' : Hooks} (hh : h.SameShape h') (name : String)
    (p p' : Provider) : (h.apply (.inject name p)).SameShape (h'.apply (.inject name p')) :=
  ⟨hh.preprocessors, hh.wrappers⟩

/-! ### Plugins -/

/-- An installation does the same to the shapes of both engines and both hooks. -/
def KeepsShape (install : Engine → Hooks → Engine × Hooks) : Prop :=
  ∀ (e f : Engine) (h h' : Hooks), e.setting.SameShape f.setting → h.SameShape h' →
    (install e h).1.setting.SameShape (install f h').1.setting ∧
      (install e h).2.SameShape (install f h').2

theorem KeepsShape.useWith {install : Engine → Hooks → Engine × Hooks} (hi : KeepsShape install)
    {e f : Engine} (h : e.setting.SameShape f.setting) :
    (e.useWith install).setting.SameShape (f.useWith install).setting := by
  have hstart : (e.withHooks {}).setting.SameShape (f.withHooks {}).setting :=
    h.withHooks ⟨rfl, rfl⟩
  obtain ⟨hinner, hafter⟩ := hi _ _ _ _ hstart h.hooks
  refine hinner.withHooks ⟨?_, ?_⟩
  · show HookList.absorb _ _ e.setting.hooks.preprocessors.mark
      = HookList.absorb _ _ f.setting.hooks.preprocessors.mark
    rw [hafter.preprocessors, hinner.preprocessors, h.preprocessors]
  · show HookList.absorb _ _ e.setting.hooks.wrappers.mark
      = HookList.absorb _ _ f.setting.hooks.wrappers.mark
    rw [hafter.wrappers, hinner.wrappers, h.wrappers]

theorem keepsShape_fragments : KeepsShape Engine.installFragments := by
  intro e f h h' hs hh
  simp only [Engine.installFragments]
  rw [← hs.fragments]
  split
  · exact ⟨hs, hh⟩
  · exact ⟨⟨hs.preprocessors, hs.wrappers, hs.layouts, rfl, hs.helpers, hs.catalog, hs.guarded⟩,
      ((hh.apply (.addPreprocessor .inclusions)).inject _ _ _).inject _ _ _⟩

theorem keepsShape_layouts : KeepsShape Engine.installLayouts := by
  intro e f h h' hs hh
  simp only [Engine.installLayouts]
  rw [← hs.layouts]
  split
  · exact ⟨hs, hh⟩
  · exact ⟨⟨hs.preprocessors, hs.wrappers, rfl, hs.fragments, hs.helpers, hs.catalog, hs.guarded⟩,
      hh.apply (.addFirstPreprocessor .layouts)⟩

theorem keepsShape_helpers : KeepsShape Engine.installHelpers := by
  intro e f h h' hs hh
  simp only [Engine.installHelpers]
  rw [← hs.helpers]
  split
  · exact ⟨hs, hh⟩
  · exact ⟨⟨hs.preprocessors, hs.wrappers, hs.layouts, hs.fragments, rfl, hs.catalog, hs.guarded⟩,
      hh.inject helpersName _ _⟩

theorem keepsShape_messages (locale : String) : KeepsShape (Engine.installMessages locale) := by
  intro e f h h' hs hh
  simp only [Engine.installMessages]
  rw [← hs.catalog]
  split
  · exact ⟨hs, hh⟩
  · exact ⟨⟨hs.preprocessors, hs.wrappers, hs.layouts, hs.fragments, hs.helpers, rfl, hs.guarded⟩,
      (hh.apply (.addPreprocessor .messages)).inject _ _ _⟩

theorem keepsShape_guard : KeepsShape Engine.installGuard := by
  intro e f h h' hs hh
  simp only [Engine.installGuard]
  rw [← hs.guarded]
  split
  · exact ⟨hs, hh⟩
  · exact ⟨⟨hs.preprocessors, hs.wrappers, hs.layouts, hs.fragments, hs.helpers, hs.catalog, rfl⟩,
      hh.apply (.addWrapper .guarded)⟩

mutual

/-- What a plugin does to the pipeline depends on the features that there are, and on no value. -/
theorem Plugin.keepsShape (p : Plugin) : KeepsShape p.install := by
  match p with
  | .fragments => exact keepsShape_fragments
  | .layouts => exact keepsShape_layouts
  | .helpers => exact keepsShape_helpers
  | .messages locale => exact keepsShape_messages locale
  | .guard => exact keepsShape_guard
  | .both first second =>
    intro e f h h' hs hh
    obtain ⟨hs, hh⟩ := first.keepsShape _ _ _ _ hs hh
    exact second.keepsShape _ _ _ _ hs hh
  | .steps steps => exact keepsShape_installSteps steps

/-- What a step does to the pipeline depends on no value either. -/
theorem PluginStep.keepsShape (step : PluginStep) : KeepsShape step.install := by
  intro e f h h' hs hh
  match step with
  | .hook act => exact ⟨hs, hh.apply act⟩
  | .use p =>
    have hp : KeepsShape p.install := p.keepsShape
    exact ⟨hp.useWith hs, hh⟩
  | .note text =>
    exact ⟨⟨hs.preprocessors, hs.wrappers, hs.layouts, hs.fragments, hs.helpers, hs.catalog,
      hs.guarded⟩, hh⟩

/-- Nor does what steps in a row do. -/
theorem keepsShape_installSteps (steps : List PluginStep) : KeepsShape (installSteps steps) := by
  intro e f h h' hs hh
  match steps with
  | [] => exact ⟨hs, hh⟩
  | step :: steps =>
    obtain ⟨hs, hh⟩ := step.keepsShape _ _ _ _ hs hh
    exact keepsShape_installSteps steps _ _ _ _ hs hh

end

/-! ### Operations -/

theorem Setting.SameShape.withFragments {s s' : Setting} (h : s.SameShape s')
    (r r' : Roster String) :
    Setting.SameShape { s with fragments := some r } { s' with fragments := some r' } :=
  ⟨h.preprocessors, h.wrappers, h.layouts, rfl, h.helpers, h.catalog, h.guarded⟩

theorem Setting.SameShape.withCatalog {s s' : Setting} (h : s.SameShape s') (c c' : Catalog) :
    Setting.SameShape { s with catalog := some c } { s' with catalog := some c' } :=
  ⟨h.preprocessors, h.wrappers, h.layouts, h.fragments, h.helpers, rfl, h.guarded⟩

theorem isSome_cases {α : Type} {x y : Option α} (h : x.isSome = y.isSome) :
    x = none ∧ y = none ∨ ∃ a b, x = some a ∧ y = some b := by
  cases x with
  | none =>
    cases y with
    | none => exact .inl ⟨rfl, rfl⟩
    | some b => cases h
  | some a =>
    cases y with
    | none => cases h
    | some b => exact .inr ⟨a, b, rfl, rfl⟩

/-- Every operation does the same to the shapes of two engines. -/
theorem sameShape_perform (op : Operation) {e f : Engine} (h : e.setting.SameShape f.setting) :
    (op.perform e).2.setting.SameShape (op.perform f).2.setting := by
  cases op with
  | use p =>
    have hp : KeepsShape p.install := p.keepsShape
    exact hp.useWith h
  | hook act => exact h.withHooks (h.hooks.apply act)
  | registerFragment name source =>
    simp only [Operation.perform, Engine.registerFragment, Engine.fragments]
    rcases isSome_cases h.fragments with ⟨hx, hy⟩ | ⟨r, r', hx, hy⟩
    · rw [hx, hy]
      exact h
    · rw [hx, hy]
      exact h.withFragments _ _
  | removeFragment name =>
    simp only [Operation.perform, Engine.removeFragment, Engine.fragments]
    rcases isSome_cases h.fragments with ⟨hx, hy⟩ | ⟨r, r', hx, hy⟩
    · rw [hx, hy]
      exact h
    · rw [hx, hy]
      exact h.withFragments _ _
  | registerLayout name source =>
    simp only [Operation.perform, Engine.registerLayout, Engine.layouts]
    rw [← h.layouts]
    cases e.setting.layouts with
    | none => exact h
    | some r =>
      exact ⟨h.preprocessors, h.wrappers, rfl, h.fragments, h.helpers, h.catalog, h.guarded⟩
  | registerHelper name code =>
    simp only [Operation.perform, Engine.registerHelper, Engine.helpers]
    rcases isSome_cases h.helpers with ⟨hx, hy⟩ | ⟨r, r', hx, hy⟩
    · rw [hx, hy]
      exact h
    · rw [hx, hy]
      exact ⟨h.preprocessors, h.wrappers, h.layouts, h.fragments, rfl, h.catalog, h.guarded⟩
  | addMessages locale messages =>
    simp only [Operation.perform, Engine.addMessages, Engine.catalog]
    rcases isSome_cases h.catalog with ⟨hx, hy⟩ | ⟨r, r', hx, hy⟩
    · rw [hx, hy]
      exact h
    · rw [hx, hy]
      exact h.withCatalog _ _
  | setLocale locale =>
    simp only [Operation.perform, Engine.setLocale, Engine.catalog]
    rcases isSome_cases h.catalog with ⟨hx, hy⟩ | ⟨r, r', hx, hy⟩
    · rw [hx, hy]
      exact h
    · rw [hx, hy]
      exact h.withCatalog _ _
  | compile template =>
    show (e.compile template).2.setting.SameShape (f.compile template).2.setting
    rw [e.setting_compile, f.setting_compile]
    exact h
  | render bound template data =>
    show (e.render bound template data).2.setting.SameShape (f.render bound template data).2.setting
    rw [e.setting_render, f.setting_render]
    exact h
  | renderValue bound template v =>
    show (e.renderValue bound template v).2.setting.SameShape
      (f.renderValue bound template v).2.setting
    rw [e.setting_renderValue, f.setting_renderValue]
    exact h
  | clear => exact h

end Stencil
