import Stencil.Proofs.Install

/-!
# Plugins one after the other

Two plugins can be installed as one, or the second after the first.  As one plugin they have one
installation between them: whatever either of them installs on the engine comes in where that
installation began, in front of the own acts of both.  Installed apart, the second begins where the
first has ended.  So the two ways differ in the order of two lots of acts, the own acts of the first
plugin and those of the plugins that the second installs.

* `use_both_hookPlugin`, `use_hookPlugin_use` — the order of all acts for either way;
* `Growth.Commutes`, `Hooks.sameLists_iff_commutes` — two lots of acts leave the same lists in either
  order exactly if at each end of each list what they add comes to the same in either order;
* `use_both_sameLists_iff` — when two plugins as one are the same as one after the other;
* `use_both_of_apart` — they are where the two lots have no end of a list in common.
-/

namespace Stencil

/-! ### The order of the acts -/

/-- As one plugin, two plugins have the acts that either installs, and the own acts of both. -/
theorem trace_both_hookPlugin (first second : List HookStep) (e : Engine) :
    (Plugin.trace (.both (hookPlugin first) (hookPlugin second)) e).innerActs
        = nestedActs first ++ nestedActs second ∧
      (Plugin.trace (.both (hookPlugin first) (hookPlugin second)) e).own
        = ownActs first ++ ownActs second := by
  obtain ⟨hinner, hown⟩ := trace_toSteps first e
  obtain ⟨hinner', hown'⟩ := trace_toSteps second ((hookPlugin first).install e {}).1
  constructor
  · rw [← hinner, ← hinner']
    exact List.flatten_append
  · rw [← hown, ← hown']
    rfl

/-- Two plugins as one: the plugins that either installs come first, and then the own acts. -/
theorem use_both_hookPlugin (e : Engine) (first second : List HookStep) :
    (e.use (.both (hookPlugin first) (hookPlugin second))).setting.hooks
      = e.setting.hooks.applyAll
          (nestedActs first ++ nestedActs second ++ (ownActs first ++ ownActs second)) := by
  obtain ⟨hinner, hown⟩ := trace_both_hookPlugin first second (e.withHooks {})
  rw [hooks_use, Trace.acts_eq, hinner, hown]

/-- One plugin after the other: all acts of the first come before all acts of the second. -/
theorem use_hookPlugin_use (e : Engine) (first second : List HookStep) :
    ((e.use (hookPlugin first)).use (hookPlugin second)).setting.hooks
      = e.setting.hooks.applyAll
          (nestedActs first ++ ownActs first ++ (nestedActs second ++ ownActs second)) := by
  rw [(use_hookPlugin _ second).1, (use_hookPlugin e first).1, ← Hooks.applyAll_append]
  rfl

/-! ### Hooks in the same order -/

/-- The hooks are the same, in the same order: the four lists that an engine works with. -/
structure Hooks.SameLists (h h' : Hooks) : Prop where
  preprocessors : h.preprocessors.hooks = h'.preprocessors.hooks
  wrappers : h.wrappers.hooks = h'.wrappers.hooks
  params : h.params = h'.params
  providers : h.providers = h'.providers

namespace Growth

/-- It does not matter which of two growths comes first: at each end of each list, what one adds
and what the other adds come to the same in either order. -/
structure Commutes (g g' : Growth) : Prop where
  preFront : g.preFront ++ g'.preFront = g'.preFront ++ g.preFront
  preBack : g.preBack ++ g'.preBack = g'.preBack ++ g.preBack
  wrapFront : g.wrapFront ++ g'.wrapFront = g'.wrapFront ++ g.wrapFront
  wrapBack : g.wrapBack ++ g'.wrapBack = g'.wrapBack ++ g.wrapBack
  params : g.params ++ g'.params = g'.params ++ g.params
  providers : g.providers ++ g'.providers = g'.providers ++ g.providers

/-- Two growths have no end of a list in common. -/
structure Apart (g g' : Growth) : Prop where
  preFront : g.preFront = [] ∨ g'.preFront = []
  preBack : g.preBack = [] ∨ g'.preBack = []
  wrapFront : g.wrapFront = [] ∨ g'.wrapFront = []
  wrapBack : g.wrapBack = [] ∨ g'.wrapBack = []
  params : g.params = [] ∨ g'.params = []
  providers : g.providers = [] ∨ g'.providers = []

/-- Lists of which one is empty come to the same in either order. -/
theorem append_comm_of_nil {α : Type} {xs ys : List α} (h : xs = [] ∨ ys = []) :
    xs ++ ys = ys ++ xs := by
  obtain rfl | rfl := h <;> simp

theorem Apart.commutes {g g' : Growth} (h : g.Apart g') : g.Commutes g' :=
  ⟨append_comm_of_nil h.preFront, append_comm_of_nil h.preBack, append_comm_of_nil h.wrapFront,
    append_comm_of_nil h.wrapBack, append_comm_of_nil h.params, append_comm_of_nil h.providers⟩

end Growth

namespace HookList

variable {α : Type}

/-- Between the same growths, two growths in either order leave the same list exactly if they
commute at both ends. -/
theorem grow_hooks_eq_iff (l : HookList α) (front back front' back' outer outer' : List α) :
    (((l.grow front' back').grow front back).grow outer outer').hooks
        = (((l.grow front back).grow front' back').grow outer outer').hooks
      ↔ front ++ front' = front' ++ front ∧ back ++ back' = back' ++ back := by
  have hlength : (front ++ front').length = (front' ++ front).length := by
    simp only [List.length_append, Nat.add_comm]
  simp only [grow, List.append_assoc, List.append_cancel_left_eq]
  rw [← List.append_assoc front, ← List.append_assoc front', ← List.append_assoc back',
    ← List.append_assoc back]
  constructor
  · intro h
    obtain ⟨hfront, hrest⟩ := List.append_inj h hlength
    exact ⟨hfront, (List.append_cancel_right (List.append_cancel_left hrest)).symm⟩
  · rintro ⟨hfront, hback⟩
    rw [hfront, hback]

end HookList

namespace Hooks

/-- Two lots of acts between others leave the same hooks in either order exactly if their growths
commute. -/
theorem sameLists_iff_commutes (h : Hooks) (before acts acts' after : List Hook) :
    (h.applyAll (before ++ acts' ++ (acts ++ after))).SameLists
        (h.applyAll (before ++ acts ++ (acts' ++ after)))
      ↔ (Growth.ofHooks acts).Commutes (Growth.ofHooks acts') := by
  simp only [applyAll_append]
  simp only [applyAll_eq_grow]
  generalize h.grow (Growth.ofHooks before) = h
  generalize Growth.ofHooks acts = g
  generalize Growth.ofHooks acts' = g'
  generalize Growth.ofHooks after = outer
  have hpre := h.preprocessors.grow_hooks_eq_iff g.preFront g.preBack g'.preFront g'.preBack
    outer.preFront outer.preBack
  have hwrap := h.wrappers.grow_hooks_eq_iff g.wrapFront g.wrapBack g'.wrapFront g'.wrapBack
    outer.wrapFront outer.wrapBack
  constructor
  · rintro ⟨hp, hw, hparams, hproviders⟩
    obtain ⟨hpf, hpb⟩ := hpre.mp hp
    obtain ⟨hwf, hwb⟩ := hwrap.mp hw
    simp only [grow, List.append_cancel_right_eq] at hparams hproviders
    simp only [List.append_assoc, List.append_cancel_left_eq] at hparams hproviders
    exact ⟨hpf, hpb, hwf, hwb, hparams.symm, hproviders.symm⟩
  · rintro ⟨hpf, hpb, hwf, hwb, hparams, hproviders⟩
    refine ⟨hpre.mpr ⟨hpf, hpb⟩, hwrap.mpr ⟨hwf, hwb⟩, ?_, ?_⟩
    · simp only [grow, List.append_assoc, List.append_cancel_left_eq]
      rw [← List.append_assoc, ← hparams, List.append_assoc]
    · simp only [grow, List.append_assoc, List.append_cancel_left_eq]
      rw [← List.append_assoc, ← hproviders, List.append_assoc]

end Hooks

/-! ### Composing -/

/-- **Two plugins as one.**  Installed as one plugin, two plugins that work on hooks and install
others leave the acts of all plugins that either installs first, and then the own acts of both.
Those are the same hooks in the same order as one plugin after the other leaves, exactly if the own
acts of the first and the acts of the plugins that the second installs commute. -/
theorem use_both_sameLists_iff (e : Engine) (first second : List HookStep) :
    (e.use (.both (hookPlugin first) (hookPlugin second))).setting.hooks
        = e.setting.hooks.applyAll
            (nestedActs first ++ nestedActs second ++ (ownActs first ++ ownActs second)) ∧
      ((e.use (.both (hookPlugin first) (hookPlugin second))).setting.hooks.SameLists
          ((e.use (hookPlugin first)).use (hookPlugin second)).setting.hooks
        ↔ (Growth.ofHooks (ownActs first)).Commutes (Growth.ofHooks (nestedActs second))) := by
  refine ⟨use_both_hookPlugin e first second, ?_⟩
  rw [use_both_hookPlugin, use_hookPlugin_use]
  exact Hooks.sameLists_iff_commutes _ _ _ _ _

/-- A plugin that appends a text to each template. -/
def appending (suffix : String) : List HookStep := [.own (.addPreprocessor (.custom (· ++ suffix)))]

/-- The plugin that appends `a`, and a plugin that installs the one that appends `b`: as one plugin
they append `b` first, and one after the other `a` first. -/
theorem use_both_differs_appending :
    ¬ ((Engine.create 1).use (.both (hookPlugin (appending "a"))
          (hookPlugin [.nested (appending "b")]))).setting.hooks.SameLists
        (((Engine.create 1).use (hookPlugin (appending "a"))).use
          (hookPlugin [.nested (appending "b")])).setting.hooks := by
  rintro ⟨h, -, -, -⟩
  have h : [Preprocessor.custom (· ++ "b"), .custom (· ++ "a")]
      = [.custom (· ++ "a"), .custom (· ++ "b")] := h
  simp only [List.cons.injEq, Preprocessor.custom.injEq] at h
  exact absurd (congrFun h.1 "") (by decide)

/-- Two plugins as one are the same as one after the other where at no end of a list both the own
acts of the first and the plugins that the second installs add something. -/
theorem use_both_of_apart (e : Engine) {first second : List HookStep}
    (h : (Growth.ofHooks (ownActs first)).Apart (Growth.ofHooks (nestedActs second))) :
    (e.use (.both (hookPlugin first) (hookPlugin second))).setting.hooks.SameLists
      ((e.use (hookPlugin first)).use (hookPlugin second)).setting.hooks := by
  rw [use_both_hookPlugin, use_hookPlugin_use]
  exact (Hooks.sameLists_iff_commutes _ _ _ _ _).mpr h.commutes

end Stencil
