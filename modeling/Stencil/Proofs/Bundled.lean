import Stencil.Proofs.History

/-!
# Engines with bundled features

The features that come with the engine bring no values into routines but native functions and the
object of the helpers, and the helpers are native functions again.  This stays so whatever else is
asked of the engine, unless somebody else hooks something in.

* `Plugin.isBundled`, `Operation.isBundled` — only bundled features are installed;
* `Setting.IsBundled` — all values that routines are given are native functions;
* `isBundled_after` — engines with bundled features only.
-/

namespace Stencil

open Routine

/-! ### Hooks that bring native functions only -/

/-- Whether the value is a native function. -/
def Routine.Value.isNative : Value → Bool
  | .native _ _ _ => true
  | _ => false

/-- Whether the value for a parameter is a native function, or the object of the helpers. -/
def Provider.isBundled : Provider → Bool
  | .constant v => v.isNative
  | .helpers => true
  | .custom _ => false

/-- Whether the act brings in no value but such ones. -/
def Hook.isBundled : Hook → Bool
  | .value p => p.isBundled
  | .inject _ p => p.isBundled
  | _ => true

/-- The values for parameters after acts that bring in such ones. -/
theorem isBundled_applyAll {acts : List Hook} (hacts : ∀ act ∈ acts, act.isBundled = true)
    {h : Hooks} (hh : ∀ p ∈ h.providers, p.isBundled = true) :
    ∀ p ∈ (h.applyAll acts).providers, p.isBundled = true := by
  induction acts generalizing h with
  | nil => exact hh
  | cons act acts ih =>
    obtain ⟨hact, hacts⟩ := List.forall_mem_cons.mp hacts
    refine ih hacts ?_
    have behind {p : Provider} (hp : p.isBundled = true) :
        ∀ p' ∈ h.providers ++ [p], p'.isBundled = true := by
      simpa only [List.forall_mem_append, List.forall_mem_singleton] using ⟨hh, hp⟩
    cases act with
    | value p => exact behind hact
    | inject name p => exact behind hact
    | addPreprocessor | addFirstPreprocessor | addWrapper | addFirstWrapper | parameter => exact hh

/-! ### Bundled features -/

/-- Whether the plugin is a bundled feature, or some of them one after the other. -/
def Plugin.isBundled : Plugin → Bool
  | .both first second => first.isBundled && second.isBundled
  | .steps _ => false
  | _ => true

/-- All acts of a bundled feature bring in native functions only. -/
theorem Plugin.isBundled_acts {p : Plugin} (hp : p.isBundled = true) (e : Engine) :
    ∀ act ∈ (p.trace e).acts, act.isBundled = true := by
  match p with
  | .fragments =>
    show ∀ act ∈ [e.fragmentActs].flatten, _
    rw [List.flatten_singleton, Engine.fragmentActs]
    split
    · exact nofun
    · simp [Heap.newNative, Hook.isBundled, Provider.isBundled, Value.isNative]
  | .layouts =>
    show ∀ act ∈ [e.layoutActs].flatten, _
    rw [List.flatten_singleton, Engine.layoutActs]
    split
    · exact nofun
    · simp [Hook.isBundled]
  | .helpers =>
    show ∀ act ∈ [e.helperActs].flatten, _
    rw [List.flatten_singleton, Engine.helperActs]
    split
    · exact nofun
    · simp [Hook.isBundled, Provider.isBundled]
  | .messages _ =>
    show ∀ act ∈ [e.messageActs].flatten, _
    rw [List.flatten_singleton, Engine.messageActs]
    split
    · exact nofun
    · simp [Heap.newNative, Hook.isBundled, Provider.isBundled, Value.isNative]
  | .guard =>
    show ∀ act ∈ [e.guardActs].flatten, _
    rw [List.flatten_singleton, Engine.guardActs]
    split
    · exact nofun
    · simp [Hook.isBundled]
  | .both first second =>
    obtain ⟨hfirst, hsecond⟩ := Bool.and_eq_true_iff.mp hp
    have ihfirst := first.isBundled_acts hfirst e
    have ihsecond := second.isBundled_acts hsecond (first.install e {}).1
    rw [Trace.acts_eq] at ihfirst ihsecond ⊢
    simp only [Plugin.trace, Trace.innerActs, Trace.andThen, List.flatten_append,
      List.forall_mem_append] at ihfirst ihsecond ⊢
    exact ⟨⟨ihfirst.1, ihsecond.1⟩, ihfirst.2, ihsecond.2⟩
  | .steps _ => cases hp

/-- A bundled feature leaves the function that escapes, and the helpers unless it makes helpers
known. -/
theorem Plugin.install_values {p : Plugin} (hp : p.isBundled = true) (e : Engine) (hooks : Hooks) :
    (p.install e hooks).1.setting.escape = e.setting.escape
      ∧ ((p.install e hooks).1.setting.helpers = e.setting.helpers
        ∨ (p.install e hooks).1.setting.helpers = some .empty) := by
  match p with
  | .fragments =>
    simp only [Plugin.install, Engine.installFragments]
    split <;> exact ⟨rfl, .inl rfl⟩
  | .layouts =>
    simp only [Plugin.install, Engine.installLayouts]
    split <;> exact ⟨rfl, .inl rfl⟩
  | .helpers =>
    simp only [Plugin.install, Engine.installHelpers]
    split
    · exact ⟨rfl, .inl rfl⟩
    · exact ⟨rfl, .inr rfl⟩
  | .messages _ =>
    simp only [Plugin.install, Engine.installMessages]
    split <;> exact ⟨rfl, .inl rfl⟩
  | .guard =>
    simp only [Plugin.install, Engine.installGuard]
    split <;> exact ⟨rfl, .inl rfl⟩
  | .both first second =>
    obtain ⟨hfirst, hsecond⟩ := Bool.and_eq_true_iff.mp hp
    obtain ⟨hescape, hhelpers⟩ := first.install_values hfirst e hooks
    obtain ⟨hescape', hhelpers'⟩ := second.install_values hsecond (first.install e hooks).1
      (first.install e hooks).2
    refine ⟨hescape'.trans hescape, ?_⟩
    rcases hhelpers' with hsame | hempty
    · exact hhelpers.imp hsame.trans hsame.trans
    · exact .inr hempty
  | .steps _ => cases hp

/-! ### Engines -/

/-- Whether the operation hooks nothing in but bundled features. -/
def Operation.isBundled : Operation → Bool
  | .use p => p.isBundled
  | .hook _ => false
  | _ => true

/-- All values that routines are given are native functions. -/
structure Setting.IsBundled (s : Setting) : Prop where
  escape : s.escape.isNative = true
  providers : ∀ p ∈ s.hooks.providers, p.isBundled = true
  helpers : ∀ e ∈ (s.helpers.getD .empty).entries, e.2.isNative = true

theorem isBundled_onStore (store : Store) (codes : Array Helper) (bound : Nat) :
    (Engine.onStore store codes bound).setting.IsBundled := ⟨rfl, nofun, nofun⟩

theorem isBundled_perform {op : Operation} (hop : op.isBundled = true) {e : Engine}
    (h : e.setting.IsBundled) : (op.perform e).2.setting.IsBundled := by
  have hhooks := op.hooks_perform e
  have heffect := op.effect e
  have hproviders : ∀ p ∈ (op.perform e).2.setting.hooks.providers, p.isBundled = true := by
    rw [hhooks]
    refine isBundled_applyAll ?_ h.providers
    cases op with
    | use p => exact p.isBundled_acts hop _
    | hook a => cases hop
    | _ => exact nofun
  cases op with
  | use p =>
    obtain ⟨hescape, hhelpers⟩ := p.install_values hop (e.withHooks {}) e.setting.hooks
    refine ⟨(congrArg Value.isNative hescape).trans h.escape, hproviders, ?_⟩
    intro entry hentry
    have hentry : entry ∈ ((p.install (e.withHooks {}) e.setting.hooks).1.setting.helpers.getD
      .empty).entries := hentry
    rcases hhelpers with hsame | hempty
    · rw [hsame] at hentry
      exact h.helpers entry hentry
    · rw [hempty] at hentry
      cases hentry
  | hook a => cases hop
  | registerHelper name code =>
    simp only [Operation.perform, Engine.registerHelper, Engine.helpers] at hproviders ⊢
    cases hhelpers : e.setting.helpers with
    | none => exact h
    | some helpers =>
      have hold := h.helpers
      rw [hhelpers] at hproviders hold
      refine ⟨h.escape, hproviders, ?_⟩
      intro entry hentry
      rcases mem_putName hentry with hentry | hentry
      · exact hold entry hentry
      · rw [hentry]
        rfl
  | registerFragment | removeFragment | registerLayout | addMessages | setLocale | compile | render
  | renderValue | clear =>
    generalize (Operation.perform e _).2.setting = s at heffect hproviders ⊢
    cases heffect <;> exact ⟨h.escape, hproviders, h.helpers⟩

/-- **Engines with bundled features only** give routines no values but native functions. -/
theorem isBundled_after {ops : List Operation} (hops : ∀ op ∈ ops, op.isBundled = true)
    {e : Engine} (h : e.setting.IsBundled) : (e.after ops).setting.IsBundled := by
  induction ops generalizing e with
  | nil => exact h
  | cons op ops ih =>
    obtain ⟨hop, hops⟩ := List.forall_mem_cons.mp hops
    exact ih hops (isBundled_perform hop h)

end Stencil
