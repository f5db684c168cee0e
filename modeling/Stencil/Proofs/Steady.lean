import Stencil.Proofs.History
import Stencil.Proofs.Kept

/-!
# Steady engines

An engine whose hooks are known stays as it is while no plugin is installed: it has the same hooks,
escapes with a function of its own, and keeps routines of one kind.

* `Kept.perform` — what an engine knows of its routines holds after an operation;
* `Operation.isPlain` — operations that install no plugin and hook nothing;
* `Engine.Steady` — engines with known hooks that keep routines with a property;
* `Engine.Steady.after` — plain operations leave an engine steady.
-/

namespace Stencil

open Routine Template

/-! ### What is known of the kept routines -/

/-- One store that keeps routines with the property. -/
def steadyConnection (s : Setting) (P : String → Compiled → Prop) : Connection :=
  .keeping s P (fun _ => True) trivial fun _ _ => trivial

namespace Kept

variable {e : Engine} {P P' : String → Compiled → Prop} (h : Kept e.setting P e.store)
  (hnew : ∀ template routine, New e.setting template routine → P template routine)
include h hnew

/-- What an engine knows of its routines holds after an operation, if it follows while the
parameters stay. -/
theorem perform (op : Operation)
    (hP : (op.perform e).2.setting.hooks.params = e.setting.hooks.params →
      ∀ template routine, P template routine → P' template routine) :
    Kept (op.perform e).2.setting P' (op.perform e).2.store := by
  have hhooks := op.hooks_perform e
  have hengines : (steadyConnection e.setting P).Engines e e := ⟨rfl, rfl, h⟩
  have hserves : (steadyConnection e.setting P).Serves e.setting :=
    { compile := Connection.agree_keeping hnew (fun _ _ _ _ => trivial) fun _ => trivial
      noFragment := fun _ => trivial
      fragmentDepth := fun _ => trivial
      helper := fun _ _ _ _ _ _ => trivial }
  -- What has to do with routines leaves the setting.
  have after {f : Engine} (hset : f.setting = e.setting)
      (hf : (steadyConnection e.setting P).Engines f f)
      (hP : f.setting.hooks.params = e.setting.hooks.params → ∀ template routine,
        P template routine → P' template routine) : Kept f.setting P' f.store :=
    have hhooks : f.setting.hooks = e.setting.hooks.applyAll [] := congrArg Setting.hooks hset
    (hset ▸ Connection.kept_of_engines hset hf : Kept e.setting P f.store).mono hhooks hP
  by_cases hquiet : op.isQuiet = true
  · rw [Operation.store_perform hquiet e]
    exact (h.mono hhooks hP).change _
  · cases op with
    | compile template =>
      exact after (e.setting_compile template) (hengines.compile hserves template).engines hP
    | render bound template data =>
      let v := e.make fun heap => heap.ofJson data
      have hmade : (steadyConnection e.setting P).Engines v.2 v.2 := ⟨rfl, rfl, h.change _⟩
      exact after (e.setting_render bound template data)
        (hmade.renderValue hserves bound template v.1).engines hP
    | renderValue bound template v =>
      exact after (e.setting_renderValue bound template v)
        (hengines.renderValue hserves bound template v).engines hP
    | clear => exact (Kept.of_clear h.version_le).mono hhooks hP
    | _ => exact absurd rfl hquiet

end Kept

/-! ### Engines with known hooks -/

/-- The operation installs no plugin and hooks nothing. -/
def Operation.isPlain : Operation → Bool
  | .use _ => false
  | .hook _ => false
  | _ => true

/-- The engine has these hooks, and keeps routines with the property only. -/
structure Engine.Steady (hooks : Hooks) (P : String → Compiled → Prop) (e : Engine) : Prop where
  /-- The hooks are these. -/
  hooks : e.setting.hooks = hooks
  /-- The function that escapes is the one of the engine. -/
  escape : ∃ identity, e.setting.escape = .native escapeName (.service .escape) identity
  /-- The kept routines have the property. -/
  kept : Kept e.setting P e.store

namespace Engine.Steady

variable {hooks : Hooks} {P : String → Compiled → Prop} {e : Engine} (h : e.Steady hooks P)
include h

theorem make {α : Type} (f : Heap → α × Heap) : (e.make f).2.Steady hooks P :=
  ⟨h.hooks, h.escape, h.kept.change _⟩

variable (hnew : ∀ s : Setting, s.hooks = hooks → ∀ template routine, New s template routine →
  P template routine)
include hnew

/-- Plain operations leave an engine steady. -/
theorem perform {op : Operation} (hop : op.isPlain = true) : (op.perform e).2.Steady hooks P := by
  have hacts : op.acts e = [] := by
    cases op with
    | use p => cases hop
    | hook a => cases hop
    | _ => rfl
  have hhooks := op.hooks_perform e
  rw [hacts] at hhooks
  have hescape : (op.perform e).2.setting.escape = e.setting.escape := by
    have heffect := op.effect e
    generalize (op.perform e).2.setting = s at heffect
    cases heffect with
    | use p => cases hop
    | _ => rfl
  refine ⟨hhooks.trans h.hooks, ?_, ?_⟩
  · rw [hescape]
    exact h.escape
  · exact h.kept.perform (hnew e.setting h.hooks) op fun _ _ _ hr => hr

/-- An engine stays steady while no plugin is installed. -/
theorem after {ops : List Operation} (hops : ∀ op ∈ ops, op.isPlain = true) :
    (e.after ops).Steady hooks P := by
  induction ops generalizing e with
  | nil => exact h
  | cons op ops ih =>
    exact ih (h.perform hnew (hops op List.mem_cons_self)) fun other hother =>
      hops other (List.mem_cons_of_mem op hother)

end Engine.Steady

end Stencil
