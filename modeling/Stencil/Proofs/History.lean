import Stencil.Proofs.Install
import Stencil.Proofs.SideBySide

/-!
# Histories of engines

What callers ask of an engine over its life, one operation after the other.

* `Operation`, `Operation.perform` — the operations, and what one of them does to an engine;
* `Engine.after`, `Engine.answers` — the engine after operations, and what they answered;
* `Engine.units` — the acts on the hooks, by whoever performs them: each plugin is a unit, and the
  caller has one for each stretch between two installations;
* `hooks_after` — the hooks after operations are those that the acts of all units leave;
* `Operation.Effect` — all that an operation can make of the setting;
* `perform_onto` — operations that have nothing to do with routines neither read nor change them.
-/

namespace Stencil

open Routine

/-- What a caller asks of an engine. -/
inductive Operation where
  /-- A plugin is installed. -/
  | use (p : Plugin)
  /-- The caller works on the hooks. -/
  | hook (h : Hook)
  | registerFragment (name source : String)
  | removeFragment (name : String)
  | registerLayout (name source : String)
  | registerHelper (name : String) (code : Helper)
  | addMessages (locale : String) (messages : List (String × String))
  | setLocale (locale : String)
  | compile (template : String)
  /-- A template is rendered, with a bound on the steps of the run. -/
  | render (bound : Nat) (template : Option String) (data : Json)
  | renderValue (bound : Nat) (template : Option String) (data : Value)
  | clear

/-- What an operation answers: an error, a text, or nothing. -/
abbrev Answer : Type := Except Error (Option String)

instance decidableEqExcept {ε α : Type} [DecidableEq ε] [DecidableEq α] :
    DecidableEq (Except ε α)
  | .ok a, .ok b => decidable_of_iff (a = b) ⟨congrArg Except.ok, Except.ok.inj⟩
  | .error e, .error f => decidable_of_iff (e = f) ⟨congrArg Except.error, Except.error.inj⟩
  | .ok _, .error _ => isFalse nofun
  | .error _, .ok _ => isFalse nofun

namespace Operation

/-- An operation that says nothing if it goes well, and changes nothing if it does not. -/
def told (e : Engine) : Except Error Engine → Answer × Engine
  | .ok e => (.ok none, e)
  | .error err => (.error err, e)

/-- What an operation answers, and the engine after it. -/
def perform (e : Engine) : Operation → Answer × Engine
  | .use p => (.ok none, e.use p)
  | .hook h => (.ok none, e.applyHook h)
  | .registerFragment name source => told e (e.registerFragment name source)
  | .removeFragment name =>
    match e.removeFragment name with
    | .ok (source, e) => (.ok source, e)
    | .error err => (.error err, e)
  | .registerLayout name source => told e (e.registerLayout name source)
  | .registerHelper name code => told e (e.registerHelper name code)
  | .addMessages locale messages => told e (e.addMessages locale messages)
  | .setLocale locale => told e (e.setLocale locale)
  | .compile template =>
    let (r, e) := e.compile template
    (r.map fun _ => none, e)
  | .render bound template data =>
    let (r, e) := e.render bound template data
    (r.map some, e)
  | .renderValue bound template data =>
    let (r, e) := e.renderValue bound template data
    (r.map some, e)
  | .clear => (.ok none, e.clear)

end Operation

namespace Engine

/-- The engine after operations. -/
def after (e : Engine) : List Operation → Engine
  | [] => e
  | op :: ops => (op.perform e).2.after ops

/-- What operations answer, one after the other. -/
def answers (e : Engine) : List Operation → List Answer
  | [] => []
  | op :: ops => (op.perform e).1 :: (op.perform e).2.answers ops

end Engine

/-! ### What operations do to the hooks -/

namespace Operation

/-- The acts that an operation performs on the hooks. -/
def acts (e : Engine) : Operation → List Hook
  | .use p => (p.trace (e.withHooks {})).acts
  | .hook h => [h]
  | _ => []

/-- What an operation can make of the setting of an engine. -/
inductive Effect (e : Engine) : Operation → Setting → Prop where
  | use (p : Plugin) : Effect e (.use p) (e.use p).setting
  | hook (h : Hook) : Effect e (.hook h) { e.setting with hooks := e.setting.hooks.apply h }
  | fragments {op : Operation} (hop : op.acts e = []) (r : Roster String) :
    Effect e op { e.setting with fragments := some r }
  | layouts {op : Operation} (hop : op.acts e = []) (r : Roster String) :
    Effect e op { e.setting with layouts := some r }
  | helper (name : String) (code : Helper) (r : Roster Value) :
    Effect e (.registerHelper name code)
      { e.setting with helpers := some r, codes := e.setting.codes.push code }
  | catalog {op : Operation} (hop : op.acts e = []) (c : Catalog) :
    Effect e op { e.setting with catalog := some c }
  | nothing {op : Operation} (hop : op.acts e = []) : Effect e op e.setting

theorem effect (op : Operation) (e : Engine) : Effect e op (op.perform e).2.setting := by
  cases op with
  | use p => exact .use p
  | hook h => exact .hook h
  | registerFragment name source =>
    simp only [perform, Engine.registerFragment, Engine.fragments]
    cases e.setting.fragments with
    | none => exact .nothing rfl
    | some r => exact .fragments rfl _
  | removeFragment name =>
    simp only [perform, Engine.removeFragment, Engine.fragments]
    cases e.setting.fragments with
    | none => exact .nothing rfl
    | some r => exact .fragments rfl _
  | registerLayout name source =>
    simp only [perform, Engine.registerLayout, Engine.layouts]
    cases e.setting.layouts with
    | none => exact .nothing rfl
    | some r => exact .layouts rfl _
  | registerHelper name code =>
    simp only [perform, Engine.registerHelper, Engine.helpers]
    cases e.setting.helpers with
    | none => exact .nothing rfl
    | some r => exact .helper name code _
  | addMessages locale messages =>
    simp only [perform, Engine.addMessages, Engine.catalog]
    cases e.setting.catalog with
    | none => exact .nothing rfl
    | some c => exact .catalog rfl _
  | setLocale locale =>
    simp only [perform, Engine.setLocale, Engine.catalog]
    cases e.setting.catalog with
    | none => exact .nothing rfl
    | some c => exact .catalog rfl _
  | compile template =>
    have h := e.setting_compile template
    show Effect e _ (e.compile template).2.setting
    rw [h]
    exact .nothing rfl
  | render bound template data =>
    have h := e.setting_render bound template data
    show Effect e _ (e.render bound template data).2.setting
    rw [h]
    exact .nothing rfl
  | renderValue bound template v =>
    have h := e.setting_renderValue bound template v
    show Effect e _ (e.renderValue bound template v).2.setting
    rw [h]
    exact .nothing rfl
  | clear => exact .nothing rfl

/-- An operation performs its acts on the hooks. -/
theorem hooks_perform (op : Operation) (e : Engine) :
    (op.perform e).2.setting.hooks = e.setting.hooks.applyAll (op.acts e) := by
  have h := op.effect e
  generalize (op.perform e).2.setting = s at h
  cases h with
  | use p => exact hooks_use e p
  | hook h => rfl
  | helper name code r => rfl
  | fragments hop | layouts hop | catalog hop | nothing hop =>
    rw [hop]
    rfl

end Operation

namespace Engine

/-- The acts on the hooks, each unit by one plugin or by the caller between two installations; the
caller has performed `pending` since the last one. -/
def units (e : Engine) (pending : List Hook) : List Operation → List (List Hook)
  | [] => [pending]
  | op :: ops =>
    match op with
    | .use p =>
      pending :: ((p.trace (e.withHooks {})).units ++ (op.perform e).2.units [] ops)
    | .hook h => (op.perform e).2.units (pending ++ [h]) ops
    | _ => (op.perform e).2.units pending ops

/-- The hooks after operations are those that the acts of all units leave. -/
theorem hooks_after (e : Engine) (base : Hooks) (pending : List Hook) (ops : List Operation)
    (h : e.setting.hooks = base.applyAll pending) :
    (e.after ops).setting.hooks = base.applyAll (e.units pending ops).flatten := by
  induction ops generalizing e base pending with
  | nil =>
    show e.setting.hooks = base.applyAll [pending].flatten
    rw [h, List.flatten_singleton]
  | cons op ops ih =>
    have hop := op.hooks_perform e
    rw [h, ← Hooks.applyAll_append] at hop
    -- An operation that leaves the hooks as they are belongs to no unit.
    have quiet (hacts : op.acts e = []) (hunits : e.units pending (op :: ops)
        = (op.perform e).2.units pending ops) :
        (e.after (op :: ops)).setting.hooks
          = base.applyAll (e.units pending (op :: ops)).flatten := by
      rw [hacts, List.append_nil] at hop
      rw [hunits]
      exact ih _ base pending hop
    cases op with
    | use p =>
      show (((Operation.use p).perform e).2.after ops).setting.hooks = _
      rw [ih _ (base.applyAll (pending ++ (Operation.use p).acts e)) [] hop]
      show _ = base.applyAll (pending :: ((p.trace (e.withHooks {})).units ++ _)).flatten
      rw [← Hooks.applyAll_append, List.flatten_cons, List.flatten_append, List.append_assoc]
      rfl
    | hook a => exact ih _ base (pending ++ [a]) hop
    | _ => exact quiet rfl rfl

end Engine

/-! ### Operations that leave the routines alone -/

namespace Engine

/-- The engine with the routines of another one, its way to number them and its codes of helpers. -/
def onto (e other : Engine) : Engine where
  setting := { e.setting with
    codes := other.setting.codes
    numbering := other.setting.numbering }
  store := { other.store with heap := e.store.heap }

theorem onto_self (e : Engine) : e.onto e = e := rfl

theorem installFragments_onto (e other : Engine) (hooks : Hooks) :
    (e.onto other).installFragments hooks
      = ((e.installFragments hooks).1.onto other, (e.installFragments hooks).2) := by
  simp only [installFragments]
  rw [show (e.onto other).setting.fragments = e.setting.fragments from rfl]
  split <;> rfl

theorem installLayouts_onto (e other : Engine) (hooks : Hooks) :
    (e.onto other).installLayouts hooks
      = ((e.installLayouts hooks).1.onto other, (e.installLayouts hooks).2) := by
  simp only [installLayouts]
  rw [show (e.onto other).setting.layouts = e.setting.layouts from rfl]
  split <;> rfl

theorem installHelpers_onto (e other : Engine) (hooks : Hooks) :
    (e.onto other).installHelpers hooks
      = ((e.installHelpers hooks).1.onto other, (e.installHelpers hooks).2) := by
  simp only [installHelpers]
  rw [show (e.onto other).setting.helpers = e.setting.helpers from rfl]
  split <;> rfl

theorem installMessages_onto (locale : String) (e other : Engine) (hooks : Hooks) :
    (e.onto other).installMessages locale hooks
      = ((e.installMessages locale hooks).1.onto other, (e.installMessages locale hooks).2) := by
  simp only [installMessages]
  rw [show (e.onto other).setting.catalog = e.setting.catalog from rfl]
  split <;> rfl

theorem installGuard_onto (e other : Engine) (hooks : Hooks) : (e.onto other).installGuard hooks
      = ((e.installGuard hooks).1.onto other, (e.installGuard hooks).2) := by
  simp only [installGuard]
  rw [show (e.onto other).setting.guarded = e.setting.guarded from rfl]
  split <;> rfl

end Engine

mutual

/-- What a plugin does neither reads nor changes the routines. -/
theorem Plugin.install_onto (p : Plugin) (e other : Engine) (hooks : Hooks) :
    p.install (e.onto other) hooks
      = ((p.install e hooks).1.onto other, (p.install e hooks).2) := by
  match p with
  | .fragments => exact e.installFragments_onto other hooks
  | .layouts => exact e.installLayouts_onto other hooks
  | .helpers => exact e.installHelpers_onto other hooks
  | .messages locale => exact e.installMessages_onto locale other hooks
  | .guard => exact e.installGuard_onto other hooks
  | .both first second =>
    simp only [Plugin.install]
    rw [first.install_onto e other hooks, second.install_onto]
  | .steps steps => exact installSteps_onto steps e other hooks

/-- A step neither reads nor changes the routines. -/
theorem PluginStep.install_onto (step : PluginStep) (e other : Engine) (hooks : Hooks) :
    step.install (e.onto other) hooks
      = ((step.install e hooks).1.onto other, (step.install e hooks).2) := by
  match step with
  | .hook h => rfl
  | .note text => rfl
  | .use p =>
    have h := p.install_onto (e.withHooks {}) other e.setting.hooks
    simp only [PluginStep.install, Engine.useWith]
    show (_, hooks) = (_, hooks)
    rw [show (e.onto other).withHooks {} = (e.withHooks {}).onto other from rfl,
      show (e.onto other).setting.hooks = e.setting.hooks from rfl, h]
    rfl

/-- Steps in a row neither read nor change the routines. -/
theorem installSteps_onto (steps : List PluginStep) (e other : Engine) (hooks : Hooks) :
    installSteps steps (e.onto other) hooks
      = ((installSteps steps e hooks).1.onto other, (installSteps steps e hooks).2) := by
  match steps with
  | [] => rfl
  | step :: steps =>
    simp only [installSteps]
    rw [step.install_onto e other hooks, installSteps_onto steps]

end

/-- Installing a plugin neither reads nor changes the routines. -/
theorem Engine.use_onto (e other : Engine) (p : Plugin) :
    (e.onto other).use p = (e.use p).onto other := by
  have h := p.install_onto (e.withHooks {}) other e.setting.hooks
  rw [Engine.use, Engine.useWith]
  dsimp only
  rw [show (e.onto other).withHooks {} = (e.withHooks {}).onto other from rfl,
    show (e.onto other).setting.hooks = e.setting.hooks from rfl, h]
  rfl

/-- Installing a plugin leaves the codes of the helpers and the way to number routines. -/
theorem Engine.use_eq_onto (e : Engine) (p : Plugin) : e.use p = (e.use p).onto e := by
  have h := e.use_onto e p
  rw [e.onto_self] at h
  exact h

namespace Operation

/-- Whether the operation has nothing to do with routines. -/
def isQuiet : Operation → Bool
  | .compile _ => false
  | .render _ _ _ => false
  | .renderValue _ _ _ => false
  | .clear => false
  | _ => true

/-- An operation leaves the way to number routines. -/
theorem numbering_perform (op : Operation) (e : Engine) :
    (op.perform e).2.setting.numbering = e.setting.numbering := by
  have h := op.effect e
  generalize (op.perform e).2.setting = s at h
  cases h with
  | use p =>
    rw [e.use_eq_onto]
    rfl
  | _ => rfl

/-- After an operation there are the codes of helpers that were there before it, or one more. -/
theorem codes_perform (op : Operation) (e : Engine) :
    (op.perform e).2.setting.codes = e.setting.codes ∨
      ∃ name code, op = .registerHelper name code ∧
        (op.perform e).2.setting.codes = e.setting.codes.push code := by
  have h := op.effect e
  generalize (op.perform e).2.setting = s at h
  cases h with
  | use p =>
    rw [e.use_eq_onto]
    exact .inl rfl
  | helper name code r => exact .inr ⟨name, code, rfl, rfl⟩
  | _ => exact .inl rfl

/-- Such an operation neither reads nor changes the routines. -/
theorem perform_onto {op : Operation} (h : op.isQuiet = true) (e : Engine) (store : Store) :
    op.perform (e.onto ⟨e.setting, store⟩)
      = ((op.perform e).1, (op.perform e).2.onto ⟨(op.perform e).2.setting, store⟩) := by
  have hsetting : (e.onto ⟨e.setting, store⟩).setting = e.setting := rfl
  cases op with
  | use p =>
    show (_, (e.onto ⟨e.setting, store⟩).use p) = (_, (e.use p).onto ⟨(e.use p).setting, store⟩)
    rw [e.use_onto, e.use_eq_onto p]
    rfl
  | hook a => rfl
  | registerFragment name source =>
    simp only [perform, Engine.registerFragment, Engine.fragments]
    rw [hsetting]
    cases e.setting.fragments <;> rfl
  | removeFragment name =>
    simp only [perform, Engine.removeFragment, Engine.fragments]
    rw [hsetting]
    cases e.setting.fragments <;> rfl
  | registerLayout name source =>
    simp only [perform, Engine.registerLayout, Engine.layouts]
    rw [hsetting]
    cases e.setting.layouts <;> rfl
  | registerHelper name code =>
    simp only [perform, Engine.registerHelper, Engine.helpers]
    rw [hsetting]
    cases e.setting.helpers <;> rfl
  | addMessages locale messages =>
    simp only [perform, Engine.addMessages, Engine.catalog]
    rw [hsetting]
    cases e.setting.catalog <;> rfl
  | setLocale locale =>
    simp only [perform, Engine.setLocale, Engine.catalog]
    rw [hsetting]
    cases e.setting.catalog <;> rfl
  | compile | render | renderValue | clear => cases h

/-- The routines after such an operation are those before it. -/
theorem store_perform {op : Operation} (h : op.isQuiet = true) (e : Engine) :
    (op.perform e).2.store = { e.store with heap := (op.perform e).2.store.heap } := by
  have honto := perform_onto h e e.store
  rw [show e.onto ⟨e.setting, e.store⟩ = e from rfl] at honto
  exact congrArg (fun r => r.2.store) honto

end Operation

end Stencil
