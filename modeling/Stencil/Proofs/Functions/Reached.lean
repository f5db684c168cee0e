import Stencil.Proofs.Functions.Rendering
import Stencil.Proofs.History

/-!
# Engines in use

An engine is set up, and its runs build data, compile templates and take one step after the other,
each of which may fail.  What they come by on the way — values, and routines — they can use in what
follows.  Through all of it there is an account of what was made.

* `Operation.IsHonest` — operations that bring no functions but native ones and those that were come
  by;
* `Step`, `Reached` — the steps of runs, and the engines that operations and steps lead to, with
  the values and the routines that were come by on the way;
* `Explained` — an account of what was made, for an engine and what was come by;
* `Explained.step`, `Explained.perform` — what one step or operation leaves has an account again;
* `Reached.explained` — there is one for every engine in use.
-/

namespace Stencil

open Routine

namespace Routine

/-- What the heap keeps somewhere. -/
inductive Heap.Stores (h : Heap) : Value → Prop where
  | item {place : Nat} {v : Value} : v ∈ (h.items place).toList → Stores h v
  | member {place : Nat} {e : String × Value} : e ∈ (h.members place).entries → Stores h e.2
  | binding {place : Nat} {b : String × Binding} : b ∈ (h.frame place).entries →
    Stores h b.2.value

theorem Origins.Fills.has_of_stores {w : Origins} {h : Heap} (hh : w.Fills h) {v : Value}
    (hv : h.Stores v) : w.Has v := by
  cases hv with
  | item hv => exact hh.keeps.items _ trivial _ hv
  | member he => exact hh.keeps.members _ trivial _ he
  | binding hb => exact hh.keeps.bindings _ trivial _ hb

/-- A value that is no function has its origin in whatever was made. -/
theorem Origins.has_of_not_function (w : Origins) {v : Value} (h : v.isFunction = false) :
    w.Has v := by
  cases v with
  | native name code identity => cases h
  | closure r site params body scope => cases h
  | undefined | null | bool | number | text | array | object => trivial

end Routine

/-! ### Honest operations -/

/-- The source of a value holds no function but those of the values, and makes none but native
ones. -/
def Provider.IsHonest (vs : List Value) (p : Provider) : Prop :=
  ∀ w : Origins, w.HasAll vs → w.HasProvider p

/-- Neither does the source that the act hooks in. -/
def Hook.IsHonest (vs : List Value) : Hook → Prop
  | .value p => p.IsHonest vs
  | .inject _ p => p.IsHonest vs
  | _ => True

mutual

/-- Neither does anything that the plugin hooks in. -/
def Plugin.IsHonest (vs : List Value) : Plugin → Prop
  | .both first second => first.IsHonest vs ∧ second.IsHonest vs
  | .steps steps => stepsHonest vs steps
  | _ => True

/-- The same for a step of a plugin. -/
def PluginStep.IsHonest (vs : List Value) : PluginStep → Prop
  | .hook h => h.IsHonest vs
  | .use p => p.IsHonest vs
  | .note _ => True

/-- The same for steps in a row. -/
def stepsHonest (vs : List Value) : List PluginStep → Prop
  | [] => True
  | step :: steps => step.IsHonest vs ∧ stepsHonest vs steps

end

/-- The operation brings the engine no function but those of the values, and no code that makes
functions which are not native. -/
def Operation.IsHonest (vs : List Value) : Operation → Prop
  | .use p => p.IsHonest vs
  | .hook h => h.IsHonest vs
  | .registerHelper _ code => ∀ w : Origins, w.HasAll vs → w.HasCode code
  | .renderValue _ _ data => data ∈ vs
  | _ => True

/-! ### Hooks -/

theorem mem_insertAt {α : Type} {place : Nat} {more xs : List α} {a : α}
    (h : a ∈ insertAt place more xs) : a ∈ more ∨ a ∈ xs := by
  rw [insertAt, List.append_assoc] at h
  rcases List.mem_append.mp h with h | h
  · exact .inr (List.mem_of_mem_take h)
  · rcases List.mem_append.mp h with h | h
    · exact .inl h
    · exact .inr (List.mem_of_mem_drop h)

namespace Routine.Origins

variable {w w' : Origins} {hooks : Hooks}

/-- The sources of values among the hooks give what has its origin in what was made. -/
def HasHooks (w : Origins) (hooks : Hooks) : Prop := ∀ p ∈ hooks.providers, w.HasProvider p

namespace HasHooks

theorem mono (hw : w ≤ w') (h : w.HasHooks hooks) : w'.HasHooks hooks :=
  fun p hp => (h p hp).mono hw

theorem addProvider (h : w.HasHooks hooks) {p : Provider} (hp : w.HasProvider p) :
    w.HasHooks (hooks.addProvider p) :=
  List.forall_mem_append.mpr ⟨h, List.forall_mem_singleton.mpr hp⟩

theorem apply (h : w.HasHooks hooks) {vs : List Value} (hvs : w.HasAll vs) {act : Hook}
    (hact : act.IsHonest vs) : w.HasHooks (hooks.apply act) := by
  cases act with
  | value p => exact h.addProvider (hact w hvs)
  | inject name p =>
    have hparam : w.HasHooks (hooks.addParam name) := h
    exact hparam.addProvider (hact w hvs)
  | addPreprocessor | addFirstPreprocessor | addWrapper | addFirstWrapper | parameter => exact h

theorem absorb (h : w.HasHooks hooks) {nested : Hooks} (hnested : w.HasHooks nested)
    (m : HooksMark) : w.HasHooks (hooks.absorb nested m) := by
  intro p hp
  rcases mem_insertAt hp with hp | hp
  · exact hnested p hp
  · exact h p hp

end HasHooks

end Routine.Origins

/-! ### Engines in use -/

/-- What runs of the engine can ask for, with data that were come by. -/
inductive Asks (e : Engine) (vs : List Value) : (Service → List Value → Run Value) → Prop where
  /-- In a render, with so many levels of fragments left. -/
  | rendering (bound levels : Nat) {data : Value} : data ∈ vs →
    Asks e vs (e.setting.perform (e.setting.includeFragment bound data levels))
  /-- Without an engine. -/
  | alone : Asks e vs (e.setting.perform e.setting.includeAlone)

/-- The steps of runs of the engine, with the values that are come by, from values and routines that
were come by before. -/
inductive Step (e : Engine) (vs : List Value) (cs : List Compiled) : Run (List Value) → Prop where
  /-- Data are built. -/
  | data (json : Json) : Step e vs cs (do return [← Run.make fun h => h.ofJson json])
  /-- A native function is made. -/
  | native (name : String) (code : Native) :
    Step e vs cs (do return [← Run.make fun h => h.newNative name code])
  /-- A parameter is given its value. -/
  | provide {p : Provider} : p ∈ e.setting.hooks.providers →
    Step e vs cs (do return [← e.setting.provide p])
  /-- A block or a function is entered. -/
  | enter (scope : Scope) : Step e vs cs (do let _ ← withFrame scope; return [])
  /-- A variable is declared. -/
  | declare (scope : Scope) (name : String) (changeable : Bool) {v : Value} : v ∈ vs →
    Step e vs cs (do declareName scope name v changeable; return [])
  /-- A variable is given another value. -/
  | assign (scope : Scope) (name : String) {v : Value} : v ∈ vs →
    Step e vs cs (do assignName scope name v; return [])
  /-- A part of a routine is evaluated. -/
  | eval (bound calls : Nat) (scope : Scope) {c : Compiled} {x : Expr}
    {ask : Service → List Value → Run Value} : c ∈ cs → x.arrows ⊆ c.program.arrows →
    Asks e vs ask → Step e vs cs (do return [← Routine.eval bound ⟨ask, c.number, calls⟩ scope x])
  /-- A part of a routine is executed. -/
  | exec (bound calls : Nat) (scope : Scope) {c : Compiled} {x : Stmt}
    {ask : Service → List Value → Run Value} : c ∈ cs → x.arrows ⊆ c.program.arrows →
    Asks e vs ask →
    Step e vs cs (do return [(← Routine.exec bound ⟨ask, c.number, calls⟩ scope x).result])
  /-- A function is called. -/
  | call (bound r calls : Nat) {f : Value} {args : List Value}
    {ask : Service → List Value → Run Value} : f ∈ vs → args ⊆ vs → Asks e vs ask →
    Step e vs cs (do return [← callValue bound ⟨ask, r, calls⟩ f args])
  /-- A routine is run as a whole. -/
  | render (bound : Nat) {c : Compiled} {data : Value} : c ∈ cs → data ∈ vs →
    Step e vs cs (do let _ ← e.setting.renderTop bound c data; return [])

/-- Engines in use, between renders or in the middle of one, with the values and the routines that
were come by so far. -/
inductive Reached : Engine → List Value → List Compiled → Prop where
  /-- The first engine. -/
  | create (cap : Nat) : Reached (Engine.create cap) [] []
  /-- One more engine, whose values can meet those of the others. -/
  | anew {e : Engine} {vs : List Value} {cs : List Compiled} (cap : Nat) : Reached e vs cs →
    Reached (e.anew cap) vs cs
  /-- An operation is performed. -/
  | perform {e : Engine} {vs : List Value} {cs : List Compiled} {op : Operation} :
    Reached e vs cs → op.IsHonest vs → Reached (op.perform e).2 vs cs
  /-- A template is compiled, or cannot be. -/
  | compile {e : Engine} {vs : List Value} {cs : List Compiled} (template : String) :
    Reached e vs cs →
    Reached (e.compile template).2 vs ((e.compile template).1.toOption.toList ++ cs)
  /-- A routine is numbered without an engine. -/
  | number {e : Engine} {vs : List Value} {cs : List Compiled} (p : Program) : Reached e vs cs →
    Reached { e with store := { e.store with compiled := e.store.compiled + 1 } } vs
      (⟨e.store.compiled, p.numbered⟩ :: cs)
  /-- A value is looked up. -/
  | stored {e : Engine} {vs : List Value} {cs : List Compiled} {v : Value} : Reached e vs cs →
    e.store.heap.Stores v → Reached e (v :: vs) cs
  /-- A value that is no function can be named at any time. -/
  | plain {e : Engine} {vs : List Value} {cs : List Compiled} {v : Value} : Reached e vs cs →
    v.isFunction = false → Reached e (v :: vs) cs
  /-- A run takes a step, or fails. -/
  | run {e : Engine} {vs : List Value} {cs : List Compiled} {m : Run (List Value)} :
    Reached e vs cs → Step e vs cs m →
    Reached (e.performRun m).2 ((e.performRun m).1.toOption.getD [] ++ vs) cs

/-! ### Accounts -/

/-- The account of what was made explains the engine, the values and the routines. -/
structure Explained (w : Origins) (e : Engine) (vs : List Value) (cs : List Compiled) : Prop where
  store : w.Describes e.store
  setting : w.HasSetting e.setting
  values : w.HasAll vs
  routines : ∀ c ∈ cs, w.Compiles c

namespace Explained

variable {w w' : Origins} {e : Engine} {vs : List Value} {cs : List Compiled}

theorem serves (h : Explained w e vs cs) {ask : Service → List Value → Run Value}
    (hask : Asks e vs ask) : w.Serves ask := by
  cases hask with
  | rendering bound levels hdata =>
    exact h.setting.serves (h.setting.includeFragment (h.values _ hdata) bound levels)
  | alone =>
    refine h.setting.serves fun name => ?_
    rw [Setting.includeAlone]
    split
    · exact .fail _
    · exact .fail _

/-- A step that gives one value. -/
theorem traces_one {m : Run Value} (h : w.Traces Origins.Has m) :
    w.Traces Origins.HasAll (do return [← m]) :=
  h.bind fun _ _ _ hv => .pure fun _ hw => .cons (hv.mono hw) .nil

/-- A step that gives none. -/
theorem traces_none {α : Type} {m : Run α} (h : w.Traces Origins.Any m) :
    w.Traces Origins.HasAll (do let _ ← m; return []) :=
  h.andThen fun _ => .pure fun _ _ => .nil

/-- **A step keeps to what was made.** -/
theorem step (h : Explained w e vs cs) {m : Run (List Value)} (hm : Step e vs cs m) :
    w.Traces Origins.HasAll m := by
  cases hm with
  | data json =>
    refine traces_one (.quiet fun w' _ => .make fun g hg => ?_)
    exact hg.ofJson json
  | native name code => exact traces_one (.make (w.acts_newNative name code))
  | provide hp => exact traces_one (h.setting.provide hp)
  | enter scope => exact traces_none (.withFrame scope)
  | declare scope name changeable hv =>
    exact traces_none (.declareName scope name (h.values _ hv) changeable)
  | assign scope name hv => exact traces_none (.assignName scope name (h.values _ hv))
  | eval bound calls scope hc hx hask =>
    refine traces_one ((Origins.everything (h.serves hask) bound).eval le_rfl _ calls scope ?_)
    exact Origins.admits_iff.mpr fun a ha => (h.routines _ hc).writes (hx ha)
  | exec bound calls scope hc hx hask =>
    have hwritten := Origins.admitsStmt_iff.mpr fun a ha => (h.routines _ hc).writes (hx ha)
    refine ((Origins.everything (h.serves hask) bound).exec le_rfl _ calls scope hwritten).bind
      fun _ _ _ hflow => .pure fun _ hw => ?_
    exact .cons (hflow.result.mono hw) .nil
  | call bound r calls hf hargs hask =>
    exact traces_one ((Origins.everything (h.serves hask) bound).call le_rfl r calls
      (h.values _ hf) fun a ha => h.values a (hargs ha))
  | render bound hc hdata =>
    exact traces_none (h.setting.renderTop (h.routines _ hc) (h.values _ hdata) bound)

/-- At a later stage the engine may have another store. -/
theorem later (h : Explained w e vs cs) (hw : w ≤ w') {store : Store}
    (hstore : w'.Describes store) : Explained w' { e with store := store } vs cs where
  store := hstore
  setting := h.setting.mono hw
  values := Origins.HasAll.mono hw h.values
  routines c hc := (h.routines c hc).mono hw

theorem values_append (h : Explained w e vs cs) {more : List Value} (hmore : w.HasAll more) :
    Explained w e (more ++ vs) cs :=
  ⟨h.store, h.setting, List.forall_mem_append.mpr ⟨hmore, h.values⟩, h.routines⟩

theorem routines_append (h : Explained w e vs cs) {more : List Compiled}
    (hmore : ∀ c ∈ more, w.Compiles c) : Explained w e vs (more ++ cs) :=
  ⟨h.store, h.setting, h.values, List.forall_mem_append.mpr ⟨hmore, h.routines⟩⟩

/-- What a run leaves is explained at a later stage, whether it failed or not. -/
theorem performRun (h : Explained w e vs cs) {α : Type} {P : Origins → α → Prop} {m : Run α}
    (hm : w.Traces P m) : ∃ w', w ≤ w' ∧ Explained w' (e.performRun m).2 vs cs
      ∧ ∀ a ∈ (e.performRun m).1.toOption, P w' a := by
  have hcomes := hm w le_rfl e.store h.store
  rw [Engine.performRun, EStateM.run]
  cases hresult : m e.store with
  | ok a t =>
    rw [hresult] at hcomes
    cases hcomes with
    | @ok w' _ _ later ht hP => exact ⟨w', later, h.later later ht, by rintro _ ⟨⟩; exact hP⟩
  | error halt t =>
    rw [hresult] at hcomes
    cases hcomes with
    | @error w' _ _ later ht => exact ⟨w', later, h.later later ht, by rintro _ ⟨⟩⟩

/-- So is what compiling leaves. -/
theorem compile (h : Explained w e vs cs) (template : String) :
    ∃ w', w ≤ w' ∧ Explained w' (e.compile template).2 vs cs
      ∧ ∀ c ∈ (e.compile template).1.toOption, w'.Compiles c := by
  rcases h.store.compile h.setting template with
    ⟨c, t, w', heq, hlater, ht, hc⟩ | ⟨stop, t, heq, ht⟩
  · rw [Engine.compile_ok heq]
    exact ⟨w', hlater, h.later hlater ht, by rintro _ ⟨⟩; exact hc⟩
  · rw [Engine.compile_error heq]
    exact ⟨w, le_rfl, h.later le_rfl ht, nofun⟩

/-- A new engine has one native function, which escapes. -/
theorem onStore {store : Store} (hstore : w.Describes store) {codes : Array Helper}
    (hcodes : ∀ code ∈ codes, w.HasCode code) (hvs : w.HasAll vs)
    (hcs : ∀ c ∈ cs, w.Compiles c) (cap : Nat) :
    ∃ w', Explained w' (Engine.onStore store codes cap) vs cs := by
  obtain ⟨w', hlater, hroutines, hfills, hescape⟩ :=
    w.acts_newNative Template.escapeName (.service .escape) w le_rfl store.heap hstore.heap
  refine ⟨w', ⟨hfills, hroutines ▸ hstore.routines, ?_⟩, ?_, Origins.HasAll.mono hlater hvs,
    fun c hc => (hcs c hc).mono hlater⟩
  · intro template c hc
    cases (Cache.get?_create cap template).symm.trans hc
  · exact ⟨hescape, nofun, nofun, fun code hcode => (hcodes code hcode).mono hlater,
      fun _ _ => rfl⟩

/-! ### Installing -/

/-- The engine may have another setting. -/
theorem withSetting (h : Explained w e vs cs) {e' : Engine} (hstore : e'.store = e.store)
    (hsetting : w.HasSetting e'.setting) : Explained w e' vs cs :=
  ⟨hstore ▸ h.store, hsetting, h.values, h.routines⟩

/-- A native function is made. -/
theorem newNative (h : Explained w e vs cs) (name : String) (code : Native) :
    ∃ w', w ≤ w' ∧ Explained w' (e.make fun h => h.newNative name code).2 vs cs
      ∧ w'.Has (e.make fun h => h.newNative name code).1 := by
  obtain ⟨w', hlater, hroutines, hfills, hhas⟩ :=
    w.acts_newNative name code w le_rfl e.store.heap h.store.heap
  exact ⟨w', hlater, h.later hlater (h.store.withHeap hlater hroutines hfills), hhas⟩

/-- What an installation leaves is explained at a later stage. -/
def Leaves (w : Origins) (vs : List Value) (cs : List Compiled) (r : Engine × Hooks) : Prop :=
  ∃ w', w ≤ w' ∧ Explained w' r.1 vs cs ∧ w'.HasHooks r.2

section Installing

variable {hooks : Hooks} (h : Explained w e vs cs) (hh : w.HasHooks hooks)
include h hh

theorem installFragments : Leaves w vs cs (e.installFragments hooks) := by
  rw [Engine.installFragments]
  split
  · exact ⟨w, le_rfl, h, hh⟩
  · have hknown : Explained w (e.change fun s => { s with fragments := some .empty }) vs cs :=
      h.withSetting rfl { h.setting with }
    obtain ⟨w₁, hw₁, h₁, hname⟩ := hknown.newNative Template.fragmentFunction (.service .fragment)
    obtain ⟨w₂, hw₂, h₂, hvalue⟩ :=
      h₁.newNative Template.chosenFragmentFunction (.service .chosenFragment)
    refine ⟨w₂, hw₁.trans hw₂, h₂, ?_⟩
    have hmore : w₂.HasHooks hooks := hh.mono (hw₁.trans hw₂)
    exact (hmore.addProvider (p := .constant _) (hname.mono hw₂)).addProvider (p := .constant _)
      hvalue

theorem installLayouts : Leaves w vs cs (e.installLayouts hooks) := by
  rw [Engine.installLayouts]
  split
  · exact ⟨w, le_rfl, h, hh⟩
  · exact ⟨w, le_rfl, h.withSetting rfl { h.setting with }, hh⟩

theorem installHelpers : Leaves w vs cs (e.installHelpers hooks) := by
  rw [Engine.installHelpers]
  split
  · exact ⟨w, le_rfl, h, hh⟩
  · refine ⟨w, le_rfl, h.withSetting rfl ?_, hh.addProvider (p := .helpers) trivial⟩
    exact ⟨h.setting.escape, h.setting.providers, by rintro _ ⟨⟩, h.setting.codes, h.setting.counts⟩

theorem installMessages (locale : String) :
    Leaves w vs cs (e.installMessages locale hooks) := by
  rw [Engine.installMessages]
  split
  · exact ⟨w, le_rfl, h, hh⟩
  · have hknown : Explained w (e.change fun s => { s with catalog := some { locale := locale } })
        vs cs := h.withSetting rfl { h.setting with }
    obtain ⟨w', hw, h', hkey⟩ := hknown.newNative Template.messageFunction (.service .message)
    exact ⟨w', hw, h', (hh.mono hw).addProvider (p := .constant _) hkey⟩

theorem installGuard : Leaves w vs cs (e.installGuard hooks) := by
  rw [Engine.installGuard]
  split
  · exact ⟨w, le_rfl, h, hh⟩
  · exact ⟨w, le_rfl, h.withSetting rfl { h.setting with }, hh⟩

end Installing

/-- What is installed on the engine itself leaves it explained. -/
theorem useWith (h : Explained w e vs cs) {install : Engine → Hooks → Engine × Hooks}
    (hinstall : ∀ {e : Engine} {hooks : Hooks}, Explained w e vs cs → w.HasHooks hooks →
      Leaves w vs cs (install e hooks)) :
    ∃ w', w ≤ w' ∧ Explained w' (e.useWith install) vs cs := by
  have hempty : Explained w (e.withHooks {}) vs cs :=
    h.withSetting rfl
      ⟨h.setting.escape, nofun, h.setting.helpers, h.setting.codes, h.setting.counts⟩
  obtain ⟨w', hw, hinner, hafter⟩ := hinstall hempty h.setting.providers
  refine ⟨w', hw, hinner.withSetting rfl ?_⟩
  exact ⟨hinner.setting.escape, hafter.absorb hinner.setting.providers _, hinner.setting.helpers,
    hinner.setting.codes, hinner.setting.counts⟩

end Explained

mutual

/-- An honest plugin leaves engines explained. -/
theorem Plugin.IsHonest.install {p : Plugin} {vs : List Value} (hp : p.IsHonest vs) {w : Origins}
    {e : Engine} {cs : List Compiled} {hooks : Hooks} (h : Explained w e vs cs)
    (hh : w.HasHooks hooks) : Explained.Leaves w vs cs (p.install e hooks) := by
  match p with
  | .fragments => exact h.installFragments hh
  | .layouts => exact h.installLayouts hh
  | .helpers => exact h.installHelpers hh
  | .messages locale => exact h.installMessages hh locale
  | .guard => exact h.installGuard hh
  | .both first second =>
    obtain ⟨w₁, hw₁, h₁, hh₁⟩ := Plugin.IsHonest.install (p := first) hp.1 h hh
    obtain ⟨w₂, hw₂, h₂, hh₂⟩ := Plugin.IsHonest.install (p := second) hp.2 h₁ hh₁
    exact ⟨w₂, hw₁.trans hw₂, h₂, hh₂⟩
  | .steps steps =>
    have hsteps : stepsHonest vs steps := hp
    exact hsteps.install h hh

theorem PluginStep.IsHonest.install {step : PluginStep} {vs : List Value}
    (hstep : step.IsHonest vs) {w : Origins} {e : Engine} {cs : List Compiled} {hooks : Hooks}
    (h : Explained w e vs cs) (hh : w.HasHooks hooks) :
    Explained.Leaves w vs cs (step.install e hooks) := by
  match step with
  | .hook act => exact ⟨w, le_rfl, h, hh.apply h.values hstep⟩
  | .note text =>
    exact ⟨w, le_rfl, h.withSetting rfl { h.setting with }, hh⟩
  | .use p =>
    obtain ⟨w', hw, h'⟩ := h.useWith fun h hh => Plugin.IsHonest.install hstep h hh
    exact ⟨w', hw, h', hh.mono hw⟩

theorem stepsHonest.install {steps : List PluginStep} {vs : List Value}
    (hsteps : stepsHonest vs steps) {w : Origins} {e : Engine} {cs : List Compiled} {hooks : Hooks}
    (h : Explained w e vs cs) (hh : w.HasHooks hooks) :
    Explained.Leaves w vs cs (installSteps steps e hooks) := by
  match steps with
  | [] => exact ⟨w, le_rfl, h, hh⟩
  | step :: steps =>
    obtain ⟨hfirst, hothers⟩ : step.IsHonest vs ∧ stepsHonest vs steps := hsteps
    obtain ⟨w₁, hw₁, h₁, hh₁⟩ := hfirst.install h hh
    obtain ⟨w₂, hw₂, h₂, hh₂⟩ := hothers.install h₁ hh₁
    exact ⟨w₂, hw₁.trans hw₂, h₂, hh₂⟩

end

namespace Explained

variable {w : Origins} {e : Engine} {vs : List Value} {cs : List Compiled}

theorem renderValue (h : Explained w e vs cs) (bound : Nat) (template : Option String)
    {data : Value} (hdata : w.Has data) :
    ∃ w', w ≤ w' ∧ Explained w' (e.renderValue bound template data).2 vs cs := by
  cases template with
  | none => exact ⟨w, le_rfl, h⟩
  | some template =>
    rw [Engine.renderValue]
    split
    · exact ⟨w, le_rfl, h⟩
    · obtain ⟨w₁, hw₁, h₁, hc⟩ := h.compile template
      generalize e.compile template = compiled at h₁ hc ⊢
      obtain ⟨_ | c, ready⟩ := compiled
      · exact ⟨w₁, hw₁, h₁⟩
      · obtain ⟨w₂, hw₂, h₂, -⟩ := h₁.performRun
          (h₁.setting.renderTop (hc c rfl) (hdata.mono hw₁) bound)
        dsimp only at h₂ ⊢
        generalize ready.performRun _ = answer at h₂ ⊢
        obtain ⟨_ | text, after⟩ := answer
        · exact ⟨w₂, hw₁.trans hw₂, h₂⟩
        · exact ⟨w₂, hw₁.trans hw₂, h₂⟩

/-- **An honest operation leaves the engine explained.** -/
theorem perform (h : Explained w e vs cs) {op : Operation} (hop : op.IsHonest vs) :
    ∃ w', w ≤ w' ∧ Explained w' (op.perform e).2 vs cs := by
  cases op with
  | use p => exact h.useWith fun h hh => Plugin.IsHonest.install hop h hh
  | hook act =>
    have hproviders : w.HasHooks (e.setting.hooks.apply act) :=
      Origins.HasHooks.apply h.setting.providers h.values hop
    refine ⟨w, le_rfl, h.withSetting rfl ?_⟩
    exact ⟨h.setting.escape, hproviders, h.setting.helpers, h.setting.codes, h.setting.counts⟩
  | registerHelper name code =>
    simp only [Operation.perform, Engine.registerHelper, Engine.helpers]
    cases hhelpers : e.setting.helpers with
    | none => exact ⟨w, le_rfl, h⟩
    | some helpers =>
      obtain ⟨w', hw, h', hhas⟩ := h.newNative name (.service (.helper e.setting.codes.size))
      refine ⟨w', hw, h'.withSetting rfl ?_⟩
      refine ⟨h'.setting.escape, h'.setting.providers, fun entry hentry => ?_,
        fun other hother => ?_, h'.setting.counts⟩
      · rcases mem_putName hentry with hentry | hentry
        · refine h'.setting.helpers entry ?_
          show entry ∈ (e.setting.helpers.getD .empty).entries
          rw [hhelpers]
          exact hentry
        · rw [hentry]
          exact hhas
      · rcases Array.mem_push.mp hother with hother | rfl
        · exact h'.setting.codes other hother
        · exact hop w' h'.values
  | registerFragment name source =>
    simp only [Operation.perform, Engine.registerFragment, Engine.fragments]
    cases e.setting.fragments with
    | none => exact ⟨w, le_rfl, h⟩
    | some fragments => exact ⟨w, le_rfl, h.withSetting rfl { h.setting with }⟩
  | removeFragment name =>
    simp only [Operation.perform, Engine.removeFragment, Engine.fragments]
    cases e.setting.fragments with
    | none => exact ⟨w, le_rfl, h⟩
    | some fragments => exact ⟨w, le_rfl, h.withSetting rfl { h.setting with }⟩
  | registerLayout name source =>
    simp only [Operation.perform, Engine.registerLayout, Engine.layouts]
    cases e.setting.layouts with
    | none => exact ⟨w, le_rfl, h⟩
    | some layouts => exact ⟨w, le_rfl, h.withSetting rfl { h.setting with }⟩
  | addMessages locale messages =>
    simp only [Operation.perform, Engine.addMessages, Engine.catalog]
    cases e.setting.catalog with
    | none => exact ⟨w, le_rfl, h⟩
    | some catalog => exact ⟨w, le_rfl, h.withSetting rfl { h.setting with }⟩
  | setLocale locale =>
    simp only [Operation.perform, Engine.setLocale, Engine.catalog]
    cases e.setting.catalog with
    | none => exact ⟨w, le_rfl, h⟩
    | some catalog => exact ⟨w, le_rfl, h.withSetting rfl { h.setting with }⟩
  | compile template =>
    obtain ⟨w', hw, h', -⟩ := h.compile template
    exact ⟨w', hw, h'⟩
  | render bound template data =>
    obtain ⟨hleads, hdata⟩ := h.store.heap.keeps.ofJson data
    have hmade : Explained w (e.make fun h => h.ofJson data).2 vs cs :=
      h.later le_rfl (h.store.withHeap le_rfl rfl (h.store.heap.leads hleads))
    exact hmade.renderValue bound template hdata
  | renderValue bound template data =>
    exact h.renderValue bound template (h.values data hop)
  | clear => exact ⟨w, le_rfl, h.store.clear, h.setting, h.values, h.routines⟩

end Explained

namespace Reached

variable {e : Engine} {vs : List Value} {cs : List Compiled}

/-- **All engines in use are explained.** -/
theorem explained (h : Reached e vs cs) : ∃ w, Explained w e vs cs := by
  induction h with
  | create cap =>
    have hempty : (⟨[], []⟩ : Origins).Describes {} := by
      refine ⟨⟨⟨fun _ _ => trivial, fun _ _ => trivial, fun _ _ => trivial, ?_, ?_, ?_⟩, rfl⟩, rfl,
        ?_⟩
      all_goals exact nofun
    exact Explained.onStore hempty (by simp) .nil (by simp) cap
  | anew cap _ ih =>
    obtain ⟨w, h⟩ := ih
    exact Explained.onStore h.store h.setting.codes h.values h.routines cap
  | perform _ hop ih =>
    obtain ⟨w, h⟩ := ih
    obtain ⟨w', -, h'⟩ := h.perform hop
    exact ⟨w', h'⟩
  | compile template _ ih =>
    obtain ⟨w, h⟩ := ih
    obtain ⟨w', -, h', hc⟩ := h.compile template
    exact ⟨w', h'.routines_append fun c hmem => hc c (Option.mem_toList.mp hmem)⟩
  | number p _ ih =>
    obtain ⟨w, h⟩ := ih
    exact ⟨w.andRoutine p, (h.later (w.le_andRoutine p) (h.store.next p)).routines_append
      (List.forall_mem_singleton.mpr (h.store.compiles_next p))⟩
  | stored _ hv ih =>
    obtain ⟨w, h⟩ := ih
    exact ⟨w, h.values_append (.cons (h.store.heap.has_of_stores hv) .nil)⟩
  | plain _ hv ih =>
    obtain ⟨w, h⟩ := ih
    exact ⟨w, h.values_append (.cons (w.has_of_not_function hv) .nil)⟩
  | run _ hm ih =>
    obtain ⟨w, h⟩ := ih
    obtain ⟨w', -, h', hvalues⟩ := h.performRun (h.step hm)
    refine ⟨w', h'.values_append ?_⟩
    generalize (Engine.performRun _ _).1.toOption = r at hvalues ⊢
    cases r with
    | none => exact .nil
    | some values => exact hvalues values rfl

/-- Honest operations lead from engines in use to engines in use. -/
theorem after (h : Reached e vs cs) {ops : List Operation} (hops : ∀ op ∈ ops, op.IsHonest vs) :
    Reached (e.after ops) vs cs := by
  induction ops generalizing e with
  | nil => exact h
  | cons op ops ih =>
    obtain ⟨hop, hops⟩ := List.forall_mem_cons.mp hops
    exact ih (h.perform hop) hops

end Reached

end Stencil
