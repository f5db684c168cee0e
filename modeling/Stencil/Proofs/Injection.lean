import Stencil.Proofs.Binding
import Stencil.Proofs.Steady

/-!
# Injected parameters

The routine of a template takes the data, the function that escapes and then the additional
parameters; the values for these come from the providers, by their place in the list.  So names meet
their own values only if the two lists grow in step, and a kept routine fits only if it was compiled
for the parameters that there are now.

* `Engine.UpToDate` — the kept routines take the parameters of the engine, as long as the version of
  the parameters says so;
* `upToDate_after` — every engine is up to date, after any operations;
* `zip_hooks_after` — each parameter meets the provider that was pushed with it;
* `reachable_params` — what this makes of compiling, rendering and injecting on every engine.
-/

namespace Stencil

open Routine

/-! ### Engines that are up to date -/

/-- The routine takes the parameters that there are. -/
def TakesParams (s : Setting) (_ : String) (routine : Compiled) : Prop :=
  routine.program.params = s.params

/-- The helper fails in its own words only. -/
def ReportsItself (code : Helper) : Prop :=
  ∀ args h e, (code args h).1 = .error e → ∃ kind text, e = .reported kind text

/-- What every engine knows of its routines and helpers. -/
structure Engine.UpToDate (e : Engine) : Prop where
  /-- The kept routines take the parameters that there are, unless they wait to be dropped. -/
  kept : Kept e.setting (TakesParams e.setting) e.store
  /-- The helpers fail in their own words only. -/
  reports : ∀ code ∈ e.setting.codes, ReportsItself code

theorem takesParams_of_new {s : Setting} {template : String} {routine : Compiled}
    (h : New s template routine) : TakesParams s template routine := by
  obtain ⟨program, count, hparse, rfl⟩ := h
  show program.params = s.params
  exact params_of_parseProgram hparse

/-- One store whose routines take the parameters that there are.  Runs never fail for the number of
arguments while there are as many values as parameters. -/
def paramsConnection (s : Setting) : Connection :=
  .keeping s (TakesParams s)
    (fun h => s.hooks.params.length = s.hooks.providers.length →
      ∀ expected received, h ≠ .failed (.arity expected received))
    nofun
    (by
      rintro f hf _ expected received ⟨⟩
      cases hf)

/-- A routine that takes the parameters takes as many arguments as there are, if there are as many
values as parameters. -/
theorem fits_of_takesParams {s : Setting} {template : String} {routine : Compiled}
    (h : TakesParams s template routine) : (paramsConnection s).Fits s routine := by
  intro hne hbalanced
  refine absurd ?_ hne
  show 2 + s.hooks.providers.length = routine.program.params.length
  rw [h, ← hbalanced]
  show _ = (_ ++ s.hooks.params).length
  rw [List.length_append]
  rfl

theorem serves_params {s : Setting} (hcodes : ∀ code ∈ s.codes, ReportsItself code) :
    (paramsConnection s).Serves s where
  compile :=
    Connection.agree_keeping (fun _ _ => takesParams_of_new) (fun _ _ => fits_of_takesParams)
      fun _ _ _ _ => nofun
  noFragment _ _ _ _ := nofun
  fragmentDepth _ _ _ _ := nofun
  helper code hcode args h e he _ expected received := by
    obtain ⟨kind, text, rfl⟩ := hcodes code hcode args h e he
    exact nofun

namespace Engine.UpToDate

variable {e : Engine} (h : e.UpToDate)
include h

theorem engines : (paramsConnection e.setting).Engines e e := ⟨rfl, rfl, h.kept⟩

theorem serves : (paramsConnection e.setting).Serves e.setting := serves_params h.reports

theorem make {α : Type} (f : Heap → α × Heap) : (e.make f).2.UpToDate :=
  ⟨h.kept.change _, h.reports⟩

/-- Every operation leaves the engine up to date. -/
theorem perform {op : Operation}
    (hop : ∀ name code, op = .registerHelper name code → ReportsItself code) :
    (op.perform e).2.UpToDate := by
  refine ⟨h.kept.perform (fun _ _ => takesParams_of_new) op fun hparams template routine hr => ?_,
    fun code hcode => ?_⟩
  · show routine.program.params = _ ++ (op.perform e).2.setting.hooks.params
    rw [hparams]
    exact hr
  · rcases op.codes_perform e with hsame | ⟨name, new, rfl, hmore⟩
    · exact h.reports code (hsame ▸ hcode)
    · rw [hmore, Array.mem_push] at hcode
      rcases hcode with hold | rfl
      · exact h.reports code hold
      · exact hop name code rfl

end Engine.UpToDate

/-- Every engine is up to date, after any operations. -/
theorem upToDate_after {e : Engine} (h : e.UpToDate) {ops : List Operation}
    (hops : ∀ name code, .registerHelper name code ∈ ops → ReportsItself code) :
    (e.after ops).UpToDate := by
  induction ops generalizing e with
  | nil => exact h
  | cons op ops ih =>
    refine ih (h.perform fun name code hop => ?_) fun name code hmem => ?_
    · rw [hop] at hops
      exact hops name code List.mem_cons_self
    · exact hops name code (List.mem_cons_of_mem op hmem)

/-- A new engine is up to date. -/
theorem upToDate_create (bound : Nat) : (Engine.create bound).UpToDate :=
  ⟨.of_create bound rfl (Nat.le_refl 0), nofun⟩

/-! ### Parameters and values in step -/

/-- The parameters that acts add, with the sources of their values. -/
def ownPairs (acts : List Hook) : List (String × Provider) :=
  (Growth.ofHooks acts).params.zip (Growth.ofHooks acts).providers

/-- Acts add as many values as parameters. -/
def Matched (acts : List Hook) : Prop :=
  (Growth.ofHooks acts).params.length = (Growth.ofHooks acts).providers.length

theorem Growth.params_append (acts acts' : List Hook) :
    (ofHooks (acts ++ acts')).params = (ofHooks acts).params ++ (ofHooks acts').params := by
  have h := Hooks.params_applyAll {} (acts ++ acts')
  rw [Hooks.applyAll_append, Hooks.params_applyAll, Hooks.params_applyAll] at h
  exact h.symm

theorem Growth.providers_append (acts acts' : List Hook) :
    (ofHooks (acts ++ acts')).providers
      = (ofHooks acts).providers ++ (ofHooks acts').providers := by
  have h := Hooks.providers_applyAll {} (acts ++ acts')
  rw [Hooks.applyAll_append, Hooks.providers_applyAll, Hooks.providers_applyAll] at h
  exact h.symm

/-- Units that are each in step are in step together. -/
theorem zip_flatten {units : List (List Hook)} (h : ∀ acts ∈ units, Matched acts) :
    Matched units.flatten ∧ ownPairs units.flatten = units.flatMap ownPairs := by
  induction units with
  | nil => exact ⟨rfl, rfl⟩
  | cons acts units ih =>
    have hacts : Matched acts := h acts List.mem_cons_self
    obtain ⟨hrest, hpairs⟩ := ih fun acts' hmem => h acts' (List.mem_cons_of_mem acts hmem)
    unfold Matched ownPairs at *
    rw [List.flatten_cons, List.flatMap_cons, Growth.params_append, Growth.providers_append]
    refine ⟨?_, ?_⟩
    · rw [List.length_append, List.length_append, hacts, hrest]
    · rw [List.zip_append hacts, hpairs]

/-- If what every call pushed is matched, there are as many providers as parameters in the end, and
each parameter meets the provider that was pushed with it. -/
theorem zip_hooks_after {bound : Nat} {ops : List Operation}
    (h : ∀ acts ∈ (Engine.create bound).units [] ops, Matched acts) :
    let hooks := ((Engine.create bound).after ops).setting.hooks
    hooks.params.length = hooks.providers.length
      ∧ hooks.params.zip hooks.providers
        = ((Engine.create bound).units [] ops).flatMap ownPairs := by
  intro hooks
  obtain ⟨hmatched, hpairs⟩ := zip_flatten h
  have hhooks : hooks = ({} : Hooks).applyAll ((Engine.create bound).units [] ops).flatten :=
    (Engine.create bound).hooks_after {} [] ops rfl
  have hnames : hooks.params
      = (Growth.ofHooks ((Engine.create bound).units [] ops).flatten).params := by
    rw [hhooks, Hooks.params_applyAll]
    rfl
  have hproviders : hooks.providers
      = (Growth.ofHooks ((Engine.create bound).units [] ops).flatten).providers := by
    rw [hhooks, Hooks.providers_applyAll]
    rfl
  rw [hnames, hproviders]
  exact ⟨hmatched, hpairs⟩

/-! ### Compiling and rendering on every engine -/

namespace Engine

/-- What the heap holds has no part in compiling. -/
theorem compile_make {α : Type} (e : Engine) (f : Heap → α × Heap) (template : String) :
    ((e.make f).2.compile template).1 = (e.compile template).1 := by
  have hchange : (e.make f).2.setting.compile template (e.make f).2.store = _ :=
    Kept.compile_change e.setting template e.store (f e.store.heap).2
  simp only [Engine.compile]
  rw [EStateM.run, EStateM.run]
  rw [hchange]
  cases e.setting.compile template e.store with
  | ok routine after => rfl
  | error stop after => cases stop <;> rfl

end Engine

/-- The routine of a template takes the parameters that there are, whether it was kept or not. -/
theorem params_of_compile {e : Engine} (h : e.UpToDate) {template : String} {routine : Compiled}
    (hroutine : (e.compile template).1 = .ok routine) :
    routine.program.params = e.setting.params := by
  have hnew : ∀ routine, New e.setting template routine → TakesParams e.setting template routine :=
    fun _ => takesParams_of_new
  rw [Engine.compile] at hroutine
  rw [EStateM.run] at hroutine
  rcases h.kept.compile hnew with ⟨routine', after, heq, htakes, -⟩ | ⟨stop, after, heq, -⟩
  · rw [heq] at hroutine
    cases hroutine
    exact htakes
  · rw [heq] at hroutine
    cases stop <;> cases hroutine

/-- A render fails for the number of arguments just if there are not as many values as
parameters. -/
theorem render_arity {e : Engine} (h : e.UpToDate) {template : String} (hne : template ≠ "")
    {routine : Compiled} (hroutine : (e.compile template).1 = .ok routine) (bound : Nat)
    (data : Json) :
    (∃ expected received, (e.render bound (some template) data).1
        = .error (.render (.arity expected received))) ↔
      e.setting.hooks.params.length ≠ e.setting.hooks.providers.length := by
  have hdata := h.make fun heap => heap.ofJson data
  constructor
  · rintro ⟨expected, received, hanswer⟩ hbalanced
    have hjoint := hdata.engines.renderValue hdata.serves bound (some template)
      (e.make fun heap => heap.ofJson data).1
    exact hjoint.error _ hanswer _ rfl hbalanced expected received rfl
  · intro hlen
    have harity : 2 + e.setting.hooks.providers.length ≠ routine.arity := by
      show _ ≠ routine.program.params.length
      rw [params_of_compile h hroutine]
      show _ ≠ (_ ++ e.setting.hooks.params).length
      rw [List.length_append]
      show _ ≠ 2 + _
      omega
    have hcompile := (e.compile_make (fun heap => heap.ofJson data) template).trans hroutine
    have hset : ((e.make fun heap => heap.ofJson data).2.compile template).2.setting = e.setting :=
      Engine.setting_compile _ template
    have hempty : template.isEmpty = false := by
      rw [← Bool.not_eq_true, String.isEmpty_iff]
      exact hne
    refine ⟨routine.arity, 2 + e.setting.hooks.providers.length, ?_⟩
    simp only [Engine.render, Engine.renderValue]
    rw [hempty, if_neg Bool.false_ne_true]
    generalize (e.make fun heap => heap.ofJson data).2.compile template = r at hcompile hset
    obtain ⟨r, e'⟩ := r
    dsimp only at hcompile hset
    subst hcompile
    dsimp only
    rw [Engine.performRun, Setting.renderTop]
    rw [EStateM.run, Setting.invoke_eq, hset, if_pos harity]
    rfl

/-- **Injected parameters on every engine.**  After any operations on a new engine, the routine of a
template takes the parameters that the engine has now.  So a render of a template that compiles
fails for the number of arguments just if there are not as many values as parameters.  And if no
name occurs twice, and each plugin and each stretch of what the caller does between two
installations adds as many values as parameters, then every added parameter is bound to what its own
provider gives. -/
theorem reachable_params (bound : Nat) (ops : List Operation)
    (hops : ∀ name code, .registerHelper name code ∈ ops → ReportsItself code)
    (template : String) (routine : Compiled)
    (hroutine : (((Engine.create bound).after ops).compile template).1 = .ok routine) :
    let e := (Engine.create bound).after ops
    let units := (Engine.create bound).units [] ops
    routine.program.params = e.setting.params ∧
      (template ≠ "" → ∀ steps data,
        (∃ expected received, (e.render steps (some template) data).1
            = .error (.render (.arity expected received))) ↔
          e.setting.hooks.params.length ≠ e.setting.hooks.providers.length) ∧
      (e.setting.params.Nodup → (∀ acts ∈ units, Matched acts) →
        ∀ steps fragment data store, ∃ place start,
          e.setting.invoke steps fragment routine data store
            = (routine.program.runBound steps
                ⟨e.setting.perform fragment, routine.number, callLimit⟩ [.locals place]
                >>= Run.textOf) start ∧
          ∀ earlier name p later, units.flatMap ownPairs = earlier ++ (name, p) :: later →
            (start.heap.frame place).get? name
              = some ⟨(e.setting.given
                  (e.setting.givenAll store (earlier.map Prod.snd)).2 p).1, true⟩) := by
  intro e units
  have h : e.UpToDate := upToDate_after (upToDate_create bound) hops
  have hparams := params_of_compile h hroutine
  refine ⟨hparams, fun hne steps data => render_arity h hne hroutine steps data, ?_⟩
  intro hnodup hunits steps fragment data store
  obtain ⟨hlen, hzip⟩ := zip_hooks_after hunits
  rw [← hzip]
  exact Setting.invoke_binds hparams hnodup hlen

/-- A plugin pushes a parameter, installs another plugin, and pushes the value. -/
def pushedWithin : List Operation :=
  [.use (.steps [.hook (.parameter "a"),
    .use (.steps [.hook (.inject "b" (.constant (.text "two")))]),
    .hook (.value (.constant (.text "one")))])]

/-- A plugin that installs another one in between still meets its own value. -/
theorem reachable_params_pushedWithin :
    ∃ routine, (((Engine.create 1).after pushedWithin).compile "[[= a ]]").1 = .ok routine ∧
      routine.program.params = ["data", "escapeHTML", "b", "a"] ∧
      ∃ place start,
        ((Engine.create 1).after pushedWithin).setting.invoke 100 (fun _ => Run.endless) routine
            .undefined {}
          = (routine.program.runBound 100
              ⟨((Engine.create 1).after pushedWithin).setting.perform fun _ => Run.endless,
                routine.number, callLimit⟩ [.locals place] >>= Run.textOf) start ∧
        (start.heap.frame place).get? "a" = some ⟨.text "one", true⟩ := by
  have hok : (((Engine.create 1).after pushedWithin).compile "[[= a ]]").1.isOk = true := by
    decide +kernel
  cases hroutine : (((Engine.create 1).after pushedWithin).compile "[[= a ]]").1 with
  | error err =>
    rw [hroutine] at hok
    cases hok
  | ok routine =>
    have hops : ∀ name code, .registerHelper name code ∈ pushedWithin → ReportsItself code := by
      intro name code hmem
      cases hmem with
      | tail _ hmem => cases hmem
    obtain ⟨hparams, -, hbinds⟩ := reachable_params 1 pushedWithin hops "[[= a ]]" routine hroutine
    have hmatched : ∀ acts ∈ (Engine.create 1).units [] pushedWithin, Matched acts := by
      intro acts hmem
      have hunits : (Engine.create 1).units [] pushedWithin
          = [[], [.inject "b" (.constant (.text "two"))],
            [.parameter "a", .value (.constant (.text "one"))], []] := rfl
      rw [hunits] at hmem
      simp only [List.mem_cons, List.not_mem_nil, or_false] at hmem
      obtain rfl | rfl | rfl | rfl := hmem <;> rfl
    obtain ⟨place, start, hrun, hbound⟩ :=
      hbinds (by decide) hmatched 100 (fun _ => Run.endless) .undefined {}
    exact ⟨routine, rfl, hparams, place, start, hrun,
      hbound [("b", .constant (.text "two"))] "a" (.constant (.text "one")) [] rfl⟩

/-- A caller pushes a parameter, installs a plugin, and pushes the value. -/
def pushedApart : List Operation :=
  [.hook (.parameter "a"), .use (.steps [.hook (.inject "b" (.constant (.text "two")))]),
    .hook (.value (.constant (.text "one")))]

/-- What the caller and the plugin each add is in step and the names are distinct, and yet the
parameter of the caller shows the value of the plugin. -/
theorem render_pushedApart :
    Matched [.parameter "a", .value (.constant (.text "one"))] ∧
      Matched [.inject "b" (.constant (.text "two"))] ∧
      ((Engine.create 1).after pushedApart).setting.params = ["data", "escapeHTML", "a", "b"] ∧
      (((Engine.create 1).after pushedApart).render 100 (some "[[= a ]]") (.object [])).1.toOption
        = some "two" :=
  ⟨rfl, rfl, rfl, by decide +kernel⟩

end Stencil
