import Stencil.Proofs.Kept
import Stencil.Proofs.Watched

/-!
# What is not compiled is not met

A render runs the routines that the engine keeps and those that it compiles on the way.  If they all
have a property, a watcher who looks for a routine without it sees nothing.

* `Agreed` — two runs do the same, and keep only routines with the property;
* `agreed_includeWatched` — inclusions with and without the watcher;
* `Engine.not_meets` — the main theorem.
-/

namespace Stencil

open Routine

/-- The store in which a run ends. -/
def endOf {ε α : Type} : EStateM.Result ε Store α → Store
  | .ok _ store => store
  | .error _ store => store

/-- On all stores that keep only routines with the property, both runs do the same, and leave such a
store. -/
def Agreed (s : Setting) (Q : Compiled → Prop) {α : Type} (m m' : Run α) : Prop :=
  ∀ store, Kept s (fun _ => Q) store → m store = m' store ∧ Kept s (fun _ => Q) (endOf (m' store))

section Runs

variable {s : Setting} {Q : Compiled → Prop} {α β : Type}

namespace Agreed

/-- Runs in a row agree if the first ones do, and the second ones on every result of theirs. -/
theorem bind {m m' : Run α} {k k' : α → Run β} (hm : Agreed s Q m m')
    (hk : ∀ a, Agreed s Q (k a) (k' a)) : Agreed s Q (m >>= k) (m' >>= k') := by
  intro store hstore
  obtain ⟨heq, hkept⟩ := hm store hstore
  cases hr : m' store with
  | ok a after =>
    rw [hr] at hkept
    rw [run_bind_ok (heq.trans hr), run_bind_ok hr]
    exact hk a after hkept
  | error halt after =>
    rw [hr] at hkept
    rw [run_bind_error (heq.trans hr), run_bind_error hr]
    exact ⟨rfl, hkept⟩

/-- A run that leaves the kept routines alone agrees with itself. -/
theorem of_runs {m : Run α}
    (hm : (Connection.keeping s (fun _ => Q) (fun _ => True) trivial
      fun _ _ => trivial).RunsAny m) :
    Agreed s Q m m := by
  intro store hstore
  have h := hm store store ⟨rfl, hstore⟩
  refine ⟨rfl, ?_⟩
  generalize m store = r at h
  cases h with
  | ok _ hs => exact hs.2
  | error _ hs => exact hs.2

theorem pure (a : α) : Agreed s Q (Pure.pure a) (Pure.pure a) := fun _ hstore => ⟨rfl, hstore⟩

theorem fail (f : Failure) : Agreed s Q (Run.fail f : Run α) (Run.fail f) :=
  fun _ hstore => ⟨rfl, hstore⟩

theorem make (f : Heap → α × Heap) : Agreed s Q (Run.make f) (Run.make f) :=
  fun _ hstore => ⟨rfl, hstore.change _⟩

/-- Steps of a routine agree if what it asks for does. -/
theorem of_alike {ask ask' : Service → List Value → Run Value}
    (hask : ∀ service args, Agreed s Q (ask service args) (ask' service args)) {m m' : Run α}
    (h : Alike ask ask' m m') : Agreed s Q m m' := by
  induction h with
  | pure a => exact .pure a
  | bind _ _ ihm ihk => exact ihm.bind ihk
  | make f => exact .make f
  | fail f _ => exact .fail f
  | endless => exact fun _ hstore => ⟨rfl, hstore⟩
  | ask service args => exact hask service args

/-- What hides failures hides them on both sides. -/
theorem hidingFailure {m m' : Run String} (h : Agreed s Q m m') :
    Agreed s Q (Setting.hidingFailure m) (Setting.hidingFailure m') := by
  intro store hstore
  obtain ⟨heq, hkept⟩ := h store hstore
  rw [Setting.hidingFailure, Setting.hidingFailure]
  cases hr : m' store with
  | ok a after =>
    rw [hr] at hkept
    rw [run_tryCatch_ok (heq.trans hr), run_tryCatch_ok hr]
    exact ⟨rfl, hkept⟩
  | error halt after =>
    rw [hr] at hkept
    rw [run_tryCatch_error (heq.trans hr), run_tryCatch_error hr]
    refine ⟨rfl, ?_⟩
    cases halt with
    | failed f =>
      dsimp only
      split
      · exact hkept
      · exact hkept
    | endless => exact hkept

end Agreed

/-- What routines ask for agrees if inclusions do. -/
theorem agreed_perform {fragment fragment' : String → Run String}
    (h : ∀ name, Agreed s Q (fragment name) (fragment' name)) (service : Service)
    (args : List Value) :
    Agreed s Q (s.perform fragment service args) (s.perform fragment' service args) := by
  have answer {m m' : Run String} (hm : Agreed s Q m m') :
      Agreed s Q (do return .text (← m) : Run Value) (do return .text (← m')) :=
    hm.bind fun _ => .pure _
  cases service with
  | escape => exact (Agreed.of_runs (Connection.runs_textOf _)).bind fun _ => .pure _
  | fragment =>
    refine (Agreed.of_runs (Connection.runs_firstText args)).bind fun name => ?_
    exact answer (h name)
  | chosenFragment =>
    cases args with
    | nil => exact .pure _
    | cons v args =>
      cases v with
      | text name => exact answer (h name).hidingFailure
      | _ => exact .pure _
  | message =>
    refine (Agreed.of_runs (Connection.runs_firstText args)).bind fun key => ?_
    exact answer (.of_runs (Connection.runs_fillMessage _ _))
  | helper slot =>
    simp only [Setting.perform]
    split
    · exact .of_runs (Connection.runs_attempt fun _ _ _ => trivial)
    · exact .pure _

theorem agreed_invoke {fragment fragment' : String → Run String}
    (h : ∀ name, Agreed s Q (fragment name) (fragment' name)) (bound : Nat) (routine : Compiled)
    (data : Value) :
    Agreed s Q (s.invoke bound fragment routine data) (s.invoke bound fragment' routine data) := by
  have hprovided : Agreed s Q s.provideAll s.provideAll :=
    .of_runs ((Connection.runs_provideAll s).weaken fun _ _ => trivial)
  refine hprovided.bind fun provided => ?_
  dsimp only
  split
  · exact .fail _
  · refine Agreed.bind ?_ fun v => .of_runs (Connection.runs_textOf v)
    exact .of_alike (agreed_perform h) (.programRun _ _ _ _ _)

/-- Compiling a template whose new routines have the property gives a routine that has it. -/
theorem agreed_compileNested {template : String}
    (hnew : ∀ routine, New s template routine → Q routine)
    {k k' : Compiled → Run β} (hk : ∀ routine, Q routine → Agreed s Q (k routine) (k' routine)) :
    Agreed s Q (s.compileNested template >>= k) (s.compileNested template >>= k') := by
  intro store hstore
  rcases hstore.compile hnew with
    ⟨routine, after, hr, hQ, hkept, -⟩ | ⟨stop, after, hr, -, hkept, -⟩
  · have hcompile : s.compileNested template store = .ok routine after := by
      rw [Setting.compileNested, hr]
    rw [run_bind_ok hcompile, run_bind_ok hcompile]
    exact hk routine hQ after hkept
  · obtain ⟨halt, hcompile⟩ : ∃ halt, s.compileNested template store = .error halt after := by
      rw [Setting.compileNested, hr]
      cases stop <;> exact ⟨_, rfl⟩
    rw [run_bind_error hcompile, run_bind_error hcompile]
    exact ⟨rfl, hkept⟩

section Inclusions

variable {watch : Watcher} (hentered : ∀ depth routine, Q routine →
    watch (.entered depth routine) = return)
  (bound : Nat) (data : Value)
include hentered

/-- A watcher who does nothing about routines with the property lets such a routine be. -/
theorem agreed_invokeWatched {fragment fragment' : String → Run String}
    (h : ∀ name, Agreed s Q (fragment name) (fragment' name)) (depth : Nat) {routine : Compiled}
    (hroutine : Q routine) :
    Agreed s Q (s.invokeWatched watch bound depth fragment routine data)
      (s.invoke bound fragment' routine data) := by
  rw [invokeWatched_eq (hentered depth routine hroutine)]
  exact agreed_invoke h bound routine data

/-- **Inclusions agree**, by induction on how many more may nest. -/
theorem agreed_includeWatched (hrefused : ∀ f, watch (.refused f) = return)
    (hnew : ∀ name template, (s.fragments.getD .empty).get? name = some template →
      ∀ routine, New s template routine → Q routine) (levels depth : Nat) (name : String) :
    Agreed s Q (s.includeWatched watch bound data levels depth name)
      (s.includeFragment bound data levels name) := by
  have hrefuse (f : Failure) : Setting.refuseWatched watch f = Run.fail f :=
    refuseWatched_eq (hrefused f)
  induction levels generalizing depth name with
  | zero =>
    simp only [Setting.includeWatched, Setting.includeFragment, hrefuse]
    cases (s.fragments.getD .empty).get? name with
    | none => exact .fail _
    | some template => exact .fail _
  | succ levels ih =>
    simp only [Setting.includeWatched, Setting.includeFragment, hrefuse]
    cases hget : (s.fragments.getD .empty).get? name with
    | none => exact .fail _
    | some template =>
      simp only [Setting.renderNestedWatched, Setting.renderNested]
      split
      · exact .pure ""
      · exact agreed_compileNested (hnew name template hget) fun routine hroutine =>
          agreed_invokeWatched hentered bound data (ih (depth + 1)) _ hroutine

end Inclusions

end Runs

namespace Engine

variable {e : Engine} {template : Option String} {data : Heap → Value × Heap}
  {Q : Compiled → Prop} {P : Event → Prop}

/-- **What is not compiled is not met.**  If all kept routines, and all new ones of the template and
of the fragments, have a property, then no render meets a routine without it. -/
theorem not_meets (hkept : Kept e.setting (fun _ => Q) e.store)
    (hnew : ∀ t, template = some t
        ∨ (∃ name, (e.setting.fragments.getD .empty).get? name = some t) →
      ∀ routine, New e.setting t routine → Q routine)
    (hentered : ∀ depth routine, Q routine → ¬ P (.entered depth routine))
    (hrefused : ∀ f, ¬ P (.refused f)) (bound : Nat) : ¬ e.Meets bound template data P := by
  rintro ⟨watch, hheeds, hne⟩
  refine hne ?_
  rw [renderMade_eq_renderBy, renderWatched]
  cases template with
  | none => rfl
  | some template =>
    rw [renderBy_some, renderBy_some]
    split
    · rfl
    have hidle (depth : Nat) (routine : Compiled) (hroutine : Q routine) :
        watch (.entered depth routine) = return := hheeds _ (hentered depth routine hroutine)
    have hfragments := agreed_includeWatched hidle bound (e.make data).1
      (fun f => hheeds _ (hrefused f)) (fun name t ht => hnew t (.inr ⟨name, ht⟩)) nestingLimit 0
    have hmade : Kept e.setting (fun _ => Q) (e.make data).2.store := hkept.change _
    rw [compile]
    rcases hmade.compile (hnew template (.inl rfl)) with
      ⟨routine, after, hr, hQ, hafter, -⟩ | ⟨stop, after, hr, -⟩
    · have hr : (e.make data).2.setting.compile template (e.make data).2.store
          = .ok routine after := hr
      have hrun := (agreed_invokeWatched hidle bound (e.make data).1 hfragments 0
        hQ after hafter).1
      rw [EStateM.run, hr]
      dsimp only
      rw [performRun, performRun, EStateM.run, EStateM.run]
      rw [Setting.renderTopWatched, Setting.renderTop, hrun]
    · have hr : (e.make data).2.setting.compile template (e.make data).2.store
          = .error stop after := hr
      rw [EStateM.run, hr]
      cases stop <;> rfl

end Engine

end Stencil
