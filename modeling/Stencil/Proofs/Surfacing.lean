import Stencil.Proofs.History
import Stencil.Proofs.Watched

/-!
# Failures that nothing hides

A fragment that is chosen while a routine runs may fail without the routine failing.  This does not
go for a fragment that is missing, or one that would be nested too deep: such an inclusion makes the
whole render fail.

A layout that is missing is something else.  Layouts are resolved before a template is compiled, and
what is compiled when that fails is a statement that raises the failure; as any other raised failure
it is hidden when the template is a chosen fragment.

* `Surfaces` — a run fails in a certain way wherever watching it makes a difference;
* `surfaces_includeWatched` — inclusions do so, when what is watched are refusals;
* `renderMade_refused` — the main theorem;
* `render_hiddenLayout` — a missing layout that a render does not report.
-/

namespace Stencil

open Routine

/-- Wherever the left run does not do what the right one does, the right one fails in this way. -/
def Surfaces (f : Failure) {α : Type} (m m' : Run α) : Prop :=
  ∀ store, m store = m' store ∨ ∃ after, m' store = .error (.failed f) after

namespace Surfaces

variable {f : Failure} {α β : Type}

theorem refl (m : Run α) : Surfaces f m m := fun _ => .inl rfl

theorem bind {m m' : Run α} {k k' : α → Run β} (hm : Surfaces f m m')
    (hk : ∀ a, Surfaces f (k a) (k' a)) : Surfaces f (m >>= k) (m' >>= k') := by
  intro store
  rcases hm store with heq | ⟨after, hafter⟩
  · rcases hr : m' store with ⟨a, t⟩ | ⟨halt, t⟩
    · rw [run_bind_ok (heq.trans hr), run_bind_ok hr]
      exact hk a t
    · rw [run_bind_error (heq.trans hr), run_bind_error hr]
      exact .inl rfl
  · exact .inr ⟨after, run_bind_error hafter⟩

/-- Steps of a routine do so if what it asks for does. -/
theorem of_alike {ask ask' : Service → List Value → Run Value}
    (hask : ∀ service args, Surfaces f (ask service args) (ask' service args)) {m m' : Run α}
    (h : Alike ask ask' m m') : Surfaces f m m' := by
  induction h with
  | pure a => exact refl _
  | bind _ _ ihm ihk => exact ihm.bind ihk
  | make g => exact refl _
  | fail g _ => exact refl _
  | endless => exact refl _
  | ask service args => exact hask service args

/-- What hides failures does not hide this one. -/
theorem hidingFailure (hf : f.isProtocol = true) {m m' : Run String} (h : Surfaces f m m') :
    Surfaces f (Setting.hidingFailure m) (Setting.hidingFailure m') := by
  intro store
  rw [Setting.hidingFailure, Setting.hidingFailure]
  rcases h store with heq | ⟨after, hafter⟩
  · refine .inl ?_
    rcases hr : m' store with ⟨a, t⟩ | ⟨halt, t⟩
    · rw [run_tryCatch_ok (heq.trans hr), run_tryCatch_ok hr]
    · rw [run_tryCatch_error (heq.trans hr), run_tryCatch_error hr]
  · refine .inr ⟨after, (run_tryCatch_error hafter).trans ?_⟩
    simp only [hf, if_true]
    rfl

end Surfaces

section Refusals

variable {f : Failure} (hf : f.isProtocol = true) {watch : Watcher}
  (hwatch : watch.Heeds fun event => event = .refused f) {s : Setting} {bound : Nat} {data : Value}

include hf in
theorem surfaces_perform {fragment fragment' : String → Run String}
    (h : ∀ name, Surfaces f (fragment name) (fragment' name)) (service : Service)
    (args : List Value) :
    Surfaces f (s.perform fragment service args) (s.perform fragment' service args) := by
  have answer {m m' : Run String} (hm : Surfaces f m m') :
      Surfaces f (do return .text (← m) : Run Value) (do return .text (← m')) :=
    hm.bind fun _ => .refl _
  cases service with
  | fragment => exact (Surfaces.refl _).bind fun name => answer (h name)
  | chosenFragment =>
    cases args with
    | nil => exact .refl _
    | cons v args =>
      cases v with
      | text name => exact answer ((h name).hidingFailure hf)
      | _ => exact .refl _
  | escape | message | helper => exact .refl _

include hf in
theorem surfaces_invoke {fragment fragment' : String → Run String}
    (h : ∀ name, Surfaces f (fragment name) (fragment' name)) (routine : Compiled) :
    Surfaces f (s.invoke bound fragment routine data) (s.invoke bound fragment' routine data) := by
  refine (Surfaces.refl _).bind fun provided => ?_
  dsimp only
  split
  · exact .refl _
  · refine Surfaces.bind ?_ fun v => .refl _
    exact .of_alike (surfaces_perform hf h) (.programRun _ _ _ _ _)

include hwatch in
/-- Who watches one refusal lets routines be. -/
theorem watch_entered (depth : Nat) (routine : Compiled) :
    watch (.entered depth routine) = return :=
  hwatch _ nofun

include hwatch in
/-- Where a watched refusal differs, it is the one that is watched. -/
theorem surfaces_refuse (g : Failure) :
    Surfaces f (Setting.refuseWatched watch g) (Run.fail g) := by
  by_cases hg : g = f
  · exact fun store => .inr ⟨store, by rw [hg]; rfl⟩
  · have hidle : watch (.refused g) = return := hwatch _ fun heq => hg (Event.refused.inj heq)
    rw [refuseWatched_eq hidle]
    exact .refl _

include hf hwatch in
/-- An inclusion in which watching for a refusal makes a difference is refused in this way. -/
theorem surfaces_includeWatched (levels depth : Nat) (name : String) :
    Surfaces f (s.includeWatched watch bound data levels depth name)
      (s.includeFragment bound data levels name) := by
  induction levels generalizing depth name with
  | zero =>
    rw [Setting.includeWatched, Setting.includeFragment]
    cases (s.fragments.getD .empty).get? name with
    | none => exact surfaces_refuse hwatch _
    | some template => exact surfaces_refuse hwatch _
  | succ levels ih =>
    rw [Setting.includeWatched, Setting.includeFragment]
    cases (s.fragments.getD .empty).get? name with
    | none => exact surfaces_refuse hwatch _
    | some template =>
      dsimp only [Setting.renderNestedWatched, Setting.renderNested]
      split
      · exact .refl _
      · refine (Surfaces.refl _).bind fun routine => ?_
        rw [invokeWatched_eq (watch_entered hwatch _ _)]
        exact surfaces_invoke hf (ih (depth + 1)) routine

include hf hwatch in
theorem surfaces_renderTopWatched (routine : Compiled) :
    Surfaces f (s.renderTopWatched watch bound routine data) (s.renderTop bound routine data) := by
  rw [Setting.renderTopWatched, invokeWatched_eq (watch_entered hwatch _ _)]
  exact surfaces_invoke hf (surfaces_includeWatched hf hwatch nestingLimit 0) routine

end Refusals

/-! ### Whole renders -/

/-- Where running a routine in two ways makes a difference to a render, the right one fails. -/
theorem renderBy_surfaces (e : Engine) (template : Option String) {f : Failure}
    {run run' : Compiled → Value → Run String}
    (h : ∀ routine v, Surfaces f (run routine v) (run' routine v)) (data : Heap → Value × Heap) :
    e.renderBy template run data = e.renderBy template run' data
      ∨ (e.renderBy template run' data).1 = .error (.render f) := by
  cases template with
  | none => exact .inl rfl
  | some template =>
    rw [Engine.renderBy_some, Engine.renderBy_some]
    split
    · exact .inl rfl
    · generalize (e.make data).2.compile template = compiled
      obtain ⟨r, after⟩ := compiled
      cases r with
      | error err => exact .inl rfl
      | ok routine =>
        dsimp only
        rw [Engine.performRun, Engine.performRun, EStateM.run, EStateM.run]
        rcases h routine (e.make data).1 after.store with heq | ⟨store, hstore⟩
        · rw [heq]
          exact .inl rfl
        · rw [hstore]
          exact .inr rfl

/-- **No inclusion is refused unnoticed.**  If a fragment that is included at any time during a
render is missing, or would be nested too deep, then the render gives no text, but that failure. -/
theorem renderMade_refused (e : Engine) (bound : Nat) (template : Option String)
    (data : Heap → Value × Heap) {f : Failure} (hf : f.isProtocol = true)
    (h : e.Meets bound template data fun event => event = .refused f) :
    (e.renderMade bound template data).1 = .error (.render f) := by
  obtain ⟨watch, hwatch, hne⟩ := h
  rw [Engine.renderWatched, Engine.renderMade_eq_renderBy] at hne
  rw [Engine.renderMade_eq_renderBy]
  exact (renderBy_surfaces e template (fun routine v => surfaces_renderTopWatched hf hwatch routine)
    data).resolve_left hne

/-- What a text is that a render gives, or the words of its error. -/
def answerText (r : Except Error String × Engine) : String :=
  match r.1 with
  | .ok text => text
  | .error err => err.message

/-- A fragment that nothing was registered for is met, and is what the render fails with. -/
theorem renderMade_refused_missing :
    let e := (Engine.create 8).use .fragments
    let data : Heap → Value × Heap := fun h => h.ofJson (.object [])
    Failure.isProtocol (.noFragment "a") = true
      ∧ e.Meets 100 (some "[[> (\"a\") ]]") data (fun event => event = .refused (.noFragment "a"))
      ∧ (e.renderMade 100 (some "[[> (\"a\") ]]") data).1 = .error (.render (.noFragment "a")) := by
  intro e data
  -- Who stops the render at the refusal makes a difference.
  let watch : Watcher := fun event =>
    match event with
    | .entered _ _ => return
    | .refused f => if f = .noFragment "a" then Run.fail (.raised "seen") else return
  have hwatch : watch.Heeds fun event => event = .refused (.noFragment "a") := by
    intro event hevent
    cases event with
    | entered depth routine => rfl
    | refused f => exact if_neg fun hf => hevent (congrArg Event.refused hf)
  have hseen : answerText (e.renderWatched 100 (some "[[> (\"a\") ]]") watch data) ≠
      answerText (e.renderMade 100 (some "[[> (\"a\") ]]") data) := by decide +kernel
  have hmeets : e.Meets 100 (some "[[> (\"a\") ]]") data
      fun event => event = .refused (.noFragment "a") :=
    ⟨watch, hwatch, fun heq => hseen (congrArg answerText heq)⟩
  exact ⟨rfl, hmeets, renderMade_refused e 100 _ data rfl hmeets⟩

/-! ### Layouts -/

/-- An engine with fragments and layouts, and a fragment whose layout is missing. -/
def hidingLayout : Engine :=
  (Engine.create 8).after
    [.use (.both .fragments .layouts), .registerFragment "p" "[[ extends \"nope\" ]]"]

/-- The missing layout is reported where the fragment is included by its name, and not where it is
chosen by a value. -/
theorem render_hiddenLayout :
    answerText (hidingLayout.render 100 (some "[[> p ]]") (.object []))
        = "Render failed: Layout \"nope\" not found"
      ∧ (hidingLayout.render 100 (some "[[> (\"p\") ]]") (.object [])).1.toOption = some "" := by
  decide +kernel

end Stencil
