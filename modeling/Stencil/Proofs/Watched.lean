import Stencil.Engine.Render
import Stencil.Proofs.Alike

/-!
# Watched renders

A render shows only its answer.  What happens on the way, such as the routine of a fragment being
run or an inclusion being refused, can be told from it once somebody watches: a watcher that stops
the render when something happens makes a difference if it happens, and none if it does not.

* `Event`, `Watcher` — what can be seen, and what is done about it;
* `Setting.includeWatched`, `Setting.renderTopWatched` — the functions of a render with a watcher;
* `renderTopWatched_eq` — a watcher that does nothing changes nothing;
* `Engine.renderMade`, `Engine.renderWatched` — renders with data of any kind;
* `Engine.Meets` — something happens during a render.
-/

namespace Stencil

open Routine

/-- What can be seen of a render while it goes on. -/
inductive Event where
  /-- A routine is about to be run, inside this many inclusions. -/
  | entered (depth : Nat) (routine : Compiled)
  /-- An inclusion is about to fail in this way. -/
  | refused (f : Failure)

/-- What somebody does about the events of a render. -/
abbrev Watcher : Type := Event → Run Unit

/-- The watcher does nothing about other events than these. -/
def Watcher.Heeds (watch : Watcher) (P : Event → Prop) : Prop :=
  ∀ event, ¬ P event → watch event = return

namespace Setting

/-- Runs a routine with the data inside `depth` inclusions and gives its text, watched. -/
def invokeWatched (s : Setting) (watch : Watcher) (bound depth : Nat)
    (fragment : String → Run String) (routine : Compiled) (data : Value) : Run String := do
  watch (.entered depth routine)
  s.invoke bound fragment routine data

/-- The text of a template that is rendered while another one runs, watched. -/
def renderNestedWatched (s : Setting) (watch : Watcher) (bound depth : Nat)
    (fragment : String → Run String) (template : String) (data : Value) : Run String := do
  if template.isEmpty then return ""
  else s.invokeWatched watch bound depth fragment (← s.compileNested template) data

/-- Refuses an inclusion, watched. -/
def refuseWatched (watch : Watcher) (f : Failure) : Run String := do
  watch (.refused f)
  Run.fail f

/-- The text of a fragment that is included inside `depth` inclusions, with as many `levels` left as
`Setting.includeFragment` has, watched. -/
def includeWatched (s : Setting) (watch : Watcher) (bound : Nat) (data : Value) :
    Nat → Nat → String → Run String
  | levels, depth, name =>
    match (s.fragments.getD .empty).get? name with
    | none => refuseWatched watch (.noFragment name)
    | some template =>
      match levels with
      | 0 => refuseWatched watch (.fragmentDepth name)
      | levels + 1 =>
        s.renderNestedWatched watch bound (depth + 1)
          (s.includeWatched watch bound data levels (depth + 1)) template data

/-- Runs a compiled routine at the top and gives its text, watched. -/
def renderTopWatched (s : Setting) (watch : Watcher) (bound : Nat) (routine : Compiled)
    (data : Value) : Run String :=
  s.invokeWatched watch bound 0 (s.includeWatched watch bound data nestingLimit 0) routine data

end Setting

/-! ### Watchers that do nothing -/

section Idle

variable {s : Setting} {watch : Watcher} {bound : Nat} {data : Value}

theorem invokeWatched_eq {depth : Nat} {routine : Compiled}
    (h : watch (.entered depth routine) = return) (fragment : String → Run String) :
    s.invokeWatched watch bound depth fragment routine data
      = s.invoke bound fragment routine data := by
  rw [Setting.invokeWatched, h]
  rfl

theorem refuseWatched_eq {f : Failure} (h : watch (.refused f) = return) :
    Setting.refuseWatched watch f = Run.fail f := by
  rw [Setting.refuseWatched, h]
  rfl

/-- A watcher that does nothing about the events of an inclusion changes nothing. -/
theorem includeWatched_eq (levels depth : Nat) (name : String)
    (hrefused : ∀ f, watch (.refused f) = return)
    (hentered : ∀ d routine, depth < d → d ≤ depth + levels →
      watch (.entered d routine) = return) :
    s.includeWatched watch bound data levels depth name
      = s.includeFragment bound data levels name := by
  induction levels generalizing depth name with
  | zero =>
    rw [Setting.includeWatched, Setting.includeFragment]
    cases (s.fragments.getD .empty).get? name with
    | none => exact refuseWatched_eq (hrefused _)
    | some template => exact refuseWatched_eq (hrefused _)
  | succ levels ih =>
    have hnested : s.includeWatched watch bound data levels (depth + 1)
        = s.includeFragment bound data levels :=
      funext fun name => ih (depth + 1) name fun d routine hlow hhigh =>
        hentered d routine (by omega) (by omega)
    have hinvoke (fragment : String → Run String) (routine : Compiled) :
        s.invokeWatched watch bound (depth + 1) fragment routine data
          = s.invoke bound fragment routine data :=
      invokeWatched_eq (hentered (depth + 1) routine (by omega) (by omega)) fragment
    rw [Setting.includeWatched, Setting.includeFragment]
    cases (s.fragments.getD .empty).get? name with
    | none => exact refuseWatched_eq (hrefused _)
    | some template =>
      simp only [Setting.renderNestedWatched, Setting.renderNested, hnested, hinvoke]

/-- The same for a whole render. -/
theorem renderTopWatched_eq (hrefused : ∀ f, watch (.refused f) = return)
    (hentered : ∀ d routine, d ≤ nestingLimit → watch (.entered d routine) = return)
    (routine : Compiled) :
    s.renderTopWatched watch bound routine data = s.renderTop bound routine data := by
  have hinclude : s.includeWatched watch bound data nestingLimit 0
      = s.includeFragment bound data nestingLimit :=
    funext fun name => includeWatched_eq nestingLimit 0 name hrefused fun d routine _ hd =>
      hentered d routine (by omega)
  rw [Setting.renderTopWatched, invokeWatched_eq (hentered 0 routine (Nat.zero_le _)), hinclude]
  rfl

end Idle

/-! ### Whole renders -/

namespace Engine

variable (e : Engine) (bound : Nat) (template : Option String)

/-- A template with data that are made first, given how a compiled routine is run. -/
def renderBy (run : Compiled → Value → Run String) (data : Heap → Value × Heap) :
    Except Error String × Engine :=
  let (v, e) := e.make data
  match template with
  | none => (.error .missingTemplate, e)
  | some template =>
    if template.isEmpty then (.error .missingTemplate, e)
    else
      match e.compile template with
      | (.error err, e) => (.error err, e)
      | (.ok routine, e) =>
        match e.performRun (run routine v) with
        | (.ok text, e) => (.ok text, e)
        | (.error halt, e) => (.error (haltError halt), e)

/-- The text of a template with data that are made first. -/
def renderMade (data : Heap → Value × Heap) : Except Error String × Engine :=
  let (v, e) := e.make data
  e.renderValue bound template v

/-- The text of a template with data that are made first, watched. -/
def renderWatched (watch : Watcher) (data : Heap → Value × Heap) : Except Error String × Engine :=
  e.renderBy template (e.setting.renderTopWatched watch bound) data

/-- A render with a JSON value makes it first. -/
theorem render_eq_renderMade (data : Json) :
    e.render bound template data = e.renderMade bound template fun h => h.ofJson data := rfl

/-- A render with a value that is there makes nothing. -/
theorem renderValue_eq_renderMade (data : Value) :
    e.renderValue bound template data = e.renderMade bound template fun h => (data, h) := rfl

/-- A template that is there is compiled, unless it is empty, and its routine is run. -/
theorem renderBy_some (template : String) (run : Compiled → Value → Run String)
    (data : Heap → Value × Heap) :
    e.renderBy (some template) run data
      = if template.isEmpty then (.error .missingTemplate, (e.make data).2)
        else
          match (e.make data).2.compile template with
          | (.error err, e) => (.error err, e)
          | (.ok routine, after) =>
            ((after.performRun (run routine (e.make data).1)).1.mapError haltError,
              (after.performRun (run routine (e.make data).1)).2) := by
  simp only [renderBy]
  split
  · rfl
  · generalize (e.make data).2.compile template = compiled
    obtain ⟨r, after⟩ := compiled
    cases r with
    | error err => rfl
    | ok routine =>
      dsimp only
      generalize after.performRun (run routine (e.make data).1) = performed
      obtain ⟨r, after⟩ := performed
      cases r <;> rfl

/-- A render runs the routine at the top. -/
theorem renderMade_eq_renderBy (data : Heap → Value × Heap) :
    e.renderMade bound template data = e.renderBy template (e.setting.renderTop bound) data := by
  cases template with
  | none => rfl
  | some template =>
    simp only [renderMade, renderBy, renderValue]
    split
    · rfl
    · have hset : ((e.make data).2.compile template).2.setting = e.setting := by
        rw [compile]
        split <;> rfl
      generalize (e.make data).2.compile template = r at hset
      obtain ⟨r, setting, store⟩ := r
      obtain rfl : setting = e.setting := hset
      cases r <;> rfl

/-- Watched by one who does nothing, a render is as it is. -/
theorem renderWatched_eq {watch : Watcher} (hrefused : ∀ f, watch (.refused f) = return)
    (hentered : ∀ d routine, d ≤ nestingLimit → watch (.entered d routine) = return)
    (data : Heap → Value × Heap) :
    e.renderWatched bound template watch data = e.renderMade bound template data := by
  have hrun : e.setting.renderTopWatched watch bound = e.setting.renderTop bound :=
    funext fun routine => funext fun v => renderTopWatched_eq hrefused hentered routine
  rw [renderWatched, hrun, renderMade_eq_renderBy]

/-- **During the render something of this kind happens**: a watcher who heeds nothing else makes a
difference. -/
def Meets (data : Heap → Value × Heap) (P : Event → Prop) : Prop :=
  ∃ watch : Watcher, watch.Heeds P
    ∧ e.renderWatched bound template watch data ≠ e.renderMade bound template data

end Engine

end Stencil
