import Stencil.Proofs.Kept
import Stencil.Proofs.LikeRendering
import Stencil.Proofs.ParserEnds
import Stencil.Proofs.Staying
import Stencil.Proofs.Watched

/-!
# Renders without free loops end

The bound on the steps of a render stands for running on without an end.  A render that only runs
routines without free loops settles: from some bound on, it always gives the same answer.  What
decides this are four things, one inside the other: how many more inclusions may nest, how many more
calls may nest, how large the statement or expression is, and how many values a loop over values has
still to visit.

* `Helper.KeepsTo`, `Setting.StaysIn` — what the engine provides lies in the region of the run;
* `Event.IsLooping`, `stopAtLoops` — who watches for free loops and stops at them;
* `settles_includeWatched` — inclusions settle, by induction on how many more may nest;
* `Engine.renderWatched_settles` — a whole watched render comes to an answer, or to a knot;
* `Engine.render_ends` — the main theorem.
-/

namespace Stencil

open Routine Filter

/-! ### What the engine provides -/

/-- Given values of the region, the helper gives a value of the region and leaves it kept. -/
def Helper.KeepsTo (R : Region) (code : Helper) : Prop :=
  ∀ args h, R.Keeps h → (∀ v ∈ args, R.Has h.extent v) →
    h.extent ≤ (code args h).2.extent ∧ R.Keeps (code args h).2
      ∧ ∀ v, (code args h).1 = .ok v → R.Has (code args h).2.extent v

/-- What routines are given lies in the region, and helpers and hooks keep to it. -/
structure Setting.StaysIn (s : Setting) (R : Region) (w : Nat × Nat) : Prop where
  escape : R.Has w s.escape
  constants : ∀ v, .constant v ∈ s.hooks.providers → R.Has w v
  customs : ∀ make, .custom make ∈ s.hooks.providers → ∀ h, R.Keeps h →
    h.extent ≤ (make h).2.extent ∧ R.Keeps (make h).2 ∧ R.Has (make h).2.extent (make h).1
  helpers : ∀ e ∈ (s.helpers.getD .empty).entries, R.Has w e.2
  codes : ∀ code ∈ s.codes, Helper.KeepsTo R code

theorem Setting.StaysIn.mono {s : Setting} {R : Region} {w w' : Nat × Nat} (hw : w ≤ w')
    (h : s.StaysIn R w) : s.StaysIn R w' where
  escape := h.escape.mono hw
  constants v hv := (h.constants v hv).mono hw
  customs := h.customs
  helpers e he := (h.helpers e he).mono hw
  codes := h.codes

section Inside

variable {R : Region} {F : Filter Nat} {s : Setting} {w : Nat × Nat} (hs : s.StaysIn R w)
include hs

theorem settles_provide {p : Provider} (hp : p ∈ s.hooks.providers) :
    (staying R).Settles F w (staying R).Values (fun _ => s.provide p) (fun _ => s.provide p) := by
  cases p with
  | constant v => exact .value (keeping_values.mpr ⟨rfl, hs.constants v hp⟩)
  | helpers =>
    have hentries : (staying R).Named w (s.helpers.getD .empty).entries
        (s.helpers.getD .empty).entries := keeping_named.mpr ⟨rfl, hs.helpers⟩
    exact .make fun _ hw _ _ hh => Likeness.Lawful.newObject hh (hentries.mono hw)
  | custom make =>
    refine .make fun w₁ hw₁ h h' hh => ?_
    obtain ⟨rfl, rfl, hkeeps⟩ := hh
    obtain ⟨hle, hafter, hhas⟩ := hs.customs make hp h hkeeps
    exact ⟨_, hle, keeping_values.mpr ⟨rfl, hhas⟩, rfl, rfl, hafter⟩

theorem settles_provideAll :
    (staying R).Settles F w (staying R).Rows (fun _ => s.provideAll) (fun _ => s.provideAll) := by
  have hproviders : List.Forall₂ (fun p p' => p = p' ∧ p ∈ s.hooks.providers)
      s.hooks.providers s.hooks.providers := List.forall₂_same.mpr fun _ hp => ⟨rfl, hp⟩
  refine .mapValues hproviders fun p p' hp => ?_
  obtain ⟨rfl, hp⟩ := hp
  exact settles_provide hs hp

theorem settles_helper {fragment : Nat → String → Run String} {slot : Nat}
    {args args' : List Value} (hargs : (staying R).Rows w args args') :
    (staying R).Settles F w (staying R).Values
      (fun i => s.perform (fragment i) (.helper slot) args)
      (fun i => s.perform (fragment i) (.helper slot) args') := by
  obtain ⟨rfl, hall⟩ := keeping_rows.mp hargs
  simp only [Setting.perform]
  cases hcode : s.codes[slot]? with
  | none => exact .value .undefined
  | some code =>
    refine .attempt fun w₁ hw₁ h h' hh => ?_
    obtain ⟨rfl, rfl, hkeeps⟩ := hh
    obtain ⟨hle, hafter, hvalue⟩ := hs.codes code (Array.mem_of_getElem? hcode) args h hkeeps
      fun v hv => (hall v hv).mono hw₁
    refine ⟨_, hle, ⟨rfl, rfl, hafter⟩, ?_⟩
    cases hr : (code args h).1 with
    | ok v => exact .inl ⟨v, v, rfl, rfl, keeping_values.mpr ⟨rfl, hvalue v hr⟩⟩
    | error e => exact .inr ⟨e, rfl, rfl⟩

/-- What routines ask for settles if inclusions do. -/
theorem serves_staying {fragment : Nat → String → Run String}
    (hfragment : ∀ name, (staying R).Settles F w (staying R).Same (fun i => fragment i name)
      (fun i => fragment i name)) :
    (staying R).Serves F w (fun i => s.perform (fragment i)) (fun i => s.perform (fragment i)) := by
  refine .perform rfl (fun w₁ hw₁ name => (hfragment name).mono hw₁) ?_ ?_
  · exact fun w₁ hw₁ name => ((hfragment name).mono hw₁).hidingFailure fun _ h => False.elim h
  · exact fun w₁ hw₁ slot args args' hargs => settles_helper (hs.mono hw₁) hargs

end Inside

/-! ### Compiling -/

/-- Compiling comes to a routine or to a fault, and leaves the heap as it is. -/
theorem compile_cases (s : Setting) (template : String) (store : Store) :
    (∃ routine after, s.compile template store = .ok routine after ∧ after.heap = store.heap)
      ∨ ∃ fault after, s.compile template store = .error (.fault fault) after
        ∧ after.heap = store.heap := by
  have hheap := Kept.heap_freshen s store
  have hends := parseProgram_ne_exhausted s.params (s.source template)
  rw [Kept.compile_eq]
  cases (s.freshen store).cache.get? template with
  | some routine => exact .inl ⟨routine, _, rfl, hheap⟩
  | none =>
    generalize parseProgram s.params (s.source template) = parsed at hends ⊢
    cases parsed with
    | ok program => exact .inl ⟨_, _, rfl, hheap⟩
    | error stop =>
      cases stop with
      | fault fault => exact .inr ⟨fault, _, rfl, hheap⟩
      | exhausted => exact absurd rfl hends

/-! ### Watching for free loops -/

/-- A routine with free loops is about to be run. -/
def Event.IsLooping : Event → Prop
  | .entered _ routine => routine.program.isLoopFree = false
  | .refused _ => False

/-- Stops the render before a routine with free loops is run. -/
def stopAtLoops : Watcher
  | .entered _ routine => if routine.program.isLoopFree then return else Run.fail .noEngine
  | .refused _ => return

theorem heeds_stopAtLoops : stopAtLoops.Heeds Event.IsLooping := by
  intro event h
  cases event with
  | entered depth routine =>
    have hfree : routine.program.isLoopFree = true := by
      simpa only [Event.IsLooping, Bool.not_eq_false] using h
    simp only [stopAtLoops, hfree, if_true]
  | refused f => rfl

section Inclusions

variable {R : Region} {s : Setting} {w : Nat × Nat} (hs : s.StaysIn R w) {data : Value}
  (hdata : R.Has w data)
include hs hdata

/-- **A routine settles** if inclusions do, unless it has free loops and is stopped. -/
theorem settles_invokeWatched {fragment : Nat → String → Run String}
    (hfragment : ∀ name, (staying R).Settles atTop w (staying R).Same (fun i => fragment i name)
      (fun i => fragment i name)) (depth : Nat) (routine : Compiled) :
    (staying R).Settles atTop w (staying R).Same
      (fun bound => s.invokeWatched stopAtLoops bound depth (fragment bound) routine data)
      (fun bound => s.invokeWatched stopAtLoops bound depth (fragment bound) routine data) := by
  by_cases hfree : routine.program.isLoopFree = true
  · have hinvoke (bound : Nat) :
        s.invokeWatched stopAtLoops bound depth (fragment bound) routine data
          = s.invoke bound (fragment bound) routine data :=
      invokeWatched_eq (heeds_stopAtLoops _ (by simp [Event.IsLooping, hfree])) _
    simp only [hinvoke]
    have hserves := serves_staying hs hfragment
    have hcalls := Likeness.calls_growing hserves id callLimit
    refine .invoke le_rfl (keeping_values.mpr ⟨rfl, hs.escape⟩) (keeping_values.mpr ⟨rfl, hdata⟩)
      (settles_provideAll hs) rfl (List.forall₂_same.mpr fun stmt hstmt => ?_) rfl
    exact Likeness.executes_growing id hcalls tendsto_id stmt
      ((stmtsLoopFree_iff _).mp hfree stmt hstmt)
  · have hstop : stopAtLoops (.entered depth routine) = Run.fail .noEngine := if_neg hfree
    have hfail (bound : Nat) :
        s.invokeWatched stopAtLoops bound depth (fragment bound) routine data
          = Run.fail .noEngine := by
      rw [Setting.invokeWatched, hstop]
      rfl
    simp only [hfail]
    exact .fail .noEngine

omit hdata hs in
/-- Compiling leaves the heap as it is, and comes to a routine or a fault. -/
theorem settles_compileNested (F : Filter Nat) (template : String) :
    (staying R).Settles F w (staying R).Same (fun _ => s.compileNested template)
      (fun _ => s.compileNested template) := by
  refine .of_outcome fun w₁ _ t t' ht => ?_
  obtain ⟨rfl, hext, hkeeps⟩ := ht
  -- Stores with the same heap are alike.
  have alike {after : Store} (h : after.heap = t.heap) : (staying R).stores w₁ after after :=
    ⟨rfl, h ▸ hext, h ▸ hkeeps⟩
  rw [Setting.compileNested]
  rcases compile_cases s template t with ⟨routine, after, hr, hheap⟩ | ⟨fault, after, hr, hheap⟩
  · rw [hr]
    exact .ok le_rfl (alike hheap) rfl
  · rw [hr]
    exact .failed _ le_rfl (alike hheap)

/-- **Inclusions settle**, by induction on how many more may nest. -/
theorem settles_includeWatched (levels depth : Nat) (name : String) :
    (staying R).Settles atTop w (staying R).Same
      (fun bound => s.includeWatched stopAtLoops bound data levels depth name)
      (fun bound => s.includeWatched stopAtLoops bound data levels depth name) := by
  have hrefuse (f : Failure) : Setting.refuseWatched stopAtLoops f = Run.fail f :=
    refuseWatched_eq rfl
  induction levels generalizing depth name with
  | zero =>
    simp only [Setting.includeWatched, hrefuse]
    split
    · exact .fail _
    · exact .fail _
  | succ levels ih =>
    simp only [Setting.includeWatched, hrefuse]
    split
    · exact .fail _
    · simp only [Setting.renderNestedWatched]
      split
      · exact .same ""
      · refine (settles_compileNested atTop _).bind fun w₁ hw₁ routine routine' hroutine => ?_
        obtain rfl : routine = routine' := hroutine
        exact (settles_invokeWatched hs hdata (ih (depth + 1)) _ routine).mono hw₁

end Inclusions

/-! ### Whole renders -/

namespace Engine

variable {e : Engine} {R : Region} {template : Option String} {data : Heap → Value × Heap}

theorem endless_of_mapError {r : Except Halt String}
    (h : r.mapError haltError = .error .endless) : r = .error .endless := by
  cases r with
  | ok text => cases h
  | error halt =>
    cases halt with
    | failed f => cases h
    | endless => rfl

/-- An engine performs runs that settle. -/
theorem performRun_settles {run : Nat → Run String} {w : Nat × Nat}
    (h : (staying R).Settles atTop w (staying R).Same run run)
    (hstores : (staying R).stores w e.store e.store) :
    ∃ r, (∀ᶠ bound in atTop, e.performRun (run bound) = r)
      ∧ (r.1 = .error .endless →
        ∃ v, R.Has r.2.store.heap.extent v ∧ r.2.store.heap.Knotted v) := by
  rcases h w le_rfl e.store e.store hstores with ⟨f, t, hf, -⟩ | ⟨result, _, hresult, houtcome⟩
  · exact hf.elim
  have hrun : ∀ᶠ bound in atTop, (run bound).run e.store = result :=
    hresult.mono fun _ hr => hr.1
  cases houtcome with
  | @ok _ text _ t _ _ _ _ =>
    exact ⟨(.ok text, { e with store := t }), hrun.mono fun _ hr => by rw [performRun, hr],
      by rintro ⟨⟩⟩
  | @failed _ t _ f _ _ =>
    exact ⟨(.error (.failed f), { e with store := t }),
      hrun.mono fun _ hr => by rw [performRun, hr], by rintro ⟨⟩⟩
  | @endless _ t _ _ _ hknot =>
    exact ⟨(.error .endless, { e with store := t }),
      hrun.mono fun _ hr => by rw [performRun, hr], fun _ => hknot⟩

/-- **A watched render settles**: from some bound on it has one answer and leaves one engine.  If
the answer is that there is no end, something in the region contains itself. -/
theorem renderWatched_settles (template : Option String) (hkeeps : R.Keeps (data e.store.heap).2)
    (hdata : R.Has (data e.store.heap).2.extent (data e.store.heap).1)
    (hs : e.setting.StaysIn R (data e.store.heap).2.extent) :
    ∃ r, (∀ᶠ bound in atTop, e.renderWatched bound template stopAtLoops data = r)
      ∧ (r.1 = .error .endless →
        ∃ v, R.Has r.2.store.heap.extent v ∧ r.2.store.heap.Knotted v) := by
  -- What does not depend on the bound, and is not that there is no end.
  have constant {r : Except Error String × Engine} (hr : r.1 ≠ .error .endless) :
      ∃ r', (∀ᶠ _ in (atTop : Filter Nat), r = r') ∧ (r'.1 = .error .endless →
        ∃ v, R.Has r'.2.store.heap.extent v ∧ r'.2.store.heap.Knotted v) :=
    ⟨r, .of_forall fun _ => rfl, fun h => absurd h hr⟩
  cases template with
  | none => exact constant (r := (.error .missingTemplate, (e.make data).2)) (by rintro ⟨⟩)
  | some template =>
    simp only [renderWatched, renderBy_some]
    split
    · exact constant (by rintro ⟨⟩)
    · have hmade : (e.make data).2.store.heap = (data e.store.heap).2 := rfl
      rw [compile]
      rcases compile_cases (e.make data).2.setting template (e.make data).2.store with
        ⟨routine, after, hr, hheap⟩ | ⟨fault, after, hr, hheap⟩
      · rw [EStateM.run, hr]
        dsimp only
        rw [hmade] at hheap
        have hstores : (staying R).stores (data e.store.heap).2.extent after after :=
          ⟨rfl, congrArg Heap.extent hheap, hheap ▸ hkeeps⟩
        have htop := settles_invokeWatched hs hdata
          (settles_includeWatched hs hdata nestingLimit 0) 0 routine
        obtain ⟨r, hr, hknot⟩ := performRun_settles (e := ⟨e.setting, after⟩) htop hstores
        refine ⟨(r.1.mapError haltError, r.2), hr.mono fun bound h => ?_, fun hend => hknot ?_⟩
        · exact congrArg (fun r => (r.1.mapError haltError, r.2)) h
        · exact endless_of_mapError hend
      · rw [EStateM.run, hr]
        exact constant (by rintro ⟨⟩)

/-- **A render without free loops ends**, on every engine whose values and helpers keep to a region
that its data lie in: if no routine with free loops is ever run, however long the render goes on,
and nothing in the region ever contains itself, then from some bound on the render gives one answer.
It is enough that nothing contains itself where renders stop that go on as long as one likes. -/
theorem render_ends (hkeeps : R.Keeps (data e.store.heap).2)
    (hdata : R.Has (data e.store.heap).2.extent (data e.store.heap).1)
    (hs : e.setting.StaysIn R (data e.store.heap).2.extent)
    (hloops : ∀ bound, ¬ e.Meets bound template data Event.IsLooping)
    (hknots : ∀ least, ∃ bound, least ≤ bound ∧ ∀ v,
      R.Has (e.renderMade bound template data).2.store.heap.extent v →
        ¬ (e.renderMade bound template data).2.store.heap.Knotted v) :
    ∃ answer, answer ≠ .error .endless
      ∧ ∃ need, ∀ bound, need ≤ bound → (e.renderMade bound template data).1 = answer := by
  -- Nobody sees a free loop, so who watches for them makes no difference.
  have hwatched (bound : Nat) :
      e.renderWatched bound template stopAtLoops data = e.renderMade bound template data := by
    by_contra hne
    exact hloops bound ⟨stopAtLoops, heeds_stopAtLoops, hne⟩
  obtain ⟨r, hr, hknot⟩ := renderWatched_settles template hkeeps hdata hs
  simp only [hwatched] at hr
  obtain ⟨need, hneed⟩ := eventually_atTop.mp hr
  refine ⟨r.1, fun hend => ?_, need, fun bound hbound => congrArg Prod.fst (hneed bound hbound)⟩
  obtain ⟨v, hv, hknotted⟩ := hknot hend
  obtain ⟨bound, hbound, hfree⟩ := hknots need
  rw [← hneed bound hbound] at hv hknotted
  exact hfree v hv hknotted

end Engine

end Stencil
