import Stencil.Proofs.Bundled
import Stencil.Proofs.Reading.Nesting
import Stencil.Proofs.Termination
import Stencil.Proofs.Unnoticed

/-!
# Engines with bundled features come to an end

Rendering ends on every engine with bundled features, as long as it runs no routine with free loops
and makes nothing that contains itself: however fragments include each other, and however functions
call each other.

* `Setting.IsBundled.staysIn` — bundled features keep to every region that the helpers keep to;
* `Region.behind`, `keeps_ofJson` — what is new, with all JSON data;
* `render_json_ends` — renders with JSON data;
* `render_ends_bundled` — the main theorem.
-/

namespace Stencil

open Routine Reading

/-- Bundled features keep to every region that the helpers keep to. -/
theorem Setting.IsBundled.staysIn {s : Setting} (h : s.IsBundled) {R : Region}
    (hcodes : ∀ code ∈ s.codes, Helper.KeepsTo R code) (w : Nat × Nat) : s.StaysIn R w := by
  have native {v : Value} (hv : v.isNative = true) : R.Has w v := by
    cases v with
    | native name code identity => trivial
    | undefined | null | bool | number | text | array | object | closure => cases hv
  refine ⟨native h.escape, fun v hv => native (h.providers _ hv), fun make hmake => ?_,
    fun entry hentry => native (h.helpers entry hentry), hcodes⟩
  cases h.providers _ hmake

/-! ### JSON data -/

/-- The part of a heap that is still free. -/
def Routine.Region.behind (h : Heap) : Region where
  arrays place := h.arrays.size ≤ place
  objects place := h.objects.size ≤ place
  frames place := h.frames.size ≤ place

/-- What is still free holds nothing. -/
theorem keeps_behind (h : Heap) : (Region.behind h).Keeps h where
  free_arrays _ hplace := hplace
  free_objects _ hplace := hplace
  free_frames _ hplace := hplace
  items place hplace v hv := by
    rw [Heap.items, Array.getD_eq_getD_getElem?, Array.getElem?_eq_none hplace] at hv
    cases hv
  members place hplace entry hentry := by
    rw [Heap.members, Array.getD_eq_getD_getElem?, Array.getElem?_eq_none hplace] at hentry
    cases hentry
  bindings place hplace entry hentry := by
    rw [Heap.frame, Array.getD_eq_getD_getElem?, Array.getElem?_eq_none hplace] at hentry
    cases hentry

/-- JSON data lie in every region, which stays kept. -/
theorem keeps_ofJson {R : Region} {h : Heap} (hkeeps : R.Keeps h) (json : Json) :
    R.Keeps (h.ofJson json).2 ∧ R.Has (h.ofJson json).2.extent (h.ofJson json).1 := by
  obtain ⟨w, -, hvalue, -, rfl, hafter⟩ :=
    Likeness.Settles.ofJson_rel (L := staying R) ⟨rfl, rfl, hkeeps⟩ json
  exact ⟨hafter, (keeping_values.mp hvalue).2⟩

/-! ### Renders that end -/

section Bundled

variable {store : Store} {codes : Array Helper} {cap : Nat} (ops : List Operation) {e : Engine}
  {template : Option String}

/-- **Rendering JSON data without free loops ends**: only what is new can contain itself. -/
theorem render_json_ends (hops : ∀ op ∈ ops, op.isBundled = true)
    (he : e = (Engine.onStore store codes cap).after ops) (json : Json)
    (hcodes : ∀ code ∈ e.setting.codes, Helper.KeepsTo (.behind e.store.heap) code)
    (hloops : ∀ bound, ¬ e.Meets bound template (fun h => h.ofJson json) Event.IsLooping)
    (hknots : ∀ least, ∃ bound, least ≤ bound ∧ ∀ v,
      (Region.behind e.store.heap).Has (e.render bound template json).2.store.heap.extent v →
        ¬ (e.render bound template json).2.store.heap.Knotted v) :
    ∃ answer, answer ≠ .error .endless
      ∧ ∃ need, ∀ bound, need ≤ bound → (e.render bound template json).1 = answer := by
  obtain ⟨hkeeps, hdata⟩ := keeps_ofJson (keeps_behind e.store.heap) json
  have hbundled : e.setting.IsBundled :=
    he ▸ isBundled_after hops (isBundled_onStore store codes cap)
  exact Engine.render_ends hkeeps hdata (hbundled.staysIn hcodes _) hloops hknots

/-- **Rendering without free loops ends.**  On every engine with bundled features, whatever it was
used for before, and for every template and every fragments: let the data and what helpers give lie
in a region, a part of the heap that can be reached from there, among whose functions none has free
loops.  If no routine with free loops is ever run, new or kept, and no array or object of the region
comes to contain itself, then the render gives one answer for all bounds on its steps from some
bound on, a text or an error, and not that there is no end. -/
theorem render_ends_bundled (hops : ∀ op ∈ ops, op.isBundled = true)
    (he : e = (Engine.onStore store codes cap).after ops) (R : Region)
    (hcodes : ∀ code ∈ e.setting.codes, Helper.KeepsTo R code) {data : Heap → Value × Heap}
    (hkeeps : R.Keeps (data e.store.heap).2)
    (hdata : R.Has (data e.store.heap).2.extent (data e.store.heap).1)
    (hloops : ∀ bound, ¬ e.Meets bound template data Event.IsLooping)
    (hknots : ∀ least, ∃ bound, least ≤ bound ∧ ∀ v,
      R.Has (e.renderMade bound template data).2.store.heap.extent v →
        ¬ (e.renderMade bound template data).2.store.heap.Knotted v) :
    ∃ answer, answer ≠ .error .endless
      ∧ ∃ need, ∀ bound, need ≤ bound → (e.renderMade bound template data).1 = answer := by
  have hbundled : e.setting.IsBundled :=
    he ▸ isBundled_after hops (isBundled_onStore store codes cap)
  exact Engine.render_ends hkeeps hdata (hbundled.staysIn hcodes _) hloops hknots

end Bundled

/-- What is asked of a new engine so that a fragment includes itself. -/
def cyclicOps : List Operation :=
  [.use .fragments, .registerFragment loop.target loop.print]

/-- A helper that gives back its first argument. -/
def firstArgument : Helper := fun args h => (.ok (argument args 0), h)

/-- An engine with a helper, and a fragment that includes itself. -/
def cyclic : Engine := (Engine.onStore {} #[firstArgument] 8).after cyclicOps

theorem cyclic_fragment {name t : String}
    (h : (cyclic.setting.fragments.getD .empty).get? name = some t) : t = loop.print := by
  have hget : (cyclic.setting.fragments.getD .empty).get? name
      = if loop.target = name then some loop.print else none := rfl
  rw [hget] at h
  split at h
  · exact (Option.some.inj h).symm
  · cases h

/-- No routine of the fragment has free loops. -/
theorem cyclic_meets_no_loop (bound : Nat) (data : Heap → Value × Heap) :
    ¬ cyclic.Meets bound (some loop.print) data Event.IsLooping := by
  have hnew : ∀ routine, New cyclic.setting loop.print routine →
      routine.program.isLoopFree = true := by
    intro routine hroutine
    have hhooks : cyclic.setting.hooks = inclusionHooks 1 2 := rfl
    rw [program_of_fromPage (p := loop.page) (fromPage_of_new hhooks _ routine hroutine)]
    rfl
  refine Engine.not_meets (Q := fun routine => routine.program.isLoopFree = true)
    (.of_create 8 rfl (Nat.zero_le _)) ?_ ?_ (fun _ => id) bound
  · rintro t (heq | ⟨name, ht⟩) routine hroutine
    · exact hnew routine (Option.some.inj heq ▸ hroutine)
    · exact hnew routine (cyclic_fragment ht ▸ hroutine)
  · intro depth routine hfree hloops
    exact Bool.false_ne_true (hloops.symm.trans hfree)

/-- Where there is nothing but an empty object, nothing contains itself. -/
theorem not_knotted_of_bare {h : Heap} (harrays : h.arrays = #[]) (hobjects : h.objects = #[.empty])
    (v : Value) : ¬ h.Knotted v := by
  refine Heap.not_knotted_of_empty fun u hu => ?_
  cases v with
  | array place =>
    rw [Heap.Contains, Heap.items, harrays] at hu
    cases hu
  | object place =>
    obtain ⟨entry, hentry, -⟩ := hu
    rw [Heap.members, hobjects] at hentry
    cases place <;> cases hentry
  | undefined | null | bool | number | text | native | closure => exact hu

/-- Rendering the fragment adds nothing but frames, and the object of the data is empty. -/
theorem cyclic_not_knotted (bound : Nat) (v : Value) :
    ¬ (cyclic.renderMade (bound + 5) (some loop.print) fun h =>
        h.ofJson (.object [])).2.store.heap.Knotted v := by
  have hsteady : cyclic.Steady (inclusionHooks 1 2) FromPage :=
    ⟨rfl, ⟨0, rfl⟩, .of_create 8 rfl (Nat.zero_le _)⟩
  have hback : ∀ b ∈ [loop].getLast?, ∃ c ∈ [loop],
      (cyclic.setting.fragments.getD .empty).get? b.target = some c.print := by
    intro b hb
    cases hb
    exact ⟨loop, List.mem_cons_self, rfl⟩
  obtain ⟨-, -, -, hsame⟩ := render_cycle hsteady (.singleton loop) bound hback
  have hdata : SameShared { arrays := #[], objects := #[.empty] }
      (cyclic.store.heap.ofJson (.object [])).2 := ⟨rfl, rfl⟩
  have hbare := hdata.trans hsame
  rw [← Engine.render_eq_renderMade]
  exact not_knotted_of_bare hbare.1 hbare.2 v

theorem keepsTo_firstArgument (R : Region) : Helper.KeepsTo R firstArgument := by
  intro args h hR hargs
  refine ⟨le_rfl, hR, fun v hv => ?_⟩
  cases hv
  cases args with
  | nil => trivial
  | cons arg args => exact hargs arg List.mem_cons_self

theorem render_ends_cyclic :
    ∃ answer, answer ≠ .error .endless ∧ ∃ need, ∀ bound, need ≤ bound →
      (cyclic.renderMade bound (some loop.print) fun h => h.ofJson (.object [])).1 = answer := by
  have he : cyclic = (Engine.onStore {} #[firstArgument] 8).after cyclicOps := rfl
  have hcodes : ∀ code ∈ cyclic.setting.codes, Helper.KeepsTo (.behind cyclic.store.heap) code := by
    intro code hcode
    obtain rfl := Array.mem_singleton.mp hcode
    exact keepsTo_firstArgument _
  obtain ⟨hkeeps, hdata⟩ := keeps_ofJson (keeps_behind cyclic.store.heap) (.object [])
  exact render_ends_bundled cyclicOps (by decide) he (.behind cyclic.store.heap) hcodes hkeeps hdata
    (fun bound => cyclic_meets_no_loop bound _)
    fun least => ⟨least + 5, Nat.le_add_right _ _, fun v _ => cyclic_not_knotted least v⟩

end Stencil
