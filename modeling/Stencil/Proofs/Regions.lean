import Mathlib.Data.List.Chain
import Mathlib.Data.List.Nodup
import Mathlib.Data.List.Perm.Subperm
import Mathlib.Logic.Relation
import Stencil.Proofs.LikeEvaluation

/-!
# Regions of a heap

A run reaches only what can be reached from what it is given, and what it makes itself.  A region is
a part of the heap that a run does not leave: all places that are still free lie in it, and what is
kept at its places lies in it again.  Among the functions of a region none has free loops.

* `Region`, `Region.Has`, `Region.Keeps` — parts of a heap that runs do not leave;
* `Heap.Contains`, `Heap.Knotted` — what an array or an object contains, perhaps itself;
* `Heap.exists_knotted` — among structures nested deeper than there are any, one contains itself;
* `Heap.exists_knotted_of_display`, `Heap.exists_knotted_of_toJson` — what has no text or no JSON
  value.
-/

namespace Stencil.Routine

open Relation

/-- How many arrays and objects there are. -/
def Heap.extent (h : Heap) : Nat × Nat := (h.arrays.size, h.objects.size)

/-- A part of a heap. -/
structure Region where
  /-- The places of its arrays. -/
  arrays : Nat → Prop
  /-- The places of its objects. -/
  objects : Nat → Prop
  /-- The places of its frames. -/
  frames : Nat → Prop

namespace Region

/-- What a link shows lies in the region. -/
def HasLink (R : Region) (w : Nat × Nat) : Link → Prop
  | .locals place => R.frames place
  | .members (some place) _ => place < w.2 ∧ R.objects place
  | .members none _ => True

/-- The value lies in the region of a heap with so many arrays and objects.  A function does so if
it has no free loops and sees nothing outside the region. -/
def Has (R : Region) (w : Nat × Nat) : Value → Prop
  | .array place => place < w.1 ∧ R.arrays place
  | .object place => place < w.2 ∧ R.objects place
  | .closure _ _ _ body scope => body.isLoopFree = true ∧ ∀ link ∈ scope, R.HasLink w link
  | _ => True

/-- Runs that begin in the region of the heap do not leave it. -/
structure Keeps (R : Region) (h : Heap) : Prop where
  free_arrays : ∀ place, h.arrays.size ≤ place → R.arrays place
  free_objects : ∀ place, h.objects.size ≤ place → R.objects place
  free_frames : ∀ place, h.frames.size ≤ place → R.frames place
  items : ∀ place, R.arrays place → ∀ v ∈ (h.items place).toList, R.Has h.extent v
  members : ∀ place, R.objects place → ∀ e ∈ (h.members place).entries, R.Has h.extent e.2
  bindings : ∀ place, R.frames place → ∀ b ∈ (h.frame place).entries, R.Has h.extent b.2.value

variable {R : Region} {w w' : Nat × Nat}

theorem HasLink.mono (hw : w ≤ w') {link : Link} (h : R.HasLink w link) : R.HasLink w' link := by
  cases link with
  | locals place => exact h
  | members object guarded =>
    cases object with
    | none => trivial
    | some place => exact ⟨h.1.trans_le hw.2, h.2⟩

theorem Has.mono (hw : w ≤ w') {v : Value} (h : R.Has w v) : R.Has w' v := by
  cases v with
  | array place => exact ⟨h.1.trans_le hw.1, h.2⟩
  | object place => exact ⟨h.1.trans_le hw.2, h.2⟩
  | closure r site params body scope => exact ⟨h.1, fun link hl => (h.2 link hl).mono hw⟩
  | undefined | null | bool | number | text | native => trivial

end Region

/-! ### What contains what -/

namespace Heap

/-- The value is an item or a member of the outer one. -/
def Contains (h : Heap) (outer v : Value) : Prop :=
  match outer with
  | .array place => v ∈ (h.items place).toList
  | .object place => ∃ e ∈ (h.members place).entries, e.2 = v
  | _ => False

/-- Something contains itself, in itself or in what it contains. -/
def Knotted (h : Heap) (v : Value) : Prop := TransGen h.Contains v v

/-- What contains nothing does not contain itself. -/
theorem not_knotted_of_empty {h : Heap} {v : Value} (hempty : ∀ u, ¬ h.Contains v u) :
    ¬ h.Knotted v := by
  intro hknotted
  obtain ⟨u, hu, -⟩ := TransGen.head'_iff.mp hknotted
  exact hempty u hu

/-- The value is an array or an object of the heap. -/
def Keeps (h : Heap) : Value → Prop
  | .array place => place < h.arrays.size
  | .object place => place < h.objects.size
  | _ => False

/-- What a value of the region contains lies in the region. -/
theorem Contains.has {h : Heap} {R : Region} (hR : R.Keeps h) {outer v : Value}
    (hv : h.Contains outer v) (houter : R.Has h.extent outer) : R.Has h.extent v := by
  cases outer with
  | array place => exact hR.items place houter.2 v hv
  | object place =>
    obtain ⟨e, he, rfl⟩ := hv
    exact hR.members place houter.2 e he
  | undefined | null | bool | number | text | native | closure => exact hv.elim

/-- The place of an array, or behind all arrays that of an object. -/
def rank (h : Heap) : Value → Nat
  | .array place => place
  | .object place => h.arrays.size + place
  | _ => 0

theorem eq_of_rank_eq {h : Heap} {u v : Value} (hu : h.Keeps u) (hv : h.Keeps v)
    (hrank : h.rank u = h.rank v) : u = v := by
  cases u with
  | array place =>
    cases v with
    | array other => exact congrArg Value.array hrank
    | object other =>
      simp only [Keeps, rank] at hu hrank
      omega
    | undefined | null | bool | number | text | native | closure => exact hv.elim
  | object place =>
    cases v with
    | array other =>
      simp only [Keeps, rank] at hv hrank
      omega
    | object other =>
      simp only [rank] at hrank
      exact congrArg Value.object (by omega)
    | undefined | null | bool | number | text | native | closure => exact hv.elim
  | undefined | null | bool | number | text | native | closure => exact hu.elim

/-- **Deep nesting is a knot**: among structures of which each contains the next, more than there
are places for them, one contains itself. -/
theorem exists_knotted {h : Heap} {vs : List Value} (hvs : vs.IsChain h.Contains)
    (hkeeps : ∀ v ∈ vs, h.Keeps v) {places : Nat} (hrank : ∀ v ∈ vs, h.rank v < places)
    (hlength : places < vs.length) : ∃ v ∈ vs, h.Knotted v := by
  by_contra hnone
  push Not at hnone
  -- Each value contains all that follow, so no two have the same place.
  have hpairwise : vs.Pairwise (TransGen h.Contains) :=
    (List.isChain_iff_pairwise (R := TransGen h.Contains)).mp (hvs.imp fun _ _ => .single)
  have hnodup : (vs.map h.rank).Nodup := by
    refine List.Pairwise.map h.rank (S := (· ≠ ·)) (fun _ _ h => h) ?_
    refine hpairwise.imp_of_mem fun hu hv hcontains heq => ?_
    obtain rfl := eq_of_rank_eq (hkeeps _ hu) (hkeeps _ hv) heq
    exact hnone _ hu hcontains
  have hsubset : vs.map h.rank ⊆ List.range places := by
    intro n hn
    obtain ⟨v, hv, rfl⟩ := List.mem_map.mp hn
    exact List.mem_range.mpr (hrank v hv)
  have hle := (List.Nodup.subperm hnodup hsubset).length_le
  rw [List.length_map, List.length_range] at hle
  omega

/-- What makes a step along a list in `Option` fail. -/
theorem exists_of_mapM_eq_none {α β : Type} {f : α → Option β} {as : List α}
    (h : as.mapM f = none) : ∃ a ∈ as, f a = none := by
  induction as with
  | nil => cases h
  | cons a as ih =>
    cases ha : f a with
    | none => exact ⟨a, List.mem_cons_self, ha⟩
    | some b =>
      rw [List.mapM_cons, ha] at h
      cases hrest : as.mapM f with
      | none =>
        obtain ⟨a', ha', hf⟩ := ih hrest
        exact ⟨a', List.mem_cons_of_mem a ha', hf⟩
      | some bs =>
        rw [hrest] at h
        cases h

variable {h : Heap} {R : Region} (hR : R.Keeps h)
include hR

/-- What has no text within a bound is an array in which arrays are nested so deep. -/
theorem exists_nested_of_displayWithin {bound : Nat} {v : Value} (hv : R.Has h.extent v)
    (hnone : h.displayWithin bound v = none) :
    ∃ vs, vs.length = bound ∧ (v :: vs).IsChain h.Contains
      ∧ ∀ u ∈ v :: vs, R.Has h.extent u ∧ ∃ place, u = .array place := by
  induction bound generalizing v with
  | zero =>
    cases v with
    | array place => exact ⟨[], rfl, .singleton _, by simpa using hv⟩
    | undefined | null | bool | number | text | object | native | closure => cases hnone
  | succ bound ih =>
    cases v with
    | array place =>
      cases hitems : (h.items place).toList.mapM
          fun v => if v.isNullish then some "" else h.displayWithin bound v with
      | some texts =>
        rw [displayWithin, hitems] at hnone
        cases hnone
      | none =>
        obtain ⟨u, hu, hnone⟩ := exists_of_mapM_eq_none hitems
        split at hnone
        · cases hnone
        · have hcontains : h.Contains (.array place) u := hu
          obtain ⟨vs, hlength, hchain, hall⟩ := ih (hcontains.has hR hv) hnone
          refine ⟨u :: vs, congrArg (· + 1) hlength, .cons_cons hcontains hchain, ?_⟩
          intro x hx
          rcases List.mem_cons.mp hx with rfl | hx
          · exact ⟨hv, place, rfl⟩
          · exact hall x hx
    | undefined | null | bool | number | text | object | native | closure => cases hnone

/-- A value of the region without a text contains something that contains itself. -/
theorem exists_knotted_of_display {v : Value} (hv : R.Has h.extent v) (hnone : h.display v = none) :
    ∃ u, R.Has h.extent u ∧ h.Knotted u := by
  obtain ⟨vs, hlength, hchain, hall⟩ := exists_nested_of_displayWithin hR hv hnone
  have hplace : ∀ u ∈ v :: vs, h.Keeps u ∧ h.rank u < h.arrays.size := by
    intro u hu
    obtain ⟨hhas, place, rfl⟩ := hall u hu
    exact ⟨hhas.1, hhas.1⟩
  obtain ⟨u, hu, hknotted⟩ := exists_knotted hchain (fun u hu => (hplace u hu).1)
    (fun u hu => (hplace u hu).2) (by rw [List.length_cons, hlength]; omega)
  exact ⟨u, (hall u hu).1, hknotted⟩

/-- What is no JSON value within a bound is a structure in which others are nested so deep. -/
theorem exists_nested_of_toJsonWithin {bound : Nat} {v : Value} (hv : R.Has h.extent v)
    (hnone : h.toJsonWithin bound v = none) :
    ∃ vs, vs.length = bound ∧ (v :: vs).IsChain h.Contains
      ∧ ∀ u ∈ v :: vs, R.Has h.extent u ∧ isStructure u = true := by
  -- What a structure contains that is no JSON value itself.
  have hinner {bound : Nat} {outer u : Value} (houter : R.Has h.extent outer)
      (hstructure : isStructure outer = true) (hu : h.Contains outer u)
      (ih : ∃ vs, vs.length = bound ∧ (u :: vs).IsChain h.Contains
        ∧ ∀ x ∈ u :: vs, R.Has h.extent x ∧ isStructure x = true) :
      ∃ vs, vs.length = bound + 1 ∧ (outer :: vs).IsChain h.Contains
        ∧ ∀ x ∈ outer :: vs, R.Has h.extent x ∧ isStructure x = true := by
    obtain ⟨vs, hlength, hchain, hall⟩ := ih
    refine ⟨u :: vs, congrArg (· + 1) hlength, .cons_cons hu hchain, ?_⟩
    intro x hx
    rcases List.mem_cons.mp hx with rfl | hx
    · exact ⟨houter, hstructure⟩
    · exact hall x hx
  induction bound generalizing v with
  | zero =>
    cases v with
    | array | object => exact ⟨[], rfl, .singleton _, by simpa using ⟨hv, rfl⟩⟩
    | undefined | null | bool | number | text | native | closure => cases hnone
  | succ bound ih =>
    cases v with
    | array place =>
      cases hitems : (h.items place).toList.mapM
          fun v => do return (← h.toJsonWithin bound v).getD .null with
      | some items =>
        rw [toJsonWithin, hitems] at hnone
        cases hnone
      | none =>
        obtain ⟨u, hu, hnone⟩ := exists_of_mapM_eq_none hitems
        have hcontains : h.Contains (.array place) u := hu
        refine hinner hv rfl hcontains (ih (hcontains.has hR hv) ?_)
        cases hu : h.toJsonWithin bound u with
        | none => rfl
        | some json =>
          rw [hu] at hnone
          cases hnone
    | object place =>
      rw [toJsonWithin] at hnone
      obtain ⟨⟨name, u⟩, he, hnone⟩ := exists_of_mapM_eq_none <|
        Option.eq_none_iff_forall_ne_some.mpr fun members hmembers =>
          Option.some_ne_none _ (Option.bind_eq_none_iff.mp hnone members hmembers)
      have hcontains : h.Contains (.object place) u := ⟨(name, u), he, rfl⟩
      refine hinner hv rfl hcontains (ih (hcontains.has hR hv) ?_)
      exact Option.eq_none_iff_forall_ne_some.mpr fun json hjson =>
        Option.some_ne_none _ (Option.bind_eq_none_iff.mp hnone json hjson)
    | undefined | null | bool | number | text | native | closure => cases hnone

/-- A value of the region without a JSON value contains something that contains itself. -/
theorem exists_knotted_of_toJson {v : Value} (hv : R.Has h.extent v) (hnone : h.toJson v = none) :
    ∃ u, R.Has h.extent u ∧ h.Knotted u := by
  obtain ⟨vs, hlength, hchain, hall⟩ := exists_nested_of_toJsonWithin hR hv hnone
  have hplace : ∀ u ∈ v :: vs, h.Keeps u ∧ h.rank u < h.arrays.size + h.objects.size := by
    intro u hu
    obtain ⟨hhas, hstructure⟩ := hall u hu
    cases u with
    | array place => exact ⟨hhas.1, Nat.lt_add_right _ hhas.1⟩
    | object place => exact ⟨hhas.1, Nat.add_lt_add_left hhas.1 _⟩
    | undefined | null | bool | number | text | native | closure => cases hstructure
  obtain ⟨u, hu, hknotted⟩ := exists_knotted hchain (fun u hu => (hplace u hu).1)
    (fun u hu => (hplace u hu).2) (by rw [List.length_cons, hlength]; omega)
  exact ⟨u, (hall u hu).1, hknotted⟩

end Heap

end Stencil.Routine
