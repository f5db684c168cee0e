import Stencil.Proofs.Regions

/-!
# Runs stay in their region

The operations on heaps lead from values of a region to values of the region.  So a region makes a
likeness: each thing is the same as itself as long as it lies inside.  Runs that settle on the same
as themselves are runs that end whatever larger bound they are given.

* `Region.Keeps.putItems` and others — a region is kept by changes that put only its values there;
* `keeping`, `staying` — the likeness of a heap with itself inside a region, which is lawful.
-/

namespace Stencil.Routine

/-! ### What keeps a region -/

namespace Region.Keeps

variable {R : Region} {g : Heap} (h : R.Keeps g)
include h

/-- The items of an array are put in its place. -/
theorem putItems {place : Nat} (hplace : place < g.arrays.size) {xs : Array Value}
    (hxs : ∀ v ∈ xs.toList, R.Has g.extent v) :
    (g.modifyItems place fun _ => xs).extent = g.extent
      ∧ R.Keeps (g.modifyItems place fun _ => xs) := by
  have hsize : (g.modifyItems place fun _ => xs).arrays.size = g.arrays.size := Array.size_modify
  have hextent : (g.modifyItems place fun _ => xs).extent = g.extent := Prod.ext hsize rfl
  refine ⟨hextent, ?_, h.free_objects, h.free_frames, ?_, ?_, ?_⟩
  · rw [hsize]
    exact h.free_arrays
  · intro other hother v hv
    rw [Heap.items_modifyItems g other _ hplace] at hv
    rw [hextent]
    split at hv
    · exact hxs v hv
    · exact h.items other hother v hv
  · rw [hextent]
    exact h.members
  · rw [hextent]
    exact h.bindings

theorem newArray {xs : Array Value} (hxs : ∀ v ∈ xs.toList, R.Has g.extent v) :
    g.extent ≤ (g.newArray xs).2.extent ∧ R.Has (g.newArray xs).2.extent (g.newArray xs).1
      ∧ R.Keeps (g.newArray xs).2 := by
  have hsize : (g.newArray xs).2.arrays.size = g.arrays.size + 1 := Array.size_push _
  have hlt : g.arrays.size < (g.newArray xs).2.arrays.size := hsize ▸ Nat.lt_succ_self _
  have hle : g.extent ≤ (g.newArray xs).2.extent := ⟨hlt.le, le_rfl⟩
  refine ⟨hle, ⟨hlt, h.free_arrays _ le_rfl⟩, ?_, h.free_objects,
    h.free_frames, ?_, ?_, ?_⟩
  · intro place hplace
    exact h.free_arrays place (by omega)
  · intro place hplace v hv
    rw [Heap.items_newArray] at hv
    split at hv
    · exact (hxs v hv).mono hle
    · exact (h.items place hplace v hv).mono hle
  · exact fun place hplace e he => (h.members place hplace e he).mono hle
  · exact fun place hplace b hb => (h.bindings place hplace b hb).mono hle

theorem setMember {place : Nat} (hplace : place < g.objects.size) (name : String) {v : Value}
    (hv : R.Has g.extent v) :
    (g.setMember place name v).extent = g.extent ∧ R.Keeps (g.setMember place name v) := by
  have hsize : (g.setMember place name v).objects.size = g.objects.size := Array.size_modify
  have hextent : (g.setMember place name v).extent = g.extent := Prod.ext rfl hsize
  refine ⟨hextent, h.free_arrays, ?_, h.free_frames, ?_, ?_, ?_⟩
  · rw [hsize]
    exact h.free_objects
  · rw [hextent]
    exact h.items
  · intro other hother e he
    rw [Heap.members_setMember g other name v hplace] at he
    rw [hextent]
    split at he
    · rename_i heq
      rcases mem_putName he with he | rfl
      · exact h.members place (heq ▸ hother) e he
      · exact hv
    · exact h.members other hother e he
  · rw [hextent]
    exact h.bindings

theorem newObject {ms : Roster Value} (hms : ∀ e ∈ ms.entries, R.Has g.extent e.2) :
    g.extent ≤ (g.newObject ms).2.extent ∧ R.Has (g.newObject ms).2.extent (g.newObject ms).1
      ∧ R.Keeps (g.newObject ms).2 := by
  have hsize : (g.newObject ms).2.objects.size = g.objects.size + 1 := Array.size_push _
  have hlt : g.objects.size < (g.newObject ms).2.objects.size := hsize ▸ Nat.lt_succ_self _
  have hle : g.extent ≤ (g.newObject ms).2.extent := ⟨le_rfl, hlt.le⟩
  refine ⟨hle, ⟨hlt, h.free_objects _ le_rfl⟩, h.free_arrays, ?_,
    h.free_frames, ?_, ?_, ?_⟩
  · intro place hplace
    exact h.free_objects place (by omega)
  · exact fun place hplace v hv => (h.items place hplace v hv).mono hle
  · intro place hplace e he
    rw [Heap.members_newObject] at he
    split at he
    · exact (hms e he).mono hle
    · exact (h.members place hplace e he).mono hle
  · exact fun place hplace b hb => (h.bindings place hplace b hb).mono hle

theorem newFrame : R.Keeps g.newFrame.2 := by
  refine ⟨h.free_arrays, h.free_objects, ?_, h.items, h.members, ?_⟩
  · intro place hplace
    rw [Heap.size_newFrame] at hplace
    exact h.free_frames place (by omega)
  · intro place hplace b hb
    rw [Heap.frame_newFrame] at hb
    split at hb
    · cases hb
    · exact h.bindings place hplace b hb

theorem setLocal (place : Nat) (name : String) {b : Binding} (hb : R.Has g.extent b.value) :
    R.Keeps (g.setLocal place name b) := by
  refine ⟨h.free_arrays, h.free_objects, ?_, h.items, h.members, ?_⟩
  · rw [Heap.size_setLocal]
    exact h.free_frames
  · intro other hother c hc
    by_cases hplace : place < g.frames.size
    · rw [Heap.frame_setLocal g other name b hplace] at hc
      split at hc
      · rename_i heq
        rcases mem_putName hc with hc | hc
        · exact h.bindings place (heq ▸ hother) c hc
        · rw [hc]
          exact hb
      · exact h.bindings other hother c hc
    · -- There is no such frame, so nothing is set.
      have hframe : (g.setLocal place name b).frame other = g.frame other := by
        simp only [Heap.setLocal, Heap.frame, Array.getD_eq_getD_getElem?, Array.getElem?_modify]
        split
        · rename_i heq
          rw [← heq, Array.getElem?_eq_none (Nat.le_of_not_lt hplace)]
          rfl
        · rfl
      rw [hframe] at hc
      exact h.bindings other hother c hc

theorem declare (scope : Scope) (name : String) {b : Binding} (hb : R.Has g.extent b.value) :
    (g.declare scope name b).extent = g.extent ∧ R.Keeps (g.declare scope name b) := by
  unfold Heap.declare
  split
  · exact ⟨rfl, h.setLocal _ name hb⟩
  · exact ⟨rfl, h⟩

/-- What a link of the region gives to a name lies in the region. -/
theorem linkValue {l : Link} (hl : R.HasLink g.extent l) {name : String} {v : Value}
    (hv : g.linkValue? name l = some v) : R.Has g.extent v := by
  cases l with
  | locals place =>
    obtain ⟨b, hb, rfl⟩ := Option.map_eq_some_iff.mp hv
    exact h.bindings place hl (name, b) (mem_of_lookupName hb)
  | members object guarded =>
    cases object with
    | none => cases hv
    | some place => exact h.members place hl.2 (name, v) (mem_of_lookupName hv)

theorem assignAt (name : String) {l : Link} (hl : R.HasLink g.extent l) {v : Value}
    (hv : R.Has g.extent v) :
    (g.assignAt name v l).2.extent = g.extent ∧ R.Keeps (g.assignAt name v l).2 := by
  cases l with
  | locals place =>
    rw [Heap.assignAt]
    split
    · split
      · exact ⟨rfl, h.setLocal place name hv⟩
      · exact ⟨rfl, h⟩
    · exact ⟨rfl, h⟩
  | members object guarded =>
    cases object with
    | none => exact ⟨rfl, h⟩
    | some place => exact h.setMember hl.1 name hv

end Region.Keeps

/-! ### The likeness of a region -/

/-- Everything in the region is the same as itself, at the stage that counts arrays and objects. -/
def keeping (R : Region) : Kinship where
  Stage := Nat × Nat
  array w p p' := p = p' ∧ p < w.1 ∧ R.arrays p
  object w p p' := p = p' ∧ p < w.2 ∧ R.objects p
  link w l l' := l = l' ∧ R.HasLink w l
  native _ i i' := i = i'
  routine _ r r' := r = r'
  loops := False
  array_mono hw h := ⟨h.1, h.2.1.trans_le (Prod.le_def.mp hw).1, h.2.2⟩
  object_mono hw h := ⟨h.1, h.2.1.trans_le (Prod.le_def.mp hw).2, h.2.2⟩
  link_mono hw h := ⟨h.1, h.2.mono hw⟩
  native_mono _ h := h
  routine_mono _ h := h
  array_iff := by rintro _ p _ q _ ⟨rfl, -⟩ ⟨rfl, -⟩; rfl
  object_iff := by rintro _ p _ q _ ⟨rfl, -⟩ ⟨rfl, -⟩; rfl
  native_iff := by rintro _ p _ q _ rfl rfl; rfl
  routine_iff := by rintro _ p _ q _ rfl rfl; rfl

/-- Heaps and stores are the same as themselves if the region is kept in them.  Runs stay without an
end only where something in the region contains itself, and nothing is excused. -/
def staying (R : Region) : Likeness where
  toKinship := keeping R
  heaps w h h' := h = h' ∧ h.extent = w ∧ R.Keeps h
  stores w s s' := s = s' ∧ s.heap.extent = w ∧ R.Keeps s.heap
  excused _ := False
  knot h := ∃ v, R.Has h.extent v ∧ h.Knotted v

section Itself

variable {R : Region} {w : Nat × Nat}

/-- Lists whose items are equal and have a property. -/
theorem forall₂_eq_and {α : Type} {P : α → Prop} {as as' : List α} :
    List.Forall₂ (fun a a' => a = a' ∧ P a) as as' ↔ as = as' ∧ ∀ a ∈ as, P a := by
  constructor
  · intro h
    induction h with
    | nil => exact ⟨rfl, nofun⟩
    | cons ha _ ih =>
      obtain ⟨rfl, ha⟩ := ha
      obtain ⟨rfl, hall⟩ := ih
      exact ⟨rfl, List.forall_mem_cons.mpr ⟨ha, hall⟩⟩
  · rintro ⟨rfl, h⟩
    exact List.forall₂_same.mpr fun a ha => ⟨rfl, h a ha⟩

theorem keeping_scopes {scope scope' : Scope} :
    (keeping R).Scopes w scope scope' ↔ scope = scope' ∧ ∀ l ∈ scope, R.HasLink w l :=
  forall₂_eq_and

theorem keeping_values {v v' : Value} :
    (keeping R).Values w v v' ↔ v = v' ∧ R.Has w v := by
  constructor
  · intro h
    cases h with
    | array h => exact ⟨congrArg _ h.1, h.2⟩
    | object h => exact ⟨congrArg _ h.1, h.2⟩
    | native name code h => exact ⟨congrArg _ h, trivial⟩
    | closure site params hr hb hs =>
      obtain ⟨rfl, hlinks⟩ := keeping_scopes.mp hs.scopes
      obtain rfl := hr
      exact ⟨rfl, hb.resolve_left id, hlinks⟩
    | undefined | null | bool | number | text => exact ⟨rfl, trivial⟩
  · rintro ⟨rfl, h⟩
    cases v with
    | undefined => exact .undefined
    | null => exact .null
    | bool b => exact .bool b
    | number x => exact .number x
    | text s => exact .text s
    | array place => exact .array ⟨rfl, h⟩
    | object place => exact .object ⟨rfl, h⟩
    | native name code identity => exact .native name code rfl
    | closure r site params body scope =>
      exact .closure site params rfl (.inr h.1) ⟨keeping_scopes.mpr ⟨rfl, h.2⟩, trivial⟩

theorem keeping_rows {vs vs' : List Value} :
    (keeping R).Rows w vs vs' ↔ vs = vs' ∧ ∀ v ∈ vs, R.Has w v := by
  have hvalues : (keeping R).Values w = fun v v' => v = v' ∧ R.Has w v :=
    funext₂ fun _ _ => propext keeping_values
  show List.Forall₂ ((keeping R).Values w) vs vs' ↔ _
  rw [hvalues]
  exact forall₂_eq_and

theorem keeping_named {es es' : List (String × Value)} :
    (keeping R).Named w es es' ↔ es = es' ∧ ∀ e ∈ es, R.Has w e.2 := by
  have hentries : (fun a b : String × Value => a.1 = b.1 ∧ (keeping R).Values w a.2 b.2)
      = fun a b => a = b ∧ R.Has w a.2 :=
    funext₂ fun _ _ => propext (by rw [keeping_values, ← and_assoc, Prod.ext_iff])
  show List.Forall₂ (fun a b => a.1 = b.1 ∧ (keeping R).Values w a.2 b.2) es es' ↔ _
  rw [hentries]
  exact forall₂_eq_and

theorem Region.Keeps.linkValue_rel {g : Heap} (hR : R.Keeps g) (name : String) {l l' : Link}
    (hl : (keeping R).link g.extent l l') :
    Option.Rel ((keeping R).Values g.extent) (g.linkValue? name l) (g.linkValue? name l') := by
  obtain ⟨rfl, hl⟩ := hl
  cases hv : g.linkValue? name l with
  | none => exact .none
  | some v => exact .some (keeping_values.mpr ⟨rfl, hR.linkValue hl hv⟩)

end Itself

/-! ### The likeness is lawful -/

instance lawful_staying (R : Region) : (staying R).Lawful where
  guard hs := by
    obtain ⟨rfl, -⟩ := keeping_scopes.mp hs
    exact .inl rfl
  opened guarded hv := by
    obtain ⟨rfl, hhas⟩ := keeping_values.mp hv
    refine ⟨rfl, ?_⟩
    unfold openedLink
    split
    · exact hhas
    · trivial
  shows_nil _ _ := trivial
  shows_opened _ _ _ := trivial
  heaps_of_stores h := ⟨congrArg Store.heap h.1, h.2⟩
  stores_put _ hs hh := by
    obtain ⟨rfl, -⟩ := hs
    obtain ⟨rfl, hh⟩ := hh
    exact ⟨rfl, hh⟩
  items hh hp := by
    obtain ⟨rfl, rfl, hR⟩ := hh
    obtain ⟨rfl, hp⟩ := hp
    exact keeping_rows.mpr ⟨rfl, hR.items _ hp.2⟩
  putItems hh hp hxs := by
    obtain ⟨rfl, rfl, hR⟩ := hh
    obtain ⟨rfl, hp⟩ := hp
    obtain ⟨heq, hitems⟩ := keeping_rows.mp hxs
    obtain rfl := Array.toList_inj.mp heq
    exact ⟨rfl, hR.putItems hp.1 hitems⟩
  newArray hh hxs := by
    obtain ⟨rfl, rfl, hR⟩ := hh
    obtain ⟨heq, hitems⟩ := keeping_rows.mp hxs
    obtain rfl := Array.toList_inj.mp heq
    obtain ⟨hle, hhas, hkeeps⟩ := hR.newArray hitems
    exact ⟨_, hle, keeping_values.mpr ⟨rfl, hhas⟩, rfl, rfl, hkeeps⟩
  members hh hp := by
    obtain ⟨rfl, rfl, hR⟩ := hh
    obtain ⟨rfl, hp⟩ := hp
    exact keeping_named.mpr ⟨rfl, hR.members _ hp.2⟩
  setMember name hh hp hv := by
    obtain ⟨rfl, rfl, hR⟩ := hh
    obtain ⟨rfl, hp⟩ := hp
    obtain ⟨rfl, hhas⟩ := keeping_values.mp hv
    exact ⟨rfl, hR.setMember hp.1 name hhas⟩
  newObject hh hms := by
    obtain ⟨rfl, rfl, hR⟩ := hh
    obtain ⟨heq, hentries⟩ := keeping_named.mp hms
    obtain rfl := Roster.ext heq
    obtain ⟨hle, hhas, hkeeps⟩ := hR.newObject hentries
    exact ⟨_, hle, keeping_values.mpr ⟨rfl, hhas⟩, rfl, rfl, hkeeps⟩
  newFrame hh := by
    obtain ⟨rfl, rfl, hR⟩ := hh
    exact ⟨_, le_rfl, ⟨rfl, hR.free_frames _ le_rfl⟩, ⟨rfl, rfl, hR.newFrame⟩, fun _ _ h => h⟩
  newNative name code hh := by
    obtain ⟨rfl, rfl, hR⟩ := hh
    refine ⟨_, le_rfl, keeping_values.mpr ⟨rfl, trivial⟩, rfl, rfl, ?_⟩
    exact ⟨hR.free_arrays, hR.free_objects, hR.free_frames, hR.items, hR.members, hR.bindings⟩
  find hh hs _ := by
    obtain ⟨rfl, rfl, hR⟩ := hh
    exact hs.scopes.find?_rel (hR.linkValue_rel _)
  assign hh hs _ hv := by
    obtain ⟨rfl, rfl, hR⟩ := hh
    obtain ⟨rfl, hhas⟩ := keeping_values.mp hv
    exact hs.scopes.assign (hR.linkValue_rel _) ⟨rfl, rfl, hR⟩ fun ⟨heq, hl⟩ =>
      ⟨by rw [heq], by rw [heq], hR.assignAt _ hl hhas⟩
  declare name changeable hh hs hv := by
    obtain ⟨rfl, rfl, hR⟩ := hh
    obtain ⟨rfl, -⟩ := keeping_scopes.mp hs
    obtain ⟨rfl, hhas⟩ := keeping_values.mp hv
    exact ⟨rfl, hR.declare _ name hhas⟩
  display hh hv := by
    obtain ⟨rfl, rfl, hR⟩ := hh
    obtain ⟨rfl, hhas⟩ := keeping_values.mp hv
    exact ⟨rfl, Heap.exists_knotted_of_display hR hhas⟩
  toJson hh hv := by
    obtain ⟨rfl, rfl, hR⟩ := hh
    obtain ⟨rfl, hhas⟩ := keeping_values.mp hv
    exact ⟨rfl, Heap.exists_knotted_of_toJson hR hhas⟩

end Stencil.Routine
