import Mathlib
import Stencil.Proofs.LikeRendering
import Stencil.Proofs.Moving

/-!
# Routines under other numbers

The number of a routine tells the functions that are written in it from those of other routines.  A
run that is given nothing that was built before it began meets no functions but its own, so it comes
to the same whatever the number of its routine is.

* `Renumbering` — the heap in which two runs begin, and the numbers of their routines;
* `Renumbering.Levelled` — rows that hold the same behind a base;
* `Renumbering.Alike` — heaps that hold the same behind the ground, but for the numbers;
* `Renumbering.likeness` — the likeness of such heaps, which is lawful;
* `renderTop_renumbered` — routines with one program give one text.
-/

namespace Stencil

namespace Routine

/-- The heap in which two runs begin, and the numbers of their routines. -/
structure Renumbering where
  ground : Heap
  left : Nat
  right : Nat

namespace Renumbering

/-! ### Rows behind a base -/

/-- Two rows of one length that hold the same at all places from the base on. -/
structure Levelled {α : Type} (P : α → α → Prop) (a : α) (base : Nat) (xs ys : Array α) : Prop where
  size : xs.size = ys.size
  base_le : base ≤ xs.size
  related : ∀ p, base ≤ p → P (xs.getD p a) (ys.getD p a)

namespace Levelled

variable {α : Type} {P : α → α → Prop} {a : α} {base : Nat} {xs ys : Array α}

/-- Behind a row there is nothing yet. -/
theorem refl (ha : P a a) (xs : Array α) : Levelled P a xs.size xs xs := by
  refine ⟨rfl, le_rfl, fun p hp => ?_⟩
  rwa [Array.getD_eq_getD_getElem?, Array.getElem?_eq_none hp]

/-- There is nothing to change behind a row. -/
theorem modify_of_not_lt {p : Nat} (hp : ¬ p < xs.size) (f : α → α) : xs.modify p f = xs := by
  rw [Array.modify, Array.modifyM, dif_neg hp]
  rfl

variable (h : Levelled P a base xs ys)
include h

theorem push {x y : α} (hxy : P x y) : Levelled P a base (xs.push x) (ys.push y) := by
  refine ⟨?_, ?_, fun p hp => ?_⟩
  · rw [Array.size_push, Array.size_push, h.size]
  · rw [Array.size_push]
    exact h.base_le.trans (Nat.le_succ _)
  · rw [Stacked.getD_push, Stacked.getD_push, ← h.size]
    split
    · exact hxy
    · exact h.related p hp

theorem modify (p : Nat) {f g : α → α} (hfg : ∀ x y, P x y → P (f x) (g y)) :
    Levelled P a base (xs.modify p f) (ys.modify p g) := by
  refine ⟨?_, ?_, fun q hq => ?_⟩
  · rw [Array.size_modify, Array.size_modify, h.size]
  · rw [Array.size_modify]
    exact h.base_le
  · have hsame := h.related q hq
    by_cases hp : p < xs.size
    · rw [Stacked.getD_modify hp, Stacked.getD_modify (h.size ▸ hp)]
      by_cases heq : p = q
      · rw [if_pos heq, if_pos heq, heq]
        exact hfg _ _ hsame
      · rwa [if_neg heq, if_neg heq]
    · rwa [modify_of_not_lt hp, modify_of_not_lt (h.size ▸ hp)]

end Levelled

/-! ### Heaps that hold the same -/

variable (R : Renumbering)

/-- Links to frames and objects that were not there when the runs began. -/
inductive Links : Link → Link → Prop where
  | locals {p : Nat} (h : R.ground.frames.size ≤ p) : Links (.locals p) (.locals p)
  | members {p : Nat} (guarded : Bool) (h : R.ground.objects.size ≤ p) :
    Links (.members (some p) guarded) (.members (some p) guarded)
  | none (guarded : Bool) : Links (.members .none guarded) (.members .none guarded)

/-- What was not there when the runs began, with the functions of the one routine for those of the
other. -/
def kinship : Kinship where
  Stage := Unit
  array _ p p' := p = p' ∧ R.ground.arrays.size ≤ p
  object _ p p' := p = p' ∧ R.ground.objects.size ≤ p
  link _ := R.Links
  native _ i i' := i = i'
  routine _ r r' := r = R.left ∧ r' = R.right
  loops := True
  array_mono _ h := h
  object_mono _ h := h
  link_mono _ h := h
  native_mono _ h := h
  routine_mono _ h := h
  array_iff h h' := Eq.congr h.1 h'.1
  object_iff h h' := Eq.congr h.1 h'.1
  native_iff h h' := Eq.congr h h'
  routine_iff h h' := iff_of_true (h.1.trans h'.1.symm) (h.2.trans h'.2.symm)

/-- Values that are the same, but for the numbers. -/
abbrev Values : Value → Value → Prop := R.kinship.Values ()

/-- Variables with such values. -/
def Bindings (b b' : Binding) : Prop := R.Values b.value b'.value ∧ b.changeable = b'.changeable

/-- Heaps that hold the same behind the ground, but for the numbers. -/
structure Alike (h h' : Heap) : Prop where
  arrays : Levelled (fun xs xs' => R.kinship.Rows () xs.toList xs'.toList) #[]
    R.ground.arrays.size h.arrays h'.arrays
  objects : Levelled (fun ms ms' => R.kinship.Named () ms.entries ms'.entries) .empty
    R.ground.objects.size h.objects h'.objects
  frames : Levelled (fun bs bs' => List.Forall₂ (fun b b' => b.1 = b'.1 ∧ R.Bindings b.2 b'.2)
      bs.entries bs'.entries) .empty
    R.ground.frames.size h.frames h'.frames
  identities : h.identities = h'.identities

/-- When the runs begin there is nothing behind the ground. -/
theorem alike_ground : R.Alike R.ground R.ground :=
  ⟨.refl .nil _, .refl .nil _, .refl .nil _, rfl⟩

/-- Heaps that hold the same behind the ground are alike. -/
def likeness : Likeness where
  toKinship := R.kinship
  heaps _ := R.Alike
  stores _ s s' := R.Alike s.heap s'.heap
  excused _ := False
  knot _ := True

variable {R}

namespace Alike

variable {h h' : Heap} (hh : R.Alike h h')
include hh

theorem rows {p p' : Nat} (hp : R.kinship.array () p p') :
    R.kinship.Rows () (h.items p).toList (h'.items p').toList := by
  obtain ⟨rfl, hp⟩ := hp
  exact hh.arrays.related p hp

theorem named {p p' : Nat} (hp : R.kinship.object () p p') :
    R.kinship.Named () (h.members p).entries (h'.members p').entries := by
  obtain ⟨rfl, hp⟩ := hp
  exact hh.objects.related p hp

theorem frame_get? {p : Nat} (hp : R.ground.frames.size ≤ p) (name : String) :
    Option.Rel R.Bindings ((h.frame p).get? name) ((h'.frame p).get? name) :=
  forall₂_lookupName (hh.frames.related p hp) name

theorem display_eq {v v' : Value} (hv : R.Values v v') : h.display v = h'.display v' := by
  rw [Heap.display, Heap.display, hh.arrays.size]
  exact Kinship.displayWithin_eq hh.rows _ hv

theorem toJson_eq {v v' : Value} (hv : R.Values v v') : h.toJson v = h'.toJson v' := by
  rw [Heap.toJson, Heap.toJson, hh.arrays.size, hh.objects.size]
  exact Kinship.toJsonWithin_eq hh.rows hh.named _ hv

theorem setMember {p p' : Nat} (hp : R.kinship.object () p p') (name : String) {v v' : Value}
    (hv : R.Values v v') : R.Alike (h.setMember p name v) (h'.setMember p' name v') := by
  obtain ⟨rfl, -⟩ := hp
  exact { hh with
    objects := hh.objects.modify p (f := (·.insert name v)) (g := (·.insert name v'))
      fun _ _ hms => hms.put name hv }

theorem setLocal (p : Nat) (name : String) {b b' : Binding} (hb : R.Bindings b b') :
    R.Alike (h.setLocal p name b) (h'.setLocal p name b') :=
  { hh with
    frames := hh.frames.modify p (f := (·.insert name b)) (g := (·.insert name b'))
      fun _ _ hbs => forall₂_putName hbs name hb }

theorem linkValue (name : String) {l l' : Link} (hl : R.Links l l') :
    Option.Rel R.Values (h.linkValue? name l) (h'.linkValue? name l') := by
  cases hl with
  | none guarded => exact .none
  | members guarded hp => exact (hh.named ⟨rfl, hp⟩).lookup name
  | @locals p hp =>
    have hget := hh.frame_get? hp name
    simp only [Heap.linkValue?]
    generalize (h.frame p).get? name = b at hget ⊢
    generalize (h'.frame p).get? name = b' at hget ⊢
    cases hget with
    | some hb => exact .some hb.1
    | none => exact .none

theorem assignAt (name : String) {l l' : Link} (hl : R.Links l l') {v v' : Value}
    (hv : R.Values v v') :
    (h.assignAt name v l).1 = (h'.assignAt name v' l').1
      ∧ R.Alike (h.assignAt name v l).2 (h'.assignAt name v' l').2 := by
  cases hl with
  | none guarded => exact ⟨rfl, hh⟩
  | members guarded hp => exact ⟨rfl, hh.setMember ⟨rfl, hp⟩ name hv⟩
  | @locals p hp =>
    have hget := hh.frame_get? hp name
    simp only [Heap.assignAt]
    generalize (h.frame p).get? name = b at hget ⊢
    generalize (h'.frame p).get? name = b' at hget ⊢
    cases hget with
    | none => exact ⟨rfl, hh⟩
    | @some b b' hb =>
      simp only [hb.2]
      split
      · exact ⟨rfl, hh.setLocal p name ⟨hv, rfl⟩⟩
      · exact ⟨rfl, hh⟩

end Alike

/-! ### The likeness is lawful -/

theorem Links.eq {l l' : Link} (hl : R.Links l l') : l = l' := by cases hl <;> rfl

theorem Links.scope_eq {scope scope' : Scope} (hs : R.kinship.Scopes () scope scope') :
    scope = scope' := by
  induction hs with
  | nil => rfl
  | cons hl _ ih => rw [Links.eq hl, ih]

instance : R.likeness.Lawful where
  guard hs := .inl (congrArg Scope.isGuarded (Links.scope_eq hs))
  opened guarded hv := by
    cases hv with
    | object hp =>
      obtain ⟨rfl, hp⟩ := hp
      exact Links.members guarded hp
    | _ => exact Links.none guarded
  shows_nil _ _ := trivial
  shows_opened _ _ _ := trivial
  heaps_of_stores h := h
  stores_put _ _ h := h
  items hh hp := Alike.rows hh hp
  putItems {w h h' p p' xs xs'} hh hp hxs := by
    obtain ⟨rfl, -⟩ := hp
    exact { hh with arrays := hh.arrays.modify p fun _ _ _ => hxs }
  newArray hh hxs :=
    ⟨(), le_rfl, .array ⟨hh.arrays.size, hh.arrays.base_le⟩,
      { hh with arrays := hh.arrays.push hxs }⟩
  members hh hp := Alike.named hh hp
  setMember name hh hp hv := Alike.setMember hh hp name hv
  newObject hh hms :=
    ⟨(), le_rfl, .object ⟨hh.objects.size, hh.objects.base_le⟩,
      { hh with objects := hh.objects.push hms }⟩
  newFrame {w h h'} hh := by
    refine ⟨(), le_rfl, ?_, { hh with frames := hh.frames.push .nil }, fun _ _ h => h⟩
    show R.Links (.locals h.frames.size) (.locals h'.frames.size)
    rw [← hh.frames.size]
    exact .locals hh.frames.base_le
  newNative name code hh :=
    ⟨(), le_rfl, .native name code hh.identities,
      { hh with identities := congrArg (· + 1) hh.identities }⟩
  find hh hs _ := hs.scopes.find?_rel fun hl => Alike.linkValue hh _ hl
  assign hh hs _ hv := hs.scopes.assign (fun hl => Alike.linkValue hh _ hl) hh
    fun hl => Alike.assignAt hh _ hl hv
  declare {w h h' scope scope' v v'} name changeable hh hs hv := by
    cases hs with
    | nil => exact hh
    | cons hl _ =>
      cases hl with
      | none guarded => exact hh
      | members guarded hp => exact hh
      | locals hp => exact Alike.setLocal hh _ name ⟨hv, rfl⟩
  display hh hv := ⟨Alike.display_eq hh hv, fun _ => trivial⟩
  toJson hh hv := ⟨Alike.toJson_eq hh hv, fun _ => trivial⟩

end Renumbering

end Routine

/-! ### Routines at the top -/

open Routine Likeness

/-- Routines are given nothing but the data and the function that escapes, and nothing can be
included. -/
structure Setting.GivesNothing (s : Setting) : Prop where
  escape : ∃ name code identity, s.escape = .native name code identity
  providers : s.hooks.providers = []
  fragments : s.fragments = none
  codes : s.codes = #[]

section Rendering

variable {s : Setting} (hs : s.GivesNothing) {R : Renumbering} (bound : Nat) (data data' : Value)

include hs

theorem settles_includeFragment_none (name : String) :
    R.likeness.Settles (pure ()) () R.likeness.Same
      (fun _ : Unit => s.includeFragment bound data nestingLimit name)
      (fun _ => s.includeFragment bound data' nestingLimit name) := by
  have hmissing (data : Value) : s.includeFragment bound data nestingLimit name
      = Run.fail (.noFragment name) := by
    rw [Setting.includeFragment.eq_def, hs.fragments]
    rfl
  rw [hmissing, hmissing]
  exact .fail _

/-- What routines ask for is answered alike. -/
theorem serves_renumbered :
    R.likeness.Serves (pure ()) ()
      (fun _ : Unit => s.perform (s.includeFragment bound data nestingLimit))
      (fun _ => s.perform (s.includeFragment bound data' nestingLimit)) := by
  have hfragment := settles_includeFragment_none hs (R := R) bound data data'
  refine Serves.perform rfl (fun _ _ => hfragment) (fun _ _ name => ?_) fun _ _ slot _ _ _ => ?_
  · exact Settles.hidingFailure (fun _ hf => False.elim hf) (hfragment name)
  · simp only [Setting.perform, hs.codes]
    exact .value .undefined

/-- A routine comes to the same under another number. -/
theorem settles_renderTop_renumbered {data data' : Value} (hdata : R.Values data data')
    {routine routine' : Compiled}
    (hprogram : routine.program = routine'.program)
    (hnumber : R.kinship.routine () routine.number routine'.number) :
    R.likeness.Settles (pure ()) () R.likeness.Same
      (fun _ : Unit => s.renderTop bound routine data)
      (fun _ => s.renderTop bound routine' data') := by
  have hescape : R.Values s.escape s.escape := by
    obtain ⟨name, code, identity, hescape⟩ := hs.escape
    rw [hescape]
    exact .native name code rfl
  have hprovided : R.likeness.Settles (pure ()) () R.likeness.Rows (fun _ : Unit => s.provideAll)
      (fun _ => s.provideAll) := by
    rw [Setting.provideAll, hs.providers]
    exact .of_outcome fun _ _ _ _ hstores => .ok le_rfl hstores .nil
  refine Settles.invoke le_rfl hescape hdata hprovided (congrArg Program.params hprogram) ?_ hnumber
  rw [← hprogram]
  exact List.forall₂_same.mpr fun part _ =>
    (everything_fixed trivial (fun _ => trivial) (serves_renumbered hs bound data data') bound).executes
      callLimit part

end Rendering

/-- **The number of a routine does not show.**  With data that was built on one heap, routines with
one program come to the same. -/
theorem renderTop_renumbered {s : Setting} (hs : s.GivesNothing) {routine routine' : Compiled}
    (hprogram : routine.program = routine'.program) (bound : Nat) (h : Heap) (data : Json)
    {a b : Store} (ha : a.heap = (h.ofJson data).2) (hb : b.heap = (h.ofJson data).2) :
    ((⟨s, a⟩ : Engine).performRun (s.renderTop bound routine (h.ofJson data).1)).1
      = ((⟨s, b⟩ : Engine).performRun (s.renderTop bound routine' (h.ofJson data).1)).1 := by
  let R : Renumbering := ⟨h, routine.number, routine'.number⟩
  obtain ⟨⟨⟩, -, hv, hheaps⟩ := Settles.ofJson_rel (L := R.likeness) (w := ()) R.alike_ground data
  have hsettles := settles_renderTop_renumbered hs bound hv hprogram ⟨rfl, rfl⟩
  refine (hsettles.performRun (fun _ hf => hf) ?_).1
  show R.Alike a.heap b.heap
  rw [ha, hb]
  exact hheaps

end Stencil
