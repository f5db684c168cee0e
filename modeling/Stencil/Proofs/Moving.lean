import Stencil.Proofs.Conversions
import Stencil.Proofs.LikeEvaluation

/-!
# Runs on other ground

What a run builds, it builds behind what there was before: it never asks at which place something
lies.  Two runs that begin on different heaps keep doing the same, as long as nothing of what there
was before is given to them.

* `Stacked` — rows that hold the same behind their bases;
* `Grounds`, `Grounds.Built` — the heaps on which two runs began, and heaps in which the same was
  built on each;
* `Grounds.Built.display_eq`, `Grounds.Built.toJson_eq` — texts and JSON values do not depend on how
  much there was before;
* `Grounds.moving` — the likeness of such heaps, which is lawful.
-/

namespace Stencil.Routine

/-! ### Places behind two bases -/

/-- Two places are the same one behind two bases, among so many. -/
def Aligned (base base' count p p' : Nat) : Prop := ∃ i < count, p = base + i ∧ p' = base' + i

namespace Aligned

variable {base base' count count' p p' q q' : Nat}

theorem mono (hle : count ≤ count') (h : Aligned base base' count p p') :
    Aligned base base' count' p p' := by
  obtain ⟨i, hi, hp⟩ := h
  exact ⟨i, hi.trans_le hle, hp⟩

theorem eq_iff (h : Aligned base base' count p p') (h' : Aligned base base' count q q') :
    p = q ↔ p' = q' := by
  obtain ⟨i, -, rfl, rfl⟩ := h
  obtain ⟨j, -, rfl, rfl⟩ := h'
  omega

theorem counted (base base' count : Nat) :
    Counted (Aligned base base' count) count count (base + ·) (base' + ·) where
  left := fun ⟨i, hi, hp, _⟩ => ⟨i, hi, hp⟩
  right := fun ⟨i, hi, _, hp⟩ => ⟨i, hi, hp⟩

/-- The place behind all others. -/
theorem next (base base' count : Nat) :
    Aligned base base' (count + 1) (base + count) (base' + count) :=
  ⟨count, Nat.lt_succ_self count, rfl, rfl⟩

end Aligned

/-- Two rows in which behind the bases the same follows, so many times. -/
structure Stacked {α : Type} (R : α → α → Prop) (a : α) (base base' count : Nat)
    (xs ys : Array α) : Prop where
  size : xs.size = base + count
  size' : ys.size = base' + count
  related : ∀ {p p'}, Aligned base base' count p p' → R (xs.getD p a) (ys.getD p' a)

namespace Stacked

variable {α : Type} {R : α → α → Prop} {a : α} {base base' count : Nat} {xs ys : Array α}

theorem getD_push (xs : Array α) (x a : α) (p : Nat) :
    (xs.push x).getD p a = if p = xs.size then x else xs.getD p a := by
  rw [Array.getD_eq_getD_getElem?, Array.getD_eq_getD_getElem?, Array.getElem?_push]
  split <;> rfl

theorem getD_modify {xs : Array α} {p : Nat} (hp : p < xs.size) (q : Nat) (f : α → α) (a : α) :
    (xs.modify p f).getD q a = if p = q then f (xs.getD p a) else xs.getD q a := by
  rw [Array.getD_eq_getD_getElem?, Array.getD_eq_getD_getElem?, Array.getD_eq_getD_getElem?,
    Array.getElem?_modify]
  split
  · rename_i heq
    rw [← heq, Array.getElem?_eq_getElem hp]
    rfl
  · rfl

variable (h : Stacked R a base base' count xs ys)
include h

theorem imp {R' : α → α → Prop} (hR : ∀ x y, R x y → R' x y) :
    Stacked R' a base base' count xs ys :=
  ⟨h.size, h.size', fun hp => hR _ _ (h.related hp)⟩

theorem push {x y : α} (hxy : R x y) :
    Stacked R a base base' (count + 1) (xs.push x) (ys.push y) := by
  refine ⟨?_, ?_, ?_⟩
  · rw [Array.size_push, h.size]
    rfl
  · rw [Array.size_push, h.size']
    rfl
  · rintro _ _ ⟨i, hi, rfl, rfl⟩
    rw [getD_push, getD_push, h.size, h.size']
    by_cases hlast : i = count
    · rw [if_pos (by omega), if_pos (by omega)]
      exact hxy
    · rw [if_neg (by omega), if_neg (by omega)]
      exact h.related ⟨i, by omega, rfl, rfl⟩

theorem modify {p p' : Nat} (hp : Aligned base base' count p p') {f g : α → α}
    (hfg : ∀ x y, R x y → R (f x) (g y)) :
    Stacked R a base base' count (xs.modify p f) (ys.modify p' g) := by
  refine ⟨Array.size_modify.trans h.size, Array.size_modify.trans h.size', ?_⟩
  intro q q' hq
  have hlt : p < xs.size ∧ p' < ys.size := by
    obtain ⟨i, hi, rfl, rfl⟩ := hp
    have := h.size
    have := h.size'
    omega
  rw [getD_modify hlt.1, getD_modify hlt.2]
  by_cases heq : p = q
  · rw [if_pos heq, if_pos ((hp.eq_iff hq).mp heq)]
    exact hfg _ _ (h.related hp)
  · rw [if_neg heq, if_neg (mt (hp.eq_iff hq).mpr heq)]
    exact h.related hq

end Stacked

/-! ### What was built -/

/-- How much was built. -/
structure Amount where
  arrays : Nat := 0
  objects : Nat := 0
  frames : Nat := 0
  /-- How many acts made native functions. -/
  natives : Nat := 0

instance : Preorder Amount where
  le a b := a.arrays ≤ b.arrays ∧ a.objects ≤ b.objects ∧ a.frames ≤ b.frames
    ∧ a.natives ≤ b.natives
  le_refl _ := ⟨le_rfl, le_rfl, le_rfl, le_rfl⟩
  le_trans _ _ _ h h' :=
    ⟨h.1.trans h'.1, h.2.1.trans h'.2.1, h.2.2.1.trans h'.2.2.1, h.2.2.2.trans h'.2.2.2⟩

namespace Amount

variable {a b : Amount} (h : a ≤ b)
include h

theorem arrays_le : a.arrays ≤ b.arrays := And.left h

theorem objects_le : a.objects ≤ b.objects := h.2.1

theorem frames_le : a.frames ≤ b.frames := h.2.2.1

theorem natives_le : a.natives ≤ b.natives := h.2.2.2

end Amount

/-- The heaps on which two runs begin.  Some native functions that there were before are known to
both of them. -/
structure Grounds where
  left : Heap
  right : Heap
  /-- The acts below this number made functions that both runs know. -/
  shared : Nat
  /-- Such functions are not mistaken for new ones. -/
  apart : left.identities = right.identities
    ∨ shared ≤ left.identities ∧ shared ≤ right.identities

namespace Grounds

variable (G : Grounds)

/-- Links to frames that were built alike, and to objects. -/
inductive Links (w : Amount) : Link → Link → Prop where
  | locals {p p' : Nat} (h : Aligned G.left.frames.size G.right.frames.size w.frames p p') :
    Links w (.locals p) (.locals p')
  | members {p p' : Nat} (guarded : Bool)
    (h : Aligned G.left.objects.size G.right.objects.size w.objects p p') :
    Links w (.members (some p) guarded) (.members (some p') guarded)
  | none (guarded : Bool) : Links w (.members .none guarded) (.members .none guarded)

/-- One function that both runs know, or two that were built alike. -/
def Natives (w : Amount) (i i' : Nat) : Prop :=
  i = i' ∧ i < G.shared ∨ Aligned G.left.identities G.right.identities w.natives i i'

variable {G} in
theorem Natives.eq_iff {w : Amount} {i i' j j' : Nat} (h : G.Natives w i i')
    (h' : G.Natives w j j') : i = j ↔ i' = j' := by
  have hapart := G.apart
  rcases h with ⟨rfl, hi⟩ | h
  · rcases h' with ⟨rfl, -⟩ | ⟨k, -, rfl, rfl⟩
    · exact Iff.rfl
    · omega
  · rcases h' with ⟨rfl, hj⟩ | h'
    · obtain ⟨k, -, rfl, rfl⟩ := h
      omega
    · exact h.eq_iff h'

/-- What was built alike on both grounds. -/
def kinship : Kinship where
  Stage := Amount
  array w := Aligned G.left.arrays.size G.right.arrays.size w.arrays
  object w := Aligned G.left.objects.size G.right.objects.size w.objects
  link := G.Links
  native := G.Natives
  routine _ r r' := r = r'
  loops := True
  array_mono hw h := h.mono (Amount.arrays_le hw)
  object_mono hw h := h.mono (Amount.objects_le hw)
  link_mono hw h := by
    cases h with
    | locals h => exact .locals (h.mono (Amount.frames_le hw))
    | members guarded h => exact .members guarded (h.mono (Amount.objects_le hw))
    | none guarded => exact .none guarded
  native_mono hw h := h.imp_right (Aligned.mono (Amount.natives_le hw))
  routine_mono _ h := h
  array_iff h h' := h.eq_iff h'
  object_iff h h' := h.eq_iff h'
  native_iff h h' := h.eq_iff h'
  routine_iff := by rintro _ r _ t _ rfl rfl; rfl

/-- Variables with values that were built alike. -/
def Bindings (w : Amount) (b b' : Binding) : Prop :=
  G.kinship.Values w b.value b'.value ∧ b.changeable = b'.changeable

/-- Heaps in which so much was built alike on both grounds.  The frames of the right ground are as
they were. -/
structure Built (w : Amount) (h h' : Heap) : Prop where
  arrays : Stacked (fun xs xs' => G.kinship.Rows w xs.toList xs'.toList) #[] G.left.arrays.size
    G.right.arrays.size w.arrays h.arrays h'.arrays
  objects : Stacked (fun ms ms' => G.kinship.Named w ms.entries ms'.entries) .empty
    G.left.objects.size G.right.objects.size w.objects h.objects h'.objects
  frames : Stacked (fun bs bs' => List.Forall₂ (fun b b' => b.1 = b'.1 ∧ G.Bindings w b.2 b'.2)
      bs.entries bs'.entries) .empty
    G.left.frames.size G.right.frames.size w.frames h.frames h'.frames
  natives : h.identities = G.left.identities + w.natives
    ∧ h'.identities = G.right.identities + w.natives
  spared : ∀ place < G.right.frames.size, h'.frame place = G.right.frame place

variable {G} in
theorem Bindings.mono {w w' : Amount} (hw : w ≤ w') {b b' : Binding} (h : G.Bindings w b b') :
    G.Bindings w' b b' :=
  ⟨h.1.mono (K := G.kinship) hw, h.2⟩

/-- Nothing was built yet. -/
theorem built_nothing : G.Built {} G.left G.right where
  arrays := ⟨rfl, rfl, fun ⟨_, hi, _⟩ => absurd hi (Nat.not_lt_zero _)⟩
  objects := ⟨rfl, rfl, fun ⟨_, hi, _⟩ => absurd hi (Nat.not_lt_zero _)⟩
  frames := ⟨rfl, rfl, fun ⟨_, hi, _⟩ => absurd hi (Nat.not_lt_zero _)⟩
  natives := ⟨rfl, rfl⟩
  spared _ _ := rfl

end Grounds

/-! ### Texts and JSON values -/

namespace Grounds.Built

variable {G : Grounds} {w : Amount} {h h' : Heap} (hb : G.Built w h h')
include hb

theorem items {p p' : Nat} (hp : G.kinship.array w p p') :
    G.kinship.Rows w (h.items p).toList (h'.items p').toList :=
  hb.arrays.related hp

theorem members {p p' : Nat} (hp : G.kinship.object w p p') :
    G.kinship.Named w (h.members p).entries (h'.members p').entries :=
  hb.objects.related hp

theorem display_eq {v v' : Value} (hv : G.kinship.Values w v v') : h.display v = h'.display v' := by
  refine hv.display_eq hb.items hb.members (Aligned.counted _ _ _) ?_ ?_
  · exact hb.arrays.size ▸ Nat.le_add_left _ _
  · exact hb.arrays.size' ▸ Nat.le_add_left _ _

theorem toJson_eq {v v' : Value} (hv : G.kinship.Values w v v') : h.toJson v = h'.toJson v' := by
  refine hv.toJson_eq hb.items hb.members (Aligned.counted _ _ _) (Aligned.counted _ _ _) ?_ ?_
  · rw [hb.arrays.size, hb.objects.size]
    omega
  · rw [hb.arrays.size', hb.objects.size']
    omega

end Grounds.Built

/-! ### The likeness is lawful -/

namespace Grounds

variable (G : Grounds)

/-- Heaps in which the same was built on both grounds are alike.  What else runs keep in the two
stores is related in a way that has nothing to do with the heaps. -/
def moving (kept : Store → Store → Prop) : Likeness where
  toKinship := G.kinship
  heaps := G.Built
  stores w s s' := G.Built w s.heap s'.heap
    ∧ ∀ h h', kept { s with heap := h } { s' with heap := h' }
  excused _ := False
  knot _ := True

variable {G}

theorem Links.isGuarded_eq {w : Amount} {scope scope' : Scope}
    (hs : G.kinship.Scopes w scope scope') : scope.isGuarded = scope'.isGuarded := by
  induction hs with
  | nil => rfl
  | cons hl _ ih =>
    simp only [Scope.isGuarded, List.any_cons] at ih ⊢
    rw [ih]
    cases hl <;> rfl

namespace Built

variable {w w' : Amount} {h h' : Heap} (hb : G.Built w h h')
include hb

/-- What was built stays so when there is more. -/
theorem arrays_mono (hw : w ≤ w') :
    Stacked (fun xs xs' => G.kinship.Rows w' xs.toList xs'.toList) #[] G.left.arrays.size
      G.right.arrays.size w.arrays h.arrays h'.arrays :=
  hb.arrays.imp fun _ _ => Kinship.Rows.mono (K := G.kinship) hw

theorem objects_mono (hw : w ≤ w') :
    Stacked (fun ms ms' => G.kinship.Named w' ms.entries ms'.entries) .empty
      G.left.objects.size G.right.objects.size w.objects h.objects h'.objects :=
  hb.objects.imp fun _ _ => Kinship.Named.mono (K := G.kinship) hw

theorem frames_mono (hw : w ≤ w') :
    Stacked (fun bs bs' => List.Forall₂ (fun b b' => b.1 = b'.1 ∧ G.Bindings w' b.2 b'.2)
        bs.entries bs'.entries) .empty
      G.left.frames.size G.right.frames.size w.frames h.frames h'.frames :=
  hb.frames.imp fun _ _ hbs => hbs.imp fun _ _ he => ⟨he.1, he.2.mono hw⟩

theorem putItems {p p' : Nat} (hp : G.kinship.array w p p') {xs xs' : Array Value}
    (hxs : G.kinship.Rows w xs.toList xs'.toList) :
    G.Built w (h.modifyItems p fun _ => xs) (h'.modifyItems p' fun _ => xs') := by
  refine ⟨?_, hb.objects, hb.frames, hb.natives, hb.spared⟩
  exact hb.arrays.modify hp fun _ _ _ => hxs

theorem newArray {xs xs' : Array Value} (hxs : G.kinship.Rows w xs.toList xs'.toList) :
    ∃ w', w ≤ w' ∧ G.kinship.Values w' (h.newArray xs).1 (h'.newArray xs').1
      ∧ G.Built w' (h.newArray xs).2 (h'.newArray xs').2 := by
  let w' : Amount := { w with arrays := w.arrays + 1 }
  have hw : w ≤ w' := ⟨Nat.le_succ _, le_rfl, le_rfl, le_rfl⟩
  refine ⟨w', hw, .array ?_, ?_, hb.objects_mono hw, hb.frames_mono hw, hb.natives, hb.spared⟩
  · rw [hb.arrays.size, hb.arrays.size']
    exact Aligned.next _ _ _
  · exact (hb.arrays_mono hw).push (Kinship.Rows.mono (K := G.kinship) hw hxs)

theorem setMember {p p' : Nat} (hp : G.kinship.object w p p') (name : String) {v v' : Value}
    (hv : G.kinship.Values w v v') :
    G.Built w (h.setMember p name v) (h'.setMember p' name v') := by
  refine ⟨hb.arrays, ?_, hb.frames, hb.natives, hb.spared⟩
  exact hb.objects.modify hp (f := (·.insert name v)) (g := (·.insert name v'))
    fun _ _ hms => forall₂_putName hms name hv

theorem newObject {ms ms' : Roster Value} (hms : G.kinship.Named w ms.entries ms'.entries) :
    ∃ w', w ≤ w' ∧ G.kinship.Values w' (h.newObject ms).1 (h'.newObject ms').1
      ∧ G.Built w' (h.newObject ms).2 (h'.newObject ms').2 := by
  let w' : Amount := { w with objects := w.objects + 1 }
  have hw : w ≤ w' := ⟨le_rfl, Nat.le_succ _, le_rfl, le_rfl⟩
  refine ⟨w', hw, .object ?_, hb.arrays_mono hw, ?_, hb.frames_mono hw, hb.natives, hb.spared⟩
  · rw [hb.objects.size, hb.objects.size']
    exact Aligned.next _ _ _
  · exact (hb.objects_mono hw).push (Kinship.Named.mono (K := G.kinship) hw hms)

theorem newFrame : ∃ w', w ≤ w' ∧ G.Links w' h.newFrame.1 h'.newFrame.1
    ∧ G.Built w' h.newFrame.2 h'.newFrame.2 := by
  let w' : Amount := { w with frames := w.frames + 1 }
  have hw : w ≤ w' := ⟨le_rfl, le_rfl, Nat.le_succ _, le_rfl⟩
  have hsize := hb.frames.size'
  refine ⟨w', hw, .locals ?_, hb.arrays_mono hw, hb.objects_mono hw,
    (hb.frames_mono hw).push .nil, hb.natives, fun place hplace => ?_⟩
  · rw [hb.frames.size, hb.frames.size']
    exact .next _ _ _
  · rw [Heap.frame_newFrame, if_neg (by omega)]
    exact hb.spared place hplace

theorem newNative (name : String) (code : Native) :
    ∃ w', w ≤ w' ∧ G.kinship.Values w' (h.newNative name code).1 (h'.newNative name code).1
      ∧ G.Built w' (h.newNative name code).2 (h'.newNative name code).2 := by
  let w' : Amount := { w with natives := w.natives + 1 }
  have hw : w ≤ w' := ⟨le_rfl, le_rfl, le_rfl, Nat.le_succ _⟩
  refine ⟨w', hw, .native name code (.inr ?_), hb.arrays_mono hw, hb.objects_mono hw,
    hb.frames_mono hw, ⟨congrArg (· + 1) hb.natives.1, congrArg (· + 1) hb.natives.2⟩, hb.spared⟩
  rw [hb.natives.1, hb.natives.2]
  exact .next _ _ _

theorem setLocal {p p' : Nat}
    (hp : Aligned G.left.frames.size G.right.frames.size w.frames p p') (name : String)
    {b b' : Binding} (hbb : G.Bindings w b b') :
    G.Built w (h.setLocal p name b) (h'.setLocal p' name b') := by
  refine ⟨hb.arrays, hb.objects, ?_, hb.natives, fun place hplace => ?_⟩
  · exact hb.frames.modify hp (f := (·.insert name b)) (g := (·.insert name b'))
      fun _ _ hbs => forall₂_putName hbs name hbb
  · obtain ⟨i, hi, -, rfl⟩ := hp
    have hsize := hb.frames.size'
    rw [Heap.frame_setLocal h' place name b' (by omega), if_neg (by omega)]
    exact hb.spared place hplace

theorem frame_get? {p p' : Nat}
    (hp : Aligned G.left.frames.size G.right.frames.size w.frames p p') (name : String) :
    Option.Rel (G.Bindings w) ((h.frame p).get? name) ((h'.frame p').get? name) :=
  forall₂_lookupName (hb.frames.related hp) name

theorem linkValue (name : String) {l l' : Link} (hl : G.Links w l l') :
    Option.Rel (G.kinship.Values w) (h.linkValue? name l) (h'.linkValue? name l') := by
  cases hl with
  | none guarded => exact .none
  | members guarded hp => exact forall₂_lookupName (Built.members hb hp) name
  | @locals p p' hp =>
    have hget := Built.frame_get? hb hp name
    simp only [Heap.linkValue?]
    generalize (h.frame p).get? name = b at hget ⊢
    generalize (h'.frame p').get? name = b' at hget ⊢
    cases hget with
    | some hb => exact .some hb.1
    | none => exact .none

theorem assignAt (name : String) {l l' : Link} (hl : G.Links w l l') {v v' : Value}
    (hv : G.kinship.Values w v v') :
    (h.assignAt name v l).1 = (h'.assignAt name v' l').1
      ∧ G.Built w (h.assignAt name v l).2 (h'.assignAt name v' l').2 := by
  cases hl with
  | none guarded => exact ⟨rfl, hb⟩
  | members guarded hp => exact ⟨rfl, Built.setMember hb hp name hv⟩
  | @locals p p' hp =>
    have hget := Built.frame_get? hb hp name
    simp only [Heap.assignAt]
    generalize (h.frame p).get? name = b at hget ⊢
    generalize (h'.frame p').get? name = b' at hget ⊢
    cases hget with
    | none => exact ⟨rfl, hb⟩
    | @some b b' hbb =>
      simp only [hbb.2]
      split
      · exact ⟨rfl, Built.setLocal hb hp name ⟨hv, rfl⟩⟩
      · exact ⟨rfl, hb⟩

end Built

variable {kept : Store → Store → Prop}

instance : (G.moving kept).Lawful where
  guard hs := .inl (Links.isGuarded_eq hs)
  opened guarded hv := by
    cases hv with
    | object hp => exact Links.members guarded hp
    | _ => exact Links.none guarded
  shows_nil _ _ := trivial
  shows_opened _ _ _ := trivial
  heaps_of_stores h := h.1
  stores_put _ h hb := ⟨hb, h.2⟩
  items hb hp := Built.items hb hp
  putItems hb hp hxs := Built.putItems hb hp hxs
  newArray hb hxs := Built.newArray hb hxs
  members hb hp := Built.members hb hp
  setMember name hb hp hv := Built.setMember hb hp name hv
  newObject hb hms := Built.newObject hb hms
  newFrame hb := by
    obtain ⟨w', hw, hl, hb'⟩ := Built.newFrame hb
    exact ⟨w', hw, hl, hb', fun _ _ h => h⟩
  newNative name code hb := Built.newNative hb name code
  find hb hs _ := hs.scopes.find?_rel (Built.linkValue hb _)
  assign hb hs _ hv := hs.scopes.assign (Built.linkValue hb _) hb fun hl =>
    Built.assignAt hb _ hl hv
  declare {w h h' scope scope' v v'} name changeable hb hs hv := by
    cases hs with
    | nil => exact hb
    | cons hl _ =>
      cases hl with
      | none guarded => exact hb
      | members guarded hp => exact hb
      | locals hp => exact Built.setLocal hb hp name ⟨hv, rfl⟩
  display hb hv := ⟨Built.display_eq hb hv, fun _ => trivial⟩
  toJson hb hv := ⟨Built.toJson_eq hb hv, fun _ => trivial⟩

end Grounds

end Stencil.Routine
