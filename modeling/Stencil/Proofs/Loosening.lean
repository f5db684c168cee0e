import Mathlib
import Stencil.Proofs.Conversions
import Stencil.Proofs.LikeEvaluation

/-!
# Dropped guards

A guarded scope refuses a name that nothing in it binds, and that is all it does.  Two runs of which
the left one has guards that the right one lacks keep doing the same until the left one refuses a
name.

* `Link.Loosens` — a link without its guard;
* `Heap.Loosens` — the same heap, but for guards in the scopes that its functions have kept;
* `loosening` — the likeness of such heaps, which is lawful.
-/

namespace Stencil.Routine

/-- The right link is the left one, or the left one without its guard. -/
inductive Link.Loosens : Link → Link → Prop where
  | same (l : Link) : Loosens l l
  | dropped (object : Option Nat) : Loosens (.members object true) (.members object false)

/-- Values that differ in guards that are dropped on the right. -/
def loosened : Kinship where
  Stage := Unit
  array _ p p' := p = p'
  object _ p p' := p = p'
  link _ := Link.Loosens
  native _ i i' := i = i'
  routine _ r r' := r = r'
  loops := True
  array_mono _ h := h
  object_mono _ h := h
  link_mono _ h := h
  native_mono _ h := h
  routine_mono _ h := h
  array_iff := by rintro _ p _ q _ rfl rfl; rfl
  object_iff := by rintro _ p _ q _ rfl rfl; rfl
  native_iff := by rintro _ p _ q _ rfl rfl; rfl
  routine_iff := by rintro _ p _ q _ rfl rfl; rfl

/-- The right value is the left one, but for guards in the scope of a function. -/
abbrev Value.Loosens : Value → Value → Prop := loosened.Values ()

/-- Variables with such values. -/
def Binding.Loosens (b b' : Binding) : Prop :=
  b.value.Loosens b'.value ∧ b.changeable = b'.changeable

/-- The right heap is the left one, but for guards in the scopes that functions have kept. -/
structure Heap.Loosens (h h' : Heap) : Prop where
  arrays : List.Forall₂ (fun xs xs' => List.Forall₂ Value.Loosens xs.toList xs'.toList)
    h.arrays.toList h'.arrays.toList
  objects : List.Forall₂ (fun ms ms' => loosened.Named () ms.entries ms'.entries)
    h.objects.toList h'.objects.toList
  frames : List.Forall₂
    (fun bs bs' => List.Forall₂ (fun b b' => b.1 = b'.1 ∧ b.2.Loosens b'.2) bs.entries bs'.entries)
    h.frames.toList h'.frames.toList
  identities : h.identities = h'.identities

/-- Heaps that differ in dropped guards are alike, except where the left run refuses a name. -/
def loosening : Likeness where
  toKinship := loosened
  heaps _ := Heap.Loosens
  stores _ s s' := s.heap.Loosens s'.heap
  excused f := ∃ name, f = .undefinedVariable name
  knot _ := True

/-! ### Rows that are related item by item -/

section Rows

variable {α β : Type} {R : α → β → Prop}

theorem forall₂_getD {xs : Array α} {ys : Array β} (h : List.Forall₂ R xs.toList ys.toList)
    (i : Nat) {a : α} {b : β} (hab : R a b) : R (xs.getD i a) (ys.getD i b) := by
  rw [Array.getD_eq_getD_getElem?, Array.getD_eq_getD_getElem?, ← Array.getElem?_toList,
    ← Array.getElem?_toList]
  generalize xs.toList = as at h ⊢
  generalize ys.toList = bs at h ⊢
  induction h generalizing i with
  | nil => exact hab
  | cons hc _ ih =>
    cases i with
    | zero => exact hc
    | succ i => exact ih i

theorem forall₂_modify {xs : Array α} {ys : Array β} (h : List.Forall₂ R xs.toList ys.toList)
    (i : Nat) {f : α → α} {g : β → β} (hfg : ∀ a b, R a b → R (f a) (g b)) :
    List.Forall₂ R (xs.modify i f).toList (ys.modify i g).toList := by
  rw [Array.toList_modify, Array.toList_modify]
  generalize xs.toList = as at h ⊢
  generalize ys.toList = bs at h ⊢
  induction h generalizing i with
  | nil => simp
  | cons hc hcs ih =>
    cases i with
    | zero => exact .cons (hfg _ _ hc) hcs
    | succ i => exact .cons hc (ih i)

theorem forall₂_push {xs : Array α} {ys : Array β} (h : List.Forall₂ R xs.toList ys.toList)
    {a : α} {b : β} (hab : R a b) : List.Forall₂ R (xs.push a).toList (ys.push b).toList := by
  rw [Array.toList_push, Array.toList_push]
  exact List.rel_append h (.cons hab .nil)

end Rows

namespace Heap.Loosens

variable {h h' : Heap} (hh : h.Loosens h')
include hh

theorem items (place : Nat) :
    List.Forall₂ Value.Loosens (h.items place).toList (h'.items place).toList :=
  forall₂_getD hh.arrays place .nil

theorem members (place : Nat) :
    loosened.Named () (h.members place).entries (h'.members place).entries :=
  forall₂_getD hh.objects place .nil

theorem bindings (place : Nat) : List.Forall₂ (fun b b' => b.1 = b'.1 ∧ b.2.Loosens b'.2)
    (h.frame place).entries (h'.frame place).entries :=
  forall₂_getD hh.frames place .nil

theorem frame_get? (place : Nat) (name : String) :
    Option.Rel Binding.Loosens ((h.frame place).get? name) ((h'.frame place).get? name) :=
  forall₂_lookupName (hh.bindings place) name

theorem setLocal (place : Nat) (name : String) {b b' : Binding} (hb : b.Loosens b') :
    (h.setLocal place name b).Loosens (h'.setLocal place name b') :=
  ⟨hh.arrays, hh.objects,
    forall₂_modify hh.frames place fun _ _ hbs => forall₂_putName hbs name hb, hh.identities⟩

theorem size_arrays : h.arrays.size = h'.arrays.size := hh.arrays.length_eq

theorem size_objects : h.objects.size = h'.objects.size := hh.objects.length_eq

theorem size_frames : h.frames.size = h'.frames.size := hh.frames.length_eq

/-! #### Text and JSON -/

theorem rows {p p' : Nat} (hp : p = p') :
    loosened.Rows () (h.items p).toList (h'.items p').toList :=
  hp ▸ hh.items p

theorem named {p p' : Nat} (hp : p = p') :
    loosened.Named () (h.members p).entries (h'.members p').entries :=
  hp ▸ hh.members p

theorem display_eq {v v' : Value} (hv : v.Loosens v') : h.display v = h'.display v' := by
  rw [display, display, hh.size_arrays]
  exact Kinship.displayWithin_eq hh.rows _ hv

theorem toJson_eq {v v' : Value} (hv : v.Loosens v') : h.toJson v = h'.toJson v' := by
  rw [toJson, toJson, hh.size_arrays, hh.size_objects]
  exact Kinship.toJsonWithin_eq hh.rows hh.named _ hv

end Heap.Loosens

/-! ### The likeness is lawful -/

theorem Link.Loosens.refl_scope (scope : Scope) : loosened.Scopes () scope scope :=
  List.forall₂_same.mpr fun l _ => .same l

/-- Every value is its own loosening. -/
theorem Value.Loosens.refl (v : Value) : v.Loosens v := by
  cases v with
  | undefined => exact .undefined
  | null => exact .null
  | bool b => exact .bool b
  | number x => exact .number x
  | text s => exact .text s
  | array place => exact .array rfl
  | object place => exact .object rfl
  | native name code identity => exact .native name code rfl
  | closure r site params body scope =>
    exact .closure site params rfl (.inl trivial) ⟨Link.Loosens.refl_scope scope, trivial⟩

/-- Every heap is its own loosening. -/
theorem Heap.Loosens.refl (h : Heap) : h.Loosens h where
  arrays := List.forall₂_same.mpr fun _ _ => List.forall₂_same.mpr fun v _ => Value.Loosens.refl v
  objects := List.forall₂_same.mpr fun _ _ =>
    List.forall₂_same.mpr fun e _ => ⟨rfl, Value.Loosens.refl e.2⟩
  frames := List.forall₂_same.mpr fun _ _ =>
    List.forall₂_same.mpr fun b _ => ⟨rfl, Value.Loosens.refl b.2.value, rfl⟩
  identities := rfl

/-- Loosened scopes are guarded only if the scopes themselves are. -/
theorem Link.Loosens.isGuarded {scope scope' : Scope} (hs : loosened.Scopes () scope scope') :
    scope.isGuarded = scope'.isGuarded ∨ scope.isGuarded = true := by
  induction hs with
  | nil => exact .inl rfl
  | cons hl _ ih =>
    simp only [Scope.isGuarded, List.any_cons] at ih ⊢
    cases hl with
    | same l =>
      rcases ih with heq | hguarded
      · exact .inl (by rw [heq])
      · exact .inr (by rw [hguarded, Bool.or_true])
    | dropped object => exact .inr (Bool.true_or _)

theorem Heap.Loosens.linkValue {h h' : Heap} (hh : h.Loosens h') (name : String) {l l' : Link}
    (hl : l.Loosens l') :
    Option.Rel Value.Loosens (h.linkValue? name l) (h'.linkValue? name l') := by
  cases hl with
  | dropped object =>
    cases object with
    | none => exact .none
    | some place => exact (Heap.Loosens.members hh place).lookup name
  | same l =>
    cases l with
    | locals place =>
      have hget := Heap.Loosens.frame_get? hh place name
      simp only [Heap.linkValue?]
      generalize (h.frame place).get? name = b at hget ⊢
      generalize (h'.frame place).get? name = b' at hget ⊢
      cases hget with
      | some hb => exact .some hb.1
      | none => exact .none
    | members object guarded =>
      cases object with
      | none => exact .none
      | some place => exact (Heap.Loosens.members hh place).lookup name

theorem Heap.Loosens.assignAt {h h' : Heap} (hh : h.Loosens h') (name : String) {l l' : Link}
    (hl : l.Loosens l') {v v' : Value} (hv : v.Loosens v') :
    (h.assignAt name v l).1 = (h'.assignAt name v' l').1
      ∧ (h.assignAt name v l).2.Loosens (h'.assignAt name v' l').2 := by
  have hmembers (object : Option Nat) (guarded guarded' : Bool) :
      (h.assignAt name v (.members object guarded)).1
          = (h'.assignAt name v' (.members object guarded')).1
        ∧ (h.assignAt name v (.members object guarded)).2.Loosens
          (h'.assignAt name v' (.members object guarded')).2 := by
    cases object with
    | none => exact ⟨rfl, hh⟩
    | some place =>
      exact ⟨rfl, { hh with
        objects := forall₂_modify hh.objects place fun _ _ hms => hms.put name hv }⟩
  cases hl with
  | dropped object => exact hmembers object true false
  | same l =>
    cases l with
    | members object guarded => exact hmembers object guarded guarded
    | locals place =>
      have hget := Heap.Loosens.frame_get? hh place name
      simp only [Heap.assignAt]
      generalize (h.frame place).get? name = b at hget ⊢
      generalize (h'.frame place).get? name = b' at hget ⊢
      cases hget with
      | none => exact ⟨rfl, hh⟩
      | @some b b' hb =>
        simp only [hb.2]
        split
        · exact ⟨rfl, Heap.Loosens.setLocal hh place name ⟨hv, rfl⟩⟩
        · exact ⟨rfl, hh⟩

instance : loosening.Lawful where
  guard hs := (Link.Loosens.isGuarded hs).imp_right fun h => ⟨h, fun name => ⟨name, rfl⟩⟩
  opened guarded hv := by
    cases hv with
    | object hp => cases hp; exact .same _
    | _ => exact .same _
  shows_nil _ _ := trivial
  shows_opened _ _ _ := trivial
  heaps_of_stores h := h
  stores_put _ _ h := h
  items {w h h' p p'} hh hp := by
    obtain rfl : p = p' := hp
    exact Heap.Loosens.items hh p
  putItems {w h h' p p' xs xs'} hh hp hxs := by
    obtain rfl : p = p' := hp
    exact { hh with arrays := forall₂_modify hh.arrays p fun _ _ _ => hxs }
  newArray {w h h' xs xs'} hh hxs :=
    ⟨(), le_rfl, .array hh.size_arrays, { hh with arrays := forall₂_push hh.arrays hxs }⟩
  members {w h h' p p'} hh hp := by
    obtain rfl : p = p' := hp
    exact Heap.Loosens.members hh p
  setMember {w h h' p p' v v'} name hh hp hv := by
    obtain rfl : p = p' := hp
    exact { hh with objects := forall₂_modify hh.objects p fun _ _ hms => hms.put name hv }
  newObject {w h h' ms ms'} hh hms :=
    ⟨(), le_rfl, .object hh.size_objects, { hh with objects := forall₂_push hh.objects hms }⟩
  newFrame {w h h'} hh := by
    refine ⟨(), le_rfl, ?_, { hh with frames := forall₂_push hh.frames .nil }, fun _ _ h => h⟩
    show Link.Loosens (.locals h.frames.size) (.locals h'.frames.size)
    rw [hh.size_frames]
    exact .same _
  newNative name code hh :=
    ⟨(), le_rfl, .native name code hh.identities,
      { hh with identities := congrArg (· + 1) hh.identities }⟩
  find hh hs _ := hs.scopes.find?_rel fun hl => Heap.Loosens.linkValue hh _ hl
  assign hh hs _ hv := hs.scopes.assign (fun hl => Heap.Loosens.linkValue hh _ hl) hh
    fun hl => Heap.Loosens.assignAt hh _ hl hv
  declare {w h h' scope scope' v v'} name changeable hh hs hv := by
    cases hs with
    | nil => exact hh
    | @cons l l' ls ls' hl _ =>
      cases hl with
      | dropped object => exact hh
      | same =>
        cases l with
        | members object guarded => exact hh
        | locals place => exact Heap.Loosens.setLocal hh place name ⟨hv, rfl⟩
  display hh hv := ⟨Heap.Loosens.display_eq hh hv, fun _ => trivial⟩
  toJson hh hv := ⟨Heap.Loosens.toJson_eq hh hv, fun _ => trivial⟩

end Stencil.Routine
