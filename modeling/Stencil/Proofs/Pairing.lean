import Stencil.Proofs.Conversions
import Stencil.Proofs.LikeEvaluation

/-!
# Paired heaps

Two heaps hold the same at places that are paired, wherever these lie and whatever else there is.
An object that is never a value itself, but which scopes have opened, may differ from its partner
under some names that are hidden: nothing shows that as long as no such name is looked up.

* `Pairing` — which places are paired; it grows while two runs go on;
* `Pairing.Shows` — a scope shows the same under a name: the name is found before any link that
  differs under it;
* `Paired` — heaps that hold the same at paired places;
* `pairing` — the likeness of such heaps, which is lawful.
-/

namespace Stencil.Routine

theorem optionRel_imp {α β : Type} {R R' : α → β → Prop} {a : Option α} {b : Option β}
    (h : Option.Rel R a b) (himp : ∀ a b, R a b → R' a b) : Option.Rel R' a b := by
  cases h with
  | none => exact .none
  | some h => exact .some (himp _ _ h)

/-! ### Pairs of numbers -/

/-- No number is paired with two. -/
def OneToOne (R : Nat → Nat → Prop) : Prop :=
  ∀ ⦃p p' q q'⦄, R p p' → R q q' → (p = q ↔ p' = q')

/-- The pairs and one more. -/
def WithPair (R : Nat → Nat → Prop) (n n' p p' : Nat) : Prop := R p p' ∨ p = n ∧ p' = n'

theorem OneToOne.withPair {R : Nat → Nat → Prop} (h : OneToOne R) {n n' : Nat}
    (hR : ∀ {p p'}, R p p' → (p = n ↔ p' = n')) : OneToOne (WithPair R n n') := by
  rintro p p' q q' (hp | ⟨rfl, rfl⟩) (hq | ⟨rfl, rfl⟩)
  · exact h hp hq
  · exact hR hp
  · rw [eq_comm, hR hq, eq_comm]
  · exact ⟨fun _ => rfl, fun _ => rfl⟩

/-- No such pair is the next one. -/
theorem eq_iff_of_lt {n n' p p' : Nat} (h : p < n ∧ p' < n') : p = n ↔ p' = n' := by omega

/-! ### Pairings -/

/-- Which places of two heaps are paired. -/
structure Pairing where
  arrays : Nat → Nat → Prop
  objects : Nat → Nat → Prop
  /-- Objects that are no values, but which scopes have opened. -/
  secrets : Nat → Nat → Prop
  frames : Nat → Nat → Prop
  /-- Acts that made native functions. -/
  natives : Nat → Nat → Prop
  /-- The names under which a left frame and its partner may differ. -/
  covered : Nat → String → Prop
  /-- The names that a left frame is known to have. -/
  bound : Nat → String → Prop
  arrays_inj : OneToOne arrays
  objects_inj : OneToOne objects
  secrets_inj : OneToOne secrets
  frames_inj : OneToOne frames
  natives_inj : OneToOne natives
  apart {p p' q q' : Nat} : objects p p' → secrets q q' → p ≠ q ∧ p' ≠ q'

namespace Pairing

/-- Nothing is paired but acts that made native functions. -/
def ofNatives (R : Nat → Nat → Prop) (h : OneToOne R) : Pairing where
  arrays _ _ := False
  objects _ _ := False
  secrets _ _ := False
  frames _ _ := False
  natives := R
  covered _ _ := False
  bound _ _ := False
  arrays_inj := nofun
  objects_inj := nofun
  secrets_inj := nofun
  frames_inj := nofun
  natives_inj := h
  apart := nofun

/-- All pairs stay, and no paired frame differs under more names. -/
structure Grows (w w' : Pairing) : Prop where
  arrays {p p' : Nat} : w.arrays p p' → w'.arrays p p'
  objects {p p' : Nat} : w.objects p p' → w'.objects p p'
  secrets {p p' : Nat} : w.secrets p p' → w'.secrets p p'
  frames {p p' : Nat} : w.frames p p' → w'.frames p p'
  natives {i i' : Nat} : w.natives i i' → w'.natives i i'
  covered {p p' : Nat} {name : String} : w.frames p p' → w'.covered p name → w.covered p name
  bound {p : Nat} {name : String} : w.bound p name → w'.bound p name

instance : Preorder Pairing where
  le := Grows
  le_refl _ := ⟨id, id, id, id, id, fun _ h => h, id⟩
  le_trans _ _ _ h h' :=
    { arrays := h'.arrays ∘ h.arrays
      objects := h'.objects ∘ h.objects
      secrets := h'.secrets ∘ h.secrets
      frames := h'.frames ∘ h.frames
      natives := h'.natives ∘ h.natives
      covered := fun hp hn => h.covered hp (h'.covered (h.frames hp) hn)
      bound := h'.bound ∘ h.bound }

/-- Links to paired frames and objects. -/
inductive Links (w : Pairing) : Link → Link → Prop where
  | locals {p p' : Nat} (h : w.frames p p') : Links w (.locals p) (.locals p')
  | members {p p' : Nat} (guarded : Bool) (h : w.objects p p') :
    Links w (.members (some p) guarded) (.members (some p') guarded)
  | secret {p p' : Nat} (guarded : Bool) (h : w.secrets p p') :
    Links w (.members (some p) guarded) (.members (some p') guarded)
  | none (guarded : Bool) : Links w (.members .none guarded) (.members .none guarded)

variable (hidden : String → Prop)

/-- A left link may differ from its partner under a name. -/
inductive Veils (w : Pairing) (name : String) : Link → Prop where
  | covered {p : Nat} (h : w.covered p name) : Veils w name (.locals p)
  | secret {p p' : Nat} (guarded : Bool) (h : w.secrets p p') (hname : hidden name) :
    Veils w name (.members (some p) guarded)

/-- A left scope shows the same as its partner under a name: no link on the way to the name differs
under it. -/
inductive Shows (w : Pairing) (name : String) : Scope → Prop where
  | nil : Shows w name []
  | bound {p : Nat} {scope : Scope} (h : w.bound p name) : Shows w name (.locals p :: scope)
  | cons {l : Link} {scope : Scope} (hl : ¬ w.Veils hidden name l) (h : Shows w name scope) :
    Shows w name (l :: scope)

variable {hidden}

theorem Veils.of_le {w w' : Pairing} (hw : w ≤ w') {name : String} {l l' : Link}
    (hl : w.Links l l') (h : w'.Veils hidden name l) : w.Veils hidden name l := by
  cases h with
  | covered h =>
    cases hl with
    | locals hp => exact .covered (hw.covered hp h)
  | secret guarded h hname =>
    cases hl with
    | members _ hp => exact absurd rfl (w'.apart (hw.objects hp) h).1
    | secret _ hp => exact .secret guarded hp hname

theorem Shows.mono {w w' : Pairing} (hw : w ≤ w') {name : String} {scope scope' : Scope}
    (hs : List.Forall₂ w.Links scope scope') (h : w.Shows hidden name scope) :
    w'.Shows hidden name scope := by
  induction h generalizing scope' with
  | nil => exact .nil
  | bound h => exact .bound (hw.bound h)
  | cons hl _ ih =>
    cases hs with
    | cons hlink hs => exact .cons (fun h => hl (h.of_le hw hlink)) (ih hs)

end Pairing

variable (hidden : String → Prop)

/-- What is taken as the same in paired heaps. -/
def paired : Kinship where
  Stage := Pairing
  array w := w.arrays
  object w := w.objects
  link w := w.Links
  native w := w.natives
  routine _ r r' := r = r'
  loops := True
  shows w names scope := ∀ name ∈ names, w.Shows hidden name scope
  array_mono hw h := Pairing.Grows.arrays hw h
  object_mono hw h := Pairing.Grows.objects hw h
  link_mono hw h := by
    cases h with
    | locals h => exact .locals (Pairing.Grows.frames hw h)
    | members guarded h => exact .members guarded (Pairing.Grows.objects hw h)
    | secret guarded h => exact .secret guarded (Pairing.Grows.secrets hw h)
    | none guarded => exact .none guarded
  native_mono hw h := Pairing.Grows.natives hw h
  routine_mono _ h := h
  array_iff {w _ _ _ _} h h' := w.arrays_inj h h'
  object_iff {w _ _ _ _} h h' := w.objects_inj h h'
  native_iff {w _ _ _ _} h h' := w.natives_inj h h'
  routine_iff := by rintro _ r _ t _ rfl rfl; rfl
  shows_mono hw hs h name hname := (h name hname).mono hw hs
  shows_subset hsub h name hname := h name (hsub hname)

/-- Variables with values that are taken as the same. -/
def PairedBindings (w : Pairing) (b b' : Binding) : Prop :=
  (paired hidden).Values w b.value b'.value ∧ b.changeable = b'.changeable

theorem PairedBindings.mono {w w' : Pairing} (hw : w ≤ w') {b b' : Binding}
    (h : PairedBindings hidden w b b') : PairedBindings hidden w' b b' :=
  ⟨h.1.mono (K := paired hidden) hw, h.2⟩

/-- Heaps that hold the same at paired places. -/
structure Paired (w : Pairing) (h h' : Heap) : Prop where
  arrays {p p' : Nat} : w.arrays p p' → p < h.arrays.size ∧ p' < h'.arrays.size
    ∧ (paired hidden).Rows w (h.items p).toList (h'.items p').toList
  objects {p p' : Nat} : w.objects p p' → p < h.objects.size ∧ p' < h'.objects.size
    ∧ (paired hidden).Named w (h.members p).entries (h'.members p').entries
  secrets {p p' : Nat} : w.secrets p p' → p < h.objects.size ∧ p' < h'.objects.size
    ∧ ∀ name, ¬ hidden name →
      Option.Rel ((paired hidden).Values w) ((h.members p).get? name) ((h'.members p').get? name)
  frames {p p' : Nat} : w.frames p p' → p < h.frames.size ∧ p' < h'.frames.size
    ∧ ∀ name, ¬ w.covered p name →
      Option.Rel (PairedBindings hidden w) ((h.frame p).get? name) ((h'.frame p').get? name)
  /-- The pairs, among them those that later acts may still meet, agree on which act comes next. -/
  natives {i i' : Nat} : w.natives i i' → ∀ n, i = h.identities + n ↔ i' = h'.identities + n
  bound {p : Nat} {name : String} : w.bound p name →
    ¬ w.covered p name ∧ ((h.frame p).get? name).isSome

/-- At first nothing needs to be the same. -/
theorem paired_ofNatives {R : Nat → Nat → Prop} (hR : OneToOne R) {h h' : Heap}
    (hnext : ∀ {i i'}, R i i' → ∀ n, i = h.identities + n ↔ i' = h'.identities + n) :
    Paired hidden (.ofNatives R hR) h h' where
  arrays := nofun
  objects := nofun
  secrets := nofun
  frames := nofun
  natives := hnext
  bound := nofun

/-! ### What keeps heaps paired -/

namespace Pairing

variable (w : Pairing) (h h' : Heap)

/-- The new arrays are paired. -/
def withArray (hin : ∀ {p p'}, w.arrays p p' → p < h.arrays.size ∧ p' < h'.arrays.size) :
    Pairing :=
  { w with
    arrays := WithPair w.arrays h.arrays.size h'.arrays.size
    arrays_inj := w.arrays_inj.withPair fun hr => eq_iff_of_lt (hin hr) }

/-- The new objects are paired. -/
def withObject (hin : ∀ {p p'}, w.objects p p' → p < h.objects.size ∧ p' < h'.objects.size)
    (hsecret : ∀ {p p'}, w.secrets p p' → p < h.objects.size ∧ p' < h'.objects.size) : Pairing :=
  { w with
    objects := WithPair w.objects h.objects.size h'.objects.size
    objects_inj := w.objects_inj.withPair fun hr => eq_iff_of_lt (hin hr)
    apart := by
      rintro p p' q q' (hp | ⟨rfl, rfl⟩) hq
      · exact w.apart hp hq
      · have := hsecret hq
        omega }

/-- The new objects are paired, but are no values. -/
def withSecret (hin : ∀ {p p'}, w.objects p p' → p < h.objects.size ∧ p' < h'.objects.size)
    (hsecret : ∀ {p p'}, w.secrets p p' → p < h.objects.size ∧ p' < h'.objects.size) : Pairing :=
  { w with
    secrets := WithPair w.secrets h.objects.size h'.objects.size
    secrets_inj := w.secrets_inj.withPair fun hr => eq_iff_of_lt (hsecret hr)
    apart := by
      rintro p p' q q' hp (hq | ⟨rfl, rfl⟩)
      · exact w.apart hp hq
      · have := hin hp
        omega }

/-- The new frames are paired.  They may differ under some names, and the left one has others. -/
def withFrame (differing own : String → Prop)
    (hin : ∀ {p p'}, w.frames p p' → p < h.frames.size ∧ p' < h'.frames.size) : Pairing :=
  { w with
    frames := WithPair w.frames h.frames.size h'.frames.size
    covered := fun p name => if p = h.frames.size then differing name else w.covered p name
    bound := fun p name => w.bound p name ∨ p = h.frames.size ∧ own name
    frames_inj := w.frames_inj.withPair fun hr => eq_iff_of_lt (hin hr) }

/-- The new native functions are paired. -/
def withNative (hin : ∀ {i i'}, w.natives i i' → (i = h.identities ↔ i' = h'.identities)) :
    Pairing :=
  { w with
    natives := WithPair w.natives h.identities h'.identities
    natives_inj := w.natives_inj.withPair hin }

end Pairing

namespace Paired

variable {hidden} {w w' : Pairing} {h h' : Heap} (hp : Paired hidden w h h')
include hp

theorem items {p p' : Nat} (hr : (paired hidden).array w p p') :
    (paired hidden).Rows w (h.items p).toList (h'.items p').toList :=
  (hp.arrays hr).2.2

theorem members {p p' : Nat} (hr : (paired hidden).object w p p') :
    (paired hidden).Named w (h.members p).entries (h'.members p').entries :=
  (hp.objects hr).2.2

theorem counted_arrays : Counted w.arrays h.arrays.size h'.arrays.size id id :=
  ⟨fun hr => ⟨_, (hp.arrays hr).1, rfl⟩, fun hr => ⟨_, (hp.arrays hr).2.1, rfl⟩⟩

theorem counted_objects : Counted w.objects h.objects.size h'.objects.size id id :=
  ⟨fun hr => ⟨_, (hp.objects hr).1, rfl⟩, fun hr => ⟨_, (hp.objects hr).2.1, rfl⟩⟩

theorem display_eq {v v' : Value} (hv : (paired hidden).Values w v v') :
    h.display v = h'.display v' :=
  hv.display_eq hp.items hp.members hp.counted_arrays le_rfl le_rfl

theorem toJson_eq {v v' : Value} (hv : (paired hidden).Values w v v') :
    h.toJson v = h'.toJson v' :=
  hv.toJson_eq hp.items hp.members hp.counted_arrays hp.counted_objects le_rfl le_rfl

/-- The items of paired arrays are put in their places. -/
theorem putItems {p p' : Nat} (hr : w.arrays p p') {xs xs' : Array Value}
    (hxs : (paired hidden).Rows w xs.toList xs'.toList) :
    Paired hidden w (h.modifyItems p fun _ => xs) (h'.modifyItems p' fun _ => xs') := by
  obtain ⟨hlt, hlt', -⟩ := hp.arrays hr
  refine { hp with arrays := fun {q q'} hq => ?_ }
  obtain ⟨hq₁, hq₂, hrows⟩ := hp.arrays hq
  refine ⟨Array.size_modify.symm ▸ hq₁, Array.size_modify.symm ▸ hq₂, ?_⟩
  rw [Heap.items_modifyItems h q _ hlt, Heap.items_modifyItems h' q' _ hlt']
  by_cases heq : p = q
  · rw [if_pos heq, if_pos ((w.arrays_inj hr hq).mp heq)]
    exact hxs
  · rw [if_neg heq, if_neg (mt (w.arrays_inj hr hq).mpr heq)]
    exact hrows

/-- A member of paired objects is set. -/
theorem setMember {p p' : Nat} (hr : w.objects p p') (name : String) {v v' : Value}
    (hv : (paired hidden).Values w v v') :
    Paired hidden w (h.setMember p name v) (h'.setMember p' name v') := by
  obtain ⟨hlt, hlt', -⟩ := hp.objects hr
  refine { hp with objects := fun {q q'} hq => ?_, secrets := fun {q q'} hq => ?_ }
  · obtain ⟨hq₁, hq₂, hnamed⟩ := hp.objects hq
    refine ⟨Array.size_modify.symm ▸ hq₁, Array.size_modify.symm ▸ hq₂, ?_⟩
    rw [Heap.members_setMember h q name v hlt, Heap.members_setMember h' q' name v' hlt']
    by_cases heq : p = q
    · rw [if_pos heq, if_pos ((w.objects_inj hr hq).mp heq)]
      exact forall₂_putName (hp.objects hr).2.2 name hv
    · rw [if_neg heq, if_neg (mt (w.objects_inj hr hq).mpr heq)]
      exact hnamed
  · obtain ⟨hq₁, hq₂, hlook⟩ := hp.secrets hq
    refine ⟨Array.size_modify.symm ▸ hq₁, Array.size_modify.symm ▸ hq₂, ?_⟩
    obtain ⟨hne, hne'⟩ := w.apart hr hq
    rw [Heap.members_setMember h q name v hlt, Heap.members_setMember h' q' name v' hlt',
      if_neg hne, if_neg hne']
    exact hlook

/-- A member of opened objects is set that is not hidden. -/
theorem setSecret {p p' : Nat} (hr : w.secrets p p') (name : String) {v v' : Value}
    (hv : (paired hidden).Values w v v') :
    Paired hidden w (h.setMember p name v) (h'.setMember p' name v') := by
  obtain ⟨hlt, hlt', hown⟩ := hp.secrets hr
  refine { hp with objects := fun {q q'} hq => ?_, secrets := fun {q q'} hq => ?_ }
  · obtain ⟨hq₁, hq₂, hnamed⟩ := hp.objects hq
    refine ⟨Array.size_modify.symm ▸ hq₁, Array.size_modify.symm ▸ hq₂, ?_⟩
    obtain ⟨hne, hne'⟩ := w.apart hq hr
    rw [Heap.members_setMember h q name v hlt, Heap.members_setMember h' q' name v' hlt',
      if_neg hne.symm, if_neg hne'.symm]
    exact hnamed
  · obtain ⟨hq₁, hq₂, hlook⟩ := hp.secrets hq
    refine ⟨Array.size_modify.symm ▸ hq₁, Array.size_modify.symm ▸ hq₂, fun other hother => ?_⟩
    rw [Heap.members_setMember h q name v hlt, Heap.members_setMember h' q' name v' hlt']
    by_cases heq : p = q
    · rw [if_pos heq, if_pos ((w.secrets_inj hr hq).mp heq), Roster.get?_insert,
        Roster.get?_insert]
      split
      · exact .some hv
      · exact hown other hother
    · rw [if_neg heq, if_neg (mt (w.secrets_inj hr hq).mpr heq)]
      exact hlook other hother

/-- A variable of paired frames is set. -/
theorem setLocal {p p' : Nat} (hr : w.frames p p') (name : String) {b b' : Binding}
    (hb : PairedBindings hidden w b b') :
    Paired hidden w (h.setLocal p name b) (h'.setLocal p' name b') := by
  obtain ⟨hlt, hlt', hown⟩ := hp.frames hr
  refine { hp with frames := fun {q q'} hq => ?_, bound := fun {q other} hq => ?_ }
  · obtain ⟨hq₁, hq₂, hlook⟩ := hp.frames hq
    rw [Heap.size_setLocal, Heap.size_setLocal, Heap.frame_setLocal h q name b hlt,
      Heap.frame_setLocal h' q' name b' hlt']
    refine ⟨hq₁, hq₂, fun other hother => ?_⟩
    by_cases heq : p = q
    · subst heq
      rw [if_pos rfl, if_pos ((w.frames_inj hr hq).mp rfl), Roster.get?_insert,
        Roster.get?_insert]
      split
      · exact .some hb
      · exact hown other hother
    · rw [if_neg heq, if_neg (mt (w.frames_inj hr hq).mpr heq)]
      exact hlook other hother
  · obtain ⟨hopen, hsome⟩ := hp.bound hq
    refine ⟨hopen, ?_⟩
    rw [Heap.frame_setLocal h q name b hlt]
    split
    · rename_i heq
      rw [Roster.get?_insert]
      split
      · rfl
      · exact heq ▸ hsome
    · exact hsome

/-! #### More pairs -/

section Mono

variable (hw : w ≤ w')
include hw

theorem arrays_mono {p p' : Nat} (hr : w.arrays p p') : p < h.arrays.size ∧ p' < h'.arrays.size
    ∧ (paired hidden).Rows w' (h.items p).toList (h'.items p').toList :=
  ⟨(hp.arrays hr).1, (hp.arrays hr).2.1, Kinship.Rows.mono (K := paired hidden) hw (hp.items hr)⟩

theorem objects_mono {p p' : Nat} (hr : w.objects p p') : p < h.objects.size ∧ p' < h'.objects.size
    ∧ (paired hidden).Named w' (h.members p).entries (h'.members p').entries :=
  ⟨(hp.objects hr).1, (hp.objects hr).2.1,
    Kinship.Named.mono (K := paired hidden) hw (hp.members hr)⟩

theorem secrets_mono {p p' : Nat} (hr : w.secrets p p') : p < h.objects.size ∧ p' < h'.objects.size
    ∧ ∀ name, ¬ hidden name →
      Option.Rel ((paired hidden).Values w') ((h.members p).get? name)
        ((h'.members p').get? name) := by
  obtain ⟨hlt, hlt', hlook⟩ := hp.secrets hr
  exact ⟨hlt, hlt', fun name hname =>
    optionRel_imp (hlook name hname) fun _ _ hv => hv.mono (K := paired hidden) hw⟩

theorem frames_mono {p p' : Nat} (hr : w.frames p p')
    (hcovered : ∀ name, w.covered p name → w'.covered p name) :
    p < h.frames.size ∧ p' < h'.frames.size ∧ ∀ name, ¬ w'.covered p name →
      Option.Rel (PairedBindings hidden w') ((h.frame p).get? name) ((h'.frame p').get? name) := by
  obtain ⟨hlt, hlt', hlook⟩ := hp.frames hr
  exact ⟨hlt, hlt', fun name hname =>
    optionRel_imp (hlook name (mt (hcovered name) hname)) fun _ _ hb => hb.mono hidden hw⟩

end Mono

theorem newArray {xs xs' : Array Value} (hxs : (paired hidden).Rows w xs.toList xs'.toList) :
    ∃ w', w ≤ w' ∧ (paired hidden).Values w' (h.newArray xs).1 (h'.newArray xs').1
      ∧ Paired hidden w' (h.newArray xs).2 (h'.newArray xs').2 := by
  let w' := w.withArray h h' fun hr => ⟨(hp.arrays hr).1, (hp.arrays hr).2.1⟩
  have hw : w ≤ w' := ⟨.inl, id, id, id, id, fun _ h => h, id⟩
  have hsize : (h.newArray xs).2.arrays.size = h.arrays.size + 1 := Array.size_push _
  have hsize' : (h'.newArray xs').2.arrays.size = h'.arrays.size + 1 := Array.size_push _
  refine ⟨w', hw, .array (.inr ⟨rfl, rfl⟩), ?_, hp.objects_mono hw, hp.secrets_mono hw,
    fun hr => hp.frames_mono hw hr fun _ h => h, hp.natives, hp.bound⟩
  rintro p p' (hr | ⟨rfl, rfl⟩)
  · obtain ⟨hlt, hlt', hrows⟩ := hp.arrays_mono hw hr
    rw [hsize, hsize', Heap.items_newArray, Heap.items_newArray, if_neg hlt.ne, if_neg hlt'.ne]
    exact ⟨Nat.lt_succ_of_lt hlt, Nat.lt_succ_of_lt hlt', hrows⟩
  · rw [hsize, hsize', Heap.items_newArray, Heap.items_newArray, if_pos rfl, if_pos rfl]
    exact ⟨Nat.lt_succ_self _, Nat.lt_succ_self _, Kinship.Rows.mono (K := paired hidden) hw hxs⟩

theorem newObject {ms ms' : Roster Value} (hms : (paired hidden).Named w ms.entries ms'.entries) :
    ∃ w', w ≤ w' ∧ (paired hidden).Values w' (h.newObject ms).1 (h'.newObject ms').1
      ∧ Paired hidden w' (h.newObject ms).2 (h'.newObject ms').2 := by
  let w' := w.withObject h h' (fun hr => ⟨(hp.objects hr).1, (hp.objects hr).2.1⟩)
    fun hr => ⟨(hp.secrets hr).1, (hp.secrets hr).2.1⟩
  have hw : w ≤ w' := ⟨id, .inl, id, id, id, fun _ h => h, id⟩
  have hsize : (h.newObject ms).2.objects.size = h.objects.size + 1 := Array.size_push _
  have hsize' : (h'.newObject ms').2.objects.size = h'.objects.size + 1 := Array.size_push _
  refine ⟨w', hw, .object (.inr ⟨rfl, rfl⟩), hp.arrays_mono hw, ?_, ?_,
    fun hr => hp.frames_mono hw hr fun _ h => h, hp.natives, hp.bound⟩
  · rintro p p' (hr | ⟨rfl, rfl⟩)
    · obtain ⟨hlt, hlt', hnamed⟩ := hp.objects_mono hw hr
      rw [hsize, hsize', Heap.members_newObject, Heap.members_newObject, if_neg hlt.ne,
        if_neg hlt'.ne]
      exact ⟨Nat.lt_succ_of_lt hlt, Nat.lt_succ_of_lt hlt', hnamed⟩
    · rw [hsize, hsize', Heap.members_newObject, Heap.members_newObject, if_pos rfl, if_pos rfl]
      exact ⟨Nat.lt_succ_self _, Nat.lt_succ_self _, Kinship.Named.mono (K := paired hidden) hw hms⟩
  · intro p p' hr
    obtain ⟨hlt, hlt', hlook⟩ := hp.secrets_mono hw hr
    rw [hsize, hsize', Heap.members_newObject, Heap.members_newObject, if_neg hlt.ne,
      if_neg hlt'.ne]
    exact ⟨Nat.lt_succ_of_lt hlt, Nat.lt_succ_of_lt hlt', hlook⟩

/-- Objects for scopes to open, with members that are the same under all names but the hidden
ones. -/
theorem newSecret {ms ms' : Roster Value} (hms : ∀ name, ¬ hidden name →
      Option.Rel ((paired hidden).Values w) (ms.get? name) (ms'.get? name)) :
    ∃ w', w ≤ w' ∧ w'.secrets h.objects.size h'.objects.size
      ∧ Paired hidden w' (h.newObject ms).2 (h'.newObject ms').2 := by
  let w' := w.withSecret h h' (fun hr => ⟨(hp.objects hr).1, (hp.objects hr).2.1⟩)
    fun hr => ⟨(hp.secrets hr).1, (hp.secrets hr).2.1⟩
  have hw : w ≤ w' := ⟨id, id, .inl, id, id, fun _ h => h, id⟩
  have hsize : (h.newObject ms).2.objects.size = h.objects.size + 1 := Array.size_push _
  have hsize' : (h'.newObject ms').2.objects.size = h'.objects.size + 1 := Array.size_push _
  refine ⟨w', hw, .inr ⟨rfl, rfl⟩, hp.arrays_mono hw, ?_, ?_,
    fun hr => hp.frames_mono hw hr fun _ h => h, hp.natives, hp.bound⟩
  · intro p p' hr
    obtain ⟨hlt, hlt', hnamed⟩ := hp.objects_mono hw hr
    rw [hsize, hsize', Heap.members_newObject, Heap.members_newObject, if_neg hlt.ne,
      if_neg hlt'.ne]
    exact ⟨Nat.lt_succ_of_lt hlt, Nat.lt_succ_of_lt hlt', hnamed⟩
  · rintro p p' (hr | ⟨rfl, rfl⟩)
    · obtain ⟨hlt, hlt', hlook⟩ := hp.secrets_mono hw hr
      rw [hsize, hsize', Heap.members_newObject, Heap.members_newObject, if_neg hlt.ne,
        if_neg hlt'.ne]
      exact ⟨Nat.lt_succ_of_lt hlt, Nat.lt_succ_of_lt hlt', hlook⟩
    · rw [hsize, hsize', Heap.members_newObject, Heap.members_newObject, if_pos rfl, if_pos rfl]
      exact ⟨Nat.lt_succ_self _, Nat.lt_succ_self _, fun name hname =>
        optionRel_imp (hms name hname) fun _ _ hv => hv.mono (K := paired hidden) hw⟩

/-- Frames with variables that are the same under all names but some. -/
theorem pushFrame (differing own : String → Prop) {b b' : Roster Binding}
    (hb : ∀ name, ¬ differing name →
      Option.Rel (PairedBindings hidden w) (b.get? name) (b'.get? name))
    (hown : ∀ name, own name → ¬ differing name ∧ (b.get? name).isSome) :
    ∃ w', w ≤ w' ∧ w'.frames h.frames.size h'.frames.size
      ∧ Paired hidden w' (h.pushFrame b) (h'.pushFrame b')
      ∧ (∀ name, w'.covered h.frames.size name → differing name)
      ∧ ∀ name, own name → w'.bound h.frames.size name := by
  let w' := w.withFrame h h' differing own fun hr => ⟨(hp.frames hr).1, (hp.frames hr).2.1⟩
  have hold {p : Nat} (hlt : p < h.frames.size) (name : String) :
      w'.covered p name ↔ w.covered p name := by
    show (if p = h.frames.size then _ else _) ↔ _
    rw [if_neg hlt.ne]
  have hnew (name : String) : w'.covered h.frames.size name ↔ differing name := by
    show (if h.frames.size = h.frames.size then _ else _) ↔ _
    rw [if_pos rfl]
  have hw : w ≤ w' :=
    ⟨id, id, id, .inl, id, fun hr => (hold (hp.frames hr).1 _).mp, .inl⟩
  have hsize : (h.pushFrame b).frames.size = h.frames.size + 1 := Array.size_push _
  have hsize' : (h'.pushFrame b').frames.size = h'.frames.size + 1 := Array.size_push _
  refine ⟨w', hw, .inr ⟨rfl, rfl⟩, ⟨hp.arrays_mono hw, hp.objects_mono hw, hp.secrets_mono hw, ?_,
    hp.natives, ?_⟩, fun name => (hnew name).mp, fun name hname => .inr ⟨rfl, hname⟩⟩
  · rintro p p' (hr | ⟨rfl, rfl⟩)
    · obtain ⟨hlt, hlt', hlook⟩ := hp.frames_mono hw hr fun name => (hold (hp.frames hr).1 name).mpr
      rw [hsize, hsize', Heap.frame_pushFrame, Heap.frame_pushFrame, if_neg hlt.ne, if_neg hlt'.ne]
      exact ⟨Nat.lt_succ_of_lt hlt, Nat.lt_succ_of_lt hlt', hlook⟩
    · rw [hsize, hsize', Heap.frame_pushFrame, Heap.frame_pushFrame, if_pos rfl, if_pos rfl]
      exact ⟨Nat.lt_succ_self _, Nat.lt_succ_self _, fun name hname =>
        optionRel_imp (hb name (mt (hnew name).mpr hname)) fun _ _ hbb => hbb.mono hidden hw⟩
  · rintro p name (hbound | ⟨rfl, hname⟩)
    · obtain ⟨hopen, hsome⟩ := hp.bound hbound
      have hlt : p < h.frames.size := by
        by_contra hge
        rw [Heap.frame, Array.getD_eq_getD_getElem?,
          Array.getElem?_eq_none (not_lt.mp hge)] at hsome
        cases hsome
      rw [Heap.frame_pushFrame, if_neg hlt.ne]
      exact ⟨mt (hold hlt name).mp hopen, hsome⟩
    · rw [Heap.frame_pushFrame, if_pos rfl]
      exact ⟨mt (hnew name).mp (hown name hname).1, (hown name hname).2⟩

theorem newFrame : ∃ w', w ≤ w' ∧ w'.Links h.newFrame.1 h'.newFrame.1
    ∧ Paired hidden w' h.newFrame.2 h'.newFrame.2
    ∧ (∀ name, ¬ w'.covered h.frames.size name) := by
  have hb (name : String) : Option.Rel (PairedBindings hidden w)
      ((Roster.empty : Roster Binding).get? name)
      ((Roster.empty : Roster Binding).get? name) := .none
  obtain ⟨w', hw, hlink, hpaired, hopen, -⟩ := hp.pushFrame (fun _ => False) (fun _ => False)
    (fun name _ => hb name) nofun
  exact ⟨w', hw, .locals hlink, hpaired, hopen⟩

theorem newNative (name : String) (code : Native) :
    ∃ w', w ≤ w' ∧ (paired hidden).Values w' (h.newNative name code).1 (h'.newNative name code).1
      ∧ Paired hidden w' (h.newNative name code).2 (h'.newNative name code).2 := by
  let w' := w.withNative h h' fun hr => hp.natives hr 0
  have hw : w ≤ w' := ⟨id, id, id, id, .inl, fun _ h => h, id⟩
  refine ⟨w', hw, .native name code (.inr ⟨rfl, rfl⟩), hp.arrays_mono hw, hp.objects_mono hw,
    hp.secrets_mono hw, fun hr => hp.frames_mono hw hr fun _ h => h, ?_, hp.bound⟩
  rintro i i' (hr | ⟨rfl, rfl⟩) n
  · show i = h.identities + 1 + n ↔ i' = h'.identities + 1 + n
    rw [Nat.add_assoc, Nat.add_assoc]
    exact hp.natives hr (1 + n)
  · show h.identities = h.identities + 1 + n ↔ h'.identities = h'.identities + 1 + n
    omega

/-! #### Names -/

theorem linkValue {l l' : Link} (hl : w.Links l l') {name : String}
    (hopen : ¬ w.Veils hidden name l) :
    Option.Rel ((paired hidden).Values w) (h.linkValue? name l) (h'.linkValue? name l') := by
  cases hl with
  | none guarded => exact .none
  | members guarded hr => exact forall₂_lookupName (hp.members hr) name
  | secret guarded hr =>
    exact (hp.secrets hr).2.2 name fun hname => hopen (.secret guarded hr hname)
  | @locals p p' hr =>
    have hget := (hp.frames hr).2.2 name fun hcovered => hopen (.covered hcovered)
    simp only [Heap.linkValue?]
    generalize (h.frame p).get? name = b at hget ⊢
    generalize (h'.frame p').get? name = b' at hget ⊢
    cases hget with
    | some hb => exact .some hb.1
    | none => exact .none

/-- A frame that has a name shows the same under it. -/
theorem linkValue_bound {p : Nat} {l' : Link} (hl : w.Links (.locals p) l') {name : String}
    (hb : w.bound p name) : ∃ v v', h.linkValue? name (.locals p) = some v
      ∧ h'.linkValue? name l' = some v' ∧ (paired hidden).Values w v v'
      ∧ ¬ w.Veils hidden name (.locals p) := by
  obtain ⟨hopen, hsome⟩ := hp.bound hb
  have hveils : ¬ w.Veils hidden name (.locals p) := by
    rintro ⟨h⟩
    exact hopen h
  have hrel := hp.linkValue hl hveils
  obtain ⟨b, hb⟩ := Option.isSome_iff_exists.mp hsome
  have hvalue : h.linkValue? name (.locals p) = some b.value := by
    rw [Heap.linkValue?, hb]
    rfl
  rw [hvalue] at hrel
  generalize h'.linkValue? name l' = v' at hrel ⊢
  cases hrel with
  | some hv => exact ⟨_, _, hvalue, rfl, hv, hveils⟩

theorem find {scope scope' : Scope} (hs : List.Forall₂ w.Links scope scope') {name : String}
    (hshows : w.Shows hidden name scope) :
    Option.Rel ((paired hidden).Values w) (h.find? name scope) (h'.find? name scope') := by
  induction hshows generalizing scope' with
  | nil =>
    cases hs
    exact .none
  | bound hb =>
    cases hs with
    | cons hl _ =>
      obtain ⟨v, v', hv, hv', hvalues, -⟩ := hp.linkValue_bound hl hb
      simp only [Heap.find?, List.findSome?_cons, hv, hv']
      exact .some hvalues
  | @cons l _ hopen _ ih =>
    cases hs with
    | @cons _ l' _ _ hl hs =>
      have hvalue := hp.linkValue hl hopen
      simp only [Heap.find?, List.findSome?_cons]
      generalize h.linkValue? name l = a at hvalue ⊢
      generalize h'.linkValue? name l' = a' at hvalue ⊢
      cases hvalue with
      | some hv => exact .some hv
      | none => exact ih hs

/-- The link that has a name, if the scope shows the same under it. -/
theorem holder {scope scope' : Scope} (hs : List.Forall₂ w.Links scope scope') {name : String}
    (hshows : w.Shows hidden name scope) :
    Option.Rel (fun l l' => w.Links l l' ∧ ¬ w.Veils hidden name l) (h.holder? name scope)
      (h'.holder? name scope') := by
  induction hshows generalizing scope' with
  | nil =>
    cases hs
    exact .none
  | bound hb =>
    cases hs with
    | cons hl _ =>
      obtain ⟨v, v', hv, hv', -, hopen⟩ := hp.linkValue_bound hl hb
      simp only [Heap.holder?, List.find?_cons, ← Heap.isSome_linkValue?, hv, hv',
        Option.isSome_some]
      exact .some ⟨hl, hopen⟩
  | @cons l _ hopen _ ih =>
    cases hs with
    | @cons _ l' _ _ hl hs =>
      have hvalue := hp.linkValue hl hopen
      rw [Heap.holder?, Heap.holder?, List.find?_cons, List.find?_cons, ← Heap.isSome_linkValue?,
        ← Heap.isSome_linkValue?]
      generalize h.linkValue? name l = a at hvalue ⊢
      generalize h'.linkValue? name l' = a' at hvalue ⊢
      cases hvalue with
      | some _ => exact .some ⟨hl, hopen⟩
      | none => exact ih hs

theorem assignAt {l l' : Link} (hl : w.Links l l') {name : String}
    (hopen : ¬ w.Veils hidden name l) {v v' : Value} (hv : (paired hidden).Values w v v') :
    (h.assignAt name v l).1 = (h'.assignAt name v' l').1
      ∧ Paired hidden w (h.assignAt name v l).2 (h'.assignAt name v' l').2 := by
  cases hl with
  | none guarded => exact ⟨rfl, hp⟩
  | members guarded hr => exact ⟨rfl, hp.setMember hr name hv⟩
  | secret guarded hr => exact ⟨rfl, hp.setSecret hr name hv⟩
  | @locals p p' hr =>
    have hget := (hp.frames hr).2.2 name fun hcovered => hopen (.covered hcovered)
    simp only [Heap.assignAt]
    generalize (h.frame p).get? name = b at hget ⊢
    generalize (h'.frame p').get? name = b' at hget ⊢
    cases hget with
    | none => exact ⟨rfl, hp⟩
    | @some b b' hbb =>
      simp only [hbb.2]
      split
      · exact ⟨rfl, hp.setLocal hr name ⟨hv, rfl⟩⟩
      · exact ⟨rfl, hp⟩

theorem assign {scope scope' : Scope} (hs : List.Forall₂ w.Links scope scope') {name : String}
    (hshows : w.Shows hidden name scope) {v v' : Value} (hv : (paired hidden).Values w v v') :
    (h.assign name v scope).1 = (h'.assign name v' scope').1
      ∧ Paired hidden w (h.assign name v scope).2 (h'.assign name v' scope').2 := by
  have hholder := hp.holder hs hshows
  simp only [Heap.assign]
  generalize h.holder? name scope = a at hholder ⊢
  generalize h'.holder? name scope' = a' at hholder ⊢
  cases hholder with
  | none => exact ⟨rfl, hp⟩
  | some hl => exact hp.assignAt hl.1 hl.2 hv

end Paired

/-! ### The likeness is lawful -/

/-- Heaps that hold the same at paired places are alike.  What else runs keep in the two stores is
related in a way that has nothing to do with the heaps. -/
def pairing (kept : Store → Store → Prop) : Likeness where
  toKinship := paired hidden
  heaps := Paired hidden
  stores w s s' := Paired hidden w s.heap s'.heap
    ∧ ∀ h h', kept { s with heap := h } { s' with heap := h' }
  excused _ := False
  knot _ := True

theorem Pairing.Links.isGuarded_eq {w : Pairing} {scope scope' : Scope}
    (hs : List.Forall₂ w.Links scope scope') : scope.isGuarded = scope'.isGuarded := by
  induction hs with
  | nil => rfl
  | cons hl _ ih =>
    simp only [Scope.isGuarded, List.any_cons] at ih ⊢
    rw [ih]
    cases hl <;> rfl

variable {hidden}

/-- What opens a value that is the same on both sides differs under no name. -/
theorem Pairing.not_veils_openedLink {w : Pairing} {v v' : Value}
    (hv : (paired hidden).Values w v v') (guarded : Bool) (name : String) :
    ¬ w.Veils hidden name (openedLink v guarded) := by
  intro h
  cases hv with
  | object hr =>
    cases h with
    | secret _ hq _ => exact (w.apart hr hq).1 rfl
  | undefined | null | bool | number | text | array | native | closure => cases h

instance (kept : Store → Store → Prop) : (pairing hidden kept).Lawful where
  guard hs := .inl (Pairing.Links.isGuarded_eq hs)
  shows_nil _ _ _ _ := .nil
  opened guarded hv := by
    cases hv with
    | object hr => exact Pairing.Links.members guarded hr
    | _ => exact Pairing.Links.none guarded
  shows_opened guarded hv hs name hname :=
    .cons (Pairing.not_veils_openedLink hv guarded name) (hs name hname)
  heaps_of_stores h := h.1
  stores_put _ h hp := ⟨hp, h.2⟩
  items hp hr := Paired.items hp hr
  putItems hp hr hxs := Paired.putItems hp hr hxs
  newArray hp hxs := Paired.newArray hp hxs
  members hp hr := Paired.members hp hr
  setMember name hp hr hv := Paired.setMember hp hr name hv
  newObject hp hms := Paired.newObject hp hms
  newFrame hp := by
    obtain ⟨w', hw, hl, hp', hopen⟩ := Paired.newFrame hp
    refine ⟨w', hw, hl, hp', fun names scope hs name hname => .cons ?_ (hs name hname)⟩
    rintro ⟨h⟩
    exact hopen name h
  newNative name code hp := Paired.newNative hp name code
  find hp hs hname := Paired.find hp hs.scopes (hs.shows _ hname)
  assign hp hs hname hv := Paired.assign hp hs.scopes (hs.shows _ hname) hv
  declare {w h h' scope scope' v v'} name changeable hp hs hv := by
    cases hs with
    | nil => exact hp
    | cons hl _ =>
      cases hl with
      | none guarded => exact hp
      | members guarded hr => exact hp
      | secret guarded hr => exact hp
      | locals hr => exact Paired.setLocal hp hr name ⟨hv, rfl⟩
  display hp hv := ⟨Paired.display_eq hp hv, fun _ => trivial⟩
  toJson hp hv := ⟨Paired.toJson_eq hp hv, fun _ => trivial⟩

end Stencil.Routine
