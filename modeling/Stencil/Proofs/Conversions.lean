import Mathlib.Data.Finset.Card
import Stencil.Proofs.LikeSteps

/-!
# Conversions of values that are taken as the same

The text and the JSON value of a value are found from what it holds, as deep as the heap has arrays
and objects.  Values that hold the same become the same, whatever else their heaps hold.

* `eq_of_count_le` — partial answers that grow come to an end after as many steps as there are
  questions, so texts and JSON values do not depend on how much else there is in a heap;
* `Heap.Closed` — a collection of values that holds what its values hold;
* `Kinship.Values.display_eq`, `Kinship.Values.toJson_eq` — values that hold the same have the same
  text and the same JSON value.
-/

namespace Stencil.Routine

/-! ### Partial answers that grow -/

theorem mapM_eq_of_forall₂ {α β γ : Type} {R : α → β → Prop} {xs : List α} {ys : List β}
    (h : List.Forall₂ R xs ys) {f : α → Option γ} {g : β → Option γ}
    (hfg : ∀ a b, R a b → f a = g b) : xs.mapM f = ys.mapM g := by
  induction h with
  | nil => rfl
  | cons hc _ ih => rw [List.mapM_cons, List.mapM_cons, hfg _ _ hc, ih]

theorem mapM_congr_of_mem {α β : Type} {f g : α → Option β} {as : List α}
    (h : ∀ a ∈ as, f a = g a) : as.mapM f = as.mapM g :=
  mapM_eq_of_forall₂ (R := fun a b => f a = g b) (List.forall₂_same.mpr h) fun _ _ h => h

theorem mapM_some_of {α β : Type} {f g : α → Option β} {as : List α} {bs : List β}
    (h : as.mapM f = some bs) (hfg : ∀ a ∈ as, ∀ b, f a = some b → g a = some b) :
    as.mapM g = some bs := by
  induction as generalizing bs with
  | nil => exact h
  | cons a as ih =>
    rw [List.mapM_cons] at h ⊢
    cases ha : f a with
    | none =>
      rw [ha] at h
      cases h
    | some b =>
      cases has : as.mapM f with
      | none =>
        rw [ha, has] at h
        cases h
      | some rest =>
        rw [ha, has] at h
        rw [hfg a List.mem_cons_self b ha,
          ih has fun a' ha' => hfg a' (List.mem_cons_of_mem a ha')]
        exact h

section Growing

variable {α β : Type} {P : α → Prop} {g : Nat → α → Option β} {count : Nat} {q : Nat → α}

open Classical in
/-- Those of so many questions that are answered at a bound. -/
noncomputable def answered (P : α → Prop) (g : Nat → α → Option β) (count : Nat) (q : Nat → α)
    (b : Nat) : Finset Nat :=
  (Finset.range count).filter fun i => P (q i) ∧ (g b (q i)).isSome

theorem mem_answered {b i : Nat} :
    i ∈ answered P g count q b ↔ i < count ∧ P (q i) ∧ (g b (q i)).isSome := by
  classical
  rw [answered, Finset.mem_filter, Finset.mem_range]

variable (hq : ∀ a, P a → (∃ i < count, a = q i) ∨ ∀ b, g b a = g (b + 1) a)
  (hkeep : ∀ b a t, P a → g b a = some t → g (b + 1) a = some t)

include hkeep in
/-- A question whose answer changes is answered from then on. -/
theorem answered_ssubset {b i : Nat} (hi : i < count) (ha : P (q i))
    (hne : g b (q i) ≠ g (b + 1) (q i)) :
    answered P g count q b ⊂ answered P g count q (b + 1) := by
  have hnone : g b (q i) = none := by
    by_contra hsome
    obtain ⟨t, ht⟩ := Option.ne_none_iff_exists'.mp hsome
    exact hne (ht.trans (hkeep b _ t ha ht).symm)
  have hsome : (g (b + 1) (q i)).isSome := by
    rw [Option.isSome_iff_ne_none]
    exact fun h => hne (hnone.trans h.symm)
  refine (Finset.ssubset_iff_of_subset fun j hj => ?_).mpr ⟨i, ?_, ?_⟩
  · obtain ⟨hrange, hin, hj⟩ := mem_answered.mp hj
    obtain ⟨t, ht⟩ := Option.isSome_iff_exists.mp hj
    exact mem_answered.mpr ⟨hrange, hin, by rw [hkeep b _ t hin ht]; rfl⟩
  · exact mem_answered.mpr ⟨hi, ha, hsome⟩
  · intro hmem
    have hthere := (mem_answered.mp hmem).2.2
    rw [hnone] at hthere
    cases hthere

include hq hkeep

/-- As long as some answer changes, one more question is answered at each bound. -/
theorem steady_or_le_card (b : Nat) :
    (∃ c ≤ b, ∀ a, P a → g c a = g (c + 1) a) ∨ b ≤ (answered P g count q b).card := by
  induction b with
  | zero => exact .inr (Nat.zero_le _)
  | succ b ih =>
    rcases ih with ⟨c, hc, hsame⟩ | hle
    · exact .inl ⟨c, hc.trans (Nat.le_succ b), hsame⟩
    by_cases hsame : ∀ a, P a → g b a = g (b + 1) a
    · exact .inl ⟨b, Nat.le_succ b, hsame⟩
    push Not at hsame
    obtain ⟨a, ha, hne⟩ := hsame
    obtain ⟨i, hi, rfl⟩ := (hq a ha).resolve_right fun h => hne (h b)
    exact .inr (Nat.succ_le_of_lt
      (hle.trans_lt (Finset.card_lt_card (answered_ssubset hkeep hi ha hne))))

/-- At some bound no answer changes, since there are only so many questions. -/
theorem exists_steady : ∃ c ≤ count, ∀ a, P a → g c a = g (c + 1) a := by
  rcases steady_or_le_card hq hkeep count with hstill | hle
  · exact hstill
  -- All questions are answered.
  refine ⟨count, le_rfl, fun a ha => ?_⟩
  rcases hq a ha with ⟨i, hi, rfl⟩ | hflat
  · have hall : answered P g count q count = Finset.range count :=
      Finset.eq_of_subset_of_card_le
        (fun j hj => Finset.mem_range.mpr (mem_answered.mp hj).1)
        ((Finset.card_range count).le.trans hle)
    have hmem : i ∈ answered P g count q count := hall ▸ Finset.mem_range.mpr hi
    obtain ⟨t, ht⟩ := Option.isSome_iff_exists.mp (mem_answered.mp hmem).2.2
    rw [ht, hkeep count _ t ha ht]
  · exact hflat count

/-- **Growing answers come to rest.**  Questions are asked again and again, with a larger bound each
time; an answer that was given stays, and where no answer changes from one bound to the next, none
ever will.  All but so many questions are answered alike at every bound.  Then nothing changes
beyond that bound. -/
theorem eq_of_count_le
    (hrest : ∀ b, (∀ a, P a → g b a = g (b + 1) a) → ∀ a, P a → g (b + 1) a = g (b + 2) a)
    {bound : Nat} (hbound : count ≤ bound) {a : α} (ha : P a) : g bound a = g count a := by
  obtain ⟨c, hc, hsame⟩ := exists_steady hq hkeep
  have hafter (n : Nat) : ∀ a, P a → g (c + n) a = g (c + n + 1) a := by
    induction n with
    | zero => exact hsame
    | succ n ih => exact hrest (c + n) ih
  have hfixed (n : Nat) : g (c + n) a = g c a := by
    induction n with
    | zero => rfl
    | succ n ih => exact (hafter n a ha).symm.trans ih
  obtain ⟨m, rfl⟩ := Nat.exists_eq_add_of_le hc
  obtain ⟨n, rfl⟩ := Nat.exists_eq_add_of_le hbound
  rw [hfixed m, Nat.add_assoc, hfixed (m + n)]

end Growing

namespace Heap

/-- A text stays the same with a larger bound. -/
theorem displayWithin_succ (h : Heap) {bound : Nat} {v : Value} {t : String}
    (ht : h.displayWithin bound v = some t) : h.displayWithin (bound + 1) v = some t := by
  induction bound generalizing v t with
  | zero =>
    cases v with
    | array place => cases ht
    | undefined | null | bool | number | text | object | native | closure => exact ht
  | succ bound ih =>
    cases v with
    | array place =>
      rw [displayWithin] at ht ⊢
      cases htexts : (h.items place).toList.mapM
          fun v => if v.isNullish then some "" else h.displayWithin bound v with
      | none =>
        rw [htexts] at ht
        cases ht
      | some texts =>
        rw [htexts] at ht
        rw [mapM_some_of (g := fun v => if v.isNullish then some "" else
          h.displayWithin (bound + 1) v) htexts fun v _ t ht => ?_]
        · exact ht
        · split
          · rwa [if_pos ‹_›] at ht
          · rw [if_neg ‹_›] at ht
            exact ih ht
    | undefined | null | bool | number | text | object | native | closure => exact ht

/-- A JSON value stays the same with a larger bound. -/
theorem toJsonWithin_succ (h : Heap) {bound : Nat} {v : Value} {j : Option Json}
    (hj : h.toJsonWithin bound v = some j) : h.toJsonWithin (bound + 1) v = some j := by
  induction bound generalizing v j with
  | zero =>
    cases v with
    | array place => cases hj
    | object place => cases hj
    | undefined | null | bool | number | text | native | closure => exact hj
  | succ bound ih =>
    cases v with
    | array place =>
      rw [toJsonWithin] at hj ⊢
      obtain ⟨items, hitems, hj⟩ := Option.bind_eq_some_iff.mp hj
      refine Option.bind_eq_some_iff.mpr ⟨items, mapM_some_of hitems fun v _ t ht => ?_, hj⟩
      obtain ⟨j, hv, ht⟩ := Option.bind_eq_some_iff.mp ht
      exact Option.bind_eq_some_iff.mpr ⟨j, ih hv, ht⟩
    | object place =>
      rw [toJsonWithin] at hj ⊢
      obtain ⟨members, hmembers, hj⟩ := Option.bind_eq_some_iff.mp hj
      refine Option.bind_eq_some_iff.mpr ⟨members, mapM_some_of hmembers fun e _ t ht => ?_, hj⟩
      obtain ⟨name, v⟩ := e
      obtain ⟨j, hv, ht⟩ := Option.bind_eq_some_iff.mp ht
      exact Option.bind_eq_some_iff.mpr ⟨j, ih hv, ht⟩
    | undefined | null | bool | number | text | native | closure => exact hj

/-! ### Closed collections -/

/-- A collection of values that holds what its values hold. -/
structure Closed (h : Heap) (P : Value → Prop) : Prop where
  items {place : Nat} : P (.array place) → ∀ v ∈ (h.items place).toList, P v
  members {place : Nat} : P (.object place) → ∀ e ∈ (h.members place).entries, P e.2

namespace Closed

variable {h : Heap} {P : Value → Prop} (hP : h.Closed P)
include hP

/-- The texts of a closed collection go no deeper than it has arrays. -/
theorem displayWithin_eq {count : Nat} {q : Nat → Nat}
    (hq : ∀ place, P (.array place) → ∃ i < count, place = q i) {bound : Nat}
    (hbound : count ≤ bound) {v : Value} (hv : P v) :
    h.displayWithin bound v = h.displayWithin count v := by
  refine eq_of_count_le (g := h.displayWithin) (q := fun i => .array (q i)) ?_
    (fun b v t _ => h.displayWithin_succ) ?_ hbound hv
  · intro v hv
    cases v with
    | array place =>
      obtain ⟨i, hi, rfl⟩ := hq place hv
      exact .inl ⟨i, hi, rfl⟩
    | undefined | null | bool | number | text | object | native | closure =>
      exact .inr fun b => by cases b <;> rfl
  · intro b hsame v hv
    cases v with
    | array place =>
      have htexts := mapM_congr_of_mem
        (f := fun v => if v.isNullish then some "" else h.displayWithin b v)
        (g := fun v => if v.isNullish then some "" else h.displayWithin (b + 1) v)
        fun v hmem => by rw [hsame v (hP.items hv v hmem)]
      simp only [displayWithin, htexts]
    | undefined | null | bool | number | text | object | native | closure => rfl

/-- The JSON values of a closed collection go no deeper than it has arrays and objects. -/
theorem toJsonWithin_eq {arrays objects : Nat} {q q' : Nat → Nat}
    (hq : ∀ place, P (.array place) → ∃ i < arrays, place = q i)
    (hq' : ∀ place, P (.object place) → ∃ i < objects, place = q' i) {bound : Nat}
    (hbound : arrays + objects ≤ bound) {v : Value} (hv : P v) :
    h.toJsonWithin bound v = h.toJsonWithin (arrays + objects) v := by
  refine eq_of_count_le (g := h.toJsonWithin)
    (q := fun i => if i < arrays then .array (q i) else .object (q' (i - arrays))) ?_
    (fun b v t _ => h.toJsonWithin_succ) ?_ hbound hv
  · intro v hv
    cases v with
    | array place =>
      obtain ⟨i, hi, rfl⟩ := hq place hv
      exact .inl ⟨i, by omega, (if_pos hi).symm⟩
    | object place =>
      obtain ⟨i, hi, rfl⟩ := hq' place hv
      refine .inl ⟨arrays + i, by omega, ?_⟩
      rw [if_neg (by omega), Nat.add_sub_cancel_left]
    | undefined | null | bool | number | text | native | closure =>
      exact .inr fun b => by cases b <;> rfl
  · intro b hsame v hv
    cases v with
    | array place =>
      have hitems := mapM_congr_of_mem
        (f := fun v => do return (← h.toJsonWithin b v).getD .null)
        (g := fun v => do return (← h.toJsonWithin (b + 1) v).getD .null)
        fun v hmem => by rw [hsame v (hP.items hv v hmem)]
      simp only [toJsonWithin, hitems]
    | object place =>
      rw [toJsonWithin, toJsonWithin, mapM_congr_of_mem]
      intro e hmem
      simp only [hsame e.2 (hP.members hv e hmem)]
    | undefined | null | bool | number | text | native | closure => rfl

end Closed

end Heap

/-! ### Values that hold the same -/

/-- Places that are taken as the same, numbered on both sides. -/
structure Counted (R : Nat → Nat → Prop) (count count' : Nat) (q q' : Nat → Nat) : Prop where
  left {p p' : Nat} : R p p' → ∃ i < count, p = q i
  right {p p' : Nat} : R p p' → ∃ i < count', p' = q' i

namespace Kinship

variable {K : Kinship} {w : K.Stage} {h h' : Heap}

section Items

variable (hitems : ∀ {p p'}, K.array w p p' → K.Rows w (h.items p).toList (h'.items p').toList)
include hitems

theorem displayWithin_eq (bound : Nat) {v v' : Value} (hv : K.Values w v v') :
    h.displayWithin bound v = h'.displayWithin bound v' := by
  induction bound generalizing v v' with
  | zero => cases hv <;> rfl
  | succ bound ih =>
    cases hv with
    | @array place place' hp =>
      have htexts := mapM_eq_of_forall₂ (hitems hp)
        (f := fun v => if v.isNullish then some "" else h.displayWithin bound v)
        (g := fun v => if v.isNullish then some "" else h'.displayWithin bound v)
        (fun v v' hv => by rw [hv.isNullish_eq, ih hv])
      simp only [Heap.displayWithin, htexts]
    | _ => rfl

variable (hmembers : ∀ {p p'}, K.object w p p' →
  K.Named w (h.members p).entries (h'.members p').entries)
include hmembers

theorem toJsonWithin_eq (bound : Nat) {v v' : Value} (hv : K.Values w v v') :
    h.toJsonWithin bound v = h'.toJsonWithin bound v' := by
  induction bound generalizing v v' with
  | zero => cases hv <;> rfl
  | succ bound ih =>
    cases hv with
    | @array place place' hp =>
      have hsame := mapM_eq_of_forall₂ (hitems hp)
        (f := fun v => do return (← h.toJsonWithin bound v).getD .null)
        (g := fun v => do return (← h'.toJsonWithin bound v).getD .null)
        (fun v v' hv => by rw [ih hv])
      simp only [Heap.toJsonWithin, hsame]
    | @object place place' hp =>
      rw [Heap.toJsonWithin, Heap.toJsonWithin, mapM_eq_of_forall₂ (hmembers hp)]
      rintro ⟨name, v⟩ ⟨name', v'⟩ ⟨rfl, hv⟩
      simp only [ih hv]
    | _ => rfl

/-- What is taken as the same holds only what is taken as the same. -/
theorem closed_left : h.Closed fun v => ∃ v', K.Values w v v' where
  items := by
    rintro place ⟨_, hv⟩ v hmem
    cases hv with
    | array hp =>
      obtain ⟨i, hi, rfl⟩ := List.getElem_of_mem hmem
      have hrows := hitems hp
      exact ⟨_, hrows.get hi (hrows.length_eq ▸ hi)⟩
  members := by
    rintro place ⟨_, hv⟩ e hmem
    cases hv with
    | object hp =>
      obtain ⟨i, hi, rfl⟩ := List.getElem_of_mem hmem
      have hnamed := hmembers hp
      exact ⟨_, (hnamed.get hi (hnamed.length_eq ▸ hi)).2⟩

theorem closed_right : h'.Closed fun v' => ∃ v, K.Values w v v' where
  items := by
    rintro place ⟨_, hv⟩ v hmem
    cases hv with
    | array hp =>
      obtain ⟨i, hi, rfl⟩ := List.getElem_of_mem hmem
      have hrows := hitems hp
      exact ⟨_, hrows.get (hrows.length_eq ▸ hi) hi⟩
  members := by
    rintro place ⟨_, hv⟩ e hmem
    cases hv with
    | object hp =>
      obtain ⟨i, hi, rfl⟩ := List.getElem_of_mem hmem
      have hnamed := hmembers hp
      exact ⟨_, (hnamed.get (hnamed.length_eq ▸ hi) hi).2⟩

variable {arrays arrays' objects objects' : Nat} {q q' o o' : Nat → Nat}
  (harrays : Counted (K.array w) arrays arrays' q q')
include harrays

/-- **Values that hold the same have the same text**, if the heaps have as many arrays. -/
theorem Values.display_eq {v v' : Value} (hv : K.Values w v v') (hle : arrays ≤ h.arrays.size)
    (hle' : arrays' ≤ h'.arrays.size) : h.display v = h'.display v' := by
  have hleft {n : Nat} (hn : arrays ≤ n) : h.displayWithin n v = h.displayWithin arrays v :=
    (closed_left hitems hmembers).displayWithin_eq (fun _ ⟨_, .array hp⟩ => harrays.left hp) hn
      ⟨v', hv⟩
  have hright {n : Nat} (hn : arrays' ≤ n) : h'.displayWithin n v' = h'.displayWithin arrays' v' :=
    (closed_right hitems hmembers).displayWithin_eq (fun _ ⟨_, .array hp⟩ => harrays.right hp) hn
      ⟨v, hv⟩
  rw [Heap.display, Heap.display, hleft hle, hright hle',
    ← hleft (Nat.le_max_left arrays arrays'), ← hright (Nat.le_max_right arrays arrays')]
  exact displayWithin_eq hitems _ hv

/-- **Values that hold the same have the same JSON value**, if the heaps have as many arrays and
objects. -/
theorem Values.toJson_eq (hobjects : Counted (K.object w) objects objects' o o') {v v' : Value}
    (hv : K.Values w v v') (hle : arrays + objects ≤ h.arrays.size + h.objects.size)
    (hle' : arrays' + objects' ≤ h'.arrays.size + h'.objects.size) :
    h.toJson v = h'.toJson v' := by
  have hleft {n : Nat} (hn : arrays + objects ≤ n) :
      h.toJsonWithin n v = h.toJsonWithin (arrays + objects) v :=
    (closed_left hitems hmembers).toJsonWithin_eq (fun _ ⟨_, .array hp⟩ => harrays.left hp)
      (fun _ ⟨_, .object hp⟩ => hobjects.left hp) hn ⟨v', hv⟩
  have hright {n : Nat} (hn : arrays' + objects' ≤ n) :
      h'.toJsonWithin n v' = h'.toJsonWithin (arrays' + objects') v' :=
    (closed_right hitems hmembers).toJsonWithin_eq (fun _ ⟨_, .array hp⟩ => harrays.right hp)
      (fun _ ⟨_, .object hp⟩ => hobjects.right hp) hn ⟨v, hv⟩
  rw [Heap.toJson, Heap.toJson, hleft hle, hright hle',
    ← hleft (Nat.le_max_left _ (arrays' + objects')),
    ← hright (Nat.le_max_right (arrays + objects) _)]
  exact toJsonWithin_eq hitems hmembers _ hv

end Items

end Kinship

end Stencil.Routine
