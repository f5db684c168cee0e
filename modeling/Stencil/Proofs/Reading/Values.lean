import Mathlib.Data.List.Forall2
import Stencil.Engine.Render
import Stencil.Proofs.Lexing
import Stencil.Proofs.Reading.Direct

/-!
# JSON values in the heap

Arrays and objects of the data become places of the heap, the inner ones before those around them.
So what an array holds stands at smaller places, and every array shows itself in finitely many
steps.

* `Holds`, `Means` — a value stands for a JSON value, or for a datum;
* `holds_ofJson` — a JSON value that is put into the heap is held there;
* `display_means`, `truthy_means`, `property?_means`, `itemsIn_means` — what values give is what the
  data give that they stand for.
-/

namespace Stencil.Reading

open Routine

/-! ### Holding -/

mutual

/-- The value stands for the JSON value, with arrays at places below the bound. -/
def Holds (h : Heap) : Json → Nat → Value → Prop
  | .null, _, v => v = .null
  | .bool b, _, v => v = .bool b
  | .number n, _, v => v = .number n.toFloat
  | .text s, _, v => v = .text s
  | .array items, bound, v =>
    ∃ place, v = .array place ∧ place < bound ∧ bound ≤ h.arrays.size
      ∧ HoldsItems h items place (h.items place).toList
  | .object members, bound, v =>
    ∃ place vs, v = .object place ∧ place < h.objects.size
      ∧ h.members place = Roster.ofList vs ∧ HoldsMembers h members bound vs

/-- `Holds` along a list. -/
def HoldsItems (h : Heap) : List Json → Nat → List Value → Prop
  | [], _, vs => vs = []
  | j :: js, bound, vs => ∃ v vs', vs = v :: vs' ∧ Holds h j bound v ∧ HoldsItems h js bound vs'

/-- `Holds` along members. -/
def HoldsMembers (h : Heap) : List (String × Json) → Nat → List (String × Value) → Prop
  | [], _, vs => vs = []
  | (name, j) :: js, bound, vs =>
    ∃ v vs', vs = (name, v) :: vs' ∧ Holds h j bound v ∧ HoldsMembers h js bound vs'

end

/-- What stands in the first heap stands in the second one too. -/
structure Extends (h h' : Heap) : Prop where
  /-- No array is lost. -/
  arrays_size : h.arrays.size ≤ h'.arrays.size
  /-- Arrays keep their items. -/
  items : ∀ place < h.arrays.size, h'.items place = h.items place
  /-- No object is lost. -/
  objects_size : h.objects.size ≤ h'.objects.size
  /-- Objects keep their members. -/
  members : ∀ place < h.objects.size, h'.members place = h.members place

theorem Extends.refl (h : Heap) : Extends h h :=
  ⟨Nat.le_refl _, fun _ _ => rfl, Nat.le_refl _, fun _ _ => rfl⟩

theorem Extends.trans {h h' h'' : Heap} (a : Extends h h') (b : Extends h' h'') :
    Extends h h'' where
  arrays_size := Nat.le_trans a.arrays_size b.arrays_size
  items place hp := (b.items place (Nat.lt_of_lt_of_le hp a.arrays_size)).trans (a.items place hp)
  objects_size := Nat.le_trans a.objects_size b.objects_size
  members place hp :=
    (b.members place (Nat.lt_of_lt_of_le hp a.objects_size)).trans (a.members place hp)

mutual

/-- What is held stays held, for every larger bound. -/
theorem Holds.mono {h h' : Heap} (he : Extends h h') (j : Json) {bound bound' : Nat}
    (hle : bound ≤ bound') (hsize : bound' ≤ h'.arrays.size) {v : Value} (hv : Holds h j bound v) :
    Holds h' j bound' v := by
  match j with
  | .null => exact hv
  | .bool b => exact hv
  | .number n => exact hv
  | .text s => exact hv
  | .array items =>
    obtain ⟨place, rfl, hplace, hbound, hitems⟩ := hv
    have hlt : place < h.arrays.size := Nat.lt_of_lt_of_le hplace hbound
    have hmore := HoldsItems.mono he items (Nat.le_refl place)
      (Nat.le_trans (Nat.le_of_lt hlt) he.arrays_size) hitems
    rw [← he.items place hlt] at hmore
    exact ⟨place, rfl, Nat.lt_of_lt_of_le hplace hle, hsize, hmore⟩
  | .object members =>
    obtain ⟨place, vs, rfl, hplace, heq, hvs⟩ := hv
    rw [← he.members place hplace] at heq
    exact ⟨place, vs, rfl, Nat.lt_of_lt_of_le hplace he.objects_size, heq,
      HoldsMembers.mono he members hle hsize hvs⟩

theorem HoldsItems.mono {h h' : Heap} (he : Extends h h') (js : List Json) {bound bound' : Nat}
    (hle : bound ≤ bound') (hsize : bound' ≤ h'.arrays.size) {vs : List Value}
    (hvs : HoldsItems h js bound vs) : HoldsItems h' js bound' vs := by
  match js with
  | [] => exact hvs
  | j :: js =>
    obtain ⟨v, vs', rfl, hv, hvs'⟩ := hvs
    exact ⟨v, vs', rfl, hv.mono he j hle hsize, hvs'.mono he js hle hsize⟩

theorem HoldsMembers.mono {h h' : Heap} (he : Extends h h') (js : List (String × Json))
    {bound bound' : Nat} (hle : bound ≤ bound') (hsize : bound' ≤ h'.arrays.size)
    {vs : List (String × Value)} (hvs : HoldsMembers h js bound vs) :
    HoldsMembers h' js bound' vs := by
  match js with
  | [] => exact hvs
  | (name, j) :: js =>
    obtain ⟨v, vs', rfl, hv, hvs'⟩ := hvs
    exact ⟨v, vs', rfl, hv.mono he j hle hsize, hvs'.mono he js hle hsize⟩

end

/-! ### Putting JSON values into the heap -/

theorem extends_newArray (h : Heap) (items : Array Value) : Extends h (h.newArray items).2 where
  arrays_size := by
    show h.arrays.size ≤ (h.arrays.push items).size
    rw [Array.size_push]
    omega
  items place hp := by
    rw [Heap.items_newArray, if_neg (Nat.ne_of_lt hp)]
  objects_size := Nat.le_refl _
  members _ _ := rfl

theorem extends_newObject (h : Heap) (members : Roster Value) :
    Extends h (h.newObject members).2 where
  arrays_size := Nat.le_refl _
  items _ _ := rfl
  objects_size := by
    show h.objects.size ≤ (h.objects.push members).size
    rw [Array.size_push]
    omega
  members place hp := by
    rw [Heap.members_newObject, if_neg (Nat.ne_of_lt hp)]

/-- What putting something into the heap leaves alone. -/
structure Puts (h h' : Heap) : Prop extends Extends h h' where
  /-- Variables stay. -/
  frames : h'.frames = h.frames
  /-- No native function is made. -/
  identities : h'.identities = h.identities

theorem Puts.refl (h : Heap) : Puts h h := ⟨.refl h, rfl, rfl⟩

theorem Puts.trans {h h' h'' : Heap} (a : Puts h h') (b : Puts h' h'') : Puts h h'' :=
  ⟨a.toExtends.trans b.toExtends, b.frames.trans a.frames, b.identities.trans a.identities⟩

mutual

/-- A JSON value that is put into the heap is held there. -/
theorem holds_ofJson (h : Heap) (j : Json) :
    Puts h (h.ofJson j).2 ∧ Holds (h.ofJson j).2 j (h.ofJson j).2.arrays.size (h.ofJson j).1 := by
  match j with
  | .null => exact ⟨.refl h, rfl⟩
  | .bool b => exact ⟨.refl h, rfl⟩
  | .number n => exact ⟨.refl h, rfl⟩
  | .text s => exact ⟨.refl h, rfl⟩
  | .array items =>
    obtain ⟨hputs, hholds⟩ := holds_ofJsonItems h items
    rw [Heap.ofJson]
    generalize h.ofJsonItems items = made at hputs hholds ⊢
    obtain ⟨vs, inner⟩ := made
    dsimp only at hputs hholds ⊢
    have hnew := extends_newArray inner vs.toArray
    have hsize : (inner.newArray vs.toArray).2.arrays.size = inner.arrays.size + 1 :=
      Array.size_push _
    refine ⟨hputs.trans ⟨hnew, rfl, rfl⟩, inner.arrays.size, rfl, by omega, Nat.le_refl _, ?_⟩
    rw [Heap.items_newArray, if_pos rfl]
    exact hholds.mono hnew items (Nat.le_refl _) (by omega)
  | .object members =>
    obtain ⟨hputs, hholds⟩ := holds_ofJsonMembers h members
    rw [Heap.ofJson]
    generalize h.ofJsonMembers members = made at hputs hholds ⊢
    obtain ⟨vs, inner⟩ := made
    dsimp only at hputs hholds ⊢
    have hnew := extends_newObject inner (.ofList vs)
    have hmembers : (inner.newObject (.ofList vs)).2.members inner.objects.size = .ofList vs := by
      rw [Heap.members_newObject, if_pos rfl]
    refine ⟨hputs.trans ⟨hnew, rfl, rfl⟩, inner.objects.size, vs, rfl, ?_, hmembers, ?_⟩
    · show inner.objects.size < (inner.objects.push _).size
      rw [Array.size_push]
      omega
    · exact hholds.mono hnew members (Nat.le_refl _) (Nat.le_refl _)

theorem holds_ofJsonItems (h : Heap) (js : List Json) :
    Puts h (h.ofJsonItems js).2
      ∧ HoldsItems (h.ofJsonItems js).2 js (h.ofJsonItems js).2.arrays.size
        (h.ofJsonItems js).1 := by
  match js with
  | [] => exact ⟨.refl h, rfl⟩
  | j :: js =>
    obtain ⟨hputs, hholds⟩ := holds_ofJson h j
    obtain ⟨hputs', hholds'⟩ := holds_ofJsonItems (h.ofJson j).2 js
    rw [Heap.ofJsonItems]
    exact ⟨hputs.trans hputs', _, _, rfl,
      hholds.mono hputs'.toExtends j hputs'.arrays_size (Nat.le_refl _), hholds'⟩

theorem holds_ofJsonMembers (h : Heap) (js : List (String × Json)) :
    Puts h (h.ofJsonMembers js).2
      ∧ HoldsMembers (h.ofJsonMembers js).2 js (h.ofJsonMembers js).2.arrays.size
          (h.ofJsonMembers js).1 := by
  match js with
  | [] => exact ⟨.refl h, rfl⟩
  | (name, j) :: js =>
    obtain ⟨hputs, hholds⟩ := holds_ofJson h j
    obtain ⟨hputs', hholds'⟩ := holds_ofJsonMembers (h.ofJson j).2 js
    rw [Heap.ofJsonMembers]
    exact ⟨hputs.trans hputs', _, _, rfl,
      hholds.mono hputs'.toExtends j hputs'.arrays_size (Nat.le_refl _), hholds'⟩

end

/-! ### Data -/

/-- The value stands for the datum. -/
def Means (h : Heap) (v : Value) : Datum → Prop
  | none => v = .undefined
  | some j => Holds h j h.arrays.size v

theorem Means.extend {h h' : Heap} (he : Extends h h') {v : Value} {d : Datum} (hv : Means h v d) :
    Means h' v d := by
  cases d with
  | none => exact hv
  | some j => exact hv.mono he j he.arrays_size (Nat.le_refl _)

theorem isNullish_holds {h : Heap} {j : Json} {bound : Nat} {v : Value} (hv : Holds h j bound v) :
    v.isNullish = true ↔ j = .null := by
  cases j with
  | null =>
    cases hv
    exact ⟨fun _ => rfl, fun _ => rfl⟩
  | bool b =>
    cases hv
    exact ⟨nofun, nofun⟩
  | number n =>
    cases hv
    exact ⟨nofun, nofun⟩
  | text s =>
    cases hv
    exact ⟨nofun, nofun⟩
  | array items =>
    obtain ⟨place, rfl, -⟩ := hv
    exact ⟨nofun, nofun⟩
  | object members =>
    obtain ⟨place, vs, rfl, -⟩ := hv
    exact ⟨nofun, nofun⟩

theorem shownItems_cons {j : Json} (hj : j ≠ .null) (js : List Json) :
    shownItems (j :: js) = shown j :: shownItems js := by
  cases j with
  | null => exact absurd rfl hj
  | _ => rfl

mutual

/-- A value is displayed as the JSON value that it stands for, with as many steps as its arrays
stand below. -/
theorem displayWithin_holds {h : Heap} (j : Json) {bound : Nat} {v : Value}
    (hv : Holds h j bound v) {steps : Nat} (hsteps : bound ≤ steps) :
    h.displayWithin steps v = some (shown j) := by
  match j with
  | .null =>
    cases hv
    cases steps <;> rfl
  | .bool b =>
    cases hv
    cases steps <;> rfl
  | .number n =>
    cases hv
    cases steps <;> rfl
  | .text s =>
    cases hv
    cases steps <;> rfl
  | .array items =>
    obtain ⟨place, rfl, hplace, -, hitems⟩ := hv
    obtain ⟨steps, rfl⟩ : ∃ n, steps = n + 1 := ⟨steps - 1, by omega⟩
    have hbound : place ≤ steps := by omega
    have hmap := displayWithin_holdsItems items hitems hbound
    show (do
      let texts ← (h.items place).toList.mapM fun v : Value =>
        if v.isNullish then some "" else h.displayWithin steps v
      return ",".intercalate texts) = _
    rw [hmap]
    rfl
  | .object members =>
    obtain ⟨place, vs, rfl, -⟩ := hv
    cases steps <;> rfl

theorem displayWithin_holdsItems {h : Heap} (js : List Json) {bound : Nat} {vs : List Value}
    (hvs : HoldsItems h js bound vs) {steps : Nat} (hsteps : bound ≤ steps) :
    (vs.mapM fun v : Value => if v.isNullish then some "" else h.displayWithin steps v)
      = some (shownItems js) := by
  match js with
  | [] =>
    cases hvs
    rfl
  | j :: js =>
    obtain ⟨v, vs', rfl, hv, hvs'⟩ := hvs
    have hrest := displayWithin_holdsItems js hvs' hsteps
    rw [List.mapM_cons, hrest]
    by_cases hj : j = .null
    · rw [if_pos ((isNullish_holds hv).mpr hj), hj]
      rfl
    · rw [if_neg (fun hnull => hj ((isNullish_holds hv).mp hnull)), displayWithin_holds j hv hsteps,
        shownItems_cons hj]
      rfl

end

variable {h : Heap} {v : Value} {d : Datum}

theorem display_text (h : Heap) (s : String) : h.display (.text s) = some s := by
  rw [Heap.display]
  cases h.arrays.size <;> rfl

/-- A value is displayed as the datum that it stands for. -/
theorem display_means (hv : Means h v d) : h.display v = some d.display := by
  cases d with
  | none =>
    cases hv
    rw [Heap.display]
    cases h.arrays.size <;> rfl
  | some j => exact displayWithin_holds j hv (Nat.le_refl _)

theorem textOf_means {store : Store} (hv : Means store.heap v d) :
    Run.textOf v store = .ok d.display store := by
  show Run.finite (store.heap.display v) store = _
  rw [display_means hv]
  rfl

theorem truthy_means (hv : Means h v d) : v.truthy = d.truthy := by
  cases d with
  | none =>
    cases hv
    rfl
  | some j =>
    cases j with
    | array items =>
      obtain ⟨place, rfl, -⟩ := hv
      rfl
    | object members =>
      obtain ⟨place, vs, rfl, -⟩ := hv
      rfl
    | _ =>
      cases hv
      rfl

/-! ### Members -/

/-- No name of a member numbers a place. -/
theorem placeOf?_identifier (m : Identifier) : placeOf? m.name = none := by
  obtain ⟨chars, hvalid⟩ := m
  cases chars with
  | nil => cases hvalid
  | cons c cs =>
    rw [isIdentifier, Bool.and_eq_true] at hvalid
    have hdigit : Decimal.isDigit c = false := not_isDigit_of_startsName hvalid.1
    have hall : (!(c :: cs).all Decimal.isDigit) = true := by
      rw [List.all_cons, hdigit]
      rfl
    show placeOf? (String.ofList (c :: cs)) = none
    rw [placeOf?]
    rw [String.toList_ofList]
    dsimp only
    rw [hall, Bool.or_true, if_pos rfl]

/-- Two rosters whose entries correspond. -/
def Corresponds (h : Heap) (bound : Nat) (r : Roster Value) (s : Roster Json) : Prop :=
  ∀ name, (r.get? name = none ∧ s.get? name = none)
    ∨ ∃ v j, r.get? name = some v ∧ s.get? name = some j ∧ Holds h j bound v

theorem corresponds_insertAll {bound : Nat} (js : List (String × Json))
    {vs : List (String × Value)} (hvs : HoldsMembers h js bound vs) {r : Roster Value}
    {s : Roster Json} (hrs : Corresponds h bound r s) :
    Corresponds h bound (r.insertAll vs) (s.insertAll js) := by
  induction js generalizing vs r s with
  | nil =>
    cases hvs
    exact hrs
  | cons entry js ih =>
    obtain ⟨name, j⟩ := entry
    obtain ⟨v, vs', rfl, hv, hvs'⟩ := hvs
    refine ih hvs' (r := r.insert name v) (s := s.insert name j) ?_
    intro other
    rw [Roster.get?_insert, Roster.get?_insert]
    by_cases he : name = other
    · rw [if_pos he, if_pos he]
      exact .inr ⟨v, j, rfl, rfl, hv⟩
    · rw [if_neg he, if_neg he]
      exact hrs other

/-- The members of an object that stands for a JSON object correspond to those of the latter. -/
theorem corresponds_ofList {bound : Nat} {js : List (String × Json)} {vs : List (String × Value)}
    (hvs : HoldsMembers h js bound vs) : Corresponds h bound (.ofList vs) (.ofList js) :=
  corresponds_insertAll js hvs fun _ => .inl ⟨rfl, rfl⟩

theorem length_holdsItems {js : List Json} {bound : Nat} {vs : List Value}
    (hvs : HoldsItems h js bound vs) : vs.length = js.length := by
  induction js generalizing vs with
  | nil =>
    cases hvs
    rfl
  | cons j js ih =>
    obtain ⟨v, vs', rfl, -, hvs'⟩ := hvs
    rw [List.length_cons, List.length_cons, ih hvs']

/-- What a value has under a name is what the datum has under it, and where the datum has nothing to
read, the value has nothing either. -/
theorem property?_means (hv : Means h v d) (m : Identifier) :
    (∃ v' d', h.property? v m.name = some v' ∧ d.member m.name = .ok d' ∧ Means h v' d')
    ∨ (h.property? v m.name = none
      ∧ d.member m.name = .error (.unreadable (plainText v) m.name)) := by
  cases d with
  | none =>
    cases hv
    exact .inr ⟨rfl, rfl⟩
  | some j =>
    cases j with
    | null =>
      cases hv
      exact .inr ⟨rfl, rfl⟩
    | bool b =>
      cases hv
      exact .inl ⟨.undefined, none, rfl, rfl, rfl⟩
    | number n =>
      cases hv
      exact .inl ⟨.undefined, none, rfl, rfl, rfl⟩
    | text s =>
      cases hv
      left
      rw [Heap.property?, Datum.member]
      rw [placeOf?_identifier]
      by_cases hname : m.name = "length"
      · rw [if_pos hname, if_pos hname]
        exact ⟨_, _, rfl, rfl, rfl⟩
      · rw [if_neg hname, if_neg hname]
        exact ⟨_, _, rfl, rfl, rfl⟩
    | array items =>
      obtain ⟨place, rfl, -, -, hitems⟩ := hv
      left
      have hlength := length_holdsItems hitems
      rw [Array.length_toList] at hlength
      rw [Heap.property?, Datum.member]
      rw [placeOf?_identifier]
      by_cases hname : m.name = "length"
      · rw [if_pos hname, if_pos hname, hlength]
        exact ⟨_, _, rfl, rfl, rfl⟩
      · rw [if_neg hname, if_neg hname]
        exact ⟨_, _, rfl, rfl, rfl⟩
    | object members =>
      obtain ⟨place, vs, rfl, -, heq, hvs⟩ := hv
      left
      rw [Heap.property?, Datum.member]
      rw [heq]
      rcases corresponds_ofList hvs m.name with ⟨hnone, hnone'⟩ | ⟨w, j, hsome, hsome', hw⟩
      · rw [hnone, hnone']
        exact ⟨_, _, rfl, rfl, rfl⟩
      · rw [hsome, hsome']
        exact ⟨_, _, rfl, rfl, hw⟩

/-! ### Items -/

/-- The values stand for the JSON values, one for each. -/
def MeansAll (h : Heap) (vs : List Value) (js : List Json) : Prop :=
  List.Forall₂ (fun v j => Means h v (some j)) vs js

theorem meansAll_of_holdsItems {js : List Json} {bound : Nat} {vs : List Value}
    (hbound : bound ≤ h.arrays.size) (hvs : HoldsItems h js bound vs) : MeansAll h vs js := by
  induction js generalizing vs with
  | nil =>
    cases hvs
    exact .nil
  | cons j js ih =>
    obtain ⟨v, vs', rfl, hv, hvs'⟩ := hvs
    exact .cons (hv.mono (.refl h) j hbound (Nat.le_refl _)) (ih hvs')

/-- What a loop over a value visits stands for the items of the datum; where it has none, the loop
fails as reading the datum does. -/
theorem itemsIn_means {store : Store} (hv : Means store.heap v d) :
    (∃ vs js, itemsIn v store = .ok vs store ∧ d.items = .ok js ∧ MeansAll store.heap vs js)
    ∨ (∃ f, itemsIn v store = .error (.failed f) store ∧ d.items = .error f) := by
  have htext := textOf_means hv
  have fails (hitems : itemsIn v = (do Run.fail (.notIterable (← Run.textOf v))))
      (hnone : d.items = .error (.notIterable d.display)) :
      ∃ f, itemsIn v store = .error (.failed f) store ∧ d.items = .error f := by
    refine ⟨_, ?_, hnone⟩
    rw [hitems]
    exact (run_bind_ok htext).trans rfl
  cases d with
  | none =>
    cases hv
    exact .inr (fails rfl rfl)
  | some j =>
    cases j with
    | null =>
      cases hv
      exact .inr (fails rfl rfl)
    | bool b =>
      cases hv
      exact .inr (fails rfl rfl)
    | number n =>
      cases hv
      exact .inr (fails rfl rfl)
    | text s =>
      cases hv
      refine .inl ⟨_, _, rfl, rfl, ?_⟩
      rw [MeansAll]
      rw [List.forall₂_map_left_iff, List.forall₂_map_right_iff, List.forall₂_same]
      exact fun c _ => rfl
    | array items =>
      obtain ⟨place, rfl, hplace, hbound, hitems⟩ := hv
      exact .inl ⟨_, _, rfl, rfl, meansAll_of_holdsItems (by omega) hitems⟩
    | object members =>
      obtain ⟨place, vs, rfl, -⟩ := hv
      exact .inr (fails rfl rfl)

end Stencil.Reading
