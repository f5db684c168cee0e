import Stencil.Proofs.History

/-!
# Writing items

An array is written under the decimal number of a place.  Below the limit it grows as far as is
needed, behind the limit growing is an error; but keys number places only below `placeBound`, and
what is written under a greater number is lost.

* `digitsValue_naturalDigits`, `placeOf?_naturalText` — which numbers are keys of items;
* `Heap.getElem?_putAt` — the items of an array that has been written;
* `Heap.Assigned`, `Heap.assigned_modifyItems` — what is read after an item has been written;
* `setProperty_natural` — the main theorem;
* `render_lostItem` — an item that is lost.
-/

namespace Stencil

/-! ### Numbers and their digits -/

namespace Decimal

theorem isDigit_eq (c : Char) : isDigit c = c.isDigit := by
  rw [isDigit, digitValue?, Bool.eq_iff_iff]
  split
  · rename_i h
    simpa [Char.isDigit, Char.le_def] using h
  · rename_i h
    simpa [Char.isDigit, Char.le_def] using h

theorem all_isDigit_naturalDigits (n : Nat) : (naturalDigits n).all isDigit = true := by
  rw [List.all_eq_true]
  intro c hc
  rw [isDigit_eq]
  exact Nat.isDigit_of_mem_toDigits (by decide) (by decide) hc

/-- A number has the value of its digits. -/
theorem digitsValue_naturalDigits (n : Nat) : digitsValue (naturalDigits n) = n := by
  have h := Nat.ofDigitChars_ten_toDigits (n := n)
  rwa [Nat.ofDigitChars_eq_foldl] at h

end Decimal

namespace Routine

open Decimal (naturalDigits naturalText)

/-- The text of a number numbers that place, if keys number places as great as that. -/
theorem placeOf?_naturalText (n : Nat) :
    placeOf? (naturalText n) = if n < placeBound then some n else none := by
  have hne : (naturalDigits n).isEmpty = false := by
    rw [List.isEmpty_eq_false_iff]
    exact Nat.toDigits_ne_nil
  rw [placeOf?, naturalText, String.toList_ofList]
  dsimp only
  rw [hne, Decimal.all_isDigit_naturalDigits, Decimal.digitsValue_naturalDigits, beq_self_eq_true]
  simp

/-- The length is not the item of any place. -/
theorem naturalText_ne_length (n : Nat) : naturalText n ≠ "length" := by
  intro h
  have hall := Decimal.all_isDigit_naturalDigits n
  rw [← String.toList_ofList (l := naturalDigits n), ← naturalText, h] at hall
  exact absurd hall (by decide)

namespace Heap

/-! ### Arrays that have been written -/

theorem size_putAt (items : Array Value) (place : Nat) (v : Value) :
    (putAt items place v).size = max items.size (place + 1) := by
  rw [putAt]
  split
  · rw [Array.size_setIfInBounds]
    omega
  · rw [Array.size_push, Array.size_append, Array.size_replicate]
    omega

/-- The written item, the old ones, and `undefined` at new places before the written one. -/
theorem getElem?_putAt (items : Array Value) (place i : Nat) (v : Value) :
    (putAt items place v)[i]?
      = if i = place then some v
        else if i < items.size then items[i]?
        else if i < place then some .undefined else none := by
  rw [putAt]
  split
  · rename_i h
    rw [Array.getElem?_setIfInBounds]
    split <;> grind
  · grind

/-- What an array has under the number of a place. -/
theorem property?_natural (h : Heap) (array i : Nat) :
    h.property? (.array array) (naturalText i)
      = some ((if i < placeBound then (h.items array)[i]? else none).getD .undefined) := by
  rw [property?, if_neg (naturalText_ne_length i), placeOf?_naturalText]
  split <;> rfl

theorem property?_length (h : Heap) (array : Nat) :
    h.property? (.array array) "length" = some (countValue (h.items array).size) := rfl

/-- After an item of an array has been written.  Only the array has changed, and it has the item at
the place, its other items as before, and `undefined` at new places before this one. -/
structure Assigned (h after : Heap) (array place : Nat) (v : Value) : Prop where
  item : after.property? (.array array) (naturalText place) = some v
  length : after.property? (.array array) "length"
    = some (countValue (max (h.items array).size (place + 1)))
  size : (after.items array).size = max (h.items array).size (place + 1)
  old : ∀ i, i < (h.items array).size → i ≠ place →
    (after.items array)[i]? = (h.items array)[i]?
      ∧ after.property? (.array array) (naturalText i)
        = h.property? (.array array) (naturalText i)
  new : ∀ i, (h.items array).size ≤ i → i < place →
    (after.items array)[i]? = some .undefined
      ∧ after.property? (.array array) (naturalText i) = some .undefined
  others : ∀ other, other ≠ array → after.items other = h.items other
  rest : { after with arrays := h.arrays } = h

theorem assigned_modifyItems {h : Heap} {array place : Nat} (harray : array < h.arrays.size)
    (hplace : place < placeBound) (v : Value) :
    Assigned h (h.modifyItems array (putAt · place v)) array place v := by
  have hitems : (h.modifyItems array (putAt · place v)).items array
      = putAt (h.items array) place v := by
    rw [items_modifyItems h array _ harray, if_pos rfl]
  have hsize : ((h.modifyItems array (putAt · place v)).items array).size
      = max (h.items array).size (place + 1) := by
    rw [hitems, size_putAt]
  have hold : ∀ i, i < (h.items array).size → i ≠ place →
      ((h.modifyItems array (putAt · place v)).items array)[i]? = (h.items array)[i]? := by
    intro i hi hne
    rw [hitems, getElem?_putAt, if_neg hne, if_pos hi]
  have hnew : ∀ i, (h.items array).size ≤ i → i < place →
      ((h.modifyItems array (putAt · place v)).items array)[i]? = some .undefined := by
    intro i hi hlt
    rw [hitems, getElem?_putAt, if_neg (by omega), if_neg (by omega), if_pos hlt]
  exact {
    item := by
      rw [property?_natural, if_pos hplace, hitems, getElem?_putAt, if_pos rfl]
      rfl
    length := by rw [property?_length, hsize]
    size := hsize
    old := fun i hi hne => ⟨hold i hi hne, by rw [property?_natural, property?_natural, hold i hi hne]⟩
    new := fun i hi hlt => ⟨hnew i hi hlt, by
      rw [property?_natural, hnew i hi hlt]
      split <;> rfl⟩
    others := fun other hne => by rw [items_modifyItems h other _ harray, if_neg (Ne.symm hne)]
    rest := rfl }

end Heap

/-- **Writing an item.**  Under the number of a place, an array that would have to grow behind the
limit is left as it is, with an error; every other write below `placeBound` succeeds, and the item is
read afterwards.  Under a number from `placeBound` on nothing is written and nothing is said. -/
theorem setProperty_natural (h : Heap) {array : Nat} (harray : array < h.arrays.size) (place : Nat)
    (v : Value) :
    let written := h.setProperty (.array array) (naturalText place) v
    let refused := (h.items array).size ≤ place ∧ arrayLengthLimit ≤ place
    (place < placeBound →
      (written.1 = .error .arrayLength ↔ refused)
        ∧ (refused → written.2 = h)
        ∧ (¬ refused → written.1 = .ok () ∧ h.Assigned written.2 array place v))
      ∧ (placeBound ≤ place → written = (.ok (), h)
        ∧ h.property? (.array array) (naturalText place) = some .undefined)
      ∧ Failure.message .arrayLength = "RangeError: Invalid array length" := by
  intro written refused
  have hplaceOf := placeOf?_naturalText place
  refine ⟨fun hplace => ?_, fun hplace => ?_, rfl⟩
  · rw [if_pos hplace] at hplaceOf
    have hwritten : written = h.setItem array place v := by
      simp only [written, Heap.setProperty, hplaceOf]
    rw [Heap.setItem] at hwritten
    by_cases hrefused : refused
    · rw [if_pos hrefused] at hwritten
      rw [hwritten]
      exact ⟨⟨fun _ => hrefused, fun _ => rfl⟩, fun _ => rfl, fun hnot => absurd hrefused hnot⟩
    · rw [if_neg hrefused] at hwritten
      rw [hwritten]
      refine ⟨⟨fun herror => ?_, fun h => absurd h hrefused⟩, fun h => absurd h hrefused,
        fun _ => ⟨rfl, Heap.assigned_modifyItems harray hplace v⟩⟩
      cases herror
  · rw [if_neg (Nat.not_lt.mpr hplace)] at hplaceOf
    have hwritten : written = (.ok (), h) := by
      simp only [written, Heap.setProperty, hplaceOf]
    refine ⟨hwritten, ?_⟩
    rw [Heap.property?_natural, if_neg (Nat.not_lt.mpr hplace)]
    rfl

/-- Behind the only item of an array, one hole is filled. -/
theorem setProperty_natural_hole :
    let h : Heap := { arrays := #[#[.text "a"]] }
    let written := h.setProperty (.array 0) (naturalText 2) (.text "c")
    0 < h.arrays.size ∧ naturalText 2 = "2" ∧ written.1 = .ok ()
      ∧ written.2.property? (.array 0) "length" = some (countValue 3)
      ∧ written.2.property? (.array 0) (naturalText 0) = some (.text "a")
      ∧ written.2.property? (.array 0) (naturalText 1) = some .undefined
      ∧ written.2.property? (.array 0) (naturalText 2) = some (.text "c") := by
  intro h written
  have harray : 0 < h.arrays.size := by decide
  obtain ⟨hsmall, -, -⟩ := setProperty_natural h harray 2 (.text "c")
  have hbound : 2 < placeBound := by decide
  obtain ⟨-, -, hassigned⟩ := hsmall hbound
  have hlimit : ¬ arrayLengthLimit ≤ 2 := by decide
  obtain ⟨hok, hafter⟩ := hassigned fun hrefused => hlimit hrefused.2
  obtain ⟨-, hold⟩ := hafter.old 0 (by decide) (by decide)
  obtain ⟨-, hnew⟩ := hafter.new 1 (by decide) (by decide)
  exact ⟨harray, rfl, hok, hafter.length, hold, hnew, hafter.item⟩

end Routine

/-- **An item that is lost.**  Writing behind the limit is an error as long as the number is below
`placeBound`; the first number from there on is written without an error, and without an item. -/
theorem render_lostItem :
    ((Engine.create 2).render 99
        (some "[[ const a = []; a[\"18446744073709551615\"] = 1 ]][[= a.length ]]") (.object [])).1
        = .error (.render .arrayLength)
      ∧ ((Engine.create 2).render 99
        (some "[[ const a = []; a[\"18446744073709551616\"] = 1 ]][[= a.length ]]") (.object [])).1
        = .ok "0" :=
  ⟨by decide +kernel, by decide +kernel⟩

end Stencil
