import Stencil.Proofs.Output.Accounts
import Stencil.Proofs.Reading.Scopes

/-!
# Where an assignment goes

Reading a name and assigning to it are two walks along the scope.  Both are compared here with a
third account, that of the slot that a name stands for: the first link from the inside with something
under the name decides, be it a variable or a member of an object.  Objects are shared, so one slot
may be reached by several links; that is why what an assignment changes is said of slots and not of
links.

* `Slot`, `Heap.slot?` — variables and members, and what is in them;
* `Heap.Innermost` — the slot that a name stands for in a scope;
* `Heap.ChangesOnly` — all that is different after an assignment;
* `innermost_iff` — the slot is in the link that `Heap.holder?` finds;
* `assignName_innermost` — the main theorem.
-/

namespace Stencil.Routine

/-! ### Slots -/

/-- What a name of a link stands for. -/
inductive Slot where
  /-- A variable of a frame. -/
  | inFrame (place : Nat) (name : String)
  /-- A member of an object. -/
  | inObject (place : Nat) (name : String)
  deriving DecidableEq, Repr

/-- The slot that a name has in a link, if the link has names at all. -/
def Link.slot? (name : String) : Link → Option Slot
  | .locals place => some (.inFrame place name)
  | .members object _ => object.map (.inObject · name)

namespace Heap

/-- What is in a slot.  Members can always be given another value. -/
def slot? (h : Heap) : Slot → Option Binding
  | .inFrame place name => (h.frame place).get? name
  | .inObject place name => ((h.members place).get? name).map (⟨·, true⟩)

/-- Gives a slot another value. -/
def putSlot (h : Heap) (v : Value) : Slot → Heap
  | .inFrame place name => h.setLocal place name ⟨v, true⟩
  | .inObject place name => h.setMember place name v

/-- A name stands for a slot: the link with the slot has something under the name, and the links
inside of it have not. -/
inductive Innermost (h : Heap) (name : String) : Scope → Slot → Prop
  | here {link : Link} {scope : Scope} {slot : Slot} (hslot : link.slot? name = some slot)
      (hthere : (h.slot? slot).isSome = true) : Innermost h name (link :: scope) slot
  | outside {link : Link} {scope : Scope} {slot : Slot}
      (habsent : ∀ other, link.slot? name = some other → h.slot? other = none)
      (hscope : Innermost h name scope slot) : Innermost h name (link :: scope) slot

/-- All that is different in the second heap is that the slot has the value. -/
structure ChangesOnly (slot : Slot) (v : Value) (g h : Heap) : Prop where
  value : h.slot? slot = some ⟨v, true⟩
  others : ∀ other, other ≠ slot → h.slot? other = g.slot? other
  frame_names : ∀ place, (h.frame place).names = (g.frame place).names
  members_names : ∀ place, (h.members place).names = (g.members place).names
  frames_size : h.frames.size = g.frames.size
  objects_size : h.objects.size = g.objects.size
  arrays : h.arrays = g.arrays
  identities : h.identities = g.identities

variable {h : Heap} {name : String} {v : Value}

/-- The value that a link gives to a name is the one in the slot. -/
theorem linkValue?_eq_slot? (h : Heap) (name : String) (link : Link) :
    h.linkValue? name link = ((link.slot? name).bind h.slot?).map Binding.value := by
  cases link with
  | locals place => rfl
  | members object guarded =>
    cases object with
    | none => rfl
    | some place =>
      show (h.members place).get? name
        = (((h.members place).get? name).map (Binding.mk · true)).map Binding.value
      cases (h.members place).get? name <;> rfl

/-- A link has a name if there is something in the slot. -/
theorem holds_iff (link : Link) :
    h.holds name link = true ↔ ∃ slot, link.slot? name = some slot
      ∧ (h.slot? slot).isSome = true := by
  rw [← isSome_linkValue?, linkValue?_eq_slot?, Option.isSome_map]
  cases link.slot? name with
  | none => simp
  | some slot => simp

theorem holds_eq_false_iff (link : Link) :
    h.holds name link = false ↔ ∀ slot, link.slot? name = some slot → h.slot? slot = none := by
  rw [← Bool.not_eq_true, holds_iff]
  simp

/-! ### The slot of a name -/

/-- The slot that a name stands for is in the link that has the name. -/
theorem innermost_iff {scope : Scope} {slot : Slot} :
    h.Innermost name scope slot
      ↔ ∃ link, h.holder? name scope = some link ∧ link.slot? name = some slot := by
  constructor
  · intro hslot
    induction hslot with
    | here hslot hthere =>
      have hholds := (holds_iff _).mpr ⟨_, hslot, hthere⟩
      exact ⟨_, Reading.holder?_cons_of_true _ hholds, hslot⟩
    | outside habsent hscope ih =>
      have hholds := (holds_eq_false_iff _).mpr habsent
      rwa [Reading.holder?_cons_of_false _ hholds]
  · rintro ⟨link, hlink, hslot⟩
    induction scope with
    | nil => cases hlink
    | cons other scope ih =>
      cases hholds : h.holds name other with
      | true =>
        rw [Reading.holder?_cons_of_true scope hholds] at hlink
        cases hlink
        obtain ⟨slot', hslot', hthere⟩ := (holds_iff _).mp hholds
        cases hslot.symm.trans hslot'
        exact .here hslot hthere
      | false =>
        rw [Reading.holder?_cons_of_false scope hholds] at hlink
        exact .outside ((holds_eq_false_iff _).mp hholds) (ih hlink)

/-- There is something in the slot that a name stands for. -/
theorem Innermost.exists_slot? {scope : Scope} {slot : Slot} (hslot : h.Innermost name scope slot) :
    ∃ b, h.slot? slot = some b := by
  induction hslot with
  | here _ hthere => exact Option.isSome_iff_exists.mp hthere
  | outside _ _ ih => exact ih

/-- A name stands for one slot. -/
theorem Innermost.unique {scope : Scope} {slot slot' : Slot} (hslot : h.Innermost name scope slot)
    (hslot' : h.Innermost name scope slot') : slot = slot' := by
  obtain ⟨link, hlink, hlinkSlot⟩ := innermost_iff.mp hslot
  obtain ⟨link', hlink', hlinkSlot'⟩ := innermost_iff.mp hslot'
  cases hlink.symm.trans hlink'
  exact Option.some.inj (hlinkSlot.symm.trans hlinkSlot')

/-- A name has the value of its slot. -/
theorem find?_of_innermost {scope : Scope} {slot : Slot} {b : Binding}
    (hslot : h.Innermost name scope slot) (hb : h.slot? slot = some b) :
    h.find? name scope = some b.value := by
  obtain ⟨link, hlink, hlinkSlot⟩ := innermost_iff.mp hslot
  rw [Reading.find?_of_holder? hlink, linkValue?_eq_slot?, hlinkSlot, Option.bind_some, hb,
    Option.map_some]

/-! ### Changing a slot -/

/-- A slot with something in it is in a frame or an object that there is. -/
theorem lt_of_slot?_inFrame {place : Nat} {b : Binding}
    (hb : h.slot? (.inFrame place name) = some b) : place < h.frames.size := by
  by_contra hplace
  rw [slot?, frame, Array.getD_eq_getD_getElem?, Array.getElem?_eq_none (Nat.le_of_not_lt hplace),
    Option.getD_none, Roster.get?_empty] at hb
  cases hb

theorem lt_of_slot?_inObject {place : Nat} {b : Binding}
    (hb : h.slot? (.inObject place name) = some b) : place < h.objects.size := by
  by_contra hplace
  rw [slot?, members, Array.getD_eq_getD_getElem?, Array.getElem?_eq_none (Nat.le_of_not_lt hplace),
    Option.getD_none, Roster.get?_empty] at hb
  cases hb

/-- Giving a known name another entry leaves the names as they are. -/
theorem names_insert_of_get? {α : Type} {r : Roster α} {a b : α} (hb : r.get? name = some b) :
    (r.insert name a).names = r.names := by
  rw [Roster.names_insert, if_pos]
  by_contra hname
  cases (lookupName_of_notMem hname).symm.trans hb

/-- Giving a variable another value changes nothing else. -/
theorem changesOnly_setLocal {place : Nat} {b : Binding}
    (hb : h.slot? (.inFrame place name) = some b) :
    ChangesOnly (.inFrame place name) v h (h.setLocal place name ⟨v, true⟩) := by
  have hframe := fun other => frame_setLocal h other name ⟨v, true⟩ (lt_of_slot?_inFrame hb)
  refine ⟨?_, ?_, fun other => ?_, fun _ => rfl, size_setLocal _ _ _ _, rfl, rfl, rfl⟩
  · rw [slot?, hframe, if_pos rfl, Roster.get?_insert, if_pos rfl]
  · intro other hother
    cases other with
    | inObject place' name' => rfl
    | inFrame place' name' =>
      rw [slot?, slot?, hframe]
      split
      · rename_i hplace
        subst hplace
        rw [Roster.get?_insert, if_neg]
        rintro rfl
        exact hother rfl
      · rfl
  · rw [hframe]
    split
    · rename_i hplace
      subst hplace
      exact names_insert_of_get? hb
    · rfl

/-- Giving a member another value changes nothing else. -/
theorem changesOnly_setMember {place : Nat} {b : Binding}
    (hb : h.slot? (.inObject place name) = some b) :
    ChangesOnly (.inObject place name) v h (h.setMember place name v) := by
  have hmembers := fun other => members_setMember h other name v (lt_of_slot?_inObject hb)
  obtain ⟨u, hu, -⟩ := Option.map_eq_some_iff.mp hb
  refine ⟨?_, ?_, fun _ => rfl, fun other => ?_, rfl, Array.size_modify, rfl, rfl⟩
  · rw [slot?, hmembers, if_pos rfl, Roster.get?_insert, if_pos rfl, Option.map_some]
  · intro other hother
    cases other with
    | inFrame place' name' => rfl
    | inObject place' name' =>
      rw [slot?, slot?, hmembers]
      split
      · rename_i hplace
        subst hplace
        rw [Roster.get?_insert, if_neg]
        rintro rfl
        exact hother rfl
      · rfl
  · rw [hmembers]
    split
    · rename_i hplace
      subst hplace
      exact names_insert_of_get? hu
    · rfl

/-- Giving a slot another value changes nothing else. -/
theorem changesOnly_putSlot {slot : Slot} {b : Binding} (hb : h.slot? slot = some b) :
    ChangesOnly slot v h (h.putSlot v slot) := by
  cases slot with
  | inFrame place name => exact changesOnly_setLocal hb
  | inObject place name => exact changesOnly_setMember hb

/-- A name goes on standing for its slot when the slot is given another value. -/
theorem ChangesOnly.innermost {g : Heap} {slot : Slot} (hgh : ChangesOnly slot v g h)
    {scope : Scope} (hslot : g.Innermost name scope slot) : h.Innermost name scope slot := by
  induction hslot with
  | here hslot hthere => exact .here hslot (by rw [hgh.value, Option.isSome_some])
  | outside habsent hscope ih =>
    refine .outside (fun other hother => ?_) (ih hgh)
    -- The slot itself has something in it, and so it is not the one that this link lacks.
    obtain ⟨b, hb⟩ := hscope.exists_slot?
    rw [hgh.others other, habsent other hother]
    rintro rfl
    cases (habsent _ hother).symm.trans hb

/-! ### Assigning -/

/-- Assigning in a link gives the slot another value, unless it is a constant. -/
theorem assignAt_eq {link : Link} {slot : Slot} {b : Binding} (hslot : link.slot? name = some slot)
    (hb : h.slot? slot = some b) :
    h.assignAt name v link
      = if b.changeable then (.ok (), h.putSlot v slot) else (.error .constant, h) := by
  cases link with
  | locals place =>
    cases hslot
    have hget : (h.frame place).get? name = some b := hb
    rw [assignAt, hget, putSlot]
  | members object guarded =>
    cases object with
    | none => cases hslot
    | some place =>
      cases hslot
      obtain ⟨u, -, rfl⟩ := Option.map_eq_some_iff.mp hb
      rfl

theorem assign_of_innermost {scope : Scope} {slot : Slot} {b : Binding}
    (hslot : h.Innermost name scope slot) (hb : h.slot? slot = some b) :
    h.assign name v scope
      = if b.changeable then (.ok (), h.putSlot v slot) else (.error .constant, h) := by
  obtain ⟨link, hlink, hlinkSlot⟩ := innermost_iff.mp hslot
  rw [assign, hlink]
  exact assignAt_eq hlinkSlot hb

/-- A name that stands for no slot cannot be assigned to. -/
theorem assign_of_forall_not {scope : Scope} (hslot : ∀ slot, ¬ h.Innermost name scope slot) :
    h.assign name v scope = (.error (.unbound name), h) := by
  rw [assign]
  cases hlink : h.holder? name scope with
  | none => rfl
  | some link =>
    obtain ⟨slot, hlinkSlot, -⟩ := (holds_iff link).mp (List.find?_some hlink)
    exact absurd (innermost_iff.mpr ⟨link, hlink, hlinkSlot⟩) (hslot slot)

end Heap

section Assigning

variable {scope : Scope} {name : String} {v : Value} {s : Store} {slot : Slot} {b : Binding}

theorem assignName_changeable (hslot : s.heap.Innermost name scope slot)
    (hb : s.heap.slot? slot = some b) (hchangeable : b.changeable = true) :
    assignName scope name v s = .ok () { s with heap := s.heap.putSlot v slot } :=
  run_attempt_ok (by rw [Heap.assign_of_innermost hslot hb, if_pos hchangeable])

theorem assignName_constant (hslot : s.heap.Innermost name scope slot)
    (hb : s.heap.slot? slot = some b) (hchangeable : b.changeable = false) :
    assignName scope name v s = .error (.failed .constant) s := by
  have hassign : s.heap.assign name v scope = (.error .constant, s.heap) := by
    rw [Heap.assign_of_innermost hslot hb, hchangeable, if_neg Bool.false_ne_true]
  exact run_attempt_error hassign

theorem assignName_unbound (hslot : ∀ slot, ¬ s.heap.Innermost name scope slot) :
    assignName scope name v s = .error (.failed (.unbound name)) s := by
  have hassign : s.heap.assign name v scope = (.error (.unbound name), s.heap) :=
    Heap.assign_of_forall_not hslot
  exact run_attempt_error hassign

end Assigning

/-- **Reading and assigning go by the same slot.**  In every scope, a name has the value of the slot
that it stands for, if there is one.  An assignment succeeds just if that slot is a member of an
object or a variable that is no constant; then the slot has the value, the name has it, and nothing
else is changed.  One that fails changes nothing: it fails because the slot is a constant or because
there is no slot. -/
theorem assignName_innermost (scope : Scope) (name : String) (v : Value) (s : Store) :
    (∀ slot b, s.heap.Innermost name scope slot → s.heap.slot? slot = some b →
      valueOf scope name s = .ok b.value s)
    ∧ ((∃ t, assignName scope name v s = .ok () t) ↔ ∃ slot b, s.heap.Innermost name scope slot
        ∧ s.heap.slot? slot = some b ∧ b.changeable = true)
    ∧ (∀ t, assignName scope name v s = .ok () t →
      valueOf scope name t = .ok v t
      ∧ ∃ slot h, s.heap.Innermost name scope slot ∧ Heap.ChangesOnly slot v s.heap h
        ∧ t = { s with heap := h })
    ∧ (∀ halt t, assignName scope name v s = .error halt t → t = s
      ∧ (halt = .failed .constant ∧ (∃ slot b, s.heap.Innermost name scope slot
            ∧ s.heap.slot? slot = some b ∧ b.changeable = false)
        ∨ halt = .failed (.unbound name) ∧ ∀ slot, ¬ s.heap.Innermost name scope slot)) := by
  refine ⟨fun _ _ hslot hb => valueOf_found (Heap.find?_of_innermost hslot hb), ?_⟩
  by_cases hname : ∃ slot, s.heap.Innermost name scope slot
  · obtain ⟨slot, hslot⟩ := hname
    obtain ⟨b, hb⟩ := hslot.exists_slot?
    cases hchangeable : b.changeable with
    | true =>
      rw [assignName_changeable hslot hb hchangeable]
      refine ⟨⟨fun _ => ⟨slot, b, hslot, hb, hchangeable⟩, fun _ => ⟨_, rfl⟩⟩, ?_, nofun⟩
      rintro t ⟨⟩
      have hchanges := Heap.changesOnly_putSlot (v := v) hb
      exact ⟨valueOf_found (Heap.find?_of_innermost (hchanges.innermost hslot) hchanges.value),
        slot, _, hslot, hchanges, rfl⟩
    | false =>
      rw [assignName_constant hslot hb hchangeable]
      refine ⟨⟨nofun, ?_⟩, nofun, ?_⟩
      · rintro ⟨slot', b', hslot', hb', hchangeable'⟩
        cases hslot.unique hslot'
        cases hb.symm.trans hb'
        cases hchangeable.symm.trans hchangeable'
      · rintro halt t ⟨⟩
        exact ⟨rfl, .inl ⟨rfl, slot, b, hslot, hb, hchangeable⟩⟩
  · have hnone : ∀ slot, ¬ s.heap.Innermost name scope slot := fun slot hslot =>
      hname ⟨slot, hslot⟩
    rw [assignName_unbound hnone]
    refine ⟨⟨nofun, fun ⟨slot, _, hslot, _⟩ => absurd hslot (hnone slot)⟩, nofun, ?_⟩
    rintro halt t ⟨⟩
    exact ⟨rfl, .inr ⟨rfl, hnone⟩⟩

end Stencil.Routine
