import Stencil.Proofs.Everywhere
import Stencil.Proofs.LikeSteps

/-!
# Realms of a heap

A run reaches only what can be reached from what it is given and what it makes itself, and it makes
functions only from what is written.  A realm is a part of the heap, together with conditions on
what is written, that a run does not leave: all places that are still free lie in it, what is kept
at its places lies in it again, and the functions in it meet the conditions.

* `Realm`, `Realm.Has`, `Realm.Keeps` — parts of a heap that runs do not leave;
* `Heap.Grows`, `Heap.Aside` — heaps behind which no member is lost, and no variable is changed;
* `Realm.Leads` — a step from a heap to another that keeps a realm, changes no variable and makes no
  native function;
* `Keeps.setMember`, `Keeps.ofJson` and others — the operations on heaps are such steps.
-/

namespace Stencil.Routine

/-- A part of a heap and conditions on what is written. -/
structure Realm where
  /-- The places of its arrays. -/
  arrays : Nat → Prop
  /-- The places of its objects. -/
  objects : Nat → Prop
  /-- The places of its frames. -/
  frames : Nat → Prop
  /-- Its native functions, by the number of the act, their name and what they do. -/
  natives : Nat → String → Native → Prop
  /-- The condition on the expressions of a routine. -/
  exprs : Nat → Expr → Bool
  /-- The condition on the statements of a routine. -/
  stmts : Nat → Stmt → Bool

namespace Realm

/-- The conditions hold everywhere in an expression of the routine. -/
def Admits (R : Realm) (r : Nat) (e : Expr) : Prop := e.every (R.exprs r) (R.stmts r) = true

/-- The conditions hold everywhere in a statement of the routine. -/
def AdmitsStmt (R : Realm) (r : Nat) (s : Stmt) : Prop := s.every (R.exprs r) (R.stmts r) = true

/-- What a link shows lies in the realm. -/
def HasLink (R : Realm) : Link → Prop
  | .locals place => R.frames place
  | .members (some place) _ => R.objects place
  | .members none _ => True

/-- The value lies in the realm.  A function does so if the conditions hold in it and it sees
nothing outside. -/
def Has (R : Realm) : Value → Prop
  | .array place => R.arrays place
  | .object place => R.objects place
  | .native name code identity => R.natives identity name code
  | .closure r site params body scope =>
    R.Admits r (.arrow site params body) ∧ ∀ link ∈ scope, R.HasLink link
  | _ => True

/-- Runs that begin in the realm do not leave it. -/
structure Keeps (R : Realm) (h : Heap) : Prop where
  free_arrays : ∀ place, h.arrays.size ≤ place → R.arrays place
  free_objects : ∀ place, h.objects.size ≤ place → R.objects place
  free_frames : ∀ place, h.frames.size ≤ place → R.frames place
  items : ∀ place, R.arrays place → ∀ v ∈ (h.items place).toList, R.Has v
  members : ∀ place, R.objects place → ∀ e ∈ (h.members place).entries, R.Has e.2
  bindings : ∀ place, R.frames place → ∀ b ∈ (h.frame place).entries, R.Has b.2.value

end Realm

/-! ### What the operations put in their places

Operations at places that a heap does not have change nothing. -/

namespace Heap

theorem mem_items_modifyItems {h : Heap} {place other : Nat} {f : Array Value → Array Value}
    {v : Value} (hv : v ∈ ((h.modifyItems place f).items other).toList) :
    v ∈ (h.items other).toList ∨ (place = other ∧ v ∈ (f (h.items place)).toList) := by
  by_cases hp : place < h.arrays.size
  · rw [items_modifyItems h other f hp] at hv
    split at hv
    · rename_i heq
      exact .inr ⟨heq, hv⟩
    · exact .inl hv
  · refine .inl ?_
    rw [items, modifyItems, Array.getD_eq_getD_getElem?, Array.getElem?_modify] at hv
    rw [items, Array.getD_eq_getD_getElem?]
    split at hv
    · rename_i heq
      rw [← heq, Array.getElem?_eq_none (Nat.le_of_not_lt hp)] at hv ⊢
      exact hv
    · exact hv

/-- A member is set at a place that there is, or nothing changes. -/
theorem members_setMember_cases (h : Heap) (place other : Nat) (name : String) (v : Value) :
    (h.setMember place name v).members other = h.members other
      ∨ (place = other
        ∧ (h.setMember place name v).members other = (h.members place).insert name v) := by
  by_cases hp : place < h.objects.size
  · rw [members_setMember h other name v hp]
    split
    · rename_i heq
      exact .inr ⟨heq, rfl⟩
    · exact .inl rfl
  · refine .inl ?_
    rw [members, setMember, Array.getD_eq_getD_getElem?, Array.getElem?_modify, members,
      Array.getD_eq_getD_getElem?]
    split
    · rename_i heq
      rw [← heq, Array.getElem?_eq_none (Nat.le_of_not_lt hp)]
      rfl
    · rfl

/-- A variable is set in a frame that there is, or nothing changes. -/
theorem frame_setLocal_cases (h : Heap) (place other : Nat) (name : String) (b : Binding) :
    (h.setLocal place name b).frame other = h.frame other
      ∨ (place = other
        ∧ (h.setLocal place name b).frame other = (h.frame place).insert name b) := by
  by_cases hp : place < h.frames.size
  · rw [frame_setLocal h other name b hp]
    split
    · rename_i heq
      exact .inr ⟨heq, rfl⟩
    · exact .inl rfl
  · refine .inl ?_
    rw [frame, setLocal, Array.getD_eq_getD_getElem?, Array.getElem?_modify, frame,
      Array.getD_eq_getD_getElem?]
    split
    · rename_i heq
      rw [← heq, Array.getElem?_eq_none (Nat.le_of_not_lt hp)]
      rfl
    · rfl

/-! ### Members that stay -/

/-- No member is lost on the way to the second heap. -/
def Grows (g h : Heap) : Prop :=
  ∀ place name, (g.members place).contains name = true → (h.members place).contains name = true

/-- No member is lost and no variable is changed on the way to the second heap. -/
structure Aside (g h : Heap) : Prop where
  grows : g.Grows h
  frames : h.frames = g.frames

theorem Grows.refl (h : Heap) : h.Grows h := fun _ _ hname => hname

theorem Grows.trans {g h k : Heap} (hgh : g.Grows h) (hhk : h.Grows k) : g.Grows k :=
  fun place name hname => hhk place name (hgh place name hname)

/-- Where the objects are the same, nothing is lost. -/
theorem Grows.of_objects {g h : Heap} (heq : h.objects = g.objects) : g.Grows h := by
  intro place name hname
  rw [members, heq]
  exact hname

theorem Aside.refl (h : Heap) : h.Aside h := ⟨.refl h, rfl⟩

theorem Aside.trans {g h k : Heap} (hgh : g.Aside h) (hhk : h.Aside k) : g.Aside k :=
  ⟨hgh.grows.trans hhk.grows, hhk.frames.trans hgh.frames⟩

theorem Aside.frame_eq {g h : Heap} (hgh : g.Aside h) (place : Nat) :
    h.frame place = g.frame place := by
  rw [frame, frame, hgh.frames]

end Heap

/-! ### Steps on heaps -/

namespace Realm

/-- A step from a heap of the realm to another that changes no variable and makes no native
function. -/
structure Leads (R : Realm) (g h : Heap) : Prop where
  keeps : R.Keeps h
  aside : g.Aside h
  identities : h.identities = g.identities

variable {R : Realm} {g h k : Heap}

theorem Leads.refl (hg : R.Keeps g) : R.Leads g g := ⟨hg, .refl g, rfl⟩

theorem Leads.trans (hgh : R.Leads g h) (hhk : R.Leads h k) : R.Leads g k :=
  ⟨hhk.keeps, hgh.aside.trans hhk.aside, hhk.identities.trans hgh.identities⟩

namespace Keeps

variable (hg : R.Keeps g)
include hg

/-- The items of an array are replaced by others of the realm. -/
theorem modifyItems {place : Nat} {f : Array Value → Array Value}
    (hf : ∀ v ∈ (f (g.items place)).toList, R.Has v) : R.Leads g (g.modifyItems place f) := by
  refine ⟨⟨?_, hg.free_objects, hg.free_frames, ?_, hg.members, hg.bindings⟩,
    ⟨.of_objects rfl, rfl⟩, rfl⟩
  · rw [Heap.modifyItems, Array.size_modify]
    exact hg.free_arrays
  · intro other hother v hv
    rcases Heap.mem_items_modifyItems hv with hv | ⟨-, hv⟩
    · exact hg.items other hother v hv
    · exact hf v hv

theorem newArray (xs : Array Value) (hxs : ∀ v ∈ xs.toList, R.Has v) :
    R.Leads g (g.newArray xs).2 ∧ R.Has (g.newArray xs).1 := by
  have hsize : (g.newArray xs).2.arrays.size = g.arrays.size + 1 := Array.size_push _
  refine ⟨⟨⟨?_, hg.free_objects, hg.free_frames, ?_, hg.members, hg.bindings⟩,
    ⟨.of_objects rfl, rfl⟩, rfl⟩, hg.free_arrays _ le_rfl⟩
  · rw [hsize]
    exact fun place hplace => hg.free_arrays place (by omega)
  · intro place hplace v hv
    rw [Heap.items_newArray] at hv
    split at hv
    · exact hxs v hv
    · exact hg.items place hplace v hv

theorem setMember (place : Nat) (name : String) {v : Value} (hv : R.Has v) :
    R.Leads g (g.setMember place name v) := by
  refine ⟨⟨hg.free_arrays, ?_, hg.free_frames, hg.items, ?_, hg.bindings⟩, ⟨?_, rfl⟩, rfl⟩
  · rw [Heap.setMember, Array.size_modify]
    exact hg.free_objects
  · intro other hother e he
    rcases Heap.members_setMember_cases g place other name v with heq | ⟨rfl, heq⟩
    · exact hg.members other hother e (heq ▸ he)
    · rw [heq] at he
      rcases mem_putName he with he | he
      · exact hg.members place hother e he
      · exact he ▸ hv
  · intro other key hkey
    rcases Heap.members_setMember_cases g place other name v with heq | ⟨rfl, heq⟩
    · rwa [heq]
    · rw [heq, Roster.contains, Roster.get?_insert]
      split
      · rfl
      · exact hkey

theorem newObject {ms : Roster Value} (hms : ∀ e ∈ ms.entries, R.Has e.2) :
    R.Leads g (g.newObject ms).2 ∧ R.Has (g.newObject ms).1 := by
  have hsize : (g.newObject ms).2.objects.size = g.objects.size + 1 := Array.size_push _
  refine ⟨⟨⟨hg.free_arrays, ?_, hg.free_frames, hg.items, ?_, hg.bindings⟩, ⟨?_, rfl⟩, rfl⟩,
    hg.free_objects _ le_rfl⟩
  · rw [hsize]
    exact fun place hplace => hg.free_objects place (by omega)
  · intro place hplace e he
    rw [Heap.members_newObject] at he
    split at he
    · exact hms e he
    · exact hg.members place hplace e he
  · intro place name hname
    rw [Heap.members_newObject]
    split
    · -- There were no members at this place.
      rename_i heq
      rw [heq, Heap.members, Array.getD_eq_getD_getElem?, Array.getElem?_eq_none le_rfl] at hname
      cases hname
    · exact hname

/-- A new native function leaves everything else as it is. -/
theorem newNative (name : String) (code : Native) :
    R.Keeps (g.newNative name code).2 ∧ g.Aside (g.newNative name code).2 :=
  ⟨⟨hg.free_arrays, hg.free_objects, hg.free_frames, hg.items, hg.members, hg.bindings⟩,
    ⟨.of_objects rfl, rfl⟩⟩

/-- New native functions, if the realm has them whatever their numbers are. -/
theorem newNatives {functions : List (String × Native)}
    (hfunctions : ∀ identity, ∀ f ∈ functions, R.natives identity f.1 f.2) :
    R.Keeps (g.newNatives functions).2 ∧ g.Aside (g.newNatives functions).2
      ∧ R.Has (g.newNatives functions).1 := by
  -- The functions are made one after the other, and then their object.
  have hmade : ∀ start : Roster Value × Heap, R.Keeps start.2 →
      (∀ e ∈ start.1.entries, R.Has e.2) →
      R.Keeps (Likeness.collectNatives functions start).2
        ∧ start.2.Aside (Likeness.collectNatives functions start).2
        ∧ ∀ e ∈ (Likeness.collectNatives functions start).1.entries, R.Has e.2 := by
    induction functions with
    | nil => exact fun start hstart hentries => ⟨hstart, .refl _, hentries⟩
    | cons f fs ih =>
      intro start hstart hentries
      obtain ⟨hkeeps, haside⟩ := hstart.newNative f.1 f.2
      have hhas : R.Has (start.2.newNative f.1 f.2).1 := hfunctions _ f List.mem_cons_self
      obtain ⟨hrest, hasides, hall⟩ := ih (fun i g hg => hfunctions i g (List.mem_cons_of_mem _ hg))
        (start.1.insert f.1 _, _) hkeeps fun e he =>
          (mem_putName he).elim (hentries e) fun heq => heq ▸ hhas
      exact ⟨hrest, haside.trans hasides, hall⟩
  obtain ⟨hkeeps, haside, hall⟩ := hmade (.empty, g) hg nofun
  obtain ⟨hobject, hhas⟩ := hkeeps.newObject hall
  exact ⟨hobject.keeps, haside.trans hobject.aside, hhas⟩

omit hg in
/-- The roster of entries of the realm has only such entries. -/
theorem ofList {es : List (String × Value)} (hes : ∀ e ∈ es, R.Has e.2) :
    ∀ e ∈ (Roster.ofList es).entries, R.Has e.2 := by
  have go : ∀ r : Roster Value, (∀ e ∈ r.entries, R.Has e.2) →
      ∀ e ∈ (r.insertAll es).entries, R.Has e.2 := by
    induction es with
    | nil => exact fun _ hr => hr
    | cons e es ih =>
      obtain ⟨he, hes⟩ := List.forall_mem_cons.mp hes
      exact fun r hr => ih hes (r.insert e.1 e.2) fun e' he' =>
        (mem_putName he').elim (hr e') fun heq => heq ▸ he
  exact go .empty nofun

end Keeps

mutual

theorem Keeps.ofJson {g : Heap} (hg : R.Keeps g) : (json : Json) →
    R.Leads g (g.ofJson json).2 ∧ R.Has (g.ofJson json).1
  | .null => ⟨.refl hg, trivial⟩
  | .bool _ => ⟨.refl hg, trivial⟩
  | .number _ => ⟨.refl hg, trivial⟩
  | .text _ => ⟨.refl hg, trivial⟩
  | .array items => by
    obtain ⟨hleads, hall⟩ := hg.ofJsonItems items
    obtain ⟨hnew, hhas⟩ := hleads.keeps.newArray (g.ofJsonItems items).1.toArray hall
    exact ⟨hleads.trans hnew, hhas⟩
  | .object members => by
    obtain ⟨hleads, hall⟩ := hg.ofJsonMembers members
    obtain ⟨hnew, hhas⟩ := hleads.keeps.newObject (Keeps.ofList hall)
    exact ⟨hleads.trans hnew, hhas⟩

theorem Keeps.ofJsonItems {g : Heap} (hg : R.Keeps g) : (items : List Json) →
    R.Leads g (g.ofJsonItems items).2 ∧ ∀ v ∈ (g.ofJsonItems items).1, R.Has v
  | [] => ⟨.refl hg, nofun⟩
  | json :: items => by
    obtain ⟨hleads, hhas⟩ := hg.ofJson json
    obtain ⟨hrest, hall⟩ := hleads.keeps.ofJsonItems items
    exact ⟨hleads.trans hrest, List.forall_mem_cons.mpr ⟨hhas, hall⟩⟩

theorem Keeps.ofJsonMembers {g : Heap} (hg : R.Keeps g) : (members : List (String × Json)) →
    R.Leads g (g.ofJsonMembers members).2 ∧ ∀ e ∈ (g.ofJsonMembers members).1, R.Has e.2
  | [] => ⟨.refl hg, nofun⟩
  | (_, json) :: members => by
    obtain ⟨hleads, hhas⟩ := hg.ofJson json
    obtain ⟨hrest, hall⟩ := hleads.keeps.ofJsonMembers members
    exact ⟨hleads.trans hrest, List.forall_mem_cons.mpr ⟨hhas, hall⟩⟩

end

/-! ### Steps that change variables -/

theorem Keeps.newFrame (hg : R.Keeps g) : R.Keeps g.newFrame.2 := by
  refine ⟨hg.free_arrays, hg.free_objects, ?_, hg.items, hg.members, ?_⟩
  · intro place hplace
    rw [Heap.size_newFrame] at hplace
    exact hg.free_frames place (by omega)
  · intro place hplace b hb
    rw [Heap.frame_newFrame] at hb
    split at hb
    · cases hb
    · exact hg.bindings place hplace b hb

theorem Keeps.setLocal (hg : R.Keeps g) (place : Nat) (name : String) {b : Binding}
    (hb : R.Has b.value) : R.Keeps (g.setLocal place name b) := by
  refine ⟨hg.free_arrays, hg.free_objects, ?_, hg.items, hg.members, ?_⟩
  · rw [Heap.size_setLocal]
    exact hg.free_frames
  · intro other hother c hc
    rcases Heap.frame_setLocal_cases g place other name b with heq | ⟨rfl, heq⟩
    · exact hg.bindings other hother c (heq ▸ hc)
    · rw [heq] at hc
      rcases mem_putName hc with hc | hc
      · exact hg.bindings place hother c hc
      · exact hc ▸ hb

/-- What a link of the realm gives to a name lies in the realm. -/
theorem Keeps.linkValue (hg : R.Keeps g) {l : Link} (hl : R.HasLink l) {name : String} {v : Value}
    (hv : g.linkValue? name l = some v) : R.Has v := by
  cases l with
  | locals place =>
    obtain ⟨b, hb, rfl⟩ := Option.map_eq_some_iff.mp hv
    exact hg.bindings place hl (name, b) (mem_of_lookupName hb)
  | members object guarded =>
    cases object with
    | none => cases hv
    | some place => exact hg.members place hl (name, v) (mem_of_lookupName hv)

/-- What a scope of the realm gives to a name lies in the realm. -/
theorem Keeps.find? (hg : R.Keeps g) {scope : Scope} (hs : ∀ l ∈ scope, R.HasLink l)
    {name : String} {v : Value} (hv : g.find? name scope = some v) : R.Has v := by
  obtain ⟨l, hl, hvalue⟩ := List.exists_of_findSome?_eq_some hv
  exact hg.linkValue (hs l hl) hvalue

end Realm

end Stencil.Routine
