import Stencil.Proofs.Realms
import Stencil.Proofs.Targets

/-!
# Steps that leave variables alone

Conversions, members, items and the functions that need no other function keep a realm, change no
variable and make no native function, whether they fail or not.  What they come to lies in the realm
if what they are given does.

* `Realm.Quiet` — such steps, if what they come to has a property;
* `Quiet.looks` — steps that only look are quiet;
* `Quiet.putProperty`, `Quiet.getItem` and others — members and items;
* `Quiet.builtin`, `Quiet.textMethod`, `Quiet.arrayMethod` — the functions that need no other
  function.
-/

namespace Stencil.Routine

/-- Whether the method calls a function with the items. -/
def ArrayMethod.callsFunctions : ArrayMethod → Bool
  | .forEach => true
  | .map => true
  | .filter => true
  | .find => true
  | .findIndex => true
  | .anyOf => true
  | .allOf => true
  | .reduce => true
  | _ => false

namespace Realm

/-- From a store to another: only the heap is different, and the realm is kept. -/
structure Passes (R : Realm) (s t : Store) : Prop where
  leads : R.Leads s.heap t.heap
  store : t = { s with heap := t.heap }

/-- The steps keep the realm, change no variable and make no native function, whether they fail or
not, and what they come to has the property. -/
structure Quiet (R : Realm) {α : Type} (P : α → Prop) (m : Run α) : Prop where
  ok {s : Store} {a : α} {t : Store} : R.Keeps s.heap → m s = .ok a t → R.Passes s t ∧ P a
  halted {s : Store} {halt : Halt} {t : Store} : R.Keeps s.heap → m s = .error halt t →
    R.Passes s t

/-- The values lie in the realm. -/
def HasAll (R : Realm) (vs : List Value) : Prop := ∀ v ∈ vs, R.Has v

variable {R : Realm} {α β : Type}

theorem Passes.refl {s : Store} (hs : R.Keeps s.heap) : R.Passes s s := ⟨.refl hs, rfl⟩

theorem Passes.trans {s t u : Store} (hst : R.Passes s t) (htu : R.Passes t u) : R.Passes s u := by
  refine ⟨hst.leads.trans htu.leads, htu.store.trans ?_⟩
  rw [hst.store]

theorem HasAll.argument {args : List Value} (h : R.HasAll args) (i : Nat) :
    R.Has (argument args i) := by
  unfold Routine.argument
  cases hi : args[i]? with
  | none => trivial
  | some v => exact h v (List.mem_of_getElem? hi)

theorem HasAll.cons {v : Value} {vs : List Value} (hv : R.Has v) (hvs : R.HasAll vs) :
    R.HasAll (v :: vs) :=
  List.forall_mem_cons.mpr ⟨hv, hvs⟩

theorem HasAll.nil : R.HasAll [] := nofun

theorem HasAll.texts {γ : Type} (f : γ → String) (cs : List γ) :
    R.HasAll (cs.map fun c => .text (f c)) := by
  intro v hv
  obtain ⟨c, -, rfl⟩ := List.mem_map.mp hv
  trivial

namespace Quiet

variable {P : α → Prop} {Q : β → Prop} {m : Run α} {f : α → Run β}

theorem pure {a : α} (h : P a) : R.Quiet P (Pure.pure a) where
  ok hs hm := by
    cases hm
    exact ⟨.refl hs, h⟩
  halted _ hm := nomatch hm

theorem halt (halt : Halt) : R.Quiet P (throw halt : Run α) where
  ok _ hm := nomatch hm
  halted hs hm := by
    cases hm
    exact .refl hs

theorem fail (e : Failure) : R.Quiet P (Run.fail e) := halt (.failed e)

theorem endless : R.Quiet P Run.endless := halt .endless

theorem imp {P' : α → Prop} (h : R.Quiet P m) (himp : ∀ a, P a → P' a) : R.Quiet P' m :=
  ⟨fun hs hm => (h.ok hs hm).imp_right (himp _), h.halted⟩

theorem bind (hm : R.Quiet P m) (hf : ∀ a, P a → R.Quiet Q (f a)) : R.Quiet Q (m >>= f) where
  ok hs hb := by
    obtain ⟨a, t, ha, hb⟩ := exists_of_run_bind_ok hb
    obtain ⟨hpasses, hP⟩ := hm.ok hs ha
    obtain ⟨hpasses', hQ⟩ := (hf a hP).ok hpasses.leads.keeps hb
    exact ⟨hpasses.trans hpasses', hQ⟩
  halted {s _ _} hs hb := by
    cases ha : m s with
    | error halt t =>
      cases (run_bind_error ha).symm.trans hb
      exact hm.halted hs ha
    | ok a t =>
      obtain ⟨hpasses, hP⟩ := hm.ok hs ha
      rw [run_bind_ok ha] at hb
      exact hpasses.trans ((hf a hP).halted hpasses.leads.keeps hb)

/-- Steps that only look. -/
theorem looks (h : Looks m) : R.Quiet (fun _ => True) m where
  ok hs hm := by
    rw [h.store_eq hm]
    exact ⟨.refl hs, trivial⟩
  halted {s _ _} hs hm := by
    rcases h s with ⟨a, ha⟩ | ⟨halt, ha⟩
    · cases ha.symm.trans hm
    · cases ha.symm.trans hm
      exact .refl hs

/-- What follows a step that only looks. -/
theorem look (h : Looks m) (hf : ∀ a, R.Quiet Q (f a)) : R.Quiet Q (m >>= f) :=
  (looks h).bind fun a _ => hf a

theorem heap : R.Quiet R.Keeps Run.heap where
  ok hs hm := by
    cases hm
    exact ⟨.refl hs, hs⟩
  halted _ hm := nomatch hm

theorem make {act : Heap → α × Heap}
    (h : ∀ g, R.Keeps g → R.Leads g (act g).2 ∧ P (act g).1) : R.Quiet P (Run.make act) where
  ok {s _ _} hs hm := by
    cases hm
    exact ⟨⟨(h s.heap hs).1, rfl⟩, (h s.heap hs).2⟩
  halted _ hm := nomatch hm

theorem change {act : Heap → Heap} (h : ∀ g, R.Keeps g → R.Leads g (act g)) :
    R.Quiet (fun _ => True) (Run.change act) where
  ok {s _ _} hs hm := by
    cases hm
    exact ⟨⟨h s.heap hs, rfl⟩, trivial⟩
  halted _ hm := nomatch hm

theorem attempt {act : Heap → Except Failure α × Heap}
    (h : ∀ g, R.Keeps g → R.Leads g (act g).2 ∧ ∀ a, (act g).1 = .ok a → P a) :
    R.Quiet P (Run.attempt act) := by
  refine (make (P := fun r => ∀ a, r = .ok a → P a) h).bind fun r hr => ?_
  cases r with
  | ok a => exact pure (hr a rfl)
  | error e => exact fail e

theorem mapM {P : α → Prop} {f : α → Run β} {as : List α} (has : ∀ a ∈ as, P a)
    (hf : ∀ a, P a → R.Quiet Q (f a)) : R.Quiet (fun bs => ∀ b ∈ bs, Q b) (as.mapM f) := by
  induction as with
  | nil => exact pure nofun
  | cons a as ih =>
    obtain ⟨ha, has⟩ := List.forall_mem_cons.mp has
    rw [List.mapM_cons]
    exact (hf a ha).bind fun b hb => (ih has).bind fun bs hbs =>
      pure (List.forall_mem_cons.mpr ⟨hb, hbs⟩)

theorem newArray {vs : List Value} (h : R.HasAll vs) : R.Quiet R.Has (Run.newArray vs.toArray) :=
  make fun _ hg => hg.newArray vs.toArray h

theorem newObject {es : List (String × Value)} (h : ∀ e ∈ es, R.Has e.2) :
    R.Quiet R.Has (Run.newObject (.ofList es)) :=
  make fun _ hg => hg.newObject (Keeps.ofList h)

/-! ### Signs -/

theorem has_of_sum {h : Heap} {a b v : Value} (hv : h.sum a b = some v) : R.Has v := by
  simp only [Heap.sum, Option.bind_eq_bind, Option.bind_eq_some_iff] at hv
  obtain ⟨x, -, y, -, hv⟩ := hv
  split at hv
  · cases hv
    trivial
  · simp only [Option.bind_eq_some_iff] at hv
    obtain ⟨_, -, _, -, hv⟩ := hv
    cases hv
    trivial

theorem has_of_binary {h : Heap} {op : BinaryOp} {a b v : Value} (hv : h.binary op a b = some v) :
    R.Has v := by
  have harithmetic {f : Float → Float → Float} (hv : h.arithmetic f a b = some v) : R.Has v := by
    simp only [Heap.arithmetic, Option.bind_eq_bind, Option.bind_eq_some_iff] at hv
    obtain ⟨_, -, _, -, hv⟩ := hv
    cases hv
    trivial
  have hbool {x : Option Bool} {f : Bool → Bool}
      (hv : (do return .bool (f (← x)) : Option Value) = some v) : R.Has v := by
    obtain ⟨_, -, hv⟩ := Option.bind_eq_some_iff.mp hv
    cases hv
    trivial
  cases op with
  | add => exact has_of_sum hv
  | subtract | multiply | divide | remainder => exact harithmetic hv
  | equal => exact hbool (f := id) hv
  | unequal => exact hbool (f := not) hv
  | strictEqual | strictUnequal =>
    cases hv
    trivial
  | less | atMost | greater | atLeast => exact hbool (f := id) hv

theorem has_of_unary {h : Heap} {op : UnaryOp} {a v : Value} (hv : h.unary op a = some v) :
    R.Has v := by
  cases op with
  | negation | kind =>
    cases hv
    trivial
  | minus | plus =>
    obtain ⟨_, -, hv⟩ := Option.bind_eq_some_iff.mp hv
    cases hv
    trivial

theorem finite {x : Option α} (h : ∀ a, x = some a → P a) : R.Quiet P (Run.finite x) := by
  cases x with
  | none => exact endless
  | some a => exact pure (h a rfl)

theorem binary (op : BinaryOp) (a b : Value) :
    R.Quiet R.Has (do Run.finite ((← Run.heap).binary op a b)) :=
  heap.bind fun _ _ => finite fun _ => has_of_binary

theorem unary (op : UnaryOp) (a : Value) :
    R.Quiet R.Has (do Run.finite ((← Run.heap).unary op a)) :=
  heap.bind fun _ _ => finite fun _ => has_of_unary

/-! ### Members and items -/

theorem has_of_property {h : Heap} (hh : R.Keeps h) {v found : Value} (hv : R.Has v) {key : String}
    (hfound : h.property? v key = some found) : R.Has found := by
  cases v with
  | undefined | null => cases hfound
  | bool | number | native | closure =>
    cases hfound
    trivial
  | object place =>
    cases hfound
    cases hmember : (h.members place).get? key with
    | none => trivial
    | some v => exact hh.members place hv (key, v) (mem_of_lookupName hmember)
  | array place =>
    simp only [Heap.property?] at hfound
    split at hfound
    · cases hfound
      trivial
    · cases hfound
      cases placeOf? key with
      | none => trivial
      | some i =>
        rw [Option.bind_some]
        cases hitem : (h.items place)[i]? with
        | none => trivial
        | some v =>
          exact hh.items place hv v (Array.mem_toList_iff.mpr (Array.mem_of_getElem? hitem))
  | text s =>
    simp only [Heap.property?] at hfound
    split at hfound
    · cases hfound
      trivial
    · cases hfound
      cases placeOf? key with
      | none => trivial
      | some i =>
        rw [Option.bind_some]
        cases s.toList[i]? <;> trivial

theorem getProperty {v : Value} (hv : R.Has v) (key : String) :
    R.Quiet R.Has (getProperty v key) := by
  refine heap.bind fun h hh => ?_
  cases hfound : h.property? v key with
  | none => exact fail _
  | some found => exact pure (has_of_property hh hv hfound)

theorem getItem {v : Value} (hv : R.Has v) (key : Value) : R.Quiet R.Has (getItem v key) :=
  look (.textOf key) fun _ => getProperty hv _

theorem hasAll_putAt {items : Array Value} {v : Value} (hitems : R.HasAll items.toList)
    (hv : R.Has v) (place : Nat) : R.HasAll (Heap.putAt items place v).toList := by
  unfold Heap.putAt
  intro u hu
  split at hu
  · rw [Array.toList_setIfInBounds] at hu
    rcases List.mem_or_eq_of_mem_set hu with hu | rfl
    · exact hitems u hu
    · exact hv
  · simp only [Array.toList_push, Array.toList_append, List.mem_append, List.mem_singleton,
      Array.toList_replicate] at hu
    rcases hu with (hu | hu) | rfl
    · exact hitems u hu
    · rw [List.eq_of_mem_replicate hu]
      trivial
    · exact hv

theorem putProperty {target v : Value} (htarget : R.Has target) (key : String) (hv : R.Has v) :
    R.Quiet (fun _ => True) (putProperty target key v) := by
  refine attempt fun g hg => ⟨?_, fun _ _ => trivial⟩
  cases target with
  | undefined | null | bool | number | text | native | closure => exact .refl hg
  | object place => exact hg.setMember place key hv
  | array array =>
    simp only [Heap.setProperty]
    cases placeOf? key with
    | none => exact .refl hg
    | some place =>
      simp only [Heap.setItem]
      split
      · exact .refl hg
      · exact hg.modifyItems (hasAll_putAt (hg.items array htarget) hv place)

theorem putItem {target v : Value} (htarget : R.Has target) (key : Value) (hv : R.Has v) :
    R.Quiet (fun _ => True) (putItem target key v) :=
  look (.textOf key) fun _ => putProperty htarget _ hv

theorem itemsAt {place : Nat} (hplace : R.arrays place) : R.Quiet R.HasAll (itemsAt place) :=
  heap.bind fun _ hh => pure (hh.items place hplace)

theorem itemsIn {v : Value} (hv : R.Has v) : R.Quiet R.HasAll (itemsIn v) := by
  cases v with
  | array place => exact itemsAt hv
  | text s => exact pure (.texts charText s.toList)
  | undefined | null | bool | number | object | native | closure =>
    exact look (.textOf _) fun _ => fail _

theorem keysIn (v : Value) : R.Quiet R.HasAll (keysIn v) := by
  cases v with
  | object place => exact heap.bind fun _ _ => pure (.texts id _)
  | array place => exact heap.bind fun _ _ => pure (.texts Decimal.naturalText _)
  | text s => exact pure (.texts Decimal.naturalText _)
  | undefined | null | bool | number | native | closure => exact pure .nil

/-! ### Functions that every routine can name -/

theorem numeric (f : Float → Float) (args : List Value) : R.Quiet R.Has (numeric f args) :=
  look (.numberOf _) fun _ => pure trivial

theorem builtin (b : Builtin) {args : List Value} (hargs : R.HasAll args) :
    R.Quiet R.Has (b.apply args) := by
  have hfirst := hargs.argument 0
  cases b with
  | string | number =>
    cases args with
    | nil => exact pure trivial
    | cons v vs =>
      first
        | exact look (.textOf v) fun _ => pure trivial
        | exact look (.numberOf v) fun _ => pure trivial
  | boolean => exact pure trivial
  | parseInt | parseFloat => exact look (.textOf _) fun _ => pure trivial
  | isNaN => exact look (.numberOf _) fun _ => pure trivial
  | stringify =>
    refine heap.bind fun h _ => look (.finite _) fun json => ?_
    cases json with
    | none => exact pure trivial
    | some json => exact pure trivial
  | parse =>
    refine look (.textOf _) fun s => ?_
    cases Json.read s with
    | ok json => exact make fun _ hg => hg.ofJson json
    | error e => exact fail _
  | keys => exact (keysIn _).bind fun _ hks => newArray hks
  | values =>
    exact (keysIn _).bind fun _ hks => (mapM hks fun key _ => getItem hfirst key).bind
      fun _ hvs => newArray hvs
  | entries =>
    refine (keysIn _).bind fun _ hks => (mapM hks fun key hkey => ?_).bind
      fun _ hvs => newArray hvs
    refine (getItem hfirst key).bind fun v hv => ?_
    have hpair : R.HasAll [key, v] := .cons hkey (.cons hv .nil)
    exact newArray hpair
  | isArray =>
    simp only [Builtin.apply]
    split <;> exact pure trivial
  | floor | ceil | round | abs | sqrt | trunc => exact numeric _ args
  | min | max =>
    exact (mapM (P := fun _ => True) (Q := fun _ => True) (fun _ _ => trivial)
      fun v _ => looks (.numberOf v)).bind fun _ _ => pure trivial
  | pow => exact look (.numberOf _) fun _ => look (.numberOf _) fun _ => pure trivial

/-! ### Methods of texts and numbers -/

theorem looks_placeArgument (v : Value) (length standard : Nat) :
    Looks (placeArgument v length standard) := by
  cases v with
  | undefined => exact .pure _
  | _ => exact (Looks.numberOf _).bind fun _ => .pure _

theorem looks_naturalArgument (v : Value) : Looks (naturalArgument v) :=
  (Looks.numberOf v).bind fun _ => .pure _

theorem looks_charsArgument (args : List Value) (i : Nat) : Looks (charsArgument args i) :=
  (Looks.textOf _).bind fun _ => .pure _

theorem looks_paddingFor (s : String) (args : List Value) : Looks (paddingFor s args) := by
  have hpad (target : Nat) (filler : List Char) : Looks
      (if target ≤ s.length || filler.isEmpty then return ""
        else if textLengthLimit < target then Run.fail .textLength
        else return Text.filling filler (target - s.length)) := by
    split
    · exact .pure _
    split
    · exact .fail _
    · exact .pure _
  refine (looks_naturalArgument _).bind fun target => ?_
  dsimp only
  split
  · exact hpad target [' ']
  · exact (Looks.textOf _).bind fun filler => hpad target filler.toList

theorem splitText (cs : List Char) (args : List Value) : R.Quiet R.Has (splitText cs args) := by
  unfold Routine.splitText
  split
  · have hwhole : R.HasAll [charsValue cs] := .cons trivial .nil
    exact newArray hwhole
  · exact look (.textOf _) fun _ => newArray (.texts String.ofList _)

theorem repeatText (s : String) (v : Value) : R.Quiet R.Has (repeatText s v) := by
  refine look (.numberOf v) fun x => ?_
  dsimp only
  split
  · exact fail _
  split
  · exact pure trivial
  split
  · exact fail _
  · exact pure trivial

theorem textMethod (m : TextMethod) (s : String) (args : List Value) :
    R.Quiet R.Has (m.apply s args) := by
  cases m with
  | upper | lower | trim | trimStart | trimEnd | itself => exact pure trivial
  | includes | startsWith | endsWith =>
    exact look (looks_charsArgument args 0) fun _ => pure trivial
  | indexOf =>
    refine look (looks_charsArgument args 0) fun needle => ?_
    cases Text.indexOf? needle s.toList with
    | none => exact pure trivial
    | some i => exact pure trivial
  | split => exact splitText _ args
  | replace | replaceAll =>
    exact look (looks_charsArgument args 0) fun _ => look (looks_charsArgument args 1)
      fun _ => pure trivial
  | slice | substring =>
    exact look (looks_placeArgument _ _ _) fun _ => look (looks_placeArgument _ _ _)
      fun _ => pure trivial
  | charAt => exact look (looks_naturalArgument _) fun _ => pure trivial
  | repeated => exact repeatText s _
  | padStart | padEnd => exact look (looks_paddingFor s args) fun _ => pure trivial

theorem numberMethod (m : NumberMethod) (x : Float) (args : List Value) :
    R.Quiet R.Has (m.apply x args) := by
  cases m with
  | text => exact pure trivial
  | fixed =>
    refine look (looks_naturalArgument _) fun places => ?_
    split
    · exact fail _
    · exact pure trivial

/-! ### Methods of arrays that call no function -/

theorem looks_itemText (v : Value) : Looks (itemText v) := by
  unfold itemText
  split
  · exact .pure _
  · exact .textOf v

theorem spread {v : Value} (hv : R.Has v) : R.Quiet R.HasAll (spread v) := by
  cases v with
  | array place => exact itemsAt hv
  | undefined | null | bool | number | text | object | native | closure =>
    exact pure (.cons hv .nil)

theorem arrayMethod (call : Caller) {m : ArrayMethod} (hm : m.callsFunctions = false) {place : Nat}
    (hplace : R.arrays place) {args : List Value} (hargs : R.HasAll args) :
    R.Quiet R.Has (m.apply call place args) := by
  have hitems := itemsAt hplace
  cases m with
  | forEach | map | filter | find | findIndex | anyOf | allOf | reduce => cases hm
  | join =>
    have hjoined (separator : String) : R.Quiet R.Has (do
        return .text (separator.intercalate
          (← (← Routine.itemsAt place).mapM itemText))) :=
      hitems.bind fun vs hvs => (mapM (Q := fun _ => True) hvs
        fun v _ => looks (looks_itemText v)).bind fun _ _ => pure trivial
    simp only [ArrayMethod.apply]
    split
    · exact hjoined ","
    · exact look (.textOf _) hjoined
  | includes => exact hitems.bind fun _ _ => pure trivial
  | indexOf =>
    refine hitems.bind fun vs _ => ?_
    split <;> exact pure trivial
  | push =>
    refine (change fun g hg => hg.modifyItems ?_).bind fun _ _ => heap.bind fun _ _ => pure trivial
    intro v hv
    rw [Array.toList_appendList, List.mem_append] at hv
    exact hv.elim (hg.items place hplace v) (hargs v)
  | pop =>
    refine heap.bind fun h hh => (change fun g hg => hg.modifyItems ?_).bind fun _ _ => pure ?_
    · intro v hv
      rw [Array.toList_pop] at hv
      exact hg.items place hplace v ((List.dropLast_sublist _).subset hv)
    · cases hlast : (h.items place).back? with
      | none => trivial
      | some v =>
        exact hh.items place hplace v (Array.mem_toList_iff.mpr (Array.mem_of_back? hlast))
  | slice =>
    refine hitems.bind fun vs hvs => look (looks_placeArgument _ _ _) fun start =>
      look (looks_placeArgument _ _ _) fun stop => newArray fun v hv => hvs v ?_
    exact List.mem_of_mem_drop (List.mem_of_mem_take hv)
  | reverse =>
    refine (change fun g hg => hg.modifyItems ?_).bind fun _ _ => pure hplace
    intro v hv
    rw [Array.toList_reverse, List.mem_reverse] at hv
    exact hg.items place hplace v hv
  | concat =>
    refine (mapM hargs fun v hv => spread hv).bind fun more hmore => hitems.bind fun vs hvs =>
      newArray fun v hv => ?_
    rcases List.mem_append.mp hv with hv | hv
    · exact hvs v hv
    · obtain ⟨row, hrow, hv⟩ := List.mem_flatten.mp hv
      exact hmore row hrow v hv
  | text => exact look (.textOf _) fun _ => pure trivial

/-- Calls through values that are neither objects nor arrays. -/
theorem callMethod (call : Caller) {receiver : Value} (hobject : ∀ place, receiver ≠ .object place)
    (harray : ∀ place, receiver ≠ .array place) (name : String) (args : List Value) :
    R.Quiet R.Has (callMethod call receiver name args) := by
  cases receiver with
  | object place => exact absurd rfl (hobject place)
  | array place => exact absurd rfl (harray place)
  | undefined | null | native | closure => exact fail _
  | text s =>
    simp only [Routine.callMethod]
    cases TextMethod.ofName? name with
    | none => exact fail _
    | some m => exact textMethod m s args
  | number x =>
    simp only [Routine.callMethod]
    cases NumberMethod.ofName? name with
    | none => exact fail _
    | some m => exact numberMethod m x args
  | bool b =>
    simp only [Routine.callMethod]
    split
    · exact pure trivial
    · exact fail _

theorem looks_raisedText (v : Value) : Looks (raisedText v) := by
  cases v with
  | object place =>
    refine Looks.heap.bind fun h => ?_
    cases (h.members place).get? "message" with
    | none => exact .textOf _
    | some message => exact .textOf message
  | undefined | null | bool | number | text | array | native | closure => exact .textOf _

end Quiet

end Realm

end Stencil.Routine
