import Stencil.Proofs.Likeness

/-!
# Steps that respect a likeness

What a run does with values, names and the heap, one step after the other: each step comes to the
same on both sides.

* `Values.*` — what can be seen of a value without the heap;
* `Computes` — conversions and signs, which have no result only in a knotted heap;
* `Settles.textOf` to `Settles.valueOf` — members, items and names;
* `Settles.builtin`, `Settles.textMethod`, `Settles.numberMethod` — the functions that need no
  other function.
-/

namespace Stencil.Routine

open Filter

/-! ### Named entries that are related -/

section Named

variable {α : Type} {R : α → α → Prop} {es es' : List (String × α)}
  (h : List.Forall₂ (fun e e' => e.1 = e'.1 ∧ R e.2 e'.2) es es') (name : String)
include h

theorem forall₂_lookupName : Option.Rel R (lookupName name es) (lookupName name es') := by
  induction h with
  | nil => exact .none
  | @cons e e' es es' he _ ih =>
    obtain ⟨key, a⟩ := e
    obtain ⟨key', a'⟩ := e'
    obtain ⟨rfl, ha⟩ := he
    simp only [lookupName]
    split
    · exact .some ha
    · exact ih

theorem forall₂_putName {a a' : α} (ha : R a a') :
    List.Forall₂ (fun e e' => e.1 = e'.1 ∧ R e.2 e'.2) (putName name a es)
      (putName name a' es') := by
  induction h with
  | nil => exact .cons ⟨rfl, ha⟩ .nil
  | @cons e e' es es' he hes ih =>
    obtain ⟨key, b⟩ := e
    obtain ⟨key', b'⟩ := e'
    obtain ⟨rfl, hb⟩ := he
    simp only [putName]
    split
    · exact .cons ⟨rfl, ha⟩ hes
    · exact .cons ⟨rfl, hb⟩ ih

end Named

namespace Kinship

variable {K : Kinship} {w : K.Stage}

/-! ### Values without the heap -/

namespace Values

variable {v v' : Value} (h : K.Values w v v')
include h

theorem isNullish_eq : v.isNullish = v'.isNullish := by cases h <;> rfl

theorem truthy_eq : v.truthy = v'.truthy := by cases h <;> rfl

theorem kindName_eq : v.kindName = v'.kindName := by cases h <;> rfl

theorem plainText_eq : plainText v = plainText v' := by cases h <;> rfl

theorem isText_eq : v.isText = v'.isText := by cases h <;> rfl

theorem isStructure_eq : Heap.isStructure v = Heap.isStructure v' := by cases h <;> rfl

theorem isTextOrNumber_eq : Heap.isTextOrNumber v = Heap.isTextOrNumber v' := by cases h <;> rfl

theorem isFunction_eq : v.isFunction = v'.isFunction := by cases h <;> rfl

end Values

theorem Values.same_eq {a a' b b' : Value} (ha : K.Values w a a')
    (hb : K.Values w b b') : a.same b = a'.same b' := by
  cases ha <;> cases hb <;> try rfl
  case array.array ha _ _ hb =>
    simp only [Value.same, Bool.beq_eq_decide_eq, K.array_iff ha hb]
  case object.object ha _ _ hb =>
    simp only [Value.same, Bool.beq_eq_decide_eq, K.object_iff ha hb]
  case native.native ha _ _ _ _ hb =>
    simp only [Value.same, Bool.beq_eq_decide_eq, K.native_iff ha hb]
  case closure.closure ha _ _ _ _ _ _ _ _ _ hb _ _ =>
    simp only [Value.same, Bool.beq_eq_decide_eq, K.routine_iff ha hb]

/-! ### Scopes whose links all show the same -/

section Scopes

variable {h h' : Heap} {scope scope' : Scope} {name : String} (hs : K.Scopes w scope scope')
  (hlink : ∀ {l l'}, K.link w l l' →
    Option.Rel (K.Values w) (h.linkValue? name l) (h'.linkValue? name l'))
include hs hlink

theorem Scopes.find?_rel :
    Option.Rel (K.Values w) (h.find? name scope) (h'.find? name scope') := by
  induction hs with
  | nil => exact .none
  | @cons l l' ls ls' hl _ ih =>
    have hvalue := hlink hl
    simp only [Heap.find?, List.findSome?_cons]
    generalize h.linkValue? name l = a at hvalue ⊢
    generalize h'.linkValue? name l' = a' at hvalue ⊢
    cases hvalue with
    | some hv => exact .some hv
    | none => exact ih

theorem Scopes.holder?_rel :
    Option.Rel (K.link w) (h.holder? name scope) (h'.holder? name scope') := by
  induction hs with
  | nil => exact .none
  | @cons l l' ls ls' hl _ ih =>
    have hvalue := hlink hl
    rw [Heap.holder?, Heap.holder?, List.find?_cons, List.find?_cons, ← Heap.isSome_linkValue?,
      ← Heap.isSome_linkValue?]
    generalize h.linkValue? name l = a at hvalue ⊢
    generalize h'.linkValue? name l' = a' at hvalue ⊢
    cases hvalue with
    | some _ => exact .some hl
    | none => exact ih

theorem Scopes.assign {heaps : Heap → Heap → Prop} {v v' : Value} (hh : heaps h h')
    (hassign : ∀ {l l'}, K.link w l l' → (h.assignAt name v l).1 = (h'.assignAt name v' l').1
      ∧ heaps (h.assignAt name v l).2 (h'.assignAt name v' l').2) :
    (h.assign name v scope).1 = (h'.assign name v' scope').1
      ∧ heaps (h.assign name v scope).2 (h'.assign name v' scope').2 := by
  have hholder := hs.holder?_rel hlink
  simp only [Heap.assign]
  generalize h.holder? name scope = a at hholder ⊢
  generalize h'.holder? name scope' = a' at hholder ⊢
  cases hholder with
  | none => exact ⟨rfl, hh⟩
  | some hl => exact hassign hl

end Scopes

/-! ### Lists -/

theorem Rows.argument {args args' : List Value} (h : K.Rows w args args') (i : Nat) :
    K.Values w (argument args i) (argument args' i) := by
  induction h generalizing i with
  | nil => exact .undefined
  | cons hv _ ih =>
    cases i with
    | zero => exact hv
    | succ i => exact ih i

theorem Rows.getElem? {vs vs' : List Value} (h : K.Rows w vs vs') (i : Nat) :
    Option.Rel (K.Values w) vs[i]? vs'[i]? := by
  induction h generalizing i with
  | nil => exact .none
  | cons hv _ ih =>
    cases i with
    | zero => exact .some hv
    | succ i => exact ih i

theorem Rows.any_same {vs vs' : List Value} {f f' : Value} (h : K.Rows w vs vs')
    (hf : K.Values w f f') : vs.any (·.same f) = vs'.any (·.same f') := by
  induction h with
  | nil => rfl
  | cons hv _ ih => rw [List.any_cons, List.any_cons, hv.same_eq hf, ih]

theorem Rows.findIdx_same {vs vs' : List Value} {f f' : Value} (h : K.Rows w vs vs')
    (hf : K.Values w f f') : vs.findIdx? (·.same f) = vs'.findIdx? (·.same f') := by
  induction h with
  | nil => rfl
  | cons hv _ ih => rw [List.findIdx?_cons, List.findIdx?_cons, hv.same_eq hf, ih]

theorem Named.keys_eq {es es' : List (String × Value)} (h : K.Named w es es') :
    es.map Prod.fst = es'.map Prod.fst := by
  induction h with
  | nil => rfl
  | cons he _ ih => rw [List.map_cons, List.map_cons, he.1, ih]

theorem Named.lookup {es es' : List (String × Value)} (h : K.Named w es es') (name : String) :
    Option.Rel (K.Values w) (lookupName name es) (lookupName name es') :=
  forall₂_lookupName h name

theorem Named.put {es es' : List (String × Value)} {v v' : Value} (h : K.Named w es es')
    (name : String) (hv : K.Values w v v') :
    K.Named w (putName name v es) (putName name v' es') :=
  forall₂_putName h name hv

theorem Named.ofList {es es' : List (String × Value)} (h : K.Named w es es') :
    K.Named w (Roster.ofList es).entries (Roster.ofList es').entries := by
  have go : ∀ r r' : Roster Value, K.Named w r.entries r'.entries →
      K.Named w (r.insertAll es).entries (r'.insertAll es').entries := by
    induction h with
    | nil => exact fun _ _ hr => hr
    | @cons e e' es es' he _ ih =>
      obtain ⟨key, v⟩ := e
      obtain ⟨key', v'⟩ := e'
      obtain ⟨rfl, hv⟩ := he
      exact fun r r' hr => ih _ _ (hr.put _ hv)
  exact go .empty .empty .nil

end Kinship

namespace Likeness

variable {L : Likeness} {w : L.Stage} {α β : Type}

/-! ### Conversions and signs -/

/-- What is computed from two heaps: results that are the same, or none on both sides, and that only
in a knotted heap. -/
def Computes (L : Likeness) (h : Heap) (P : α → α → Prop) (a a' : Option α) : Prop :=
  Option.Rel P a a' ∧ (a = none → L.knot h)

namespace Computes

variable {h : Heap} {P : α → α → Prop} {Q : β → β → Prop} {a a' : Option α}

theorem some {x x' : α} (hP : P x x') : L.Computes h P (some x) (some x') := ⟨.some hP, nofun⟩

theorem bind {f f' : α → Option β} (ha : L.Computes h P a a')
    (hf : ∀ x x', P x x' → L.Computes h Q (f x) (f' x')) :
    L.Computes h Q (a >>= f) (a' >>= f') := by
  obtain ⟨hrel, hknot⟩ := ha
  cases hrel with
  | some hP => exact hf _ _ hP
  | none => exact ⟨.none, fun _ => hknot rfl⟩

theorem map {f g : α → β} (ha : L.Computes h P a a') (hf : ∀ x x', P x x' → Q (f x) (g x')) :
    L.Computes h Q (a.map f) (a'.map g) := by
  obtain ⟨hrel, hknot⟩ := ha
  cases hrel with
  | some hP => exact some (hf _ _ hP)
  | none => exact ⟨.none, fun _ => hknot rfl⟩

theorem of_eq (heq : a = a') (hknot : a = none → L.knot h) : L.Computes h Eq a a' := by
  subst heq
  refine ⟨?_, hknot⟩
  cases a with
  | some x => exact .some rfl
  | none => exact .none

end Computes

section Signs

variable [L.Lawful] {h h' : Heap} (hh : L.heaps w h h') {a a' b b' : Value}
  (ha : L.Values w a a') (hb : L.Values w b b')
include hh

theorem computes_display (ha : L.Values w a a') :
    L.Computes h Eq (h.display a) (h'.display a') :=
  .of_eq (Lawful.display hh ha).1 (Lawful.display hh ha).2

theorem computes_toNumber (ha : L.Values w a a') :
    L.Computes h Eq (h.toNumber a) (h'.toNumber a') := by
  have htext := (computes_display hh ha).map (Q := Eq) fun _ _ e => congrArg textNumber e
  cases ha with
  | undefined | null | bool | number | text => exact .some rfl
  | array | object | native | closure => exact htext

theorem computes_primitive (ha : L.Values w a a') :
    L.Computes h (L.Values w) (h.primitive a) (h'.primitive a') := by
  have htext := (computes_display hh ha).map (Q := L.Values w) (f := Value.text) (g := Value.text)
    fun _ _ e => e ▸ .text _
  cases ha with
  | undefined => exact .some .undefined
  | null => exact .some .null
  | bool b => exact .some (.bool b)
  | number x => exact .some (.number x)
  | text s => exact .some (.text s)
  | array | object | native | closure => exact htext

include ha hb

theorem computes_arithmetic (f : Float → Float → Float) :
    L.Computes h (L.Values w) (h.arithmetic f a b) (h'.arithmetic f a' b') :=
  (computes_toNumber hh ha).bind fun _ _ e => (computes_toNumber hh hb).bind fun _ _ e' =>
    .some (e ▸ e' ▸ .number _)

theorem computes_looseEqualPlain :
    L.Computes h Eq (h.looseEqualPlain a b) (h'.looseEqualPlain a' b') := by
  have hnumbers : L.Computes h Eq
      (do return (← h.toNumber a) == (← h.toNumber b) : Option Bool)
      (do return (← h'.toNumber a') == (← h'.toNumber b')) :=
    (computes_toNumber hh ha).bind fun _ _ e => (computes_toNumber hh hb).bind fun _ _ e' =>
      .some (e ▸ e' ▸ rfl)
  have hsame : L.Computes h Eq (some (a.same b)) (some (a'.same b')) := .some (ha.same_eq hb)
  cases ha with
  | bool => exact hnumbers
  | number => cases hb <;> first | exact hnumbers | exact hsame
  | text => cases hb <;> first | exact hnumbers | exact hsame
  | undefined | null | array | object | native | closure =>
    cases hb <;> first | exact hnumbers | exact hsame

theorem computes_looseEqual :
    L.Computes h Eq (h.looseEqual a b) (h'.looseEqual a' b') := by
  rw [Heap.looseEqual, Heap.looseEqual, ha.isNullish_eq, hb.isNullish_eq, ha.isStructure_eq,
    hb.isStructure_eq, ha.isTextOrNumber_eq, hb.isTextOrNumber_eq]
  split
  · exact .some rfl
  split
  · exact .some rfl
  split
  · exact (computes_primitive hh ha).bind fun _ _ hx => (computes_primitive hh hb).bind
      fun _ _ hy => computes_looseEqualPlain hh hx hy
  · exact computes_looseEqualPlain hh ha hb

theorem computes_sum : L.Computes h (L.Values w) (h.sum a b) (h'.sum a' b') := by
  refine (computes_primitive hh ha).bind fun x x' hx =>
    (computes_primitive hh hb).bind fun y y' hy => ?_
  rw [hx.isText_eq, hy.isText_eq, hx.plainText_eq, hy.plainText_eq]
  split
  · exact .some (.text _)
  · exact (computes_toNumber hh hx).bind fun _ _ e => (computes_toNumber hh hy).bind fun _ _ e' =>
      .some (e ▸ e' ▸ .number _)

theorem computes_ordered (op : BinaryOp) :
    L.Computes h Eq (h.ordered op a b) (h'.ordered op a' b') := by
  refine (computes_primitive hh ha).bind fun x x' hx =>
    (computes_primitive hh hb).bind fun y y' hy => ?_
  have hnumbers : L.Computes h Eq
      (do return op.ordersNumbers (← h.toNumber x) (← h.toNumber y) : Option Bool)
      (do return op.ordersNumbers (← h'.toNumber x') (← h'.toNumber y')) :=
    (computes_toNumber hh hx).bind fun _ _ e => (computes_toNumber hh hy).bind fun _ _ e' =>
      .some (e ▸ e' ▸ rfl)
  cases hx with
  | text s =>
    cases hy with
    | text t => exact .some rfl
    | _ => exact hnumbers
  | _ => exact hnumbers

theorem computes_binary (op : BinaryOp) :
    L.Computes h (L.Values w) (h.binary op a b) (h'.binary op a' b') := by
  have hbool {x x' : Option Bool} (f : Bool → Bool) (hx : L.Computes h Eq x x') :
      L.Computes h (L.Values w) (do return .bool (f (← x))) (do return .bool (f (← x'))) :=
    hx.bind fun _ _ e => .some (e ▸ .bool _)
  cases op with
  | add => exact computes_sum hh ha hb
  | subtract | multiply | divide | remainder => exact computes_arithmetic hh ha hb _
  | equal => exact hbool id (computes_looseEqual hh ha hb)
  | unequal => exact hbool not (computes_looseEqual hh ha hb)
  | strictEqual =>
    rw [Heap.binary, Heap.binary, ha.same_eq hb]
    exact .some (.bool _)
  | strictUnequal =>
    rw [Heap.binary, Heap.binary, ha.same_eq hb]
    exact .some (.bool _)
  | less | atMost | greater | atLeast => exact hbool id (computes_ordered hh ha hb _)

omit hb

theorem computes_unary (op : UnaryOp) :
    L.Computes h (L.Values w) (h.unary op a) (h'.unary op a') := by
  cases op with
  | negation =>
    rw [Heap.unary, Heap.unary, ha.truthy_eq]
    exact .some (.bool _)
  | minus | plus => exact (computes_toNumber hh ha).bind fun _ _ e => .some (e ▸ .number _)
  | kind =>
    rw [Heap.unary, Heap.unary, ha.kindName_eq]
    exact .some (.text _)

theorem computes_toJson : L.Computes h Eq (h.toJson a) (h'.toJson a') :=
  .of_eq (Lawful.toJson hh ha).1 (Lawful.toJson hh ha).2

end Signs

/-- Native functions made one after the other and put under their names. -/
def collectNatives (functions : List (String × Native)) (start : Roster Value × Heap) :
    Roster Value × Heap :=
  functions.foldl (fun (members, h) (name, code) =>
    let (f, h) := h.newNative name code
    (members.insert name f, h)) start

theorem rel_collectNatives [L.Lawful] (functions : List (String × Native))
    {s t : Roster Value × Heap} (hheaps : L.heaps w s.2 t.2)
    (hnamed : L.Named w s.1.entries t.1.entries) :
    ∃ w', w ≤ w'
      ∧ L.Named w' (collectNatives functions s).1.entries (collectNatives functions t).1.entries
      ∧ L.heaps w' (collectNatives functions s).2 (collectNatives functions t).2 := by
  induction functions generalizing w s t with
  | nil => exact ⟨w, le_rfl, hnamed, hheaps⟩
  | cons f fs ih =>
    obtain ⟨w₁, hw₁, hv, hheaps⟩ := Lawful.newNative f.1 f.2 hheaps
    obtain ⟨w₂, hw₂, h⟩ := ih (s := (s.1.insert f.1 _, _)) (t := (t.1.insert f.1 _, _))
      hheaps ((hnamed.mono hw₁).put f.1 hv)
    exact ⟨w₂, hw₁.trans hw₂, h⟩

namespace Settles

variable [L.Lawful] {ι : Type} {F : Filter ι} {v v' : Value}

/-! ### Conversions -/

theorem textOf (h : L.Values w v v') :
    L.Settles F w L.Same (fun _ => Run.textOf v) (fun _ => Run.textOf v') :=
  finite fun _ hw _ _ hg => computes_display hg (h.mono hw)

theorem numberOf (h : L.Values w v v') :
    L.Settles F w L.Same (fun _ => Run.numberOf v) (fun _ => Run.numberOf v') :=
  finite fun _ hw _ _ hg => computes_toNumber hg (h.mono hw)

theorem binary {a a' b b' : Value} (op : BinaryOp) (ha : L.Values w a a')
    (hb : L.Values w b b') :
    L.Settles F w L.Values (fun _ => do Run.finite ((← Run.heap).binary op a b))
      (fun _ => do Run.finite ((← Run.heap).binary op a' b')) :=
  finite fun _ hw _ _ hg => computes_binary hg (ha.mono hw) (hb.mono hw) op

theorem unary (op : UnaryOp) (h : L.Values w v v') :
    L.Settles F w L.Values (fun _ => do Run.finite ((← Run.heap).unary op v))
      (fun _ => do Run.finite ((← Run.heap).unary op v')) :=
  finite fun _ hw _ _ hg => computes_unary hg (h.mono hw) op

/-! ### New things -/

theorem newArray {l l' : List Value} (h : L.Rows w l l') :
    L.Settles F w L.Values (fun _ => Run.newArray l.toArray) (fun _ => Run.newArray l'.toArray) :=
  make fun _ hw _ _ hg => Lawful.newArray hg (h.mono hw)

theorem newObject {es es' : List (String × Value)} (h : L.Named w es es') :
    L.Settles F w L.Values (fun _ => Run.newObject (.ofList es))
      (fun _ => Run.newObject (.ofList es')) :=
  make fun _ hw _ _ hg => Lawful.newObject hg (h.mono hw).ofList

theorem newNatives (functions : List (String × Native)) :
    L.Settles F w L.Values (fun _ => Run.make fun h => h.newNatives functions)
      (fun _ => Run.make fun h => h.newNatives functions) := by
  refine make fun w₁ _ g g' hg => ?_
  obtain ⟨w₂, hw₂, hr, hg⟩ := rel_collectNatives functions (s := (.empty, g)) (t := (.empty, g'))
    hg .nil
  obtain ⟨w₃, hw₃, hv, hg⟩ := Lawful.newObject hg hr
  exact ⟨w₃, hw₂.trans hw₃, hv, hg⟩

/-! ### Members and items -/

theorem property?_rel {h h' : Heap} (hh : L.heaps w h h') (hv : L.Values w v v') (key : String) :
    Option.Rel (L.Values w) (h.property? v key) (h'.property? v' key) := by
  -- A member or an item that may be missing counts as `undefined`.
  have found {a a' : Option Value} (ha : Option.Rel (L.Values w) a a') :
      L.Values w (a.getD .undefined) (a'.getD .undefined) := by
    cases ha with
    | some h => exact h
    | none => exact .undefined
  cases hv with
  | undefined | null => exact .none
  | object hp => exact .some (found ((Lawful.members hh hp).lookup key))
  | array hp =>
    have hitems := Lawful.items hh hp
    have hsize : (h.items _).size = (h'.items _).size := hitems.length_eq
    simp only [Heap.property?]
    split
    · rw [hsize]
      exact .some (.number _)
    · refine .some (found ?_)
      cases placeOf? key with
      | none => exact .none
      | some i => simpa using hitems.getElem? i
  | text s =>
    simp only [Heap.property?]
    split
    · exact .some (.number _)
    · refine .some (found ?_)
      cases placeOf? key with
      | none => exact .none
      | some i =>
        simp only [Option.bind_some]
        cases s.toList[i]? with
        | none => exact .none
        | some c => exact .some (.text _)
  | bool | number | native | closure => exact .some .undefined

theorem getProperty (hv : L.Values w v v') (key : String) :
    L.Settles F w L.Values (fun _ => getProperty v key) (fun _ => getProperty v' key) := by
  refine heap.bind fun w₁ hw₁ h h' hh => ?_
  have hrel := property?_rel hh (hv.mono hw₁) key
  generalize h.property? v key = a at hrel ⊢
  generalize h'.property? v' key = a' at hrel ⊢
  rw [hv.plainText_eq]
  cases hrel with
  | some h => exact value h
  | none => exact fail _

theorem getItem {key key' : Value} (hv : L.Values w v v') (hkey : L.Values w key key') :
    L.Settles F w L.Values (fun _ => getItem v key) (fun _ => getItem v' key') :=
  (textOf hkey).bind fun _ hw s s' hs => by
    obtain rfl : s = s' := hs
    exact getProperty (hv.mono hw) s

theorem modifyItems_eq (h : Heap) (place : Nat) (f : Array Value → Array Value) :
    h.modifyItems place f = h.modifyItems place fun _ => f (h.items place) := by
  unfold Heap.modifyItems Heap.items
  congr 1
  apply Array.ext
  · simp
  · intro i h₁ h₂
    simp only [Array.size_modify] at h₁
    rw [Array.getElem_modify, Array.getElem_modify]
    split
    · rename_i he
      subst he
      simp [h₁]
    · rfl

/-- Changing the items of an array in the same way on both sides. -/
theorem modifyItems {p p' : Nat} {f f' : Array Value → Array Value} (hp : L.array w p p')
    (hf : ∀ w', w ≤ w' → ∀ xs xs', L.Rows w' xs.toList xs'.toList →
      L.Rows w' (f xs).toList (f' xs').toList) :
    L.Settles F w L.Same (fun _ => Run.change fun h => h.modifyItems p f)
      (fun _ => Run.change fun h => h.modifyItems p' f') := by
  refine change fun w₁ hw₁ g g' hg => ?_
  have hp := L.array_mono hw₁ hp
  rw [modifyItems_eq, modifyItems_eq g']
  exact Lawful.putItems hg hp (hf w₁ hw₁ _ _ (Lawful.items hg hp))

omit [L.Lawful] in
theorem rows_putAt {xs xs' : Array Value} (h : L.Rows w xs.toList xs'.toList) (place : Nat)
    (hv : L.Values w v v') :
    L.Rows w (Heap.putAt xs place v).toList (Heap.putAt xs' place v').toList := by
  have hsize : xs.size = xs'.size := h.length_eq
  simp only [Heap.putAt, hsize]
  split
  · rw [Array.toList_setIfInBounds, Array.toList_setIfInBounds]
    have hset : ∀ {vs vs' : List Value} (i : Nat), L.Rows w vs vs' →
        L.Rows w (vs.set i v) (vs'.set i v') := by
      intro vs vs' i h
      induction h generalizing i with
      | nil => exact .nil
      | cons hu hus ih =>
        cases i with
        | zero => exact .cons hv hus
        | succ i => exact .cons hu (ih i)
    exact hset place h
  · rw [Array.toList_push, Array.toList_push, Array.toList_append, Array.toList_append]
    refine List.rel_append (List.rel_append h ?_) (.cons hv .nil)
    rw [Array.toList_replicate]
    exact List.forall₂_same.mpr fun x hx => (List.eq_of_mem_replicate hx) ▸ .undefined

theorem putProperty {target target' : Value} (htarget : L.Values w target target') (key : String)
    (hv : L.Values w v v') :
    L.Settles F w L.Same (fun _ => putProperty target key v)
      (fun _ => putProperty target' key v') := by
  refine attempt fun w₁ hw₁ g g' hg => ⟨w₁, le_rfl, ?_⟩
  have hv := hv.mono hw₁
  have nothing : L.heaps w₁ g g' ∧ ((∃ a a', (.ok () : Except Failure Unit) = .ok a
        ∧ (.ok () : Except Failure Unit) = .ok a' ∧ L.Same w₁ a a')
      ∨ ∃ e, (.ok () : Except Failure Unit) = .error e
        ∧ (.ok () : Except Failure Unit) = .error e) :=
    ⟨hg, .inl ⟨(), (), rfl, rfl, rfl⟩⟩
  cases htarget.mono hw₁ with
  | undefined | null => exact ⟨hg, .inr ⟨_, rfl, rfl⟩⟩
  | object hp => exact ⟨Lawful.setMember key hg hp hv, .inl ⟨(), (), rfl, rfl, rfl⟩⟩
  | array hp =>
    simp only [Heap.setProperty]
    cases placeOf? key with
    | none => exact nothing
    | some place =>
      have hitems := Lawful.items hg hp
      have hsize : (g.items _).size = (g'.items _).size := hitems.length_eq
      simp only [Heap.setItem, hsize]
      split
      · exact ⟨hg, .inr ⟨_, rfl, rfl⟩⟩
      · refine ⟨?_, .inl ⟨(), (), rfl, rfl, rfl⟩⟩
        rw [modifyItems_eq, modifyItems_eq g']
        exact Lawful.putItems hg hp (rows_putAt hitems place hv)
  | bool | number | text | native | closure => exact nothing

theorem putItem {target target' key key' : Value} (htarget : L.Values w target target')
    (hkey : L.Values w key key') (hv : L.Values w v v') :
    L.Settles F w L.Same (fun _ => putItem target key v) (fun _ => putItem target' key' v') :=
  (textOf hkey).bind fun _ hw s s' hs => by
    obtain rfl : s = s' := hs
    exact putProperty (htarget.mono hw) s (hv.mono hw)

omit [L.Lawful] in
theorem rows_text {γ : Type} (f : γ → String) (cs : List γ) :
    L.Rows w (cs.map fun c => .text (f c)) (cs.map fun c => .text (f c)) := by
  refine List.forall₂_same.mpr fun v hv => ?_
  obtain ⟨c, _, rfl⟩ := List.mem_map.mp hv
  exact .text _

theorem itemsIn (hv : L.Values w v v') :
    L.Settles F w L.Rows (fun _ => itemsIn v) (fun _ => itemsIn v') := by
  cases hv with
  | array hp =>
    exact heap.bind fun w₁ hw₁ _ _ hh => row (Lawful.items hh (L.array_mono hw₁ hp))
  | text s => exact row (rows_text _ _)
  | undefined => exact (textOf .undefined).bind fun _ _ _ _ e => e ▸ fail _
  | null => exact (textOf .null).bind fun _ _ _ _ e => e ▸ fail _
  | bool b => exact (textOf (.bool b)).bind fun _ _ _ _ e => e ▸ fail _
  | number x => exact (textOf (.number x)).bind fun _ _ _ _ e => e ▸ fail _
  | object hp => exact (textOf (.object hp)).bind fun _ _ _ _ e => e ▸ fail _
  | native name code h => exact (textOf (.native name code h)).bind fun _ _ _ _ e => e ▸ fail _
  | closure site params hr hb hs =>
    exact (textOf (.closure site params hr hb hs)).bind fun _ _ _ _ e => e ▸ fail _

theorem keysIn (hv : L.Values w v v') :
    L.Settles F w L.Rows (fun _ => keysIn v) (fun _ => keysIn v') := by
  cases hv with
  | object hp =>
    refine heap.bind fun w₁ hw₁ h h' hh => ?_
    have hnames : (h.members _).names = (h'.members _).names :=
      (Lawful.members hh (L.object_mono hw₁ hp)).keys_eq
    rw [hnames]
    exact row (rows_text id _)
  | array hp =>
    refine heap.bind fun w₁ hw₁ h h' hh => ?_
    have hsize : (h.items _).size = (h'.items _).size :=
      (Lawful.items hh (L.array_mono hw₁ hp)).length_eq
    rw [hsize]
    exact row (rows_text _ _)
  | text s => exact row (rows_text _ _)
  | undefined | null | bool | number | native | closure => exact row .nil

/-! ### Names -/

theorem assignName {names : List String} {scope scope' : Scope}
    (hs : L.Sees w names scope scope') {name : String} (hname : name ∈ names)
    (hv : L.Values w v v') :
    L.Settles F w L.Same (fun _ => assignName scope name v)
      (fun _ => assignName scope' name v') := by
  refine attempt fun w₁ hw₁ g g' hg => ⟨w₁, le_rfl, ?_⟩
  obtain ⟨hr, hg⟩ := Lawful.assign hg (hs.mono hw₁) hname (hv.mono hw₁)
  refine ⟨hg, ?_⟩
  rw [← hr]
  cases (g.assign name v scope).1 with
  | ok u => exact .inl ⟨u, u, rfl, rfl, rfl⟩
  | error e => exact .inr ⟨e, rfl, rfl⟩

theorem global {name : String} {f : Heap → Value × Heap} (h : global? name = some f) :
    L.Settles F w L.Values (fun _ => Run.make f) (fun _ => Run.make f) := by
  unfold global? at h
  split at h <;> cases h
  · exact make fun w₁ _ _ _ hg => ⟨w₁, le_rfl, .number _, hg⟩
  · exact make fun w₁ _ _ _ hg => ⟨w₁, le_rfl, .number _, hg⟩
  all_goals first
    | exact newNatives _
    | exact make fun _ _ _ _ hg => Lawful.newNative _ _ hg

theorem valueOf {names : List String} {scope scope' : Scope} (hs : L.Sees w names scope scope')
    {name : String} (hname : name ∈ names) :
    L.Settles F w L.Values (fun _ => valueOf scope name) (fun _ => valueOf scope' name) := by
  refine heap.bind fun w₁ hw₁ h h' hh => ?_
  have hrel := Lawful.find hh (hs.mono hw₁) hname
  generalize h.find? name scope = a at hrel ⊢
  generalize h'.find? name scope' = a' at hrel ⊢
  cases hrel with
  | some hv => exact value hv
  | none =>
    rcases Lawful.guard hs.scopes with heq | ⟨hguarded, hexcused⟩
    · dsimp only
      rw [heq]
      cases scope'.isGuarded with
      | true => exact fail _
      | false =>
        cases hglobal : global? name with
        | some f => exact global hglobal
        | none => exact fail _
    · simp only [hguarded, if_true]
      exact excuse (hexcused name)

/-! ### Functions that every routine can name -/

set_option linter.unusedSectionVars false in
mutual

theorem ofJson_rel {w : L.Stage} {h h' : Heap} (hh : L.heaps w h h') : (json : Json) →
    ∃ w', w ≤ w' ∧ L.Values w' (h.ofJson json).1 (h'.ofJson json).1
      ∧ L.heaps w' (h.ofJson json).2 (h'.ofJson json).2
  | .null => ⟨w, le_rfl, .null, hh⟩
  | .bool b => ⟨w, le_rfl, .bool b, hh⟩
  | .number n => ⟨w, le_rfl, .number _, hh⟩
  | .text s => ⟨w, le_rfl, .text s, hh⟩
  | .array items => by
    obtain ⟨w₁, hw₁, hvs, hh⟩ := ofJsonItems_rel hh items
    have hrows : L.Rows w₁ (h.ofJsonItems items).1.toArray.toList
        (h'.ofJsonItems items).1.toArray.toList := hvs
    obtain ⟨w₂, hw₂, h⟩ := Lawful.newArray hh hrows
    exact ⟨w₂, hw₁.trans hw₂, h⟩
  | .object members => by
    obtain ⟨w₁, hw₁, hvs, hh⟩ := ofJsonMembers_rel hh members
    obtain ⟨w₂, hw₂, h⟩ := Lawful.newObject hh hvs.ofList
    exact ⟨w₂, hw₁.trans hw₂, h⟩

theorem ofJsonItems_rel {w : L.Stage} {h h' : Heap} (hh : L.heaps w h h') : (items : List Json) →
    ∃ w', w ≤ w' ∧ L.Rows w' (h.ofJsonItems items).1 (h'.ofJsonItems items).1
      ∧ L.heaps w' (h.ofJsonItems items).2 (h'.ofJsonItems items).2
  | [] => ⟨w, le_rfl, .nil, hh⟩
  | json :: items => by
    obtain ⟨w₁, hw₁, hv, hh⟩ := ofJson_rel hh json
    obtain ⟨w₂, hw₂, hvs, hh⟩ := ofJsonItems_rel hh items
    exact ⟨w₂, hw₁.trans hw₂, .cons (hv.mono hw₂) hvs, hh⟩

theorem ofJsonMembers_rel {w : L.Stage} {h h' : Heap} (hh : L.heaps w h h') :
    (members : List (String × Json)) →
    ∃ w', w ≤ w' ∧ L.Named w' (h.ofJsonMembers members).1 (h'.ofJsonMembers members).1
      ∧ L.heaps w' (h.ofJsonMembers members).2 (h'.ofJsonMembers members).2
  | [] => ⟨w, le_rfl, .nil, hh⟩
  | (name, json) :: members => by
    obtain ⟨w₁, hw₁, hv, hh⟩ := ofJson_rel hh json
    obtain ⟨w₂, hw₂, hvs, hh⟩ := ofJsonMembers_rel hh members
    exact ⟨w₂, hw₁.trans hw₂, .cons ⟨rfl, hv.mono hw₂⟩ hvs, hh⟩

end

section Arguments

variable {args args' : List Value} (hargs : L.Rows w args args')
include hargs

theorem numeric (f : Float → Float) :
    L.Settles F w L.Values (fun _ => numeric f args) (fun _ => numeric f args') :=
  (numberOf (hargs.argument 0)).bind fun _ _ _ _ e => e ▸ value (.number _)

theorem builtin (b : Builtin) :
    L.Settles F w L.Values (fun _ => b.apply args) (fun _ => b.apply args') := by
  have hfirst := hargs.argument 0
  cases b with
  | string =>
    cases hargs with
    | nil => exact value (.text _)
    | cons hv _ => exact (textOf hv).bind fun _ _ _ _ e => e ▸ value (.text _)
  | number =>
    cases hargs with
    | nil => exact value (.number _)
    | cons hv _ => exact (numberOf hv).bind fun _ _ _ _ e => e ▸ value (.number _)
  | boolean =>
    simp only [Builtin.apply, hfirst.truthy_eq]
    exact value (.bool _)
  | parseInt | parseFloat =>
    exact (textOf hfirst).bind fun _ _ _ _ e => e ▸ value (.number _)
  | isNaN => exact (numberOf hfirst).bind fun _ _ _ _ e => e ▸ value (.bool _)
  | stringify =>
    refine finiteThen (P := L.Same) (fun _ hw _ _ hg => computes_toJson hg (hfirst.mono hw)) ?_
    intro _ _ json json' e
    obtain rfl : json = json' := e
    cases json with
    | none => exact value .undefined
    | some json => exact value (.text _)
  | parse =>
    refine (textOf hfirst).bind fun _ _ s s' e => ?_
    obtain rfl : s = s' := e
    cases Json.read s with
    | ok json => exact make fun _ _ _ _ hg => ofJson_rel hg json
    | error e => exact fail _
  | keys => exact (keysIn hfirst).bind fun _ _ _ _ hks => newArray hks
  | values =>
    exact (keysIn hfirst).bind fun _ hw _ _ hks =>
      (mapValues hks fun _ _ hkey => getItem (hfirst.mono hw) hkey).bind
        fun _ _ _ _ hvs => newArray hvs
  | entries =>
    refine (keysIn hfirst).bind fun w₁ hw ks ks' hks => (mapValues hks fun key key' hkey =>
      ?_).bind fun _ _ _ _ hvs => newArray hvs
    exact (getItem (hfirst.mono hw) hkey).bind fun w₂ hw₂ v v' hv =>
      newArray (l := [key, v]) (.cons (hkey.mono hw₂) (.cons hv .nil))
  | isArray =>
    simp only [Builtin.apply]
    generalize argument args 0 = v at hfirst ⊢
    generalize argument args' 0 = v' at hfirst ⊢
    cases hfirst with
    | array => exact value (.bool _)
    | _ => exact value (.bool _)
  | floor | ceil | round | abs | sqrt | trunc => exact numeric hargs _
  | min | max =>
    exact (mapSame hargs fun _ _ hv => numberOf hv).bind fun _ _ _ _ e =>
      e ▸ value (.number _)
  | pow =>
    exact (numberOf hfirst).bind fun _ hw _ _ e => (numberOf ((hargs.argument 1).mono hw)).bind
      fun _ _ _ _ e' => e ▸ e' ▸ value (.number _)

end Arguments

/-! ### Methods of texts and numbers -/

theorem placeArgument (hv : L.Values w v v') (length standard : Nat) :
    L.Settles F w L.Same (fun _ => placeArgument v length standard)
      (fun _ => placeArgument v' length standard) := by
  have hnumber : L.Settles F w L.Same
      (fun _ => do return fromEnd length (← Run.numberOf v))
      (fun _ => do return fromEnd length (← Run.numberOf v')) :=
    (numberOf hv).bind fun _ _ _ _ e => e ▸ same _
  cases hv with
  | undefined => exact same _
  | null | bool | number | text | array | object | native | closure => exact hnumber

theorem naturalArgument (hv : L.Values w v v') :
    L.Settles F w L.Same (fun _ => naturalArgument v) (fun _ => naturalArgument v') :=
  (numberOf hv).bind fun _ _ _ _ e => e ▸ same _

theorem repeatText (s : String) (hv : L.Values w v v') :
    L.Settles F w L.Values (fun _ => repeatText s v) (fun _ => repeatText s v') := by
  refine (numberOf hv).bind fun _ _ x x' e => ?_
  obtain rfl : x = x' := e
  dsimp only
  split
  · exact fail _
  split
  · exact value (.text _)
  split
  · exact fail _
  · exact value (.text _)

section Arguments

variable {args args' : List Value} (hargs : L.Rows w args args')
include hargs

theorem charsArgument (i : Nat) :
    L.Settles F w L.Same (fun _ => charsArgument args i) (fun _ => charsArgument args' i) :=
  (textOf (hargs.argument i)).bind fun _ _ _ _ e => e ▸ same _

theorem splitText (cs : List Char) :
    L.Settles F w L.Values (fun _ => splitText cs args) (fun _ => splitText cs args') := by
  have hfirst := hargs.argument 0
  rw [Routine.splitText, Routine.splitText]
  generalize argument args 0 = v at hfirst ⊢
  generalize argument args' 0 = v' at hfirst ⊢
  have hparts : L.Settles F w L.Values
      (fun _ => do
        let separator := (← Run.textOf v).toList
        let parts := if separator.isEmpty then cs.map fun c => [c] else Text.pieces separator cs
        Run.newArray (parts.map charsValue).toArray)
      (fun _ => do
        let separator := (← Run.textOf v').toList
        let parts := if separator.isEmpty then cs.map fun c => [c] else Text.pieces separator cs
        Run.newArray (parts.map charsValue).toArray) :=
    (textOf hfirst).bind fun _ _ _ _ e => e ▸ newArray (rows_text String.ofList _)
  cases hfirst with
  | undefined => exact newArray (l := [charsValue cs]) (.cons (.text _) .nil)
  | null | bool | number | text | array | object | native | closure => exact hparts

theorem paddingFor (s : String) :
    L.Settles F w L.Same (fun _ => paddingFor s args) (fun _ => paddingFor s args') := by
  let pad (target : Nat) (filler : List Char) : Run String :=
    if target ≤ s.length || filler.isEmpty then return ""
    else if textLengthLimit < target then Run.fail .textLength
    else return Text.filling filler (target - s.length)
  have hpad (w' : L.Stage) (target : Nat) (filler : List Char) :
      L.Settles F w' L.Same (fun _ => pad target filler) (fun _ => pad target filler) := by
    dsimp only [pad]
    split
    · exact same _
    · split
      · exact fail _
      · exact same _
  refine (naturalArgument (hargs.argument 0)).bind fun w₁ hw₁ target target' e => ?_
  obtain rfl : target = target' := e
  have hsecond := (hargs.argument 1).mono hw₁
  dsimp only
  generalize argument args 1 = v at hsecond ⊢
  generalize argument args' 1 = v' at hsecond ⊢
  have hfiller : L.Settles F w₁ L.Same (fun _ => do pad target (← Run.textOf v).toList)
      (fun _ => do pad target (← Run.textOf v').toList) := by
    refine (textOf hsecond).bind fun w₂ _ t t' e => ?_
    obtain rfl : t = t' := e
    exact hpad w₂ target t.toList
  cases hsecond with
  | undefined => exact hpad w₁ target _
  | null | bool | number | text | array | object | native | closure => exact hfiller

theorem textMethod (m : TextMethod) (s : String) :
    L.Settles F w L.Values (fun _ => m.apply s args) (fun _ => m.apply s args') := by
  have hfirst := hargs.argument 0
  cases m with
  | upper | lower | trim | trimStart | trimEnd | itself => exact value (.text _)
  | includes | startsWith | endsWith =>
    exact (charsArgument hargs 0).bind fun _ _ _ _ e => e ▸ value (.bool _)
  | indexOf =>
    refine (charsArgument hargs 0).bind fun _ _ needle needle' e => ?_
    obtain rfl : needle = needle' := e
    cases Text.indexOf? needle s.toList with
    | some i => exact value (.number _)
    | none => exact value (.number _)
  | split => exact splitText hargs _
  | replace | replaceAll =>
    exact (charsArgument hargs 0).bind fun _ hw _ _ e =>
      (charsArgument (hargs.mono hw) 1).bind fun _ _ _ _ e' => e ▸ e' ▸ value (.text _)
  | slice | substring =>
    exact (placeArgument hfirst _ _).bind fun _ hw _ _ e =>
      (placeArgument ((hargs.argument 1).mono hw) _ _).bind fun _ _ _ _ e' =>
        e ▸ e' ▸ value (.text _)
  | charAt => exact (naturalArgument hfirst).bind fun _ _ _ _ e => e ▸ value (.text _)
  | repeated => exact repeatText s hfirst
  | padStart | padEnd => exact (paddingFor hargs s).bind fun _ _ _ _ e => e ▸ value (.text _)

theorem numberMethod (m : NumberMethod) (x : Float) :
    L.Settles F w L.Values (fun _ => m.apply x args) (fun _ => m.apply x args') := by
  cases m with
  | fixed =>
    refine (naturalArgument (hargs.argument 0)).bind fun _ _ places places' e => ?_
    obtain rfl : places = places' := e
    split
    · exact fail _
    · exact value (.text _)
  | text => exact value (.text _)

end Arguments

end Settles

end Likeness

end Stencil.Routine
