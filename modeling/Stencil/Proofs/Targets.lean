import Stencil.Proofs.History

/-!
# Targets that are read and written

`a[e] += v` and `a[e]++` evaluate the index `e` once to read the item and once more to write it.  So
they come to the same as with a constant in the place of `e` if the second time gives the key of the
first time and changes nothing.

* `Looks` — steps that leave the store as it is;
* `eval_compound` — an assignment that computes is one that evaluates its target as an operand
  before;
* `Repeats` — an index that has the same key once more, and what stands for that key;
* `write_repeats` — writing to either of them;
* `assign_evaluated_once` — compound assignments and updates whose index repeats;
* `render_countedTarget` — an index that counts up, which does not repeat.
-/

namespace Stencil.Routine

/-! ### Steps that only look -/

/-- The steps leave the store as it is, whether they fail or not. -/
def Looks {α : Type} (m : Run α) : Prop :=
  ∀ store, (∃ a, m store = .ok a store) ∨ ∃ halt, m store = .error halt store

namespace Looks

variable {α β : Type} {m : Run α} {f : α → Run β}

theorem store_eq (h : Looks m) {a : α} {s t : Store} (hm : m s = .ok a t) : t = s := by
  rcases h s with ⟨b, hb⟩ | ⟨halt, hb⟩
  · cases hm.symm.trans hb
    rfl
  · cases hm.symm.trans hb

theorem bind (hm : Looks m) (hf : ∀ a, Looks (f a)) : Looks (m >>= f) := by
  intro s
  rcases hm s with ⟨a, ha⟩ | ⟨halt, ha⟩
  · rw [run_bind_ok ha]
    exact hf a s
  · exact .inr ⟨halt, run_bind_error ha⟩

/-- What follows such steps begins where they began. -/
theorem bind_congr (h : Looks m) {g : α → Run β} {s : Store} (hfg : ∀ a, f a s = g a s) :
    (m >>= f) s = (m >>= g) s :=
  run_bind_congr_ok fun a t ha => by
    rw [h.store_eq ha]
    exact hfg a

theorem pure (a : α) : Looks (pure a : Run α) := fun _ => .inl ⟨a, rfl⟩

theorem fail (f : Failure) : Looks (Run.fail f : Run α) := fun _ => .inr ⟨.failed f, rfl⟩

theorem finite (a : Option α) : Looks (Run.finite a) := by
  cases a with
  | some a => exact pure a
  | none => exact fun _ => .inr ⟨.endless, rfl⟩

theorem heap : Looks Run.heap := fun s => .inl ⟨s.heap, rfl⟩

theorem textOf (v : Value) : Looks (Run.textOf v) := heap.bind fun _ => finite _

theorem numberOf (v : Value) : Looks (Run.numberOf v) := heap.bind fun _ => finite _

theorem getProperty (v : Value) (key : String) : Looks (getProperty v key) := by
  refine heap.bind fun h => ?_
  cases h.property? v key with
  | some found => exact pure found
  | none => exact fail _

theorem getItem (v key : Value) : Looks (getItem v key) :=
  (textOf key).bind fun _ => getProperty v _

end Looks

/-! ### Reading and writing -/

section Targets

variable {around : Surroundings} {scope : Scope} {a : String} {e k : Expr} {key object : Value}
  {s t u : Store}

/-- An assignment that computes reads its target as an operand and then assigns to it. -/
theorem eval_compound (bound : Nat) (around : Surroundings) (scope : Scope) (op : BinaryOp)
    (target value : Expr) :
    eval (bound + 1) around scope (.assign (some op) target value) = (do
      let v ← eval (bound + 1) around scope (.binary op target value)
      assignTo (eval bound around scope) scope target v
      return v) := by
  simp only [eval, bind_assoc]

theorem eval_assign (bound : Nat) (around : Surroundings) (scope : Scope) (target value : Expr) :
    eval (bound + 1) around scope (.assign none target value) = (do
      let v ← eval bound around scope value
      assignTo (eval bound around scope) scope target v
      return v) := by
  rw [eval]

theorem eval_binary (bound : Nat) (around : Surroundings) (scope : Scope) (op : BinaryOp)
    (left right : Expr) :
    eval (bound + 1) around scope (.binary op left right) = (do
      let a ← eval bound around scope left
      let b ← eval bound around scope right
      Run.finite ((← Run.heap).binary op a b)) := by
  rw [eval]

theorem eval_update (bound : Nat) (around : Surroundings) (scope : Scope) (up leading : Bool)
    (target : Expr) :
    eval (bound + 1) around scope (.update up leading target) = (do
      let v ← eval bound around scope target
      let old ← Run.numberOf v
      assignTo (eval bound around scope) scope target (.number (counted up old))
      return .number (if leading then counted up old else old)) := by
  rw [eval]

/-- An item of a variable is read after its index was evaluated. -/
theorem eval_item (bound : Nat) (ha : s.heap.find? a scope = some object) :
    eval (bound + 2) around scope (.index (.name a) e false) s
      = (eval (bound + 1) around scope e >>= getItem object) s :=
  run_bind_ok (valueOf_found ha)

/-- The expression has the value in the store, and changes nothing. -/
def StandsFor (around : Surroundings) (scope : Scope) (k : Expr) (key : Value) (s : Store) : Prop :=
  ∀ bound, eval (bound + 1) around scope k s = .ok key s

theorem store_of_item (bound : Nat) {old : Value} (ha : s.heap.find? a scope = some object)
    (hk : StandsFor around scope k key s)
    (hold : eval (bound + 2) around scope (.index (.name a) k false) s = .ok old t) : t = s := by
  rw [eval_item bound ha, run_bind_ok (hk bound)] at hold
  exact (Looks.getItem object key).store_eq hold

/-- Reading an item comes to evaluating the index and then reading it with what stands for the key,
if that leaves the variable. -/
theorem eval_item_eq (bound : Nat) (ha : s.heap.find? a scope = some object)
    (he : ∀ key t, eval (bound + 1) around scope e s = .ok key t →
      t.heap.find? a scope = some object ∧ StandsFor around scope k key t) :
    eval (bound + 2) around scope (.index (.name a) e false) s
      = (do
        let _ ← eval (bound + 1) around scope e
        eval (bound + 2) around scope (.index (.name a) k false)) s := by
  rw [eval_item bound ha]
  refine run_bind_congr_ok fun key t hkey => ?_
  obtain ⟨hname, hconstant⟩ := he key t hkey
  rw [eval_item bound hname, run_bind_ok (hconstant bound)]

/-- Evaluated once more, the index has the key again and changes nothing, and the constant stands for
that key. -/
structure Repeats (bound : Nat) (around : Surroundings) (scope : Scope) (e k : Expr) (key : Value)
    (s : Store) : Prop where
  again : eval bound around scope e s = .ok key s
  constant : StandsFor around scope k key s

/-- Writing to an index that repeats is writing to what stands for its key. -/
theorem write_repeats {bound : Nat} (bound' : Nat) (v : Value)
    (h : ∀ object t, valueOf scope a s = .ok object t →
      Repeats (bound + 1) around scope e k key t) :
    assignTo (eval (bound + 1) around scope) scope (.index (.name a) e false) v s
      = assignTo (eval (bound' + 1) around scope) scope (.index (.name a) k false) v s := by
  refine run_bind_congr_ok fun object t hobject => ?_
  have hrepeats := h object t hobject
  rw [run_bind_ok hrepeats.again, run_bind_ok (hrepeats.constant bound')]

/-- **What evaluating the target once would give.**  Let the index have its key and leave the
variable, and have that key once more, changing nothing, when it is evaluated to write the item.
Then a compound assignment comes to the same as evaluating the index and going on with what stands
for its key, written out as an assignment; and so does an update. -/
theorem assign_evaluated_once (bound : Nat) (ha : s.heap.find? a scope = some object)
    (he : ∀ key t, eval (bound + 1) around scope e s = .ok key t →
      t.heap.find? a scope = some object ∧ StandsFor around scope k key t) :
    (∀ (op : BinaryOp) (value : Expr),
      (∀ key t operand u, eval (bound + 1) around scope e s = .ok key t →
        eval (bound + 2) around scope value t = .ok operand u →
        ∀ object u', valueOf scope a u = .ok object u' →
          Repeats (bound + 2) around scope e k key u') →
      eval (bound + 3) around scope (.assign (some op) (.index (.name a) e false) value) s
        = (do
          let _ ← eval (bound + 1) around scope e
          eval (bound + 4) around scope (.assign none (.index (.name a) k false)
            (.binary op (.index (.name a) k false) value))) s) ∧
    (∀ up leading : Bool,
      (∀ key t, eval (bound + 1) around scope e s = .ok key t →
        Repeats (bound + 2) around scope e k key t) →
      eval (bound + 3) around scope (.update up leading (.index (.name a) e false)) s
        = (do
          let _ ← eval (bound + 1) around scope e
          eval (bound + 3) around scope (.update up leading (.index (.name a) k false))) s) := by
  refine ⟨fun op value hagain => ?_, fun up leading hagain => ?_⟩
  · simp only [eval_compound, eval_binary, eval_assign, bind_assoc]
    refine (run_bind_congr (eval_item_eq bound ha he)).trans ?_
    rw [bind_assoc]
    refine run_bind_congr_ok fun key t hkey => run_bind_congr_ok fun old t' hold => ?_
    obtain ⟨hname, hconstant⟩ := he key t hkey
    cases store_of_item bound hname hconstant hold
    refine run_bind_congr_ok fun operand u hoperand => ?_
    refine Looks.heap.bind_congr fun h => (Looks.finite _).bind_congr fun v => ?_
    exact run_bind_congr (write_repeats _ v (hagain key t operand u hkey hoperand))
  · simp only [eval_update]
    refine (run_bind_congr (eval_item_eq bound ha he)).trans ?_
    rw [bind_assoc]
    refine run_bind_congr_ok fun key t hkey => run_bind_congr_ok fun old t' hold => ?_
    obtain ⟨hname, hconstant⟩ := he key t hkey
    cases store_of_item bound hname hconstant hold
    have hrepeats (object' : Value) (t' : Store) (hobject : valueOf scope a t = .ok object' t') :
        Repeats (bound + 2) around scope e k key t' := by
      cases (valueOf_found hname).symm.trans hobject
      exact hagain key t hkey
    exact (Looks.numberOf old).bind_congr fun x => run_bind_congr (write_repeats _ _ hrepeats)

end Targets

/-! ### An index that sets a variable -/

/-- The variables `a`, which is an array, and `i` and `j`. -/
def counting (i j : Value) : Store where
  heap := {
    arrays := #[#[.number 1, .number 2]]
    frames := #[⟨[("a", ⟨.array 0, true⟩), ("i", ⟨i, true⟩), ("j", ⟨j, true⟩)],
      (by decide : ["a", "i", "j"].Nodup)⟩] }

/-- What surrounds a run that asks for nothing. -/
def unattended : Surroundings where
  perform _ _ := Run.endless
  routine := 0

/-- The index of `a[i = 1]`. -/
def settingIndex : Expr := .assign none (.name "i") (.number 1)

theorem eval_settingIndex (bound : Nat) (i j : Value) :
    eval (bound + 2) unattended [.locals 0] settingIndex (counting i j)
      = .ok (.number 1) (counting (.number 1) j) := rfl

theorem repeats_settingIndex (bound : Nat) (j : Value) :
    Repeats (bound + 2) unattended [.locals 0] settingIndex (.number 1) (.number 1)
      (counting (.number 1) j) :=
  ⟨eval_settingIndex bound _ j, fun _ => rfl⟩

/-- The index of `a[i = 1] += j++` and of `++a[i = 1]` sets a variable, and sets it to the same when
it is evaluated again. -/
theorem assign_evaluated_once_set :
    eval 5 unattended [.locals 0]
        (.assign (some .add) (.index (.name "a") settingIndex false) (.update true false (.name "j")))
        (counting (.number 0) (.number 5))
      = (do
        let _ ← eval 3 unattended [.locals 0] settingIndex
        eval 6 unattended [.locals 0]
          (.assign none (.index (.name "a") (.number 1) false)
            (.binary .add (.index (.name "a") (.number 1) false) (.update true false (.name "j")))))
        (counting (.number 0) (.number 5))
    ∧ eval 5 unattended [.locals 0]
        (.update true true (.index (.name "a") settingIndex false))
        (counting (.number 0) (.number 5))
      = (do
        let _ ← eval 3 unattended [.locals 0] settingIndex
        eval 5 unattended [.locals 0]
          (.update true true (.index (.name "a") (.number 1) false)))
        (counting (.number 0) (.number 5)) := by
  have hindex := eval_settingIndex 1 (.number 0) (.number 5)
  have hvalue : eval 4 unattended [.locals 0] (.update true false (.name "j"))
      (counting (.number 1) (.number 5))
        = .ok (.number 5) (counting (.number 1) (.number (counted true 5))) := rfl
  obtain ⟨hassign, hupdate⟩ := assign_evaluated_once (e := settingIndex) (k := .number 1) 2
    (show (counting (.number 0) (.number 5)).heap.find? "a" [.locals 0] = some (.array 0) from rfl)
    (fun key t hkey => by
      cases hindex.symm.trans hkey
      exact ⟨rfl, fun _ => rfl⟩)
  refine ⟨hassign _ _ fun key t operand u hkey hoperand object u' hobject => ?_,
    hupdate _ _ fun key t hkey => ?_⟩
  · cases hindex.symm.trans hkey
    cases hvalue.symm.trans hoperand
    cases (valueOf_found rfl).symm.trans hobject
    exact repeats_settingIndex 2 _
  · cases hindex.symm.trans hkey
    exact repeats_settingIndex 2 _

end Stencil.Routine

namespace Stencil

/-- An index that counts up does not repeat: `a[i++] += 10` reads one item, writes the next and
counts twice, where a constant for the index counts once. -/
theorem render_countedTarget :
    let text (template : String) :=
      ((Engine.create 1).render 1000 (some template) (.object [])).1
    text "[[ let a = [1, 2], i = 0; a[i++] += 10 ]][[= a ]] [[= i ]]" = .ok "1,11 2" ∧
    text "[[ let a = [1, 2], i = 0; const k = i++; a[k] = a[k] + 10 ]][[= a ]] [[= i ]]"
      = .ok "11,2 1" := by
  refine ⟨?_, ?_⟩ <;> decide +kernel

end Stencil
