import Stencil.Proofs.Output.Recording
import Stencil.Proofs.QuietSteps

/-!
# What runs keep true of their record

A recording run that begins in a realm keeps true what is true of its record and the heap, if every
step does that may change a variable: making a frame, declaring, assigning and writing.

* `Heap.assign_cases` — what an assignment to a name does;
* `Account` — what holds of records and heaps, with the reasons why each step keeps it;
* `Account.Heeds`, `Account.Minds` — steps that write nothing and recording steps that keep an
  account;
* `Everything.eval_succ`, `Everything.exec_succ`, `Everything.call_succ` — one layer of expressions,
  statements and calls;
* `Account.everything` — all of them.
-/

namespace Stencil.Routine

open Template

/-! ### Assignments to names -/

/-- An assignment that succeeds sets a variable or a member, in the innermost link that has the
name. -/
theorem Heap.assign_cases {h : Heap} {name : String} {v : Value} {scope : Scope}
    (hok : (h.assign name v scope).1 = .ok ()) :
    (∃ place, h.holder? name scope = some (.locals place)
      ∧ (h.assign name v scope).2 = h.setLocal place name ⟨v, true⟩)
    ∨ ∃ place guarded, h.holder? name scope = some (.members (some place) guarded)
      ∧ (h.assign name v scope).2 = h.setMember place name v := by
  unfold Heap.assign at hok ⊢
  cases hholder : h.holder? name scope with
  | none =>
    rw [hholder] at hok
    cases hok
  | some l =>
    rw [hholder] at hok
    cases l with
    | locals place =>
      refine .inl ⟨place, rfl, ?_⟩
      simp only [Heap.assignAt] at hok ⊢
      split at hok
      · split at hok
        · rw [if_pos ‹_›]
        · cases hok
      · cases hok
    | members object guarded =>
      cases object with
      | none => cases hok
      | some place => exact .inr ⟨place, guarded, rfl, rfl⟩

/-- The innermost link that has a name is one of the scope. -/
theorem Heap.mem_of_holder? {h : Heap} {name : String} {scope : Scope} {l : Link}
    (hl : h.holder? name scope = some l) : l ∈ scope := List.mem_of_find?_eq_some hl

theorem attempt_eq_ok {α : Type} {act : Heap → Except Failure α × Heap} {s t : Store} {a : α}
    (h : Run.attempt act s = .ok a t) :
    (act s.heap).1 = .ok a ∧ t = { s with heap := (act s.heap).2 } := by
  cases hact : act s.heap with
  | mk r heap =>
    cases r with
    | ok b =>
      cases (run_attempt_ok hact).symm.trans h
      exact ⟨rfl, rfl⟩
    | error e => cases (run_attempt_error hact).symm.trans h

theorem finite_eq_ok {α : Type} {x : Option α} {s t : Store} {a : α}
    (h : Run.finite x s = .ok a t) : x = some a ∧ t = s := by
  cases x with
  | none => cases h
  | some b =>
    cases h
    exact ⟨rfl, rfl⟩

/-- A name that routines do not know of themselves has its value from the scope. -/
theorem valueOf_ok {scope : Scope} {name : String} {s t : Store} {v : Value}
    (hglobal : global? name = none) (h : valueOf scope name s = .ok v t) :
    s.heap.find? name scope = some v ∧ t = s := by
  cases hfound : s.heap.find? name scope with
  | some u =>
    cases (valueOf_found hfound).symm.trans h
    exact ⟨rfl, rfl⟩
  | none =>
    cases hguarded : scope.isGuarded with
    | false =>
      rw [valueOf_unbound hfound hguarded hglobal] at h
      cases h
    | true =>
      have hfails : valueOf scope name s = .error (.failed (.undefinedVariable name)) s := by
        refine (run_bind_ok rfl).trans ?_
        rw [hfound, hguarded]
        rfl
      rw [hfails] at h
      cases h

/-! ### What is written -/

namespace Heap

theorem isVariable_iff {h : Heap} {name : String} {scope : Scope} :
    h.isVariable name scope = true ↔ ∃ place, h.holder? name scope = some (.locals place) := by
  unfold isVariable
  split <;> simp_all

theorem written?_eq_some {h : Heap} {scope : Scope} {op : BinaryOp} {target : Expr}
    {operand : Value} {piece : String} (hw : h.written? scope op target operand = some piece) :
    op = .add ∧ target = .name outputName ∧ h.isVariable outputName scope = true
      ∧ h.display operand = some piece := by
  unfold written? at hw
  split at hw
  · split at hw
    · rename_i hs
      obtain ⟨rfl, hvariable⟩ := hs
      exact ⟨rfl, rfl, hvariable, hw⟩
    · cases hw
  · cases hw

/-- The text of a value is that of the value without its structure. -/
theorem display_eq_of_primitive {h : Heap} {v plain : Value} (hv : h.primitive v = some plain) :
    h.display v = some (plainText plain) := by
  cases v with
  | array | object | native | closure =>
    obtain ⟨text, htext, rfl⟩ := Option.map_eq_some_iff.mp hv
    exact htext
  | undefined | null | bool | number | text =>
    cases hv
    rw [display]
    cases h.arrays.size <;> rfl

/-- What is added to has a text. -/
theorem exists_display_of_sum {h : Heap} {old operand v : Value}
    (hsum : h.sum old operand = some v) : ∃ piece, h.display operand = some piece := by
  obtain ⟨_, -, hsum⟩ := Option.bind_eq_some_iff.mp hsum
  obtain ⟨plain, hplain, -⟩ := Option.bind_eq_some_iff.mp hsum
  exact ⟨_, display_eq_of_primitive hplain⟩

theorem isVariable_of_written?_none {h : Heap} {scope : Scope} {old operand v : Value}
    (hw : h.written? scope .add (.name outputName) operand = none)
    (hsum : h.binary .add old operand = some v) : h.isVariable outputName scope = false := by
  obtain ⟨piece, hpiece⟩ := exists_display_of_sum hsum
  cases hvariable : h.isVariable outputName scope with
  | false => rfl
  | true =>
    rw [written?, if_pos ⟨rfl, hvariable⟩, hpiece] at hw
    cases hw

end Heap

/-- An opened value of a realm is a link of it. -/
theorem Realm.Has.openedLink {R : Realm} {v : Value} (hv : R.Has v) (guarded : Bool) :
    R.HasLink (openedLink v guarded) := by
  unfold Routine.openedLink
  split
  · exact hv
  · trivial

/-! ### Accounts -/

/-- What runs in a realm keep true of their record and the heap. -/
structure Account extends Realm where
  builtins {identity name b} : natives identity name (.builtin b)
  /-- What holds of the record and the heap. -/
  Holds : List String → Heap → Prop
  /-- The names under which variables may be declared and assigned. -/
  names : String → Prop
  assigned {r op name value} : exprs r (.assign op (.name name) value) = true →
    names name ∨ op = some .add ∧ name = outputName
  updated {r up leading name} : exprs r (.update up leading (.name name)) = true → names name
  params {r site params body} : exprs r (.arrow site params body) = true →
    ∀ name ∈ params, names name
  declared {r kind bindings} : stmts r (.declare kind bindings) = true →
    ∀ b ∈ bindings, names b.1
  visited {r head kind name source body} : stmts r (.each head kind name source body) = true →
    names name
  /-- Nothing changes for steps that change no variable. -/
  aside {record g h} : g.Aside h → Holds record g → Holds record h
  newFrame {record h} : Holds record h → Holds record h.newFrame.2
  setLocal {record h place name b} : names name → Holds record h →
    Holds record (h.setLocal place name b)
  /-- What is added to the output is all that is written since the output was read. -/
  writes {scope before record g h place old operand v piece} : (∀ l ∈ scope, toRealm.HasLink l) →
    Holds before g → Holds record h → g.Grows h → g.find? outputName scope = some old →
    h.sum old operand = some v → h.display operand = some piece →
    h.holder? outputName scope = some (.locals place) →
    Holds (before ++ [piece]) (h.setLocal place outputName ⟨v, true⟩)

namespace Account

variable {A : Account} {α β : Type}

/-- From a record and a heap to others, in the realm and with what holds. -/
structure Goes (A : Account) (g : Heap) (record : List String) (h : Heap) : Prop where
  keeps : A.Keeps h
  grows : g.Grows h
  holds : A.Holds record h

/-- The steps keep the account, whatever was written before, and what they come to has the
property. -/
def Heeds (A : Account) (P : α → Prop) (m : Run α) : Prop :=
  ∀ record s a t, A.Keeps s.heap → A.Holds record s.heap → m s = .ok a t →
    A.Goes s.heap record t.heap ∧ P a

/-- The recording steps keep the account, and what they come to has the property. -/
def Minds (A : Account) (P : α → Prop) (m : Recording α) : Prop :=
  ∀ record s a record' t, A.Keeps s.heap → A.Holds record s.heap →
    m record s = .ok (a, record') t → A.Goes s.heap record' t.heap ∧ P a

theorem Goes.refl {record : List String} {h : Heap} (hkeeps : A.Keeps h)
    (hholds : A.Holds record h) : A.Goes h record h := ⟨hkeeps, .refl h, hholds⟩

theorem Goes.trans {g h k : Heap} {between record : List String} (hgh : A.Goes g between h)
    (hhk : A.Goes h record k) : A.Goes g record k :=
  ⟨hhk.keeps, hgh.grows.trans hhk.grows, hhk.holds⟩

/-- Values that functions give back lie in the realm. -/
def HasFlow (A : Account) : Flow → Prop
  | .giveBack v => A.Has v
  | _ => True

/-- So do those with which a round ends its loop. -/
def HasEnding (A : Account) (ending : Option Flow) : Prop :=
  ∀ flow, ending = some flow → A.HasFlow flow

theorem HasFlow.result {flow : Flow} (h : A.HasFlow flow) : A.Has flow.result := by
  cases flow with
  | giveBack v => exact h
  | onward | leave | skip => trivial

theorem HasFlow.afterRound {flow : Flow} (h : A.HasFlow flow) : A.HasEnding flow.afterRound := by
  intro ending hending
  cases flow with
  | giveBack v =>
    cases hending
    exact h
  | leave =>
    cases hending
    trivial
  | onward | skip => cases hending

/-! ### Steps that write nothing -/

namespace Heeds

variable {P : α → Prop} {Q : β → Prop} {m : Run α} {f : α → Run β}

theorem quiet (h : A.Quiet P m) : A.Heeds P m := by
  intro record s a t hs hholds hm
  obtain ⟨⟨hleads, -⟩, hP⟩ := h.ok hs hm
  exact ⟨⟨hleads.keeps, hleads.aside.grows, A.aside hleads.aside hholds⟩, hP⟩

theorem bind (hm : A.Heeds P m) (hf : ∀ a, P a → A.Heeds Q (f a)) : A.Heeds Q (m >>= f) := by
  intro record s b u hs hholds hb
  obtain ⟨a, t, ha, hb⟩ := exists_of_run_bind_ok hb
  obtain ⟨hgoes, hP⟩ := hm record s a t hs hholds ha
  obtain ⟨hgoes', hQ⟩ := hf a hP record t b u hgoes.keeps hgoes.holds hb
  exact ⟨hgoes.trans hgoes', hQ⟩

/-- Making something of which no variable is changed. -/
theorem make {act : Heap → α × Heap}
    (h : ∀ g, A.Keeps g → A.Keeps (act g).2 ∧ g.Aside (act g).2 ∧ P (act g).1) :
    A.Heeds P (Run.make act) := by
  intro record s a t hs hholds hm
  cases hm
  obtain ⟨hkeeps, haside, hP⟩ := h s.heap hs
  exact ⟨⟨hkeeps, haside.grows, A.aside haside hholds⟩, hP⟩

theorem global {name : String} {act : Heap → Value × Heap} (h : global? name = some act) :
    A.Heeds A.Has (Run.make act) := by
  unfold global? at h
  split at h <;> cases h
  · exact make fun _ hg => ⟨hg, .refl _, trivial⟩
  · exact make fun _ hg => ⟨hg, .refl _, trivial⟩
  all_goals first
    | exact make fun _ hg => hg.newNatives fun i f hf => by
        obtain ⟨e, -, rfl⟩ := List.mem_map.mp hf
        exact A.builtins
    | exact make fun _ hg =>
        have hnew := hg.newNative _ _
        ⟨hnew.1, hnew.2, A.builtins⟩

variable {scope : Scope}

theorem valueOf (hs : ∀ l ∈ scope, A.HasLink l) (name : String) :
    A.Heeds A.Has (valueOf scope name) := by
  refine (quiet .heap).bind fun h hh => ?_
  cases hfound : h.find? name scope with
  | some v => exact quiet (.pure (hh.find? hs hfound))
  | none =>
    dsimp only
    split
    · exact quiet (.fail _)
    · cases hglobal : global? name with
      | none => exact quiet (.fail _)
      | some act => exact global hglobal

theorem withFrame (hs : ∀ l ∈ scope, A.HasLink l) :
    A.Heeds (fun inner => ∀ l ∈ inner, A.HasLink l) (withFrame scope) := by
  intro record s inner t hkeeps hholds hm
  cases hm
  exact ⟨⟨hkeeps.newFrame, .of_objects rfl, A.newFrame hholds⟩,
    List.forall_mem_cons.mpr ⟨hkeeps.free_frames _ le_rfl, hs⟩⟩

theorem declareName {name : String} (hname : A.names name) {v : Value} (hv : A.Has v)
    (changeable : Bool) :
    A.Heeds (fun _ => True) (declareName scope name v changeable) := by
  intro record s a t hkeeps hholds hm
  cases hm
  refine ⟨?_, trivial⟩
  show A.Goes s.heap record (s.heap.declare scope name ⟨v, changeable⟩)
  unfold Heap.declare
  split
  · exact ⟨hkeeps.setLocal _ name hv, .of_objects rfl, A.setLocal hname hholds⟩
  · exact .refl hkeeps hholds

theorem bindParams {params : List String} (hparams : ∀ name ∈ params, A.names name)
    {args : List Value} (hargs : A.HasAll args) :
    A.Heeds (fun _ => True) (bindParams scope params args) := by
  induction params generalizing args with
  | nil => exact quiet (.pure trivial)
  | cons name params ih =>
    obtain ⟨hname, hparams⟩ := List.forall_mem_cons.mp hparams
    cases args with
    | nil =>
      have hundefined : A.Has .undefined := trivial
      exact (declareName hname hundefined true).bind fun _ _ => ih hparams .nil
    | cons v vs =>
      obtain ⟨hv, hvs⟩ := List.forall_mem_cons.mp hargs
      exact (declareName hname hv true).bind fun _ _ => ih hparams hvs

/-- An assignment to a name that may be assigned, or else to a member. -/
theorem goes_of_assignName {name : String} {v : Value} (hv : A.Has v) {record : List String}
    {s t : Store} {u : Unit} (hkeeps : A.Keeps s.heap) (hholds : A.Holds record s.heap)
    (hname : A.names name ∨ s.heap.isVariable name scope = false)
    (hok : Routine.assignName scope name v s = .ok u t) : A.Goes s.heap record t.heap := by
  obtain ⟨hfirst, rfl⟩ := attempt_eq_ok hok
  rcases Heap.assign_cases hfirst with ⟨place, hholder, heq⟩ | ⟨place, guarded, -, heq⟩
  · have hnames : A.names name := by
      refine hname.resolve_right fun hnot => ?_
      rw [Heap.isVariable, hholder] at hnot
      cases hnot
    show A.Goes s.heap record (s.heap.assign name v scope).2
    rw [heq]
    exact ⟨hkeeps.setLocal place name hv, .of_objects rfl, A.setLocal hnames hholds⟩
  · have hleads := hkeeps.setMember place name hv
    show A.Goes s.heap record (s.heap.assign name v scope).2
    rw [heq]
    exact ⟨hleads.keeps, hleads.aside.grows, A.aside hleads.aside hholds⟩

theorem assignName {name : String} (hname : A.names name) {v : Value} (hv : A.Has v) :
    A.Heeds (fun _ => True) (assignName scope name v) :=
  fun _ _ _ _ hkeeps hholds hok =>
    ⟨goes_of_assignName hv hkeeps hholds (.inl hname) hok, trivial⟩

end Heeds

/-! ### Steps that may write -/

namespace Minds

variable {P : α → Prop} {Q : β → Prop} {m : Recording α} {f : α → Recording β}

theorem pure {a : α} (h : P a) : A.Minds P (Pure.pure a) := by
  intro record s b record' t hs hholds hm
  cases hm
  exact ⟨.refl hs hholds, h⟩

theorem bind (hm : A.Minds P m) (hf : ∀ a, P a → A.Minds Q (f a)) : A.Minds Q (m >>= f) := by
  intro record s b record' t hs hholds hb
  obtain ⟨a, between, u, ha, hb⟩ := Recording.exists_of_bind_ok hb
  obtain ⟨hgoes, hP⟩ := hm record s a between u hs hholds ha
  obtain ⟨hgoes', hQ⟩ := hf a hP between u b record' t hgoes.keeps hgoes.holds hb
  exact ⟨hgoes.trans hgoes', hQ⟩

/-- Steps that write nothing. -/
theorem lift {m : Run α} (h : A.Heeds P m) : A.Minds P (liftM m) := by
  intro record s a record' t hs hholds hm
  obtain ⟨hrun, rfl⟩ := Recording.ok_of_lift hm
  exact h _ s a t hs hholds hrun

/-- Steps that change no variable either. -/
theorem quiet {m : Run α} (h : A.Quiet P m) : A.Minds P (liftM m) := lift (.quiet h)

theorem fail (e : Failure) : A.Minds P (liftM (Run.fail e : Run α)) := quiet (.fail e)

theorem endless : A.Minds P (liftM (Run.endless : Run α)) := quiet .endless

/-- What follows a step that only looks. -/
theorem look {m : Run α} {f : α → Recording β} (h : Looks m) (hf : ∀ a, A.Minds Q (f a)) :
    A.Minds Q (liftM m >>= f) :=
  (quiet (.looks h)).bind fun a _ => hf a

theorem mapM {P : α → Prop} {f : α → Recording β} {as : List α} (has : ∀ a ∈ as, P a)
    (hf : ∀ a, P a → A.Minds Q (f a)) : A.Minds (fun bs => ∀ b ∈ bs, Q b) (as.mapM f) := by
  induction as with
  | nil => exact pure nofun
  | cons a as ih =>
    obtain ⟨ha, has⟩ := List.forall_mem_cons.mp has
    rw [List.mapM_cons]
    exact (hf a ha).bind fun b hb => (ih has).bind fun bs hbs =>
      pure (List.forall_mem_cons.mpr ⟨hb, hbs⟩)

theorem forM {P : α → Prop} {f : α → Recording PUnit} {as : List α} (has : ∀ a ∈ as, P a)
    (hf : ∀ a, P a → A.Minds (fun _ => True) (f a)) : A.Minds (fun _ => True) (as.forM f) := by
  induction as with
  | nil => exact pure trivial
  | cons a as ih =>
    obtain ⟨ha, has⟩ := List.forall_mem_cons.mp has
    exact (hf a ha).bind fun _ _ => ih has

/-! ### Loops -/

theorem inOrder {run : Stmt → Recording Flow} {ss : List Stmt}
    (h : ∀ s ∈ ss, A.Minds A.HasFlow (run s)) :
    A.Minds A.HasFlow (Recording.inOrder run ss) := by
  induction ss with
  | nil => exact pure trivial
  | cons s ss ih =>
    obtain ⟨hs, hss⟩ := List.forall_mem_cons.mp h
    refine hs.bind fun flow hflow => ?_
    cases flow with
    | onward => exact ih hss
    | leave | skip | giveBack => exact pure hflow

theorem eachItem {round : Value → Recording Flow} {vs : List Value} (hvs : A.HasAll vs)
    (h : ∀ v, A.Has v → A.Minds A.HasFlow (round v)) :
    A.Minds A.HasFlow (Recording.eachItem round vs) := by
  induction vs with
  | nil => exact pure trivial
  | cons v vs ih =>
    obtain ⟨hv, hvs⟩ := List.forall_mem_cons.mp hvs
    refine (h v hv).bind fun flow hflow => ?_
    cases hending : flow.afterRound with
    | none => exact ih hvs
    | some ending => exact pure (hflow.afterRound ending hending)

theorem repeatedly {round : Recording (Option Flow)} (h : A.Minds A.HasEnding round)
    (bound : Nat) : A.Minds A.HasFlow (Recording.repeatedly round bound) := by
  induction bound with
  | zero => exact endless
  | succ bound ih =>
    refine h.bind fun ending hending => ?_
    cases ending with
    | none => exact ih
    | some flow => exact pure (hending flow rfl)

theorem eachRound (kind : Option DeclKind) {name : String} (hname : A.names name) {scope : Scope}
    (hs : ∀ l ∈ scope, A.HasLink l) {run : Scope → Recording Flow}
    (h : ∀ inner : Scope, (∀ l ∈ inner, A.HasLink l) → A.Minds A.HasFlow (run inner)) {v : Value}
    (hv : A.Has v) : A.Minds A.HasFlow (Recording.eachRound kind name scope run v) := by
  refine (lift (.withFrame hs)).bind fun inner hinner => ?_
  cases kind with
  | none => exact (lift (.assignName hname hv)).bind fun _ _ => h inner hinner
  | some kind => exact (lift (.declareName hname hv _)).bind fun _ _ => h inner hinner

theorem countedRound {evaluate : Expr → Recording Value} {run : Stmt → Recording Flow}
    {update : Option Expr} {body : Stmt}
    (he : ∀ e ∈ update.toList, A.Minds A.Has (evaluate e)) (hs : A.Minds A.HasFlow (run body))
    (goesOn : Bool) :
    A.Minds A.HasEnding (Recording.countedRound evaluate run update body goesOn) := by
  have hnone : A.HasEnding none := nofun
  cases goesOn with
  | false =>
    refine pure fun flow hflow => ?_
    cases hflow
    trivial
  | true =>
    refine hs.bind fun flow hflow => ?_
    cases hending : flow.afterRound with
    | some ending => exact pure (hending ▸ hflow.afterRound)
    | none =>
      cases update with
      | none => exact pure hnone
      | some update => exact (he update (by simp)).bind fun _ _ => pure hnone

/-! ### Methods that visit items -/

/-- An item of the realm with its place. -/
theorem forall_mem_placed {P : Value → Prop} {vs : List Value} (h : ∀ v ∈ vs, P v) :
    ∀ item ∈ placed vs, P item.1 := by
  intro item hitem
  exact h item.1 (List.fst_mem_of_mem_zipIdx hitem)

section Items

variable {test : Value × Nat → Recording Value} {items : List (Value × Nat)}
  (htest : ∀ item, A.Has item.1 → A.Minds A.Has (test item))
  (hitems : ∀ item ∈ items, A.Has item.1)
include htest hitems

theorem firstWhere (wanted : Bool) :
    A.Minds (fun found => ∀ item ∈ found, A.Has item.1)
      (Recording.firstWhere test wanted items) := by
  induction items with
  | nil => exact pure nofun
  | cons item items ih =>
    obtain ⟨hitem, hitems⟩ := List.forall_mem_cons.mp hitems
    refine (htest item hitem).bind fun v _ => ?_
    split
    · refine pure fun found hfound => ?_
      cases hfound
      exact hitem
    · exact ih hitems

theorem itemsWhere : A.Minds A.HasAll (Recording.itemsWhere test items) := by
  induction items with
  | nil => exact pure .nil
  | cons item items ih =>
    obtain ⟨hitem, hitems⟩ := List.forall_mem_cons.mp hitems
    refine (htest item hitem).bind fun v _ => ?_
    split
    · exact (ih hitems).bind fun vs hvs => pure (.cons hitem hvs)
    · exact ih hitems

end Items

section Calls

variable {call : Recording.Caller}
  (hcall : ∀ f args, A.Has f → A.HasAll args → A.Minds A.Has (call f args))
include hcall

theorem carry {f : Value} (hf : A.Has f) {array : Nat} (harray : A.arrays array)
    {items : List (Value × Nat)} (hitems : ∀ item ∈ items, A.Has item.1) {result : Value}
    (hresult : A.Has result) : A.Minds A.Has (Recording.carry call f array result items) := by
  induction items generalizing result with
  | nil => exact pure hresult
  | cons item items ih =>
    obtain ⟨hitem, hitems⟩ := List.forall_mem_cons.mp hitems
    refine (hcall f _ hf ?_).bind fun v hv => ih hitems hv
    exact .cons hresult (.cons hitem (.cons trivial (.cons harray .nil)))

theorem arrayMethod (m : ArrayMethod) {array : Nat} (harray : A.arrays array) {args : List Value}
    (hargs : A.HasAll args) : A.Minds A.Has (Recording.arrayMethod call m array args) := by
  have hf := hargs.argument 0
  have hvisit (item : Value × Nat) (hitem : A.Has item.1) :
      A.Minds A.Has (Recording.visit call (argument args 0) array item) :=
    hcall _ _ hf (.cons hitem (.cons trivial (.cons harray .nil)))
  have hitems : A.Minds (fun vs => ∀ item ∈ placed vs, A.Has item.1) (liftM (itemsAt array)) :=
    quiet ((Realm.Quiet.itemsAt harray).imp fun _ => forall_mem_placed)
  have hplain (hm : m.callsFunctions = false) :
      A.Minds A.Has (liftM (m.apply (fun _ _ => Run.endless) array args)) :=
    quiet (.arrayMethod _ hm harray hargs)
  cases m with
  | forEach =>
    exact hitems.bind fun vs hvs => (forM hvs fun item hitem => (hvisit item hitem).bind
      fun _ _ => pure trivial).bind fun _ _ => pure trivial
  | map =>
    exact hitems.bind fun vs hvs => (mapM hvs hvisit).bind fun _ h => quiet (.newArray h)
  | filter =>
    exact hitems.bind fun vs hvs => (itemsWhere hvisit hvs).bind fun _ h => quiet (.newArray h)
  | find =>
    refine hitems.bind fun vs hvs => (firstWhere hvisit hvs true).bind fun found hfound => ?_
    cases found with
    | none => exact pure trivial
    | some item => exact pure (hfound item rfl)
  | findIndex =>
    refine hitems.bind fun vs hvs => (firstWhere hvisit hvs true).bind fun found _ => ?_
    cases found with
    | none => exact pure trivial
    | some item => exact pure trivial
  | anyOf | allOf =>
    exact hitems.bind fun vs hvs => (firstWhere hvisit hvs _).bind fun _ _ => pure trivial
  | reduce =>
    refine hitems.bind fun vs hvs => ?_
    dsimp only
    cases hstart : args[1]? with
    | some start => exact carry hcall hf harray hvs (hargs start (List.mem_of_getElem? hstart))
    | none =>
      generalize placed vs = items at hvs ⊢
      cases items with
      | nil => exact fail _
      | cons first rest =>
        obtain ⟨hfirst, hrest⟩ := List.forall_mem_cons.mp hvs
        exact carry hcall hf harray hrest hfirst
  | join | includes | indexOf | push | pop | slice | reverse | concat | text => exact hplain rfl

theorem callMember {object : Nat} (hobject : A.objects object) (name : String)
    {args : List Value} (hargs : A.HasAll args) :
    A.Minds A.Has (Recording.callMember call object name args) := by
  refine (quiet .heap).bind fun h hh => ?_
  cases hmember : (h.members object).get? name with
  | none => exact fail _
  | some f =>
    dsimp only
    split
    · exact hcall f args (hh.members object hobject (name, f) (mem_of_lookupName hmember)) hargs
    · exact fail _

theorem callMethod {receiver : Value} (hreceiver : A.Has receiver) (name : String)
    {args : List Value} (hargs : A.HasAll args) :
    A.Minds A.Has (Recording.callMethod call receiver name args) := by
  cases receiver with
  | object place => exact callMember hcall hreceiver name hargs
  | array place =>
    simp only [Recording.callMethod]
    cases ArrayMethod.ofName? name with
    | none => exact fail _
    | some m => exact arrayMethod hcall m hreceiver hargs
  | undefined | null | bool | number | text | native | closure =>
    exact quiet (.callMethod _ (by simp) (by simp) name args)

end Calls

/-! ### Targets -/

/-- What is assigned to when the target is no name, or a name that may be assigned. -/
theorem assignTo {evaluate : Expr → Recording Value} {scope : Scope} {target : Expr}
    (h : ∀ part ∈ target.targetParts, A.Minds A.Has (evaluate part))
    (hname : ∀ name, target = .name name → A.names name) {v : Value} (hv : A.Has v) :
    A.Minds (fun _ => True) (Recording.assignTo evaluate scope target v) := by
  cases target with
  | name s => exact lift (.assignName (hname s rfl) hv)
  | member object property optional =>
    exact (h object (by simp [Expr.targetParts])).bind fun _ hobject =>
      quiet (.putProperty hobject property hv)
  | index object key optional =>
    exact (h object (by simp [Expr.targetParts])).bind fun _ hobject =>
      (h key (by simp [Expr.targetParts])).bind fun _ _ => quiet (.putItem hobject _ hv)
  | _ => exact fail _

end Minds

/-! ### Layers of evaluation -/

/-- What a run asks for keeps the realm. -/
def Serves (A : Account) (ask : Service → List Value → Run Value) : Prop :=
  ∀ s args identity name, A.natives identity name (.service s) → A.HasAll args →
    A.Quiet A.Has (ask s args)

/-- All expressions, statements and calls keep the account below a bound. -/
structure Everything (A : Account) (ask : Service → List Value → Run Value) (bound : Nat) :
    Prop where
  eval (r calls : Nat) {scope : Scope} (hs : ∀ l ∈ scope, A.HasLink l) {e : Expr}
    (he : A.Admits r e) : A.Minds A.Has (Recording.eval bound ⟨ask, r, calls⟩ scope e)
  exec (r calls : Nat) {scope : Scope} (hs : ∀ l ∈ scope, A.HasLink l) {s : Stmt}
    (hstmt : A.AdmitsStmt r s) :
    A.Minds A.HasFlow (Recording.exec bound ⟨ask, r, calls⟩ scope s)
  call (r calls : Nat) {f : Value} {args : List Value} (hf : A.Has f) (hargs : A.HasAll args) :
    A.Minds A.Has (Recording.callValue bound ⟨ask, r, calls⟩ f args)

section Layers

variable {ask : Service → List Value → Run Value} {bound : Nat}

/-- Steps that stop at a missing value in front of them, if they may. -/
theorem Minds.optionally (optional : Bool) (v : Value) {m : Recording Value}
    (h : A.Minds A.Has m) :
    A.Minds A.Has (if optional && v.isNullish then Pure.pure .undefined else m) := by
  split
  · exact .pure trivial
  · exact h

variable (h : A.Everything ask bound)
include h

/-- An assignment that computes. -/
theorem Everything.compound (r calls : Nat) {scope : Scope} (hs : ∀ l ∈ scope, A.HasLink l)
    {op : BinaryOp} {target value : Expr} (he : A.Admits r (.assign (some op) target value)) :
    A.Minds A.Has
      (Recording.eval (bound + 1) ⟨ask, r, calls⟩ scope (.assign (some op) target value)) := by
  have hparts := Expr.every_parts he
  have htarget := h.eval r calls hs (hparts target (by simp [Expr.parts]))
  have hvalue := h.eval r calls hs (hparts value (by simp [Expr.parts]))
  intro record s v record' t hkeeps hholds hrun
  obtain ⟨_, _, _, hget, hfromTarget⟩ := Recording.exists_of_bind_ok hrun
  cases hget
  obtain ⟨old, record₁, s₁, hold, hfromValue⟩ := Recording.exists_of_bind_ok hfromTarget
  obtain ⟨operand, record₂, s₂, hoperand, hfromHeap⟩ := Recording.exists_of_bind_ok hfromValue
  obtain ⟨hgoes₁, -⟩ := htarget _ _ _ _ _ hkeeps hholds hold
  obtain ⟨hgoes₂, -⟩ := hvalue _ _ _ _ _ hgoes₁.keeps hgoes₁.holds hoperand
  obtain ⟨heap, _, _, hheap, hfromSum⟩ := Recording.exists_of_bind_ok hfromHeap
  cases hheap
  obtain ⟨sum, _, _, hsum, hfromAssign⟩ := Recording.exists_of_bind_ok hfromSum
  obtain ⟨_, record₃, s₃, hassign, hend⟩ := Recording.exists_of_bind_ok hfromAssign
  obtain ⟨hcomputed, hrecord⟩ := Recording.ok_of_lift hsum
  obtain ⟨hv, hstore⟩ := finite_eq_ok hcomputed
  rw [hrecord, hstore] at hassign
  have hhas : A.Has sum := Realm.Quiet.has_of_binary hv
  cases hwritten : s₂.heap.written? scope op target operand with
  | none =>
    -- A name that may not be assigned belongs to a member here.
    rw [hwritten] at hend
    cases hend
    refine ⟨(hgoes₁.trans hgoes₂).trans ?_, hhas⟩
    have htargets : (∀ name, target ≠ .name name) ∨ ∃ name, target = .name name := by
      cases target <;> simp
    rcases htargets with hother | ⟨name, rfl⟩
    · refine (Minds.assignTo (fun part hpart => h.eval r calls hs (hparts part ?_))
        (fun name heq => absurd heq (hother name)) hhas _ _ _ _ _ hgoes₂.keeps hgoes₂.holds
        hassign).1
      simp [Expr.parts, hpart]
    · obtain ⟨hassigned, rfl⟩ := Recording.ok_of_lift hassign
      refine Heeds.goes_of_assignName hhas hgoes₂.keeps hgoes₂.holds ?_ hassigned
      refine (A.assigned (Expr.every_self he)).imp_right ?_
      rintro ⟨heq, rfl⟩
      cases heq
      exact Heap.isVariable_of_written?_none hwritten hv
  | some piece =>
    rw [hwritten] at hend
    cases hend
    obtain ⟨rfl, rfl, hvariable, hpiece⟩ := Heap.written?_eq_some hwritten
    obtain ⟨place, hholder⟩ := Heap.isVariable_iff.mp hvariable
    obtain ⟨hassigned, -⟩ := Recording.ok_of_lift hassign
    obtain ⟨hfirst, rfl⟩ := attempt_eq_ok hassigned
    obtain ⟨hfound, rfl⟩ := valueOf_ok rfl (Recording.valueOf_of_eval hold).1
    have hset : (s₂.heap.assign outputName v scope).2
        = s₂.heap.setLocal place outputName ⟨v, true⟩ := by
      rcases Heap.assign_cases hfirst with ⟨place', hholder', heq⟩ | ⟨_, _, hholder', -⟩
      · cases hholder.symm.trans hholder'
        exact heq
      · cases hholder.symm.trans hholder'
    refine ⟨?_, hhas⟩
    show A.Goes _ _ (s₂.heap.assign outputName v scope).2
    rw [hset]
    exact ⟨hgoes₂.keeps.setLocal place outputName hhas, hgoes₂.grows,
      A.writes hs hholds hgoes₂.holds hgoes₂.grows hfound hv hpiece hholder⟩

theorem Everything.eval_succ (r calls : Nat) {scope : Scope} (hs : ∀ l ∈ scope, A.HasLink l)
    {e : Expr} (he : A.Admits r e) :
    A.Minds A.Has (Recording.eval (bound + 1) ⟨ask, r, calls⟩ scope e) := by
  have hself := Expr.every_self he
  have hpart {p : Expr} (hmem : p ∈ e.parts) :=
    h.eval r calls hs (Expr.every_parts he p hmem)
  have hargs {args : List Expr} (hsub : args ⊆ e.parts) :
      A.Minds A.HasAll (args.mapM (Recording.eval bound ⟨ask, r, calls⟩ scope)) :=
    .mapM (P := (· ∈ e.parts)) (fun _ hmem => hsub hmem) fun _ hmem => hpart hmem
  have hcall (f : Value) (args : List Value) (hf : A.Has f) (hargs : A.HasAll args) :=
    h.call r calls hf hargs
  cases e with
  | number | text | bool | null | undefined => exact .pure trivial
  | arrow site params body => exact .pure ⟨he, hs⟩
  | name s => exact .lift (.valueOf hs s)
  | array items => exact (hargs fun _ hmem => hmem).bind fun _ hvs => .quiet (.newArray hvs)
  | object members =>
    refine (Minds.mapM (P := (· ∈ members)) (Q := fun (e : String × Value) => A.Has e.2)
      (fun _ hmem => hmem) fun member hmem => ?_).bind fun _ h => .quiet (.newObject h)
    exact (hpart (List.mem_map_of_mem hmem)).bind fun _ hv => .pure hv
  | member object property optional =>
    exact (hpart (p := object) (by simp [Expr.parts])).bind fun v hv =>
      .optionally optional v (.quiet (.getProperty hv property))
  | index object key optional =>
    exact (hpart (p := object) (by simp [Expr.parts])).bind fun v hv =>
      .optionally optional v ((hpart (p := key) (by simp [Expr.parts])).bind fun key _ =>
        .quiet (.getItem hv key))
  | call callee args optional =>
    have hsub : args ⊆ (Expr.call callee args optional).parts := by
      intro arg harg
      simp [Expr.parts, harg]
    cases callee with
    | member object property optional' =>
      refine (hpart (p := object) (by simp [Expr.parts, Expr.targetParts])).bind
        fun v hv => .optionally optional' v ?_
      exact (hargs hsub).bind fun _ hvs => .callMethod hcall hv property hvs
    | index object key optional' =>
      refine (hpart (p := object) (by simp [Expr.parts, Expr.targetParts])).bind
        fun v hv => .optionally optional' v ?_
      refine (hpart (p := key) (by simp [Expr.parts, Expr.targetParts])).bind
        fun k _ => .look (.textOf k) fun property => ?_
      exact (hargs hsub).bind fun _ hvs => .callMethod hcall hv property hvs
    | _ =>
      refine (hpart (by simp only [Expr.parts]; exact List.mem_cons_self)).bind
        fun f hf => .optionally optional f ?_
      exact (hargs hsub).bind fun _ hvs => hcall f _ hf hvs
  | unary op operand =>
    exact (hpart (p := operand) (by simp [Expr.parts])).bind fun v _ =>
      (Minds.quiet .heap).bind fun _ _ => .quiet (.finite fun _ => Realm.Quiet.has_of_unary)
  | binary op left right =>
    exact (hpart (p := left) (by simp [Expr.parts])).bind fun _ _ =>
      (hpart (p := right) (by simp [Expr.parts])).bind fun _ _ =>
        (Minds.quiet .heap).bind fun _ _ => .quiet (.finite fun _ => Realm.Quiet.has_of_binary)
  | logical op left right =>
    refine (hpart (p := left) (by simp [Expr.parts])).bind fun v hv => ?_
    split
    · exact .pure hv
    · exact hpart (by simp [Expr.parts])
  | conditional test yes no =>
    refine (hpart (p := test) (by simp [Expr.parts])).bind fun v _ => ?_
    split
    · exact hpart (by simp [Expr.parts])
    · exact hpart (by simp [Expr.parts])
  | assign op target value =>
    cases op with
    | some op => exact h.compound r calls hs he
    | none =>
      refine (hpart (p := value) (by simp [Expr.parts])).bind fun v hv => ?_
      refine (Minds.assignTo (fun part hmem => hpart ?_) ?_ hv).bind fun _ _ => .pure hv
      · simp [Expr.parts, hmem]
      · rintro name rfl
        refine (A.assigned hself).resolve_right ?_
        rintro ⟨⟨⟩, -⟩
  | update up leading target =>
    refine (hpart (p := target) (by simp [Expr.parts])).bind fun v _ =>
      .look (.numberOf v) fun old => ?_
    have hcounted : A.Has (.number (counted up old)) := trivial
    refine (Minds.assignTo (fun part hmem => hpart ?_) ?_ hcounted).bind fun _ _ => .pure trivial
    · simp [Expr.parts, hmem]
    · rintro name rfl
      exact A.updated hself

theorem Everything.exec_succ (r calls : Nat) {scope : Scope} (hs : ∀ l ∈ scope, A.HasLink l)
    {s : Stmt} (hstmt : A.AdmitsStmt r s) :
    A.Minds A.HasFlow (Recording.exec (bound + 1) ⟨ask, r, calls⟩ scope s) := by
  have hself := Stmt.every_self hstmt
  have he {scope : Scope} (hs : ∀ l ∈ scope, A.HasLink l) {e : Expr} (hmem : e ∈ s.exprs) :=
    h.eval r calls hs (Stmt.every_exprs hstmt e hmem)
  have hx {scope : Scope} (hs : ∀ l ∈ scope, A.HasLink l) {p : Stmt} (hmem : p ∈ s.stmts) :=
    h.exec r calls hs (Stmt.every_stmts hstmt p hmem)
  have hinner {scope : Scope} (hs : ∀ l ∈ scope, A.HasLink l) :
      A.Minds (fun inner => ∀ l ∈ inner, A.HasLink l) (liftM (withFrame scope)) :=
    .lift (.withFrame hs)
  cases s with
  | empty | leave | skip => exact .pure trivial
  | expr e => exact (he hs (by simp [Stmt.exprs])).bind fun _ _ => .pure trivial
  | declare kind bindings =>
    refine (Minds.forM (P := (· ∈ bindings)) (fun _ hmem => hmem) fun b hmem => ?_).bind
      fun _ _ => .pure trivial
    have hname := A.declared hself b hmem
    obtain ⟨name, value⟩ := b
    cases value with
    | none => exact (Minds.pure trivial).bind fun v hv => .lift (.declareName hname hv _)
    | some e =>
      have hmem : e ∈ (Stmt.declare kind bindings).exprs := List.mem_filterMap.mpr ⟨_, hmem, rfl⟩
      exact (he hs hmem).bind fun v hv => .lift (.declareName hname hv _)
  | block stmts => exact (hinner hs).bind fun inner hinner => .inOrder fun _ hmem => hx hinner hmem
  | branch test yes no =>
    refine (he hs (e := test) (by simp [Stmt.exprs])).bind fun v _ => ?_
    split
    · exact hx hs (by simp [Stmt.stmts])
    · cases no with
      | none => exact .pure trivial
      | some no => exact hx hs (by simp [Stmt.stmts])
  | each head kind name source body =>
    have hround {vs : List Value} (hvs : A.HasAll vs) :=
      Minds.eachItem hvs fun v hv => Minds.eachRound kind (A.visited hself) hs
        (fun inner hinner => hx hinner (p := body) (by simp [Stmt.stmts])) hv
    refine (he hs (e := source) (by simp [Stmt.exprs])).bind fun v hv => ?_
    cases head with
    | items => exact (Minds.quiet (.itemsIn hv)).bind fun vs hvs => hround hvs
    | keys => exact (Minds.quiet (.keysIn v)).bind fun vs hvs => hround hvs
  | loop init test update body =>
    refine (hinner hs).bind fun inner hinner => ?_
    have hround (goesOn : Bool) :
        A.Minds A.HasEnding (Recording.countedRound (Recording.eval bound ⟨ask, r, calls⟩ inner)
          (Recording.exec bound ⟨ask, r, calls⟩ inner) update body goesOn) :=
      .countedRound (fun e hmem => he hinner (by simp_all [Stmt.exprs]))
        (hx hinner (by simp [Stmt.stmts])) goesOn
    have hloop (e : Expr) (heq : test = some e) :=
      Minds.repeatedly ((he hinner (e := e) (by simp [Stmt.exprs, heq])).bind
        fun v _ => hround v.truthy) bound
    cases init with
    | none =>
      cases test with
      | none => exact .repeatedly (hround true) bound
      | some test => exact hloop test rfl
    | some init =>
      refine (hx hinner (p := init) (by simp [Stmt.stmts])).bind fun _ _ => ?_
      cases test with
      | none => exact .repeatedly (hround true) bound
      | some test => exact hloop test rfl
  | repeatWhile test body =>
    refine .repeatedly ((he hs (e := test) (by simp [Stmt.exprs])).bind fun v _ => ?_) bound
    split
    · exact (hx hs (p := body) (by simp [Stmt.stmts])).bind fun flow hflow =>
        .pure hflow.afterRound
    · refine .pure fun flow heq => ?_
      cases heq
      trivial
  | giveBack value =>
    cases value with
    | none => exact .pure trivial
    | some e => exact (he hs (by simp [Stmt.exprs])).bind fun v hv => .pure hv
  | raise e =>
    exact (he hs (e := e) (by simp [Stmt.exprs])).bind fun v _ =>
      .look (Realm.Quiet.looks_raisedText v) fun _ => .fail _
  | within object guarded body =>
    refine (he hs (e := object) (by simp [Stmt.exprs])).bind fun v hv => ?_
    exact (hinner (List.forall_mem_cons.mpr ⟨hv.openedLink guarded, hs⟩)).bind fun inner hinner =>
      .inOrder fun _ hmem => hx hinner hmem

theorem Everything.call_succ (hask : A.Serves ask) (r calls : Nat) {f : Value} {args : List Value}
    (hf : A.Has f) (hargs : A.HasAll args) :
    A.Minds A.Has (Recording.callValue (bound + 1) ⟨ask, r, calls⟩ f args) := by
  cases f with
  | native name code identity =>
    cases calls with
    | zero => exact .fail _
    | succ calls =>
      cases code with
      | builtin b => exact .quiet (.builtin b hargs)
      | service s => exact .quiet (hask s args identity name hf hargs)
  | closure own site params body scope =>
    cases calls with
    | zero => exact .fail _
    | succ calls =>
      obtain ⟨hwritten, hs⟩ := hf
      refine (Minds.lift (.withFrame hs)).bind fun inner hinner => ?_
      refine (Minds.lift (.bindParams (A.params (Expr.every_self hwritten)) hargs)).bind
        fun _ _ => ?_
      simp only [Realm.Admits, Expr.every, Bool.and_eq_true] at hwritten
      cases body with
      | expr e => exact h.eval own calls hinner hwritten.2
      | block stmts =>
        refine (Minds.inOrder fun s hmem => h.exec own calls hinner ?_).bind
          fun flow hflow => .pure hflow.result
        exact (stmtsEvery_iff stmts).mp hwritten.2 s hmem
  | undefined | null | bool | number | text | array | object =>
    exact .look (.textOf _) fun _ => .fail _

end Layers

/-- All recording runs that ask for what keeps the realm keep the account. -/
theorem everything {ask : Service → List Value → Run Value} (hask : A.Serves ask) (bound : Nat) :
    A.Everything ask bound := by
  induction bound with
  | zero =>
    exact ⟨fun _ _ _ _ _ _ => .endless, fun _ _ _ _ _ _ => .endless,
      fun _ _ _ _ _ _ => .endless⟩
  | succ bound ih => exact ⟨ih.eval_succ, ih.exec_succ, ih.call_succ hask⟩

end Account

end Stencil.Routine
