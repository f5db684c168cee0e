import Stencil.Proofs.Alike
import Stencil.Proofs.Assignment
import Stencil.Proofs.Functions.Sites
import Stencil.Proofs.QuietSteps

/-!
# What runs leave true of a variable

A run changes a variable by assigning to it, or by declaring its name again in the very frame that
has it.  What assignments leave true of a variable is therefore true behind every expression and
every call, since these declare names in frames of their own only, and behind every statement that
does not declare the name in the frame of the variable.

* `Pin` — a name in a frame, and what is known of the variable and stays true when it is assigned
  to;
* `Stmt.declares` — the names that a statement declares in the innermost frame of its scope;
* `Run.leaves`, `Pin.Survives` — steps behind which it is still true, also if they fail;
* `Pin.Everything`, `Pin.everything` — expressions, statements and calls;
* `Pin.Survives.programRun` — a whole routine.
-/

namespace Stencil.Routine

/-! ### Pinned variables -/

/-- A name in a frame, and something that is true of what is there under the name. -/
structure Pin where
  /-- The frame. -/
  place : Nat
  /-- The name. -/
  name : String
  /-- What is true of the variable, or of there being none. -/
  holds : Option Binding → Prop
  /-- Giving the variable another value, where that can be done, leaves that true. -/
  assigned : ∀ b v, holds (some b) → b.changeable = true → holds (some ⟨v, true⟩)

namespace Pin

variable {p : Pin} {g h : Heap}

/-- The slot of the variable. -/
def slot (p : Pin) : Slot := .inFrame p.place p.name

/-- The frame is there, and what is known of the variable is true. -/
structure Keeps (p : Pin) (h : Heap) : Prop where
  lt : p.place < h.frames.size
  holds : p.holds (h.slot? p.slot)

/-- In the scope, none of the names is declared in the place of the variable. -/
def Free (p : Pin) (scope : Scope) (names : List String) : Prop :=
  scope.head? = some (.locals p.place) → p.name ∉ names

theorem Free.of_ne {place : Nat} (h : place ≠ p.place) (scope : Scope) (names : List String) :
    p.Free (.locals place :: scope) names := by
  rintro ⟨⟩
  exact absurd rfl h

theorem Free.subset {scope : Scope} {names names' : List String} (h : p.Free scope names)
    (hsub : names' ⊆ names) : p.Free scope names' :=
  fun hhead hmem => h hhead (hsub hmem)

namespace Keeps

/-- Nothing is lost where the frame is there and the variable is as before. -/
theorem of_slot? (hg : p.Keeps g) (hsize : g.frames.size ≤ h.frames.size)
    (hslot : h.slot? p.slot = g.slot? p.slot) : p.Keeps h :=
  ⟨hg.lt.trans_le hsize, hslot ▸ hg.holds⟩

theorem of_frames (hg : p.Keeps g) (heq : h.frames = g.frames) : p.Keeps h :=
  hg.of_slot? (by rw [heq])
    (by rw [slot, Heap.slot?, Heap.slot?, Heap.frame, Heap.frame, heq])

theorem newFrame (hg : p.Keeps g) : p.Keeps g.newFrame.2 :=
  hg.of_slot? (by rw [Heap.size_newFrame]; exact Nat.le_succ _)
    (by rw [slot, Heap.slot?, Heap.slot?, Heap.frame_newFrame, if_neg (Nat.ne_of_lt hg.lt)])

/-- Another variable may become anything. -/
theorem setLocal (hg : p.Keeps g) {place : Nat} {name : String}
    (hne : place = p.place → name ≠ p.name) (b : Binding) :
    p.Keeps (g.setLocal place name b) := by
  refine hg.of_slot? (Heap.size_setLocal g place name b).ge ?_
  rcases Heap.frame_setLocal_cases g place p.place name b with heq | ⟨rfl, heq⟩
  · rw [slot, Heap.slot?, Heap.slot?, heq]
  · rw [slot, Heap.slot?, Heap.slot?, heq, Roster.get?_insert, if_neg (hne rfl)]

theorem declare (hg : p.Keeps g) {scope : Scope} {name : String} (hfree : p.Free scope [name])
    (b : Binding) : p.Keeps (g.declare scope name b) := by
  unfold Heap.declare
  split
  · refine hg.setLocal (fun hplace hname => ?_) b
    exact hfree (hplace ▸ rfl) (List.mem_singleton.mpr hname.symm)
  · exact hg

/-- An assignment gives the variable another value only where that leaves true what is known. -/
theorem assign (hg : p.Keeps g) (name : String) (v : Value) (scope : Scope) :
    p.Keeps (g.assign name v scope).2 := by
  by_cases hname : ∃ slot, g.Innermost name scope slot
  · obtain ⟨slot, hslot⟩ := hname
    obtain ⟨b, hb⟩ := hslot.exists_slot?
    rw [Heap.assign_of_innermost hslot hb]
    split
    · rename_i hchangeable
      have hchanges := Heap.changesOnly_putSlot (v := v) hb
      by_cases hslot' : p.slot = slot
      · refine ⟨hg.lt.trans_eq hchanges.frames_size.symm, ?_⟩
        have hholds := hg.holds
        rw [hslot'] at hholds ⊢
        rw [hchanges.value]
        exact p.assigned b v (hb ▸ hholds) hchangeable
      · exact hg.of_slot? hchanges.frames_size.ge (hchanges.others _ hslot')
    · exact hg
  · rw [Heap.assign_of_forall_not fun slot hslot => hname ⟨slot, hslot⟩]
    exact hg

end Keeps

end Pin

/-! ### Steps -/

namespace Run

variable {α : Type} {m : Run α} {s t : Store}

/-- The store that steps leave behind, whether they fail or not. -/
def leaves (m : Run α) (s : Store) : Store :=
  match m s with
  | .ok _ t => t
  | .error _ t => t

theorem leaves_ok {a : α} (h : m s = .ok a t) : leaves m s = t := by
  rw [leaves, h]

theorem leaves_error {halt : Halt} (h : m s = .error halt t) : leaves m s = t := by
  rw [leaves, h]

end Run

/-- A realm in which everything lies. -/
def Realm.whole : Realm where
  arrays _ := True
  objects _ := True
  frames _ := True
  natives _ _ _ := True
  exprs _ := Expr.listed fun _ => true
  stmts _ _ := true

namespace Realm

theorem hasLink_whole (l : Link) : whole.HasLink l := by
  match l with
  | .locals _ => trivial
  | .members (some _) _ => trivial
  | .members none _ => trivial

theorem has_whole (v : Value) : whole.Has v := by
  cases v with
  | closure r site params body scope =>
    refine ⟨?_, fun l _ => hasLink_whole l⟩
    show Expr.every (Expr.listed fun _ => true) (fun _ => true) _ = true
    rw [Expr.every_listed, List.all_eq_true]
    exact fun _ _ => rfl
  | undefined | null | bool | number | text | array | object | native => trivial

theorem hasAll_whole (vs : List Value) : whole.HasAll vs := fun v _ => has_whole v

theorem keeps_whole (h : Heap) : whole.Keeps h :=
  ⟨fun _ _ => trivial, fun _ _ => trivial, fun _ _ => trivial, fun _ _ v _ => has_whole v,
    fun _ _ e _ => has_whole e.2, fun _ _ b _ => has_whole b.2.value⟩

end Realm

namespace Pin

variable {p : Pin}

/-- Behind the steps, what is known of the variable is still true. -/
def Survives (p : Pin) {α : Type} (m : Run α) : Prop :=
  ∀ s, p.Keeps s.heap → p.Keeps (Run.leaves m s).heap

namespace Survives

variable {α β : Type} {m : Run α} {f : α → Run β}

/-- Steps that change no variable. -/
theorem quiet {P : α → Prop} (h : Realm.whole.Quiet P m) : p.Survives m := by
  intro s hs
  have hkeeps := Realm.keeps_whole s.heap
  cases hm : m s with
  | ok a t =>
    rw [Run.leaves_ok hm]
    exact hs.of_frames (h.ok hkeeps hm).1.leads.aside.frames
  | error halt t =>
    rw [Run.leaves_error hm]
    exact hs.of_frames (h.halted hkeeps hm).leads.aside.frames

theorem pure (a : α) : p.Survives (Pure.pure a : Run α) := quiet (.pure (P := fun _ => True) trivial)

theorem fail (e : Failure) : p.Survives (Run.fail e : Run α) :=
  quiet (.fail (P := fun _ => True) e)

theorem endless : p.Survives (Run.endless : Run α) := quiet (.endless (P := fun _ => True))

theorem looks (h : Looks m) : p.Survives m := quiet (.looks h)

theorem bind (hm : p.Survives m) (hf : ∀ a, p.Survives (f a)) : p.Survives (m >>= f) := by
  intro s hs
  have hfirst := hm s hs
  cases ha : m s with
  | ok a t =>
    rw [Run.leaves_ok ha] at hfirst
    rw [Run.leaves, run_bind_ok ha]
    exact hf a t hfirst
  | error halt t =>
    rw [Run.leaves_error ha] at hfirst
    rw [Run.leaves, run_bind_error ha]
    exact hfirst

theorem mapM {f : α → Run β} {as : List α} (h : ∀ a ∈ as, p.Survives (f a)) :
    p.Survives (as.mapM f) := by
  induction as with
  | nil => exact pure []
  | cons a as ih =>
    obtain ⟨ha, has⟩ := List.forall_mem_cons.mp h
    rw [List.mapM_cons]
    exact ha.bind fun b => (ih has).bind fun bs => pure (b :: bs)

theorem forM {f : α → Run PUnit} {as : List α} (h : ∀ a ∈ as, p.Survives (f a)) :
    p.Survives (as.forM f) := by
  induction as with
  | nil => exact pure _
  | cons a as ih =>
    obtain ⟨ha, has⟩ := List.forall_mem_cons.mp h
    exact ha.bind fun _ => ih has

/-! ### Statements in a row and loops -/

theorem inOrder {run : Stmt → Run Flow} {ss : List Stmt} (h : ∀ s ∈ ss, p.Survives (run s)) :
    p.Survives (inOrder run ss) := by
  induction ss with
  | nil => exact pure _
  | cons s ss ih =>
    obtain ⟨hs, hss⟩ := List.forall_mem_cons.mp h
    refine hs.bind fun flow => ?_
    cases flow with
    | onward => exact ih hss
    | leave | skip | giveBack => exact pure _

theorem eachItem {round : Value → Run Flow} (h : ∀ v, p.Survives (round v)) (vs : List Value) :
    p.Survives (eachItem round vs) := by
  induction vs with
  | nil => exact pure _
  | cons v vs ih =>
    refine (h v).bind fun flow => ?_
    cases flow.afterRound with
    | none => exact ih
    | some flow => exact pure flow

theorem repeatedly {round : Run (Option Flow)} (h : p.Survives round) (bound : Nat) :
    p.Survives (repeatedly round bound) := by
  induction bound with
  | zero => exact endless
  | succ bound ih =>
    refine h.bind fun flow => ?_
    cases flow with
    | none => exact ih
    | some flow => exact pure flow

/-! ### Variables and names -/

/-- What follows the making of a frame goes on in a scope whose innermost frame is another one than
that of the variable. -/
theorem withFrame {f : Scope → Run β} (scope : Scope)
    (h : ∀ place, place ≠ p.place → p.Survives (f (.locals place :: scope))) :
    p.Survives (withFrame scope >>= f) := by
  intro s hs
  exact h s.heap.frames.size (Nat.ne_of_gt hs.lt) { s with heap := s.heap.newFrame.2 } hs.newFrame

theorem declareName {scope : Scope} {name : String} (h : p.Free scope [name]) (v : Value)
    (changeable : Bool) : p.Survives (declareName scope name v changeable) :=
  fun _ hs => hs.declare h _

theorem bindParams {scope : Scope} {params : List String} (h : p.Free scope params)
    (args : List Value) : p.Survives (bindParams scope params args) := by
  induction params generalizing args with
  | nil => exact pure _
  | cons name params ih =>
    have hfirst : p.Free scope [name] := h.subset (by simp)
    have hrest : p.Free scope params := h.subset (List.subset_cons_self name params)
    cases args with
    | nil => exact (declareName hfirst _ _).bind fun _ => ih hrest []
    | cons v vs => exact (declareName hfirst v _).bind fun _ => ih hrest vs

/-- An act on the heap that leaves true what is known. -/
theorem make {act : Heap → α × Heap} (h : ∀ g, p.Keeps g → p.Keeps (act g).2) :
    p.Survives (Run.make act) :=
  fun s hs => h s.heap hs

theorem attempt {act : Heap → Except Failure α × Heap} (h : ∀ g, p.Keeps g → p.Keeps (act g).2) :
    p.Survives (Run.attempt act) := by
  refine (make h).bind fun answer => ?_
  cases answer with
  | ok a => exact pure a
  | error e => exact fail e

theorem assignName (scope : Scope) (name : String) (v : Value) :
    p.Survives (assignName scope name v) :=
  attempt fun _ hg => hg.assign name v scope

theorem global {name : String} {act : Heap → Value × Heap} (h : global? name = some act) :
    p.Survives (Run.make act) := by
  unfold global? at h
  split at h <;> cases h
  all_goals exact make fun _ hg => hg.of_frames rfl

theorem valueOf (scope : Scope) (name : String) : p.Survives (valueOf scope name) := by
  refine (looks .heap).bind fun h => ?_
  cases h.find? name scope with
  | some v => exact pure v
  | none =>
    dsimp only
    split
    · exact fail _
    · cases hglobal : global? name with
      | none => exact fail _
      | some act => exact global hglobal

/-! ### Methods, given how functions are called -/

section Items

variable {test : Value × Nat → Run Value} (htest : ∀ item, p.Survives (test item))
include htest

theorem firstWhere (wanted : Bool) (items : List (Value × Nat)) :
    p.Survives (firstWhere test wanted items) := by
  induction items with
  | nil => exact pure none
  | cons item items ih =>
    refine (htest item).bind fun v => ?_
    split
    · exact pure _
    · exact ih

theorem itemsWhere (items : List (Value × Nat)) : p.Survives (itemsWhere test items) := by
  induction items with
  | nil => exact pure []
  | cons item items ih =>
    refine (htest item).bind fun v => ?_
    split
    · exact ih.bind fun vs => pure _
    · exact ih

end Items

section Calls

variable {call : Caller} (hcall : ∀ f args, p.Survives (call f args))
include hcall

theorem carry (f : Value) (array : Nat) (result : Value) (items : List (Value × Nat)) :
    p.Survives (carry call f array result items) := by
  induction items generalizing result with
  | nil => exact pure result
  | cons item items ih => exact (hcall f _).bind fun v => ih v

theorem arrayMethod (m : ArrayMethod) (array : Nat) (args : List Value) :
    p.Survives (m.apply call array args) := by
  have hitems : p.Survives (itemsAt array) := quiet (.itemsAt trivial)
  have hvisit (item : Value × Nat) : p.Survives (visit call (argument args 0) array item) :=
    hcall _ _
  have hnew (vs : List Value) : p.Survives (Run.newArray vs.toArray) :=
    quiet (.newArray (Realm.hasAll_whole vs))
  cases hm : m.callsFunctions with
  | false => exact quiet (.arrayMethod call hm trivial (Realm.hasAll_whole args))
  | true =>
    cases m with
    | forEach =>
      exact hitems.bind fun vs => (forM fun item _ => (hvisit item).bind fun _ => pure _).bind
        fun _ => pure _
    | map => exact hitems.bind fun vs => (mapM fun item _ => hvisit item).bind hnew
    | filter => exact hitems.bind fun vs => (itemsWhere hvisit _).bind hnew
    | find =>
      refine hitems.bind fun vs => (firstWhere hvisit true _).bind fun found => ?_
      cases found <;> exact pure _
    | findIndex =>
      refine hitems.bind fun vs => (firstWhere hvisit true _).bind fun found => ?_
      cases found <;> exact pure _
    | anyOf | allOf => exact hitems.bind fun vs => (firstWhere hvisit _ _).bind fun _ => pure _
    | reduce =>
      refine hitems.bind fun vs => ?_
      dsimp only
      split
      · exact carry hcall _ _ _ _
      · split
        · exact fail _
        · exact carry hcall _ _ _ _
    | join | includes | indexOf | push | pop | slice | reverse | concat | text => cases hm

theorem callMethod (receiver : Value) (name : String) (args : List Value) :
    p.Survives (callMethod call receiver name args) := by
  cases receiver with
  | object place =>
    refine (looks .heap).bind fun h => ?_
    cases (h.members place).get? name with
    | none => exact fail _
    | some f =>
      dsimp only
      split
      · exact hcall f args
      · exact fail _
  | array place =>
    simp only [Routine.callMethod]
    cases ArrayMethod.ofName? name with
    | none => exact fail _
    | some m => exact arrayMethod hcall m place args
  | undefined | null | bool | number | text | native | closure =>
    exact quiet (.callMethod call (by simp) (by simp) name args)

end Calls

/-! ### Targets, and rounds of loops -/

theorem assignTo {evaluate : Expr → Run Value} (h : ∀ e, p.Survives (evaluate e)) (scope : Scope)
    (target : Expr) (v : Value) : p.Survives (assignTo evaluate scope target v) := by
  have hput (object : Value) (key : String) : p.Survives (putProperty object key v) :=
    quiet (.putProperty (Realm.has_whole object) key (Realm.has_whole v))
  cases target with
  | name s => exact assignName scope s v
  | member object property optional => exact (h object).bind fun object => hput object property
  | index object key optional =>
    exact (h object).bind fun object => (h key).bind fun key =>
      quiet (.putItem (Realm.has_whole object) key (Realm.has_whole v))
  | _ => exact fail _

/-- Steps that stop at a missing value in front of them, if they may. -/
theorem optionally {m : Run Value} (h : p.Survives m) (optional : Bool) (v : Value) :
    p.Survives (if optional && v.isNullish then Pure.pure .undefined else m) := by
  split
  · exact pure _
  · exact h

theorem eachRound {run : Scope → Run Flow}
    (h : ∀ place, place ≠ p.place → ∀ scope, p.Survives (run (.locals place :: scope)))
    (kind : Option DeclKind) (name : String) (scope : Scope) (v : Value) :
    p.Survives (eachRound kind name scope run v) := by
  refine withFrame scope fun place hplace => ?_
  cases kind with
  | none => exact (assignName _ name v).bind fun _ => h place hplace scope
  | some kind =>
    exact (declareName (.of_ne hplace scope _) v _).bind fun _ => h place hplace scope

theorem countedRound {evaluate : Expr → Run Value} {run : Stmt → Run Flow} {body : Stmt}
    (he : ∀ e, p.Survives (evaluate e)) (hs : p.Survives (run body)) (update : Option Expr)
    (goesOn : Bool) : p.Survives (countedRound evaluate run update body goesOn) := by
  cases goesOn with
  | false => exact pure _
  | true =>
    refine hs.bind fun flow => ?_
    cases flow.afterRound with
    | some flow => exact pure _
    | none =>
      cases update with
      | none => exact pure _
      | some update => exact (he update).bind fun _ => pure _

end Survives

/-! ### Layers of evaluation -/

end Pin

/-- The names that a statement declares in the innermost frame of its scope.  Statements that go on
in a frame of their own declare the names in them there. -/
def Stmt.declares : Stmt → List String
  | .declare _ bindings => bindings.map Prod.fst
  | .branch _ yes none => yes.declares
  | .branch _ yes (some no) => yes.declares ++ no.declares
  | .repeatWhile _ body => body.declares
  | _ => []

namespace Pin

variable {p : Pin}

/-- All expressions and calls leave true what is known of the variable, and so do statements that do
not declare its name in its frame, below a bound. -/
structure Everything (p : Pin) (ask : Service → List Value → Run Value) (bound : Nat) : Prop where
  eval (r calls : Nat) (scope : Scope) (e : Expr) : p.Survives (eval bound ⟨ask, r, calls⟩ scope e)
  exec (r calls : Nat) {scope : Scope} {s : Stmt} (hs : p.Free scope s.declares) :
    p.Survives (exec bound ⟨ask, r, calls⟩ scope s)
  call (r calls : Nat) (f : Value) (args : List Value) :
    p.Survives (callValue bound ⟨ask, r, calls⟩ f args)

section Layers

variable {ask : Service → List Value → Run Value} {bound : Nat} (h : p.Everything ask bound)
include h

theorem Everything.eval_succ (r calls : Nat) (scope : Scope) (e : Expr) :
    p.Survives (Routine.eval (bound + 1) ⟨ask, r, calls⟩ scope e) := by
  have he := h.eval r calls scope
  have hargs (args : List Expr) :
      p.Survives (args.mapM (Routine.eval bound ⟨ask, r, calls⟩ scope)) :=
    .mapM fun e _ => he e
  have hcall := h.call r calls
  have htarget := Survives.assignTo he scope
  cases e with
  | number | text | bool | null | undefined | arrow => exact .pure _
  | name s => exact .valueOf scope s
  | array items => exact (hargs items).bind fun vs => .quiet (.newArray (Realm.hasAll_whole vs))
  | object members =>
    refine (Survives.mapM fun member _ => ?_).bind fun vs =>
      .quiet (.newObject fun e _ => Realm.has_whole e.2)
    exact (he member.2).bind fun _ => .pure _
  | member object property optional =>
    exact (he object).bind fun v =>
      .optionally (.quiet (.getProperty (Realm.has_whole v) property)) optional v
  | index object key optional =>
    exact (he object).bind fun v => .optionally
      ((he key).bind fun key => .quiet (.getItem (Realm.has_whole v) key)) optional v
  | call callee args optional =>
    cases callee with
    | member object property optional' =>
      exact (he object).bind fun v => .optionally
        ((hargs args).bind fun vs => .callMethod hcall v property vs) optional' v
    | index object key optional' =>
      exact (he object).bind fun v => .optionally
        ((he key).bind fun key => (Survives.looks (.textOf key)).bind fun property =>
          (hargs args).bind fun vs => .callMethod hcall v property vs) optional' v
    | _ =>
      exact (he _).bind fun f => .optionally ((hargs args).bind fun vs => hcall f vs) optional f
  | unary op operand => exact (he operand).bind fun v => .quiet (.unary op v)
  | binary op left right =>
    exact (he left).bind fun a => (he right).bind fun b => .quiet (.binary op a b)
  | logical op left right =>
    refine (he left).bind fun v => ?_
    split
    · exact .pure v
    · exact he right
  | conditional test yes no =>
    refine (he test).bind fun v => ?_
    split
    · exact he yes
    · exact he no
  | assign op target value =>
    cases op with
    | some op =>
      exact (he target).bind fun old => (he value).bind fun operand =>
        (Survives.looks .heap).bind fun g => (Survives.looks (.finite _)).bind fun v =>
          (htarget target v).bind fun _ => .pure v
    | none => exact (he value).bind fun v => (htarget target v).bind fun _ => .pure v
  | update up leading target =>
    exact (he target).bind fun v => (Survives.looks (.numberOf v)).bind fun old =>
      (htarget target _).bind fun _ => .pure _

theorem Everything.exec_succ (r calls : Nat) {scope : Scope} {s : Stmt}
    (hs : p.Free scope s.declares) :
    p.Survives (Routine.exec (bound + 1) ⟨ask, r, calls⟩ scope s) := by
  have he := h.eval r calls
  -- In a frame of its own, a statement may declare any name.
  have hinner {place : Nat} (hplace : place ≠ p.place) (scope : Scope) (s : Stmt) :
      p.Survives (Routine.exec bound ⟨ask, r, calls⟩ (.locals place :: scope) s) :=
    h.exec r calls (.of_ne hplace scope _)
  cases s with
  | empty | leave | skip => exact .pure _
  | expr e => exact (he scope e).bind fun _ => .pure _
  | declare kind bindings =>
    refine (Survives.forM fun b hb => ?_).bind fun _ => .pure _
    have hname : p.Free scope [b.1] :=
      hs.subset (List.cons_subset.mpr ⟨List.mem_map_of_mem hb, List.nil_subset _⟩)
    obtain ⟨name, value⟩ := b
    cases value with
    | none => exact .declareName hname _ _
    | some e => exact (he scope e).bind fun v => .declareName hname v _
  | block stmts =>
    exact .withFrame scope fun place hplace => .inOrder fun s _ => hinner hplace scope s
  | branch test yes no =>
    refine (he scope test).bind fun v => ?_
    cases no with
    | none =>
      split
      · exact h.exec r calls hs
      · exact .pure _
    | some no =>
      split
      · exact h.exec r calls (hs.subset (List.subset_append_left _ _))
      · exact h.exec r calls (hs.subset (List.subset_append_right _ _))
  | each head kind name source body =>
    have hround (v : Value) : p.Survives (eachRound kind name scope
        (fun scope => Routine.exec bound ⟨ask, r, calls⟩ scope body) v) :=
      .eachRound (fun place hplace scope => hinner hplace scope body) kind name scope v
    refine (he scope source).bind fun v => ?_
    cases head with
    | items =>
      exact (Survives.quiet (.itemsIn (Realm.has_whole v))).bind fun vs => .eachItem hround vs
    | keys => exact (Survives.quiet (.keysIn v)).bind fun vs => .eachItem hround vs
  | loop init test update body =>
    refine .withFrame scope fun place hplace => ?_
    have hround (goesOn : Bool) := Survives.countedRound (he (.locals place :: scope))
      (hinner hplace scope body) update goesOn
    have hrounds : p.Survives (repeatedly
        (testedRound (Routine.eval bound ⟨ask, r, calls⟩ (.locals place :: scope))
          (Routine.exec bound ⟨ask, r, calls⟩ (.locals place :: scope)) test update body)
        bound) := by
      refine .repeatedly ?_ bound
      cases test with
      | none => exact hround true
      | some test => exact (he _ test).bind fun v => hround v.truthy
    cases init with
    | none => exact hrounds
    | some init => exact (hinner hplace scope init).bind fun _ => hrounds
  | repeatWhile test body =>
    refine .repeatedly ((he scope test).bind fun v => ?_) bound
    split
    · exact (h.exec r calls (s := body) hs).bind fun _ => .pure _
    · exact .pure _
  | giveBack value =>
    cases value with
    | none => exact .pure _
    | some e => exact (he scope e).bind fun _ => .pure _
  | raise e =>
    exact (he scope e).bind fun v => (Survives.looks (Realm.Quiet.looks_raisedText v)).bind
      fun _ => .fail _
  | within object guarded body =>
    exact (he scope object).bind fun v => .withFrame _ fun place hplace =>
      .inOrder fun s _ => hinner hplace _ s

theorem Everything.call_succ (hask : ∀ service args, p.Survives (ask service args)) (r calls : Nat)
    (f : Value) (args : List Value) : p.Survives (callValue (bound + 1) ⟨ask, r, calls⟩ f args) := by
  cases f with
  | native name code identity =>
    cases calls with
    | zero => exact .fail _
    | succ calls =>
      cases code with
      | builtin b => exact .quiet (.builtin b (Realm.hasAll_whole args))
      | service s => exact hask s args
  | closure own site params body scope =>
    cases calls with
    | zero => exact .fail _
    | succ calls =>
      refine .withFrame scope fun place hplace =>
        (Survives.bindParams (.of_ne hplace scope _) args).bind fun _ => ?_
      cases body with
      | expr e => exact h.eval own calls _ e
      | block stmts =>
        exact (Survives.inOrder fun s _ => h.exec own calls (.of_ne hplace scope _)).bind
          fun _ => .pure _
  | undefined | null | bool | number | text | array | object =>
    exact (Survives.looks (.textOf _)).bind fun _ => .fail _

end Layers

/-- **What is known of a variable survives** all expressions and calls, and all statements that do
not declare its name in its frame, if it survives what is asked for. -/
theorem everything {ask : Service → List Value → Run Value}
    (hask : ∀ service args, p.Survives (ask service args)) (bound : Nat) :
    p.Everything ask bound := by
  induction bound with
  | zero => exact ⟨fun _ _ _ _ => .endless, fun _ _ _ _ _ => .endless, fun _ _ _ _ => .endless⟩
  | succ bound ih => exact ⟨ih.eval_succ, ih.exec_succ, ih.call_succ hask⟩

/-- A routine begins in a frame of its own. -/
theorem Survives.programRun {ask : Service → List Value → Run Value}
    (hask : ∀ service args, p.Survives (ask service args)) (program : Program)
    (bound r calls : Nat) (args : List Value) :
    p.Survives (program.run bound ⟨ask, r, calls⟩ args) := by
  refine .withFrame [] fun outer houter =>
    (Survives.bindParams (.of_ne houter [] _) args).bind fun _ =>
      .withFrame _ fun inner hinner => ?_
  exact (Survives.inOrder fun s _ => (everything hask bound).exec r calls
    (.of_ne hinner _ _)).bind fun _ => .pure _

end Pin

end Stencil.Routine
