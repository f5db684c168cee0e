import Mathlib.Data.List.Forall2
import Mathlib.Order.Filter.AtTopBot.Basic
import Stencil.Proofs.Names
import Stencil.Routine.Evaluate

/-!
# Likenesses

Two runs of the same statements often do the same without being equal: their scopes differ in a
mark, or their heaps keep the same things at other places.  A likeness says what is taken as the
same in two heaps, and its laws say that the operations on heaps respect that.  From the laws it
follows once and for all that the steps of a run, and so whole runs, respect it.

What is taken as the same may grow while the runs go on, so everything is said at a stage.

* `Kinship` — what is taken as the same; `Kinship.Sees` extends it to scopes in which some names are
  looked up, and `Kinship.Values` to values;
* `Likeness`, `Likeness.Lawful` — heaps that hold the same, and that the operations on them respect
  it;
* `Likeness.Outcome` — two runs come to the same;
* `Likeness.Settles` — two families of runs, indexed by their bounds, come to the same as soon as
  the bounds are large, and what they come to does not depend on the bounds any more.  With one
  index this is a statement about two single runs.
-/

namespace Stencil.Routine

open Filter

theorem run_attempt_error {α : Type} {act : Heap → Except Failure α × Heap} {store : Store}
    {heap : Heap} {f : Failure} (h : act store.heap = (.error f, heap)) :
    Run.attempt act store = .error (.failed f) { store with heap := heap } := by
  have hmake : Run.make act store
      = .ok (act store.heap).1 { store with heap := (act store.heap).2 } := rfl
  rw [h] at hmake
  exact (run_bind_ok hmake).trans rfl

/-- What is taken as the same on the left and on the right, at each stage of two runs.  It stays so
at later stages, and one thing is never taken as the same as two. -/
structure Kinship where
  /-- How far the two runs have come. -/
  Stage : Type
  /-- Which stages come later. -/
  [order : Preorder Stage]
  /-- Places of arrays that hold the same. -/
  array : Stage → Nat → Nat → Prop
  /-- Places of objects that hold the same. -/
  object : Stage → Nat → Nat → Prop
  /-- Links of scopes that show the same. -/
  link : Stage → Link → Link → Prop
  /-- Acts that made native functions. -/
  native : Stage → Nat → Nat → Prop
  /-- Routines in which functions are written. -/
  routine : Stage → Nat → Nat → Prop
  /-- Whether functions may have free loops. -/
  loops : Prop
  /-- Whether scopes that consist of such links, the left one being this one, show the same under
  these names. -/
  shows : Stage → List String → Scope → Prop := fun _ _ _ => True
  array_mono {w w' : Stage} {p p' : Nat} : w ≤ w' → array w p p' → array w' p p'
  object_mono {w w' : Stage} {p p' : Nat} : w ≤ w' → object w p p' → object w' p p'
  link_mono {w w' : Stage} {l l' : Link} : w ≤ w' → link w l l' → link w' l l'
  native_mono {w w' : Stage} {i i' : Nat} : w ≤ w' → native w i i' → native w' i i'
  routine_mono {w w' : Stage} {r r' : Nat} : w ≤ w' → routine w r r' → routine w' r r'
  array_iff {w : Stage} {p p' q q' : Nat} : array w p p' → array w q q' → (p = q ↔ p' = q')
  object_iff {w : Stage} {p p' q q' : Nat} : object w p p' → object w q q' → (p = q ↔ p' = q')
  native_iff {w : Stage} {i i' j j' : Nat} : native w i i' → native w j j' → (i = j ↔ i' = j')
  routine_iff {w : Stage} {r r' t t' : Nat} :
    routine w r r' → routine w t t' → (r = t ↔ r' = t')
  shows_mono {w w' : Stage} {names : List String} {scope scope' : Scope} : w ≤ w' →
    List.Forall₂ (link w) scope scope' → shows w names scope → shows w' names scope := by
    intros; trivial
  shows_subset {w : Stage} {names names' : List String} {scope : Scope} : names ⊆ names' →
    shows w names' scope → shows w names scope := by
    intros; trivial

namespace Kinship

variable (K : Kinship) {α : Type}

instance : Preorder K.Stage := K.order

/-- Whether a body may occur among the functions of the runs. -/
def Fine (body : Body) : Prop := K.loops ∨ body.isLoopFree = true

/-- Scopes whose links are taken as the same, one by one. -/
def Scopes (w : K.Stage) : Scope → Scope → Prop := List.Forall₂ (K.link w)

/-- Scopes that show the same under these names. -/
structure Sees (w : K.Stage) (names : List String) (scope scope' : Scope) : Prop where
  scopes : K.Scopes w scope scope'
  shows : K.shows w names scope

/-- Values that are taken as the same. -/
inductive Values (w : K.Stage) : Value → Value → Prop where
  | undefined : Values w .undefined .undefined
  | null : Values w .null .null
  | bool (b : Bool) : Values w (.bool b) (.bool b)
  | number (x : Float) : Values w (.number x) (.number x)
  | text (s : String) : Values w (.text s) (.text s)
  | array {p p' : Nat} (h : K.array w p p') : Values w (.array p) (.array p')
  | object {p p' : Nat} (h : K.object w p p') : Values w (.object p) (.object p')
  | native (name : String) (code : Native) {i i' : Nat} (h : K.native w i i') :
    Values w (.native name code i) (.native name code i')
  | closure {r r' : Nat} (site : Nat) (params : List String) {body : Body} {scope scope' : Scope}
    (hr : K.routine w r r') (hb : K.Fine body) (hs : K.Sees w body.names scope scope') :
    Values w (.closure r site params body scope) (.closure r' site params body scope')

/-- Lists of values that are taken as the same, item by item. -/
def Rows (w : K.Stage) : List Value → List Value → Prop := List.Forall₂ (K.Values w)

/-- Named values with the same names in the same order. -/
def Named (w : K.Stage) : List (String × Value) → List (String × Value) → Prop :=
  List.Forall₂ fun a b => a.1 = b.1 ∧ K.Values w a.2 b.2

/-- Ways to end a statement. -/
inductive Flows (w : K.Stage) : Flow → Flow → Prop where
  | onward : Flows w .onward .onward
  | leave : Flows w .leave .leave
  | skip : Flows w .skip .skip
  | giveBack {v v' : Value} (h : K.Values w v v') : Flows w (.giveBack v) (.giveBack v')

/-- Results that do not depend on the heap and are equal on both sides. -/
def Same (_ : K.Stage) (a a' : α) : Prop := a = a'

variable {K} {w w' : K.Stage} (hw : w ≤ w')
include hw

theorem Scopes.mono {scope scope' : Scope} (h : K.Scopes w scope scope') :
    K.Scopes w' scope scope' :=
  h.imp fun _ _ => K.link_mono hw

theorem Sees.mono {names : List String} {scope scope' : Scope} (h : K.Sees w names scope scope') :
    K.Sees w' names scope scope' :=
  ⟨h.scopes.mono hw, K.shows_mono hw h.scopes h.shows⟩

theorem Values.mono {v v' : Value} (h : K.Values w v v') : K.Values w' v v' := by
  cases h with
  | undefined => exact .undefined
  | null => exact .null
  | bool b => exact .bool b
  | number x => exact .number x
  | text s => exact .text s
  | array h => exact .array (K.array_mono hw h)
  | object h => exact .object (K.object_mono hw h)
  | native name code h => exact .native name code (K.native_mono hw h)
  | closure site params hr hb hs =>
    exact .closure site params (K.routine_mono hw hr) hb (hs.mono hw)

theorem Rows.mono {vs vs' : List Value} (h : K.Rows w vs vs') : K.Rows w' vs vs' :=
  h.imp fun _ _ => Values.mono hw

theorem Named.mono {es es' : List (String × Value)} (h : K.Named w es es') : K.Named w' es es' :=
  h.imp fun _ _ he => ⟨he.1, he.2.mono hw⟩

theorem Flows.mono {f f' : Flow} (h : K.Flows w f f') : K.Flows w' f f' := by
  cases h with
  | onward => exact .onward
  | leave => exact .leave
  | skip => exact .skip
  | giveBack h => exact .giveBack (h.mono hw)

omit hw in
theorem Sees.subset {names names' : List String} {scope scope' : Scope}
    (h : K.Sees w names' scope scope') (hsub : names ⊆ names') : K.Sees w names scope scope' :=
  ⟨h.scopes, K.shows_subset hsub h.shows⟩

end Kinship

/-- What is taken as the same in two heaps. -/
structure Likeness extends Kinship where
  /-- Heaps that hold the same at places that are taken as the same. -/
  heaps : Stage → Heap → Heap → Prop
  /-- Stores with such heaps. -/
  stores : Stage → Store → Store → Prop
  /-- Failures on the left that excuse the right run from anything. -/
  excused : Failure → Prop
  /-- Heaps in which a run may stay without an end. -/
  knot : Heap → Prop

namespace Likeness

/-! ### Laws -/

/-- The operations on heaps respect what is taken as the same. -/
class Lawful (L : Likeness) : Prop where
  /-- A guard that is missing on the right is excused. -/
  guard {w : L.Stage} {scope scope' : Scope} : L.Scopes w scope scope' →
    scope.isGuarded = scope'.isGuarded
      ∨ scope.isGuarded = true ∧ ∀ name, L.excused (.undefinedVariable name)
  shows_nil (w : L.Stage) (names : List String) : L.shows w names []
  opened {w : L.Stage} {v v' : Value} (guarded : Bool) :
    L.Values w v v' → L.link w (openedLink v guarded) (openedLink v' guarded)
  shows_opened {w : L.Stage} {v v' : Value} {names : List String} {scope : Scope}
    (guarded : Bool) : L.Values w v v' → L.shows w names scope →
    L.shows w names (openedLink v guarded :: scope)
  heaps_of_stores {w : L.Stage} {s s' : Store} : L.stores w s s' → L.heaps w s.heap s'.heap
  stores_put {w w' : L.Stage} {s s' : Store} {h h' : Heap} : w ≤ w' → L.stores w s s' →
    L.heaps w' h h' → L.stores w' { s with heap := h } { s' with heap := h' }
  items {w : L.Stage} {h h' : Heap} {p p' : Nat} : L.heaps w h h' → L.array w p p' →
    L.Rows w (h.items p).toList (h'.items p').toList
  putItems {w : L.Stage} {h h' : Heap} {p p' : Nat} {xs xs' : Array Value} : L.heaps w h h' →
    L.array w p p' → L.Rows w xs.toList xs'.toList →
    L.heaps w (h.modifyItems p fun _ => xs) (h'.modifyItems p' fun _ => xs')
  newArray {w : L.Stage} {h h' : Heap} {xs xs' : Array Value} : L.heaps w h h' →
    L.Rows w xs.toList xs'.toList →
    ∃ w', w ≤ w' ∧ L.Values w' (h.newArray xs).1 (h'.newArray xs').1
      ∧ L.heaps w' (h.newArray xs).2 (h'.newArray xs').2
  members {w : L.Stage} {h h' : Heap} {p p' : Nat} : L.heaps w h h' → L.object w p p' →
    L.Named w (h.members p).entries (h'.members p').entries
  setMember {w : L.Stage} {h h' : Heap} {p p' : Nat} {v v' : Value} (name : String) :
    L.heaps w h h' → L.object w p p' → L.Values w v v' →
    L.heaps w (h.setMember p name v) (h'.setMember p' name v')
  newObject {w : L.Stage} {h h' : Heap} {ms ms' : Roster Value} : L.heaps w h h' →
    L.Named w ms.entries ms'.entries →
    ∃ w', w ≤ w' ∧ L.Values w' (h.newObject ms).1 (h'.newObject ms').1
      ∧ L.heaps w' (h.newObject ms).2 (h'.newObject ms').2
  newFrame {w : L.Stage} {h h' : Heap} : L.heaps w h h' →
    ∃ w', w ≤ w' ∧ L.link w' h.newFrame.1 h'.newFrame.1 ∧ L.heaps w' h.newFrame.2 h'.newFrame.2
      ∧ ∀ names scope, L.shows w' names scope → L.shows w' names (h.newFrame.1 :: scope)
  newNative {w : L.Stage} {h h' : Heap} (name : String) (code : Native) : L.heaps w h h' →
    ∃ w', w ≤ w' ∧ L.Values w' (h.newNative name code).1 (h'.newNative name code).1
      ∧ L.heaps w' (h.newNative name code).2 (h'.newNative name code).2
  find {w : L.Stage} {h h' : Heap} {names : List String} {scope scope' : Scope} {name : String} :
    L.heaps w h h' → L.Sees w names scope scope' → name ∈ names →
    Option.Rel (L.Values w) (h.find? name scope) (h'.find? name scope')
  assign {w : L.Stage} {h h' : Heap} {names : List String} {scope scope' : Scope} {name : String}
    {v v' : Value} : L.heaps w h h' → L.Sees w names scope scope' → name ∈ names →
    L.Values w v v' → (h.assign name v scope).1 = (h'.assign name v' scope').1
      ∧ L.heaps w (h.assign name v scope).2 (h'.assign name v' scope').2
  declare {w : L.Stage} {h h' : Heap} {scope scope' : Scope} {v v' : Value} (name : String)
    (changeable : Bool) : L.heaps w h h' → L.Scopes w scope scope' → L.Values w v v' →
    L.heaps w (h.declare scope name ⟨v, changeable⟩) (h'.declare scope' name ⟨v', changeable⟩)
  display {w : L.Stage} {h h' : Heap} {v v' : Value} : L.heaps w h h' → L.Values w v v' →
    h.display v = h'.display v' ∧ (h.display v = none → L.knot h)
  toJson {w : L.Stage} {h h' : Heap} {v v' : Value} : L.heaps w h h' → L.Values w v v' →
    h.toJson v = h'.toJson v' ∧ (h.toJson v = none → L.knot h)

variable {L : Likeness} {α β : Type}

/-! ### What two runs come to -/

/-- Two runs come to the same: at some later stage both have results that are taken as the same, or
both fail in the same way, or both stay without an end where that may be. -/
inductive Outcome (L : Likeness) (w : L.Stage) (P : L.Stage → α → α → Prop) :
    EStateM.Result Halt Store α → EStateM.Result Halt Store α → Prop where
  | ok {w' : L.Stage} {a a' : α} {s s' : Store} (later : w ≤ w') (stores : L.stores w' s s')
    (h : P w' a a') : Outcome L w P (.ok a s) (.ok a' s')
  | failed {w' : L.Stage} {s s' : Store} (f : Failure) (later : w ≤ w')
    (stores : L.stores w' s s') : Outcome L w P (.error (.failed f) s) (.error (.failed f) s')
  | endless {w' : L.Stage} {s s' : Store} (later : w ≤ w') (stores : L.stores w' s s')
    (h : L.knot s.heap) : Outcome L w P (.error .endless s) (.error .endless s')

theorem Outcome.imp {w w' : L.Stage} {P Q : L.Stage → α → α → Prop}
    {r r' : EStateM.Result Halt Store α} (hw : w ≤ w')
    (hPQ : ∀ w'', w' ≤ w'' → ∀ a a', P w'' a a' → Q w'' a a') (h : L.Outcome w' P r r') :
    L.Outcome w Q r r' := by
  cases h with
  | ok later stores h => exact .ok (hw.trans later) stores (hPQ _ later _ _ h)
  | failed f later stores => exact .failed f (hw.trans later) stores
  | endless later stores h => exact .endless (hw.trans later) stores h

/-- Runs in a row come to the same if the first ones do, and the second ones on every result of
theirs. -/
theorem Outcome.bind {w : L.Stage} {P : L.Stage → α → α → Prop} {Q : L.Stage → β → β → Prop}
    {m m' : Run α} {f f' : α → Run β} {s s' : Store} (hm : L.Outcome w P (m s) (m' s'))
    (hf : ∀ w', w ≤ w' → ∀ a a' t t', L.stores w' t t' → P w' a a' →
      L.Outcome w' Q (f a t) (f' a' t')) : L.Outcome w Q ((m >>= f) s) ((m' >>= f') s') := by
  generalize hr : m s = r at hm
  generalize hr' : m' s' = r' at hm
  cases hm with
  | ok later stores h =>
    rw [run_bind_ok hr, run_bind_ok hr']
    exact (hf _ later _ _ _ _ stores h).imp later fun _ _ _ _ h => h
  | failed f later stores =>
    rw [run_bind_error hr, run_bind_error hr']
    exact .failed f later stores
  | endless later stores h =>
    rw [run_bind_error hr, run_bind_error hr']
    exact .endless later stores h

variable {ι : Type} {F : Filter ι} {w : L.Stage} {P Q : L.Stage → α → α → Prop}

/-- **Families of runs that settle on the same.**  From stores that are the same at this stage or a
later one, both come to the same for all but the first indices, always to the same one; unless the
left one settles on an excused failure. -/
def Settles (L : Likeness) (F : Filter ι) (w : L.Stage) (P : L.Stage → α → α → Prop)
    (m m' : ι → Run α) : Prop :=
  ∀ w', w ≤ w' → ∀ s s', L.stores w' s s' →
    (∃ f t, L.excused f ∧ ∀ᶠ i in F, m i s = .error (.failed f) t)
      ∨ ∃ r r', (∀ᶠ i in F, m i s = r ∧ m' i s' = r') ∧ L.Outcome w' P r r'

namespace Settles

variable {m m' : ι → Run α}

theorem imp (h : L.Settles F w P m m')
    (hPQ : ∀ w', w ≤ w' → ∀ a a', P w' a a' → Q w' a a') : L.Settles F w Q m m' := by
  intro w₁ hw₁ s s' hs
  rcases h w₁ hw₁ s s' hs with hexcused | ⟨r, r', hr, ho⟩
  · exact .inl hexcused
  · exact .inr ⟨r, r', hr, ho.imp le_rfl fun w₂ hw₂ => hPQ w₂ (hw₁.trans hw₂)⟩

theorem mono {w' : L.Stage} (hw : w ≤ w') (h : L.Settles F w P m m') : L.Settles F w' P m m' :=
  fun w₁ hw₁ => h w₁ (hw.trans hw₁)

/-- Families that agree from some index on settle alike. -/
theorem congr {n n' : ι → Run α} (h : L.Settles F w P m m') (hm : ∀ᶠ i in F, m i = n i)
    (hm' : ∀ᶠ i in F, m' i = n' i) : L.Settles F w P n n' := by
  intro w₁ hw₁ s s' hs
  rcases h w₁ hw₁ s s' hs with ⟨f, t, hf, ht⟩ | ⟨r, r', hr, ho⟩
  · refine .inl ⟨f, t, hf, ?_⟩
    filter_upwards [hm, ht] with i hi ht
    rw [← hi, ht]
  · refine .inr ⟨r, r', ?_, ho⟩
    filter_upwards [hm, hm', hr] with i hi hi' hr
    rw [← hi, ← hi']
    exact hr

/-- Single runs that come to the same. -/
theorem of_outcome {n n' : Run α}
    (h : ∀ w', w ≤ w' → ∀ s s', L.stores w' s s' → L.Outcome w' P (n s) (n' s')) :
    L.Settles F w P (fun _ => n) (fun _ => n') :=
  fun w' hw s s' hs => .inr ⟨_, _, .of_forall fun _ => ⟨rfl, rfl⟩, h w' hw s s' hs⟩

/-- What two single runs come to, where nothing is excused. -/
theorem outcome (hexcused : ∀ f, ¬ L.excused f) {n n' : Run α}
    (h : L.Settles (Pure.pure ()) w P (fun _ : Unit => n) fun _ => n') {s s' : Store}
    (hs : L.stores w s s') : L.Outcome w P (n s) (n' s') := by
  rcases h w le_rfl s s' hs with ⟨f, t, hf, -⟩ | ⟨r, r', hr, ho⟩
  · exact absurd hf (hexcused f)
  · obtain ⟨hr, hr'⟩ : n s = r ∧ n' s' = r' := hr
    rwa [hr, hr']

theorem pure {a a' : α} (h : ∀ w', w ≤ w' → P w' a a') :
    L.Settles F w P (fun _ => Pure.pure a) (fun _ => Pure.pure a') :=
  of_outcome fun w' hw _ _ hs => .ok le_rfl hs (h w' hw)

/-- A result that is the same whatever the heap is. -/
theorem same (a : α) : L.Settles F w L.Same (fun _ => Pure.pure a) (fun _ => Pure.pure a) :=
  pure fun _ _ => rfl

/-- A value that is the same on both sides. -/
theorem value {v v' : Value} (h : L.Values w v v') :
    L.Settles F w L.Values (fun _ => Pure.pure v) (fun _ => Pure.pure v') :=
  pure fun _ hw => h.mono hw

theorem row {vs vs' : List Value} (h : L.Rows w vs vs') :
    L.Settles F w L.Rows (fun _ => Pure.pure vs) (fun _ => Pure.pure vs') :=
  pure fun _ hw => h.mono hw

theorem fail (f : Failure) : L.Settles F w P (fun _ => Run.fail f) (fun _ => Run.fail f) :=
  of_outcome fun _ _ _ _ hs => .failed f le_rfl hs

/-- A failure that excuses the right run. -/
theorem excuse {f : Failure} (h : L.excused f) : L.Settles F w P (fun _ => Run.fail f) m' :=
  fun _ _ s _ _ => .inl ⟨f, s, h, .of_forall fun _ => rfl⟩

/-- Runs without an end, where every heap may keep them so. -/
theorem endless (h : ∀ heap, L.knot heap) :
    L.Settles F w P (fun _ => Run.endless) (fun _ => Run.endless) :=
  of_outcome fun _ _ s _ hs => .endless le_rfl hs (h s.heap)

/-- **Runs in a row settle** if the first ones do, and the second ones on every result of theirs. -/
theorem bind {f f' : ι → α → Run β} {Q : L.Stage → β → β → Prop} (hm : L.Settles F w P m m')
    (hf : ∀ w', w ≤ w' → ∀ a a', P w' a a' →
      L.Settles F w' Q (fun i => f i a) (fun i => f' i a')) :
    L.Settles F w Q (fun i => m i >>= f i) (fun i => m' i >>= f' i) := by
  intro w₁ hw₁ s s' hs
  rcases hm w₁ hw₁ s s' hs with ⟨e, t, he, ht⟩ | ⟨r, r', hr, ho⟩
  · exact .inl ⟨e, t, he, ht.mono fun i hi => run_bind_error hi⟩
  cases ho with
  | @ok w₂ a a' t t' later stores h =>
    rcases hf w₂ (hw₁.trans later) a a' h w₂ le_rfl t t' stores with
      ⟨e, u, he, hu⟩ | ⟨q, q', hq, ho⟩
    · refine .inl ⟨e, u, he, ?_⟩
      filter_upwards [hr, hu] with i hr hu
      exact (run_bind_ok hr.1).trans hu
    · refine .inr ⟨q, q', ?_, ho.imp later fun _ _ _ _ h => h⟩
      filter_upwards [hr, hq] with i hr hq
      exact ⟨(run_bind_ok hr.1).trans hq.1, (run_bind_ok hr.2).trans hq.2⟩
  | failed e later stores =>
    exact .inr ⟨_, _, hr.mono fun i hr => ⟨run_bind_error hr.1, run_bind_error hr.2⟩,
      .failed e later stores⟩
  | endless later stores h =>
    exact .inr ⟨_, _, hr.mono fun i hr => ⟨run_bind_error hr.1, run_bind_error hr.2⟩,
      .endless later stores h⟩

/-- A run followed by one that does not depend on what it gives. -/
theorem andThen {n n' : ι → Run β} {Q : L.Stage → β → β → Prop} (hm : L.Settles F w P m m')
    (hn : L.Settles F w Q n n') :
    L.Settles F w Q (fun i => m i >>= fun _ => n i) (fun i => m' i >>= fun _ => n' i) :=
  hm.bind fun _ hw _ _ _ => hn.mono hw

/-! ### Along lists -/

section Along

variable {γ : Type} {R : γ → γ → Prop} {cs cs' : List γ} (hcs : List.Forall₂ R cs cs')
include hcs

/-- The same results, item by item, of runs along lists. -/
theorem mapM {P : L.Stage → β → β → Prop}
    (hP : ∀ {w w' : L.Stage} {b b' : β}, w ≤ w' → P w b b' → P w' b b') {f f' : ι → γ → Run β}
    (hf : ∀ c c', R c c' → L.Settles F w P (fun i => f i c) (fun i => f' i c')) :
    L.Settles F w (fun w => List.Forall₂ (P w)) (fun i => cs.mapM (f i))
      (fun i => cs'.mapM (f' i)) := by
  induction hcs with
  | nil => exact pure fun _ _ => .nil
  | cons hc _ ih =>
    simp only [List.mapM_cons]
    refine (hf _ _ hc).bind fun w₁ hw₁ b b' hb => ?_
    refine (ih.mono hw₁).bind fun w₂ hw₂ bs bs' hbs => ?_
    exact pure fun w₃ hw₃ => .cons (hP (hw₂.trans hw₃) hb) (hbs.imp fun _ _ => hP hw₃)

theorem mapValues {f f' : ι → γ → Run Value}
    (hf : ∀ c c', R c c' → L.Settles F w L.Values (fun i => f i c) (fun i => f' i c')) :
    L.Settles F w L.Rows (fun i => cs.mapM (f i)) (fun i => cs'.mapM (f' i)) :=
  mapM hcs (fun hw h => h.mono hw) hf

/-- Equal lists of results that do not depend on the heap. -/
theorem mapSame {f g : ι → γ → Run β}
    (hf : ∀ c c', R c c' → L.Settles F w L.Same (fun i => f i c) (fun i => g i c')) :
    L.Settles F w L.Same (fun i => cs.mapM (f i)) (fun i => cs'.mapM (g i)) :=
  (mapM hcs (P := L.Same) (fun _ h => h) hf).imp fun _ _ bs bs' h => by
    have h : List.Forall₂ Eq bs bs' := h
    rwa [List.forall₂_eq_eq_eq] at h

end Along

/-! ### Acts on the heap -/

section Heaps

variable [L.Lawful]

/-- An act that makes the same of heaps that are the same. -/
theorem make {f f' : Heap → α × Heap}
    (h : ∀ w₁, w ≤ w₁ → ∀ g g', L.heaps w₁ g g' →
      ∃ w₂, w₁ ≤ w₂ ∧ P w₂ (f g).1 (f' g').1 ∧ L.heaps w₂ (f g).2 (f' g').2) :
    L.Settles F w P (fun _ => Run.make f) (fun _ => Run.make f') := by
  refine of_outcome fun w₁ hw₁ s s' hs => ?_
  obtain ⟨w₂, hw₂, hP, hheaps⟩ := h w₁ hw₁ _ _ (Lawful.heaps_of_stores hs)
  exact .ok hw₂ (Lawful.stores_put hw₂ hs hheaps) hP

theorem change {f f' : Heap → Heap}
    (h : ∀ w₁, w ≤ w₁ → ∀ g g', L.heaps w₁ g g' → L.heaps w₁ (f g) (f' g')) :
    L.Settles F w L.Same (fun _ => Run.change f) (fun _ => Run.change f') := by
  have hchange : ∀ f : Heap → Heap, Run.change f = Run.make fun h => ((), f h) := fun _ => rfl
  rw [hchange, hchange]
  exact make fun w₁ hw₁ g g' hg => ⟨w₁, le_rfl, rfl, h w₁ hw₁ g g' hg⟩

/-- The heaps, as they are now. -/
theorem heap : L.Settles F w L.heaps (fun _ => Run.heap) (fun _ => Run.heap) :=
  of_outcome fun _ _ _ _ hs => .ok le_rfl hs (Lawful.heaps_of_stores hs)

/-- What is computed from the heap, if there is an end to computing it. -/
theorem finite {f f' : Heap → Option α}
    (h : ∀ w₁, w ≤ w₁ → ∀ g g', L.heaps w₁ g g' →
      Option.Rel (P w₁) (f g) (f' g') ∧ (f g = none → L.knot g)) :
    L.Settles F w P (fun _ => do Run.finite (f (← Run.heap)))
      (fun _ => do Run.finite (f' (← Run.heap))) := by
  refine of_outcome fun w₁ hw₁ s s' hs => ?_
  have hread : ∀ (f : Heap → Option α) (s : Store),
      (do Run.finite (f (← Run.heap)) : Run α) s = Run.finite (f s.heap) s :=
    fun f s => run_bind_ok rfl
  rw [hread, hread]
  obtain ⟨hrel, hknot⟩ := h w₁ hw₁ _ _ (Lawful.heaps_of_stores hs)
  generalize f s.heap = a at hrel hknot
  generalize f' s'.heap = a' at hrel
  cases hrel with
  | some h => exact .ok le_rfl hs h
  | none => exact .endless le_rfl hs (hknot rfl)

/-- What is computed from the heap, and what follows. -/
theorem finiteThen {f f' : Heap → Option α} {k k' : ι → α → Run β} {Q : L.Stage → β → β → Prop}
    (h : ∀ w₁, w ≤ w₁ → ∀ g g', L.heaps w₁ g g' →
      Option.Rel (P w₁) (f g) (f' g') ∧ (f g = none → L.knot g))
    (hk : ∀ w', w ≤ w' → ∀ a a', P w' a a' →
      L.Settles F w' Q (fun i => k i a) (fun i => k' i a')) :
    L.Settles F w Q (fun i => Run.heap >>= fun g => Run.finite (f g) >>= k i)
      (fun i => Run.heap >>= fun g => Run.finite (f' g) >>= k' i) := by
  simp only [← bind_assoc]
  exact (finite h).bind hk

/-- An act that may fail, in the same way on both sides. -/
theorem attempt {f f' : Heap → Except Failure α × Heap}
    (h : ∀ w₁, w ≤ w₁ → ∀ g g', L.heaps w₁ g g' → ∃ w₂, w₁ ≤ w₂
      ∧ L.heaps w₂ (f g).2 (f' g').2
      ∧ ((∃ a a', (f g).1 = .ok a ∧ (f' g').1 = .ok a' ∧ P w₂ a a')
        ∨ ∃ e, (f g).1 = .error e ∧ (f' g').1 = .error e)) :
    L.Settles F w P (fun _ => Run.attempt f) (fun _ => Run.attempt f') := by
  refine of_outcome fun w₁ hw₁ s s' hs => ?_
  obtain ⟨w₂, hw₂, hheaps, hr⟩ := h w₁ hw₁ _ _ (Lawful.heaps_of_stores hs)
  have hstores := Lawful.stores_put hw₂ hs hheaps
  rcases hr with ⟨a, a', ha, ha', hP⟩ | ⟨e, he, he'⟩
  · rw [run_attempt_ok (Prod.ext ha rfl), run_attempt_ok (Prod.ext ha' rfl)]
    exact .ok hw₂ hstores hP
  · rw [run_attempt_error (Prod.ext he rfl), run_attempt_error (Prod.ext he' rfl)]
    exact .failed e hw₂ hstores

end Heaps

end Settles

end Likeness

end Stencil.Routine
