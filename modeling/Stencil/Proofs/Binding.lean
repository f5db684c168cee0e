import Stencil.Engine.Render

/-!
# Bound parameters

A routine that is invoked asks the providers for their values, one after the other, and binds its
parameters to the data, the function that escapes and those values before it runs.

* `Setting.givenAll` — the values that providers give one after the other;
* `Heap.declareAll`, `Program.run_eq` — a routine binds its parameters in a new frame and runs
  there;
* `bindAll`, `Heap.declareAll_newFrame` — the variables of that frame, apart from any heap;
* `Setting.invoke_eq` — an invocation asks for the values first;
* `Setting.invoke_binds` — a routine begins with each parameter bound to the value at its place.
-/

namespace Stencil

open Routine

/-! ### The values that providers give -/

/-- The value of a provider that makes nothing of its own, if this is the object of the helpers. -/
def Provider.value (helpers : Value) : Provider → Value
  | .constant v => v
  | .helpers => helpers
  | .custom _ => .undefined

namespace Setting

/-- The value that a provider gives on a store, and the store after it. -/
def given (s : Setting) (store : Store) : Provider → Value × Store
  | .constant v => (v, store)
  | .helpers =>
    let (v, heap) := store.heap.newObject (s.helpers.getD .empty)
    (v, { store with heap := heap })
  | .custom f =>
    let (v, heap) := f store.heap
    (v, { store with heap := heap })

/-- The values that providers give one after the other, and the store after them. -/
def givenAll (s : Setting) (store : Store) : List Provider → List Value × Store
  | [] => ([], store)
  | p :: ps =>
    let (v, store) := s.given store p
    let (vs, store) := s.givenAll store ps
    (v :: vs, store)

/-- A provider never fails. -/
theorem provide_eq (s : Setting) (p : Provider) (store : Store) :
    s.provide p store = .ok (s.given store p).1 (s.given store p).2 := by
  cases p <;> rfl

theorem mapM_provide_eq (s : Setting) (ps : List Provider) (store : Store) :
    ps.mapM s.provide store = .ok (s.givenAll store ps).1 (s.givenAll store ps).2 := by
  induction ps generalizing store with
  | nil => rfl
  | cons p ps ih =>
    rw [List.mapM_cons, run_bind_ok (s.provide_eq p store), run_bind_ok (ih _)]
    rfl

theorem length_givenAll (s : Setting) (ps : List Provider) (store : Store) :
    (s.givenAll store ps).1.length = ps.length := by
  induction ps generalizing store with
  | nil => rfl
  | cons p ps ih =>
    show (s.givenAll (s.given store p).2 ps).1.length + 1 = ps.length + 1
    rw [ih]

/-- Each value is the one that its provider gives behind those before it. -/
theorem givenAll_append (s : Setting) (store : Store) (earlier : List Provider) (p : Provider)
    (later : List Provider) :
    (s.givenAll store (earlier ++ p :: later)).1
      = (s.givenAll store earlier).1 ++ (s.given (s.givenAll store earlier).2 p).1
          :: (s.givenAll (s.given (s.givenAll store earlier).2 p).2 later).1 := by
  induction earlier generalizing store with
  | nil => rfl
  | cons q earlier ih =>
    show _ :: (s.givenAll (s.given store q).2 (earlier ++ p :: later)).1 = _
    rw [ih]
    rfl

theorem givenAll_constants (s : Setting) (store : Store) {ps : List Provider}
    (h : ∀ p ∈ ps, ∃ v, p = .constant v) (helpers : Value) :
    s.givenAll store ps = (ps.map (Provider.value helpers), store) := by
  induction ps with
  | nil => rfl
  | cons p ps ih =>
    obtain ⟨⟨v, rfl⟩, hps⟩ := List.forall_mem_cons.mp h
    simp only [givenAll, given, ih hps, List.map_cons, Provider.value]

/-- One object of the helpers is made, wherever its provider stands among constant ones. -/
theorem givenAll_helpers (s : Setting) (store : Store) {earlier later : List Provider}
    (h : ∀ p ∈ earlier ++ later, ∃ v, p = .constant v) {helpers : Value} {heap : Heap}
    (hmake : store.heap.newObject (s.helpers.getD .empty) = (helpers, heap)) :
    s.givenAll store (earlier ++ .helpers :: later)
      = ((earlier ++ .helpers :: later).map (Provider.value helpers),
          { store with heap := heap }) := by
  induction earlier with
  | nil =>
    have hlater := givenAll_constants s { store with heap := heap } h helpers
    simp only [List.nil_append] at hlater
    simp only [List.nil_append, givenAll, given, hmake, hlater, List.map_cons, Provider.value]
  | cons p earlier ih =>
    obtain ⟨⟨v, rfl⟩, hps⟩ := List.forall_mem_cons.mp h
    simp only [List.cons_append, givenAll, given, ih hps, List.map_cons, Provider.value]

end Setting

/-! ### Binding -/

namespace Routine

/-- The heap with parameters declared in the innermost frame. -/
def Heap.declareAll (h : Heap) (scope : Scope) : List String → List Value → Heap
  | [], _ => h
  | name :: names, [] => (h.declare scope name ⟨.undefined, true⟩).declareAll scope names []
  | name :: names, v :: vs => (h.declare scope name ⟨v, true⟩).declareAll scope names vs

theorem bindParams_eq (scope : Scope) (names : List String) (vs : List Value) (store : Store) :
    bindParams scope names vs store
      = .ok () { store with heap := store.heap.declareAll scope names vs } := by
  induction names generalizing vs store with
  | nil => rfl
  | cons name names ih =>
    cases vs with
    | nil => exact ih [] _
    | cons v vs => exact ih vs _

/-- Variables with parameters declared among them. -/
def bindAll (b : Roster Binding) : List String → List Value → Roster Binding
  | [], _ => b
  | name :: names, [] => bindAll (b.insert name ⟨.undefined, true⟩) names []
  | name :: names, v :: vs => bindAll (b.insert name ⟨v, true⟩) names vs

/-- The heap with one more frame. -/
def Heap.pushFrame (h : Heap) (b : Roster Binding) : Heap := { h with frames := h.frames.push b }

theorem Heap.frame_pushFrame (h : Heap) (b : Roster Binding) (place : Nat) :
    (h.pushFrame b).frame place = if place = h.frames.size then b else h.frame place := by
  rw [pushFrame, frame, frame, Array.getD_eq_getD_getElem?, Array.getD_eq_getD_getElem?,
    Array.getElem?_push]
  split <;> rfl

theorem Heap.setLocal_pushFrame (h : Heap) (b : Roster Binding) (name : String) (v : Binding) :
    (h.pushFrame b).setLocal h.frames.size name v = h.pushFrame (b.insert name v) := by
  rw [pushFrame, setLocal, pushFrame]
  congr 1
  refine Array.ext' ?_
  rw [Array.toList_modify, Array.toList_push, Array.toList_push]
  exact List.modifyTailIdx_add _ 0 h.frames.toList [b]

/-- Parameters that are declared in a new frame. -/
theorem Heap.declareAll_newFrame (h : Heap) (names : List String) (vs : List Value) :
    h.newFrame.2.declareAll [.locals h.frames.size] names vs
      = h.pushFrame (bindAll .empty names vs) := by
  have go (b : Roster Binding) : (h.pushFrame b).declareAll [.locals h.frames.size] names vs
      = h.pushFrame (bindAll b names vs) := by
    induction names generalizing b vs with
    | nil => rfl
    | cons name names ih =>
      have step (v : Binding) (vs : List Value) :
          ((h.pushFrame b).setLocal h.frames.size name v).declareAll [.locals h.frames.size]
              names vs
            = h.pushFrame (bindAll (b.insert name v) names vs) := by
        rw [setLocal_pushFrame, ih]
      cases vs with
      | nil => exact step _ []
      | cons v vs => exact step _ vs
  exact go .empty

/-- The variable that a name is bound to comes from the parameters, or it was there before. -/
theorem get?_bindAll (b : Roster Binding) (names : List String) (vs : List Value) (name : String) :
    (bindAll b names vs).get? name
      = ((bindAll .empty names vs).get? name).or (b.get? name) := by
  induction names generalizing b vs with
  | nil => rfl
  | cons key names ih =>
    have step (v : Binding) (vs : List Value) :
        (bindAll (b.insert key v) names vs).get? name
          = ((bindAll (Roster.empty.insert key v) names vs).get? name).or (b.get? name) := by
      rw [ih, ih (Roster.empty.insert key v), Roster.get?_insert, Roster.get?_insert]
      split
      · cases (bindAll .empty names vs).get? name <;> rfl
      · cases (bindAll .empty names vs).get? name <;> rfl
    cases vs with
    | nil => exact step _ []
    | cons v vs => exact step _ vs

/-- Names that are no parameters are not bound. -/
theorem get?_bindAll_of_notMem {names : List String} (vs : List Value) {name : String}
    (h : name ∉ names) : (bindAll .empty names vs).get? name = none := by
  induction names generalizing vs with
  | nil => rfl
  | cons key names ih =>
    rw [List.mem_cons, not_or] at h
    have step (v : Binding) (vs : List Value) :
        (bindAll (Roster.empty.insert key v) names vs).get? name = none := by
      rw [get?_bindAll, ih vs h.2, Roster.get?_insert, if_neg fun heq => h.1 heq.symm]
      rfl
    cases vs with
    | nil => exact step _ []
    | cons v vs => exact step _ vs

/-- Where no parameter occurs twice, each is bound to its own value. -/
theorem get?_bindAll_map {α : Type} {L : List (String × α)} (h : (L.map Prod.fst).Nodup)
    (value : α → Value) (name : String) :
    (bindAll .empty (L.map Prod.fst) (L.map fun e => value e.2)).get? name
      = (lookupName name L).map fun a => ⟨value a, true⟩ := by
  induction L with
  | nil => rfl
  | cons e L ih =>
    obtain ⟨key, a⟩ := e
    rw [List.map_cons, List.nodup_cons] at h
    simp only [List.map_cons, bindAll, lookupName]
    rw [get?_bindAll, ih h.2, Roster.get?_insert]
    by_cases hkey : key = name
    · have hnone : lookupName name L = none := lookupName_of_notMem (hkey ▸ h.1)
      rw [hnone, if_pos hkey, if_pos hkey]
      rfl
    · rw [if_neg hkey, if_neg hkey, Roster.get?_empty, Option.or_none]

variable {place : Nat} {scope : Scope}

/-- Names that are no parameters keep what they are bound to. -/
theorem Heap.get?_declareAll_of_notMem {name : String} (names : List String) (vs : List Value)
    (h : Heap) (hp : place < h.frames.size) (hn : name ∉ names) :
    ((h.declareAll (.locals place :: scope) names vs).frame place).get? name
      = (h.frame place).get? name := by
  induction names generalizing vs h with
  | nil => rfl
  | cons key names ih =>
    rw [List.mem_cons, not_or] at hn
    have step (b : Binding) (vs : List Value) :
        (((h.setLocal place key b).declareAll (.locals place :: scope) names vs).frame place).get?
          name = (h.frame place).get? name := by
      have hsize : place < (h.setLocal place key b).frames.size := by
        rw [size_setLocal]
        exact hp
      rw [ih vs _ hsize hn.2, Heap.frame_setLocal h place key b hp, if_pos rfl, Roster.get?_insert,
        if_neg fun he => hn.1 he.symm]
    cases vs with
    | nil => exact step _ _
    | cons v vs => exact step _ _

/-- Each parameter is bound to the value at its place, if no name occurs twice. -/
theorem Heap.get?_declareAll {names : List String} {vs : List Value} (h : Heap)
    (hp : place < h.frames.size) (hnodup : names.Nodup) {name : String} {v : Value}
    (hmem : (name, v) ∈ names.zip vs) :
    ((h.declareAll (.locals place :: scope) names vs).frame place).get? name
      = some ⟨v, true⟩ := by
  induction names generalizing vs h with
  | nil => cases hmem
  | cons key names ih =>
    cases vs with
    | nil => cases hmem
    | cons w vs =>
      have hsize : place < (h.setLocal place key ⟨w, true⟩).frames.size := by
        rw [size_setLocal]
        exact hp
      rw [List.nodup_cons] at hnodup
      rw [List.zip_cons_cons, List.mem_cons] at hmem
      show (((h.setLocal place key ⟨w, true⟩).declareAll _ names vs).frame place).get? name = _
      rcases hmem with heq | hmem
      · cases heq
        rw [get?_declareAll_of_notMem names vs _ hsize hnodup.1, frame_setLocal h place _ _ hp,
          if_pos rfl, Roster.get?_insert, if_pos rfl]
      · exact ih _ hsize hnodup.2 hmem

/-- What a routine gives back once its parameters are bound. -/
def Program.runBound (p : Program) (bound : Nat) (around : Surroundings) (outer : Scope) :
    Run Value := do
  let inner ← withFrame outer
  return (← inOrder (exec bound around inner) p.body).result

/-- A routine binds its parameters in a new frame and runs there. -/
theorem Program.run_eq (p : Program) (bound : Nat) (around : Surroundings) (args : List Value)
    (store : Store) :
    p.run bound around args store
      = p.runBound bound around [.locals store.heap.frames.size]
          { store with
            heap := (store.heap.newFrame.2).declareAll [.locals store.heap.frames.size] p.params
              args } := by
  have hbind : p.run bound around args store
      = (bindParams [.locals store.heap.frames.size] p.params args >>= fun _ =>
          p.runBound bound around [.locals store.heap.frames.size])
          { store with heap := store.heap.newFrame.2 } := rfl
  rw [hbind, run_bind_ok (bindParams_eq _ _ _ _)]

end Routine

namespace Setting

variable {s : Setting} {bound : Nat} {fragment : String → Run String} {routine : Compiled}
  {data : Value} {store : Store}

/-- Invoking a routine asks the providers for their values first. -/
theorem invoke_eq (s : Setting) (bound : Nat) (fragment : String → Run String)
    (routine : Compiled) (data : Value) (store : Store) :
    s.invoke bound fragment routine data store
      = (if 2 + s.hooks.providers.length ≠ routine.arity then
          Run.fail (.arity routine.arity (2 + s.hooks.providers.length))
        else
          (routine.program.run bound ⟨s.perform fragment, routine.number, callLimit⟩
            (data :: s.escape :: (s.givenAll store s.hooks.providers).1)) >>= Run.textOf)
          (s.givenAll store s.hooks.providers).2 := by
  have hbind : s.invoke bound fragment routine data store
      = (s.hooks.providers.mapM s.provide >>= fun vs =>
          if (data :: s.escape :: vs).length ≠ routine.arity then
            Run.fail (.arity routine.arity (data :: s.escape :: vs).length)
          else
            (routine.program.run bound ⟨s.perform fragment, routine.number, callLimit⟩
              (data :: s.escape :: vs)) >>= Run.textOf) store := rfl
  have hlen : (data :: s.escape :: (s.givenAll store s.hooks.providers).1).length
      = 2 + s.hooks.providers.length := by
    rw [List.length_cons, List.length_cons, length_givenAll]
    omega
  rw [hbind, run_bind_ok (s.mapM_provide_eq _ store), hlen]

/-- A routine begins with each additional parameter bound to the value at its place. -/
theorem invoke_binds (hparams : routine.program.params = s.params) (hnodup : s.params.Nodup)
    (hlen : s.hooks.params.length = s.hooks.providers.length) :
    ∃ place start,
      s.invoke bound fragment routine data store
        = (routine.program.runBound bound ⟨s.perform fragment, routine.number, callLimit⟩
            [.locals place] >>= Run.textOf) start ∧
      ∀ earlier name p later,
        s.hooks.params.zip s.hooks.providers = earlier ++ (name, p) :: later →
          (start.heap.frame place).get? name
            = some ⟨(s.given (s.givenAll store (earlier.map Prod.snd)).2 p).1, true⟩ := by
  have harity : routine.arity = 2 + s.hooks.providers.length := by
    show routine.program.params.length = _
    rw [hparams, ← hlen]
    show (_ ++ s.hooks.params).length = _
    rw [List.length_append]
    rfl
  generalize hgiven : s.givenAll store s.hooks.providers = given
  refine ⟨given.2.heap.frames.size,
    { given.2 with
      heap := (given.2.heap.newFrame.2).declareAll [.locals given.2.heap.frames.size] s.params
        (data :: s.escape :: given.1) }, ?_, ?_⟩
  · rw [invoke_eq, harity, if_neg (fun h => h rfl), hgiven]
    refine run_bind_congr ?_
    rw [Program.run_eq, hparams]
  · intro earlier name p later hzip
    have hproviders : s.hooks.providers
        = earlier.map Prod.snd ++ p :: later.map Prod.snd := by
      have h := congrArg (List.map Prod.snd) hzip
      rw [List.map_snd_zip (Nat.le_of_eq hlen.symm), List.map_append, List.map_cons] at h
      exact h
    have hnames : s.hooks.params
        = earlier.map Prod.fst ++ name :: later.map Prod.fst := by
      have h := congrArg (List.map Prod.fst) hzip
      rw [List.map_fst_zip (Nat.le_of_eq hlen), List.map_append, List.map_cons] at h
      exact h
    refine Heap.get?_declareAll _ ?_ hnodup ?_
    · show _ < (given.2.heap.frames.push _).size
      rw [Array.size_push]
      omega
    · -- The name and the value stand at one place of the two lists.
      rw [← hgiven, hproviders, givenAll_append]
      show _ ∈ List.zip (_ :: _ :: s.hooks.params) _
      rw [List.zip_cons_cons, List.zip_cons_cons, hnames, List.zip_append, List.zip_cons_cons]
      · refine List.mem_cons_of_mem _ (List.mem_cons_of_mem _ ?_)
        exact List.mem_append_right _ List.mem_cons_self
      · rw [length_givenAll, List.length_map, List.length_map]

end Setting

end Stencil
