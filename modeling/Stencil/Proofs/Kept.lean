import Stencil.Proofs.Growth
import Stencil.Proofs.SideBySide

/-!
# Kept routines

An engine keeps the routines that it compiles, and drops them when it next compiles after the
parameters changed.  `Kept` says what one knows of the kept routines: a fact about each, unless all
of them wait to be dropped.

* `Cache.get?_insert_cases` — where an entry of a cache comes from;
* `Kept` — a fact about the routines that a store keeps;
* `Kept.compile` — compiling gives a routine with the fact and keeps the fact, or fails as reading
  the source does;
* `Kept.mono` — a change of the setting keeps the fact, if it follows while the parameters stay;
* `Engine.compile_ok`, `Engine.compile_error` — compiling on an engine, after that on its store;
* `Connection.keeping` — one engine beside itself, as long as its store keeps the fact.
-/

namespace Stencil

open Routine

/-! ### Entries of caches -/

theorem lookupName_drop_one {α : Type} {es : List (String × α)} (h : (es.map Prod.fst).Nodup)
    {name : String} {a : α} (ha : lookupName name (es.drop 1) = some a) :
    lookupName name es = some a :=
  (lookupName_eq_some_iff h).mpr (List.mem_of_mem_drop (mem_of_lookupName ha))

namespace Cache

variable {α : Type} {c : Cache α} {name other : String} {a b : α}

/-- Making room adds no entry. -/
theorem get?_of_get?_roomFor (h : (c.roomFor name).get? other = some b) :
    c.get? other = some b := by
  rw [roomFor] at h
  split at h
  · exact h
  · split at h
    · exact lookupName_drop_one c.entries.nodup h
    · exact h

/-- An entry has just come in, or it was there before. -/
theorem get?_insert_cases (h : (c.insert name a).get? other = some b) :
    name = other ∧ b = a ∨ c.get? other = some b := by
  have hget : (c.insert name a).get? other
      = if name = other then some a else (c.roomFor name).get? other :=
    Roster.get?_insert _ _ _ _
  rw [hget] at h
  split at h
  · rename_i he
    exact .inl ⟨he, (Option.some.inj h).symm⟩
  · exact .inr (get?_of_get?_roomFor h)

end Cache

/-! ### Growing hooks -/

theorem Hooks.version_applyAll (h : Hooks) (acts : List Hook) :
    (h.applyAll acts).version = h.version + (Growth.ofHooks acts).params.length := by
  rw [applyAll_eq_grow]
  rfl

theorem Hooks.params_applyAll (h : Hooks) (acts : List Hook) :
    (h.applyAll acts).params = h.params ++ (Growth.ofHooks acts).params := by
  rw [applyAll_eq_grow]
  rfl

theorem Hooks.providers_applyAll (h : Hooks) (acts : List Hook) :
    (h.applyAll acts).providers = h.providers ++ (Growth.ofHooks acts).providers := by
  rw [applyAll_eq_grow]
  rfl

/-- While the version stays, so do the parameters. -/
theorem Hooks.params_eq_of_version_eq {h : Hooks} {acts : List Hook}
    (hv : (h.applyAll acts).version = h.version) : (h.applyAll acts).params = h.params := by
  rw [version_applyAll] at hv
  have hnil : (Growth.ofHooks acts).params = [] := by
    refine List.length_eq_zero_iff.mp ?_
    omega
  rw [params_applyAll, hnil, List.append_nil]

/-! ### Kept routines -/

/-- The parameters of a program are those that it was read for. -/
theorem params_of_parseProgram {params : List String} {source : String} {p : Program}
    (h : parseProgram params source = .ok p) : p.params = params := by
  rw [parseProgram] at h
  split at h
  · cases h
  · rw [parseTokens] at h
    cases hrun : (topStatements (callBound _)).run ⟨_, _⟩ with
    | error stop =>
      rw [hrun] at h
      cases h
    | ok r =>
      rw [hrun] at h
      cases h
      rfl

/-- A routine that is new: it does what its source says. -/
def New (s : Setting) (template : String) (routine : Compiled) : Prop :=
  ∃ program count, parseProgram s.params (s.source template) = .ok program ∧
    routine = ⟨s.numbering (s.source template) count, program.numbered⟩

/-- Each routine that the store keeps has the property, with its template, unless the parameters
have changed since it was compiled. -/
structure Kept (s : Setting) (P : String → Compiled → Prop) (store : Store) : Prop where
  /-- The version was the current one at some time. -/
  version_le : store.version ≤ s.hooks.version
  /-- Routines for the current parameters have the property. -/
  holds : store.version = s.hooks.version →
    ∀ template routine, store.cache.get? template = some routine → P template routine

namespace Kept

variable {s : Setting} {P : String → Compiled → Prop} {store : Store}

/-- The heap has nothing to do with it. -/
theorem change (h : Kept s P store) (heap : Heap) : Kept s P { store with heap := heap } :=
  ⟨h.version_le, h.holds⟩

/-- A store that keeps nothing. -/
theorem of_clear (hv : store.version ≤ s.hooks.version) :
    Kept s P { store with cache := store.cache.clear } := by
  refine ⟨hv, ?_⟩
  intro _ template routine hr
  rw [Cache.get?_clear] at hr
  cases hr

/-- A store that has kept nothing yet. -/
theorem of_create (bound : Nat) (hcache : store.cache = Cache.create bound)
    (hv : store.version ≤ s.hooks.version) : Kept s P store := by
  refine ⟨hv, ?_⟩
  intro _ template routine hr
  rw [hcache, Cache.get?_create] at hr
  cases hr

/-- One more routine with the property is kept. -/
theorem insert (h : Kept s P store) {template : String} {routine : Compiled}
    (hP : P template routine) (count : Nat) :
    Kept s P { store with
      cache := store.cache.insert template routine, compiled := count } := by
  refine ⟨h.version_le, fun hv other found hr => ?_⟩
  rcases Cache.get?_insert_cases hr with ⟨rfl, rfl⟩ | hold
  · exact hP
  · exact h.holds hv _ _ hold

theorem freshen (h : Kept s P store) :
    Kept s P (s.freshen store) ∧ (s.freshen store).version = s.hooks.version := by
  rw [Setting.freshen]
  split
  · rename_i hv
    exact ⟨h, hv⟩
  · refine ⟨⟨Nat.le_refl _, ?_⟩, rfl⟩
    intro _ template routine hr
    have hnone : (store.cache.clear).get? template = none := Cache.get?_clear _ _
    rw [hnone] at hr
    cases hr

theorem heap_freshen (s : Setting) (store : Store) : (s.freshen store).heap = store.heap := by
  rw [Setting.freshen]
  split <;> rfl

/-- What compiling a template on a store comes to. -/
theorem compile_eq (s : Setting) (template : String) (store : Store) :
    s.compile template store
      = match (s.freshen store).cache.get? template with
        | some routine => .ok routine (s.freshen store)
        | none =>
          match parseProgram s.params (s.source template) with
          | .error stop => .error stop (s.freshen store)
          | .ok program =>
            let routine : Compiled :=
              ⟨s.numbering (s.source template) (s.freshen store).compiled, program.numbered⟩
            .ok routine { s.freshen store with
              cache := (s.freshen store).cache.insert template routine
              compiled := (s.freshen store).compiled + 1 } := by
  have hget : s.compile template store
      = (match (s.freshen store).cache.get? template with
        | some routine => (return routine : EStateM Stop Store Compiled)
        | none =>
          match parseProgram s.params (s.source template) with
          | .error stop => throw stop
          | .ok program =>
            modifyGet fun (store : Store) =>
              let routine : Compiled :=
                ⟨s.numbering (s.source template) store.compiled, program.numbered⟩
              (routine, { store with
                cache := store.cache.insert template routine, compiled := store.compiled + 1 }))
          (s.freshen store) := rfl
  rw [hget]
  cases (s.freshen store).cache.get? template with
  | some routine => rfl
  | none => cases parseProgram s.params (s.source template) <;> rfl

theorem freshen_change (s : Setting) (store : Store) (heap : Heap) :
    s.freshen { store with heap := heap } = { s.freshen store with heap := heap } := by
  simp only [Setting.freshen]
  split <;> rfl

/-- What the heap holds has no part in compiling. -/
theorem compile_change (s : Setting) (template : String) (store : Store) (heap : Heap) :
    s.compile template { store with heap := heap }
      = match s.compile template store with
        | .ok routine after => .ok routine { after with heap := heap }
        | .error stop after => .error stop { after with heap := heap } := by
  rw [compile_eq, compile_eq, freshen_change]
  dsimp only
  cases (s.freshen store).cache.get? template with
  | some routine => rfl
  | none => cases parseProgram s.params (s.source template) <;> rfl

/-- Compiling gives a routine with the property, or fails as reading the source does. -/
theorem compile (h : Kept s P store) {template : String}
    (hnew : ∀ routine, New s template routine → P template routine) :
    (∃ routine after, s.compile template store = .ok routine after ∧ P template routine ∧
        Kept s P after ∧ after.heap = store.heap) ∨
      ∃ stop after, s.compile template store = .error stop after ∧
        parseProgram s.params (s.source template) = .error stop ∧
        Kept s P after ∧ after.heap = store.heap := by
  obtain ⟨hkept, hv⟩ := h.freshen
  have hheap := heap_freshen s store
  rw [compile_eq]
  cases hget : (s.freshen store).cache.get? template with
  | some routine =>
    exact .inl ⟨routine, _, rfl, hkept.holds hv _ _ hget, hkept, hheap⟩
  | none =>
    cases hparse : parseProgram s.params (s.source template) with
    | error stop => exact .inr ⟨stop, _, rfl, rfl, hkept, hheap⟩
    | ok program =>
      have hP := hnew _ ⟨program, (s.freshen store).compiled, hparse, rfl⟩
      exact .inl ⟨_, _, rfl, hP, hkept.insert hP _, hheap⟩

/-- A change of the setting under which the property follows as long as the parameters stay. -/
theorem mono (h : Kept s P store) {s' : Setting} {P' : String → Compiled → Prop}
    {acts : List Hook} (hacts : s'.hooks = s.hooks.applyAll acts)
    (hP : s'.hooks.params = s.hooks.params → ∀ template routine, P template routine →
      P' template routine) : Kept s' P' store := by
  have hle := h.version_le
  have hversion := s.hooks.version_applyAll acts
  rw [← hacts] at hversion
  refine ⟨by omega, ?_⟩
  intro hv template routine hr
  have hsame : (s.hooks.applyAll acts).version = s.hooks.version := by
    rw [← hacts]
    omega
  have hparams := Hooks.params_eq_of_version_eq hsame
  rw [← hacts] at hparams hsame
  exact hP hparams _ _ (h.holds (by omega) _ _ hr)

end Kept

/-! ### Compiling on an engine -/

namespace Engine

variable {e : Engine} {template : String} {store : Store}

theorem compile_ok {routine : Compiled}
    (h : e.setting.compile template e.store = .ok routine store) :
    e.compile template = (.ok routine, ⟨e.setting, store⟩) := by
  rw [compile, EStateM.run, h]

/-- The error that reports why a source was not read. -/
def stopError : Stop → Error
  | .fault fault => .compile fault
  | .exhausted => .endless

theorem compile_error {stop : Stop} (h : e.setting.compile template e.store = .error stop store) :
    e.compile template = (.error (stopError stop), ⟨e.setting, store⟩) := by
  rw [compile, EStateM.run, h]
  cases stop <;> rfl

end Engine

/-! ### Engines that keep routines -/

namespace Connection

variable {s : Setting} {P : String → Compiled → Prop} {halts : Halt → Prop}
  {hendless : halts .endless}
  {hordinary : ∀ f : Failure, f.isOrdinary = true → halts (.failed f)}

/-- One store that keeps routines with the property, and whose runs halt in some ways only. -/
def keeping (s : Setting) (P : String → Compiled → Prop) (halts : Halt → Prop)
    (hendless : halts .endless)
    (hordinary : ∀ f : Failure, f.isOrdinary = true → halts (.failed f)) : Connection where
  stores a b := a = b ∧ Kept s P a
  halts := halts
  heap_eq h := by rw [h.1]
  change heap h := ⟨by rw [h.1], h.2.change heap⟩
  endless := hendless
  ordinary := hordinary

/-- Compiling keeps the property if new routines have it. -/
theorem agree_keeping (hnew : ∀ template routine, New s template routine → P template routine)
    (hfits : ∀ template routine, P template routine →
      (keeping s P halts hendless hordinary).Fits s routine)
    (hfault : ∀ e, halts (.failed (.fragmentSource e))) (template : String) (a b : Store)
    (hab : (keeping s P halts hendless hordinary).stores a b) :
    (keeping s P halts hendless hordinary).Agree
      (fun stop => ∀ e, stop = .fault e → halts (.failed (.fragmentSource e)))
      ((keeping s P halts hendless hordinary).Fits s) (s.compile template a)
      (s.compile template b) := by
  obtain ⟨rfl, hkept⟩ := hab
  rcases hkept.compile (hnew template) with
    ⟨routine, after, heq, hroutine, hafter, -⟩ | ⟨stop, after, heq, -, hafter, -⟩
  · rw [heq]
    exact .ok (hfits template routine hroutine) ⟨rfl, hafter⟩
  · rw [heq]
    exact .error (fun e _ => hfault e) ⟨rfl, hafter⟩

/-- A run that leaves the setting leaves the property of what is kept. -/
theorem kept_of_engines {e f : Engine} (hset : f.setting = e.setting)
    (hf : (keeping e.setting P halts hendless hordinary).Engines f f) :
    Kept f.setting P f.store := by
  rw [hset]
  exact hf.stores.2

end Connection

end Stencil
