import Stencil.Proofs.History
import Stencil.Proofs.Kept

/-!
# Caches are queues

What a cache holds and answers over its life, whatever callers ask of it.

* `Cache.Request`, `Cache.serve` — what callers ask, and what the cache makes of it; `Cache.after`
  and `Cache.replies` go through a list of requests;
* `Queue` — the queue that a cache is meant to be: names in the order in which they came, in a fixed
  number of places, and the entry that was last inserted under each name;
* `Refines` — a cache that holds the names of a queue and their last entries; `Refines.serve` is one
  request and `Refines.after` a list of them;
* `Cache.arrivals` — how many insertions bring a name that is not held at that time; a name that
  arrives itself stays for exactly as many of them as there are places (`held_throughout_iff`);
* `Engine.current` — the routines that an engine keeps and that fit its parameters, which is all
  that a failing call leaves (`Engine.cache_of_compile_error`);
* `Cache.create_refines_queue` — these together, for a cache that begins without entries.
-/

namespace Stencil

open Routine

namespace Cache

variable {α : Type}

/-! ### Requests -/

/-- What a caller asks of a cache. -/
inductive Request (α : Type) where
  | insert (name : String) (a : α)
  | get (name : String)
  | contains (name : String)
  | clear

/-- What a cache answers. -/
inductive Reply (α : Type) where
  | done
  | entry (found : Option α)
  | held (answer : Bool)

/-- What a cache answers to a request, and the cache after it. -/
def serve (c : Cache α) : Request α → Reply α × Cache α
  | .insert name a => (.done, c.insert name a)
  | .get name => (.entry (c.get? name), c)
  | .contains name => (.held (c.contains name), c)
  | .clear => (.done, c.clear)

/-- The cache after requests. -/
def after (c : Cache α) : List (Request α) → Cache α
  | [] => c
  | r :: rs => (c.serve r).2.after rs

/-- What a cache answers to requests, one after the other. -/
def replies (c : Cache α) : List (Request α) → List (Reply α)
  | [] => []
  | r :: rs => (c.serve r).1 :: (c.serve r).2.replies rs

/-- Whether a request brings a name that the cache does not hold. -/
def Request.arrives (c : Cache α) : Request α → Bool
  | .insert name _ => !c.contains name
  | _ => false

/-- How many of the requests bring a name that is not held at that time. -/
def arrivals (c : Cache α) : List (Request α) → Nat
  | [] => 0
  | r :: rs => (r.arrives c).toNat + (c.serve r).2.arrivals rs

/-! ### Names of caches -/

variable {c : Cache α} {name : String}

theorem contains_iff : c.contains name = true ↔ name ∈ c.entries.names :=
  lookupName_isSome c.entries.entries

theorem contains_eq_false_iff : c.contains name = false ↔ name ∉ c.entries.names := by
  rw [← contains_iff, Bool.not_eq_true]

theorem get?_eq_none (h : name ∉ c.entries.names) : c.get? name = none :=
  lookupName_of_notMem h

theorem size_eq (c : Cache α) : c.size = c.entries.names.length :=
  (List.length_map Prod.fst).symm

theorem length_names_le (c : Cache α) : c.entries.names.length ≤ c.bound :=
  c.size_eq ▸ c.size_le

/-- A name that is held keeps its place. -/
theorem names_insert_of_mem (h : name ∈ c.entries.names) (a : α) :
    (c.insert name a).entries.names = c.entries.names := by
  have hroom : c.roomFor name = c.entries := by rw [roomFor, if_pos (contains_iff.mpr h)]
  show ((c.roomFor name).insert name a).names = _
  rw [hroom, Roster.names_insert, if_pos h]

/-- A name that is not held goes to the end, after the one that came first if there is no room. -/
theorem names_insert_of_notMem (h : name ∉ c.entries.names) (a : α) :
    (c.insert name a).entries.names
      = (if c.entries.names.length = c.bound then c.entries.names.tail else c.entries.names)
        ++ [name] := by
  have hle := c.length_names_le
  have hroom : (c.roomFor name).names
      = if c.entries.names.length = c.bound then c.entries.names.tail else c.entries.names := by
    rw [roomFor, contains_eq_false_iff.mpr h, size_eq, if_neg Bool.false_ne_true]
    by_cases hfull : c.entries.names.length = c.bound
    · rw [if_pos hfull, if_pos (Nat.le_of_eq hfull.symm)]
      exact (List.map_drop ..).trans List.drop_one
    · rw [if_neg hfull, if_neg fun hle' => hfull (Nat.le_antisymm hle hle')]
  have hnew : name ∉ (c.roomFor name).names := by
    rw [hroom]
    split
    · exact fun hmem => h (List.mem_of_mem_tail hmem)
    · exact h
  show ((c.roomFor name).insert name a).names = _
  rw [Roster.names_insert, if_neg hnew, hroom]

theorem bound_serve (c : Cache α) (r : Request α) : (c.serve r).2.bound = c.bound := by
  cases r <;> rfl

end Cache

/-! ### Queues -/

/-- A queue of names with a number of places, and what was last inserted under each name. -/
structure Queue (α : Type) where
  /-- How many names there may be. -/
  places : Nat
  /-- The names, the one that came first in front. -/
  names : List String := []
  /-- The entry last inserted under a name, held or not. -/
  last : String → Option α := fun _ => none

namespace Queue

variable {α : Type}

/-- The queue without names. -/
def start (places : Nat) : Queue α := { places := places }

/-- A new name comes last, after the oldest left if every place is taken; one that is held stays
where it is.  Either way the entry is the last one of the name. -/
def insert (q : Queue α) (name : String) (a : α) : Queue α where
  places := q.places
  names :=
    if name ∈ q.names then q.names
    else (if q.names.length = q.places then q.names.tail else q.names) ++ [name]
  last := fun other => if other = name then some a else q.last other

/-- What a queue answers to a request, and the queue after it. -/
def serve (q : Queue α) : Cache.Request α → Cache.Reply α × Queue α
  | .insert name a => (.done, q.insert name a)
  | .get name => (.entry (if name ∈ q.names then q.last name else none), q)
  | .contains name => (.held (decide (name ∈ q.names)), q)
  | .clear => (.done, { q with names := [] })

/-- The queue after requests. -/
def after (q : Queue α) : List (Cache.Request α) → Queue α
  | [] => q
  | r :: rs => (q.serve r).2.after rs

/-- What a queue answers to requests, one after the other. -/
def replies (q : Queue α) : List (Cache.Request α) → List (Cache.Reply α)
  | [] => []
  | r :: rs => (q.serve r).1 :: (q.serve r).2.replies rs

theorem places_after (q : Queue α) (rs : List (Cache.Request α)) :
    (q.after rs).places = q.places := by
  induction rs generalizing q with
  | nil => rfl
  | cons r rs ih =>
    rw [after, ih]
    cases r <;> rfl

end Queue

/-- The cache holds the names of the queue in their order, each with the entry last inserted. -/
structure Refines {α : Type} (c : Cache α) (q : Queue α) : Prop where
  bound_eq : c.bound = q.places
  names_eq : c.entries.names = q.names
  get?_eq : ∀ name ∈ q.names, c.get? name = q.last name

namespace Refines

open Cache

variable {α : Type} {c : Cache α} {q : Queue α}

theorem create (bound : Nat) : Refines (Cache.create bound : Cache α) (.start (max bound 1)) :=
  ⟨rfl, rfl, nofun⟩

theorem names_insert (h : Refines c q) (name : String) (a : α) :
    (c.insert name a).entries.names = (q.insert name a).names := by
  by_cases hmem : name ∈ c.entries.names
  · rw [names_insert_of_mem hmem, Queue.insert, ← h.names_eq, if_pos hmem]
  · rw [names_insert_of_notMem hmem, Queue.insert, ← h.names_eq, ← h.bound_eq, if_neg hmem]

/-- What is held after an insertion and is not the name inserted was held before it. -/
theorem get?_insert (h : Refines c q) (name : String) (a : α) {other : String}
    (hother : other ∈ (q.insert name a).names) :
    (c.insert name a).get? other = (q.insert name a).last other := by
  by_cases hname : other = name
  · subst hname
    rw [get?_insert_self]
    exact (if_pos rfl).symm
  · have hmem : other ∈ (c.insert name a).entries.names := h.names_insert name a ▸ hother
    obtain ⟨b, hb⟩ := Option.isSome_iff_exists.mp (contains_iff.mpr hmem)
    have hold : c.get? other = some b :=
      (get?_insert_cases hb).resolve_left fun heq => hname heq.1.symm
    have hheld : other ∈ q.names := by
      rw [← h.names_eq]
      exact contains_iff.mp (Option.isSome_iff_exists.mpr ⟨b, hold⟩)
    calc (c.insert name a).get? other = some b := hb
      _ = q.last other := by rw [← hold, h.get?_eq other hheld]
      _ = (q.insert name a).last other := (if_neg hname).symm

theorem contains_eq (h : Refines c q) (name : String) :
    c.contains name = decide (name ∈ q.names) := by
  rw [Bool.eq_iff_iff, contains_iff, h.names_eq, decide_eq_true_iff]

/-- One request has the same answer, and leaves the cache and the queue alike. -/
theorem serve (h : Refines c q) (r : Request α) :
    (c.serve r).1 = (q.serve r).1 ∧ Refines (c.serve r).2 (q.serve r).2 := by
  cases r with
  | insert name a =>
    exact ⟨rfl, h.bound_eq, h.names_insert name a, fun _ => h.get?_insert name a⟩
  | get name =>
    refine ⟨congrArg Reply.entry ?_, h⟩
    split
    · exact h.get?_eq name ‹_›
    · exact get?_eq_none (h.names_eq ▸ ‹name ∉ q.names›)
  | contains name => exact ⟨congrArg Reply.held (h.contains_eq name), h⟩
  | clear => exact ⟨rfl, h.bound_eq, rfl, nofun⟩

/-- So do requests one after the other. -/
theorem after (h : Refines c q) (rs : List (Request α)) :
    c.replies rs = q.replies rs ∧ Refines (c.after rs) (q.after rs) := by
  induction rs generalizing c q with
  | nil => exact ⟨rfl, h⟩
  | cons r rs ih =>
    obtain ⟨hreply, hnext⟩ := h.serve r
    obtain ⟨hreplies, hend⟩ := ih hnext
    exact ⟨by rw [Cache.replies, Queue.replies, hreply, hreplies], hend⟩

end Refines

/-! ### How long a name is held -/

/-- Something holds of the beginnings of a list: of the empty one, and of each that goes further. -/
theorem forall_prefix_cons {α : Type} {p : List α → Prop} {a : α} {as : List α} :
    (∀ early, early <+: a :: as → p early) ↔ p [] ∧ ∀ early, early <+: as → p (a :: early) := by
  constructor
  · intro h
    exact ⟨h [] List.nil_prefix, fun early he => h _ (List.cons_prefix_cons.mpr ⟨rfl, he⟩)⟩
  · rintro ⟨hnil, hcons⟩ early he
    rcases List.prefix_cons_iff.mp he with rfl | ⟨rest, rfl, hrest⟩
    · exact hnil
    · exact hcons rest hrest

namespace Cache

variable {α : Type} {c : Cache α} {name : String}

/-- With names behind a name, one more that is inserted gets behind it too if it is new, and makes
it leave if then there is no place for it. -/
theorem names_insert_behind {older newer : List String}
    (hnames : c.entries.names = older ++ name :: newer) (other : String) (a : α) :
    (∃ older' newer', (c.insert other a).entries.names = older' ++ name :: newer' ∧
        newer'.length = newer.length + ((Request.insert other a).arrives c).toNat) ∨
      name ∉ (c.insert other a).entries.names ∧
        c.bound ≤ newer.length + ((Request.insert other a).arrives c).toNat := by
  by_cases hother : other ∈ c.entries.names
  · have harrives : (Request.insert other a).arrives c = false := by
      rw [Request.arrives, contains_iff.mpr hother, Bool.not_true]
    rw [names_insert_of_mem hother, harrives]
    exact .inl ⟨older, newer, hnames, rfl⟩
  · have harrives : (Request.insert other a).arrives c = true := by
      rw [Request.arrives, contains_eq_false_iff.mpr hother, Bool.not_false]
    have hnodup : (older ++ name :: newer).Nodup := hnames ▸ c.entries.nodup
    rw [names_insert_of_notMem hother, harrives, hnames]
    rw [hnames] at hother
    split
    · rename_i hfull
      cases older with
      | nil =>
        -- Every place is taken, and the name is the oldest.
        refine .inr ⟨?_, Nat.le_of_eq hfull.symm⟩
        rw [List.nil_append, List.nodup_cons] at hnodup
        rw [List.nil_append, List.mem_cons, not_or] at hother
        simpa [hnodup.1] using Ne.symm hother.1
      | cons oldest older =>
        exact .inl ⟨older, newer ++ [other], by simp, List.length_append⟩
    · exact .inl ⟨older, newer ++ [other], by simp, List.length_append⟩

/-- What a request does to a name that is held, with the names behind it. -/
theorem names_serve_behind {older newer : List String}
    (hnames : c.entries.names = older ++ name :: newer) (r : Request α) :
    (r ≠ .clear ∧ ∃ older' newer', (c.serve r).2.entries.names = older' ++ name :: newer' ∧
        newer'.length = newer.length + (r.arrives c).toNat) ∨
      name ∉ (c.serve r).2.entries.names ∧
        (r = .clear ∨ c.bound ≤ newer.length + (r.arrives c).toNat) := by
  cases r with
  | insert other a =>
    exact (names_insert_behind hnames other a).imp (⟨nofun, ·⟩) (And.imp_right .inr)
  | get other => exact .inl ⟨nofun, older, newer, hnames, rfl⟩
  | contains other => exact .inl ⟨nofun, older, newer, hnames, rfl⟩
  | clear => exact .inr ⟨List.not_mem_nil, .inl rfl⟩

/-- A name stays while there is no `clear` and the names that came after it, with those that still
arrive, leave it a place. -/
theorem held_throughout_iff {older newer : List String}
    (hnames : c.entries.names = older ++ name :: newer) (later : List (Request α)) :
    (∀ early, early <+: later → name ∈ (c.after early).entries.names) ↔
      .clear ∉ later ∧ newer.length + c.arrivals later < c.bound := by
  have hheld : name ∈ c.entries.names := by simp [hnames]
  induction later generalizing c older newer with
  | nil =>
    have hle := c.length_names_le
    rw [hnames, List.length_append, List.length_cons] at hle
    simp only [List.prefix_nil, forall_eq, after, hheld, List.not_mem_nil, not_false_eq_true,
      arrivals, true_iff, true_and]
    omega
  | cons r later ih =>
    rw [forall_prefix_cons]
    show name ∈ c.entries.names ∧
      (∀ early, early <+: later → name ∈ ((c.serve r).2.after early).entries.names) ↔ _
    rw [and_iff_right hheld, arrivals, ← Nat.add_assoc, List.mem_cons, not_or]
    rcases names_serve_behind hnames r with ⟨hr, older', newer', hnext, hlength⟩ | ⟨hgone, hlate⟩
    · have hlater := ih hnext (by simp [hnext])
      rw [bound_serve, hlength] at hlater
      exact hlater.trans (and_congr_left' (and_iff_right hr.symm).symm)
    · refine iff_of_false (fun h => hgone (h [] List.nil_prefix)) ?_
      rintro ⟨⟨hclear, -⟩, hlt⟩
      rcases hlate with hr | hlate
      · exact hclear hr.symm
      · omega

end Cache

/-! ### Calls that fail -/

namespace Engine

/-- The routines that the engine keeps, unless its parameters changed since it last compiled. -/
def current (e : Engine) : Cache Compiled :=
  if e.store.version = e.setting.hooks.version then e.store.cache else e.store.cache.clear

theorem cache_freshen (e : Engine) : (e.setting.freshen e.store).cache = e.current := by
  rw [Setting.freshen, current]
  split <;> rfl

/-- A call that fails keeps the routines that are current, and no others. -/
theorem cache_of_compile_error {e : Engine} {template : String} {err : Error}
    (h : (e.compile template).1 = .error err) :
    (e.compile template).2.store.cache = e.current := by
  have hcompile := Kept.compile_eq e.setting template e.store
  cases hget : (e.setting.freshen e.store).cache.get? template with
  | some routine =>
    rw [hget] at hcompile
    rw [compile_ok hcompile] at h
    cases h
  | none =>
    cases hparse : parseProgram e.setting.params (e.setting.source template) with
    | ok program =>
      rw [hget, hparse] at hcompile
      rw [compile_ok hcompile] at h
      cases h
    | error stop =>
      rw [hget, hparse] at hcompile
      rw [compile_error hcompile]
      exact e.cache_freshen

end Engine

/-! ### The life of a cache -/

namespace Cache

variable {α : Type}

/-- A cache that begins without entries is a queue with one place at least, whatever is asked of it:
it holds the names of the queue in their order and answers as the queue does, with the entry last
inserted for a name that is held.  A name that arrives is held until there is a `clear`, or until as
many names as there are places have arrived after it.  And whatever was asked of an engine, a call
to compile that fails leaves the routines that are current. -/
theorem create_refines_queue (bound : Nat) (requests : List (Request α)) :
    let c : Cache α := (create bound).after requests
    let q : Queue α := .start (max bound 1)
    c.size ≤ max bound 1 ∧
    c.entries.names = (q.after requests).names ∧
    (create bound).replies requests = q.replies requests ∧
    (∀ (name : String) (a : α) (later : List (Request α)), name ∉ c.entries.names →
      ((∀ early, early <+: later → name ∈ ((c.insert name a).after early).entries.names) ↔
        .clear ∉ later ∧ (c.insert name a).arrivals later < max bound 1)) ∧
    (∀ (e : Engine) (ops : List Operation) (template : String) (err : Error),
      ((e.after ops).compile template).1 = .error err →
        ((e.after ops).compile template).2.store.cache = (e.after ops).current) := by
  intro c q
  obtain ⟨hreplies, hrefines⟩ := (Refines.create (α := α) bound).after requests
  have hbound : c.bound = max bound 1 := hrefines.bound_eq.trans (q.places_after requests)
  refine ⟨?_, hrefines.names_eq, hreplies, ?_, ?_⟩
  · rw [← hbound]
    exact c.size_le
  · intro name a later hnew
    have hnames := names_insert_of_notMem hnew a
    have hheld := held_throughout_iff hnames later
    rw [List.length_nil, Nat.zero_add] at hheld
    rw [← hbound]
    exact hheld
  · intro e ops template err h
    exact Engine.cache_of_compile_error h

/-- With two places a name outlives one more that arrives, and a routine a template that ends too
soon. -/
theorem create_refines_queue_two :
    (∀ early, early <+: [.insert "b" 5, .insert "d" 4] →
      "c" ∈ ((((create 2).after [.insert "a" 1, .insert "b" 2, .get "a"]).insert "c" 3).after
        early).entries.names) ∧
    (((Engine.create 2).after [.compile "hi"]).compile "[[ ( ]]").2.store.cache
      = ((Engine.create 2).after [.compile "hi"]).current := by
  obtain ⟨-, -, -, hheld, hfails⟩ :=
    create_refines_queue 2 [.insert "a" 1, .insert "b" 2, .get "a"]
  refine ⟨(hheld "c" 3 _ (by decide)).mpr ⟨nofun, by decide⟩, ?_⟩
  have hfailed : (((Engine.create 2).after [.compile "hi"]).compile "[[ ( ]]").1.isOk = false := by
    decide +kernel
  cases h : (((Engine.create 2).after [.compile "hi"]).compile "[[ ( ]]").1 with
  | error err => exact hfails _ _ _ err h
  | ok routine =>
    rw [h] at hfailed
    cases hfailed

end Cache

end Stencil
