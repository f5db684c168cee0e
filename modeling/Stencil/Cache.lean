import Stencil.Roster

/-!
# Bounded caches

A cache holds at most `bound` entries.  A new name that finds the cache full pushes out the entry
that came first; reading an entry never moves it, and an entry given to a known name takes the old
place.  So the names form a queue, first in and first out.

* `Cache.create`, `Cache.clear` — caches without entries;
* `Cache.get?`, `Cache.contains` — reading;
* `Cache.insert` — the only way in, and the only way out besides `clear`.

That the bound is positive and never exceeded is part of the type.
-/

namespace Stencil

/-- How a full cache picks the entry to push out. -/
inductive Eviction where
  /-- The entry that came first goes first. -/
  | firstIn
  deriving DecidableEq, Repr

/-- At most `bound` named entries, in the order in which they came. -/
structure Cache (α : Type) where
  /-- The entries, the one that came first in front. -/
  entries : Roster α
  /-- How many entries there may be. -/
  bound : Nat
  /-- There is room for one entry at least. -/
  bound_pos : 0 < bound
  /-- The bound is kept. -/
  size_le : entries.size ≤ bound

namespace Cache

variable {α : Type}

/-- The cache without entries; a bound of zero counts as one. -/
def create (bound : Nat) : Cache α where
  entries := .empty
  bound := max bound 1
  bound_pos := by omega
  size_le := by simp [Roster.size, Roster.empty]

/-- The bound of a cache that nobody chose one for. -/
def defaultBound : Nat := 100

instance : Inhabited (Cache α) := ⟨create defaultBound⟩

/-- The same cache without its entries. -/
def clear (c : Cache α) : Cache α where
  entries := .empty
  bound := c.bound
  bound_pos := c.bound_pos
  size_le := by simp [Roster.size, Roster.empty]

/-- The entry of a name. -/
def get? (c : Cache α) (name : String) : Option α := c.entries.get? name

/-- Whether the name has an entry. -/
def contains (c : Cache α) (name : String) : Bool := c.entries.contains name

/-- How many entries there are. -/
def size (c : Cache α) : Nat := c.entries.size

/-- Whether there is no entry. -/
def isEmpty (c : Cache α) : Bool := c.size == 0

/-- The way a full cache makes room. -/
def policy (_ : Cache α) : Eviction := .firstIn

/-- The entries that stay when the name is about to come in. -/
def roomFor (c : Cache α) (name : String) : Roster α :=
  if c.contains name then c.entries
  else if c.bound ≤ c.size then c.entries.dropFirst
  else c.entries

theorem lookupName_isSome {name : String} (es : List (String × α)) :
    (lookupName name es).isSome = true ↔ name ∈ es.map Prod.fst := by
  induction es with
  | nil => simp [lookupName]
  | cons e es ih =>
    obtain ⟨key, a⟩ := e
    by_cases h : key = name
    · simp [lookupName, h]
    · have h' : ¬ name = key := fun e => h e.symm
      simp [lookupName, h, h', ih]

theorem length_putName (name : String) (a : α) (es : List (String × α)) :
    (putName name a es).length
      = if name ∈ es.map Prod.fst then es.length else es.length + 1 := by
  have h := congrArg List.length (keys_putName name a es)
  simp only [List.length_map] at h
  rw [h]
  split <;> simp

/-- A name comes in: in its old place, or at the end after room was made. -/
def insert (c : Cache α) (name : String) (a : α) : Cache α where
  entries := (c.roomFor name).insert name a
  bound := c.bound
  bound_pos := c.bound_pos
  size_le := by
    have hpos := c.bound_pos
    have hle := c.size_le
    unfold roomFor
    simp only [Roster.size, Roster.insert, length_putName]
    by_cases hc : c.contains name = true
    · have hm : name ∈ c.entries.entries.map Prod.fst :=
        (lookupName_isSome c.entries.entries).mp hc
      simp only [hc, if_true, hm]
      exact hle
    · simp only [hc, Bool.false_eq_true, if_false]
      by_cases hfull : c.bound ≤ c.size
      · simp only [hfull, if_true, Roster.dropFirst, List.length_drop]
        have hsize : c.size = c.entries.entries.length := rfl
        simp only [Roster.size] at hle
        split <;> omega
      · simp only [hfull, if_false]
        have hsize : c.size = c.entries.entries.length := rfl
        split <;> omega

@[simp] theorem get?_create (bound : Nat) (name : String) :
    (create bound : Cache α).get? name = none := rfl

@[simp] theorem get?_clear (c : Cache α) (name : String) : c.clear.get? name = none := rfl

/-- A name that has just come in is found. -/
theorem get?_insert_self (c : Cache α) (name : String) (a : α) :
    (c.insert name a).get? name = some a := by
  simp [get?, insert]

end Cache

end Stencil
