/-!
# Rosters

A roster maps names to entries and remembers the order in which the names first came.  Objects of
the routine language, registries of fragments and layouts, catalogs of messages and the cache of
routines are all rosters, so what they promise about order is promised here once:

* `Roster.insert` — a new name goes to the end, a known one keeps its place;
* `Roster.erase` — the names that stay keep their order;
* `Roster.get?` — the entry of a name.

No name occurs twice (`Roster.nodup`), and the main statements give `get?` after each operation and
the list of names after `insert`.
-/

namespace Stencil

variable {α : Type}

/-- The entry under a name in a list of named entries. -/
def lookupName (name : String) : List (String × α) → Option α
  | [] => none
  | (key, a) :: rest => if key = name then some a else lookupName name rest

/-- A list of named entries with the entry under a name replaced, or added at the end. -/
def putName (name : String) (a : α) : List (String × α) → List (String × α)
  | [] => [(name, a)]
  | (key, b) :: rest => if key = name then (key, a) :: rest else (key, b) :: putName name a rest

/-- A list of named entries without the entry under a name. -/
def dropName (name : String) : List (String × α) → List (String × α)
  | [] => []
  | (key, b) :: rest => if key = name then rest else (key, b) :: dropName name rest

theorem keys_putName (name : String) (a : α) (es : List (String × α)) :
    (putName name a es).map Prod.fst
      = if name ∈ es.map Prod.fst then es.map Prod.fst else es.map Prod.fst ++ [name] := by
  induction es with
  | nil => simp [putName]
  | cons e es ih =>
    obtain ⟨key, b⟩ := e
    by_cases h : key = name
    · simp [putName, h]
    · have h' : ¬ name = key := fun e => h e.symm
      simp only [putName, h, if_false, List.map_cons, ih, List.mem_cons, h', false_or]
      split <;> simp

theorem keys_dropName_sublist (name : String) (es : List (String × α)) :
    ((dropName name es).map Prod.fst).Sublist (es.map Prod.fst) := by
  induction es with
  | nil => simp [dropName]
  | cons e es ih =>
    obtain ⟨key, b⟩ := e
    by_cases h : key = name
    · simp [dropName, h]
    · simpa [dropName, h] using ih

theorem nodup_putName {name : String} {a : α} {es : List (String × α)}
    (h : (es.map Prod.fst).Nodup) : ((putName name a es).map Prod.fst).Nodup := by
  rw [keys_putName]
  split
  · exact h
  · rename_i hn
    rw [List.nodup_append]
    refine ⟨h, by simp, ?_⟩
    intro x hx y hy
    rw [List.mem_singleton] at hy
    subst hy
    exact fun e => hn (e ▸ hx)

theorem nodup_dropName {name : String} {es : List (String × α)}
    (h : (es.map Prod.fst).Nodup) : ((dropName name es).map Prod.fst).Nodup :=
  h.sublist (keys_dropName_sublist name es)

theorem lookupName_putName (name other : String) (a : α) (es : List (String × α)) :
    lookupName other (putName name a es)
      = if name = other then some a else lookupName other es := by
  induction es with
  | nil => simp [putName, lookupName]
  | cons e es ih =>
    obtain ⟨key, b⟩ := e
    by_cases h : key = name
    · subst h
      by_cases ho : key = other <;> simp [putName, lookupName, ho]
    · by_cases hk : key = other
      · subst hk
        have hn : ¬ name = key := fun e => h e.symm
        simp [putName, lookupName, h, hn]
      · simp [putName, lookupName, h, hk, ih]

theorem lookupName_of_notMem {name : String} {es : List (String × α)}
    (h : name ∉ es.map Prod.fst) : lookupName name es = none := by
  induction es with
  | nil => rfl
  | cons e es ih =>
    obtain ⟨key, b⟩ := e
    rw [List.map_cons, List.mem_cons, not_or] at h
    rw [lookupName, if_neg (Ne.symm h.1), ih h.2]

theorem lookupName_dropName (name other : String) {es : List (String × α)}
    (h : (es.map Prod.fst).Nodup) :
    lookupName other (dropName name es) = if name = other then none else lookupName other es := by
  induction es with
  | nil => simp [dropName, lookupName]
  | cons e es ih =>
    obtain ⟨key, b⟩ := e
    rw [List.map_cons, List.nodup_cons] at h
    by_cases hname : key = name
    · subst hname
      by_cases hother : key = other
      · subst hother
        simp [dropName, lookupName_of_notMem h.1]
      · simp [dropName, lookupName, hother]
    · by_cases hother : key = other
      · subst hother
        simp [dropName, lookupName, hname, Ne.symm hname]
      · simp [dropName, lookupName, hname, hother, ih h.2]

theorem mem_putName {name : String} {a : α} {es : List (String × α)} {e : String × α}
    (h : e ∈ putName name a es) : e ∈ es ∨ e.2 = a := by
  induction es with
  | nil => exact .inr (congrArg Prod.snd (List.mem_singleton.mp h))
  | cons e' es ih =>
    obtain ⟨key, b⟩ := e'
    simp only [putName] at h
    split at h
    · rcases List.mem_cons.mp h with rfl | h
      · exact .inr rfl
      · exact .inl (List.mem_cons_of_mem _ h)
    · rcases List.mem_cons.mp h with rfl | h
      · exact .inl List.mem_cons_self
      · exact (ih h).imp_left (List.mem_cons_of_mem _)

theorem mem_of_lookupName {name : String} {a : α} {es : List (String × α)}
    (h : lookupName name es = some a) : (name, a) ∈ es := by
  induction es with
  | nil => cases h
  | cons e es ih =>
    obtain ⟨key, b⟩ := e
    simp only [lookupName] at h
    split at h
    · rename_i hkey
      cases h
      rw [hkey]
      exact List.mem_cons_self
    · exact List.mem_cons_of_mem _ (ih h)

/-- Where no name occurs twice, an entry is found under its name. -/
theorem lookupName_eq_some_iff {name : String} {a : α} {es : List (String × α)}
    (h : (es.map Prod.fst).Nodup) : lookupName name es = some a ↔ (name, a) ∈ es := by
  refine ⟨mem_of_lookupName, fun hmem => ?_⟩
  induction es with
  | nil => cases hmem
  | cons e es ih =>
    obtain ⟨key, b⟩ := e
    rw [List.map_cons, List.nodup_cons] at h
    rcases List.mem_cons.mp hmem with heq | hmem
    · cases heq
      exact if_pos rfl
    · have hne : key ≠ name := fun hkey =>
        h.1 (List.mem_map.mpr ⟨(name, a), hmem, hkey.symm⟩)
      rw [lookupName, if_neg hne]
      exact ih h.2 hmem

/-- Where no name occurs twice, the order does not matter. -/
theorem lookupName_perm {es es' : List (String × α)} (h : (es.map Prod.fst).Nodup)
    (hperm : es.Perm es') (name : String) : lookupName name es = lookupName name es' := by
  have h' : (es'.map Prod.fst).Nodup := (hperm.map Prod.fst).nodup_iff.mp h
  refine Option.ext fun a => ?_
  rw [lookupName_eq_some_iff h, lookupName_eq_some_iff h', hperm.mem_iff]

/-- Named entries in the order in which their names first came. -/
structure Roster (α : Type) where
  /-- The entries with their names. -/
  entries : List (String × α) := []
  /-- No name occurs twice. -/
  nodup : (entries.map Prod.fst).Nodup := by simp

namespace Roster

instance : Inhabited (Roster α) := ⟨{}⟩

/-- The roster without entries. -/
def empty : Roster α := {}

/-- The entry of a name. -/
def get? (r : Roster α) (name : String) : Option α := lookupName name r.entries

/-- Whether the name has an entry. -/
def contains (r : Roster α) (name : String) : Bool := (r.get? name).isSome

/-- The names in order. -/
def names (r : Roster α) : List String := r.entries.map Prod.fst

/-- How many names there are. -/
def size (r : Roster α) : Nat := r.entries.length

/-- Gives the name an entry: in its old place if it is known, else at the end. -/
def insert (r : Roster α) (name : String) (a : α) : Roster α :=
  ⟨putName name a r.entries, nodup_putName r.nodup⟩

/-- Removes the name and its entry. -/
def erase (r : Roster α) (name : String) : Roster α :=
  ⟨dropName name r.entries, nodup_dropName r.nodup⟩

/-- The roster without its earliest entry. -/
def dropFirst (r : Roster α) : Roster α :=
  ⟨r.entries.drop 1, r.nodup.sublist ((List.drop_sublist 1 _).map _)⟩

/-- Inserts every pair, from first to last. -/
def insertAll (r : Roster α) (pairs : List (String × α)) : Roster α :=
  pairs.foldl (fun r pair => r.insert pair.1 pair.2) r

/-- The roster of a list of pairs; of two pairs with one name the later gives the entry. -/
def ofList (pairs : List (String × α)) : Roster α := empty.insertAll pairs

/-- A roster is its entries. -/
theorem ext {r r' : Roster α} (h : r.entries = r'.entries) : r = r' := by
  cases r
  cases r'
  cases h
  rfl

@[simp] theorem get?_empty (name : String) : (empty : Roster α).get? name = none := rfl

@[simp] theorem get?_insert (r : Roster α) (name other : String) (a : α) :
    (r.insert name a).get? other = if name = other then some a else r.get? other :=
  lookupName_putName name other a r.entries

@[simp] theorem get?_erase (r : Roster α) (name other : String) :
    (r.erase name).get? other = if name = other then none else r.get? other :=
  lookupName_dropName name other r.nodup

/-- A new name goes to the end, and a known one leaves the order as it is. -/
theorem names_insert (r : Roster α) (name : String) (a : α) :
    (r.insert name a).names = if name ∈ r.names then r.names else r.names ++ [name] :=
  keys_putName name a r.entries

end Roster

end Stencil
