/-!
# Ordered maps

A finite map from text keys that remembers the order in which keys first appeared. Writing a key
that is present replaces its value where it stands; a new key goes to the end. Rule sets, groups,
the variables of a registry and stylesheets are all of this kind.

This is `IndexMap` with text keys, and a `RuleSet` is one with text values: `insert` is
`RuleSet::set`, `ofList` is its `from_iter`, `get?`, `contains`, `size` and `isEmpty` are its `get`,
`contains`, `len` and `is_empty`, and `entries` is what its `iter` goes through.

Headlines:
* `keys_insert`: what a write does to the key order.
* `get?_insert_self`, `get?_insert_of_ne`: a write is seen at its key and nowhere else.
-/

namespace StyleCompiler

/-! ## Association lists -/

/-- Write `key` into an association list: in place if the key is present, at the end if not. -/
def insertEntry {α : Type} (key : String) (value : α) : List (String × α) → List (String × α)
  | [] => [(key, value)]
  | (k, v) :: rest =>
    if k = key then (key, value) :: rest else (k, v) :: insertEntry key value rest

/-- The value at a key of an association list. -/
def lookupEntry {α : Type} (key : String) : List (String × α) → Option α
  | [] => none
  | (k, v) :: rest => if k = key then some v else lookupEntry key rest

theorem keys_insertEntry {α : Type} (key : String) (value : α) (es : List (String × α)) :
    (insertEntry key value es).map Prod.fst =
      if key ∈ es.map Prod.fst then es.map Prod.fst else es.map Prod.fst ++ [key] := by
  induction es with
  | nil => simp [insertEntry]
  | cons e rest ih =>
    obtain ⟨k, v⟩ := e
    by_cases hk : k = key
    · simp [insertEntry, hk]
    · have hk' : ¬ key = k := fun h => hk h.symm
      simp only [insertEntry, if_neg hk, List.map_cons, ih, List.mem_cons, hk', false_or]
      split <;> rfl

theorem nodup_insertEntry {α : Type} (key : String) (value : α) {es : List (String × α)}
    (h : (es.map Prod.fst).Nodup) : ((insertEntry key value es).map Prod.fst).Nodup := by
  rw [keys_insertEntry]
  split
  · exact h
  · rename_i hk
    rw [List.nodup_append]
    refine ⟨h, by simp, fun a ha b hb => ?_⟩
    rw [List.mem_singleton.mp hb]
    exact fun e => hk (e ▸ ha)

theorem lookupEntry_insertEntry_self {α : Type} (key : String) (value : α)
    (es : List (String × α)) : lookupEntry key (insertEntry key value es) = some value := by
  induction es with
  | nil => simp [insertEntry, lookupEntry]
  | cons e rest ih =>
    obtain ⟨k, v⟩ := e
    by_cases hk : k = key
    · simp [insertEntry, lookupEntry, hk]
    · simp [insertEntry, lookupEntry, hk, ih]

theorem lookupEntry_insertEntry_of_ne {α : Type} {key other : String} (value : α)
    (es : List (String × α)) (h : other ≠ key) :
    lookupEntry other (insertEntry key value es) = lookupEntry other es := by
  have hne : ¬ key = other := fun e => h e.symm
  induction es with
  | nil => simp [insertEntry, lookupEntry, hne]
  | cons e rest ih =>
    obtain ⟨k, v⟩ := e
    by_cases hk : k = key
    · simp [insertEntry, lookupEntry, hk, hne]
    · simp [insertEntry, lookupEntry, hk, ih]

theorem lookupEntry_isSome {α : Type} (key : String) (es : List (String × α)) :
    (lookupEntry key es).isSome = true ↔ key ∈ es.map Prod.fst := by
  induction es with
  | nil => simp [lookupEntry]
  | cons e rest ih =>
    obtain ⟨k, v⟩ := e
    by_cases hk : k = key
    · simp [lookupEntry, hk]
    · have hk' : ¬ key = k := fun h => hk h.symm
      simpa [lookupEntry, hk, hk'] using ih

/-! ## The map -/

/-- A map in order of first appearance: no key occurs twice. -/
structure OrderedMap (α : Type) where
  entries : List (String × α)
  nodup : (entries.map Prod.fst).Nodup
deriving DecidableEq

namespace OrderedMap

variable {α : Type}

/-- The map without entries. -/
def empty : OrderedMap α := ⟨[], by simp⟩

instance : EmptyCollection (OrderedMap α) := ⟨empty⟩

instance : Inhabited (OrderedMap α) := ⟨empty⟩

/-- Write a key: in place if present, at the end if not. -/
def insert (m : OrderedMap α) (key : String) (value : α) : OrderedMap α :=
  ⟨insertEntry key value m.entries, nodup_insertEntry key value m.nodup⟩

/-- The map that results from writing the pairs one after the other. -/
def ofList (pairs : List (String × α)) : OrderedMap α :=
  pairs.foldl (fun m p => m.insert p.1 p.2) empty

/-- The value at a key. -/
def get? (m : OrderedMap α) (key : String) : Option α := lookupEntry key m.entries

/-- Is the key present? -/
def contains (m : OrderedMap α) (key : String) : Bool := (m.get? key).isSome

/-- The keys in order of first appearance. -/
def keys (m : OrderedMap α) : List String := m.entries.map Prod.fst

/-- The values in the order of their keys. -/
def values (m : OrderedMap α) : List α := m.entries.map Prod.snd

/-- The number of keys. -/
def size (m : OrderedMap α) : Nat := m.entries.length

/-- Has the map no entry? -/
def isEmpty (m : OrderedMap α) : Bool := m.entries.isEmpty

@[ext]
theorem ext {m n : OrderedMap α} (h : m.entries = n.entries) : m = n := by
  cases m; cases n; cases h; rfl

@[simp]
theorem entries_empty : (empty : OrderedMap α).entries = [] := rfl

@[simp]
theorem entries_insert (m : OrderedMap α) (key : String) (value : α) :
    (m.insert key value).entries = insertEntry key value m.entries := rfl

theorem keys_insert (m : OrderedMap α) (key : String) (value : α) :
    (m.insert key value).keys = if key ∈ m.keys then m.keys else m.keys ++ [key] :=
  keys_insertEntry key value m.entries

@[simp]
theorem get?_insert_self (m : OrderedMap α) (key : String) (value : α) :
    (m.insert key value).get? key = some value :=
  lookupEntry_insertEntry_self key value m.entries

theorem get?_insert_of_ne (m : OrderedMap α) {key other : String} (value : α)
    (h : other ≠ key) : (m.insert key value).get? other = m.get? other :=
  lookupEntry_insertEntry_of_ne value m.entries h

theorem contains_iff (m : OrderedMap α) (key : String) : m.contains key = true ↔ key ∈ m.keys :=
  lookupEntry_isSome key m.entries

@[simp]
theorem get?_empty (key : String) : (empty : OrderedMap α).get? key = none := rfl

end OrderedMap

end StyleCompiler
