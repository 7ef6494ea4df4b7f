import Mathlib.Data.List.Induction
import StyleCompiler.Declaration

/-!
# Ordered maps written pair by pair

What a map holds after a list of writes, read off the list: the keys stand in order of first
occurrence, and each has the value of its last occurrence.

* `keys_ofList`: the keys are the distinct keys written.
* `get?_ofList`: the value at a key is that of the last pair with the key.
* `get?_ofList_eq_some_iff`: the same, by the place of that pair in the list.
* `get?_of_mem`: an entry is found at its key.
* `mem_of_mem_ofList`: every entry of a map is one of the pairs written.
* `ofList_entries`: a map is what writing its entries gives.
* `mem_values_of_get?`: what is found at a key is among the values.
* `entries_ofList_map`: to change keys, none of them into another, and values before the pairs are
  written is to change them afterwards.
* `ruleSet_merges_pairs`: all of this of the rule set that pairs were written into.
-/

namespace StyleCompiler

/-- A further element joins the distinct ones iff it is new. -/
theorem eraseDups_concat (xs : List String) (x : String) :
    (xs ++ [x]).eraseDups = if x ∈ xs then xs.eraseDups else xs.eraseDups ++ [x] := by
  rw [List.eraseDups_append]
  by_cases h : x ∈ xs
  · simp [List.removeAll, h]
  · simp [List.removeAll, h, List.eraseDups_cons]

namespace OrderedMap

variable {α : Type}

theorem ofList_concat (pairs : List (String × α)) (p : String × α) :
    ofList (pairs ++ [p]) = (ofList pairs).insert p.1 p.2 := by
  simp [ofList, List.foldl_append]

/-- The keys are the distinct keys written, in order of first occurrence. -/
theorem keys_ofList (pairs : List (String × α)) :
    (ofList pairs).keys = (pairs.map Prod.fst).eraseDups := by
  induction pairs using List.reverseRecOn with
  | nil => rfl
  | append_singleton pairs p ih =>
    rw [ofList_concat, keys_insert, List.map_append, List.map_singleton, eraseDups_concat, ih]
    simp only [List.mem_eraseDups]

/-- A key is present after the writes iff one of them has it. -/
theorem contains_ofList {pairs : List (String × α)} {key : String} :
    (ofList pairs).contains key = true ↔ key ∈ pairs.map Prod.fst := by
  rw [contains_iff, keys_ofList, List.mem_eraseDups]

/-- The value at a key is that of the last pair with the key. -/
theorem get?_ofList (pairs : List (String × α)) (key : String) :
    (ofList pairs).get? key = ((pairs.filter fun p => p.1 = key).getLast?).map Prod.snd := by
  induction pairs using List.reverseRecOn with
  | nil => rfl
  | append_singleton pairs p ih =>
    rw [ofList_concat, List.filter_append]
    by_cases h : p.1 = key
    · subst h
      rw [get?_insert_self]
      simp
    · rw [get?_insert_of_ne _ _ (fun e => h e.symm), ih]
      simp [h]

theorem mem_of_lookupEntry {key : String} {value : α} {es : List (String × α)}
    (h : lookupEntry key es = some value) : (key, value) ∈ es := by
  induction es with
  | nil => simp [lookupEntry] at h
  | cons e rest ih =>
    obtain ⟨k, v⟩ := e
    simp only [lookupEntry] at h
    split at h
    · rename_i hk
      obtain rfl := Option.some.inj h
      rw [hk]
      exact List.mem_cons_self
    · exact List.mem_cons_of_mem _ (ih h)

theorem lookupEntry_of_mem {key : String} {value : α} {es : List (String × α)}
    (hnodup : (es.map Prod.fst).Nodup) (h : (key, value) ∈ es) :
    lookupEntry key es = some value := by
  induction es with
  | nil => exact absurd h List.not_mem_nil
  | cons e rest ih =>
    obtain ⟨k, v⟩ := e
    rw [List.map_cons, List.nodup_cons] at hnodup
    simp only [lookupEntry]
    rcases List.mem_cons.mp h with h | h
    · obtain ⟨rfl, rfl⟩ := Prod.mk.inj h
      rw [if_pos rfl]
    · have hne : k ≠ key := by
        rintro rfl
        exact hnodup.1 (List.mem_map.mpr ⟨(k, value), h, rfl⟩)
      rw [if_neg hne]
      exact ih hnodup.2 h

/-- An entry is found at its key. -/
theorem get?_of_mem {m : OrderedMap α} {key : String} {value : α}
    (h : (key, value) ∈ m.entries) : m.get? key = some value :=
  lookupEntry_of_mem m.nodup h

/-- The entries are what is found at the keys. -/
theorem get?_eq_some_iff {m : OrderedMap α} {key : String} {value : α} :
    m.get? key = some value ↔ (key, value) ∈ m.entries :=
  ⟨mem_of_lookupEntry, get?_of_mem⟩

theorem size_eq_length_keys (m : OrderedMap α) : m.size = m.keys.length := by
  rw [size, keys, List.length_map]

/-- Every entry of the map was written. -/
theorem mem_of_mem_ofList {pairs : List (String × α)} {p : String × α}
    (h : p ∈ (ofList pairs).entries) : p ∈ pairs := by
  have hget : (ofList pairs).get? p.1 = some p.2 := get?_of_mem h
  rw [get?_ofList] at hget
  obtain ⟨last, hlast, hvalue⟩ := Option.map_eq_some_iff.mp hget
  obtain ⟨hmem, hkey⟩ := List.mem_filter.mp (List.mem_of_getLast? hlast)
  obtain rfl : last = p := Prod.ext (of_decide_eq_true hkey) hvalue
  exact hmem

theorem insertEntry_of_notMem {key : String} (value : α) {es : List (String × α)}
    (h : key ∉ es.map Prod.fst) : insertEntry key value es = es ++ [(key, value)] := by
  induction es with
  | nil => rfl
  | cons e rest ih =>
    obtain ⟨k, v⟩ := e
    rw [List.map_cons, List.mem_cons, not_or] at h
    rw [insertEntry, if_neg (Ne.symm h.1), ih h.2]
    rfl

/-- Pairs with distinct keys stay as they were written. -/
theorem entries_ofList {pairs : List (String × α)} (h : (pairs.map Prod.fst).Nodup) :
    (ofList pairs).entries = pairs := by
  induction pairs using List.reverseRecOn with
  | nil => rfl
  | append_singleton pairs p ih =>
    rw [List.map_append, List.map_singleton, List.nodup_append] at h
    obtain ⟨hpairs, -, hnew⟩ := h
    have hkey : p.1 ∉ pairs.map Prod.fst := fun hmem => hnew p.1 hmem p.1 (by simp) rfl
    rw [ofList_concat, entries_insert, ih hpairs, insertEntry_of_notMem p.2 hkey]

/-- A map is what writing its entries gives. -/
@[simp]
theorem ofList_entries (m : OrderedMap α) : ofList m.entries = m :=
  ext (entries_ofList m.nodup)

/-- What is found at a key is among the values. -/
theorem mem_values_of_get? {m : OrderedMap α} {key : String} {value : α}
    (h : m.get? key = some value) : value ∈ m.values :=
  List.mem_map.mpr ⟨(key, value), mem_of_lookupEntry h, rfl⟩

/-! ## Last writes -/

/-- The value is that of the last pair with the key. -/
def LastWrite (pairs : List (String × α)) (key : String) (value : α) : Prop :=
  ∃ before after, pairs = before ++ (key, value) :: after ∧ key ∉ after.map Prod.fst

theorem getLast?_filter_eq_some_iff {pairs : List (String × α)} {key : String} {value : α} :
    ((pairs.filter fun p => p.1 = key).getLast?).map Prod.snd = some value ↔
      LastWrite pairs key value := by
  constructor
  · intro h
    obtain ⟨⟨k, v⟩, hlast, rfl⟩ := Option.map_eq_some_iff.mp h
    obtain ⟨front, hfront⟩ := List.getLast?_eq_some_iff.mp hlast
    obtain ⟨left, right, rfl, -, hright⟩ := List.filter_eq_append_iff.mp hfront
    obtain ⟨skipped, after, rfl, -, hkey, hafter⟩ := List.filter_eq_cons_iff.mp hright
    obtain rfl : k = key := of_decide_eq_true hkey
    refine ⟨left ++ skipped, after, by simp, fun hmem => ?_⟩
    obtain ⟨p, hp, hpkey⟩ := List.mem_map.mp hmem
    exact List.filter_eq_nil_iff.mp hafter p hp (decide_eq_true hpkey)
  · rintro ⟨before, after, rfl, hafter⟩
    have hnone : after.filter (fun p => p.1 = key) = [] := by
      rw [List.filter_eq_nil_iff]
      intro p hp hpkey
      exact hafter (List.mem_map.mpr ⟨p, hp, of_decide_eq_true hpkey⟩)
    simp [List.filter_append, hnone]

/-- The value at a key is the one that was written last. -/
theorem get?_ofList_eq_some_iff {pairs : List (String × α)} {key : String} {value : α} :
    (ofList pairs).get? key = some value ↔ LastWrite pairs key value := by
  rw [get?_ofList, getLast?_filter_eq_some_iff]

/-- What a map holds that the pairs were written into, one after the other. -/
structure Merges (pairs : List (String × α)) (m : OrderedMap α) : Prop where
  /-- The entries stand in order of first occurrence, each key once. -/
  order : m.entries.map Prod.fst = (pairs.map Prod.fst).eraseDups
  /-- An entry has the value of the last occurrence of its key. -/
  values : ∀ key value, (key, value) ∈ m.entries ↔ LastWrite pairs key value
  /-- What is found at a key is what its entry has. -/
  get : ∀ key value, m.get? key = some value ↔ (key, value) ∈ m.entries
  /-- The keys present are those of the entries. -/
  contains : ∀ key, m.contains key = true ↔ key ∈ m.entries.map Prod.fst
  /-- The size is the number of distinct keys. -/
  size : m.size = (pairs.map Prod.fst).eraseDups.length
  /-- Writing the entries one after the other gives the map again. -/
  again : ofList m.entries = m

/-! ## Changed keys -/

section Changed

variable {β : Type} (f : String → String) (g : α → β)

theorem insertEntry_map (key : String) (value : α) {es : List (String × α)}
    (hinj : ∀ k ∈ es.map Prod.fst, f k = f key → k = key) :
    insertEntry (f key) (g value) (es.map (Prod.map f g)) =
      (insertEntry key value es).map (Prod.map f g) := by
  induction es with
  | nil => rfl
  | cons e rest ih =>
    obtain ⟨k, v⟩ := e
    rw [List.map_cons, List.forall_mem_cons] at hinj
    by_cases hk : k = key
    · subst hk
      simp [insertEntry]
    · have hfk : ¬ f k = f key := fun h => hk (hinj.1 h)
      simp only [List.map_cons, Prod.map_apply, insertEntry, if_neg hk, if_neg hfk, ih hinj.2]

/-- To change the keys, none of them into another, and the values before the pairs are written is
to change them afterwards. -/
theorem entries_ofList_map {pairs : List (String × α)}
    (hinj : ∀ k ∈ pairs.map Prod.fst, ∀ l ∈ pairs.map Prod.fst, f k = f l → k = l) :
    (ofList (pairs.map (Prod.map f g))).entries = (ofList pairs).entries.map (Prod.map f g) := by
  induction pairs using List.reverseRecOn with
  | nil => rfl
  | append_singleton pairs p ih =>
    have hbefore : ∀ k ∈ pairs.map Prod.fst, k ∈ (pairs ++ [p]).map Prod.fst := by
      intro k hk
      rw [List.map_append]
      exact List.mem_append_left _ hk
    have hlast : ∀ k ∈ (ofList pairs).entries.map Prod.fst, f k = f p.1 → k = p.1 := by
      intro k hk
      have hkeys : k ∈ (ofList pairs).keys := hk
      rw [keys_ofList, List.mem_eraseDups] at hkeys
      exact hinj k (hbefore k hkeys) p.1 (by simp)
    rw [List.map_append, List.map_singleton, ofList_concat, ofList_concat, entries_insert,
      entries_insert, ih fun k hk l hl => hinj k (hbefore k hk) l (hbefore l hl)]
    exact insertEntry_map f g p.1 p.2 hlast

end Changed

end OrderedMap

/-! ## Rule sets -/

open OrderedMap

/-- **First position, last value.** Write any pairs of properties and values into a rule set, one
after the other. Its rules are the distinct properties in order of first occurrence, each with the
value of its last occurrence; looking up, asking for a property and counting agree with them, and
writing them once more gives the same rule set. -/
theorem ruleSet_merges_pairs (pairs : List (String × String)) :
    Merges pairs (ofList pairs : RuleSet) where
  order := keys_ofList pairs
  values key value := by rw [← get?_eq_some_iff, get?_ofList_eq_some_iff]
  get _ _ := get?_eq_some_iff
  contains key := contains_iff _ key
  size := by rw [size_eq_length_keys, keys_ofList]
  again := ofList_entries _

/-- Values that are overwritten leave the order as it was. -/
example :
    (ofList [("padding", "1px"), ("margin", "0"), ("padding", "2px"), ("margin", "auto")]).entries =
      [("padding", "2px"), ("margin", "auto")] := by
  decide

end StyleCompiler
