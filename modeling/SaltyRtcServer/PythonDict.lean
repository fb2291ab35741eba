import Mathlib.Data.Fintype.Card
import Mathlib.Data.List.Nodup

/-!
# Insertion-ordered dictionaries

Python's `dict` keeps its keys in the order in which they were first inserted;
assigning to a key that is present keeps its place.  The structure carries the
proof that no key occurs twice, so its length is the number of its keys.
-/

/-- An insertion-ordered finite map. -/
structure PythonDict (Key Value : Type*) where
  entries : List (Key × Value)
  nodup : (entries.map Prod.fst).Nodup

namespace PythonDict

variable {Key Value : Type*}

/-- The empty dictionary `{}`. -/
def empty : PythonDict Key Value := ⟨[], List.nodup_nil⟩

/-- `dict.keys()`, in insertion order. -/
def keys (dict : PythonDict Key Value) : List Key := dict.entries.map Prod.fst

/-- `len(dict)`. -/
def length (dict : PythonDict Key Value) : Nat := dict.entries.length

@[simp]
theorem keys_empty : (empty : PythonDict Key Value).keys = [] :=
  rfl

@[simp]
theorem length_empty : (empty : PythonDict Key Value).length = 0 :=
  rfl

theorem length_keys (dict : PythonDict Key Value) : dict.keys.length = dict.length := by
  simp [keys, length]

theorem nodup_keys (dict : PythonDict Key Value) : dict.keys.Nodup := dict.nodup

variable [DecidableEq Key]

/-- `dict.get(key)`. -/
def get? (dict : PythonDict Key Value) (key : Key) : Option Value :=
  dict.entries.lookup key

/-- Assign in place to the entry of `key`. -/
def replaceEntry (key : Key) (value : Value) (entry : Key × Value) : Key × Value :=
  if entry.1 = key then (key, value) else entry

theorem map_fst_replaceEntry (key : Key) (value : Value) (entries : List (Key × Value)) :
    (entries.map (replaceEntry key value)).map Prod.fst = entries.map Prod.fst := by
  rw [List.map_map]
  apply List.map_congr_left
  rintro ⟨other, _⟩ _
  by_cases same : other = key <;> simp [replaceEntry, same]

/-- `dict[key] = value`. -/
def set (dict : PythonDict Key Value) (key : Key) (value : Value) :
    PythonDict Key Value :=
  if present : key ∈ dict.keys then
    ⟨dict.entries.map (replaceEntry key value), by
      rw [map_fst_replaceEntry]
      exact dict.nodup⟩
  else
    ⟨dict.entries ++ [(key, value)], by
      rw [List.map_append, List.map_singleton, List.nodup_append]
      refine ⟨dict.nodup, List.nodup_singleton _, ?_⟩
      intro other otherMem last lastMem
      rw [List.mem_singleton.mp lastMem]
      rintro rfl
      exact present otherMem⟩

theorem entries_set_of_notMem {dict : PythonDict Key Value} {key : Key} (absent : key ∉ dict.keys)
    (value : Value) : (dict.set key value).entries = dict.entries ++ [(key, value)] := by
  rw [set, dif_neg absent]

theorem keys_set_of_notMem {dict : PythonDict Key Value} {key : Key} (absent : key ∉ dict.keys)
    (value : Value) : (dict.set key value).keys = dict.keys ++ [key] := by
  rw [keys, entries_set_of_notMem absent, List.map_append]
  rfl

/-- `del dict[key]`, for a key that may be absent. -/
def erase (dict : PythonDict Key Value) (key : Key) : PythonDict Key Value :=
  ⟨dict.entries.filter fun entry => entry.1 ≠ key,
    dict.nodup.sublist (List.Sublist.map _ List.filter_sublist)⟩

@[simp]
theorem get?_empty (key : Key) : (empty : PythonDict Key Value).get? key = none :=
  rfl

theorem get?_eq_none_iff (dict : PythonDict Key Value) (key : Key) :
    dict.get? key = none ↔ key ∉ dict.keys := by
  simp only [get?, keys, List.lookup_eq_none_iff, bne_iff_ne, List.mem_map, not_exists, not_and]
  exact forall₂_congr fun _ _ => ne_comm

theorem isSome_get?_iff (dict : PythonDict Key Value) (key : Key) :
    (dict.get? key).isSome ↔ key ∈ dict.keys := by
  rw [← not_iff_not, ← get?_eq_none_iff]
  simp

theorem mem_keys_of_get? {dict : PythonDict Key Value} {key : Key} {value : Value}
    (found : dict.get? key = some value) : key ∈ dict.keys := by
  rw [← isSome_get?_iff, found]
  rfl

theorem mem_entries_of_get? {dict : PythonDict Key Value} {key : Key} {value : Value}
    (found : dict.get? key = some value) : (key, value) ∈ dict.entries := by
  obtain ⟨early, late, entries, _⟩ := List.lookup_eq_some_iff.mp found
  rw [entries]
  exact List.mem_append_right _ List.mem_cons_self

theorem get?_of_mem_entries {dict : PythonDict Key Value} {key : Key} {value : Value}
    (mem : (key, value) ∈ dict.entries) : dict.get? key = some value := by
  obtain ⟨entries, nodup⟩ := dict
  simp only [get?] at mem ⊢
  induction entries with
  | nil => contradiction
  | cons entry rest ih =>
      obtain ⟨other, stored⟩ := entry
      rw [List.map_cons, List.nodup_cons] at nodup
      rcases List.mem_cons.mp mem with same | later
      · injection same with sameKey sameValue
        simp [sameKey, sameValue]
      · have ne : key ≠ other := by
          rintro rfl
          exact nodup.1 (List.mem_map.mpr ⟨_, later, rfl⟩)
        have unequal : (key == other) = false := by simpa using ne
        rw [List.lookup_cons, unequal]
        exact ih nodup.2 later

private theorem lookup_map_replaceEntry (entries : List (Key × Value))
    (key other : Key) (value : Value) :
    (entries.map (replaceEntry key value)).lookup other =
      if other = key ∧ key ∈ entries.map Prod.fst then some value
      else entries.lookup other := by
  induction entries with
  | nil => simp
  | cons entry rest ih =>
      obtain ⟨head, old⟩ := entry
      by_cases atHead : head = key
      · subst head
        by_cases same : other = key
        · simp [replaceEntry, same]
        · have differs : (other == key) = false := by simpa using same
          simp [replaceEntry, List.lookup_cons, differs, ih, same]
      · by_cases same : other = head
        · subst other
          simp [replaceEntry, atHead]
        · have differs : (other == head) = false := by simpa using same
          have elsewhere : key ≠ head := Ne.symm atHead
          simp only [List.map_cons, replaceEntry, atHead, if_false, List.lookup_cons,
            differs, List.mem_cons, elsewhere, false_or]
          exact ih

private theorem lookup_append_singleton (entries : List (Key × Value))
    (key other : Key) (value : Value) (absent : key ∉ entries.map Prod.fst) :
    (entries ++ [(key, value)]).lookup other =
      if other = key then some value else entries.lookup other := by
  induction entries with
  | nil =>
      by_cases same : other = key
      · simp [same]
      · have differs : (other == key) = false := by simpa using same
        simp [List.lookup_cons, differs, same]
  | cons entry rest ih =>
      obtain ⟨head, old⟩ := entry
      simp only [List.map_cons, List.mem_cons, not_or] at absent
      by_cases same : other = head
      · subst other
        simp [Ne.symm absent.1]
      · have differs : (other == head) = false := by simpa using same
        simp [List.lookup_cons, differs, ih absent.2]

@[simp, grind =]
theorem get?_set (dict : PythonDict Key Value) (key other : Key) (value : Value) :
    (dict.set key value).get? other =
      if other = key then some value else dict.get? other := by
  by_cases present : key ∈ dict.keys
  · have memFst : key ∈ dict.entries.map Prod.fst := present
    simp only [set, present, dite_true, get?, lookup_map_replaceEntry, memFst, and_true]
  · simp only [set, present, dite_false, get?]
    exact lookup_append_singleton dict.entries key other value present

private theorem lookup_filter (entries : List (Key × Value)) (key other : Key) :
    (entries.filter fun entry => entry.1 ≠ key).lookup other =
      if other = key then none else entries.lookup other := by
  induction entries with
  | nil => simp
  | cons entry rest ih =>
      obtain ⟨head, old⟩ := entry
      by_cases atHead : head = key
      · subst head
        by_cases same : other = key
        · simpa [same] using ih
        · have differs : (other == key) = false := by simpa using same
          simpa [List.lookup_cons, differs, same] using ih
      · by_cases same : other = head
        · subst other
          simp [atHead]
        · have differs : (other == head) = false := by simpa using same
          simpa [atHead, List.lookup_cons, differs] using ih

@[simp, grind =]
theorem get?_erase (dict : PythonDict Key Value) (key other : Key) :
    (dict.erase key).get? other = if other = key then none else dict.get? other :=
  lookup_filter dict.entries key other

/-- Deleting a key that is absent changes nothing. -/
theorem erase_of_get?_none {dict : PythonDict Key Value} {key : Key}
    (absent : dict.get? key = none) : dict.erase key = dict := by
  rw [get?_eq_none_iff] at absent
  obtain ⟨entries, nodup⟩ := dict
  simp only [erase, mk.injEq, List.filter_eq_self, decide_eq_true_eq]
  rintro entry mem rfl
  exact absent (List.mem_map_of_mem mem)

/-- The number of entries is the number of keys that answer a lookup. -/
theorem length_eq_card_keys (dict : PythonDict Key Value) :
    dict.length = dict.keys.toFinset.card := by
  rw [List.toFinset_card_of_nodup dict.nodup_keys, length_keys]

theorem length_eq_zero_iff (dict : PythonDict Key Value) :
    dict.length = 0 ↔ ∀ key, dict.get? key = none := by
  simp only [get?_eq_none_iff, ← length_keys, List.length_eq_zero_iff]
  exact List.eq_nil_iff_forall_not_mem

omit [DecidableEq Key] in
theorem length_eq_zero_iff_eq_empty (dict : PythonDict Key Value) :
    dict.length = 0 ↔ dict = empty := by
  obtain ⟨entries, nodup⟩ := dict
  simp [length, empty]

/-- A dictionary over a finite type of keys is full exactly when every key has
an entry. -/
theorem card_le_length_iff [Fintype Key] (dict : PythonDict Key Value) :
    Fintype.card Key ≤ dict.length ↔ ∀ key, (dict.get? key).isSome := by
  simp only [isSome_get?_iff]
  constructor
  · intro full key
    have univ : dict.keys.toFinset = Finset.univ := by
      apply Finset.eq_univ_of_card
      apply le_antisymm (Finset.card_le_univ _)
      rwa [← length_eq_card_keys]
    simpa using (univ ▸ Finset.mem_univ key : key ∈ dict.keys.toFinset)
  · intro all
    have univ : dict.keys.toFinset = Finset.univ := by
      ext key
      simpa using all key
    rw [length_eq_card_keys, univ, Finset.card_univ]

end PythonDict
