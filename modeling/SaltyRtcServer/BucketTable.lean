import Mathlib.Data.List.FinRange
import Mathlib.Logic.Function.Basic
import SaltyRtcServer.PythonDict

/-!
# Tables of buckets

A hash table keeps each entry in the bucket that its key is placed in, and
searches that bucket only.  A key can be replaced by another one in its place,
or be entered anew before the old entry is deleted; nothing else changes if the
new key can take the place of the old one.
-/

/-- One key of a map was replaced by another one, and nothing else changed. -/
structure Rekeyed {Key Value : Type*} (key new : Key) (before after : List Key)
    (get getAfter : Key → Option Value) : Prop where
  length : after.length = before.length
  distinct : after.Nodup
  others : ∀ other ∈ before, other ≠ key → getAfter other = get other
  found : getAfter new = get key

namespace Bucket

variable {Key Value : Type*} [DecidableEq Key]

/-- Assign to the entry of the key, or append one. -/
def set (key : Key) (value : Value) : List (Key × Value) → List (Key × Value)
  | [] => [(key, value)]
  | entry :: rest =>
      if key = entry.1 then (key, value) :: rest else entry :: set key value rest

/-- Take out the entry of the key. -/
def delete (key : Key) : List (Key × Value) → List (Key × Value)
  | [] => []
  | entry :: rest => if key = entry.1 then rest else entry :: delete key rest

/-- Give the entry of the key another key. -/
def rekey (key new : Key) : List (Key × Value) → List (Key × Value)
  | [] => []
  | entry :: rest =>
      if key = entry.1 then (new, entry.2) :: rest else entry :: rekey key new rest

variable {key : Key} {value : Value} {bucket : List (Key × Value)}

theorem delete_sublist (key : Key) (bucket : List (Key × Value)) :
    (delete key bucket).Sublist bucket := by
  induction bucket with
  | nil => exact List.Sublist.slnil
  | cons entry rest ih =>
      rw [delete]
      split
      · exact List.sublist_cons_self entry rest
      · exact ih.cons_cons entry

theorem mem_set {entry : Key × Value} (mem : entry ∈ set key value bucket) :
    entry.1 = key ∨ entry ∈ bucket := by
  induction bucket with
  | nil => exact .inl (congrArg Prod.fst (List.mem_singleton.mp mem))
  | cons first rest ih =>
      rw [set] at mem
      split at mem
      · rcases List.mem_cons.mp mem with rfl | later
        · exact .inl rfl
        · exact .inr (List.mem_cons_of_mem first later)
      · rcases List.mem_cons.mp mem with rfl | later
        · exact .inr List.mem_cons_self
        · exact (ih later).imp_right (List.mem_cons_of_mem first)

theorem nodup_set (distinct : (bucket.map Prod.fst).Nodup) :
    ((set key value bucket).map Prod.fst).Nodup := by
  induction bucket with
  | nil => exact List.nodup_singleton key
  | cons first rest ih =>
      rw [List.map_cons, List.nodup_cons] at distinct
      rw [set]
      split
      · next same =>
        rw [List.map_cons, List.nodup_cons, same]
        exact distinct
      · next differs =>
        rw [List.map_cons, List.nodup_cons]
        refine ⟨?_, ih distinct.2⟩
        rintro later
        obtain ⟨entry, mem, same⟩ := List.mem_map.mp later
        rcases mem_set mem with new | old
        · exact differs (new.symm.trans same)
        · exact distinct.1 (List.mem_map.mpr ⟨entry, old, same⟩)

/-- Both operations act on the first entry of the key. -/
theorem exists_split (found : bucket.lookup key = some value) : ∃ front back,
    bucket = front ++ (key, value) :: back ∧ delete key bucket = front ++ back ∧
      ∀ new, rekey key new bucket = front ++ (new, value) :: back := by
  induction bucket with
  | nil => contradiction
  | cons entry rest ih =>
      by_cases same : key = entry.1
      · obtain ⟨first, stored⟩ := entry
        obtain rfl : key = first := same
        rw [List.lookup_cons_self] at found
        obtain rfl : stored = value := Option.some.inj found
        exact ⟨[], rest, rfl, if_pos rfl, fun new => if_pos rfl⟩
      · rw [List.lookup_cons, beq_false_of_ne same] at found
        obtain ⟨front, back, split, deleted, rekeyed⟩ := ih found
        refine ⟨entry :: front, back, congrArg (entry :: ·) split, ?_, fun new => ?_⟩
        · rw [delete, if_neg same, deleted, List.cons_append]
        · rw [rekey, if_neg same, rekeyed, List.cons_append]

/-- The entry of the key, and the others. -/
theorem perm_cons_delete (found : bucket.lookup key = some value) :
    bucket.Perm ((key, value) :: delete key bucket) := by
  obtain ⟨front, back, split, deleted, _⟩ := exists_split found
  rw [deleted, split]
  exact List.perm_middle

theorem rekey_perm_cons_delete (found : bucket.lookup key = some value) (new : Key) :
    (rekey key new bucket).Perm ((new, value) :: delete key bucket) := by
  obtain ⟨front, back, _, deleted, rekeyed⟩ := exists_split found
  rw [deleted, rekeyed]
  exact List.perm_middle

section Lookup

theorem lookup_cons_of_eq {key other : Key} (same : other = key) (value : Value)
    (rest : List (Key × Value)) : ((key, value) :: rest).lookup other = some value := by
  rw [same, List.lookup_cons_self]

theorem lookup_cons_of_ne {key other : Key} (different : other ≠ key) (value : Value)
    (rest : List (Key × Value)) : ((key, value) :: rest).lookup other = rest.lookup other := by
  rw [List.lookup_cons, beq_false_of_ne different]

theorem lookup_set (key other : Key) (value : Value) (bucket : List (Key × Value)) :
    (set key value bucket).lookup other =
      if other = key then some value else bucket.lookup other := by
  induction bucket with
  | nil =>
      rw [set]
      split
      · next same => exact lookup_cons_of_eq same value []
      · next different => exact lookup_cons_of_ne different value []
  | cons entry rest ih =>
      obtain ⟨stored, old⟩ := entry
      rw [set]
      by_cases first : key = stored
      · subst first
        rw [if_pos rfl]
        split
        · next same => exact lookup_cons_of_eq same value rest
        · next different =>
          rw [lookup_cons_of_ne different, lookup_cons_of_ne different]
      · rw [if_neg first]
        by_cases found : other = stored
        · have different : other ≠ key := fun same => first (same.symm.trans found)
          rw [lookup_cons_of_eq found, if_neg different, lookup_cons_of_eq found]
        · rw [lookup_cons_of_ne found, lookup_cons_of_ne found, ih]

theorem lookup_delete (key other : Key) {bucket : List (Key × Value)}
    (distinct : (bucket.map Prod.fst).Nodup) :
    (delete key bucket).lookup other = if other = key then none else bucket.lookup other := by
  induction bucket with
  | nil =>
      rw [delete, List.lookup_nil, ite_self]
  | cons entry rest ih =>
      obtain ⟨stored, old⟩ := entry
      rw [List.map_cons, List.nodup_cons] at distinct
      rw [delete]
      by_cases first : key = stored
      · subst first
        rw [if_pos rfl]
        split
        · next same =>
          subst same
          rw [List.lookup_eq_none_iff]
          rintro ⟨found, value⟩ mem
          rw [bne_iff_ne]
          rintro rfl
          exact distinct.1 (List.mem_map.mpr ⟨_, mem, rfl⟩)
        · next different => rw [lookup_cons_of_ne different]
      · rw [if_neg first]
        by_cases found : other = stored
        · have different : other ≠ key := fun same => first (same.symm.trans found)
          rw [lookup_cons_of_eq found, if_neg different, lookup_cons_of_eq found]
        · rw [lookup_cons_of_ne found, lookup_cons_of_ne found, ih distinct.2]

end Lookup

end Bucket

/-- The entries of a table, bucket by bucket. -/
abbrev Buckets (Key Value : Type*) (count : Nat) := Fin count → List (Key × Value)

namespace Buckets

variable {Key Value : Type*} {count : Nat} (place : Key → Fin count)

def entries (buckets : Buckets Key Value count) : List (Key × Value) :=
  (List.finRange count).flatMap buckets

def keys (buckets : Buckets Key Value count) : List Key := buckets.entries.map Prod.fst

/-- The entries of the other buckets. -/
def elsewhere (index : Fin count) (buckets : Buckets Key Value count) : List (Key × Value) :=
  ((List.finRange count).erase index).flatMap buckets

theorem entries_update_perm (buckets : Buckets Key Value count) (index : Fin count)
    (bucket : List (Key × Value)) :
    (entries (Function.update buckets index bucket)).Perm (bucket ++ buckets.elsewhere index) := by
  have split := List.perm_cons_erase (List.mem_finRange index)
  refine (split.flatMap_right _).trans (List.Perm.of_eq ?_)
  rw [List.flatMap_cons, Function.update_self]
  congr 1
  apply List.flatMap_congr
  intro other mem
  apply Function.update_of_ne
  exact ((List.nodup_finRange count).mem_erase_iff.mp mem).1

theorem entries_perm (buckets : Buckets Key Value count) (index : Fin count) :
    buckets.entries.Perm (buckets index ++ buckets.elsewhere index) := by
  have same := buckets.entries_update_perm index (buckets index)
  rwa [Function.update_eq_self] at same

section Operations

variable [DecidableEq Key]

def get? (buckets : Buckets Key Value count) (key : Key) : Option Value :=
  (buckets (place key)).lookup key

/-- The entry of the key stays where it is, whatever its new key is. -/
def rekey (buckets : Buckets Key Value count) (key new : Key) : Buckets Key Value count :=
  Function.update buckets (place key) (Bucket.rekey key new (buckets (place key)))

end Operations

end Buckets

/-- A table whose keys are in their places, and different from each other. -/
structure BucketTable {Key : Type*} {count : Nat} (place : Key → Fin count) (Value : Type*) where
  buckets : Buckets Key Value count
  placed : ∀ index, ∀ entry ∈ buckets index, place entry.1 = index
  distinct : ∀ index, ((buckets index).map Prod.fst).Nodup

namespace BucketTable

variable {Key Value : Type*} {count : Nat} {place : Key → Fin count}

def empty : BucketTable place Value := ⟨fun _ => [], by simp, by simp⟩

/-- A bucket is replaced by one that is in its place. -/
def update (table : BucketTable place Value) (index : Fin count) (bucket : List (Key × Value))
    (placed : ∀ entry ∈ bucket, place entry.1 = index) (distinct : (bucket.map Prod.fst).Nodup) :
    BucketTable place Value where
  buckets := Function.update table.buckets index bucket
  placed := by
    intro other
    by_cases same : other = index
    · rw [same, Function.update_self]
      exact placed
    · rw [Function.update_of_ne same]
      exact table.placed other
  distinct := by
    intro other
    by_cases same : other = index
    · rw [same, Function.update_self]
      exact distinct
    · rw [Function.update_of_ne same]
      exact table.distinct other

variable (table : BucketTable place Value) {key new : Key} {value : Value}

theorem mem_entries_iff {entry : Key × Value} :
    entry ∈ table.buckets.entries ↔ entry ∈ table.buckets (place entry.1) := by
  rw [Buckets.entries, List.mem_flatMap]
  constructor
  · rintro ⟨index, _, mem⟩
    rwa [table.placed index entry mem]
  · exact fun mem => ⟨_, List.mem_finRange _, mem⟩

theorem nodup_keys : table.buckets.keys.Nodup := by
  rw [Buckets.keys, Buckets.entries, List.map_flatMap, List.nodup_flatMap]
  refine ⟨fun index _ => table.distinct index, ?_⟩
  refine (List.nodup_finRange count).imp ?_
  intro one other differ key mem memOther
  obtain ⟨entry, here, rfl⟩ := List.mem_map.mp mem
  obtain ⟨entryOther, there, same⟩ := List.mem_map.mp memOther
  apply differ
  rw [← table.placed one entry here, ← same]
  exact table.placed other entryOther there

section Operations

variable [DecidableEq Key]

def set (table : BucketTable place Value) (key : Key) (value : Value) : BucketTable place Value :=
  table.update (place key) (Bucket.set key value (table.buckets (place key)))
    (fun entry mem => (Bucket.mem_set mem).elim (congrArg place) (table.placed _ entry))
    (Bucket.nodup_set (table.distinct _))

def delete (table : BucketTable place Value) (key : Key) : BucketTable place Value :=
  table.update (place key) (Bucket.delete key (table.buckets (place key)))
    (fun entry mem => table.placed _ entry ((Bucket.delete_sublist key _).mem mem))
    ((table.distinct _).sublist ((Bucket.delete_sublist key _).map Prod.fst))

theorem get?_eq_some_iff :
    table.buckets.get? place key = some value ↔ (key, value) ∈ table.buckets.entries := by
  rw [table.mem_entries_iff]
  let dict : PythonDict Key Value := ⟨table.buckets (place key), table.distinct _⟩
  exact ⟨dict.mem_entries_of_get?, dict.get?_of_mem_entries⟩

theorem exists_get?_of_mem_keys (present : key ∈ table.buckets.keys) :
    ∃ value, table.buckets.get? place key = some value := by
  obtain ⟨⟨_, value⟩, mem, rfl⟩ := List.mem_map.mp present
  exact ⟨value, table.get?_eq_some_iff.mpr mem⟩

/-- The entries other than that of the key. -/
def others (key : Key) : List (Key × Value) :=
  Bucket.delete key (table.buckets (place key)) ++ table.buckets.elsewhere (place key)

theorem entries_perm (found : table.buckets.get? place key = some value) :
    table.buckets.entries.Perm ((key, value) :: table.others key) :=
  (table.buckets.entries_perm (place key)).trans
    ((Bucket.perm_cons_delete found).append_right _)

theorem entries_rekey_perm (found : table.buckets.get? place key = some value) (new : Key) :
    (table.buckets.rekey place key new).entries.Perm ((new, value) :: table.others key) :=
  (table.buckets.entries_update_perm (place key) _).trans
    ((Bucket.rekey_perm_cons_delete found new).append_right _)

theorem mem_others_iff (found : table.buckets.get? place key = some value) {other : Key} :
    other ∈ (table.others key).map Prod.fst ↔ other ∈ table.buckets.keys ∧ other ≠ key := by
  have keys := (table.entries_perm found).map Prod.fst
  have distinct := keys.nodup_iff.mp table.nodup_keys
  rw [List.map_cons, List.nodup_cons] at distinct
  rw [Buckets.keys, keys.mem_iff, List.map_cons, List.mem_cons]
  constructor
  · intro mem
    refine ⟨.inr mem, ?_⟩
    rintro rfl
    exact distinct.1 mem
  · rintro ⟨mem, differs⟩
    exact mem.resolve_left differs

/-- A key that is placed like the old one can take its place if it is no other key. -/
theorem exists_rekey (found : table.buckets.get? place key = some value)
    (samePlace : place new = place key) (fresh : new ∉ (table.others key).map Prod.fst) :
    ∃ after : BucketTable place Value, after.buckets = table.buckets.rekey place key new := by
  have bucket := Bucket.rekey_perm_cons_delete found new
  have left : (Bucket.delete key (table.buckets (place key))).Sublist (table.buckets (place key)) :=
    Bucket.delete_sublist key _
  refine ⟨table.update (place key) (Bucket.rekey key new (table.buckets (place key))) ?_ ?_, rfl⟩
  · intro entry mem
    rcases List.mem_cons.mp (bucket.mem_iff.mp mem) with rfl | old
    · exact samePlace
    · exact table.placed _ entry (left.mem old)
  · rw [(bucket.map Prod.fst).nodup_iff, List.map_cons, List.nodup_cons]
    refine ⟨fun mem => fresh ?_, (table.distinct _).sublist (left.map Prod.fst)⟩
    rw [others, List.map_append]
    exact List.mem_append_left _ mem

variable {after : BucketTable place Value}

/-- A table with the new key instead of the old one finds everything else as before. -/
theorem rekeyed_of_perm (found : table.buckets.get? place key = some value)
    (perm : after.buckets.entries.Perm ((new, value) :: table.others key)) :
    Rekeyed key new table.buckets.keys after.buckets.keys (table.buckets.get? place)
      (after.buckets.get? place) := by
  constructor
  · have before := (table.entries_perm found).length_eq
    rw [Buckets.keys, Buckets.keys, List.length_map, List.length_map, perm.length_eq, before]
    rfl
  · exact after.nodup_keys
  · intro other mem differs
    obtain ⟨stored, isStored⟩ := table.exists_get?_of_mem_keys mem
    rw [isStored, after.get?_eq_some_iff, perm.mem_iff]
    have entry := (table.entries_perm found).mem_iff.mp (table.get?_eq_some_iff.mp isStored)
    rcases List.mem_cons.mp entry with same | kept
    · exact absurd (congrArg Prod.fst same) differs
    · exact List.mem_cons_of_mem _ kept
  · rw [found, after.get?_eq_some_iff, perm.mem_iff]
    exact List.mem_cons_self

/-- Replacing a key in its place changes nothing else if and only if the new key is placed like
the old one, and is no other key. -/
theorem rekeyed_iff (present : key ∈ table.buckets.keys) :
    Rekeyed key new table.buckets.keys (table.buckets.rekey place key new).keys
        (table.buckets.get? place) ((table.buckets.rekey place key new).get? place) ↔
      place new = place key ∧ ∀ other ∈ table.buckets.keys, other = new → other = key := by
  obtain ⟨value, found⟩ := table.exists_get?_of_mem_keys present
  have perm := table.entries_rekey_perm found new
  constructor
  · intro rekeyed
    have distinct := (perm.map Prod.fst).nodup_iff.mp rekeyed.distinct
    rw [List.map_cons, List.nodup_cons, table.mem_others_iff found] at distinct
    constructor
    · by_contra elsewhere
      -- The other bucket was not changed, so that the new key was in the table before.
      have searched := rekeyed.found.trans found
      rw [Buckets.get?, Buckets.rekey, Function.update_of_ne elsewhere] at searched
      refine distinct.1 ⟨List.mem_map_of_mem (table.get?_eq_some_iff.mp searched), ?_⟩
      rintro rfl
      exact elsewhere rfl
    · rintro other mem rfl
      by_contra differs
      exact distinct.1 ⟨mem, differs⟩
  · rintro ⟨samePlace, only⟩
    have fresh : new ∉ (table.others key).map Prod.fst := by
      rw [table.mem_others_iff found]
      rintro ⟨mem, differs⟩
      exact differs (only new mem rfl)
    obtain ⟨after, isAfter⟩ := table.exists_rekey found samePlace fresh
    rw [← isAfter] at perm ⊢
    exact table.rekeyed_of_perm found perm

section Lookup

theorem get?_update (buckets : Buckets Key Value count) (index : Fin count)
    (bucket : List (Key × Value)) (other : Key) :
    Buckets.get? place (Function.update buckets index bucket) other =
      if place other = index then bucket.lookup other else buckets.get? place other := by
  rw [Buckets.get?, Function.update_apply, Buckets.get?]
  split <;> rfl

theorem get?_set (key other : Key) (value : Value) :
    (table.set key value).buckets.get? place other =
      if other = key then some value else table.buckets.get? place other := by
  rw [set, update, get?_update, Bucket.lookup_set]
  by_cases same : other = key
  · simp [same]
  · rw [if_neg same, if_neg same]
    split
    · next here => rw [Buckets.get?, here]
    · rfl

theorem get?_delete (key other : Key) :
    (table.delete key).buckets.get? place other =
      if other = key then none else table.buckets.get? place other := by
  rw [delete, update, get?_update, Bucket.lookup_delete key other (table.distinct _)]
  by_cases same : other = key
  · simp [same]
  · rw [if_neg same, if_neg same]
    split
    · next here => rw [Buckets.get?, here]
    · rfl

theorem mem_keys_iff {key : Key} :
    key ∈ table.buckets.keys ↔ (table.buckets.get? place key).isSome = true := by
  rw [Option.isSome_iff_exists]
  constructor
  · exact table.exists_get?_of_mem_keys
  · rintro ⟨value, found⟩
    exact List.mem_map_of_mem (table.get?_eq_some_iff.mp found)

/-- The entries of the other keys. -/
theorem mem_others {key other : Key} {value stored : Value}
    (found : table.buckets.get? place key = some value) :
    (other, stored) ∈ table.others key ↔
      other ≠ key ∧ table.buckets.get? place other = some stored := by
  rw [table.get?_eq_some_iff, (table.entries_perm found).mem_iff, List.mem_cons]
  constructor
  · intro mem
    exact ⟨((table.mem_others_iff found).mp (List.mem_map.mpr ⟨_, mem, rfl⟩)).2, .inr mem⟩
  · rintro ⟨differs, same | mem⟩
    · exact absurd (congrArg Prod.fst same) differs
    · exact mem

/-- What is found after a key was replaced in its place. -/
theorem get?_rekey {key new : Key} {value : Value} {after : BucketTable place Value}
    (found : table.buckets.get? place key = some value)
    (isAfter : after.buckets = table.buckets.rekey place key new) (other : Key) :
    after.buckets.get? place other =
      if other = new then some value
      else if other = key then none else table.buckets.get? place other := by
  have perm := table.entries_rekey_perm found new
  rw [← isAfter] at perm
  apply Option.ext
  intro stored
  rw [after.get?_eq_some_iff, perm.mem_iff, List.mem_cons, table.mem_others found, Prod.mk.injEq]
  split
  · next same =>
    subst same
    have distinct := (perm.map Prod.fst).nodup_iff.mp after.nodup_keys
    rw [List.map_cons, List.nodup_cons] at distinct
    constructor
    · rintro (⟨_, rfl⟩ | ⟨differs, old⟩)
      · rfl
      · exact absurd (List.mem_map.mpr ⟨_, (table.mem_others found).mpr ⟨differs, old⟩, rfl⟩)
          distinct.1
    · intro same
      exact .inl ⟨rfl, (Option.some.inj same).symm⟩
  · next differs =>
    split
    · next old => exact iff_of_false (fun either => either.elim (differs ·.1) (·.1 old)) nofun
    · next differsOld =>
      exact ⟨fun either => either.elim (fun same => absurd same.1 differs) (·.2),
        fun stored => .inr ⟨differsOld, stored⟩⟩

end Lookup

end Operations

end BucketTable

namespace PythonDict

variable {Key Value : Type*} [DecidableEq Key] {dict : PythonDict Key Value} {key new : Key}
variable {value : Value}

theorem keys_set_of_mem (present : key ∈ dict.keys) (value : Value) :
    (dict.set key value).keys = dict.keys := by
  rw [keys, set, dif_pos present]
  exact map_fst_replaceEntry key value dict.entries

theorem keys_erase (dict : PythonDict Key Value) (key : Key) :
    (dict.erase key).keys = dict.keys.erase key := by
  rw [dict.nodup_keys.erase_eq_filter, keys, keys, erase, List.filter_map]
  congr 1
  apply List.filter_congr
  intro entry _
  by_cases same : entry.1 = key <;> simp [same]

/-- Entering a new key before the old one is deleted changes nothing else if and only if the new
key is no key yet. -/
theorem rekeyed_iff (found : dict.get? key = some value) :
    Rekeyed key new dict.keys ((dict.set new value).erase key).keys dict.get?
        ((dict.set new value).erase key).get? ↔ new ∉ dict.keys := by
  have present := mem_keys_of_get? found
  constructor
  · intro rekeyed taken
    have length := rekeyed.length
    have positive := List.length_pos_of_mem present
    rw [keys_erase, keys_set_of_mem taken, List.length_erase_of_mem present] at length
    omega
  · intro fresh
    have differs : new ≠ key := by
      rintro rfl
      exact fresh present
    constructor
    · have positive := List.length_pos_of_mem present
      rw [keys_erase, keys_set_of_notMem fresh,
        List.length_erase_of_mem (List.mem_append_left _ present), List.length_append]
      rfl
    · exact nodup_keys _
    · intro other mem differsOther
      have old : other ≠ new := by
        rintro rfl
        exact fresh mem
      rw [get?_erase, if_neg differsOther, get?_set, if_neg old]
    · rw [get?_erase, if_neg differs, get?_set, if_pos rfl, found]

end PythonDict
