import Mathlib.Data.List.Forall2
import Mathlib.Data.Set.Lattice
import SaltyRtcServer.ObjectStore
import SaltyRtcServer.PythonDict

/-!
# Merging constraints

Constraints are a list of maps from kinds to lists of values: one of the maps has
to be met in full.  `merge_constraints` builds the constraints that mean both of
its arguments from new objects, unless one of them means nothing.
-/

namespace SaltyRtcServer

open ObjectStore (Ref)

/-- The objects that constraints are made of. -/
inductive ConstraintObject (Kind Value : Type)
  | values (items : List Value)
  | map (entries : PythonDict Kind Ref)
  | maps (items : List Ref)

abbrev ConstraintStore (Kind Value : Type) := ObjectStore (ConstraintObject Kind Value)

/-- The contents of a map. -/
abbrev Conjunction (Kind Value : Type) := PythonDict Kind (List Value)

/-- The contents of constraints, which may be missing. -/
abbrev NormalForm (Kind Value : Type) := Option (List (Conjunction Kind Value))

variable {Kind Value : Type}

namespace ConstraintStore

variable (store : ConstraintStore Kind Value)

def values? (ref : Ref) : Option (List Value) :=
  match store.read ref with
  | some (.values items) => some items
  | _ => none

def entries? (ref : Ref) : Option (PythonDict Kind Ref) :=
  match store.read ref with
  | some (.map entries) => some entries
  | _ => none

/-- The maps in a list, of which there are none in `None`. -/
def items? : Option Ref → Option (List Ref)
  | none => some []
  | some ref =>
      match store.read ref with
      | some (.maps items) => some items
      | _ => none

/-- `[i for i in values]`, a new list. -/
def copyValues (ref : Ref) : Option (Ref × ConstraintStore Kind Value) :=
  (values? store ref).map fun items => (store.next, store.alloc (.values items))

/-- `val.extend(values)`. -/
def extendValues (val ref : Ref) : Option (ConstraintStore Kind Value) := do
  let items ← values? store val
  let more ← values? store ref
  return store.write val (.values (items ++ more))

/-- `merged_constraint[key] = val`. -/
def setKey [DecidableEq Kind] (merged : Ref) (key : Kind) (val : Ref) :
    Option (ConstraintStore Kind Value) :=
  (entries? store merged).map fun entries => store.write merged (.map (entries.set key val))

/-- `merged_constraints.append(merged_constraint)`. -/
def appendMap (result merged : Ref) : Option (ConstraintStore Kind Value) :=
  (items? store (some result)).map fun items => store.write result (.maps (items ++ [merged]))

end ConstraintStore

open ConstraintStore

section Program

variable [DecidableEq Kind]

/-- The loop over the keys of `constraint`. -/
def mergeKeys (merged : Ref) (other : PythonDict Kind Ref) :
    List (Kind × Ref) → ConstraintStore Kind Value → Option (ConstraintStore Kind Value)
  | [], store => some store
  | (key, ref) :: rest, store => do
      let (val, store) ← copyValues store ref
      let store ← match other.get? key with
        | some more => extendValues store val more
        | none => some store
      let store ← setKey store merged key val
      mergeKeys merged other rest store

/-- The loop over the keys of `new_constraint`. -/
def addKeys (merged : Ref) :
    List (Kind × Ref) → ConstraintStore Kind Value → Option (ConstraintStore Kind Value)
  | [], store => some store
  | (key, ref) :: rest, store => do
      let present ← entries? store merged
      if key ∈ present.keys then addKeys merged rest store
      else
        let (val, store) ← copyValues store ref
        let store ← setKey store merged key val
        addKeys merged rest store

/-- The body of the loops over pairs of maps. -/
def mergeMaps (constraint newConstraint : Ref) (store : ConstraintStore Kind Value) :
    Option (Ref × ConstraintStore Kind Value) := do
  let merged := store.next
  let store := store.alloc (.map .empty)
  let entries ← entries? store constraint
  let newEntries ← entries? store newConstraint
  let store ← mergeKeys merged newEntries entries.entries store
  let store ← addKeys merged newEntries.entries store
  return (merged, store)

/-- The loop over `other`. -/
def mergeWithAll (result constraint : Ref) :
    List Ref → ConstraintStore Kind Value → Option (ConstraintStore Kind Value)
  | [], store => some store
  | newConstraint :: rest, store => do
      let (merged, store) ← mergeMaps constraint newConstraint store
      let store ← appendMap store result merged
      mergeWithAll result constraint rest store

/-- The loop over `constraints`. -/
def mergeAll (result : Ref) (other : List Ref) :
    List Ref → ConstraintStore Kind Value → Option (ConstraintStore Kind Value)
  | [], store => some store
  | constraint :: rest, store => do
      let store ← mergeWithAll result constraint other store
      mergeAll result other rest store

/-- `merge_constraints`. -/
def mergeConstraints (constraints other : Option Ref) (store : ConstraintStore Kind Value) :
    Option (Option Ref × ConstraintStore Kind Value) := do
  let result := store.next
  let store := store.alloc (.maps [])
  let items ← items? store constraints
  if items = [] then return (other, store)
  let otherItems ← items? store other
  if otherItems = [] then return (constraints, store)
  let store ← mergeAll result otherItems items store
  return (some result, store)

end Program

section Contents

variable [DecidableEq Kind]

/-- What the loop over the keys of `constraint` makes of the contents. -/
def Conjunction.withKeys (other merged : Conjunction Kind Value)
    (entries : List (Kind × List Value)) : Conjunction Kind Value :=
  entries.foldl (fun merged entry =>
    merged.set entry.1 (entry.2 ++ (other.get? entry.1).getD [])) merged

/-- What the loop over the keys of `new_constraint` makes of them. -/
def Conjunction.withMissing (merged : Conjunction Kind Value) (entries : List (Kind × List Value)) :
    Conjunction Kind Value :=
  entries.foldl (fun merged entry =>
    if entry.1 ∈ merged.keys then merged else merged.set entry.1 entry.2) merged

/-- The contents of the map that two maps are merged to. -/
def Conjunction.merge (one other : Conjunction Kind Value) : Conjunction Kind Value :=
  Conjunction.withMissing (Conjunction.withKeys other .empty one.entries) other.entries

/-- The contents of the constraints that two constraints are merged to. -/
def NormalForm.merge (one other : NormalForm Kind Value) : NormalForm Kind Value :=
  if one.getD [] = [] then other
  else if other.getD [] = [] then one
  else some ((one.getD []).flatMap fun constraint => (other.getD []).map constraint.merge)

end Contents

section Meaning

variable {Subject : Type*} (interpretation : Kind → Value → Subject → Prop)

/-- A subject meets every single constraint of the map. -/
def Conjunction.Meets (constraint : Conjunction Kind Value) (subject : Subject) : Prop :=
  ∀ entry ∈ constraint.entries, ∀ value ∈ entry.2, interpretation entry.1 value subject

/-- The subjects that meet one of the maps, or all if there is no map. -/
def NormalForm.satisfying (form : NormalForm Kind Value) : Set Subject :=
  { subject | form.getD [] = [] ∨
    ∃ constraint ∈ form.getD [], Conjunction.Meets interpretation constraint subject }

variable {interpretation} in
theorem NormalForm.mem_satisfying_iff {form : NormalForm Kind Value} {subject : Subject} :
    subject ∈ form.satisfying interpretation ↔ form.getD [] = [] ∨
      ∃ constraint ∈ form.getD [], Conjunction.Meets interpretation constraint subject :=
  Iff.rfl

variable [DecidableEq Kind]

/-- New keys come after the others, with the values of both maps. -/
theorem Conjunction.entries_withKeys (other merged : Conjunction Kind Value)
    {entries : List (Kind × List Value)}
    (distinct : (merged.keys ++ entries.map Prod.fst).Nodup) :
    (Conjunction.withKeys other merged entries).entries = merged.entries ++
      entries.map fun entry => (entry.1, entry.2 ++ (other.get? entry.1).getD []) := by
  induction entries generalizing merged with
  | nil => exact (List.append_nil _).symm
  | cons entry rest ih =>
      obtain ⟨key, items⟩ := entry
      have absent : key ∉ merged.keys := by
        intro mem
        exact (List.nodup_append.mp distinct).2.2 key mem key List.mem_cons_self rfl
      have set := PythonDict.entries_set_of_notMem absent (items ++ (other.get? key).getD [])
      change (Conjunction.withKeys other (merged.set key _) rest).entries = _
      rw [ih, set, List.append_assoc]
      · rfl
      · rw [PythonDict.keys_set_of_notMem absent, List.append_assoc]
        exact distinct

/-- Keys that are present keep their values. -/
theorem Conjunction.entries_withMissing (merged : Conjunction Kind Value)
    {entries : List (Kind × List Value)} (distinct : (entries.map Prod.fst).Nodup) :
    (Conjunction.withMissing merged entries).entries = merged.entries ++
      entries.filter fun entry => entry.1 ∉ merged.keys := by
  induction entries generalizing merged with
  | nil => exact (List.append_nil _).symm
  | cons entry rest ih =>
      obtain ⟨key, items⟩ := entry
      obtain ⟨later, distinct⟩ := List.nodup_cons.mp distinct
      by_cases present : key ∈ merged.keys
      · have step : Conjunction.withMissing merged ((key, items) :: rest) =
            Conjunction.withMissing merged rest := by
          rw [Conjunction.withMissing, List.foldl_cons, if_pos present]
          rfl
        rw [step, ih _ distinct, List.filter_cons_of_neg (by simpa using present)]
      · have step : Conjunction.withMissing merged ((key, items) :: rest) =
            Conjunction.withMissing (merged.set key items) rest := by
          rw [Conjunction.withMissing, List.foldl_cons, if_neg present]
          rfl
        have set := PythonDict.entries_set_of_notMem present items
        have others : rest.filter (fun entry => entry.1 ∉ (merged.set key items).keys) =
            rest.filter fun entry => entry.1 ∉ merged.keys := by
          apply List.filter_congr
          intro entry mem
          have different : entry.1 ≠ key := by
            rintro rfl
            exact later (List.mem_map.mpr ⟨entry, mem, rfl⟩)
          rw [PythonDict.keys_set_of_notMem present]
          simp [different]
        rw [step, ih _ distinct, set, others, List.filter_cons_of_pos (by simpa using present),
          List.append_assoc]
        rfl

/-- The entries of a merged map: those of the first one with the values of the other, and
those of the other one with new keys. -/
theorem Conjunction.entries_merge (one other : Conjunction Kind Value) :
    (one.merge other).entries =
      one.entries.map (fun entry => (entry.1, entry.2 ++ (other.get? entry.1).getD [])) ++
        other.entries.filter fun entry => entry.1 ∉ one.keys := by
  have first := Conjunction.entries_withKeys other .empty one.nodup
  rw [Conjunction.merge, Conjunction.entries_withMissing _ other.nodup, first]
  have keys : (Conjunction.withKeys other .empty one.entries).keys = one.keys := by
    rw [PythonDict.keys, first, PythonDict.keys]
    simp [PythonDict.empty]
  rw [keys]
  rfl

variable {interpretation}

/-- A merged map means both maps. -/
theorem Conjunction.meets_merge_iff {one other : Conjunction Kind Value} {subject : Subject} :
    (one.merge other).Meets interpretation subject ↔
      one.Meets interpretation subject ∧ other.Meets interpretation subject := by
  rw [Conjunction.Meets, Conjunction.entries_merge, List.forall_mem_append, List.forall_mem_map]
  simp only [List.forall_mem_append]
  constructor
  · rintro ⟨shared, missing⟩
    refine ⟨fun entry mem => (shared entry mem).1, fun entry mem => ?_⟩
    by_cases present : entry.1 ∈ one.keys
    · obtain ⟨stored, inOne, same⟩ := List.mem_map.mp present
      have values := (shared stored inOne).2
      rw [same, PythonDict.get?_of_mem_entries mem] at values
      exact values
    · exact missing entry (List.mem_filter.mpr ⟨mem, by simpa using present⟩)
  · rintro ⟨meetsOne, meetsOther⟩
    refine ⟨fun entry mem => ⟨meetsOne entry mem, fun value inOther => ?_⟩,
      fun entry mem => meetsOther entry (List.mem_filter.mp mem).1⟩
    cases found : other.get? entry.1 with
    | none => simp [found] at inOther
    | some items =>
        rw [found] at inOther
        exact meetsOther _ (PythonDict.mem_entries_of_get? found) value inOther

/-- Merged constraints mean both constraints. -/
theorem NormalForm.satisfying_merge (one other : NormalForm Kind Value) :
    (one.merge other).satisfying interpretation =
      one.satisfying interpretation ∩ other.satisfying interpretation := by
  ext subject
  rw [Set.mem_inter_iff, NormalForm.mem_satisfying_iff, NormalForm.mem_satisfying_iff,
    NormalForm.mem_satisfying_iff]
  unfold NormalForm.merge
  split
  · next empty => simp [empty]
  · next filled =>
    split
    · next empty => simp [empty]
    · next otherFilled =>
      have nonempty : (one.getD []).flatMap (fun constraint =>
          (other.getD []).map constraint.merge) ≠ [] := by
        obtain ⟨first, inOne⟩ := List.exists_mem_of_ne_nil _ filled
        obtain ⟨second, inOther⟩ := List.exists_mem_of_ne_nil _ otherFilled
        exact List.ne_nil_of_mem
          (List.mem_flatMap.mpr ⟨first, inOne, List.mem_map_of_mem inOther⟩)
      simp only [Option.getD_some, nonempty, filled, otherFilled, false_or, List.mem_flatMap,
        List.mem_map]
      constructor
      · rintro ⟨merged, ⟨first, inOne, second, inOther, rfl⟩, meets⟩
        obtain ⟨meetsFirst, meetsSecond⟩ := Conjunction.meets_merge_iff.mp meets
        exact ⟨⟨first, inOne, meetsFirst⟩, second, inOther, meetsSecond⟩
      · rintro ⟨⟨first, inOne, meetsFirst⟩, second, inOther, meetsSecond⟩
        exact ⟨_, ⟨first, inOne, second, inOther, rfl⟩,
          Conjunction.meets_merge_iff.mpr ⟨meetsFirst, meetsSecond⟩⟩

end Meaning

section Represents

variable {store before after : ConstraintStore Kind Value} {ref merged result : Ref}

/-- The entry refers to a list with the contents. -/
def EntryAt (store : ConstraintStore Kind Value) (entry : Kind × Ref)
    (content : Kind × List Value) : Prop :=
  entry.1 = content.1 ∧ store.read entry.2 = some (.values content.2)

/-- A map with the contents. -/
def MapAt (store : ConstraintStore Kind Value) (ref : Ref) (constraint : Conjunction Kind Value) :
    Prop :=
  ∃ entries, store.read ref = some (.map entries) ∧
    List.Forall₂ (EntryAt store) entries.entries constraint.entries

/-- A list of maps with the contents. -/
def MapsAt (store : ConstraintStore Kind Value) (ref : Ref)
    (constraints : List (Conjunction Kind Value)) : Prop :=
  ∃ items, store.read ref = some (.maps items) ∧ List.Forall₂ (MapAt store) items constraints

/-- Constraints with the contents. -/
def FormAt (store : ConstraintStore Kind Value) : Option Ref → NormalForm Kind Value → Prop
  | none, none => True
  | some ref, some form => MapsAt store ref form
  | none, some _ | some _, none => False

theorem EntryAt.extends {entry : Kind × Ref} {content : Kind × List Value}
    (extension : before.Extends after) (stored : EntryAt before entry content) :
    EntryAt after entry content :=
  ⟨stored.1, extension.read stored.2⟩

theorem MapAt.extends {constraint : Conjunction Kind Value} (extension : before.Extends after)
    (stored : MapAt before ref constraint) : MapAt after ref constraint := by
  obtain ⟨entries, found, contents⟩ := stored
  exact ⟨entries, extension.read found, contents.imp fun _ _ => EntryAt.extends extension⟩

theorem MapsAt.extends {constraints : List (Conjunction Kind Value)}
    (extension : before.Extends after) (stored : MapsAt before ref constraints) :
    MapsAt after ref constraints := by
  obtain ⟨items, found, contents⟩ := stored
  exact ⟨items, extension.read found, contents.imp fun _ _ => MapAt.extends extension⟩

theorem FormAt.extends {form : NormalForm Kind Value} {place : Option Ref}
    (extension : before.Extends after) (stored : FormAt before place form) :
    FormAt after place form := by
  cases place <;> cases form
  · trivial
  · contradiction
  · contradiction
  · exact MapsAt.extends extension stored

/-- Lists of values are not affected when a map or a list of maps is written to. -/
theorem EntryAt.write {entry : Kind × Ref} {content : Kind × List Value}
    {object : ConstraintObject Kind Value} (stored : EntryAt store entry content)
    (other : ∀ items, store.read ref ≠ some (.values items)) :
    EntryAt (store.write ref object) entry content := by
  refine ⟨stored.1, ?_⟩
  rw [ObjectStore.read_write_of_ne]
  · exact stored.2
  · rintro rfl
    exact other _ stored.2

/-- Maps are not affected when a list of maps is written to. -/
theorem MapAt.write {constraint : Conjunction Kind Value} {items : List Ref}
    {object : ConstraintObject Kind Value} (stored : MapAt store ref constraint)
    (found : store.read result = some (.maps items)) :
    MapAt (store.write result object) ref constraint := by
  obtain ⟨entries, isMap, contents⟩ := stored
  refine ⟨entries, ?_, contents.imp fun _ _ entry => entry.write ?_⟩
  · rw [ObjectStore.read_write_of_ne]
    · exact isMap
    · rintro rfl
      rw [found] at isMap
      cases Option.some.inj isMap
  · simp [found]

theorem forall₂_keys {entries : List (Kind × Ref)} {contents : List (Kind × List Value)}
    (stored : List.Forall₂ (EntryAt store) entries contents) :
    entries.map Prod.fst = contents.map Prod.fst := by
  induction stored with
  | nil => rfl
  | cons entry _ ih => rw [List.map_cons, List.map_cons, entry.1, ih]

variable [DecidableEq Kind]

/-- The same keys are found, with their contents. -/
theorem forall₂_lookup {entries : List (Kind × Ref)} {contents : List (Kind × List Value)}
    (stored : List.Forall₂ (EntryAt store) entries contents) (key : Kind) :
    (entries.lookup key = none ∧ contents.lookup key = none) ∨
      ∃ ref items, entries.lookup key = some ref ∧ contents.lookup key = some items ∧
        store.read ref = some (.values items) := by
  induction stored with
  | nil => exact .inl ⟨rfl, rfl⟩
  | @cons entry content _ _ at_ _ ih =>
      rw [List.lookup_cons, List.lookup_cons, ← at_.1]
      cases key == entry.1 with
      | true => exact .inr ⟨_, _, rfl, rfl, at_.2⟩
      | false => exact ih

/-- Assignment to the key of a map assigns to its contents. -/
theorem forall₂_set {entries : PythonDict Kind Ref} {contents : Conjunction Kind Value}
    (stored : List.Forall₂ (EntryAt store) entries.entries contents.entries) {key : Kind}
    {val : Ref} {items : List Value} (found : store.read val = some (.values items)) :
    List.Forall₂ (EntryAt store) (entries.set key val).entries (contents.set key items).entries := by
  have keys : entries.keys = contents.keys := forall₂_keys stored
  by_cases present : key ∈ contents.keys
  · rw [PythonDict.set, dif_pos (keys ▸ present), PythonDict.set, dif_pos present]
    dsimp only
    rw [List.forall₂_map_left_iff, List.forall₂_map_right_iff]
    refine stored.imp fun entry content at_ => ?_
    unfold PythonDict.replaceEntry
    rw [at_.1]
    split
    · exact ⟨rfl, found⟩
    · exact at_
  · rw [PythonDict.entries_set_of_notMem present, PythonDict.entries_set_of_notMem (keys ▸ present)]
    exact List.rel_append stored (.cons ⟨rfl, found⟩ .nil)

end Represents

section Runs

variable {start store : ConstraintStore Kind Value} {ref val merged result : Ref}
variable {items : List Value} {dict : Conjunction Kind Value}

theorem copyValues_eq (found : store.read ref = some (.values items)) :
    copyValues store ref = some (store.next, store.alloc (.values items)) := by
  simp [copyValues, values?, found]

theorem extendValues_eq {more : List Value} (found : store.read val = some (.values items))
    (foundMore : store.read ref = some (.values more)) :
    extendValues store val ref = some (store.write val (.values (items ++ more))) := by
  simp [extendValues, values?, found, foundMore]

/-- A new map with the contents is being built, and nothing else was written to. -/
structure Building (start : ConstraintStore Kind Value) (merged : Ref)
    (dict : Conjunction Kind Value) (store : ConstraintStore Kind Value) : Prop where
  extension : start.Extends store
  fresh : start.next ≤ merged
  contents : MapAt store merged dict

variable [DecidableEq Kind]

/-- A key is set to a list that was allocated since. -/
theorem Building.setKey (building : Building start merged dict store)
    {after : ConstraintStore Kind Value} (extension : store.Extends after)
    (found : after.read val = some (.values items)) (key : Kind) :
    ∃ final, ConstraintStore.setKey after merged key val = some final ∧
      Building start merged (dict.set key items) final := by
  obtain ⟨entries, isMap, contents⟩ := building.contents.extends extension
  refine ⟨after.write merged (.map (entries.set key val)), ?_, ?_⟩
  · simp [ConstraintStore.setKey, entries?, isMap]
  · have noValues : ∀ items, after.read merged ≠ some (.values items) := by simp [isMap]
    refine ⟨(building.extension.trans extension).write building.fresh _, building.fresh, _,
      ObjectStore.read_write_self isMap, ?_⟩
    exact (forall₂_set contents found).imp fun _ _ at_ => at_.write noValues

/-- The loop over the keys of the first map. -/
theorem Building.mergeKeys (building : Building start merged dict store)
    {other : PythonDict Kind Ref} {otherContents : Conjunction Kind Value}
    (stored : List.Forall₂ (EntryAt start) other.entries otherContents.entries)
    {entries : List (Kind × Ref)} {contents : List (Kind × List Value)}
    (storedEntries : List.Forall₂ (EntryAt start) entries contents) :
    ∃ final, SaltyRtcServer.mergeKeys merged other entries store = some final ∧
      Building start merged (Conjunction.withKeys otherContents dict contents) final := by
  induction storedEntries generalizing dict store with
  | nil => exact ⟨store, rfl, building⟩
  | @cons entry content rest contents at_ _ ih =>
      obtain ⟨key, ref⟩ := entry
      obtain ⟨sameKey, items⟩ := content
      obtain ⟨rfl, found⟩ := at_
      have copied := copyValues_eq (building.extension.read found)
      have fresh : (store.alloc (.values items)).read store.next = some (.values items) :=
        ObjectStore.read_alloc_self
      have extension := (ObjectStore.Extends.refl store).alloc (.values items)
      rcases forall₂_lookup stored key with ⟨missing, noMore⟩ |
        ⟨more, moreItems, isRef, isMore, foundMore⟩
      · obtain ⟨next, set, built⟩ := building.setKey extension fresh key
        obtain ⟨final, done, finished⟩ := ih built
        refine ⟨final, ?_, ?_⟩
        · simp [SaltyRtcServer.mergeKeys, copied, PythonDict.get?, missing, set, done]
        · simpa [Conjunction.withKeys, PythonDict.get?, noMore] using finished
      · have readMore := extension.read (building.extension.read foundMore)
        have extended := extendValues_eq fresh readMore
        have later := extension.write (Nat.le_refl store.next) (.values (items ++ moreItems))
        obtain ⟨next, set, built⟩ := building.setKey later (ObjectStore.read_write_self fresh) key
        obtain ⟨final, done, finished⟩ := ih built
        refine ⟨final, ?_, ?_⟩
        · simp [SaltyRtcServer.mergeKeys, copied, PythonDict.get?, isRef, extended, set, done]
        · simpa [Conjunction.withKeys, PythonDict.get?, isMore] using finished

/-- The loop over the keys of the second map. -/
theorem Building.addKeys (building : Building start merged dict store)
    {entries : List (Kind × Ref)} {contents : List (Kind × List Value)}
    (stored : List.Forall₂ (EntryAt start) entries contents) :
    ∃ final, SaltyRtcServer.addKeys merged entries store = some final ∧
      Building start merged (Conjunction.withMissing dict contents) final := by
  induction stored generalizing dict store with
  | nil => exact ⟨store, rfl, building⟩
  | @cons entry content rest contents at_ _ ih =>
      obtain ⟨key, ref⟩ := entry
      obtain ⟨sameKey, items⟩ := content
      obtain ⟨rfl, found⟩ := at_
      obtain ⟨present, isMap, storedPresent⟩ := building.contents
      have presentRead : entries? store merged = some present := by simp [entries?, isMap]
      have keys : present.keys = dict.keys := forall₂_keys storedPresent
      by_cases mem : key ∈ dict.keys
      · obtain ⟨final, done, finished⟩ := ih building
        refine ⟨final, ?_, ?_⟩
        · simp [SaltyRtcServer.addKeys, presentRead, keys, mem, done]
        · simpa [Conjunction.withMissing, mem] using finished
      · have copied := copyValues_eq (building.extension.read found)
        obtain ⟨next, set, built⟩ := building.setKey
          ((ObjectStore.Extends.refl store).alloc (.values items)) ObjectStore.read_alloc_self key
        obtain ⟨final, done, finished⟩ := ih built
        refine ⟨final, ?_, ?_⟩
        · simp [SaltyRtcServer.addKeys, presentRead, keys, mem, copied, set, done]
        · simpa [Conjunction.withMissing, mem] using finished

/-- The body of the loops adds a map with the merged contents. -/
theorem mergeMaps_extends {one other : Ref} {first second : Conjunction Kind Value}
    (isFirst : MapAt store one first) (isSecond : MapAt store other second) :
    ∃ merged final, mergeMaps one other store = some (merged, final) ∧ store.Extends final ∧
      MapAt final merged (first.merge second) := by
  have extension := (ObjectStore.Extends.refl store).alloc (.map .empty)
  obtain ⟨entries, isMap, contents⟩ := isFirst
  obtain ⟨newEntries, isNewMap, newContents⟩ := isSecond
  have entriesRead : entries? (store.alloc (.map .empty)) one = some entries := by
    simp [entries?, extension.read isMap]
  have newRead : entries? (store.alloc (.map .empty)) other = some newEntries := by
    simp [entries?, extension.read isNewMap]
  have building : Building store store.next .empty (store.alloc (.map .empty)) :=
    ⟨extension, Nat.le_refl _, .empty, ObjectStore.read_alloc_self, .nil⟩
  obtain ⟨middle, merges, merged⟩ := building.mergeKeys newContents contents
  obtain ⟨final, adds, finished⟩ := merged.addKeys newContents
  refine ⟨store.next, final, ?_, finished.extension, finished.contents⟩
  simp [mergeMaps, entriesRead, newRead, merges, adds]

/-- A new list of maps with the contents is being built, and nothing else was written to. -/
structure Collecting (start : ConstraintStore Kind Value) (result : Ref)
    (forms : List (Conjunction Kind Value)) (store : ConstraintStore Kind Value) : Prop where
  extension : start.Extends store
  fresh : start.next ≤ result
  contents : MapsAt store result forms

variable {forms : List (Conjunction Kind Value)}

omit [DecidableEq Kind] in
/-- A map that was built since is appended. -/
theorem Collecting.appendMap (collecting : Collecting start result forms store)
    {after : ConstraintStore Kind Value} (extension : store.Extends after)
    {constraint : Conjunction Kind Value} (isMap : MapAt after merged constraint) :
    ∃ final, ConstraintStore.appendMap after result merged = some final ∧
      Collecting start result (forms ++ [constraint]) final := by
  obtain ⟨items, isMaps, contents⟩ := collecting.contents.extends extension
  refine ⟨after.write result (.maps (items ++ [merged])), ?_, ?_⟩
  · simp [ConstraintStore.appendMap, items?, isMaps]
  · refine ⟨(collecting.extension.trans extension).write collecting.fresh _, collecting.fresh, _,
      ObjectStore.read_write_self isMaps, ?_⟩
    exact List.rel_append (contents.imp fun _ _ stored => stored.write isMaps)
      (.cons (isMap.write isMaps) .nil)

/-- The loop over the maps of the second constraints. -/
theorem Collecting.mergeWithAll (collecting : Collecting start result forms store)
    {constraint : Ref} {first : Conjunction Kind Value} (isFirst : MapAt start constraint first)
    {refs : List Ref} {others : List (Conjunction Kind Value)}
    (stored : List.Forall₂ (MapAt start) refs others) :
    ∃ final, SaltyRtcServer.mergeWithAll result constraint refs store = some final ∧
      Collecting start result (forms ++ others.map first.merge) final := by
  induction stored generalizing forms store with
  | nil => exact ⟨store, rfl, by rwa [List.map_nil, List.append_nil]⟩
  | cons isSecond _ ih =>
      obtain ⟨merged, middle, merges, extension, isMap⟩ :=
        mergeMaps_extends (isFirst.extends collecting.extension)
          (isSecond.extends collecting.extension)
      obtain ⟨next, appends, collected⟩ := collecting.appendMap extension isMap
      obtain ⟨final, done, finished⟩ := ih collected
      refine ⟨final, ?_, ?_⟩
      · simp [SaltyRtcServer.mergeWithAll, merges, appends, done]
      · simpa using finished

/-- The loop over the maps of the first constraints. -/
theorem Collecting.mergeAll (collecting : Collecting start result forms store)
    {refs otherRefs : List Ref} {firsts others : List (Conjunction Kind Value)}
    (stored : List.Forall₂ (MapAt start) refs firsts)
    (otherStored : List.Forall₂ (MapAt start) otherRefs others) :
    ∃ final, SaltyRtcServer.mergeAll result otherRefs refs store = some final ∧
      Collecting start result (forms ++ firsts.flatMap fun first => others.map first.merge)
        final := by
  induction stored generalizing forms store with
  | nil => exact ⟨store, rfl, by rwa [List.flatMap_nil, List.append_nil]⟩
  | cons isFirst _ ih =>
      obtain ⟨next, merges, collected⟩ := collecting.mergeWithAll isFirst otherStored
      obtain ⟨final, done, finished⟩ := ih collected
      refine ⟨final, ?_, ?_⟩
      · simp [SaltyRtcServer.mergeAll, merges, done]
      · simpa using finished

omit [DecidableEq Kind] in
/-- The maps of constraints, which are none if the constraints are missing. -/
theorem FormAt.exists_items {place : Option Ref} {form : NormalForm Kind Value}
    (stored : FormAt store place form) :
    ∃ items, List.Forall₂ (MapAt store) items (form.getD []) ∧
      ∀ after, store.Extends after → items? after place = some items := by
  cases place <;> cases form
  · exact ⟨[], .nil, fun _ _ => rfl⟩
  · contradiction
  · contradiction
  · obtain ⟨items, found, contents⟩ := stored
    exact ⟨items, contents, fun _ extension => by simp [items?, extension.read found]⟩

/-- `merge_constraints` answers with the merged contents, and modifies no object. -/
theorem mergeConstraints_extends {one other : Option Ref} {first second : NormalForm Kind Value}
    (isFirst : FormAt store one first) (isSecond : FormAt store other second) :
    ∃ merged final, mergeConstraints one other store = some (merged, final) ∧
      store.Extends final ∧ FormAt final merged (first.merge second) := by
  have extension := (ObjectStore.Extends.refl store).alloc (.maps [])
  obtain ⟨items, contents, reads⟩ := isFirst.exists_items
  obtain ⟨otherItems, otherContents, otherReads⟩ := isSecond.exists_items
  have itemsRead := reads _ extension
  have otherRead := otherReads _ extension
  by_cases empty : items = []
  · subst empty
    have none := List.forall₂_nil_left_iff.mp contents
    refine ⟨other, _, by simp [mergeConstraints, itemsRead], extension, ?_⟩
    rw [NormalForm.merge, if_pos none]
    exact isSecond.extends extension
  have filled : first.getD [] ≠ [] := by
    intro none
    rw [none] at contents
    exact empty (List.forall₂_nil_right_iff.mp contents)
  by_cases otherEmpty : otherItems = []
  · subst otherEmpty
    have none := List.forall₂_nil_left_iff.mp otherContents
    refine ⟨one, _, by simp [mergeConstraints, itemsRead, empty, otherRead], extension, ?_⟩
    rw [NormalForm.merge, if_neg filled, if_pos none]
    exact isFirst.extends extension
  have otherFilled : second.getD [] ≠ [] := by
    intro none
    rw [none] at otherContents
    exact otherEmpty (List.forall₂_nil_right_iff.mp otherContents)
  have collecting : Collecting store store.next ([] : List (Conjunction Kind Value))
      (store.alloc (.maps [])) :=
    ⟨extension, Nat.le_refl _, [], ObjectStore.read_alloc_self, .nil⟩
  obtain ⟨final, merges, collected⟩ := collecting.mergeAll contents otherContents
  refine ⟨some store.next, final, ?_, collected.extension, ?_⟩
  · simp [mergeConstraints, itemsRead, empty, otherRead, otherEmpty, merges]
  · rw [NormalForm.merge, if_neg filled, if_neg otherFilled]
    exact collected.contents

/-- Merging is conjunction: the result means both constraints, so that neither the order nor
the grouping of merges matters, and no object that exists before is modified. -/
theorem merge_is_conjunction {one other : Option Ref} {first second : NormalForm Kind Value}
    (isFirst : FormAt store one first) (isSecond : FormAt store other second) {Subject : Type}
    (interpretation : Kind → Value → Subject → Prop) :
    (∃ merged final, mergeConstraints one other store = some (merged, final) ∧
      store.Extends final ∧ FormAt final merged (first.merge second)) ∧
    (first.merge second).satisfying interpretation =
      first.satisfying interpretation ∩ second.satisfying interpretation ∧
    (first.merge second).satisfying interpretation =
      (second.merge first).satisfying interpretation ∧
    ∀ third : NormalForm Kind Value,
      ((first.merge second).merge third).satisfying interpretation =
        (first.merge (second.merge third)).satisfying interpretation := by
  refine ⟨mergeConstraints_extends isFirst isSecond, NormalForm.satisfying_merge first second,
    ?_, fun third => ?_⟩
  · rw [NormalForm.satisfying_merge, NormalForm.satisfying_merge, Set.inter_comm]
  · simp only [NormalForm.satisfying_merge, Set.inter_assoc]

/-- The constraints `lt` 3, and `lt` 5 together with `ne` 1. -/
def boundsStore : ConstraintStore String Nat where
  objects := [.values [3], .map ⟨[("lt", 0)], by simp⟩, .maps [1],
    .values [5], .values [1], .map ⟨[("lt", 3), ("ne", 4)], by simp⟩, .maps [5]]

/-- Their conjunction is met by 0 and 2. -/
theorem merge_is_conjunction_bounds :
    ∃ merged final form, mergeConstraints (some 2) (some 6) boundsStore = some (merged, final) ∧
      boundsStore.Extends final ∧ FormAt final merged form ∧
      2 ∈ NormalForm.satisfying (fun kind value subject =>
        if kind = "lt" then subject < value else subject ≠ value) form := by
  have isFirst : FormAt boundsStore (some 2) (some [⟨[("lt", [3])], by simp⟩]) :=
    ⟨[1], rfl, .cons ⟨_, rfl, .cons ⟨rfl, rfl⟩ .nil⟩ .nil⟩
  have isSecond : FormAt boundsStore (some 6) (some [⟨[("lt", [5]), ("ne", [1])], by simp⟩]) :=
    ⟨[5], rfl, .cons ⟨_, rfl, .cons ⟨rfl, rfl⟩ (.cons ⟨rfl, rfl⟩ .nil)⟩ .nil⟩
  obtain ⟨⟨merged, final, merges, extension, stored⟩, meaning, _⟩ :=
    merge_is_conjunction isFirst isSecond fun kind value subject =>
      if kind = "lt" then subject < value else subject ≠ value
  refine ⟨merged, final, _, merges, extension, stored, ?_⟩
  rw [meaning, Set.mem_inter_iff, NormalForm.mem_satisfying_iff, NormalForm.mem_satisfying_iff]
  simp only [Conjunction.Meets, Option.getD_some, exists_eq_left, List.mem_cons,
    List.not_mem_nil, or_false]
  constructor
  · right
    rintro entry rfl value mem
    obtain rfl := List.mem_singleton.mp mem
    decide
  · right
    rintro entry (rfl | rfl) value mem
    · obtain rfl := List.mem_singleton.mp mem
      decide
    · obtain rfl := List.mem_singleton.mp mem
      decide

end Runs

end SaltyRtcServer
