import SaltyRtcServer.KeySynthesis
import SaltyRtcServer.TwoRuns

/-!
# Runs of a hash table

A `SynthesizableHashTable` is meant to answer like a map.  Any sequence of its
operations is run beside a map that knows nothing of hashes and buckets, and in
which a synthesized key simply takes the place of the old one.
-/

namespace SaltyRtcServer

open StepMachine

inductive TableRequest
  | set (key : TableKey) (value : ObjectStore.Ref)
  | get (key : TableKey)
  | delete (key : TableKey)
  | contains (key : TableKey)
  | length
  | keys
  | synthesize (key : TableKey)
  deriving DecidableEq

inductive TableAnswer
  | done
  | value (value : ObjectStore.Ref)
  /-- "{key} does not exist in the hash table" -/
  | keyError (key : TableKey)
  | isMember (answer : Bool)
  | length (length : Nat)
  | keys (keys : List TableKey)
  | synthesized (answer : Bool)
  | raised (exception : SynthesizeError)

/-- The same answer, with keys in any order. -/
inductive TableAnswer.Agree : TableAnswer → TableAnswer → Prop
  | same (answer : TableAnswer) : Agree answer answer
  | keys {one other : List TableKey} : one.Perm other → Agree (.keys one) (.keys other)

/-- A table, and the objects that it refers to. -/
structure TableState (Table : Type) where
  table : Table
  store : ObjectStore Tags

section

variable (solvers : KeySolvers) (hashes : KeyHashes)

/-- The methods of `HashTable` and of `SynthesizableHashTable`, for buckets in any state. -/
def SynthesizableHashTable.respond
    (state : TableState (Buckets TableKey ObjectStore.Ref KeyHashes.numBuckets)) :
    TableRequest →
      TableAnswer × TableState (Buckets TableKey ObjectStore.Ref KeyHashes.numBuckets)
  | .set key value =>
      (.done, { state with
        table := Function.update state.table (hashes.hashKey key)
          (Bucket.set key value (state.table (hashes.hashKey key))) })
  | .get key =>
      match state.table.get? hashes.hashKey key with
      | some value => (.value value, state)
      | none => (.keyError key, state)
  | .delete key =>
      (.done, { state with
        table := Function.update state.table (hashes.hashKey key)
          (Bucket.delete key (state.table (hashes.hashKey key))) })
  | .contains key => (.isMember (decide (key ∈ state.table.keys)), state)
  | .length =>
      (.length ((List.finRange KeyHashes.numBuckets).map fun index =>
        (state.table index).length).sum, state)
  | .keys => (.keys state.table.keys, state)
  | .synthesize key =>
      match state.table.get? hashes.hashKey key with
      | none => (.synthesized false, state)
      | some value =>
          match solvers.synthesizedKey hashes key with
          | .ok synthesizedKey =>
              (.synthesized true,
                ⟨state.table.rekey hashes.hashKey key synthesizedKey,
                  flagSynthesized state.store value⟩)
          | .error exception => (.raised exception, state)

/-- What the table is for: a map, in which a synthesized key takes the place of the old one. -/
def tableSpecification (state : TableState (PythonDict TableKey ObjectStore.Ref)) :
    TableRequest → TableAnswer × TableState (PythonDict TableKey ObjectStore.Ref)
  | .set key value => (.done, { state with table := state.table.set key value })
  | .get key =>
      match state.table.get? key with
      | some value => (.value value, state)
      | none => (.keyError key, state)
  | .delete key => (.done, { state with table := state.table.erase key })
  | .contains key => (.isMember (state.table.get? key).isSome, state)
  | .length => (.length state.table.length, state)
  | .keys => (.keys state.table.keys, state)
  | .synthesize key =>
      match state.table.get? key with
      | none => (.synthesized false, state)
      | some value =>
          match solvers.synthesizedKey hashes key with
          | .ok synthesizedKey =>
              (.synthesized true,
                ⟨(state.table.erase key).set synthesizedKey value,
                  flagSynthesized state.store value⟩)
          | .error exception => (.raised exception, state)

/-- A key is synthesized only to one that belongs into the same bucket and is no other key. -/
def SynthesizableHashTable.Fits
    (state : TableState (Buckets TableKey ObjectStore.Ref KeyHashes.numBuckets)) :
    TableRequest → Prop
  | .synthesize key =>
      key ∈ state.table.keys → ∀ synthesizedKey,
        solvers.synthesizedKey hashes key = .ok synthesizedKey →
          hashes.hashKey synthesizedKey = hashes.hashKey key ∧
            ∀ other ∈ state.table.keys, other = synthesizedKey → other = key
  | _ => True

/-- The table holds what the map holds. -/
structure TableState.Represents
    (state : TableState (Buckets TableKey ObjectStore.Ref KeyHashes.numBuckets))
    (map : TableState (PythonDict TableKey ObjectStore.Ref)) : Prop where
  placed : ∃ table : SynthesizableHashTable hashes, table.buckets = state.table
  found : ∀ key, state.table.get? hashes.hashKey key = map.table.get? key
  store : state.store = map.store

end

variable {solvers : KeySolvers} {hashes : KeyHashes}

/-- Tables that find the same have the same keys. -/
theorem keys_perm_of_found {table : SynthesizableHashTable hashes}
    {map : PythonDict TableKey ObjectStore.Ref}
    (found : ∀ key, table.buckets.get? hashes.hashKey key = map.get? key) :
    table.buckets.keys.Perm map.keys := by
  apply (List.perm_ext_iff_of_nodup table.nodup_keys map.nodup_keys).mpr
  intro key
  rw [table.mem_keys_iff, found, map.isSome_get?_iff]

namespace TableState

variable {map : TableState (PythonDict TableKey ObjectStore.Ref)} {store : ObjectStore Tags}
  {table : SynthesizableHashTable hashes}

theorem represents_of_found {dict : PythonDict TableKey ObjectStore.Ref}
    (found : ∀ key, table.buckets.get? hashes.hashKey key = dict.get? key) :
    Represents hashes ⟨table.buckets, store⟩ ⟨dict, store⟩ :=
  ⟨⟨table, rfl⟩, found, rfl⟩

end TableState

namespace SynthesizableHashTable

variable {state : TableState (Buckets TableKey ObjectStore.Ref KeyHashes.numBuckets)}
  {map : TableState (PythonDict TableKey ObjectStore.Ref)}

/-- What one operation answers, and what the table represents after it. -/
theorem respond_agrees (request : TableRequest) (represents : state.Represents hashes map)
    (fits : Fits solvers hashes state request) :
    (respond solvers hashes state request).1.Agree
        (tableSpecification solvers hashes map request).1 ∧
      (respond solvers hashes state request).2.Represents hashes
        (tableSpecification solvers hashes map request).2 := by
  obtain ⟨⟨table, isTable⟩, found, store⟩ := represents
  obtain ⟨_, objects⟩ := state
  obtain ⟨dict, _⟩ := map
  dsimp only at isTable found store
  subst isTable store
  have perm := keys_perm_of_found found
  cases request with
  | set key value =>
      have after (other : TableKey) : (table.set key value).buckets.get? hashes.hashKey other =
          (dict.set key value).get? other := by
        rw [table.get?_set, dict.get?_set, found]
      exact ⟨.same .done, TableState.represents_of_found after⟩
  | delete key =>
      have after (other : TableKey) : (table.delete key).buckets.get? hashes.hashKey other =
          (dict.erase key).get? other := by
        rw [table.get?_delete, dict.get?_erase, found]
      exact ⟨.same .done, TableState.represents_of_found after⟩
  | get key =>
      simp only [respond, tableSpecification, found]
      split <;> exact ⟨.same _, TableState.represents_of_found found⟩
  | contains key =>
      refine ⟨?_, TableState.represents_of_found found⟩
      simp only [respond, tableSpecification, table.mem_keys_iff, found, Bool.decide_coe]
      exact .same _
  | length =>
      refine ⟨?_, TableState.represents_of_found found⟩
      have size := perm.length_eq
      simp only [respond, tableSpecification]
      rw [Buckets.keys, List.length_map, Buckets.entries, List.length_flatMap,
        dict.length_keys] at size
      rw [size]
      exact .same _
  | keys => exact ⟨.keys perm, TableState.represents_of_found found⟩
  | synthesize key =>
      simp only [respond, tableSpecification, found]
      split
      · exact ⟨.same _, TableState.represents_of_found found⟩
      · next value stored =>
        split
        · next synthesizedKey returned =>
          rw [← found] at stored
          have present : key ∈ table.buckets.keys := by
            rw [table.mem_keys_iff, stored]
            rfl
          obtain ⟨samePlace, only⟩ := fits present synthesizedKey returned
          have fresh : synthesizedKey ∉ (table.others key).map Prod.fst := by
            rw [table.mem_others_iff stored]
            rintro ⟨mem, differs⟩
            exact differs (only synthesizedKey mem rfl)
          obtain ⟨after, isAfter⟩ := table.exists_rekey stored samePlace fresh
          refine ⟨.same _, ⟨after, isAfter⟩, fun other => ?_, rfl⟩
          rw [PythonDict.get?_set, PythonDict.get?_erase, ← found, ← isAfter]
          exact table.get?_rekey stored isAfter other
        · exact ⟨.same _, TableState.represents_of_found found⟩

/-- A hash table answers every sequence of operations like a map, and keeps what the map keeps,
as long as keys are synthesized to new keys of the same bucket. -/
theorem serves_like_map (solvers : KeySolvers) (hashes : KeyHashes) (store : ObjectStore Tags)
    (requests : List TableRequest)
    (fitting : Fitting (respond solvers hashes) (Fits solvers hashes) ⟨fun _ => [], store⟩
      requests) :
    List.Forall₂ TableAnswer.Agree
        (serve (respond solvers hashes) ⟨fun _ => [], store⟩ requests).1
        (serve (tableSpecification solvers hashes) ⟨.empty, store⟩ requests).1 ∧
      (serve (respond solvers hashes) ⟨fun _ => [], store⟩ requests).2.Represents hashes
        (serve (tableSpecification solvers hashes) ⟨.empty, store⟩ requests).2 := by
  have start : TableState.Represents hashes ⟨fun _ => [], store⟩ ⟨.empty, store⟩ :=
    ⟨⟨BucketTable.empty, rfl⟩, fun _ => rfl, rfl⟩
  exact serve_agrees (fun _ _ request represents fits => respond_agrees request represents fits)
    start requests fitting

/-- The key 5 is synthesized while the key 15 shares its bucket, and then looked for. -/
theorem serves_like_map_synthesized :
    List.Forall₂ TableAnswer.Agree
      (serve (respond (.preferring (2 ^ 63 + 4)) exampleHashes) ⟨fun _ => [], ⟨[⟨true, false, 0⟩]⟩⟩
        [.set (some (.int 5)) 0, .set (some (.int 15)) 0, .synthesize (some (.int 5)),
          .get (some (.int 5)), .keys]).1
      (serve (tableSpecification (.preferring (2 ^ 63 + 4)) exampleHashes)
        ⟨.empty, ⟨[⟨true, false, 0⟩]⟩⟩
        [.set (some (.int 5)) 0, .set (some (.int 15)) 0, .synthesize (some (.int 5)),
          .get (some (.int 5)), .keys]).1 := by
  apply (serves_like_map (.preferring (2 ^ 63 + 4)) exampleHashes ⟨[⟨true, false, 0⟩]⟩
    [.set (some (.int 5)) 0, .set (some (.int 15)) 0, .synthesize (some (.int 5)),
      .get (some (.int 5)), .keys] ?_).1
  refine ⟨trivial, trivial, ?_, trivial, trivial, trivial⟩
  intro _ synthesizedKey returned
  rw [exampleHashes, KeySolvers.synthesizedKey_preferring (by decide)] at returned
  cases returned
  decide

end SynthesizableHashTable

end SaltyRtcServer
