import SaltyRtcServer.BucketTable
import SaltyRtcServer.HashSynthesis
import SaltyRtcServer.IntSynthesis
import SaltyRtcServer.ObjectStore
import SaltyRtcServer.SpliceDict

/-!
# Synthesis of keys

`SynthesizableHashTable` and `SynthesizableDict` replace a key by one that is
synthesized from its hash.  The hash table puts the new key into the place of the
old one, while the dictionary enters the new key and then deletes the old one.
The values are objects, which are flagged and not replaced.
-/

namespace SaltyRtcServer

/-- A key of a table: a Splice object with a content, or the `None` of a synthesis that
failed. -/
abbrev TableKey := Option KeyContent

/-- The hash functions of the keys; a custom hash is the default hash or set by `set_hash`. -/
structure KeyHashes where
  /-- `SpliceInt.custom_hash` -/
  intHash : Int → Int
  /-- `str.__hash__`, which `SpliceStr` inherits -/
  strHash : String → Int
  /-- `SpliceStr.custom_hash` -/
  strCustomHash : List Int → Int
  noneHash : Int

namespace KeyHashes

variable (hashes : KeyHashes)

/-- `key.__hash__()`. -/
def hash : TableKey → Int
  | some (.int value) => hashes.intHash value
  | some (.str value) => hashes.strHash value
  | none => hashes.noneHash

/-- `HashTable.DEFAULT_NUM_BUCKETS`. -/
abbrev numBuckets : Nat := 10

/-- `key.__hash__() % len(self._hash_table)`. -/
def hashKey (key : TableKey) : Fin numBuckets :=
  ⟨(hashes.hash key % (numBuckets : Int)).toNat, by
    rw [Int.toNat_lt' (by decide)]
    exact Int.emod_lt_of_pos _ (by decide)⟩

end KeyHashes

/-- The assertion holds in a model, which leaves out the variable if its value does not
matter. -/
def IntAssertion.HoldsIn (assertion : IntAssertion) : Option Int → Prop
  | some value => assertion.Holds value
  | none => ∀ value, assertion.Holds value

/-- The solvers of an `IntSynthesizer` and a `StrSynthesizer`. -/
structure KeySolvers where
  int : IncrementalSolver IntAssertion.HoldsIn
  str : StrSolver

/-- What `synthesize` raises: an error of its own, or one of the synthesizer. -/
inductive SynthesizeError
  | notImplementedError (message : String)
  | raised (exception : PyException)

/-- The synthesized key of both `synthesize` methods. -/
def KeySolvers.synthesizedKey (solvers : KeySolvers) (hashes : KeyHashes) (key : TableKey) :
    Except SynthesizeError TableKey :=
  match key with
  | some (.int _) =>
      match solvers.int.check [.eq hashes.intHash (hashes.hash key)] with
      | some (some value) => .ok (some (.int (IntSynthesizer.toPython value).value))
      | _ => .ok none
  | some (.str _) =>
      match solvers.str.check
          (StrSynthesizer.eqConstraint (hashes.strCustomHash, hashes.hash key)) with
      | some model =>
          match StrSynthesizer.value model with
          | .ok value => .ok (some (.str (String.ofList (StrSynthesizer.toPython value).value)))
          | .error exception => .error (.raised exception)
      | none => .ok none
  | none => .error (.notImplementedError "We cannot synthesize value of type NoneType yet")

/-- An integer that is synthesized has the hash, so that it belongs into the same bucket. -/
theorem KeySolvers.hashKey_int {solvers : KeySolvers} {hashes : KeyHashes} {original value : Int}
    (returned : solvers.synthesizedKey hashes (some (.int original)) = .ok (some (.int value))) :
    hashes.hashKey (some (.int value)) = hashes.hashKey (some (.int original)) := by
  have hash : hashes.hash (some (.int value)) = hashes.hash (some (.int original)) := by
    unfold KeySolvers.synthesizedKey at returned
    dsimp only at returned
    split at returned
    · next found checked =>
      cases returned
      exact solvers.int.sound checked _ (List.mem_singleton_self _)
    · cases returned
  rw [KeyHashes.hashKey, KeyHashes.hashKey, Fin.mk.injEq, hash]

/-- `v.synthesized = True`. -/
def flagSynthesized (store : ObjectStore Tags) (value : ObjectStore.Ref) : ObjectStore Tags :=
  match store.read value with
  | some tags => store.write value tags.ofSynthesizedKey
  | none => store

/-- A `HashTable`, and a `SynthesizableHashTable`; its values are references to Splice
objects. -/
abbrev SynthesizableHashTable (hashes : KeyHashes) :=
  BucketTable hashes.hashKey ObjectStore.Ref

/-- A `SynthesizableDict`: keys with equal contents have equal hashes. -/
abbrev SynthesizableDict := PythonDict TableKey ObjectStore.Ref

variable {hashes : KeyHashes} (solvers : KeySolvers) (store : ObjectStore Tags)

/-- `SynthesizableHashTable.synthesize`: the answer, the buckets and the objects. -/
def SynthesizableHashTable.synthesize (table : SynthesizableHashTable hashes) (key : TableKey) :
    Except SynthesizeError
      (Bool × Buckets TableKey ObjectStore.Ref KeyHashes.numBuckets × ObjectStore Tags) :=
  match table.buckets.get? hashes.hashKey key with
  | none => .ok (false, table.buckets, store)
  | some value =>
      match solvers.synthesizedKey hashes key with
      | .ok synthesizedKey =>
          .ok (true, table.buckets.rekey hashes.hashKey key synthesizedKey,
            flagSynthesized store value)
      | .error exception => .error exception

/-- `SynthesizableDict.synthesize`, which answers nothing if there is such a key. -/
def SynthesizableDict.synthesize (hashes : KeyHashes) (dict : SynthesizableDict) (key : TableKey) :
    Except SynthesizeError (Option Bool × SynthesizableDict × ObjectStore Tags) :=
  match dict.get? key with
  | none => .ok (some false, dict, store)
  | some value =>
      match solvers.synthesizedKey hashes key with
      | .ok synthesizedKey =>
          .ok (none, (dict.set synthesizedKey value).erase key, flagSynthesized store value)
      | .error exception => .error exception

/-- The hash table keeps all but the key. -/
def SynthesizableHashTable.Keeps (table : SynthesizableHashTable hashes)
    (key synthesizedKey : TableKey) : Prop :=
  ∃ answer after storeAfter,
    SynthesizableHashTable.synthesize solvers store table key = .ok (answer, after, storeAfter) ∧
      Rekeyed key synthesizedKey table.buckets.keys after.keys
        (table.buckets.get? hashes.hashKey) (after.get? hashes.hashKey)

/-- The dictionary keeps all but the key. -/
def SynthesizableDict.Keeps (hashes : KeyHashes) (dict : SynthesizableDict)
    (key synthesizedKey : TableKey) : Prop :=
  ∃ answer after storeAfter,
    SynthesizableDict.synthesize solvers store hashes dict key = .ok (answer, after, storeAfter) ∧
      Rekeyed key synthesizedKey dict.keys after.keys dict.get? after.get?

variable {solvers store} {key synthesizedKey : TableKey}

theorem SynthesizableHashTable.keeps_iff {table : SynthesizableHashTable hashes}
    (present : key ∈ table.buckets.keys)
    (returned : solvers.synthesizedKey hashes key = .ok synthesizedKey) :
    SynthesizableHashTable.Keeps solvers store table key synthesizedKey ↔
      hashes.hashKey synthesizedKey = hashes.hashKey key ∧
        ∀ other ∈ table.buckets.keys, other = synthesizedKey → other = key := by
  obtain ⟨value, found⟩ := table.exists_get?_of_mem_keys present
  rw [← table.rekeyed_iff present]
  unfold SynthesizableHashTable.Keeps SynthesizableHashTable.synthesize
  rw [found, returned]
  constructor
  · rintro ⟨answer, after, storeAfter, same, rekeyed⟩
    cases same
    exact rekeyed
  · exact fun rekeyed => ⟨true, _, _, rfl, rekeyed⟩

theorem SynthesizableDict.keeps_iff {dict : SynthesizableDict} (present : key ∈ dict.keys)
    (returned : solvers.synthesizedKey hashes key = .ok synthesizedKey) :
    SynthesizableDict.Keeps solvers store hashes dict key synthesizedKey ↔
      synthesizedKey ∉ dict.keys := by
  obtain ⟨value, found⟩ := Option.isSome_iff_exists.mp ((dict.isSome_get?_iff key).mpr present)
  rw [← dict.rekeyed_iff found]
  unfold SynthesizableDict.Keeps SynthesizableDict.synthesize
  rw [found, returned]
  constructor
  · rintro ⟨answer, after, storeAfter, same, rekeyed⟩
    cases same
    exact rekeyed
  · exact fun rekeyed => ⟨none, _, _, rfl, rekeyed⟩

/-- Both tables keep all but the key if and only if the synthesized key is not among the keys
that it may not be equal to: the hash table allows the key itself, but needs it to stay in its
bucket. -/
theorem synthesize_keeps_iff (hashes : KeyHashes) (solvers : KeySolvers)
    (store : ObjectStore Tags) (key synthesizedKey : KeyContent)
    (returned : solvers.synthesizedKey hashes (some key) = .ok (some synthesizedKey)) :
    (∀ table : SynthesizableHashTable hashes, some key ∈ table.buckets.keys →
      (SynthesizableHashTable.Keeps solvers store table (some key) (some synthesizedKey) ↔
        hashes.hashKey (some synthesizedKey) = hashes.hashKey (some key) ∧
          ∀ other ∈ table.buckets.keys, other = some synthesizedKey → other = some key)) ∧
    ∀ dict : SynthesizableDict, some key ∈ dict.keys →
      (SynthesizableDict.Keeps solvers store hashes dict (some key) (some synthesizedKey) ↔
        some synthesizedKey ∉ dict.keys) :=
  ⟨fun _ present => SynthesizableHashTable.keeps_iff present returned,
    fun _ present => SynthesizableDict.keeps_iff present returned⟩

/-- The hash functions if none is set, for a hash of strings. -/
def KeyHashes.default (strHash : String → Int) : KeyHashes where
  intHash := SpliceInt.defaultHash
  strHash := strHash
  strCustomHash := SpliceStr.defaultHash
  noneHash := 0

/-- Solvers that prefer an integer with the hash. -/
noncomputable def KeySolvers.preferring (value : Int) : KeySolvers where
  int := .preferring IntAssertion.HoldsIn (some value)
  str := .ofTotal (.ofChoice StrAssertion.Holds)

theorem KeySolvers.synthesizedKey_preferring {strHash : String → Int} {original value : Int}
    (sameHash : SpliceInt.defaultHash value = SpliceInt.defaultHash original) :
    (KeySolvers.preferring value).synthesizedKey (.default strHash) (some (.int original)) =
      .ok (some (.int value)) := by
  have found : (KeySolvers.preferring value).int.check
      [.eq SpliceInt.defaultHash (SpliceInt.defaultHash original)] = some (some value) := by
    apply IncrementalSolver.check_preferring
    rw [List.forall_mem_singleton]
    exact sameHash
  simp only [KeySolvers.synthesizedKey, KeyHashes.default, KeyHashes.hash, found,
    IntSynthesizer.toPython]

section Example

/-- The default hash functions, where all strings have one hash. -/
def exampleHashes : KeyHashes := .default fun _ => 0

/-- A hash table with the keys 5 and 7. -/
def exampleTable : SynthesizableHashTable exampleHashes :=
  (BucketTable.empty.set (some (.int 5)) 0).set (some (.int 7)) 1

/-- A dictionary with the keys 5 and 7. -/
def exampleDict : SynthesizableDict :=
  (PythonDict.empty.set (some (.int 5)) 0).set (some (.int 7)) 1

/-- The values of the two keys. -/
def exampleStore : ObjectStore Tags := ⟨[⟨false, false, 0⟩, ⟨true, false, 1⟩]⟩

/-- The key 5 is replaced by the next integer with its hash, beside the key 7. -/
theorem synthesize_keeps_next :
    SynthesizableHashTable.Keeps (.preferring (2 ^ 63 + 4)) exampleStore exampleTable
        (some (.int 5)) (some (.int (2 ^ 63 + 4))) ∧
      SynthesizableDict.Keeps (.preferring (2 ^ 63 + 4)) exampleStore exampleHashes
        exampleDict (some (.int 5)) (some (.int (2 ^ 63 + 4))) := by
  have both := synthesize_keeps_iff exampleHashes (.preferring (2 ^ 63 + 4)) exampleStore
    (.int 5) (.int (2 ^ 63 + 4)) (KeySolvers.synthesizedKey_preferring (by decide))
  constructor
  · exact (both.1 exampleTable (by decide)).mpr (by decide)
  · exact (both.2 exampleDict (by decide)).mpr (by decide)

/-- The key 5 is synthesized again, and the dictionary loses its value. -/
theorem dict_loses_value :
    (KeySolvers.preferring 5).synthesizedKey exampleHashes (some (.int 5)) =
        .ok (some (.int 5)) ∧
      some (.int 5) ∈ exampleDict.keys ∧
      ¬ SynthesizableDict.Keeps (.preferring 5) exampleStore exampleHashes exampleDict
        (some (.int 5)) (some (.int 5)) := by
  have returned : (KeySolvers.preferring 5).synthesizedKey exampleHashes (some (.int 5)) =
      .ok (some (.int 5)) := KeySolvers.synthesizedKey_preferring rfl
  have present : some (.int 5) ∈ exampleDict.keys := by decide
  refine ⟨returned, present, ?_⟩
  rw [SynthesizableDict.keeps_iff present returned]
  exact not_not_intro present

end Example

end SaltyRtcServer
