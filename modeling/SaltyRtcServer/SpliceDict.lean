import SaltyRtcServer.Common
import SaltyRtcServer.HashDict
import SaltyRtcServer.SpliceTags
import Mathlib.Tactic.Linarith
import Mathlib.Tactic.NormNum

/-!
# Dictionaries of Splice values

`hashtable.SpliceDict` turns the keys that it stores into Splice objects, and
looks for a key as it is given.  A `SpliceInt` has a hash function of its own,
while a `SpliceStr` hashes like the string.  Values are turned into Splice objects
as well, and not every Splice class keeps all of a value.
-/

namespace SaltyRtcServer

/-- What keys are compared by. -/
inductive KeyContent
  | int (value : Int)
  | str (value : String)
  deriving DecidableEq

/-- A Python object, which is a Splice object if it has tags. -/
structure SpliceData (Content : Type) where
  content : Content
  tags : Option Tags
  deriving DecidableEq

namespace SpliceData

variable {Content : Type}

/-- An object that Splice knows nothing of. -/
def plain (content : Content) : SpliceData Content := ⟨content, none⟩

/-- What `isinstance` and `registered_cls` say about a content, and what `splicify` of its class
makes of it: `SpliceDatetime` leaves out the time zone and the fold.  The members of a container
are converted. -/
structure Kinds (Content : Type) where
  noneOrBool : Content → Bool
  registered : Content → Bool
  converted : Content → Content

/-- `splice.to_untrusted`. -/
def toUntrusted (kinds : Kinds Content) (data : SpliceData Content) : SpliceData Content :=
  match data.tags with
  | some tags => { data with tags := some { tags with trusted := false } }
  | none =>
      { content := kinds.converted data.content
        tags := if kinds.registered data.content then some ⟨false, false, emptyTaint⟩ else none }

/-- `SpliceStructMixin.splicify`; `constrained` if there is a callback for constraints. -/
def splicify (kinds : Kinds Content) (data : SpliceData Content) (constrained : Bool) :
    Except PyException (SpliceData Content) :=
  if kinds.noneOrBool data.content then
    if constrained then .error (.valueError "Cannot splificy None value with constraints.")
    else .ok data
  else .ok (data.toUntrusted kinds)

/-- The content of what is stored for an object. -/
def stored (kinds : Kinds Content) (data : SpliceData Content) : Content :=
  if kinds.noneOrBool data.content ∨ data.tags.isSome then data.content
  else kinds.converted data.content

/-- The conversion keeps the object equal to itself; a Splice object is not converted. -/
def Keeps (kinds : Kinds Content) (data : SpliceData Content) : Prop :=
  kinds.noneOrBool data.content = false → data.tags = none →
    kinds.converted data.content = data.content

theorem stored_eq_iff (kinds : Kinds Content) (data : SpliceData Content) :
    data.stored kinds = data.content ↔ data.Keeps kinds := by
  unfold stored Keeps
  cases kinds.noneOrBool data.content <;> cases data.tags <;> simp

theorem splicify_ok (kinds : Kinds Content) (data : SpliceData Content) :
    ∃ item, data.splicify kinds false = .ok item ∧ item.content = data.stored kinds := by
  unfold splicify stored toUntrusted
  cases kinds.noneOrBool data.content <;> cases data.tags <;> exact ⟨_, rfl, rfl⟩

end SpliceData

/-- Both types of keys are registered, and kept as they are. -/
def KeyContent.kinds : SpliceData.Kinds KeyContent := ⟨fun _ => false, fun _ => true, id⟩

/-- `hash` of an `int`, which is reduced with its sign. -/
def pythonHash (value : Int) : Int :=
  let reduced := value.tmod (2 ^ 61 - 1)
  if reduced = -1 then -2 else reduced

/-- `SpliceInt.default_hash`. -/
def SpliceInt.defaultHash (inputInteger : Int) : Int := inputInteger % (2 ^ 63 - 1)

/-- `hash` of a key; `strHash` is that of the strings, which `SpliceStr` inherits. -/
def keyHash (strHash : String → Int) (key : SpliceData KeyContent) : Int :=
  match key.content, key.tags with
  | .str value, _ => strHash value
  | .int value, none => pythonHash value
  | .int value, some _ => SpliceInt.defaultHash value

/-- The hash of the Splice object with a content. -/
def storedHash (strHash : String → Int) : KeyContent → Int
  | .str value => strHash value
  | .int value => SpliceInt.defaultHash value

def keyHashing (strHash : String → Int) : Hashing (SpliceData KeyContent) KeyContent :=
  ⟨keyHash strHash, SpliceData.content⟩

/-- `hashtable.SpliceDict`, whose `UserDict.data` is a built-in dictionary. -/
abbrev SpliceDict (strHash : String → Int) (Content : Type) :=
  HashDict (keyHashing strHash) (SpliceData Content)

/-- The operations of a dictionary; the length has no argument. -/
inductive DictCall (Content : Type)
  | setitem (key : SpliceData KeyContent) (item : SpliceData Content)
  | getitem (key : SpliceData KeyContent)
  | delitem (key : SpliceData KeyContent)
  | contains (key : SpliceData KeyContent)
  | len

/-- What an operation answers; values are compared by their contents. -/
inductive DictAnswer (Content : Type)
  | none
  | value (content : Content)
  | keyError
  | bool (answer : Bool)
  | int (answer : Nat)
  | raised (exception : PyException)
  deriving DecidableEq

variable {Content : Type}

/-- `SpliceDict.__setitem__`. -/
def SpliceDict.setitem {strHash : String → Int} (kinds : SpliceData.Kinds Content)
    (table : SpliceDict strHash Content) (key : SpliceData KeyContent)
    (item : SpliceData Content) : Except PyException (SpliceDict strHash Content) := do
  let key ← key.splicify KeyContent.kinds true
  let item ← item.splicify kinds false
  return table.set key item

/-- An operation of a `SpliceDict`. -/
def SpliceDict.perform {strHash : String → Int} (kinds : SpliceData.Kinds Content)
    (table : SpliceDict strHash Content) :
    DictCall Content → DictAnswer Content × SpliceDict strHash Content
  | .setitem key item =>
      match SpliceDict.setitem kinds table key item with
      | .ok after => (.none, after)
      | .error exception => (.raised exception, table)
  | .getitem key =>
      match table.get? key with
      | some item => (.value item.content, table)
      | none => (.keyError, table)
  | .delitem key =>
      if table.contains key then (.none, table.delete key) else (.keyError, table)
  | .contains key => (.bool (table.contains key), table)
  | .len => (.int table.length, table)

/-- The operation of a built-in dictionary with the contents of the keys. -/
def performBuiltin (dict : PythonDict KeyContent (SpliceData Content)) :
    DictCall Content → DictAnswer Content × PythonDict KeyContent (SpliceData Content)
  | .setitem key item => (.none, dict.set key.content item)
  | .getitem key =>
      match dict.get? key.content with
      | some item => (.value item.content, dict)
      | none => (.keyError, dict)
  | .delitem key =>
      if key.content ∈ dict.keys then (.none, dict.erase key.content) else (.keyError, dict)
  | .contains key => (.bool (key.content ∈ dict.keys), dict)
  | .len => (.int dict.length, dict)

/-- The answers of a sequence of operations. -/
def answers {State : Type*} (perform : State → DictCall Content → DictAnswer Content × State) :
    State → List (DictCall Content) → List (DictAnswer Content)
  | _, [] => []
  | state, call :: rest =>
      let (answer, after) := perform state call
      answer :: answers perform after rest

/-- The key that an operation looks for. -/
def DictCall.soughtKey : DictCall Content → Option (SpliceData KeyContent)
  | .getitem key | .delitem key | .contains key => some key
  | .setitem _ _ | .len => none

/-- The key hashes as it is stored. -/
def Findable (strHash : String → Int) (key : SpliceData KeyContent) : Prop :=
  keyHash strHash key = storedHash strHash key.content

instance (strHash : String → Int) (key : SpliceData KeyContent) :
    Decidable (Findable strHash key) := inferInstanceAs (Decidable (_ = _))

/-- If the operation looks for a key that the dictionary holds, the key hashes as it is stored,
and a value that is to be returned was kept when it was converted. -/
def DictCall.FindsPresent (strHash : String → Int) (kinds : SpliceData.Kinds Content)
    (dict : PythonDict KeyContent (SpliceData Content)) (call : DictCall Content) : Prop :=
  (∀ key ∈ call.soughtKey, key.content ∈ dict.keys → Findable strHash key) ∧
    ∀ key, call = .getitem key → ∀ item ∈ dict.get? key.content, item.Keeps kinds

/-- All operations find what is present. -/
def FindsPresent (strHash : String → Int) (kinds : SpliceData.Kinds Content)
    (dict : PythonDict KeyContent (SpliceData Content)) : List (DictCall Content) → Prop
  | [] => True
  | call :: rest =>
      call.FindsPresent strHash kinds dict ∧
        FindsPresent strHash kinds (performBuiltin dict call).2 rest

section Refinement

variable {strHash : String → Int} {kinds : SpliceData.Kinds Content}
variable {table : SpliceDict strHash Content} {dict : PythonDict KeyContent (SpliceData Content)}

/-- The table stores Splice keys, and what the values of a built-in dictionary are converted
to. -/
def SpliceDict.Holds (kinds : SpliceData.Kinds Content) (table : SpliceDict strHash Content)
    (dict : PythonDict KeyContent (SpliceData Content)) : Prop :=
  HashDict.Represents (storedHash strHash) SpliceData.content (SpliceData.stored kinds) table dict

theorem KeyContent.content_toUntrusted (key : SpliceData KeyContent) :
    (key.toUntrusted KeyContent.kinds).content = key.content := by
  unfold SpliceData.toUntrusted
  split <;> rfl

theorem keyHash_toUntrusted (strHash : String → Int) (key : SpliceData KeyContent) :
    keyHash strHash (key.toUntrusted KeyContent.kinds) = storedHash strHash key.content := by
  rcases key with ⟨_ | _, _ | _⟩ <;> rfl

theorem SpliceDict.Holds.setitem (holds : SpliceDict.Holds kinds table dict)
    (key : SpliceData KeyContent) (item : SpliceData Content) :
    ∃ after, SpliceDict.setitem kinds table key item = .ok after ∧
      SpliceDict.Holds kinds after (dict.set key.content item) := by
  obtain ⟨stored, spliced, same⟩ := item.splicify_ok kinds
  refine ⟨table.set (key.toUntrusted KeyContent.kinds) stored, ?_, ?_⟩
  · unfold SpliceDict.setitem
    rw [spliced]
    rfl
  · have content := KeyContent.content_toUntrusted key
    have hash : (keyHashing strHash).hash (key.toUntrusted KeyContent.kinds) =
        storedHash strHash ((keyHashing strHash).content (key.toUntrusted KeyContent.kinds)) := by
      simp only [keyHashing, content]
      exact keyHash_toUntrusted strHash key
    have set := HashDict.Represents.set holds same hash
    simp only [keyHashing, content] at set
    exact set

/-- A lookup returns the value that was assigned if the key is found and the value was kept,
and only then. -/
theorem SpliceDict.Holds.getitem (holds : SpliceDict.Holds kinds table dict)
    (key : SpliceData KeyContent) :
    (SpliceDict.perform kinds table (.getitem key)).1 = (performBuiltin dict (.getitem key)).1 ↔
      (key.content ∈ dict.keys → Findable strHash key) ∧
        ∀ item ∈ dict.get? key.content, item.Keeps kinds := by
  have found : (table.get? key).map SpliceData.content =
      if Findable strHash key then (dict.get? key.content).map (SpliceData.stored kinds)
      else none :=
    HashDict.Represents.get?_eq holds
  simp only [← PythonDict.isSome_get?_iff, SpliceDict.perform, performBuiltin]
  cases expected : dict.get? key.content with
  | none =>
      have missing : table.get? key = none := by simpa [expected] using found
      simp [missing]
  | some item =>
      rw [expected, Option.map_some] at found
      by_cases findable : Findable strHash key
      · rw [if_pos findable] at found
        obtain ⟨stored, isStored, same⟩ := Option.map_eq_some_iff.mp found
        simp [isStored, same, findable, SpliceData.stored_eq_iff]
      · have missing : table.get? key = none := by simpa [findable] using found
        simp [missing, findable]

/-- An operation answers like a built-in dictionary if it finds what it looks for, and only
then. -/
theorem SpliceDict.Holds.perform (holds : SpliceDict.Holds kinds table dict)
    (call : DictCall Content) :
    ((SpliceDict.perform kinds table call).1 = (performBuiltin dict call).1 ↔
      call.FindsPresent strHash kinds dict) ∧
    (call.FindsPresent strHash kinds dict →
      SpliceDict.Holds kinds (SpliceDict.perform kinds table call).2
        (performBuiltin dict call).2) := by
  have contains (key : SpliceData KeyContent) : table.contains key =
      decide (Findable strHash key ∧ key.content ∈ dict.keys) := by
    rw [Bool.eq_iff_iff, decide_eq_true_eq]
    exact HashDict.Represents.contains_iff holds
  unfold DictCall.FindsPresent
  cases call with
  | setitem key item =>
      obtain ⟨after, set, holdsAfter⟩ := holds.setitem key item
      simp only [SpliceDict.perform, set, performBuiltin, DictCall.soughtKey]
      exact ⟨by simp, fun _ => holdsAfter⟩
  | len =>
      have length : table.length = dict.length := HashDict.Represents.length holds
      simp only [SpliceDict.perform, performBuiltin, length, DictCall.soughtKey]
      exact ⟨by simp, fun _ => holds⟩
  | contains key =>
      simp only [SpliceDict.perform, performBuiltin, DictCall.soughtKey, Option.mem_some_iff]
      refine ⟨?_, fun _ => holds⟩
      by_cases present : key.content ∈ dict.keys <;> simp [present, contains]
  | delitem key =>
      by_cases present : key.content ∈ dict.keys
      · by_cases findable : Findable strHash key
        · have erased := HashDict.Represents.delete holds findable
          simp only [SpliceDict.perform, performBuiltin, contains, findable, present,
            DictCall.soughtKey]
          exact ⟨by simp [findable], fun _ => erased⟩
        · simp [SpliceDict.perform, performBuiltin, contains, findable, present,
            DictCall.soughtKey]
      · simp only [SpliceDict.perform, performBuiltin, contains, present, and_false, decide_false,
          Bool.false_eq_true, if_false, DictCall.soughtKey]
        exact ⟨by simp [present], fun _ => holds⟩
  | getitem key =>
      have returns := holds.getitem key
      refine ⟨by simpa [DictCall.soughtKey] using returns, fun _ => ?_⟩
      simp only [SpliceDict.perform, performBuiltin]
      split <;> split <;> exact holds

theorem SpliceDict.answers_eq_iff_of_holds (holds : SpliceDict.Holds kinds table dict)
    (calls : List (DictCall Content)) :
    answers (SpliceDict.perform kinds) table calls = answers performBuiltin dict calls ↔
      FindsPresent strHash kinds dict calls := by
  induction calls generalizing table dict with
  | nil => exact iff_of_true rfl trivial
  | cons call rest ih =>
      obtain ⟨agrees, kept⟩ := holds.perform call
      simp only [answers, List.cons.injEq, agrees, FindsPresent]
      exact and_congr_right fun finds => ih (kept finds)

/-- Strings and Splice objects are found. -/
theorem findable_str (strHash : String → Int) (value : String) (tags : Option Tags) :
    Findable strHash ⟨.str value, tags⟩ :=
  rfl

theorem findable_splice (strHash : String → Int) (content : KeyContent) (tags : Tags) :
    Findable strHash ⟨content, some tags⟩ := by
  cases content <;> rfl

theorem pythonHash_of_nonneg {value : Int} (nonneg : 0 ≤ value) :
    pythonHash value = value % (2 ^ 61 - 1) := by
  have reduced : value.tmod (2 ^ 61 - 1) = value % (2 ^ 61 - 1) :=
    Int.tmod_eq_emod_of_nonneg nonneg
  have positive : 0 ≤ value % (2 ^ 61 - 1) := Int.emod_nonneg _ (by norm_num)
  simp only [pythonHash, reduced]
  rw [if_neg]
  intro reserved
  rw [reserved] at positive
  contradiction

theorem pythonHash_neg {value : Int} (lower : -(2 ^ 61 - 1) < value) (negative : value < 0) :
    pythonHash value < 0 := by
  have reduced : value.tmod (2 ^ 61 - 1) = value := by
    rw [← neg_neg value, Int.neg_tmod, Int.tmod_eq_of_lt] <;> linarith
  simp only [pythonHash, reduced]
  split
  · norm_num
  · exact negative

/-- Where the hash function of `SpliceInt` does not reduce, a plain integer is found if
and only if that of `int` leaves it as it is. -/
theorem findable_plain_iff (strHash : String → Int) {value : Int}
    (lower : -(2 ^ 61 - 1) < value) (upper : value < 2 ^ 63 - 1) :
    Findable strHash (.plain (.int value)) ↔ 0 ≤ value ∧ value < 2 ^ 61 - 1 := by
  change pythonHash value = SpliceInt.defaultHash value ↔ _
  rcases lt_or_ge value 0 with negative | nonneg
  · have less := pythonHash_neg lower negative
    have positive : 0 ≤ SpliceInt.defaultHash value := Int.emod_nonneg _ (by norm_num)
    constructor
    · intro same
      linarith
    · intro small
      linarith
  · rw [pythonHash_of_nonneg nonneg, SpliceInt.defaultHash, Int.emod_eq_of_lt nonneg upper]
    constructor
    · intro same
      refine ⟨nonneg, ?_⟩
      rw [← same]
      exact Int.emod_lt_of_pos _ (by norm_num)
    · exact fun small => Int.emod_eq_of_lt nonneg small.2

/-- The answers are those of a built-in dictionary if and only if every key that is looked for
while it is present hashes as it is stored, and every value that is returned was converted to an
equal one. -/
theorem SpliceDict.answers_eq_iff (strHash : String → Int) (kinds : SpliceData.Kinds Content)
    (calls : List (DictCall Content)) :
    answers (SpliceDict.perform kinds) (HashDict.empty : SpliceDict strHash Content) calls =
        answers performBuiltin .empty calls ↔
      FindsPresent strHash kinds .empty calls :=
  SpliceDict.answers_eq_iff_of_holds HashDict.Represents.empty calls

/-- `-1` is assigned and looked up. -/
theorem SpliceDict.minus_one_missing :
    ¬ ∀ (strHash : String → Int) (kinds : SpliceData.Kinds Nat) (calls : List (DictCall Nat)),
      answers (SpliceDict.perform kinds) (HashDict.empty : SpliceDict strHash Nat) calls =
        answers performBuiltin .empty calls := by
  intro claimed
  have same := claimed (fun _ => 0) ⟨fun _ => false, fun _ => true, id⟩
    [.setitem (.plain (.int (-1))) (.plain 7), .getitem (.plain (.int (-1)))]
  revert same
  decide

end Refinement

end SaltyRtcServer
