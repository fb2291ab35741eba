import SaltyRtcServer.PythonDict

/-!
# Dictionaries that search by hash

A hash table compares the hash of a stored key with that of the key it looks
for, and only then the keys.  A key that equals a stored one is therefore found
only if their hashes agree as well.
-/

/-- How keys are hashed, and what they are compared by. -/
structure Hashing (Key Content : Type*) where
  hash : Key → Int
  content : Key → Content

/-- A hash table with its entries in the order of insertion. -/
structure HashDict {Key Content : Type*} (hashing : Hashing Key Content) (Value : Type*) where
  entries : List (Key × Value)

namespace HashDict

variable {Key Content Value Given Read : Type*} {hashing : Hashing Key Content}

def empty : HashDict hashing Value := ⟨[]⟩

def length (table : HashDict hashing Value) : Nat := table.entries.length

/-- The entry is found under the key. -/
def Hit (hashing : Hashing Key Content) (key : Key) (entry : Key × Value) : Prop :=
  hashing.hash entry.1 = hashing.hash key ∧ hashing.content entry.1 = hashing.content key

/-- The table stores, under keys with the `canonical` hash of their contents, what becomes of
that which the dictionary holds. -/
structure Represents (canonical : Content → Int) (read : Value → Read) (becomes : Given → Read)
    (table : HashDict hashing Value) (dict : PythonDict Content Given) : Prop where
  entries : table.entries.map (fun entry => (hashing.content entry.1, read entry.2)) =
    dict.entries.map (fun entry => (entry.1, becomes entry.2))
  hashed : ∀ entry ∈ table.entries,
    hashing.hash entry.1 = canonical (hashing.content entry.1)

section Represents

variable {canonical : Content → Int} {read : Value → Read} {becomes : Given → Read}
variable {table : HashDict hashing Value} {dict : PythonDict Content Given} {key : Key}

theorem Represents.empty :
    (HashDict.empty : HashDict hashing Value).Represents canonical read becomes .empty :=
  ⟨rfl, fun _ mem => absurd mem List.not_mem_nil⟩

theorem Represents.length (represents : table.Represents canonical read becomes dict) :
    table.length = dict.length := by
  have lengths := congrArg List.length represents.entries
  rwa [List.length_map, List.length_map] at lengths

theorem Represents.keys (represents : table.Represents canonical read becomes dict) :
    table.entries.map (fun entry => hashing.content entry.1) = dict.keys := by
  have keys := congrArg (List.map Prod.fst) represents.entries
  rwa [List.map_map, List.map_map] at keys

/-- A key whose hash is not the canonical one is never found. -/
theorem Represents.hit_iff (represents : table.Represents canonical read becomes dict)
    {entry : Key × Value} (mem : entry ∈ table.entries) :
    Hit hashing key entry ↔ hashing.hash key = canonical (hashing.content key) ∧
      hashing.content entry.1 = hashing.content key := by
  rw [Hit, represents.hashed entry mem]
  constructor
  · rintro ⟨hash, content⟩
    exact ⟨by rw [← hash, content], content⟩
  · rintro ⟨hash, content⟩
    exact ⟨by rw [hash, content], content⟩

end Represents

section Operations

variable [DecidableEq Content]

instance (key : Key) (entry : Key × Value) : Decidable (Hit hashing key entry) :=
  inferInstanceAs (Decidable (_ ∧ _))

def get? (table : HashDict hashing Value) (key : Key) : Option Value :=
  (table.entries.find? fun entry => Hit hashing key entry).map Prod.snd

def contains (table : HashDict hashing Value) (key : Key) : Bool :=
  table.entries.any fun entry => Hit hashing key entry

/-- A key that is found stays as it was stored. -/
def assign (hashing : Hashing Key Content) (key : Key) (value : Value) (entry : Key × Value) :
    Key × Value :=
  if Hit hashing key entry then (entry.1, value) else entry

def set (table : HashDict hashing Value) (key : Key) (value : Value) : HashDict hashing Value :=
  if table.contains key then ⟨table.entries.map (assign hashing key value)⟩
  else ⟨table.entries ++ [(key, value)]⟩

/-- `del`, for a key that is found. -/
def delete (table : HashDict hashing Value) (key : Key) : HashDict hashing Value :=
  ⟨table.entries.eraseP fun entry => Hit hashing key entry⟩

end Operations

section Refinement

variable [DecidableEq Content] {canonical : Content → Int} {read : Value → Read}
variable {becomes : Given → Read}
variable {table : HashDict hashing Value} {dict : PythonDict Content Given} {key : Key}

theorem Represents.contains_iff (represents : table.Represents canonical read becomes dict) :
    table.contains key = true ↔ hashing.hash key = canonical (hashing.content key) ∧
      hashing.content key ∈ dict.keys := by
  rw [← represents.keys]
  simp only [contains, List.any_eq_true, decide_eq_true_eq, List.mem_map]
  constructor
  · rintro ⟨entry, mem, hit⟩
    obtain ⟨hash, content⟩ := (represents.hit_iff mem).mp hit
    exact ⟨hash, entry, mem, content⟩
  · rintro ⟨hash, entry, mem, content⟩
    exact ⟨entry, mem, (represents.hit_iff mem).mpr ⟨hash, content⟩⟩

theorem Represents.get?_eq (represents : table.Represents canonical read becomes dict) :
    (table.get? key).map read =
      if hashing.hash key = canonical (hashing.content key) then
        (dict.get? (hashing.content key)).map becomes
      else none := by
  by_cases found : table.contains key = true
  · obtain ⟨hash, _⟩ := represents.contains_iff.mp found
    rw [if_pos hash]
    obtain ⟨entry, same⟩ : ∃ entry, table.entries.find? (fun entry => Hit hashing key entry) =
        some entry := Option.isSome_iff_exists.mp (by simpa [contains] using found)
    have mem := List.mem_of_find?_eq_some same
    have hit : Hit hashing key entry := by simpa using List.find?_some same
    have stored : (hashing.content key, read entry.2) ∈
        dict.entries.map (fun entry => (entry.1, becomes entry.2)) := by
      rw [← represents.entries, ← ((represents.hit_iff mem).mp hit).2]
      exact List.mem_map_of_mem mem
    obtain ⟨⟨content, given⟩, held, isStored⟩ := List.mem_map.mp stored
    obtain ⟨rfl, becomes⟩ := Prod.mk.inj isStored
    rw [PythonDict.get?_of_mem_entries held, get?, same, Option.map_some, Option.map_some,
      Option.map_some, becomes]
  · have missing : table.get? key = none := by
      simpa [get?, contains] using found
    rw [missing, Option.map_none]
    split
    · next hash =>
      symm
      rw [Option.map_eq_none_iff, PythonDict.get?_eq_none_iff]
      exact fun mem => found (represents.contains_iff.mpr ⟨hash, mem⟩)
    · rfl

theorem Represents.set (represents : table.Represents canonical read becomes dict)
    {value : Value} {given : Given} (same : read value = becomes given)
    (hash : hashing.hash key = canonical (hashing.content key)) :
    (table.set key value).Represents canonical read becomes
      (dict.set (hashing.content key) given) := by
  by_cases found : table.contains key = true
  · have present := (represents.contains_iff.mp found).2
    simp only [HashDict.set, if_pos found, PythonDict.set, dif_pos present]
    constructor
    · dsimp only
      have assigned (entry : Content × Given) :
          ((PythonDict.replaceEntry (hashing.content key) given entry).1,
            becomes (PythonDict.replaceEntry (hashing.content key) given entry).2) =
          PythonDict.replaceEntry (hashing.content key) (becomes given)
            (entry.1, becomes entry.2) := by
        simp only [PythonDict.replaceEntry]
        split <;> rfl
      rw [List.map_map, List.map_map]
      simp only [Function.comp_def, assigned]
      rw [← Function.comp_def (PythonDict.replaceEntry (hashing.content key) (becomes given)),
        ← List.map_map, ← represents.entries, List.map_map]
      apply List.map_congr_left
      intro entry mem
      have hit : Hit hashing key entry ↔ _ := represents.hit_iff mem
      simp only [Function.comp_apply, assign, PythonDict.replaceEntry, hit, hash, true_and]
      split
      · next isKey => rw [isKey, same]
      · rfl
    · intro entry mem
      obtain ⟨stored, memStored, rfl⟩ := List.mem_map.mp mem
      rw [assign]
      split <;> exact represents.hashed stored memStored
  · have absent : hashing.content key ∉ dict.keys :=
      fun mem => found (represents.contains_iff.mpr ⟨hash, mem⟩)
    simp only [HashDict.set, if_neg found, PythonDict.set, dif_neg absent]
    constructor
    · rw [List.map_append, List.map_append, represents.entries, List.map_singleton,
        List.map_singleton, same]
    · intro entry mem
      rcases List.mem_append.mp mem with old | new
      · exact represents.hashed entry old
      · rw [List.mem_singleton.mp new]
        exact hash

/-- Where at most one element is meant, taking out the first one takes out all. -/
theorem eraseP_eq_filter {Element : Type*} {meant : Element → Bool} {elements : List Element}
    (unique : elements.Pairwise fun one other => meant one = true → meant other = false) :
    elements.eraseP meant = elements.filter fun element => !meant element := by
  induction elements with
  | nil => rfl
  | cons element rest ih =>
      obtain ⟨others, unique⟩ := List.pairwise_cons.mp unique
      cases found : meant element with
      | true =>
          have kept : rest.filter (fun element => !meant element) = rest :=
            List.filter_eq_self.mpr fun other mem => by simp [others other mem found]
          rw [List.eraseP_cons_of_pos found, List.filter_cons_of_neg (by simp [found]), kept]
      | false =>
          rw [List.eraseP_cons_of_neg (by simp [found]),
            List.filter_cons_of_pos (by simp [found]), ih unique]

theorem Represents.delete (represents : table.Represents canonical read becomes dict)
    (hash : hashing.hash key = canonical (hashing.content key)) :
    (table.delete key).Represents canonical read becomes (dict.erase (hashing.content key)) := by
  have unique : table.entries.Pairwise fun one other =>
      decide (Hit hashing key one) = true → decide (Hit hashing key other) = false := by
    have distinct := dict.nodup_keys
    rw [← represents.keys, List.Nodup, List.pairwise_map] at distinct
    refine distinct.imp fun differ hit => ?_
    rw [decide_eq_true_eq] at hit
    rw [decide_eq_false_iff_not]
    exact fun other => differ (hit.2.trans other.2.symm)
  constructor
  · simp only [HashDict.delete, PythonDict.erase]
    have others : (fun entry : Content × Given => decide (entry.1 ≠ hashing.content key)) =
        (fun entry : Content × Read => decide (entry.1 ≠ hashing.content key)) ∘
          fun entry => (entry.1, becomes entry.2) := rfl
    rw [eraseP_eq_filter unique, others, ← List.filter_map, ← represents.entries, List.filter_map]
    congr 1
    apply List.filter_congr
    intro entry mem
    have hit : Hit hashing key entry ↔ _ := represents.hit_iff mem
    simp [hit, hash]
  · intro entry mem
    exact represents.hashed entry (List.mem_of_mem_eraseP mem)

end Refinement

end HashDict
