import Mathlib.Data.List.Nodup
import Mathlib.Data.List.Sort
import SaltyRtcServer.PythonDict
import SaltyRtcServer.SpliceDeletion

/-!
# References between objects

`replace.replace_single` finds all references to an object before it changes
the first one, and then writes the new object through each of them, attributes
last.  A reference is found by its source and a relation, such as a name or an
index.  Tuples stay as they are, and so do attributes whose `setattr` raises
`TypeError`; an attribute without a setter raises `AttributeError`, which ends
the loop.
-/

namespace SaltyRtcServer

/-- How a source refers to an object. -/
inductive ReferenceRelation
  /-- `R_ATTRIBUTE` -/
  | attribute (name : String)
  /-- `R_INDEXVAL` of a list or a tuple -/
  | index (position : Nat)
  /-- `R_INDEXVAL` of a dictionary: the value of a key -/
  | item (key : ObjectId)
  /-- `R_INDEXKEY`: the key at a position -/
  | key (position : Nat)
  /-- `R_INTERATTR` of a cell -/
  | content
  /-- `R_LOCAL_VAR` -/
  | localVar (name : String)
  /-- a relation that is not in `_RELATIONS`, or whose function only prints it -/
  | unknown (number : Nat)
  deriving DecidableEq

/-- What `_replace_attribute` can do with an attribute. -/
inductive AttributeAccess
  | writable
  /-- `setattr` raises `TypeError`, or another attribute stands for this one, as `__self__` does
  for `im_self` -/
  | skipped
  /-- `setattr` raises `AttributeError`, as for a property without a setter -/
  | refused
  deriving DecidableEq

section Contents

variable {Content : Type*} (contentOf : ObjectId → Content)

/-- A dictionary whose keys are objects that are compared by their contents. -/
structure ObjectDict where
  entries : List (ObjectId × ObjectId)
  distinct : (entries.map fun entry => contentOf entry.1).Nodup

/-- What an object holds beside its attributes. -/
inductive ReferrerContents
  | nothing
  | list (items : List ObjectId)
  | tuple (items : List ObjectId)
  | dict (dict : ObjectDict contentOf)
  | cell (content : ObjectId)
  | frame (locals : PythonDict String ObjectId)

/-- An object that refers to others. -/
structure Referrer where
  attributes : PythonDict String ObjectId
  access : String → AttributeAccess
  contents : ReferrerContents contentOf
  /-- the targets of unknown relations -/
  unknown : List ObjectId

end Contents

namespace ObjectDict

variable {Content : Type*} [DecidableEq Content] {contentOf : ObjectId → Content}

/-- `dict[key] = value`: a key with the same content stays. -/
def setItem (dict : ObjectDict contentOf) (key value : ObjectId) : ObjectDict contentOf :=
  if absent : contentOf key ∉ dict.entries.map fun entry => contentOf entry.1 then
    ⟨dict.entries ++ [(key, value)], by
      rw [List.map_append, List.map_singleton, List.nodup_append]
      refine ⟨dict.distinct, List.nodup_singleton _, ?_⟩
      intro other mem last lastMem
      rw [List.mem_singleton.mp lastMem]
      rintro rfl
      exact absent mem⟩
  else
    ⟨dict.entries.map fun entry =>
        if contentOf entry.1 = contentOf key then (entry.1, value) else entry, by
      rw [List.map_map]
      convert dict.distinct using 2
      funext entry
      by_cases same : contentOf entry.1 = contentOf key <;> simp [same]⟩

/-- `dict.pop(key)`. -/
def pop (dict : ObjectDict contentOf) (key : ObjectId) :
    Option (ObjectId × ObjectDict contentOf) :=
  (dict.entries.find? fun entry => contentOf entry.1 = contentOf key).map fun entry =>
    (entry.2, ⟨dict.entries.filter fun other => contentOf other.1 ≠ contentOf key,
      dict.distinct.sublist (List.filter_sublist.map _)⟩)

/-- `_replace_indexkey`: `source[new] = source.pop(list(source.keys())[rel])`. -/
def replaceKey (dict : ObjectDict contentOf) (position : Nat) (new : ObjectId) :
    ObjectDict contentOf :=
  match dict.entries[position]? with
  | some (key, _) =>
      match dict.pop key with
      | some (value, rest) => rest.setItem new value
      | none => dict
  | none => dict

end ObjectDict

/-- The positions of an object in a list. -/
def positions (old : ObjectId) (items : List ObjectId) : List Nat :=
  (List.range items.length).filter fun position => items[position]? = some old

/-- The keys with an object as their value. -/
def keysOf {Key : Type*} (old : ObjectId) (entries : List (Key × ObjectId)) : List Key :=
  (entries.filter fun entry => entry.2 = old).map Prod.fst

/-- What every reference to the old object is redirected to. -/
def redirect (old new id : ObjectId) : ObjectId := if id = old then new else id

namespace ReferrerContents

variable {Content : Type*} [DecidableEq Content] {contentOf : ObjectId → Content}

def relationsTo (old : ObjectId) : ReferrerContents contentOf → List ReferenceRelation
  | .nothing => []
  | .list items | .tuple items => (positions old items).map .index
  | .dict mapping =>
      (keysOf old mapping.entries).map .item ++
        (positions old (mapping.entries.map Prod.fst)).map .key
  | .cell content => if content = old then [.content] else []
  | .frame locals => (keysOf old locals.entries).map .localVar

/-- `_replace_indexval`, `_replace_indexkey`, `_replace_interattr` and `_replace_local_var`. -/
def write (new : ObjectId) : ReferrerContents contentOf → ReferenceRelation →
    ReferrerContents contentOf
  | .list items, .index position => .list (items.set position new)
  | .dict mapping, .item key => .dict (mapping.setItem key new)
  | .dict mapping, .key position => .dict (mapping.replaceKey position new)
  | .cell _, .content => .cell new
  | .frame locals, .localVar name => .frame (locals.set name new)
  | contents, _ => contents

end ReferrerContents

namespace Referrer

variable {Content : Type*} [DecidableEq Content] {contentOf : ObjectId → Content}

/-- The relations of a source to an object, which `hp.iso(old).pathsin` lists for all sources. -/
def relationsTo (old : ObjectId) (referrer : Referrer contentOf) : List ReferenceRelation :=
  (keysOf old referrer.attributes.entries).map .attribute ++
    referrer.contents.relationsTo old ++ (positions old referrer.unknown).map .unknown

/-- `_replace_attribute` raises `AttributeError`. -/
def refuses (referrer : Referrer contentOf) : ReferenceRelation → Bool
  | .attribute name => referrer.access name = .refused
  | _ => false

/-- The functions of `_RELATIONS`. -/
def write (new : ObjectId) (referrer : Referrer contentOf) :
    ReferenceRelation → Referrer contentOf
  | .attribute name =>
      if referrer.access name = .writable then
        { referrer with attributes := referrer.attributes.set name new }
      else referrer
  | relation => { referrer with contents := referrer.contents.write new relation }

end Referrer

/-- The objects that refer to others, by their addresses. -/
abbrev ReferenceGraph {Content : Type*} (contentOf : ObjectId → Content) :=
  ObjectId → Referrer contentOf

/-- `_path_key_func`. -/
def pathKey : ObjectId × ReferenceRelation → Nat
  | (_, .attribute _) => 1
  | _ => 0

namespace ReferenceGraph

variable {Content : Type*} [DecidableEq Content] {contentOf : ObjectId → Content}

/-- Write a new object through one path. -/
def follow (new : ObjectId) (graph : ReferenceGraph contentOf)
    (path : ObjectId × ReferenceRelation) : ReferenceGraph contentOf :=
  Function.update graph path.1 ((graph path.1).write new path.2)

/-- `_replace_attribute` raises `AttributeError` for a path. -/
def refuses (graph : ReferenceGraph contentOf) (path : ObjectId × ReferenceRelation) : Bool :=
  (graph path.1).refuses path.2

/-- The loop of `replace_single`, and whether an `AttributeError` ended it. -/
def followAll (new : ObjectId) :
    List (ObjectId × ReferenceRelation) → ReferenceGraph contentOf →
      ReferenceGraph contentOf × Bool
  | [], graph => (graph, false)
  | path :: rest, graph =>
      if graph.refuses path then (graph, true)
      else followAll new rest (graph.follow new path)

/-- `sorted(paths, key=_path_key_func)`. -/
def sortedPaths (paths : List (ObjectId × ReferenceRelation)) :
    List (ObjectId × ReferenceRelation) :=
  paths.insertionSort fun one other => pathKey one ≤ pathKey other

/-- `replace_single`, for the paths that were found. -/
def replaceSingle (graph : ReferenceGraph contentOf) (paths : List (ObjectId × ReferenceRelation))
    (new : ObjectId) : ReferenceGraph contentOf × Bool :=
  followAll new (sortedPaths paths) graph

/-- The paths are all references to an object, each once, in any order. -/
def Lists (graph : ReferenceGraph contentOf) (old : ObjectId)
    (paths : List (ObjectId × ReferenceRelation)) : Prop :=
  ∀ source, ((paths.filter fun path => path.1 = source).map Prod.snd).Perm
    ((graph source).relationsTo old)

end ReferenceGraph

section Slots

variable {old new : ObjectId}

theorem mem_positions {items : List ObjectId} {position : Nat} :
    position ∈ positions old items ↔ items[position]? = some old := by
  rw [positions, List.mem_filter, List.mem_range, decide_eq_true_iff, and_iff_right_iff_imp]
  intro found
  exact (List.getElem?_eq_some_iff.mp found).1

theorem positions_set (different : old ≠ new) {items : List ObjectId} {position : Nat} :
    positions old (items.set position new) = (positions old items).erase position := by
  have distinct : (positions old items).Nodup := List.nodup_range.filter _
  rw [distinct.erase_eq_filter, positions, positions, List.filter_filter, List.length_set]
  apply List.filter_congr
  intro other mem
  rw [List.mem_range] at mem
  by_cases same : other = position
  · subst same
    simp [mem, Ne.symm different]
  · simp [List.getElem?_set_ne (Ne.symm same), same]

theorem positions_eq_nil_iff {items : List ObjectId} : positions old items = [] ↔ old ∉ items := by
  rw [List.eq_nil_iff_forall_not_mem]
  constructor
  · intro nowhere mem
    obtain ⟨position, found⟩ := List.mem_iff_getElem?.mp mem
    exact nowhere position (mem_positions.mpr found)
  · intro absent position mem
    exact absent (List.mem_of_getElem? (mem_positions.mp mem))

/-- Giving one key the new object takes it off the keys of the old one. -/
theorem keysOf_map {Key : Type*} [DecidableEq Key] (different : old ≠ new)
    {entries : List (Key × ObjectId)} (distinct : (entries.map Prod.fst).Nodup) (key : Key) :
    keysOf old (entries.map fun entry => if entry.1 = key then (entry.1, new) else entry) =
      (keysOf old entries).erase key := by
  have keys : (keysOf old entries).Nodup := distinct.sublist (List.filter_sublist.map _)
  have names : (Prod.fst ∘ fun entry : Key × ObjectId =>
      if entry.1 = key then (entry.1, new) else entry) = Prod.fst := by
    funext entry
    by_cases same : entry.1 = key <;> simp [same]
  rw [keys.erase_eq_filter, keysOf, keysOf, List.filter_map, List.map_map, names, List.filter_map,
    List.filter_filter]
  congr 1
  apply List.filter_congr
  rintro ⟨other, value⟩ _
  by_cases same : other = key <;> simp [same, Ne.symm different]

theorem keysOf_eq_nil_iff {Key : Type*} {entries : List (Key × ObjectId)} :
    keysOf old entries = [] ↔ old ∉ entries.map Prod.snd := by
  rw [keysOf, List.map_eq_nil_iff, List.filter_eq_nil_iff]
  constructor
  · intro others mem
    obtain ⟨entry, present, same⟩ := List.mem_map.mp mem
    exact others entry present (decide_eq_true same)
  · intro absent entry present same
    exact absent (List.mem_map.mpr ⟨entry, present, of_decide_eq_true same⟩)

theorem redirect_new (old new : ObjectId) : redirect old new new = new := by
  simp [redirect]

theorem redirect_old (old new : ObjectId) : redirect old new old = new :=
  if_pos rfl

/-- Nothing is redirected where the old object is absent. -/
theorem map_redirect {items : List ObjectId} (absent : old ∉ items) :
    items.map (redirect old new) = items := by
  conv_rhs => rw [← List.map_id items]
  apply List.map_congr_left
  intro id mem
  rw [redirect, if_neg (ne_of_mem_of_not_mem mem absent), id_eq]

theorem positions_of_nodup {items : List ObjectId} {position : Nat} (distinct : items.Nodup)
    (found : items[position]? = some old) : positions old items = [position] := by
  apply List.perm_singleton.mp
  apply (List.perm_ext_iff_of_nodup (List.nodup_range.filter _) (List.nodup_singleton _)).mpr
  intro other
  rw [List.mem_singleton]
  constructor
  · intro mem
    have same := mem_positions.mp mem
    obtain ⟨inside, _⟩ := List.getElem?_eq_some_iff.mp same
    exact (List.getElem?_inj inside distinct).mp (same.trans found.symm)
  · rintro rfl
    exact mem_positions.mpr found

theorem list_set_eq_self {items : List ObjectId} {position : Nat} {id : ObjectId}
    (found : items[position]? = some id) : items.set position id = items := by
  apply List.ext_getElem?
  intro other
  by_cases same : position = other
  · subst same
    rw [found, List.getElem?_set_self (List.getElem?_eq_some_iff.mp found).1]
  · rw [List.getElem?_set_ne same]

end Slots

namespace ObjectDict

variable {Content : Type*} {contentOf : ObjectId → Content} (dict : ObjectDict contentOf)

theorem eq_of_content {entry other : ObjectId × ObjectId} (mem : entry ∈ dict.entries)
    (memOther : other ∈ dict.entries) (same : contentOf entry.1 = contentOf other.1) :
    entry = other :=
  List.inj_on_of_nodup_map dict.distinct mem memOther same

theorem nodup_keys : (dict.entries.map Prod.fst).Nodup := by
  have distinct := dict.distinct
  rw [← Function.comp_def contentOf Prod.fst, ← List.map_map] at distinct
  exact distinct.of_map contentOf

theorem perm_cons_filter {key value : ObjectId} (mem : (key, value) ∈ dict.entries) :
    dict.entries.Perm ((key, value) :: dict.entries.filter fun entry => entry.1 ≠ key) := by
  have nodup : dict.entries.Nodup := dict.nodup_keys.of_map Prod.fst
  apply (List.perm_ext_iff_of_nodup nodup (by
    rw [List.nodup_cons]
    exact ⟨by simp, nodup.filter _⟩)).mpr
  intro entry
  rw [List.mem_cons, List.mem_filter, decide_eq_true_iff]
  constructor
  · intro memEntry
    by_cases same : entry.1 = key
    · exact .inl (dict.eq_of_content memEntry mem (congrArg contentOf same))
    · exact .inr ⟨memEntry, same⟩
  · rintro (rfl | ⟨memEntry, _⟩)
    · exact mem
    · exact memEntry

variable [DecidableEq Content]

/-- Assignment to a key that is there. -/
theorem entries_setItem {key : ObjectId} (present : key ∈ dict.entries.map Prod.fst)
    (value : ObjectId) : (dict.setItem key value).entries =
      dict.entries.map fun entry => if entry.1 = key then (entry.1, value) else entry := by
  obtain ⟨stored, mem, rfl⟩ := List.mem_map.mp present
  have known : ¬ contentOf stored.1 ∉ dict.entries.map fun entry => contentOf entry.1 :=
    not_not.mpr (List.mem_map.mpr ⟨stored, mem, rfl⟩)
  rw [setItem, dif_neg known]
  apply List.map_congr_left
  intro entry memEntry
  by_cases same : contentOf entry.1 = contentOf stored.1
  · rw [dict.eq_of_content memEntry mem same, if_pos rfl, if_pos rfl]
  · have different : entry.1 ≠ stored.1 := fun equal => same (congrArg contentOf equal)
    rw [if_neg same, if_neg different]

theorem pop_eq {key value : ObjectId} (mem : (key, value) ∈ dict.entries) :
    ∃ rest : ObjectDict contentOf, dict.pop key = some (value, rest) ∧
      rest.entries = dict.entries.filter fun entry => entry.1 ≠ key := by
  obtain ⟨found, isFound⟩ : ∃ found, dict.entries.find? (fun entry =>
      decide (contentOf entry.1 = contentOf key)) = some found := by
    rw [← Option.isSome_iff_exists, List.find?_isSome]
    exact ⟨_, mem, decide_eq_true rfl⟩
  have content : contentOf found.1 = contentOf key := by simpa using List.find?_some isFound
  have same := dict.eq_of_content (List.mem_of_find?_eq_some isFound) mem content
  subst same
  refine ⟨_, by rw [pop, isFound]; rfl, ?_⟩
  apply List.filter_congr
  intro entry memEntry
  rw [decide_eq_decide, not_iff_not]
  constructor
  · intro equal
    exact congrArg Prod.fst (dict.eq_of_content memEntry mem equal)
  · exact congrArg contentOf

/-- A key is replaced by one that is no other key. -/
theorem entries_replaceKey {position : Nat} {key value new : ObjectId}
    (found : dict.entries[position]? = some (key, value))
    (fresh : ∀ entry ∈ dict.entries, contentOf entry.1 = contentOf new → entry.1 = key) :
    (dict.replaceKey position new).entries =
      (dict.entries.filter fun entry => entry.1 ≠ key) ++ [(new, value)] := by
  obtain ⟨rest, popped, left⟩ := dict.pop_eq (List.mem_of_getElem? found)
  have absent : contentOf new ∉ rest.entries.map fun entry => contentOf entry.1 := by
    rw [left]
    intro mem
    obtain ⟨entry, kept, same⟩ := List.mem_map.mp mem
    obtain ⟨old, differs⟩ := List.mem_filter.mp kept
    exact of_decide_eq_true differs (fresh entry old same)
  simp only [replaceKey, found, popped]
  rw [setItem, dif_pos absent]
  exact congrArg (· ++ [(new, value)]) left

end ObjectDict

end SaltyRtcServer
