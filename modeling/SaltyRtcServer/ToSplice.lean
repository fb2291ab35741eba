import Mathlib.Data.List.Forall2
import SaltyRtcServer.Common
import SaltyRtcServer.SpliceTags

/-!
# Conversion of nested values

`SpliceMixin.to_splice` converts the leaves of a value into Splice objects.  It
goes through containers: lists are changed item by item, tuples are made anew,
and sets and dictionaries are emptied and filled again with what their members
were converted to.
-/

namespace SaltyRtcServer

/-- Leaves of the types that have a Splice type. -/
inductive LeafContent (FloatValue : Type)
  | int (value : Int)
  | str (value : String)
  | bytes (value : List UInt8)
  | float (value : FloatValue)
  deriving DecidableEq

/-- The attributes of a Splice object. -/
structure Marks (Callback : Type) where
  tags : Tags
  constraints : List Callback
  deriving DecidableEq

/-- A value without cycles; a leaf is a Splice object if it has marks. -/
inductive PyValue (FloatValue Callback : Type)
  | none
  | bool (value : Bool)
  | leaf (content : LeafContent FloatValue) (marks : Option (Marks Callback))
  | list (items : List (PyValue FloatValue Callback))
  | tuple (items : List (PyValue FloatValue Callback))
  | set (items : List (PyValue FloatValue Callback))
  | dict (items : List (PyValue FloatValue Callback × PyValue FloatValue Callback))

/-- The argument `constraints`; anything else is refused with a `TypeError`. -/
inductive ConstraintsArgument (Callback : Type)
  | none
  | callable (callback : Callback)
  | list (callbacks : List Callback)
  /-- a collection that is no list -/
  | collection (callbacks : List Callback)

/-- The arguments of `to_splice` other than the value. -/
structure SpliceArguments (Callback : Type) where
  trusted : Bool
  synthesized : Bool
  taints : Nat
  constraints : ConstraintsArgument Callback

namespace ConstraintsArgument

variable {Callback : Type}

/-- What `MetaSplice.__call__` makes of the argument. -/
def callbacks : ConstraintsArgument Callback → List Callback
  | .none => []
  | .callable callback => [callback]
  | .list callbacks | .collection callbacks => callbacks

/-- The setter of `SpliceMixin.constraints`, which clears the callbacks for an empty list. -/
def assign (before : List Callback) : ConstraintsArgument Callback → List Callback
  | .list [] => []
  | constraints => before ++ constraints.callbacks

end ConstraintsArgument

namespace SpliceArguments

variable {Callback : Type} (arguments : SpliceArguments Callback)

/-- What leaves are to be tagged with. -/
def tags : Tags := ⟨arguments.trusted, arguments.synthesized, arguments.taints⟩

/-- `splicify` of `SpliceInt`, `SpliceStr`, `SpliceBytes` and `SpliceFloat`: the constructor with
a plain value. -/
def splicify : Except SpliceError (Marks Callback) :=
  (Tags.construct [.other] (some arguments.trusted) (some arguments.synthesized)
    (some arguments.taints)).map fun tags => ⟨tags, arguments.constraints.callbacks⟩

/-- What is assigned to a value that is a Splice object already. -/
def assignTo (marks : Marks Callback) : Marks Callback :=
  ⟨arguments.tags, arguments.constraints.assign marks.constraints⟩

variable {arguments}

/-- The constructor takes flags that are not both set as they are. -/
theorem splicify_eq (consistent : arguments.tags.Consistent) :
    arguments.splicify = .ok ⟨arguments.tags, arguments.constraints.callbacks⟩ := by
  have flags : ¬ (arguments.trusted = true ∧ arguments.synthesized = true) := consistent
  rw [splicify, Tags.construct_other, if_neg flags]
  rfl

end SpliceArguments

section Insertion

variable {Item : Type} (hit : Item → Item → Bool) (replace : Item → Item → Item)

/-- Add an item to a set or a dictionary: an item that is hit is replaced. -/
def insertItem (items : List Item) (item : Item) : List Item :=
  if items.any (hit item) then
    items.map fun stored => if hit item stored then replace stored item else stored
  else items ++ [item]

/-- Items that do not hit each other are all added. -/
theorem foldl_insertItem (items added : List Item)
    (distinct : (items ++ added).Pairwise fun stored item => hit item stored = false) :
    added.foldl (insertItem hit replace) items = items ++ added := by
  induction added generalizing items with
  | nil => rw [List.foldl_nil, List.append_nil]
  | cons item rest ih =>
      have absent : items.any (hit item) = false := by
        rw [List.any_eq_false]
        intro stored mem
        rw [Bool.not_eq_true]
        exact (List.pairwise_append.mp distinct).2.2 stored mem item List.mem_cons_self
      rw [List.append_cons] at distinct ⊢
      rw [List.foldl_cons, insertItem, absent, if_neg Bool.false_ne_true, ih _ distinct]

end Insertion

namespace PyValue

variable {FloatValue Callback : Type}

mutual

/-- The value with `unsplicify` called for every leaf. -/
def unsplicified : PyValue FloatValue Callback → PyValue FloatValue Callback
  | .none => .none
  | .bool value => .bool value
  | .leaf content _ => .leaf content Option.none
  | .list items => .list (unsplicifiedAll items)
  | .tuple items => .tuple (unsplicifiedAll items)
  | .set items => .set (unsplicifiedAll items)
  | .dict items => .dict (unsplicifiedItems items)

def unsplicifiedAll : List (PyValue FloatValue Callback) → List (PyValue FloatValue Callback)
  | [] => []
  | item :: rest => item.unsplicified :: unsplicifiedAll rest

def unsplicifiedItems :
    List (PyValue FloatValue Callback × PyValue FloatValue Callback) →
      List (PyValue FloatValue Callback × PyValue FloatValue Callback)
  | [] => []
  | (key, value) :: rest => (key.unsplicified, value.unsplicified) :: unsplicifiedItems rest

end

mutual

/-- The marks of all leaves of the types that have a Splice type. -/
def leafMarks : PyValue FloatValue Callback → List (Option (Marks Callback))
  | .none | .bool _ => []
  | .leaf _ marks => [marks]
  | .list items | .tuple items | .set items => leafMarksAll items
  | .dict items => leafMarksItems items

def leafMarksAll : List (PyValue FloatValue Callback) → List (Option (Marks Callback))
  | [] => []
  | item :: rest => item.leafMarks ++ leafMarksAll rest

def leafMarksItems :
    List (PyValue FloatValue Callback × PyValue FloatValue Callback) →
      List (Option (Marks Callback))
  | [] => []
  | (key, value) :: rest => key.leafMarks ++ value.leafMarks ++ leafMarksItems rest

end

/-- How sets and dictionaries find a key: the hashes are compared first, and then the contents
with `==`, which does not see marks. -/
structure KeyEquality (FloatValue Callback : Type) where
  hash : PyValue FloatValue Callback → Int
  same : PyValue FloatValue Callback → PyValue FloatValue Callback → Bool

namespace KeyEquality

variable (equality : KeyEquality FloatValue Callback)

def hit (key stored : PyValue FloatValue Callback) : Bool :=
  equality.hash stored == equality.hash key &&
    equality.same stored.unsplicified key.unsplicified

/-- `set.update` of an empty set. -/
def setOf (items : List (PyValue FloatValue Callback)) : List (PyValue FloatValue Callback) :=
  items.foldl (insertItem equality.hit fun stored _ => stored) []

/-- A dictionary display, and `dict.update` of an empty dictionary. -/
def dictOf (items : List (PyValue FloatValue Callback × PyValue FloatValue Callback)) :
    List (PyValue FloatValue Callback × PyValue FloatValue Callback) :=
  items.foldl (insertItem (fun item stored => equality.hit item.1 stored.1)
    fun stored item => (stored.1, item.2)) []

end KeyEquality

mutual

/-- `SpliceMixin.to_splice`. -/
def toSplice (equality : KeyEquality FloatValue Callback) (arguments : SpliceArguments Callback) :
    PyValue FloatValue Callback → Except SpliceError (PyValue FloatValue Callback)
  | .leaf content (some marks) => .ok (.leaf content (some (arguments.assignTo marks)))
  | .bool value => .ok (.bool value)
  | .leaf content Option.none => do
      let marks ← arguments.splicify
      return .leaf content (some marks)
  | .list items => do
      let items ← toSpliceAll equality arguments items
      return .list items
  | .tuple items => do
      let items ← toSpliceAll equality arguments items
      return .tuple items
  | .set items => do
      let listCopy ← toSpliceAll equality arguments items
      return .set (equality.setOf listCopy)
  | .dict items => do
      let items ← toSpliceItems equality arguments items
      let dictCopy := equality.dictOf items
      return .dict (equality.dictOf dictCopy)
  | .none => .ok .none

def toSpliceAll (equality : KeyEquality FloatValue Callback)
    (arguments : SpliceArguments Callback) :
    List (PyValue FloatValue Callback) →
      Except SpliceError (List (PyValue FloatValue Callback))
  | [] => .ok []
  | item :: rest => do
      let item ← toSplice equality arguments item
      let rest ← toSpliceAll equality arguments rest
      return item :: rest

def toSpliceItems (equality : KeyEquality FloatValue Callback)
    (arguments : SpliceArguments Callback) :
    List (PyValue FloatValue Callback × PyValue FloatValue Callback) →
      Except SpliceError (List (PyValue FloatValue Callback × PyValue FloatValue Callback))
  | [] => .ok []
  | (key, value) :: rest => do
      let key ← toSplice equality arguments key
      let value ← toSplice equality arguments value
      let rest ← toSpliceItems equality arguments rest
      return (key, value) :: rest

end

theorem unsplicifiedAll_eq (items : List (PyValue FloatValue Callback)) :
    unsplicifiedAll items = items.map unsplicified := by
  induction items with
  | nil => rfl
  | cons item rest ih => rw [unsplicifiedAll, List.map_cons, ih]

theorem unsplicifiedItems_eq
    (items : List (PyValue FloatValue Callback × PyValue FloatValue Callback)) :
    unsplicifiedItems items = items.map (Prod.map unsplicified unsplicified) := by
  induction items with
  | nil => rfl
  | cons item rest ih => rw [unsplicifiedItems, List.map_cons, ih, Prod.map]

/-- The members of every set, and the keys of every dictionary, are different from each
other. -/
inductive Proper (equality : KeyEquality FloatValue Callback) :
    PyValue FloatValue Callback → Prop
  | none : Proper equality .none
  | bool (value : Bool) : Proper equality (.bool value)
  | leaf (content : LeafContent FloatValue) (marks : Option (Marks Callback)) :
      Proper equality (.leaf content marks)
  | list {items : List (PyValue FloatValue Callback)} :
      (∀ item ∈ items, Proper equality item) → Proper equality (.list items)
  | tuple {items : List (PyValue FloatValue Callback)} :
      (∀ item ∈ items, Proper equality item) → Proper equality (.tuple items)
  | set {items : List (PyValue FloatValue Callback)} :
      (∀ item ∈ items, Proper equality item) →
      ((items.map unsplicified).Pairwise fun stored item => equality.same stored item = false) →
      Proper equality (.set items)
  | dict {items : List (PyValue FloatValue Callback × PyValue FloatValue Callback)} :
      (∀ item ∈ items, Proper equality item.1) → (∀ item ∈ items, Proper equality item.2) →
      ((items.map fun item => item.1.unsplicified).Pairwise
        fun stored item => equality.same stored item = false) →
      Proper equality (.dict items)

/-- A value of the same shape and content, with all leaves tagged as the arguments say. -/
structure Tainted (equality : KeyEquality FloatValue Callback)
    (arguments : SpliceArguments Callback) (value result : PyValue FloatValue Callback) : Prop where
  content : result.unsplicified = value.unsplicified
  marked : ∀ marks ∈ result.leafMarks, ∃ constraints, marks = some ⟨arguments.tags, constraints⟩
  proper : result.Proper equality

/-- Keys and values are converted. -/
abbrev TaintedItems (equality : KeyEquality FloatValue Callback)
    (arguments : SpliceArguments Callback) :=
  List.Forall₂ fun (item result : PyValue FloatValue Callback × PyValue FloatValue Callback) =>
    Tainted equality arguments item.1 result.1 ∧ Tainted equality arguments item.2 result.2

section Conversion

variable {equality : KeyEquality FloatValue Callback} {arguments : SpliceArguments Callback}
variable {items results : List (PyValue FloatValue Callback)}
variable {entries entriesAfter : List (PyValue FloatValue Callback × PyValue FloatValue Callback)}

/-- Items with different contents are all taken into a set. -/
theorem setOf_eq (distinct : (items.map unsplicified).Pairwise
    fun stored item => equality.same stored item = false) : equality.setOf items = items := by
  rw [List.pairwise_map] at distinct
  refine foldl_insertItem _ _ [] items (distinct.imp fun differ => ?_)
  rw [KeyEquality.hit, differ, Bool.and_false]

theorem dictOf_eq (distinct : (entries.map fun item => item.1.unsplicified).Pairwise
    fun stored item => equality.same stored item = false) :
    equality.dictOf entries = entries := by
  rw [List.pairwise_map] at distinct
  refine foldl_insertItem _ _ [] entries (distinct.imp fun differ => ?_)
  rw [KeyEquality.hit, differ, Bool.and_false]

/-- The items of a container are converted one by one. -/
theorem toSpliceAll_tainted (each : ∀ item ∈ items, ∃ result,
    toSplice equality arguments item = .ok result ∧ Tainted equality arguments item result) :
    ∃ results, toSpliceAll equality arguments items = .ok results ∧
      List.Forall₂ (Tainted equality arguments) items results := by
  induction items with
  | nil => exact ⟨[], rfl, .nil⟩
  | cons item rest ih =>
      obtain ⟨first, others⟩ := List.forall_mem_cons.mp each
      obtain ⟨result, converted, tainted⟩ := first
      obtain ⟨results, convertedAll, taintedAll⟩ := ih others
      refine ⟨result :: results, ?_, .cons tainted taintedAll⟩
      rw [toSpliceAll, converted, convertedAll]
      rfl

theorem toSpliceItems_tainted
    (keys : ∀ item ∈ entries, ∃ result,
      toSplice equality arguments item.1 = .ok result ∧ Tainted equality arguments item.1 result)
    (values : ∀ item ∈ entries, ∃ result,
      toSplice equality arguments item.2 = .ok result ∧ Tainted equality arguments item.2 result) :
    ∃ results, toSpliceItems equality arguments entries = .ok results ∧
      TaintedItems equality arguments entries results := by
  induction entries with
  | nil => exact ⟨[], rfl, .nil⟩
  | cons item rest ih =>
      obtain ⟨firstKey, otherKeys⟩ := List.forall_mem_cons.mp keys
      obtain ⟨firstValue, otherValues⟩ := List.forall_mem_cons.mp values
      obtain ⟨key, convertedKey, taintedKey⟩ := firstKey
      obtain ⟨value, convertedValue, taintedValue⟩ := firstValue
      obtain ⟨results, convertedAll, taintedAll⟩ := ih otherKeys otherValues
      refine ⟨(key, value) :: results, ?_, .cons ⟨taintedKey, taintedValue⟩ taintedAll⟩
      rw [toSpliceItems, convertedKey, convertedValue, convertedAll]
      rfl

/-- The contents of the items of a container are kept. -/
theorem map_unsplicified (tainted : List.Forall₂ (Tainted equality arguments) items results) :
    results.map unsplicified = items.map unsplicified := by
  induction tainted with
  | nil => rfl
  | cons first _ ih => rw [List.map_cons, List.map_cons, first.content, ih]

theorem unsplicifiedAll_of_tainted
    (tainted : List.Forall₂ (Tainted equality arguments) items results) :
    unsplicifiedAll results = unsplicifiedAll items := by
  rw [unsplicifiedAll_eq, unsplicifiedAll_eq, map_unsplicified tainted]

theorem marked_leafMarksAll (tainted : List.Forall₂ (Tainted equality arguments) items results) :
    ∀ marks ∈ leafMarksAll results, ∃ constraints, marks = some ⟨arguments.tags, constraints⟩ := by
  induction tainted with
  | nil => simp [leafMarksAll]
  | cons first _ ih =>
      rw [leafMarksAll, List.forall_mem_append]
      exact ⟨first.marked, ih⟩

theorem proper_of_tainted (tainted : List.Forall₂ (Tainted equality arguments) items results) :
    ∀ result ∈ results, result.Proper equality := by
  induction tainted with
  | nil => simp
  | cons first _ ih => exact List.forall_mem_cons.mpr ⟨first.proper, ih⟩

theorem map_unsplicified_items (tainted : TaintedItems equality arguments entries entriesAfter) :
    entriesAfter.map (Prod.map unsplicified unsplicified) =
      entries.map (Prod.map unsplicified unsplicified) := by
  induction tainted with
  | nil => rfl
  | cons first _ ih =>
      rw [List.map_cons, List.map_cons, Prod.map, Prod.map, first.1.content, first.2.content, ih]

theorem map_unsplicified_keys (tainted : TaintedItems equality arguments entries entriesAfter) :
    entriesAfter.map (fun item => item.1.unsplicified) =
      entries.map fun item => item.1.unsplicified := by
  have same := congrArg (List.map Prod.fst) (map_unsplicified_items tainted)
  rwa [List.map_map, List.map_map] at same

theorem unsplicifiedItems_of_tainted
    (tainted : TaintedItems equality arguments entries entriesAfter) :
    unsplicifiedItems entriesAfter = unsplicifiedItems entries := by
  rw [unsplicifiedItems_eq, unsplicifiedItems_eq, map_unsplicified_items tainted]

theorem marked_leafMarksItems (tainted : TaintedItems equality arguments entries entriesAfter) :
    ∀ marks ∈ leafMarksItems entriesAfter,
      ∃ constraints, marks = some ⟨arguments.tags, constraints⟩ := by
  induction tainted with
  | nil => simp [leafMarksItems]
  | cons first _ ih =>
      rw [leafMarksItems, List.forall_mem_append, List.forall_mem_append]
      exact ⟨⟨first.1.marked, first.2.marked⟩, ih⟩

theorem proper_of_taintedItems (tainted : TaintedItems equality arguments entries entriesAfter) :
    (∀ result ∈ entriesAfter, result.1.Proper equality) ∧
      ∀ result ∈ entriesAfter, result.2.Proper equality := by
  induction tainted with
  | nil => simp
  | cons first _ ih =>
      exact ⟨List.forall_mem_cons.mpr ⟨first.1.proper, ih.1⟩,
        List.forall_mem_cons.mpr ⟨first.2.proper, ih.2⟩⟩

/-- The induction over the value. -/
theorem exists_toSplice (equality : KeyEquality FloatValue Callback)
    (arguments : SpliceArguments Callback) (value : PyValue FloatValue Callback)
    (proper : value.Proper equality) (consistent : arguments.tags.Consistent) :
    ∃ result, toSplice equality arguments value = .ok result ∧
      Tainted equality arguments value result := by
  induction proper with
  | none => exact ⟨.none, rfl, rfl, by simp [leafMarks], .none⟩
  | bool value => exact ⟨.bool value, rfl, rfl, by simp [leafMarks], .bool value⟩
  | leaf content marks =>
      cases marks with
      | none =>
          refine ⟨.leaf content (some ⟨arguments.tags, arguments.constraints.callbacks⟩), ?_, rfl,
            ?_, .leaf content _⟩
          · rw [toSplice, arguments.splicify_eq consistent]
            rfl
          · rw [leafMarks, List.forall_mem_singleton]
            exact ⟨_, rfl⟩
      | some marks =>
          refine ⟨.leaf content (some (arguments.assignTo marks)), rfl, rfl, ?_, .leaf content _⟩
          rw [leafMarks, List.forall_mem_singleton]
          exact ⟨_, rfl⟩
  | @list items each ih =>
      obtain ⟨results, converted, tainted⟩ := toSpliceAll_tainted ih
      refine ⟨.list results, ?_, congrArg list (unsplicifiedAll_of_tainted tainted),
        marked_leafMarksAll tainted, .list (proper_of_tainted tainted)⟩
      rw [toSplice, converted]
      rfl
  | @tuple items each ih =>
      obtain ⟨results, converted, tainted⟩ := toSpliceAll_tainted ih
      refine ⟨.tuple results, ?_, congrArg tuple (unsplicifiedAll_of_tainted tainted),
        marked_leafMarksAll tainted, .tuple (proper_of_tainted tainted)⟩
      rw [toSplice, converted]
      rfl
  | @set items each distinct ih =>
      obtain ⟨results, converted, tainted⟩ := toSpliceAll_tainted ih
      rw [← map_unsplicified tainted] at distinct
      refine ⟨.set results, ?_, congrArg set (unsplicifiedAll_of_tainted tainted),
        marked_leafMarksAll tainted, .set (proper_of_tainted tainted) distinct⟩
      rw [toSplice, converted]
      exact congrArg (fun members => Except.ok (PyValue.set members)) (setOf_eq distinct)
  | @dict items keys values distinct ihKeys ihValues =>
      obtain ⟨results, converted, tainted⟩ := toSpliceItems_tainted ihKeys ihValues
      obtain ⟨properKeys, properValues⟩ := proper_of_taintedItems tainted
      rw [← map_unsplicified_keys tainted] at distinct
      refine ⟨.dict results, ?_, congrArg dict (unsplicifiedItems_of_tainted tainted),
        marked_leafMarksItems tainted, .dict properKeys properValues distinct⟩
      have refilled : equality.dictOf (equality.dictOf results) = results := by
        rw [dictOf_eq distinct, dictOf_eq distinct]
      rw [toSplice, converted]
      exact congrArg (fun entries => Except.ok (PyValue.dict entries)) refilled

/-- Every proper value is converted, with all of its leaves and nothing else changed; a part that
is reached a second time stays as it should be. -/
theorem toSplice_tainted (equality : KeyEquality FloatValue Callback)
    (arguments : SpliceArguments Callback) (value : PyValue FloatValue Callback)
    (proper : value.Proper equality) (consistent : arguments.tags.Consistent) :
    ∃ result, toSplice equality arguments value = .ok result ∧
      Tainted equality arguments value result ∧
      ∃ again, toSplice equality arguments result = .ok again ∧
        Tainted equality arguments value again := by
  obtain ⟨result, converted, tainted⟩ := exists_toSplice equality arguments value proper consistent
  obtain ⟨again, convertedAgain, taintedAgain⟩ :=
    exists_toSplice equality arguments result tainted.proper consistent
  exact ⟨result, converted, tainted, again, convertedAgain,
    taintedAgain.content.trans tainted.content, taintedAgain.marked, taintedAgain.proper⟩

end Conversion

/-- Equality of keys that are leaves, with a hash that does not tell them apart. -/
def leafEquality : KeyEquality Int String where
  hash _ := 0
  same
    | .leaf one _, .leaf other _ => one == other
    | _, _ => false

/-- A dictionary with a list and a set. -/
def exampleValue : PyValue Int String :=
  .dict [(.leaf (.str "list") Option.none, .list [.leaf (.int 5) Option.none, .none]),
    (.leaf (.str "set") Option.none,
      .set [.leaf (.bytes [1]) Option.none, .leaf (.bytes [2]) Option.none])]

theorem exampleValue_proper : exampleValue.Proper leafEquality := by
  have leaves : ∀ content, Proper leafEquality (.leaf content Option.none) :=
    fun content => .leaf content _
  refine .dict (by simp [leaves]) ?_ (by decide)
  simp only [List.forall_mem_cons]
  exact ⟨.list (by simp [leaves, Proper.none]), .set (by simp [leaves]) (by decide), by simp⟩

/-- It is converted, and its content is the same. -/
theorem toSplice_tainted_example : ∃ result,
    toSplice leafEquality ⟨false, true, 4, .callable "concretize"⟩ exampleValue = .ok result ∧
      result.unsplicified = exampleValue := by
  obtain ⟨result, converted, tainted, _⟩ := toSplice_tainted leafEquality
    ⟨false, true, 4, .callable "concretize"⟩ exampleValue exampleValue_proper (by decide)
  exact ⟨result, converted, tainted.content⟩

end PyValue

end SaltyRtcServer
