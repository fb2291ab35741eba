import SaltyRtcServer.SpliceDeletion
import SaltyRtcServer.NestedTags
import SaltyRtcServer.TwoRuns

/-!
# What the deletion of a client forgets

The methods of Splice objects are decorated: their results are converted into
objects that carry the taints of all arguments, and an object that a method has
changed takes these taints as well.  A program is run here twice, with the same
methods but with other data of one client.  As long as taints follow the data,
the deletion of this client leaves no difference but in synthesized values.
-/

namespace SaltyRtcServer

open StepMachine

/-- A name of the program: a place of the heap, or a value whose type has no Splice
type, such as a bool. -/
inductive Name
  | object (place : Nat)
  | plain (index : Nat)
  deriving DecidableEq

/-- An argument of a call: one of the values that the call is made with, by its position, or a
list or dictionary of arguments. -/
inductive Shape
  | item (index : Nat)
  | sequence (items : List Shape)
  | mapping (items : List (Shape × Shape))

/-- A value, with the tags that Splice adds to it. -/
structure Datum (Value : Type*) where
  value : Value
  tags : Option Tags
  deriving DecidableEq

/-- What a method returns, as far as the decorator distinguishes it. -/
inductive MethodResult (Value : Type*)
  /-- `None` or `NotImplemented` -/
  | nothing
  /-- one of the values of the call, which is a Splice object already -/
  | argument (index : Nat)
  /-- a Splice object that the method has created, with tags of its own -/
  | object (value : Value) (tags : Tags)
  | value (value : Value)
  /-- a list or a tuple, whose members are converted -/
  | values (values : List Value)
  deriving DecidableEq

/-- A method before it is decorated, for arguments of a given shape.  One without a result always
returns `None`.  Class and static methods, and the methods of immutable types, have no update of
their first argument. -/
structure Method (Value : Type*) where
  result : Option (List Value → MethodResult Value)
  update : Option (List Value → Value)

def Method.returned {Value : Type*} (method : Method Value) (values : List Value) :
    MethodResult Value :=
  match method.result with
  | none => .nothing
  | some result => result values

/-- The steps of a program, where only the first one depends on a client. -/
inductive FlowAction (Value Constraint : Type*)
  /-- `to_splice` of what the client at a position of the taint has sent -/
  | receive (position : Nat) (value : Value) (constraints : List Constraint)
  | call (method : Method Value) (names : List Name) (shapes : List Shape)
  /-- a reference is dropped -/
  | forget (place : Nat)

namespace Datum

variable {Value : Type*}

def operand (datum : Datum Value) : Operand :=
  match datum.tags with
  | some tags => .splice tags
  | none => .other

def carries (position : Nat) (datum : Datum Value) : Bool :=
  datum.tags.any fun tags => tags.taints.testBit position

/-- The same in both runs, or data of the client in both. -/
def Alike (position : Nat) (one other : Datum Value) : Prop :=
  one = other ∨ one.carries position = true ∧ other.carries position = true

theorem any_leavesWithin_operand (datum : Datum Value) (depth position : Nat) :
    (datum.operand.leavesWithin depth).any (fun tags => tags.taints.testBit position) =
      datum.carries position := by
  obtain ⟨value, _ | tags⟩ := datum
  · cases depth <;> simp [operand, carries, Operand.leavesWithin]
  · cases depth <;> simp [operand, carries, Operand.leavesWithin]

end Datum

namespace Shape

variable {Value : Type*}

mutual

/-- An argument, as far as the decorator inspects it. -/
def operand (data : List (Datum Value)) : Shape → Operand
  | .item index => (data[index]?.map Datum.operand).getD .other
  | .sequence items => .sequence (operands data items)
  | .mapping items => .mapping (operandItems data items)

def operands (data : List (Datum Value)) : List Shape → List Operand
  | [] => []
  | shape :: rest => shape.operand data :: operands data rest

def operandItems (data : List (Datum Value)) : List (Shape × Shape) → List (Operand × Operand)
  | [] => []
  | (key, value) :: rest => (key.operand data, value.operand data) :: operandItems data rest

end

/-- The positions of the values inside of at most `depth` containers. -/
def itemsWithin : Nat → Shape → List Nat
  | _, .item index => [index]
  | 0, _ => []
  | depth + 1, .sequence items => items.flatMap (itemsWithin depth)
  | depth + 1, .mapping items =>
      items.flatMap fun item => itemsWithin depth item.1 ++ itemsWithin depth item.2

/-- Data of the client lies inside of at most two containers of an argument. -/
def shown (position : Nat) (data : List (Datum Value)) (shapes : List Shape) : Bool :=
  shapes.any fun shape =>
    (shape.itemsWithin 2).any fun index => data[index]?.any (Datum.carries position)

/-- The first argument of a call. -/
def self? (data : List (Datum Value)) : List Shape → Option (Datum Value)
  | .item index :: _ => data[index]?
  | _ => none

end Shape

namespace SpliceObject

variable {Value Resource Constraint : Type*}

def tags (object : SpliceObject Value Resource Constraint) : Tags :=
  ⟨object.trusted, object.synthesized, object.taints⟩

/-- A new value with its tags. -/
def ofTags (value : Value) (constraints : List Constraint) (tags : Tags) :
    SpliceObject Value Resource Constraint :=
  ⟨.value value constraints, tags.trusted, tags.synthesized, tags.taints⟩

/-- The value of a `SpliceMixin` object. -/
def datum (object : SpliceObject Value Resource Constraint) : Option (Datum Value) :=
  match object.body with
  | .value value _ => some ⟨value, some object.tags⟩
  | .system _ => none

def carries (position : Nat) (object : SpliceObject Value Resource Constraint) : Bool :=
  object.taints.testBit position

/-- The same in both runs, or with data of the client in both. -/
def Alike (position : Nat) (one other : SpliceObject Value Resource Constraint) : Prop :=
  one = other ∨ one.carries position = true ∧ other.carries position = true

end SpliceObject

/-- The heap and the values without a Splice type. -/
structure Flow (Value Resource Constraint : Type*) where
  heap : Heap Value Resource Constraint
  plain : List Value

namespace Heap

variable {Value Resource Constraint : Type*}

/-- A new object, which a new place refers to. -/
def allocate (heap : Heap Value Resource Constraint)
    (object : SpliceObject Value Resource Constraint) : Heap Value Resource Constraint where
  object := Function.update heap.object heap.next object
  next := heap.next + 1
  references := heap.references ++ [heap.next]
  created id mem := by
    rcases List.mem_append.mp mem with old | new
    · exact Nat.lt_succ_of_lt (heap.created id old)
    · cases List.mem_singleton.mp new
      exact Nat.lt_succ_self _

/-- Another place refers to what a place refers to. -/
def share (heap : Heap Value Resource Constraint) (place : Nat) :
    Heap Value Resource Constraint :=
  { heap with
    references := heap.references ++ heap.references[place]?.toList
    created := by
      intro id mem
      rcases List.mem_append.mp mem with old | new
      · exact heap.created id old
      · exact heap.created id (List.mem_of_getElem? (Option.mem_toList.mp new)) }

/-- A place is left. -/
def leave (heap : Heap Value Resource Constraint) (place : Nat) :
    Heap Value Resource Constraint :=
  { heap with
    references := heap.references.eraseIdx place
    created := fun id mem => heap.created id (List.mem_of_mem_eraseIdx mem) }

/-- The object that a place refers to. -/
def at? (heap : Heap Value Resource Constraint) (place : Nat) :
    Option (SpliceObject Value Resource Constraint) :=
  heap.references[place]?.map heap.object

end Heap

namespace Flow

variable {Value Resource Constraint : Type*}

/-- Two runs differ at most in objects with data of the client. -/
structure Alike (position : Nat) (one other : Flow Value Resource Constraint) : Prop where
  plain : one.plain = other.plain
  next : one.heap.next = other.heap.next
  references : one.heap.references = other.heap.references
  objects : ∀ id, SpliceObject.Alike position (one.heap.object id) (other.heap.object id)

def read (flow : Flow Value Resource Constraint) : Name → Option (Datum Value)
  | .object place => (flow.heap.at? place).bind SpliceObject.datum
  | .plain index => flow.plain[index]?.map fun value => ⟨value, none⟩

variable (registered : Value → Bool)

/-- `to_splice` of a value that is no Splice object yet. -/
def convert (tags : Tags) (flow : Flow Value Resource Constraint) (value : Value) :
    Flow Value Resource Constraint :=
  if registered value then { flow with heap := flow.heap.allocate (.ofTags value [] tags) }
  else { flow with plain := flow.plain ++ [value] }

/-- What the decorator does with the result. -/
def bindResult (flow : Flow Value Resource Constraint) (names : List Name) (shapes : List Shape)
    (data : List (Datum Value)) : MethodResult Value → Option (Flow Value Resource Constraint)
  | .nothing => some flow
  | .argument index =>
      match names[index]? with
      | some (.object place) => some { flow with heap := flow.heap.share place }
      | _ => none
  | .object value tags => some { flow with heap := flow.heap.allocate (.ofTags value [] tags) }
  | .value value =>
      some (flow.convert registered (.returned (shapes.map (Shape.operand data))) value)
  | .values values =>
      some (values.foldl (convert registered (.returned (shapes.map (Shape.operand data)))) flow)

variable [DecidableEq Value]

/-- The first argument is compared with a copy that was made before the call, and takes
the tags of all arguments if it has changed. -/
def updated (object : SpliceObject Value Resource Constraint) (value : Value)
    (others : List Operand) : SpliceObject Value Resource Constraint :=
  match object.body with
  | .value old constraints =>
      .ofTags value constraints (object.tags.called others (decide (old ≠ value)))
  | .system _ => object

/-- The changes that a method makes in place. -/
def change (flow : Flow Value Resource Constraint) (method : Method Value) (names : List Name)
    (shapes : List Shape) (data : List (Datum Value)) : Option (Flow Value Resource Constraint) :=
  match method.update with
  | none => some flow
  | some update =>
      match shapes with
      | .item index :: others =>
          match names[index]? with
          | some (.object place) =>
              flow.heap.references[place]?.map fun id =>
                { flow with
                  heap := flow.heap.setObject id (updated (flow.heap.object id)
                    (update (data.map Datum.value)) (others.map (Shape.operand data))) }
          | _ => none
      | _ => none

/-- `wrapper` of `to_splice_method`. -/
def call (flow : Flow Value Resource Constraint) (method : Method Value) (names : List Name)
    (shapes : List Shape) : Option (Flow Value Resource Constraint) :=
  (names.mapM flow.read).bind fun data =>
    (flow.change method names shapes data).bind fun changed =>
      changed.bindResult registered names shapes data (method.returned (data.map Datum.value))

def step (flow : Flow Value Resource Constraint) :
    FlowAction Value Constraint → Option (Flow Value Resource Constraint)
  | .receive position value constraints =>
      some { flow with
        heap := flow.heap.allocate (.ofTags value constraints ⟨true, false, 1 <<< position⟩) }
  | .call method names shapes => flow.call registered method names shapes
  | .forget place => some { flow with heap := flow.heap.leave place }

/-- A program that was started with some objects. -/
def machine (start : Flow Value Resource Constraint) :
    Machine (Flow Value Resource Constraint) (FlowAction Value Constraint) :=
  ⟨fun flow => flow = start, step registered⟩

/-- The steps of two runs differ at most in what the client has sent. -/
inductive SameProgram (position : Nat) :
    FlowAction Value Constraint → FlowAction Value Constraint → Prop
  | same (action : FlowAction Value Constraint) : SameProgram position action action
  | received (one other : Value) (constraints others : List Constraint) :
      SameProgram position (.receive position one constraints) (.receive position other others)

/-- The result of a method is a new object, which the decorator gives its tags or which carries
the taint of the client by itself. -/
def tainted (position : Nat) : MethodResult Value → Bool
  | .value value => registered value
  | .object _ tags => tags.taints.testBit position
  | _ => false

/-- A method that changes its first argument gives it a new value. -/
def replaces (method : Method Value) (shapes : List Shape) (data : List (Datum Value)) : Bool :=
  match method.update, Shape.self? data shapes with
  | some update, some datum => decide (datum.value ≠ update (data.map Datum.value))
  | _, _ => true

/-- Taints follow the data of a client: it does not lie too deep in an argument, what is computed
from it is a new object, and an object that is changed with it gets a new value or has data of
the client already. -/
def tracks (position : Nat) (flow : Flow Value Resource Constraint) :
    FlowAction Value Constraint → Bool
  | .call method names shapes =>
      match names.mapM flow.read with
      | some data =>
          !data.any (Datum.carries position) ||
            Shape.shown position data shapes &&
              (method.result.isNone ||
                tainted registered position (method.returned (data.map Datum.value))) &&
              ((Shape.self? data shapes).any (Datum.carries position) ||
                replaces method shapes data)
      | none => true
  | _ => true

end Flow

section Related

variable {Value Resource Constraint : Type*} {position : Nat}

theorem Datum.Alike.carries_eq {one other : Datum Value} (alike : one.Alike position other) :
    one.carries position = other.carries position := by
  obtain rfl | ⟨own, others⟩ := alike
  · rfl
  · rw [own, others]

theorem Datum.Alike.eq {one other : Datum Value} (alike : one.Alike position other)
    (free : one.carries position = false) : one = other := by
  obtain same | ⟨own, _⟩ := alike
  · exact same
  · rw [own] at free
    contradiction

namespace Shape

variable {data : List (Datum Value)}

theorem operands_eq (data : List (Datum Value)) (shapes : List Shape) :
    operands data shapes = shapes.map (operand data) := by
  induction shapes with
  | nil => rfl
  | cons shape rest ih => rw [operands, List.map_cons, ih]

theorem operandItems_eq (data : List (Datum Value)) (items : List (Shape × Shape)) :
    operandItems data items =
      items.map fun item => (item.1.operand data, item.2.operand data) := by
  induction items with
  | nil => rfl
  | cons item rest ih => rw [operandItems, List.map_cons, ih]

/-- The decorator finds the taints inside of so many containers. -/
theorem testBit_operand (depth : Nat) (shape : Shape) :
    (isTaintedBy depth (shape.operand data).argument).testBit position =
      (shape.itemsWithin depth).any fun index => data[index]?.any (Datum.carries position) := by
  rw [Operand.testBit_isTaintedBy]
  induction depth generalizing shape with
  | zero =>
      cases shape with
      | item index =>
          cases found : data[index]? with
          | none => simp [operand, itemsWithin, found, Operand.leavesWithin]
          | some datum => simp [operand, itemsWithin, found, Datum.any_leavesWithin_operand]
      | sequence | mapping => simp [operand, itemsWithin, Operand.leavesWithin]
  | succ depth ih =>
      cases shape with
      | item index =>
          cases found : data[index]? with
          | none => simp [operand, itemsWithin, found, Operand.leavesWithin]
          | some datum => simp [operand, itemsWithin, found, Datum.any_leavesWithin_operand]
      | sequence items =>
          rw [operand, operands_eq, Operand.leavesWithin, itemsWithin, List.any_flatMap,
            List.any_flatMap, List.any_map]
          exact congrArg items.any (funext ih)
      | mapping items =>
          rw [operand, operandItems_eq, Operand.leavesWithin, itemsWithin, List.any_flatMap,
            List.any_flatMap, List.any_map]
          refine congrArg items.any (funext fun item => ?_)
          simp only [Function.comp_apply, List.any_append, ih]

theorem testBit_union_operands (shapes : List Shape) :
    (unionArgumentTaints (arguments (shapes.map (operand data)))).testBit position =
      shown position data shapes := by
  rw [testBit_unionArgumentTaints, arguments_eq, List.map_map, List.any_map]
  exact congrArg shapes.any (funext fun shape => testBit_operand 2 shape)

end Shape

namespace SpliceObject

variable {one other : SpliceObject Value Resource Constraint} {data another : Datum Value}

@[simp]
theorem carries_ofTags (value : Value) (constraints : List Constraint) (tags : Tags) :
    (ofTags value constraints tags : SpliceObject Value Resource Constraint).carries position =
      tags.taints.testBit position :=
  rfl

theorem carries_of_datum (found : one.datum = some data) :
    data.carries position = one.carries position := by
  unfold datum at found
  split at found
  · cases found
    rfl
  · contradiction

theorem Alike.datum (alike : one.Alike position other) (found : one.datum = some data)
    (foundOther : other.datum = some another) : data.Alike position another := by
  obtain rfl | ⟨own, others⟩ := alike
  · exact .inl (Option.some.inj (found.symm.trans foundOther))
  · exact .inr ⟨(carries_of_datum found).trans own, (carries_of_datum foundOther).trans others⟩

theorem Alike.eq (alike : one.Alike position other) (free : one.carries position = false) :
    one = other := by
  obtain same | ⟨own, _⟩ := alike
  · exact same
  · rw [own] at free
    contradiction

end SpliceObject

namespace Flow

variable {one other after afterOther : Flow Value Resource Constraint}

section Changes

variable {object another : SpliceObject Value Resource Constraint}

theorem Alike.setObject (alike : one.Alike position other) (id : ObjectId)
    (changed : object.Alike position another) :
    Flow.Alike position { one with heap := one.heap.setObject id object }
      { other with heap := other.heap.setObject id another } where
  plain := alike.plain
  next := alike.next
  references := alike.references
  objects seen := by
    by_cases same : seen = id
    · subst same
      rw [Heap.object_setObject_self, Heap.object_setObject_self]
      exact changed
    · rw [Heap.object_setObject_of_ne _ id seen _ same,
        Heap.object_setObject_of_ne _ id seen _ same]
      exact alike.objects seen

theorem Alike.allocate (alike : one.Alike position other)
    (new : object.Alike position another) :
    Flow.Alike position { one with heap := one.heap.allocate object }
      { other with heap := other.heap.allocate another } where
  plain := alike.plain
  next := congrArg (· + 1) alike.next
  references := by
    change _ ++ [one.heap.next] = _ ++ [other.heap.next]
    rw [alike.references, alike.next]
  objects seen := by
    simp only [Heap.allocate, alike.next]
    by_cases same : seen = other.heap.next
    · subst same
      rw [Function.update_self, Function.update_self]
      exact new
    · rw [Function.update_of_ne same, Function.update_of_ne same]
      exact alike.objects seen

theorem Alike.share (alike : one.Alike position other) (place : Nat) :
    Flow.Alike position { one with heap := one.heap.share place }
      { other with heap := other.heap.share place } where
  plain := alike.plain
  next := alike.next
  references := by
    change one.heap.references ++ _ = other.heap.references ++ _
    rw [alike.references]
  objects := alike.objects

theorem Alike.leave (alike : one.Alike position other) (place : Nat) :
    Flow.Alike position { one with heap := one.heap.leave place }
      { other with heap := other.heap.leave place } where
  plain := alike.plain
  next := alike.next
  references := congrArg (List.eraseIdx · place) alike.references
  objects := alike.objects

theorem Alike.keep (alike : one.Alike position other) (value : Value) :
    Flow.Alike position { one with plain := one.plain ++ [value] }
      { other with plain := other.plain ++ [value] } where
  plain := congrArg (· ++ [value]) alike.plain
  next := alike.next
  references := alike.references
  objects := alike.objects

end Changes

section Reading

theorem Alike.read (alike : one.Alike position other) {name : Name} {own others : Datum Value}
    (found : one.read name = some own) (foundOther : other.read name = some others) :
    own.Alike position others := by
  cases name with
  | object place =>
      simp only [Flow.read, Heap.at?] at found foundOther
      rw [alike.references] at found
      cases refers : other.heap.references[place]? with
      | none =>
          rw [refers] at found
          contradiction
      | some id =>
          rw [refers] at found foundOther
          exact (alike.objects id).datum found foundOther
  | plain index =>
      simp only [Flow.read, alike.plain] at found foundOther
      exact .inl (Option.some.inj (found.symm.trans foundOther))

end Reading

section Calls

variable {registered : Value → Bool} {method : Method Value} {names : List Name}
  {shapes : List Shape} {data dataOther : List (Datum Value)}

theorem Alike.readAll (alike : one.Alike position other)
    (mapped : names.mapM one.read = some data)
    (mappedOther : names.mapM other.read = some dataOther) :
    List.Forall₂ (Datum.Alike position) data dataOther :=
  forall₂_mapM mapped mappedOther fun _ _ _ => alike.read

/-- The object that a method is called on, as the first argument. -/
theorem self?_object {index place : Nat} {id : ObjectId}
    (mapped : names.mapM one.read = some data) (named : names[index]? = some (.object place))
    (refers : one.heap.references[place]? = some id) :
    ∃ datum, data[index]? = some datum ∧ (one.heap.object id).datum = some datum := by
  induction names generalizing index data with
  | nil => contradiction
  | cons name rest ih =>
      rw [List.mapM_cons] at mapped
      obtain ⟨first, found, mapped⟩ := Option.bind_eq_some_iff.mp mapped
      obtain ⟨remaining, tail, mapped⟩ := Option.bind_eq_some_iff.mp mapped
      cases mapped
      cases index with
      | zero =>
          cases named
          simp only [Flow.read, Heap.at?, refers, Option.map_some, Option.bind_some] at found
          exact ⟨first, rfl, found⟩
      | succ index =>
          obtain ⟨datum, isDatum, isObject⟩ := ih tail named
          exact ⟨datum, isDatum, isObject⟩

theorem Alike.convert (alike : one.Alike position other) (tags : Tags) (value : Value) :
    (one.convert registered tags value).Alike position (other.convert registered tags value) := by
  unfold Flow.convert
  split
  · exact alike.allocate (.inl rfl)
  · exact alike.keep value

/-- Calls with the same arguments have the same result. -/
theorem Alike.bindResult (alike : one.Alike position other) {result : MethodResult Value}
    (bound : one.bindResult registered names shapes data result = some after)
    (boundOther : other.bindResult registered names shapes data result = some afterOther) :
    after.Alike position afterOther := by
  cases result with
  | nothing =>
      cases bound
      cases boundOther
      exact alike
  | argument index =>
      simp only [Flow.bindResult] at bound boundOther
      split at bound
      · next place found =>
        rw [found] at boundOther
        cases bound
        cases boundOther
        exact alike.share place
      · contradiction
  | object value tags =>
      cases bound
      cases boundOther
      exact alike.allocate (.inl rfl)
  | value value =>
      cases bound
      cases boundOther
      exact alike.convert _ value
  | values values =>
      cases bound
      cases boundOther
      induction values generalizing one other with
      | nil => exact alike
      | cons value rest ih => exact ih (alike.convert _ value)

/-- A new result that was computed with data of the client carries its taint. -/
theorem bindResult_tainted {result : MethodResult Value}
    (isTainted : tainted registered position result = true)
    (shown : Shape.shown position data shapes = true)
    (bound : one.bindResult registered names shapes data result = some after) :
    ∃ object : SpliceObject Value Resource Constraint, object.carries position = true ∧
      after = { one with heap := one.heap.allocate object } := by
  cases result with
  | nothing | argument index | values values => contradiction
  | object value tags =>
      cases bound
      exact ⟨.ofTags value [] tags, isTainted, rfl⟩
  | value value =>
      have known : registered value = true := isTainted
      rw [Flow.bindResult, Flow.convert, if_pos known] at bound
      cases bound
      refine ⟨_, ?_, rfl⟩
      rw [SpliceObject.carries_ofTags, Tags.returned, Shape.testBit_union_operands]
      exact shown

variable [DecidableEq Value]

/-- An object that is changed with data of the client carries its taint afterwards. -/
theorem carries_updated {object : SpliceObject Value Resource Constraint} {datum : Datum Value}
    (found : object.datum = some datum) (value : Value) (others : List Operand)
    (changed : object.carries position = true ∨ datum.value ≠ value ∧
      (unionArgumentTaints (arguments (datum.operand :: others))).testBit position = true) :
    (updated object value others).carries position = true := by
  unfold SpliceObject.datum at found
  unfold updated
  split at found
  · next old constraints body =>
    cases found
    simp only [SpliceObject.carries_ofTags, Tags.called]
    split
    · simp only [testBit_unionTaint, Bool.or_eq_true]
      exact changed.imp id fun given => given.2
    · next unchanged =>
      obtain own | ⟨different, _⟩ := changed
      · exact own
      · rw [decide_eq_true_iff] at unchanged
        exact absurd different unchanged
  · contradiction

/-- What a decorated method does to its first argument. -/
theorem change_cases (changed : one.change method names shapes data = some after) :
    method.update = none ∧ after = one ∨
      ∃ update index others place id, method.update = some update ∧
        shapes = .item index :: others ∧ names[index]? = some (.object place) ∧
        one.heap.references[place]? = some id ∧
        after = { one with heap := one.heap.setObject id (updated (one.heap.object id)
          (update (data.map Datum.value)) (others.map (Shape.operand data))) } := by
  unfold change at changed
  split at changed
  · next none =>
    cases changed
    exact .inl ⟨none, rfl⟩
  · next update some =>
    split at changed
    · next index others =>
      split at changed
      · next place named =>
        obtain ⟨id, refers, rfl⟩ := Option.map_eq_some_iff.mp changed
        exact .inr ⟨update, index, others, place, id, some, rfl, named, refers, rfl⟩
      · contradiction
    · contradiction

/-- The object that was changed with data of the client carries its taint. -/
theorem carries_changed {object : SpliceObject Value Resource Constraint} {datum : Datum Value}
    {index : Nat} {others : List Shape} {update : List Value → Value}
    (isSelf : data[index]? = some datum) (found : object.datum = some datum)
    (updates : method.update = some update)
    (shown : Shape.shown position data (.item index :: others) = true)
    (tracked : ((Shape.self? data (.item index :: others)).any (Datum.carries position) ||
      replaces method (.item index :: others) data) = true) :
    (updated object (update (data.map Datum.value)) (others.map (Shape.operand data))).carries
      position = true := by
  apply carries_updated found
  simp only [Shape.self?, isSelf, Option.any_some, replaces, updates, Bool.or_eq_true,
    decide_eq_true_iff] at tracked
  obtain own | replaced := tracked
  · exact .inl ((SpliceObject.carries_of_datum found).symm.trans own)
  · right
    refine ⟨replaced, ?_⟩
    rw [← Shape.testBit_union_operands, List.map_cons, Shape.operand, isSelf] at shown
    exact shown

/-- Data of the client is found among the arguments, and an object that it changes gets its
taint. -/
theorem tracks_call (mapped : names.mapM one.read = some data)
    (tracked : one.tracks registered position
      (.call method names shapes : FlowAction Value Constraint) = true)
    (given : data.any (Datum.carries position) = true) :
    Shape.shown position data shapes = true ∧
      (method.result.isNone ||
        tainted registered position (method.returned (data.map Datum.value))) = true ∧
      ((Shape.self? data shapes).any (Datum.carries position) ||
        replaces method shapes data) = true := by
  simpa only [tracks, mapped, given, Bool.not_true, Bool.false_or, Bool.and_eq_true,
    and_assoc] using tracked

theorem Alike.change (alike : one.Alike position other)
    (mapped : names.mapM one.read = some data)
    (mappedOther : names.mapM other.read = some dataOther)
    (tracked : one.tracks registered position
      (.call method names shapes : FlowAction Value Constraint) = true)
    (trackedOther : other.tracks registered position
      (.call method names shapes : FlowAction Value Constraint) = true)
    (changed : one.change method names shapes data = some after)
    (changedOther : other.change method names shapes dataOther = some afterOther) :
    after.Alike position afterOther := by
  have pairs := alike.readAll mapped mappedOther
  obtain ⟨none, rfl⟩ | ⟨update, index, others, place, id, updates, rfl, named, refers, rfl⟩ :=
      change_cases changed <;>
    obtain ⟨noneOther, rfl⟩ | ⟨updateOther, indexOther, othersOther, placeOther, idOther,
      updatesOther, shape, namedOther, refersOther, rfl⟩ := change_cases changedOther
  · exact alike
  · rw [none] at updatesOther
    contradiction
  · rw [noneOther] at updates
    contradiction
  · cases shape
    cases updates.symm.trans updatesOther
    cases named.symm.trans namedOther
    rw [alike.references] at refers
    cases refers.symm.trans refersOther
    rw [← alike.references] at refers
    obtain ⟨datum, isSelf, found⟩ := self?_object mapped named refers
    obtain ⟨datumOther, isSelfOther, foundOther⟩ :=
      self?_object mappedOther named refersOther
    apply alike.setObject id
    cases given : data.any (Datum.carries position) with
    | true =>
        right
        have givenOther := given
        rw [any_eq_of_forall₂ pairs fun _ _ => Datum.Alike.carries_eq] at givenOther
        obtain ⟨shown, _, replaced⟩ := tracks_call mapped tracked given
        obtain ⟨shownOther, _, replacedOther⟩ := tracks_call mappedOther trackedOther givenOther
        exact ⟨carries_changed isSelf found updates shown replaced,
          carries_changed isSelfOther foundOther updates shownOther replacedOther⟩
    | false =>
        left
        obtain rfl := eq_of_forall₂ pairs (fun _ _ => Datum.Alike.eq) given
        have free : (one.heap.object id).carries position = false := by
          rw [← SpliceObject.carries_of_datum found]
          exact Bool.eq_false_of_not_eq_true
            (List.any_eq_false.mp given datum (List.mem_of_getElem? isSelf))
        rw [(alike.objects id).eq free]

theorem Alike.call (alike : one.Alike position other)
    (tracked : one.tracks registered position
      (.call method names shapes : FlowAction Value Constraint) = true)
    (trackedOther : other.tracks registered position
      (.call method names shapes : FlowAction Value Constraint) = true)
    (called : one.call registered method names shapes = some after)
    (calledOther : other.call registered method names shapes = some afterOther) :
    after.Alike position afterOther := by
  obtain ⟨data, mapped, called⟩ := Option.bind_eq_some_iff.mp called
  obtain ⟨changed, change, bound⟩ := Option.bind_eq_some_iff.mp called
  obtain ⟨dataOther, mappedOther, calledOther⟩ := Option.bind_eq_some_iff.mp calledOther
  obtain ⟨changedOther, changeOther, boundOther⟩ := Option.bind_eq_some_iff.mp calledOther
  have pairs := alike.readAll mapped mappedOther
  have middle : changed.Alike position changedOther :=
    alike.change mapped mappedOther tracked trackedOther change changeOther
  cases given : data.any (Datum.carries position) with
  | true =>
      have givenOther := given
      rw [any_eq_of_forall₂ pairs fun _ _ => Datum.Alike.carries_eq] at givenOther
      obtain ⟨shown, new, _⟩ := tracks_call mapped tracked given
      obtain ⟨shownOther, newOther, _⟩ := tracks_call mappedOther trackedOther givenOther
      cases returns : method.result with
      | none =>
          rw [Method.returned, returns] at bound boundOther
          cases bound
          cases boundOther
          exact middle
      | some result =>
          rw [returns, Option.isNone_some, Bool.false_or] at new newOther
          obtain ⟨object, carries, rfl⟩ := bindResult_tainted new shown bound
          obtain ⟨another, carriesOther, rfl⟩ := bindResult_tainted newOther shownOther boundOther
          exact middle.allocate (.inr ⟨carries, carriesOther⟩)
  | false =>
      obtain rfl := eq_of_forall₂ pairs (fun _ _ => Datum.Alike.eq) given
      exact middle.bindResult bound boundOther

end Calls

variable [DecidableEq Value] {registered : Value → Bool}

/-- What one step of two runs preserves. -/
theorem Alike.step (alike : one.Alike position other) {action another : FlowAction Value Constraint}
    (same : SameProgram position action another)
    (tracked : one.tracks registered position action = true)
    (trackedOther : other.tracks registered position another = true)
    (stepped : one.step registered action = some after)
    (steppedOther : other.step registered another = some afterOther) :
    after.Alike position afterOther := by
  cases same with
  | same =>
      cases action with
      | receive bit value constraints =>
          cases stepped
          cases steppedOther
          exact alike.allocate (.inl rfl)
      | call method names shapes => exact alike.call tracked trackedOther stepped steppedOther
      | forget place =>
          cases stepped
          cases steppedOther
          exact alike.leave place
  | received value valueOther constraints constraintsOther =>
      cases stepped
      cases steppedOther
      apply alike.allocate
      right
      simp [Nat.one_shiftLeft, Nat.testBit_two_pow_self]

end Flow

end Related

end SaltyRtcServer
