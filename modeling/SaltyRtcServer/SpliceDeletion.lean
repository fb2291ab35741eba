import Mathlib.Data.List.Dedup
import Mathlib.Logic.Function.Basic
import SaltyRtcServer.Taints

/-!
# The deletion loop

A deletion request makes `Server.handler` walk over all live objects and delete
those that carry the taint of a client: system objects release their resource,
the value of others is synthesized again and all references are redirected to
the new object, and where no value can be synthesized the object is only
flagged.  What synthesis returns and how a resource is released is left open.
-/

namespace SaltyRtcServer

/-- A `SpliceMixin` object with its value and constraints, or a `SpliceAttrMixin`
object, which holds a resource of the system. -/
inductive SpliceBody (Value Resource Constraint : Type*)
  | value (value : Value) (constraints : List Constraint)
  | system (resource : Resource)
  deriving DecidableEq

structure SpliceObject (Value Resource Constraint : Type*) where
  body : SpliceBody Value Resource Constraint
  trusted : Bool
  synthesized : Bool
  taints : Nat
  deriving DecidableEq

abbrev ObjectId := Nat

/-- The objects that were ever created, and what every place of the heap refers
to.  An object is live while some place refers to it. -/
structure Heap (Value Resource Constraint : Type*) where
  object : ObjectId → SpliceObject Value Resource Constraint
  next : ObjectId
  references : List ObjectId
  created : ∀ id ∈ references, id < next

/-- What the deletion calls: `concretize_and_merge_constraints` with
`synthesize_obj`, and `splice` of a system object. -/
structure DeletionEnvironment (Value Resource Constraint : Type*) where
  synthesize : Heap Value Resource Constraint → ObjectId → Option Value
  release : Resource → Resource

namespace Heap

variable {Value Resource Constraint : Type*}

/-- The live Splice objects that `gc.get_objects` returns. -/
def getObjects (heap : Heap Value Resource Constraint) : List ObjectId :=
  heap.references.dedup

def setObject (heap : Heap Value Resource Constraint) (id : ObjectId)
    (object : SpliceObject Value Resource Constraint) : Heap Value Resource Constraint :=
  { heap with object := Function.update heap.object id object }

/-- `replace.replace_single`, as the deletion loop takes it to work: every reference to the old
object is redirected to a new one. -/
def replaceSingle (heap : Heap Value Resource Constraint) (old : ObjectId)
    (new : SpliceObject Value Resource Constraint) : Heap Value Resource Constraint where
  object := Function.update heap.object heap.next new
  next := heap.next + 1
  references := heap.references.map fun id => if id = old then heap.next else id
  created id mem := by
    obtain ⟨before, present, rfl⟩ := List.mem_map.mp mem
    split
    · exact Nat.lt_succ_self heap.next
    · exact Nat.lt_succ_of_lt (heap.created before present)

variable (environment : DeletionEnvironment Value Resource Constraint)

/-- The body of the deletion loop, for an object that was selected. -/
def deleteObject (heap : Heap Value Resource Constraint) (id : ObjectId) :
    Heap Value Resource Constraint :=
  match (heap.object id).body with
  | .system resource =>
      heap.setObject id ⟨.system (environment.release resource), false, true, emptyTaint⟩
  | .value value _ =>
      match environment.synthesize heap id with
      | none => heap.setObject id ⟨.value value [], false, true, emptyTaint⟩
      | some synthesized =>
          heap.replaceSingle id ⟨.value synthesized [], false, true, emptyTaint⟩

/-- One round of the loop. -/
def visit (taint : Nat) (heap : Heap Value Resource Constraint) (id : ObjectId) :
    Heap Value Resource Constraint :=
  if (heap.object id).taints = taint then heap.deleteObject environment id else heap

/-- The deletion loop of `Server.handler`. -/
def delete (taint : Nat) (heap : Heap Value Resource Constraint) :
    Heap Value Resource Constraint :=
  heap.getObjects.foldl (visit environment taint) heap

/-- The deletion of a client removes its bit from every live object, and leaves the
objects without it as they are. -/
structure DeletedExactly (position : Nat) (before after : Heap Value Resource Constraint) :
    Prop where
  removed : ∀ id ∈ after.references, (after.object id).taints.testBit position = false
  unchanged : ∀ (place : Nat) (id : ObjectId), before.references[place]? = some id →
    (before.object id).taints.testBit position = false →
    after.references[place]? = some id ∧ after.object id = before.object id

variable {environment}
variable {taint : Nat} {before heap : Heap Value Resource Constraint}

section Objects

variable (heap : Heap Value Resource Constraint) (id other : ObjectId)
  (object : SpliceObject Value Resource Constraint)

theorem object_setObject_self : (heap.setObject id object).object id = object :=
  Function.update_self ..

theorem object_setObject_of_ne (different : other ≠ id) :
    (heap.setObject id object).object other = heap.object other :=
  Function.update_of_ne different ..

theorem object_replaceSingle_next : (heap.replaceSingle id object).object heap.next = object :=
  Function.update_self ..

theorem object_replaceSingle_of_mem (live : other ∈ heap.references) :
    (heap.replaceSingle id object).object other = heap.object other :=
  Function.update_of_ne (Nat.ne_of_lt (heap.created other live)) ..

theorem references_replaceSingle {place : Nat} (refers : heap.references[place]? = some other) :
    (heap.replaceSingle id object).references[place]? =
      some (if other = id then heap.next else other) := by
  simp [replaceSingle, refers]

end Objects

/-- A selected object is overwritten or replaced by one without taints. -/
theorem deleteObject_cases (heap : Heap Value Resource Constraint) (id : ObjectId) :
    ∃ object : SpliceObject Value Resource Constraint, object.taints = emptyTaint ∧
      (heap.deleteObject environment id = heap.setObject id object ∨
        heap.deleteObject environment id = heap.replaceSingle id object) := by
  unfold deleteObject
  cases (heap.object id).body with
  | system resource => exact ⟨_, rfl, .inl rfl⟩
  | value value constraints =>
      cases environment.synthesize heap id with
      | none => exact ⟨_, rfl, .inl rfl⟩
      | some synthesized => exact ⟨_, rfl, .inr rfl⟩

/-- What holds in the loop after the objects in `done`: objects that carry exactly
the taint were cleared, all others are as before. -/
structure Processed (taint : Nat) (before : Heap Value Resource Constraint)
    (done : List ObjectId) (after : Heap Value Resource Constraint) : Prop where
  next : before.next ≤ after.next
  length : after.references.length = before.references.length
  kept : ∀ (place : Nat) (id : ObjectId), before.references[place]? = some id →
    id ∉ done ∨ (before.object id).taints ≠ taint →
    after.references[place]? = some id ∧ after.object id = before.object id
  cleared : ∀ (place : Nat) (id : ObjectId), before.references[place]? = some id →
    id ∈ done → (before.object id).taints = taint →
    ∃ new, after.references[place]? = some new ∧ (after.object new).taints = emptyTaint ∧
      (new = id ∨ before.next ≤ new)

theorem Processed.nil : Processed taint before [] before where
  next := Nat.le_refl _
  length := rfl
  kept _ _ refers _ := ⟨refers, rfl⟩
  cleared _ _ _ mem := absurd mem List.not_mem_nil

section Step

variable {done : List ObjectId} {id : ObjectId}
  {object : SpliceObject Value Resource Constraint}

theorem Processed.setObject (processed : Processed taint before done heap)
    (live : id < before.next) (fresh : id ∉ done) (clean : object.taints = emptyTaint)
    (selected : (before.object id).taints = taint) :
    Processed taint before (id :: done) (heap.setObject id object) := by
  obtain ⟨next, length, kept, cleared⟩ := processed
  refine ⟨next, length, ?_, ?_⟩
  · intro place other refers spared
    have different : other ≠ id := by
      rintro rfl
      simp [selected] at spared
    rw [object_setObject_of_ne heap id other object different]
    exact kept place other refers
      (spared.imp_left fun outside mem => outside (List.mem_cons_of_mem _ mem))
  · intro place other refers mem tainted
    rcases List.mem_cons.mp mem with rfl | earlier
    · refine ⟨other, (kept place other refers (.inl fresh)).1, ?_, .inl rfl⟩
      rw [object_setObject_self]
      exact clean
    · obtain ⟨new, refersNew, empty, origin⟩ := cleared place other refers earlier tainted
      have different : new ≠ id := by
        rintro rfl
        rcases origin with rfl | newer
        · exact fresh earlier
        · exact Nat.not_le_of_lt live newer
      refine ⟨new, refersNew, ?_, origin⟩
      rw [object_setObject_of_ne heap id new object different]
      exact empty

theorem Processed.replaceSingle (processed : Processed taint before done heap)
    (live : id < before.next) (fresh : id ∉ done) (clean : object.taints = emptyTaint)
    (selected : (before.object id).taints = taint) :
    Processed taint before (id :: done) (heap.replaceSingle id object) := by
  obtain ⟨next, length, kept, cleared⟩ := processed
  refine ⟨Nat.le_succ_of_le next, by simp [Heap.replaceSingle, length], ?_, ?_⟩
  · intro place other refers spared
    have different : other ≠ id := by
      rintro rfl
      simp [selected] at spared
    obtain ⟨same, unchanged⟩ := kept place other refers
      (spared.imp_left fun outside mem => outside (List.mem_cons_of_mem _ mem))
    rw [references_replaceSingle heap id other object same, if_neg different,
      object_replaceSingle_of_mem heap id other object (List.mem_of_getElem? same)]
    exact ⟨rfl, unchanged⟩
  · intro place other refers mem tainted
    rcases List.mem_cons.mp mem with rfl | earlier
    · have same := (kept place other refers (.inl fresh)).1
      refine ⟨heap.next, ?_, ?_, .inr next⟩
      · rw [references_replaceSingle heap other other object same, if_pos rfl]
      · rw [object_replaceSingle_next]
        exact clean
    · obtain ⟨new, same, empty, origin⟩ := cleared place other refers earlier tainted
      have different : new ≠ id := by
        rintro rfl
        rcases origin with rfl | newer
        · exact fresh earlier
        · exact Nat.not_le_of_lt live newer
      refine ⟨new, ?_, ?_, origin⟩
      · rw [references_replaceSingle heap id new object same, if_neg different]
      · rw [object_replaceSingle_of_mem heap id new object (List.mem_of_getElem? same)]
        exact empty

theorem Processed.visit (processed : Processed taint before done heap) {place : Nat}
    (refers : before.references[place]? = some id) (fresh : id ∉ done) :
    Processed taint before (id :: done) (heap.visit environment taint id) := by
  have unchanged := (processed.kept place id refers (.inl fresh)).2
  unfold Heap.visit
  rw [unchanged]
  split
  · next selected =>
    have live := before.created id (List.mem_of_getElem? refers)
    obtain ⟨object, clean, overwritten | replaced⟩ := heap.deleteObject_cases id
    · rw [overwritten]
      exact processed.setObject live fresh clean selected
    · rw [replaced]
      exact processed.replaceSingle live fresh clean selected
  · next other =>
    obtain ⟨next, length, kept, cleared⟩ := processed
    refine ⟨next, length, ?_, ?_⟩
    · intro place seen refers spared
      exact kept place seen refers
        (spared.imp_left fun outside mem => outside (List.mem_cons_of_mem _ mem))
    · intro place seen refers mem tainted
      refine cleared place seen refers ((List.mem_cons.mp mem).resolve_left ?_) tainted
      rintro rfl
      exact other tainted

end Step

/-- The invariant of the loop over the rest of the objects. -/
theorem Processed.foldl {done rest : List ObjectId}
    (processed : Processed taint before done heap) (live : ∀ id ∈ rest, id ∈ before.references)
    (distinct : rest.Nodup) (disjoint : ∀ id ∈ rest, id ∉ done) :
    Processed taint before (rest.reverse ++ done)
      (rest.foldl (Heap.visit environment taint) heap) := by
  induction rest generalizing done heap with
  | nil => exact processed
  | cons id rest ih =>
      obtain ⟨place, refers⟩ := List.mem_iff_getElem?.mp (live id List.mem_cons_self)
      rw [List.nodup_cons] at distinct
      have visited : Processed taint before (id :: done) (heap.visit environment taint id) :=
        processed.visit refers (disjoint id List.mem_cons_self)
      have others : ∀ other ∈ rest, other ∉ id :: done := by
        intro other mem again
        rcases List.mem_cons.mp again with rfl | earlier
        · exact distinct.1 mem
        · exact disjoint other (List.mem_cons_of_mem _ mem) earlier
      rw [List.foldl_cons, List.reverse_cons, List.append_assoc]
      exact ih visited (fun other mem => live other (List.mem_cons_of_mem _ mem)) distinct.2 others

theorem processed_delete (environment : DeletionEnvironment Value Resource Constraint)
    (taint : Nat) (heap : Heap Value Resource Constraint) :
    Processed taint heap heap.getObjects.reverse (heap.delete environment taint) := by
  have processed : Processed taint heap (heap.getObjects.reverse ++ [])
      (heap.delete environment taint) :=
    Processed.nil.foldl (fun id => List.mem_dedup.mp) (List.nodup_dedup _)
      fun _ _ => List.not_mem_nil
  rwa [List.append_nil] at processed

/-- The deletion of a client is exact if and only if no live object carries its bit
together with others. -/
theorem deletion_exact (environment : DeletionEnvironment Value Resource Constraint)
    (heap : Heap Value Resource Constraint) (position : Nat) :
    DeletedExactly position heap (heap.delete environment (1 <<< position)) ↔
      ∀ id ∈ heap.references, (heap.object id).taints.testBit position = true →
        (heap.object id).taints = 1 <<< position := by
  obtain ⟨_, length, kept, cleared⟩ := processed_delete environment (1 <<< position) heap
  have own : (1 <<< position).testBit position = true := by
    rw [Nat.one_shiftLeft, Nat.testBit_two_pow_self]
  constructor
  · intro exact_ id live carries
    by_contra combined
    obtain ⟨place, refers⟩ := List.mem_iff_getElem?.mp live
    obtain ⟨same, unchanged⟩ := kept place id refers (.inr combined)
    have removed := exact_.removed id (List.mem_of_getElem? same)
    rw [unchanged, carries] at removed
    contradiction
  · intro alone
    constructor
    · intro id live
      obtain ⟨place, refers⟩ := List.mem_iff_getElem?.mp live
      have inside : place < heap.references.length := by
        rw [← length]
        exact (List.getElem?_eq_some_iff.mp refers).1
      have origin := List.getElem?_eq_getElem inside
      generalize heap.references[place] = old at origin
      by_cases selected : (heap.object old).taints = 1 <<< position
      · have done : old ∈ heap.getObjects.reverse :=
          List.mem_reverse.mpr (List.mem_dedup.mpr (List.mem_of_getElem? origin))
        obtain ⟨new, same, empty, _⟩ := cleared place old origin done selected
        obtain rfl := Option.some.inj (refers.symm.trans same)
        rw [empty, testBit_emptyTaint]
      · obtain ⟨same, unchanged⟩ := kept place old origin (.inr selected)
        obtain rfl := Option.some.inj (refers.symm.trans same)
        rw [unchanged, Bool.eq_false_iff]
        exact fun carries => selected (alone id (List.mem_of_getElem? origin) carries)
    · intro place id refers free
      refine kept place id refers (.inr fun selected => ?_)
      rw [selected, own] at free
      contradiction

/-- What was computed from the data of two clients survives the deletion of each of
them with its taints. -/
theorem delete_combined (environment : DeletionEnvironment Value Resource Constraint)
    (heap : Heap Value Resource Constraint) {place : Nat} {id : ObjectId}
    (refers : heap.references[place]? = some id) {arguments : List Argument}
    (tainted : (heap.object id).taints = unionArgumentTaints arguments) {position other : Nat}
    (different : position ≠ other)
    (one : .splice (1 <<< position) ∈ arguments) (two : .splice (1 <<< other) ∈ arguments) :
    (heap.delete environment (1 <<< position)).references[place]? = some id ∧
      ((heap.delete environment (1 <<< position)).object id).taints.testBit position = true := by
  have carries : ∀ bit, .splice (1 <<< bit) ∈ arguments →
      (heap.object id).taints.testBit bit = true := by
    intro bit mem
    rw [tainted, testBit_unionArgumentTaints, List.any_eq_true]
    refine ⟨_, mem, ?_⟩
    rw [isTaintedBy, Nat.one_shiftLeft, Nat.testBit_two_pow_self]
  have combined : (heap.object id).taints ≠ 1 <<< position := by
    intro alone
    have both := carries other two
    rw [alone, Nat.one_shiftLeft, Nat.testBit_two_pow, decide_eq_true_iff] at both
    exact different both
  obtain ⟨same, unchanged⟩ :=
    (processed_delete environment (1 <<< position) heap).kept place id refers (.inr combined)
  rw [unchanged]
  exact ⟨same, carries position one⟩

/-- One object, computed from the data of the clients with bits 1 and 2. -/
def combinedHeap : Heap Nat Empty Empty where
  object _ := ⟨.value 7 [], false, false,
    unionArgumentTaints [.splice (getTaintFromId 1), .splice (getTaintFromId 2)]⟩
  next := 1
  references := [0]
  created := by decide

/-- The object still carries bit 1 after the deletion of the client with bit 1. -/
theorem combined_not_deleted :
    ((combinedHeap.delete ⟨fun _ _ => some 0, id⟩ (getTaintFromId 1)).references = [0]) ∧
      ((combinedHeap.delete ⟨fun _ _ => some 0, id⟩ (getTaintFromId 1)).object 0).taints = 6 ∧
      ¬ DeletedExactly 1 combinedHeap
        (combinedHeap.delete ⟨fun _ _ => some 0, id⟩ (getTaintFromId 1)) := by
  refine ⟨rfl, rfl, fun exact_ => ?_⟩
  have removed := exact_.removed 0 List.mem_cons_self
  revert removed
  decide

end Heap

end SaltyRtcServer
