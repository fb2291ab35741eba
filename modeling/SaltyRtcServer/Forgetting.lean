import SaltyRtcServer.InformationFlow

/-!
# Deletion and information flow

After a client was deleted, what the program holds does not depend on what this
client has sent, except for synthesized values.  The deletion redirects every
reference to an object that was replaced; this is what is asked of `replace_single`.
-/

namespace SaltyRtcServer

open StepMachine

namespace Heap

variable {Value Resource Constraint : Type*}
  {environment : DeletionEnvironment Value Resource Constraint}
  {taint : Nat} {before heap : Heap Value Resource Constraint}

/-- Every object is as it was before the deletion, or stands for one that was deleted. -/
structure Traced (before after : Heap Value Resource Constraint) : Prop where
  next : before.next ≤ after.next
  origin : ∀ id < after.next, id < before.next ∧ after.object id = before.object id ∨
    (after.object id).synthesized = true

theorem Traced.refl (heap : Heap Value Resource Constraint) : Traced heap heap :=
  ⟨Nat.le_refl _, fun _ old => .inl ⟨old, rfl⟩⟩

theorem Traced.setObject (traced : Traced before heap) (id : ObjectId)
    {object : SpliceObject Value Resource Constraint} (synthesized : object.synthesized = true) :
    Traced before (heap.setObject id object) where
  next := traced.next
  origin seen created := by
    by_cases same : seen = id
    · subst same
      rw [object_setObject_self]
      exact .inr synthesized
    · rw [object_setObject_of_ne heap id seen object same]
      exact traced.origin seen created

theorem Traced.replaceSingle (traced : Traced before heap) (id : ObjectId)
    {object : SpliceObject Value Resource Constraint} (synthesized : object.synthesized = true) :
    Traced before (heap.replaceSingle id object) where
  next := Nat.le_succ_of_le traced.next
  origin seen created := by
    by_cases new : seen = heap.next
    · subst new
      rw [object_replaceSingle_next]
      exact .inr synthesized
    · have old : seen < heap.next :=
        Nat.lt_of_le_of_ne (Nat.le_of_lt_succ created) new
      have same : (heap.replaceSingle id object).object seen = heap.object seen :=
        Function.update_of_ne new ..
      rw [same]
      exact traced.origin seen old

theorem Traced.visit (traced : Traced before heap) (id : ObjectId) :
    Traced before (heap.visit environment taint id) := by
  unfold Heap.visit deleteObject
  split
  · split
    · exact traced.setObject id rfl
    · split
      · exact traced.setObject id rfl
      · exact traced.replaceSingle id rfl
  · exact traced

theorem Traced.foldl (traced : Traced before heap) (ids : List ObjectId) :
    Traced before (ids.foldl (Heap.visit environment taint) heap) := by
  induction ids generalizing heap with
  | nil => exact traced
  | cons id rest ih => exact ih (traced.visit id)

theorem traced_delete (environment : DeletionEnvironment Value Resource Constraint) (taint : Nat)
    (heap : Heap Value Resource Constraint) : Traced heap (heap.delete environment taint) :=
  (Traced.refl heap).foldl _

/-- An object that carries exactly the taint stands for a deleted one afterwards. -/
theorem at?_delete_of_taint (environment : DeletionEnvironment Value Resource Constraint)
    {place : Nat} {id : ObjectId} (refers : heap.references[place]? = some id)
    (exact_ : (heap.object id).taints = taint)
    (some_ : taint ≠ emptyTaint) :
    ∃ object, (heap.delete environment taint).at? place = some object ∧
      object.synthesized = true := by
  have processed := processed_delete environment taint heap
  have done : id ∈ heap.getObjects.reverse :=
    List.mem_reverse.mpr (List.mem_dedup.mpr (List.mem_of_getElem? refers))
  obtain ⟨new, same, cleared, origin⟩ := processed.cleared place id refers done exact_
  refine ⟨(heap.delete environment taint).object new, by rw [at?, same, Option.map_some], ?_⟩
  have live := (heap.delete environment taint).created new (List.mem_of_getElem? same)
  obtain ⟨old, unchanged⟩ | synthesized := (traced_delete environment taint heap).origin new live
  · obtain rfl | newer := origin
    · rw [unchanged, exact_] at cleared
      exact absurd cleared some_
    · exact absurd old (Nat.not_lt.mpr newer)
  · exact synthesized

theorem at?_delete_of_ne {place : Nat} {id : ObjectId}
    (refers : heap.references[place]? = some id) (other : (heap.object id).taints ≠ taint) :
    (heap.delete environment taint).at? place = heap.at? place := by
  obtain ⟨same, unchanged⟩ :=
    (processed_delete environment taint heap).kept place id refers (.inr other)
  rw [at?, at?, same, refers, Option.map_some, Option.map_some, unchanged]

theorem at?_delete_of_none {place : Nat} (absent : heap.references[place]? = none) :
    (heap.delete environment taint).at? place = none := by
  have length := (processed_delete environment taint heap).length
  rw [List.getElem?_eq_none_iff] at absent
  rw [at?, List.getElem?_eq_none_iff.mpr (by omega), Option.map_none]

/-- No live object carries the bit of the client together with others. -/
def Alone (position : Nat) (heap : Heap Value Resource Constraint) : Prop :=
  ∀ id ∈ heap.references, (heap.object id).taints.testBit position = true →
    (heap.object id).taints = 1 <<< position

instance (position : Nat) (heap : Heap Value Resource Constraint) :
    Decidable (heap.Alone position) :=
  inferInstanceAs (Decidable (∀ id ∈ heap.references, _ → _))

/-- A place refers to the same object in two heaps, or to synthesized objects. -/
def SameOrSynthesized (one other : Heap Value Resource Constraint) (place : Nat) : Prop :=
  one.at? place = other.at? place ∨
    ∃ object another, one.at? place = some object ∧ other.at? place = some another ∧
      object.synthesized = true ∧ another.synthesized = true

end Heap

namespace Flow

variable {Value Resource Constraint : Type*} {position : Nat}
  {one other : Flow Value Resource Constraint}

theorem Alike.refl (position : Nat) (flow : Flow Value Resource Constraint) :
    flow.Alike position flow :=
  ⟨rfl, rfl, rfl, fun _ => .inl rfl⟩

/-- The deletion leaves no difference but in synthesized values. -/
theorem Alike.delete (alike : one.Alike position other) (alone : one.heap.Alone position)
    (aloneOther : other.heap.Alone position)
    (environment : DeletionEnvironment Value Resource Constraint) (place : Nat) :
    (one.heap.delete environment (1 <<< position)).SameOrSynthesized
      (other.heap.delete environment (1 <<< position)) place := by
  have some_ : 1 <<< position ≠ emptyTaint := by
    rw [Nat.one_shiftLeft]
    exact Nat.ne_of_gt (Nat.two_pow_pos position)
  cases refers : one.heap.references[place]? with
  | none =>
      left
      have refersOther := refers
      rw [alike.references] at refersOther
      rw [Heap.at?_delete_of_none refers, Heap.at?_delete_of_none refersOther]
  | some id =>
      have refersOther := refers
      rw [alike.references] at refersOther
      by_cases same : one.heap.object id = other.heap.object id ∧
          (one.heap.object id).taints ≠ 1 <<< position
      · left
        rw [Heap.at?_delete_of_ne refers same.2,
          Heap.at?_delete_of_ne refersOther (same.1 ▸ same.2), Heap.at?, Heap.at?, refers,
          refersOther, Option.map_some, Option.map_some, same.1]
      · have selected : (one.heap.object id).taints = 1 <<< position ∧
            (other.heap.object id).taints = 1 <<< position := by
          obtain equal | ⟨carries, carriesOther⟩ := alike.objects id
          · have selected : (one.heap.object id).taints = 1 <<< position := by
              by_contra free
              exact same ⟨equal, free⟩
            exact ⟨selected, equal ▸ selected⟩
          · exact ⟨alone id (List.mem_of_getElem? refers) carries,
              aloneOther id (List.mem_of_getElem? refersOther) carriesOther⟩
        obtain ⟨object, found, synthesized⟩ :=
          Heap.at?_delete_of_taint environment refers selected.1 some_
        obtain ⟨another, foundOther, synthesizedOther⟩ :=
          Heap.at?_delete_of_taint environment refersOther selected.2 some_
        exact .inr ⟨object, another, found, foundOther, synthesized, synthesizedOther⟩

variable [DecidableEq Value] {registered : Value → Bool}

/-- Two runs of a program that differ at most in what one client has sent, and in which
taints follow the data of this client, cannot be told apart after the client was deleted,
except for what was synthesized in both. -/
theorem deletion_forgets (environment : DeletionEnvironment Value Resource Constraint)
    {start : Flow Value Resource Constraint}
    {schedule scheduleOther : List (FlowAction Value Constraint)}
    (sameProgram : List.Forall₂ (SameProgram position) schedule scheduleOther)
    (tracked : (machine registered start).Permitted
      (fun flow action => flow.tracks registered position action = true) start schedule)
    (trackedOther : (machine registered start).Permitted
      (fun flow action => flow.tracks registered position action = true) start scheduleOther)
    (runs : (machine registered start).run start schedule = some one)
    (runsOther : (machine registered start).run start scheduleOther = some other)
    (alone : one.heap.Alone position) (aloneOther : other.heap.Alone position) :
    one.plain = other.plain ∧
      ∀ place, (one.heap.delete environment (1 <<< position)).SameOrSynthesized
        (other.heap.delete environment (1 <<< position)) place := by
  have alike : one.Alike position other := by
    refine Machine.related_run ?_ sameProgram (Alike.refl position start) tracked trackedOther
      runs runsOther
    intro one other after afterOther action another alike same tracks tracksOther stepped
    exact alike.step same tracks tracksOther stepped
  exact ⟨alike.plain, alike.delete alone aloneOther environment⟩

/-- An object of the server with the value 10. -/
def serverFlow : Flow Nat Empty Empty where
  heap :=
    { object := fun _ => .ofTags 10 [] ⟨true, false, emptyTaint⟩
      next := 1
      references := [0]
      created := Heap.combinedHeap.created }
  plain := []

/-- The client with bit 4 sends a number, to which the object of the server is added; then the
object of the server is doubled, and both sums, which come in nested lists, are added to the
second one. -/
def summing (received : Nat) : List (FlowAction Nat Empty) :=
  [.receive 4 received [],
    .call ⟨some fun values => .value values.sum, none⟩ [.object 1, .object 0] [.item 0, .item 1],
    .call ⟨some fun values => .value values.sum, none⟩ [.object 0, .object 0] [.item 0, .item 1],
    .call ⟨none, some List.sum⟩ [.object 3, .object 2]
      [.item 0, .sequence [.sequence [.item 1], .item 0]],
    .forget 1]

def summed (received : Nat) : Flow Nat Empty Empty :=
  ((machine (fun _ => true) serverFlow).run serverFlow (summing received)).getD serverFlow

/-- After the deletion, both sums stand for deleted objects, and neither tells what the client
has sent. -/
theorem deletion_forgets_summing :
    ((summed 7).heap.at? 2).bind SpliceObject.datum = some ⟨37, some ⟨true, false, 16⟩⟩ ∧
      ((summed 9).heap.at? 2).bind SpliceObject.datum = some ⟨39, some ⟨true, false, 16⟩⟩ ∧
      ∀ place, ((summed 7).heap.delete ⟨fun _ _ => some 0, id⟩ (1 <<< 4)).SameOrSynthesized
        ((summed 9).heap.delete ⟨fun _ _ => some 0, id⟩ (1 <<< 4)) place := by
  have same : List.Forall₂ (SameProgram 4) (summing 7) (summing 9) :=
    .cons (.received 7 9 [] []) (.cons (.same _) (.cons (.same _) (.cons (.same _)
      (.cons (.same _) .nil))))
  have runs (received : Nat) : (machine (fun _ => true) serverFlow).run serverFlow
      (summing received) = some (summed received) := rfl
  exact ⟨by decide, by decide, (deletion_forgets ⟨fun _ _ => some 0, id⟩ same (by decide)
    (by decide) (runs 7) (runs 9) (by decide) (by decide)).2⟩

end Flow

end SaltyRtcServer
