import Mathlib.Data.List.Basic
import Mathlib.Logic.Function.Basic

/-!
# The tasks of an event loop

A cooperative event loop runs a task from one suspension to the next.  A new
task is put at the end of the ready queue and starts when it has reached the
front; cancelling it only asks for a cancellation, which is delivered when the
task would run next.
-/

/-- How a task ended. -/
inductive Outcome (Failure : Type*)
  | finished
  | cancelled
  | failed (exception : Failure)
  deriving DecidableEq

inductive TaskStatus (Failure : Type*)
  | unstarted
  | suspended
  | done (outcome : Outcome Failure)
  deriving DecidableEq

structure LoopTask (Body Failure : Type*) where
  body : Body
  status : TaskStatus Failure
  cancelRequested : Bool

abbrev TaskId := Nat

/-- All tasks that were ever created, and those that have not started, in the
order of their creation. -/
structure EventLoop (Body Failure : Type*) where
  task : TaskId → LoopTask Body Failure
  next : TaskId
  ready : List TaskId

namespace EventLoop

variable {Body Failure : Type*}

/-- `loop.create_task`; the new task is called `loop.next`. -/
def spawn (loop : EventLoop Body Failure) (body : Body) : EventLoop Body Failure where
  task := Function.update loop.task loop.next ⟨body, .unstarted, false⟩
  next := loop.next + 1
  ready := loop.ready ++ [loop.next]

/-- `create_task` for several bodies, in order. -/
def spawnAll (loop : EventLoop Body Failure) : List Body → EventLoop Body Failure × List TaskId
  | [] => (loop, [])
  | body :: rest =>
      let (after, ids) := (loop.spawn body).spawnAll rest
      (after, loop.next :: ids)

def isDone (loop : EventLoop Body Failure) (id : TaskId) : Bool :=
  match (loop.task id).status with
  | .done _ => true
  | _ => false

def hasFailed (loop : EventLoop Body Failure) (id : TaskId) : Bool :=
  match (loop.task id).status with
  | .done (.failed _) => true
  | _ => false

/-- `task.cancel()`, which a task that is done ignores. -/
def requestCancel (loop : EventLoop Body Failure) (id : TaskId) : EventLoop Body Failure :=
  if loop.isDone id then loop
  else { loop with
    task := Function.update loop.task id { loop.task id with cancelRequested := true } }

/-- `task.cancel()` for several tasks, in order. -/
def requestCancels (loop : EventLoop Body Failure) (ids : List TaskId) :
    EventLoop Body Failure :=
  ids.foldl requestCancel loop

/-- The first ready task is taken. -/
def pop (loop : EventLoop Body Failure) : EventLoop Body Failure :=
  { loop with ready := loop.ready.tail }

/-- The bodies of the ready tasks, in the order in which they will start. -/
def pending (loop : EventLoop Body Failure) : List Body :=
  loop.ready.map fun id => (loop.task id).body

def setStatus (loop : EventLoop Body Failure) (id : TaskId) (status : TaskStatus Failure) :
    EventLoop Body Failure :=
  { loop with task := Function.update loop.task id { loop.task id with status := status } }

/-- Only tasks that were created and have not started are ready, each once and
in the order of creation. -/
structure WellFormed (loop : EventLoop Body Failure) : Prop where
  sorted : loop.ready.Pairwise (· < ·)
  created : ∀ id ∈ loop.ready, id < loop.next
  unstarted : ∀ id, id < loop.next → (id ∈ loop.ready ↔ (loop.task id).status = .unstarted)

variable {loop : EventLoop Body Failure}

theorem WellFormed.ready_unstarted (wellFormed : loop.WellFormed) {id : TaskId}
    (ready : id ∈ loop.ready) : (loop.task id).status = .unstarted :=
  (wellFormed.unstarted id (wellFormed.created id ready)).mp ready

theorem WellFormed.next_notMem (wellFormed : loop.WellFormed) : loop.next ∉ loop.ready :=
  fun ready => Nat.lt_irrefl _ (wellFormed.created _ ready)

theorem WellFormed.spawn (wellFormed : loop.WellFormed) (body : Body) :
    (loop.spawn body).WellFormed := by
  obtain ⟨sorted, created, unstarted⟩ := wellFormed
  constructor <;> simp only [EventLoop.spawn, Function.update_apply]
  · rw [List.pairwise_append]
    refine ⟨sorted, List.pairwise_singleton _ _, ?_⟩
    grind
  · grind
  · grind

@[simp]
theorem pending_setStatus (loop : EventLoop Body Failure) (id : TaskId)
    (status : TaskStatus Failure) : (loop.setStatus id status).pending = loop.pending := by
  simp only [pending, setStatus]
  apply List.map_congr_left
  intro other _
  by_cases same : other = id <;> simp [same]

theorem pending_of_ready {id : TaskId} {rest : List TaskId} (ready : loop.ready = id :: rest) :
    loop.pending = (loop.task id).body :: loop.pop.pending := by
  simp [pending, pop, ready]

theorem pending_spawn (wellFormed : loop.WellFormed) (body : Body) :
    (loop.spawn body).pending = loop.pending ++ [body] := by
  have fresh := wellFormed.next_notMem
  simp only [pending, spawn, List.map_append, List.map_singleton, Function.update_self]
  congr 1
  apply List.map_congr_left
  intro id ready
  rw [Function.update_of_ne]
  rintro rfl
  exact fresh ready

theorem task_spawn_of_lt {id : TaskId} (older : id < loop.next) (body : Body) :
    (loop.spawn body).task id = loop.task id :=
  Function.update_of_ne (Nat.ne_of_lt older) _ _

section SpawnAll

theorem WellFormed.spawnAll (wellFormed : loop.WellFormed) (bodies : List Body) :
    (loop.spawnAll bodies).1.WellFormed := by
  induction bodies generalizing loop with
  | nil => exact wellFormed
  | cons body rest ih => exact ih (wellFormed.spawn body)

theorem pending_spawnAll (wellFormed : loop.WellFormed) (bodies : List Body) :
    (loop.spawnAll bodies).1.pending = loop.pending ++ bodies := by
  induction bodies generalizing loop with
  | nil => simp [EventLoop.spawnAll]
  | cons body rest ih =>
      simp only [EventLoop.spawnAll]
      rw [ih (wellFormed.spawn body), pending_spawn wellFormed, List.append_assoc]
      rfl

theorem task_spawnAll_of_lt {id : TaskId} (older : id < loop.next) (bodies : List Body) :
    (loop.spawnAll bodies).1.task id = loop.task id := by
  induction bodies generalizing loop with
  | nil => rfl
  | cons body rest ih =>
      simp only [EventLoop.spawnAll]
      rw [ih (Nat.lt_succ_of_lt older), task_spawn_of_lt older]

theorem ready_subset_spawnAll (bodies : List Body) :
    loop.ready ⊆ (loop.spawnAll bodies).1.ready := by
  induction bodies generalizing loop with
  | nil => exact List.Subset.refl _
  | cons body rest ih =>
      exact List.Subset.trans (List.subset_append_left _ _) (@ih (loop.spawn body))

/-- The tasks that `spawnAll` creates are ready, one for each body. -/
theorem exists_spawnAll {bodies : List Body} {body : Body} (mem : body ∈ bodies) :
    ∃ id ∈ (loop.spawnAll bodies).2, id ∈ (loop.spawnAll bodies).1.ready ∧
      (loop.spawnAll bodies).1.task id = ⟨body, .unstarted, false⟩ := by
  induction bodies generalizing loop with
  | nil => contradiction
  | cons first rest ih =>
      rcases List.mem_cons.mp mem with rfl | later
      · refine ⟨loop.next, List.mem_cons_self, ?_, ?_⟩
        · exact ready_subset_spawnAll rest (by simp [spawn])
        · simp only [spawnAll]
          rw [task_spawnAll_of_lt (Nat.lt_succ_self _)]
          simp [spawn]
      · obtain ⟨id, created, ready, task⟩ := @ih (loop.spawn first) later
        exact ⟨id, List.mem_cons_of_mem _ created, ready, task⟩

end SpawnAll

section RequestCancel

variable (loop : EventLoop Body Failure) (id other : TaskId)

@[simp]
theorem next_requestCancel : (loop.requestCancel id).next = loop.next := by
  unfold requestCancel
  split <;> rfl

@[simp]
theorem ready_requestCancel : (loop.requestCancel id).ready = loop.ready := by
  unfold requestCancel
  split <;> rfl

@[simp]
theorem body_requestCancel :
    ((loop.requestCancel id).task other).body = (loop.task other).body := by
  unfold requestCancel
  split
  · rfl
  · by_cases same : other = id <;> simp [same]

@[simp]
theorem status_requestCancel :
    ((loop.requestCancel id).task other).status = (loop.task other).status := by
  unfold requestCancel
  split
  · rfl
  · by_cases same : other = id <;> simp [same]

theorem cancelRequested_requestCancel :
    ((loop.requestCancel id).task other).cancelRequested =
      if other = id ∧ loop.isDone id = false then true
      else (loop.task other).cancelRequested := by
  unfold requestCancel
  split
  · next done => simp [done]
  · next alive => by_cases same : other = id <;> simp [same, alive]

@[simp]
theorem pending_requestCancel : (loop.requestCancel id).pending = loop.pending := by
  simp [pending]

@[simp]
theorem isDone_requestCancel : (loop.requestCancel id).isDone other = loop.isDone other := by
  simp only [isDone, status_requestCancel]

@[simp]
theorem hasFailed_requestCancel : (loop.requestCancel id).hasFailed = loop.hasFailed := by
  funext other
  simp only [hasFailed, status_requestCancel]

theorem hasFailed_iff : loop.hasFailed id = true ↔
    ∃ exception, (loop.task id).status = .done (.failed exception) := by
  unfold hasFailed
  split
  · next exception status => simp [status]
  · next other => simpa using other

end RequestCancel

section RequestCancels

variable (loop : EventLoop Body Failure) (ids : List TaskId) {id : TaskId}

theorem requestCancels_append (more : List TaskId) :
    loop.requestCancels (ids ++ more) = (loop.requestCancels ids).requestCancels more :=
  List.foldl_append

@[simp]
theorem hasFailed_requestCancels : (loop.requestCancels ids).hasFailed = loop.hasFailed := by
  induction ids generalizing loop with
  | nil => rfl
  | cons first rest ih => exact (ih _).trans (hasFailed_requestCancel ..)

/-- A request is never withdrawn. -/
theorem cancelRequested_requestCancels_of_requested
    (requested : (loop.task id).cancelRequested = true) :
    ((loop.requestCancels ids).task id).cancelRequested = true := by
  induction ids generalizing loop with
  | nil => exact requested
  | cons first rest ih =>
      apply ih
      simp [cancelRequested_requestCancel, requested]

theorem cancelRequested_requestCancels (mem : id ∈ ids) (alive : loop.isDone id = false) :
    ((loop.requestCancels ids).task id).cancelRequested = true := by
  induction ids generalizing loop with
  | nil => contradiction
  | cons first rest ih =>
      rcases List.mem_cons.mp mem with rfl | later
      · have requested : ((loop.requestCancel id).task id).cancelRequested = true := by
          rw [cancelRequested_requestCancel, if_pos ⟨rfl, alive⟩]
        exact cancelRequested_requestCancels_of_requested _ rest requested
      · exact ih _ later (by rwa [isDone_requestCancel])

end RequestCancels

theorem WellFormed.requestCancel (wellFormed : loop.WellFormed) (id : TaskId) :
    (loop.requestCancel id).WellFormed := by
  obtain ⟨sorted, created, unstarted⟩ := wellFormed
  exact ⟨by simpa, by simpa, by simpa⟩

theorem WellFormed.pop (wellFormed : loop.WellFormed) {id : TaskId} {rest : List TaskId}
    (ready : loop.ready = id :: rest) {status : TaskStatus Failure}
    (started : status ≠ .unstarted) : (loop.pop.setStatus id status).WellFormed := by
  obtain ⟨sorted, created, unstarted⟩ := wellFormed
  constructor <;>
    simp only [EventLoop.pop, setStatus, ready, List.tail_cons, Function.update_apply]
  all_goals rw [ready, List.pairwise_cons] at sorted
  · exact sorted.2
  · grind
  · grind

theorem WellFormed.setStatus (wellFormed : loop.WellFormed) {id : TaskId}
    {status : TaskStatus Failure} (suspended : (loop.task id).status ≠ .unstarted)
    (started : status ≠ .unstarted) : (loop.setStatus id status).WellFormed := by
  obtain ⟨sorted, created, unstarted⟩ := wellFormed
  constructor <;> simp only [EventLoop.setStatus, Function.update_apply] <;> grind

theorem WellFormed.of_status (wellFormed : loop.WellFormed) {other : EventLoop Body Failure}
    (ready : other.ready = loop.ready) (next : other.next = loop.next)
    (status : ∀ id, (other.task id).status = (loop.task id).status) : other.WellFormed := by
  obtain ⟨sorted, created, unstarted⟩ := wellFormed
  constructor
  · rwa [ready]
  · rwa [ready, next]
  · simpa only [ready, next, status] using unstarted

/-- Bookkeeping on a loop: tasks with `spawned` bodies are created and the
cancellation of `cancelled` tasks is requested, but nothing starts or ends. -/
structure Extends (spawned : Body → Prop) (cancelled : TaskId → Prop)
    (before after : EventLoop Body Failure) : Prop where
  next : before.next ≤ after.next
  body : ∀ id < before.next, (after.task id).body = (before.task id).body
  status : ∀ id < before.next, (after.task id).status = (before.task id).status
  requested : ∀ id < before.next,
    (before.task id).cancelRequested = true → (after.task id).cancelRequested = true
  spared : ∀ id < before.next, ¬ cancelled id →
    (after.task id).cancelRequested = (before.task id).cancelRequested
  fresh : ∀ id, before.next ≤ id → id < after.next →
    spawned (after.task id).body ∧ (cancelled id ∨ (after.task id).cancelRequested = false)
  ready : ∃ ids, after.ready = before.ready ++ ids ∧
    ∀ id ∈ ids, before.next ≤ id ∧ id < after.next
  wellFormed : before.WellFormed → after.WellFormed

namespace Extends

variable {spawned weaker : Body → Prop} {cancelled more : TaskId → Prop}
variable {first second third : EventLoop Body Failure}

theorem refl (loop : EventLoop Body Failure) : Extends spawned cancelled loop loop where
  next := Nat.le_refl _
  body _ _ := rfl
  status _ _ := rfl
  requested _ _ requested := requested
  spared _ _ _ := rfl
  fresh id older newer := absurd newer (Nat.not_lt.mpr older)
  ready := ⟨[], by simp⟩
  wellFormed wellFormed := wellFormed

theorem trans (one : Extends spawned cancelled first second)
    (two : Extends spawned cancelled second third) : Extends spawned cancelled first third where
  next := Nat.le_trans one.next two.next
  body id older := by
    rw [two.body id (Nat.lt_of_lt_of_le older one.next), one.body id older]
  status id older := by
    rw [two.status id (Nat.lt_of_lt_of_le older one.next), one.status id older]
  requested id older requested :=
    two.requested id (Nat.lt_of_lt_of_le older one.next) (one.requested id older requested)
  spared id older kept := by
    rw [two.spared id (Nat.lt_of_lt_of_le older one.next) kept, one.spared id older kept]
  fresh id newer created := by
    rcases Nat.lt_or_ge id second.next with older | newest
    · obtain ⟨isSpawned, kept⟩ := one.fresh id newer older
      rw [two.body id older]
      refine ⟨isSpawned, or_iff_not_imp_left.mpr fun notCancelled => ?_⟩
      rw [two.spared id older notCancelled]
      exact kept.resolve_left notCancelled
    · exact two.fresh id newest created
  ready := by
    obtain ⟨ids, ready, bounds⟩ := one.ready
    obtain ⟨later, readyLater, boundsLater⟩ := two.ready
    refine ⟨ids ++ later, by rw [readyLater, ready, List.append_assoc], ?_⟩
    intro id mem
    rcases List.mem_append.mp mem with early | late
    · exact ⟨(bounds id early).1, Nat.lt_of_lt_of_le (bounds id early).2 two.next⟩
    · exact ⟨Nat.le_trans one.next (boundsLater id late).1, (boundsLater id late).2⟩
  wellFormed wellFormed := two.wellFormed (one.wellFormed wellFormed)

theorem mono (extends_ : Extends spawned cancelled first second)
    (spawns : ∀ body, spawned body → weaker body) (cancels : ∀ id, cancelled id → more id) :
    Extends weaker more first second where
  next := extends_.next
  body := extends_.body
  status := extends_.status
  requested := extends_.requested
  spared id older kept := extends_.spared id older fun cancel => kept (cancels id cancel)
  fresh id newer created :=
    (extends_.fresh id newer created).imp (spawns _) (Or.imp_left (cancels id))
  ready := extends_.ready
  wellFormed := extends_.wellFormed

theorem spawn {body : Body} (isSpawned : spawned body) :
    Extends spawned cancelled first (first.spawn body) where
  next := Nat.le_succ _
  body id older := by rw [task_spawn_of_lt older]
  status id older := by rw [task_spawn_of_lt older]
  requested id older requested := by rwa [task_spawn_of_lt older]
  spared id older _ := by rw [task_spawn_of_lt older]
  fresh id newer created := by
    obtain rfl : id = first.next := Nat.le_antisymm (Nat.le_of_lt_succ created) newer
    simp [EventLoop.spawn, isSpawned]
  ready := ⟨[first.next], rfl, by simp [EventLoop.spawn]⟩
  wellFormed wellFormed := wellFormed.spawn body

theorem spawnAll {bodies : List Body} (areSpawned : ∀ body ∈ bodies, spawned body) :
    Extends spawned cancelled first (first.spawnAll bodies).1 := by
  induction bodies generalizing first with
  | nil => exact .refl first
  | cons body rest ih =>
      exact (spawn (areSpawned body List.mem_cons_self)).trans
        (ih fun other mem => areSpawned other (List.mem_cons_of_mem _ mem))

theorem requestCancel {id : TaskId} (isCancelled : cancelled id) :
    Extends spawned cancelled first (first.requestCancel id) where
  next := Nat.le_of_eq (next_requestCancel _ _).symm
  body other _ := by rw [body_requestCancel]
  status other _ := by rw [status_requestCancel]
  requested other _ requested := by simp [cancelRequested_requestCancel, requested]
  spared other _ kept := by
    rw [cancelRequested_requestCancel, if_neg]
    rintro ⟨rfl, _⟩
    exact kept isCancelled
  fresh other newer created := by
    rw [next_requestCancel] at created
    exact absurd created (Nat.not_lt.mpr newer)
  ready := ⟨[], by rw [ready_requestCancel, List.append_nil], by simp⟩
  wellFormed wellFormed := wellFormed.requestCancel id

theorem ready_eq (extension : Extends (fun _ => False) cancelled first second) :
    second.ready = first.ready := by
  obtain ⟨ids, ready, bounds⟩ := extension.ready
  cases ids with
  | nil => simpa using ready
  | cons id rest =>
      have bound := bounds id List.mem_cons_self
      exact (extension.fresh id bound.1 bound.2).1.elim

/-- What was pending stays pending, before what is new. -/
theorem pending (extension : Extends spawned cancelled first second)
    (wellFormed : first.WellFormed) :
    ∃ bodies, second.pending = first.pending ++ bodies ∧ ∀ body ∈ bodies, spawned body := by
  obtain ⟨ids, ready, bounds⟩ := extension.ready
  refine ⟨ids.map fun id => (second.task id).body, ?_, ?_⟩
  · simp only [EventLoop.pending, ready, List.map_append]
    congr 1
    apply List.map_congr_left
    intro id mem
    exact extension.body id (wellFormed.created id mem)
  · intro body mem
    obtain ⟨id, idMem, rfl⟩ := List.mem_map.mp mem
    exact (extension.fresh id (bounds id idMem).1 (bounds id idMem).2).1

end Extends

end EventLoop
