import Mathlib.Data.List.Forall2
import SaltyRtcServer.StepMachine

/-!
# Two runs of one machine

What a part of the input has no influence on is the same in two runs that differ
in this part only.  A relation between the states of both runs is kept if every
pair of corresponding steps keeps it.  In the same way two implementations of
one interface are compared by their answers.
-/

namespace StepMachine

variable {State Action : Type*}

/-- Two runs whose steps correspond to each other keep a relation that corresponding
steps preserve. -/
theorem Machine.related_run {machine : Machine State Action} {allowed : State → Action → Prop}
    {related : State → State → Prop} {corresponds : Action → Action → Prop}
    (preserved : ∀ {one other after afterOther action another}, related one other →
      corresponds action another → allowed one action → allowed other another →
      machine.step one action = some after → machine.step other another = some afterOther →
      related after afterOther)
    {schedule scheduleOther : List Action}
    (correspond : List.Forall₂ corresponds schedule scheduleOther)
    {one other last lastOther : State} (start : related one other)
    (permitted : machine.Permitted allowed one schedule)
    (permittedOther : machine.Permitted allowed other scheduleOther)
    (runs : machine.run one schedule = some last)
    (runsOther : machine.run other scheduleOther = some lastOther) : related last lastOther := by
  induction correspond generalizing one other with
  | nil =>
      cases runs
      cases runsOther
      exact start
  | cons pair _ ih =>
      rw [Machine.run_cons, Option.bind_eq_some_iff] at runs runsOther
      obtain ⟨middle, stepped, remaining⟩ := runs
      obtain ⟨middleOther, steppedOther, remainingOther⟩ := runsOther
      exact ih (preserved start pair permitted.1 permittedOther.1 stepped steppedOther)
        (permitted.2 middle stepped) (permittedOther.2 middleOther steppedOther)
        remaining remainingOther

section Pairs

variable {First Second Third : Type*}

/-- What holds of the results of related items holds of the results of related lists. -/
theorem forall₂_mapM {related : Second → Third → Prop} {one : First → Option Second}
    {other : First → Option Third} {items : List First} {results : List Second}
    {others : List Third} (mapped : items.mapM one = some results)
    (mappedOther : items.mapM other = some others)
    (each : ∀ item result another, one item = some result → other item = some another →
      related result another) :
    List.Forall₂ related results others := by
  induction items generalizing results others with
  | nil =>
      rw [List.mapM_nil] at mapped mappedOther
      cases mapped
      cases mappedOther
      exact .nil
  | cons item rest ih =>
      rw [List.mapM_cons] at mapped mappedOther
      obtain ⟨result, first, mapped⟩ := Option.bind_eq_some_iff.mp mapped
      obtain ⟨remaining, tail, mapped⟩ := Option.bind_eq_some_iff.mp mapped
      obtain ⟨another, firstOther, mappedOther⟩ := Option.bind_eq_some_iff.mp mappedOther
      obtain ⟨remainingOther, tailOther, mappedOther⟩ := Option.bind_eq_some_iff.mp mappedOther
      cases mapped
      cases mappedOther
      exact .cons (each item result another first firstOther) (ih tail tailOther)

/-- Related items that agree in a flag agree in it as lists. -/
theorem any_eq_of_forall₂ {related : First → First → Prop} {flag : First → Bool}
    {items others : List First} (pairs : List.Forall₂ related items others)
    (agree : ∀ item other, related item other → flag item = flag other) :
    items.any flag = others.any flag := by
  induction pairs with
  | nil => rfl
  | cons pair _ ih => rw [List.any_cons, List.any_cons, ih, agree _ _ pair]

/-- Lists without the flag are equal if related items without it are. -/
theorem eq_of_forall₂ {related : First → First → Prop} {flag : First → Bool}
    {items others : List First} (pairs : List.Forall₂ related items others)
    (equal : ∀ item other, related item other → flag item = false → item = other)
    (unflagged : items.any flag = false) : items = others := by
  induction pairs with
  | nil => rfl
  | cons pair _ ih =>
      rw [List.any_cons, Bool.or_eq_false_iff] at unflagged
      rw [equal _ _ pair unflagged.1, ih unflagged.2]

end Pairs

section Requests

variable {First Second Request Answer : Type*}

/-- The answers to requests, and the state after them. -/
def serve {State : Type*} (respond : State → Request → Answer × State) :
    State → List Request → List Answer × State
  | state, [] => ([], state)
  | state, request :: rest =>
      let later := serve respond (respond state request).2 rest
      ((respond state request).1 :: later.1, later.2)

/-- Every request meets a condition on the state it is made in. -/
def Fitting {State : Type*} (respond : State → Request → Answer × State)
    (fits : State → Request → Prop) : State → List Request → Prop
  | _, [] => True
  | state, request :: rest =>
      fits state request ∧ Fitting respond fits (respond state request).2 rest

/-- Two implementations whose answers to one request agree give answers that agree to all
requests. -/
theorem serve_agrees {respond : First → Request → Answer × First}
    {respondOther : Second → Request → Answer × Second} {related : First → Second → Prop}
    {agree : Answer → Answer → Prop} {fits : First → Request → Prop}
    (each : ∀ one other request, related one other → fits one request →
      agree (respond one request).1 (respondOther other request).1 ∧
        related (respond one request).2 (respondOther other request).2)
    {one : First} {other : Second} (start : related one other) (requests : List Request)
    (fitting : Fitting respond fits one requests) :
    List.Forall₂ agree (serve respond one requests).1 (serve respondOther other requests).1 ∧
      related (serve respond one requests).2 (serve respondOther other requests).2 := by
  induction requests generalizing one other with
  | nil => exact ⟨.nil, start⟩
  | cons request rest ih =>
      obtain ⟨answered, next⟩ := each one other request start fitting.1
      obtain ⟨answers, last⟩ := ih next fitting.2
      exact ⟨.cons answered answers, last⟩

end Requests

end StepMachine
