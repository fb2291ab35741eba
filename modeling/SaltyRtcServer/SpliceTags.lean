import SaltyRtcServer.StepMachine
import SaltyRtcServer.Taints

/-!
# The flags of Splice objects

A Splice object is trusted or not, and a synthesized value stands for one that
was deleted.  A trusted object is never synthesized: the constructor checks
this, while the operations below it set one flag or the other.
-/

namespace SaltyRtcServer

open StepMachine

/-- The attributes of a `SpliceMixin` object that Splice adds to its value. -/
structure Tags where
  trusted : Bool
  synthesized : Bool
  taints : Nat
  deriving DecidableEq

/-- The flags do not contradict each other. -/
def Tags.Consistent (tags : Tags) : Prop := ¬ (tags.trusted = true ∧ tags.synthesized = true)

instance (tags : Tags) : Decidable tags.Consistent := inferInstanceAs (Decidable (¬ _))

inductive SpliceError
  | attributeError (message : String)
  | runtimeError (message : String)
  deriving DecidableEq

/-- An argument of a method, as far as its tags can be inspected. -/
inductive Operand
  | splice (tags : Tags)
  | mapping (items : List (Operand × Operand))
  | sequence (items : List Operand)
  | other

mutual

/-- What taints need of an operand. -/
def Operand.argument : Operand → Argument
  | .splice tags => .splice tags.taints
  | .mapping items => .mapping (argumentItems items)
  | .sequence items => .sequence (arguments items)
  | .other => .other

def argumentItems : List (Operand × Operand) → List (Argument × Argument)
  | [] => []
  | (key, value) :: rest => (key.argument, value.argument) :: argumentItems rest

def arguments : List Operand → List Argument
  | [] => []
  | operand :: rest => operand.argument :: arguments rest

end

/-- The loops of `check_tag`, which stop at the first synthesized value; `trusted` is
what was found so far. -/
def checkAll (check : Operand → Bool × Bool) (trusted : Bool) : List Operand → Bool × Bool
  | [] => (trusted, false)
  | operand :: rest =>
      match check operand with
      | (tag, true) => (tag, true)
      | (tag, false) => checkAll check (trusted && tag) rest

/-- `check_tag` with `check_synthesis`: the trusted and the synthesized tag. -/
def checkTag : Nat → Operand → Bool × Bool
  | _, .splice tags => (tags.trusted, tags.synthesized)
  | 0, _ => (true, false)
  | depth + 1, .mapping items =>
      checkAll (checkTag depth) true (items.flatMap fun item => [item.1, item.2])
  | depth + 1, .sequence items => checkAll (checkTag depth) true items
  | _ + 1, .other => (true, false)

/-- The loop of `contains_untrusted_arguments`. -/
def containsUntrusted (untrusted : Bool) : List Operand → Bool × Bool
  | [] => (untrusted, false)
  | operand :: rest =>
      match checkTag 2 operand with
      | (_, true) => (true, true)
      | (trusted, false) => containsUntrusted (untrusted || !trusted) rest

/-- `contains_untrusted_arguments`: whether there is an untrusted and whether there
is a synthesized argument. -/
def containsUntrustedArguments (operands : List Operand) : Bool × Bool :=
  containsUntrusted false operands

namespace Tags

/-- An explicit `trusted` flag: an object can always be set to untrusted. -/
def overrideTrusted (untrusted : Bool) : Option Bool → Except SpliceError Bool
  | none => .ok !untrusted
  | some false => .ok false
  | some true =>
      if untrusted then
        .error (.attributeError ("Splice has determined that the object is untrusted," ++
          " but you are trying to manually set the flag otherwise."))
      else .ok true

/-- An explicit `synthesized` flag: an object can always be set to synthesized. -/
def overrideSynthesized (synthesized : Bool) : Option Bool → Except SpliceError Bool
  | none => .ok synthesized
  | some true => .ok true
  | some false =>
      if synthesized then
        .error (.attributeError ("Splice has determined that the object is synthesized," ++
          " but you are trying to manually set the flag otherwise."))
      else .ok false

/-- `MetaSplice.__call__`, with the flags and taints that were given explicitly. -/
def construct (operands : List Operand) (trusted synthesized : Option Bool) (taints : Option Nat) :
    Except SpliceError Tags := do
  let (untrusted, fromSynthesized) := containsUntrustedArguments operands
  let trusted ← overrideTrusted untrusted trusted
  let synthesized ← overrideSynthesized fromSynthesized synthesized
  if trusted ∧ synthesized then
    .error (.attributeError "Cannot initialize a trusted and synthesized object.")
  else
    return ⟨trusted, synthesized,
      unionTaint (unionArgumentTaints (arguments operands)) (taints.getD emptyTaint)⟩

/-- `SpliceMixin.to_trusted`. -/
def toTrusted (tags : Tags) (forced : Bool) : Except SpliceError Tags :=
  if tags.synthesized ∧ ¬ forced then
    .error (.runtimeError "cannot convert a synthesized value to a trusted value")
  else .ok { tags with trusted := true, synthesized := false }

/-- `to_untrusted` of a Splice object. -/
def toUntrusted (tags : Tags) : Tags := { tags with trusted := false }

/-- `to_synthesized` of a Splice object. -/
def toSynthesized (tags : Tags) : Tags := { tags with synthesized := true }

/-- `add_taints` to a Splice object. -/
def addTaints (tags : Tags) (taints : Nat) : Tags := { tags with taints := taints }

/-- What a decorated method makes of its own object: the tags of the operands, of
which the object is one, count only if the object has changed. -/
def called (tags : Tags) (others : List Operand) (mutated : Bool) : Tags :=
  let operands := .splice tags :: others
  let (untrusted, synthesized) := containsUntrustedArguments operands
  if mutated then
    { trusted := if untrusted then false else tags.trusted
      synthesized := if synthesized then true else tags.synthesized
      taints := unionTaint tags.taints (unionArgumentTaints (arguments operands)) }
  else tags

/-- The tags of a result that is not a Splice object yet. -/
def returned (operands : List Operand) : Tags :=
  let (untrusted, synthesized) := containsUntrustedArguments operands
  ⟨!untrusted, synthesized, unionArgumentTaints (arguments operands)⟩

/-- `SpliceStructMixin.splicify` of a key or an item of a `SpliceDict`. -/
def inserted (tags : Tags) : Tags := tags.toUntrusted

/-- What `synthesize` of the tables does to the value of the key. -/
def ofSynthesizedKey (tags : Tags) : Tags := { tags with synthesized := true }

/-- What is done to a Splice object. -/
inductive Action
  | toTrusted (forced : Bool)
  | toUntrusted
  | toSynthesized
  | addTaints (taints : Nat)
  /-- `to_splice`, with flags that are not both set -/
  | toSplice (tags : { tags : Tags // tags.Consistent })
  | call (others : List Operand) (mutated : Bool)
  | insert
  | synthesize

def step (tags : Tags) : Action → Option Tags
  | .toTrusted forced => (tags.toTrusted forced).toOption
  | .toUntrusted => some tags.toUntrusted
  | .toSynthesized => some tags.toSynthesized
  | .addTaints taints => some (tags.addTaints taints)
  | .toSplice tags => some tags.1
  | .call others mutated => some (tags.called others mutated)
  | .insert => some tags.inserted
  | .synthesize => some tags.ofSynthesizedKey

/-- How a Splice object comes into being: it is constructed, converted from a value
of another type, or the result of a method. -/
inductive Created : Tags → Prop
  | constructed {operands : List Operand} {trusted synthesized : Option Bool}
      {taints : Option Nat} {tags : Tags} :
      construct operands trusted synthesized taints = .ok tags → Created tags
  | converted {tags : Tags} : tags.Consistent → Created tags
  | returned (operands : List Operand) : Created (returned operands)

/-- The life of one Splice object. -/
def machine : Machine Tags Action := ⟨Created, step⟩

/-- No object is flagged as synthesized while it is trusted. -/
def FlagsUntrusted (tags : Tags) : Action → Prop
  | .toSynthesized | .synthesize => tags.trusted = false
  | _ => True

/-- Synthesized arguments count as untrusted. -/
theorem untrusted_of_synthesized {untrusted : Bool} {operands : List Operand}
    (synthesized : (containsUntrusted untrusted operands).2 = true) :
    (containsUntrusted untrusted operands).1 = true := by
  induction operands generalizing untrusted with
  | nil => contradiction
  | cons operand rest ih =>
      unfold containsUntrusted at synthesized ⊢
      split
      · rfl
      · next tag found =>
        rw [found] at synthesized
        exact ih synthesized

theorem consistent_construct {operands : List Operand} {trusted synthesized : Option Bool}
    {taints : Option Nat} {tags : Tags}
    (constructed : construct operands trusted synthesized taints = .ok tags) :
    tags.Consistent := by
  unfold construct at constructed
  dsimp only at constructed
  cases first : overrideTrusted (containsUntrustedArguments operands).1 trusted with
  | error raised =>
      rw [first] at constructed
      contradiction
  | ok isTrusted =>
      rw [first] at constructed
      cases second : overrideSynthesized (containsUntrustedArguments operands).2 synthesized with
      | error raised =>
          rw [second] at constructed
          contradiction
      | ok isSynthesized =>
          rw [second] at constructed
          change (if isTrusted = true ∧ isSynthesized = true then _ else _) = _ at constructed
          split at constructed
          · contradiction
          · next consistent =>
            cases constructed
            exact consistent

/-- The constructor takes the flags as they are given if the value has no tags. -/
theorem construct_other (trusted synthesized : Bool) (taints : Option Nat) :
    construct [.other] (some trusted) (some synthesized) taints =
      if trusted = true ∧ synthesized = true then
        .error (.attributeError "Cannot initialize a trusted and synthesized object.")
      else .ok ⟨trusted, synthesized, taints.getD emptyTaint⟩ := by
  have union : unionTaint (unionArgumentTaints (arguments [.other])) (taints.getD emptyTaint) =
      taints.getD emptyTaint := Nat.zero_or _
  rw [construct, union]
  cases trusted <;> cases synthesized <;> rfl

theorem consistent_returned (operands : List Operand) : (returned operands).Consistent := by
  rintro ⟨trusted, synthesized⟩
  have untrusted := untrusted_of_synthesized synthesized
  simp [returned, containsUntrustedArguments, untrusted] at trusted

variable {before after tags : Tags}

theorem Consistent.called (consistent : tags.Consistent) (others : List Operand) (mutated : Bool) :
    (tags.called others mutated).Consistent := by
  rintro ⟨trusted, synthesized⟩
  cases mutated with
  | false => exact consistent ⟨trusted, synthesized⟩
  | true =>
      simp only [Tags.called, if_true] at trusted synthesized
      cases found : (containsUntrustedArguments (.splice tags :: others)).2 with
      | true =>
          have untrusted := untrusted_of_synthesized found
          rw [containsUntrustedArguments, untrusted] at trusted
          contradiction
      | false =>
          rw [found] at synthesized
          split at trusted
          · contradiction
          · exact consistent ⟨trusted, synthesized⟩

/-- What one operation preserves. -/
theorem Consistent.step (consistent : before.Consistent) {action : Action}
    (untrusted : before.FlagsUntrusted action) (stepped : before.step action = some after) :
    after.Consistent := by
  cases action with
  | toTrusted forced =>
      simp only [Tags.step, Tags.toTrusted] at stepped
      split at stepped
      · contradiction
      · cases stepped
        simp [Consistent]
  | toUntrusted | insert =>
      cases stepped
      simp [Consistent, toUntrusted, inserted]
  | toSynthesized | synthesize =>
      cases stepped
      rintro ⟨trusted, _⟩
      exact Bool.false_ne_true (untrusted.symm.trans trusted)
  | addTaints taints =>
      cases stepped
      exact consistent
  | toSplice flags =>
      cases stepped
      exact flags.2
  | call others mutated =>
      cases stepped
      exact consistent.called others mutated

theorem Created.consistent (created : Created tags) : tags.Consistent := by
  cases created with
  | constructed constructed => exact consistent_construct constructed
  | converted consistent => exact consistent
  | returned operands => exact consistent_returned operands

/-- An object that is only flagged as synthesized while it is untrusted is never both
trusted and synthesized. -/
theorem never_trusted_and_synthesized (reach : machine.Reach FlagsUntrusted tags) :
    ¬ (tags.trusted = true ∧ tags.synthesized = true) := by
  apply reach.invariant Consistent
  · exact fun tags created => Created.consistent created
  · intro before after action _ untrusted consistent stepped
    exact Consistent.step consistent untrusted stepped

/-- An untrusted object is flagged as synthesized. -/
theorem never_trusted_and_synthesized_untrusted :
    ∃ tags : Tags, tags.synthesized = true ∧ ¬ (tags.trusted = true ∧ tags.synthesized = true) := by
  have created : Created ⟨true, false, 4⟩ :=
    .constructed (show construct [] none none (some 4) = .ok _ from rfl)
  exact ⟨_, rfl, never_trusted_and_synthesized (.next .toSynthesized
    (.next .toUntrusted (.start created) trivial rfl) rfl rfl)⟩

/-- Flagging a trusted object as synthesized always breaks it. -/
theorem inconsistent_of_flagged {action : Action} (trusted : ¬ before.FlagsUntrusted action)
    (stepped : before.step action = some after) : ¬ after.Consistent := by
  cases action with
  | toSynthesized | synthesize =>
      cases stepped
      intro consistent
      exact consistent ⟨Bool.not_eq_false _ |>.mp trusted, rfl⟩
  | _ => exact absurd trivial trusted

/-- `to_synthesized` of a new, trusted object; the value of a key of a hash table. -/
theorem trusted_and_synthesized :
    ¬ ∀ tags : Tags, machine.Reachable tags → ¬ (tags.trusted = true ∧ tags.synthesized = true) := by
  intro claimed
  have created : Created ⟨true, false, emptyTaint⟩ := .converted (by decide)
  exact claimed _ (.next .toSynthesized (.start created) trivial rfl) ⟨rfl, rfl⟩

end Tags

end SaltyRtcServer
