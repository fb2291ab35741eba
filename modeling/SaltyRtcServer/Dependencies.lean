import SaltyRtcServer.Synthesis

/-!
# The objects that constraints depend on

`dependencies_from_constraints` collects the tainted objects of constraint maps that
contribute to synthesis.  It repeats how `_splice_synthesis` selects its bounds, but
asks whether a bound is there by its truth value, which is false for zero, and keeps
the upper bound in the variable that is read again for the lower one.
-/

namespace SaltyRtcServer

/-- An integer Splice object. -/
structure IntObject where
  ref : Nat
  value : Int
  taints : Nat
  deriving DecidableEq

/-- A map of conjunctive constraints on integer objects, of which `eq` holds functions and
their values, with the arguments of conditions under `conds`. -/
structure ObjectConstraints (Operation : Type) extends
    ConstraintMap IntObject (Operation × IntObject) where
  conds : Option (List IntObject)

namespace IntObject

/-- `min(one, other)`. -/
def minOf (one other : IntObject) : IntObject :=
  if other.value < one.value then other else one

/-- `max(one, other)`. -/
def maxOf (one other : IntObject) : IntObject :=
  if one.value < other.value then other else one

/-- `min(constraints[key])`: the first of the least objects. -/
def least (key : Option (Values IntObject)) : Option IntObject :=
  key.map fun values => values.1.tail.foldl minOf (values.1.head values.2)

/-- `max(constraints[key])`. -/
def greatest (key : Option (Values IntObject)) : Option IntObject :=
  key.map fun values => values.1.tail.foldl maxOf (values.1.head values.2)

/-- The bound is there, and not zero. -/
def truthy (bound : Option IntObject) : Option IntObject :=
  bound.filter fun object => object.value ≠ 0

/-- The branches that assign to `obj`, which keeps its value if neither bound is there. -/
def choose (pick : IntObject → IntObject → IntObject)
    (first second obj : Option IntObject) : Option IntObject :=
  match truthy first, truthy second with
  | some one, some other => some (pick one other)
  | some one, none => some one
  | none, some other => some other
  | none, none => obj

/-- `if isinstance(obj, SpliceMixin) and obj.taints == taint`. -/
def tainted (taint : Nat) (objects : List IntObject) : List IntObject :=
  objects.filter fun object => object.taints = taint

end IntObject

namespace ObjectConstraints

open IntObject

variable {Operation : Type} (constraints : ObjectConstraints Operation)

/-- The objects under `eq`, `ne` and `conds`. -/
def others : List IntObject :=
  (constraints.eq.getD []).map Prod.snd ++ constraints.ne.getD [] ++ constraints.conds.getD []

/-- The body of the loop of `dependencies_from_constraints`. -/
def dependencies (taint : Nat) : List IntObject :=
  let upper := choose minOf (least constraints.lt) (least constraints.le) none
  let lower := choose maxOf (greatest constraints.gt) (greatest constraints.ge) upper
  tainted taint upper.toList ++ tainted taint lower.toList ++ tainted taint constraints.others

/-- The object that `_splice_synthesis` takes as its upper bound. -/
def upperObject : Option IntObject :=
  match least constraints.lt, least constraints.le with
  | some lt, some le => if lt.value ≤ le.value then some lt else some le
  | some lt, none => some lt
  | none, some le => some le
  | none, none => none

/-- The object that `_splice_synthesis` takes as its lower bound. -/
def lowerObject : Option IntObject :=
  match greatest constraints.gt, greatest constraints.ge with
  | some gt, some ge => if gt.value ≥ ge.value then some gt else some ge
  | some gt, none => some gt
  | none, some ge => some ge
  | none, none => none

/-- The map with the values of its objects. -/
def values : ConstraintMap Int (Operation × Int) where
  lt := constraints.lt.map fun values => ⟨values.1.map value, by simpa using values.2⟩
  le := constraints.le.map fun values => ⟨values.1.map value, by simpa using values.2⟩
  gt := constraints.gt.map fun values => ⟨values.1.map value, by simpa using values.2⟩
  ge := constraints.ge.map fun values => ⟨values.1.map value, by simpa using values.2⟩
  eq := constraints.eq.map (List.map fun equation => (equation.1, equation.2.value))
  ne := constraints.ne.map (List.map value)

/-- How often an object may be returned: once for each side of which it is a consolidated
bound, and once for each other place. -/
def mentions (object : IntObject) : Nat :=
  (if object ∈ (least constraints.lt).toList ++ (least constraints.le).toList then 1 else 0) +
    (if object ∈ (greatest constraints.gt).toList ++ (greatest constraints.ge).toList
      then 1 else 0) + constraints.others.count object

end ObjectConstraints

/-- `dependencies_from_constraints`. -/
def dependenciesFromConstraints {Operation : Type}
    (constraintsList : Option (List (ObjectConstraints Operation))) (taint : Nat) :
    List IntObject :=
  (constraintsList.getD []).foldl
    (fun objs constraints => objs ++ constraints.dependencies taint) []

namespace IntObject

variable {one other object : IntObject} {first second obj : Option IntObject}
variable {pick : IntObject → IntObject → IntObject} {taint : Nat}

/-- One of two objects. -/
def Picks (pick : IntObject → IntObject → IntObject) : Prop :=
  ∀ one other, pick one other = one ∨ pick one other = other

theorem picks_minOf : Picks minOf := by
  intro one other
  unfold minOf
  split
  · exact .inr rfl
  · exact .inl rfl

theorem picks_maxOf : Picks maxOf := by
  intro one other
  unfold maxOf
  split
  · exact .inr rfl
  · exact .inl rfl

/-- One of two objects, or the one that is there. -/
def combine (pick : IntObject → IntObject → IntObject) :
    Option IntObject → Option IntObject → Option IntObject
  | some one, some other => some (pick one other)
  | some one, none => some one
  | none, second => second

theorem mem_of_combine (picks : Picks pick) (found : object ∈ combine pick first second) :
    object ∈ first ∨ object ∈ second := by
  cases first with
  | none => exact .inr found
  | some one =>
      cases second with
      | none => exact .inl found
      | some other =>
          cases found
          exact (picks one other).imp (congrArg some ·.symm) (congrArg some ·.symm)

theorem combine_ne_none (found : object ∈ first ∨ object ∈ second) :
    combine pick first second ≠ none := by
  cases first <;> cases second <;> simp [combine] at found ⊢

/-- The variable is assigned to if one of the bounds is there and not zero. -/
theorem choose_eq : choose pick first second obj =
    (combine pick (truthy first) (truthy second)).or obj := by
  unfold choose
  cases truthy first <;> cases truthy second <;> rfl

@[simp]
theorem mem_truthy : object ∈ truthy first ↔ object ∈ first ∧ object.value ≠ 0 := by
  simp [truthy, Option.filter_eq_some_iff]

/-- What is combined is one of the bounds, and not zero. -/
theorem mem_of_combine_truthy (picks : Picks pick)
    (found : object ∈ combine pick (truthy first) (truthy second)) :
    object ∈ first.toList ++ second.toList ∧ object.value ≠ 0 := by
  rw [List.mem_append, Option.mem_toList, Option.mem_toList]
  rcases mem_of_combine picks found with isFirst | isSecond
  · exact (mem_truthy.mp isFirst).imp_left .inl
  · exact (mem_truthy.mp isSecond).imp_left .inr

theorem truthy_some (nonzero : object.value ≠ 0) : truthy (some object) = some object :=
  mem_truthy.mpr ⟨rfl, nonzero⟩

theorem truthy_zero (zero : object.value = 0) : truthy (some object) = none := by
  simp [truthy, zero]

/-- A bound other than zero is chosen as it is combined. -/
theorem mem_combine_truthy (picks : Picks pick) (found : object ∈ combine pick first second)
    (nonzero : object.value ≠ 0) : object ∈ combine pick (truthy first) (truthy second) := by
  cases first with
  | none => exact mem_truthy.mpr ⟨found, nonzero⟩
  | some one =>
      cases second with
      | none =>
          obtain rfl : one = object := Option.some.inj found
          rw [truthy_some nonzero]
          rfl
      | some other =>
          have same : pick one other = object := Option.some.inj found
          by_cases zeroOne : one.value = 0
          · rcases picks one other with isOne | isOther
            · rw [← same, isOne] at nonzero
              contradiction
            · obtain rfl : other = object := isOther.symm.trans same
              rw [truthy_zero zeroOne, truthy_some nonzero]
              rfl
          · by_cases zeroOther : other.value = 0
            · rcases picks one other with isOne | isOther
              · obtain rfl : one = object := isOne.symm.trans same
                rw [truthy_zero zeroOther, truthy_some nonzero]
                rfl
              · rw [← same, isOther] at nonzero
                contradiction
            · rw [truthy_some zeroOne, truthy_some zeroOther]
              exact found

theorem mem_tainted {objects : List IntObject} :
    object ∈ tainted taint objects ↔ object ∈ objects ∧ object.taints = taint := by
  simp [tainted]

theorem count_tainted (same : object.taints = taint) (objects : List IntObject) :
    (tainted taint objects).count object = objects.count object :=
  List.count_filter (by simpa using same)

theorem count_toList (place : Option IntObject) :
    place.toList.count object = if object ∈ place then 1 else 0 := by
  cases place with
  | none => rfl
  | some other => simp [List.count_singleton]

theorem value_minOf (one other : IntObject) :
    (minOf one other).value = min one.value other.value := by
  unfold minOf
  split
  · next less => exact (min_eq_right (le_of_lt less)).symm
  · next notLess => exact (min_eq_left (not_lt.mp notLess)).symm

theorem value_maxOf (one other : IntObject) :
    (maxOf one other).value = max one.value other.value := by
  unfold maxOf
  split
  · next less => exact (max_eq_right (le_of_lt less)).symm
  · next notLess => exact (max_eq_left (not_lt.mp notLess)).symm

/-- The picked object has the value that is picked among the values. -/
theorem value_foldl {pickValue : Int → Int → Int}
    (values : ∀ one other, (pick one other).value = pickValue one.value other.value)
    (objects : List IntObject) (first : IntObject) :
    (objects.foldl pick first).value = (objects.map value).foldl pickValue first.value := by
  rw [List.foldl_map]
  exact (List.foldl_hom value fun one other => (values one other).symm).symm

theorem value_least (key : Option (Values IntObject)) :
    (least key).map value = ConstraintMap.minimum
      (key.map fun values => ⟨values.1.map value, by simpa using values.2⟩) := by
  rcases key with _ | ⟨_ | ⟨first, rest⟩, nonempty⟩
  · rfl
  · contradiction
  · exact congrArg some (value_foldl value_minOf rest first)

theorem value_greatest (key : Option (Values IntObject)) :
    (greatest key).map value = ConstraintMap.maximum
      (key.map fun values => ⟨values.1.map value, by simpa using values.2⟩) := by
  rcases key with _ | ⟨_ | ⟨first, rest⟩, nonempty⟩
  · rfl
  · contradiction
  · exact congrArg some (value_foldl value_maxOf rest first)

end IntObject

namespace ObjectConstraints

open IntObject

variable {Operation : Type} {constraints : ObjectConstraints Operation} {taint : Nat}
variable {object : IntObject}

theorem upperObject_eq : constraints.upperObject =
    combine minOf (least constraints.lt) (least constraints.le) := by
  unfold upperObject
  cases least constraints.lt with
  | none => cases least constraints.le <;> rfl
  | some lt =>
      cases least constraints.le with
      | none => rfl
      | some le =>
          dsimp only
          by_cases ordered : lt.value ≤ le.value
          · rw [if_pos ordered, combine, minOf, if_neg (not_lt.mpr ordered)]
          · rw [if_neg ordered, combine, minOf, if_pos (not_le.mp ordered)]

theorem lowerObject_eq : constraints.lowerObject =
    combine maxOf (greatest constraints.gt) (greatest constraints.ge) := by
  unfold lowerObject
  cases greatest constraints.gt with
  | none => cases greatest constraints.ge <;> rfl
  | some gt =>
      cases greatest constraints.ge with
      | none => rfl
      | some ge =>
          dsimp only
          by_cases ordered : gt.value ≥ ge.value
          · rw [if_pos ordered, combine, maxOf, if_neg (not_lt.mpr ordered)]
          · rw [if_neg ordered, combine, maxOf, if_pos (not_le.mp ordered)]

/-- The least one of the upper bounds that are not zero. -/
def nonzeroUpper (constraints : ObjectConstraints Operation) : Option IntObject :=
  combine minOf (truthy (least constraints.lt)) (truthy (least constraints.le))

/-- The greatest one of the lower bounds that are not zero. -/
def nonzeroLower (constraints : ObjectConstraints Operation) : Option IntObject :=
  combine maxOf (truthy (greatest constraints.gt)) (truthy (greatest constraints.ge))

theorem dependencies_eq : constraints.dependencies taint =
    tainted taint constraints.nonzeroUpper.toList ++
      tainted taint (constraints.nonzeroLower.or constraints.nonzeroUpper).toList ++
        tainted taint constraints.others := by
  unfold dependencies
  simp only [choose_eq, Option.or_none]
  rfl

theorem nonzero_of_mem (found : object ∈ constraints.nonzeroUpper ∨
    object ∈ constraints.nonzeroLower) : object.value ≠ 0 := by
  rcases found with upper | lower
  · exact (mem_of_combine_truthy picks_minOf upper).2
  · exact (mem_of_combine_truthy picks_maxOf lower).2

/-- The objects are those that synthesis uses. -/
structure MatchesSynthesis (constraints : ObjectConstraints Operation) (taint : Nat)
    (objects : List IntObject) : Prop where
  upper : ∀ bound ∈ constraints.upperObject, bound.taints = taint → bound ∈ objects
  lower : ∀ bound ∈ constraints.lowerObject, bound.taints = taint → bound ∈ objects
  eq : ∀ equation ∈ constraints.eq.getD [], equation.2.taints = taint → equation.2 ∈ objects
  ne : ∀ object ∈ constraints.ne.getD [], object.taints = taint → object ∈ objects
  tainted : ∀ object ∈ objects, object.taints = taint
  once : ∀ object, objects.count object ≤ constraints.mentions object

/-- Bounds of zero are also mentioned elsewhere, and an upper bound is not left over when the
lower one is looked for. -/
structure KeepsBounds (constraints : ObjectConstraints Operation) (taint : Nat) : Prop where
  zero : ∀ bound, bound ∈ constraints.upperObject ∨ bound ∈ constraints.lowerObject →
    bound.taints = taint → bound.value = 0 → bound ∈ constraints.others
  leftover : ∀ upper ∈ constraints.nonzeroUpper, upper.taints = taint →
    constraints.nonzeroLower ≠ none

/-- The objects have the values that `_splice_synthesis` takes as its bounds. -/
theorem value_upperObject (constraints : ObjectConstraints Operation) :
    constraints.upperObject.map value = constraints.values.upperBound.map Prod.fst := by
  have lt := value_least constraints.lt
  have le := value_least constraints.le
  unfold upperObject ConstraintMap.upperBound values
  rw [← lt, ← le]
  cases least constraints.lt <;> cases least constraints.le <;> try rfl
  dsimp only [Option.map_some]
  split <;> rfl

theorem value_lowerObject (constraints : ObjectConstraints Operation) :
    constraints.lowerObject.map value = constraints.values.lowerBound.map Prod.fst := by
  have gt := value_greatest constraints.gt
  have ge := value_greatest constraints.ge
  unfold lowerObject ConstraintMap.lowerBound values
  rw [← gt, ← ge]
  cases greatest constraints.gt <;> cases greatest constraints.ge <;> try rfl
  dsimp only [Option.map_some]
  split <;> rfl

theorem mem_dependencies_iff : object ∈ constraints.dependencies taint ↔
    (object ∈ constraints.nonzeroUpper ∨
      object ∈ constraints.nonzeroLower.or constraints.nonzeroUpper ∨
        object ∈ constraints.others) ∧ object.taints = taint := by
  simp only [dependencies_eq, List.mem_append, mem_tainted, Option.mem_toList,
    Option.mem_def, or_assoc, or_and_right]

theorem count_dependencies (same : object.taints = taint) :
    (constraints.dependencies taint).count object =
      (if object ∈ constraints.nonzeroUpper then 1 else 0) +
        (if object ∈ constraints.nonzeroLower.or constraints.nonzeroUpper then 1 else 0) +
          constraints.others.count object := by
  rw [dependencies_eq, List.count_append, List.count_append, count_tainted same,
    count_tainted same, count_tainted same, count_toList, count_toList]

/-- Without a lower bound other than zero, an upper one is not mentioned as a lower bound. -/
theorem not_mentions_lower (none : constraints.nonzeroLower = none)
    (found : object ∈ constraints.nonzeroUpper) :
    object ∉ (greatest constraints.gt).toList ++ (greatest constraints.ge).toList := by
  intro mem
  have nonzero := nonzero_of_mem (.inl found)
  rw [List.mem_append, Option.mem_toList, Option.mem_toList] at mem
  exact combine_ne_none (mem.imp (fun gt => mem_truthy.mpr ⟨gt, nonzero⟩)
    (fun ge => mem_truthy.mpr ⟨ge, nonzero⟩)) none

theorem count_le_mentions (keeps : constraints.KeepsBounds taint) (object : IntObject) :
    (constraints.dependencies taint).count object ≤ constraints.mentions object := by
  by_cases same : object.taints = taint
  · rw [count_dependencies same, mentions]
    apply Nat.add_le_add_right
    apply Nat.add_le_add
    · split
      · next found => rw [if_pos (mem_of_combine_truthy picks_minOf found).1]
      · exact Nat.zero_le _
    · split
      · next found =>
        cases lower : constraints.nonzeroLower with
        | none =>
            rw [lower, Option.none_or] at found
            exact absurd lower (keeps.leftover object found same)
        | some bound =>
            rw [lower, Option.some_or] at found
            rw [if_pos (mem_of_combine_truthy picks_maxOf (lower.trans found)).1]
      · exact Nat.zero_le _
  · rw [List.count_eq_zero_of_not_mem fun mem => same (mem_dependencies_iff.mp mem).2]
    exact Nat.zero_le _

/-- What one map yields is what synthesis uses of it if and only if its bounds are kept. -/
theorem matchesSynthesis_iff : constraints.MatchesSynthesis taint (constraints.dependencies taint) ↔
    constraints.KeepsBounds taint := by
  constructor
  · intro matches_
    constructor
    · intro bound isBound same zero
      have mem : bound ∈ constraints.dependencies taint :=
        isBound.elim (matches_.upper bound · same) (matches_.lower bound · same)
      rcases (mem_dependencies_iff.mp mem).1 with upper | lower | other
      · exact absurd zero (nonzero_of_mem (.inl upper))
      · rcases Option.or_eq_some_iff.mp lower with lower | ⟨_, upper⟩
        · exact absurd zero (nonzero_of_mem (.inr lower))
        · exact absurd zero (nonzero_of_mem (.inl upper))
      · exact other
    · intro upper found same none
      have twice := matches_.once upper
      rw [count_dependencies same, mentions, none, Option.none_or, if_pos found,
        if_pos (mem_of_combine_truthy picks_minOf found).1,
        if_neg (not_mentions_lower none found)] at twice
      omega
  · intro keeps
    refine ⟨fun bound isUpper same => ?_, fun bound isLower same => ?_,
      fun equation mem same => ?_, fun object mem same => ?_, fun object mem => ?_,
      count_le_mentions keeps⟩
    · by_cases zero : bound.value = 0
      · exact mem_dependencies_iff.mpr
          ⟨.inr (.inr (keeps.zero bound (.inl isUpper) same zero)), same⟩
      · rw [upperObject_eq] at isUpper
        exact mem_dependencies_iff.mpr ⟨.inl (mem_combine_truthy picks_minOf isUpper zero), same⟩
    · by_cases zero : bound.value = 0
      · exact mem_dependencies_iff.mpr
          ⟨.inr (.inr (keeps.zero bound (.inr isLower) same zero)), same⟩
      · rw [lowerObject_eq] at isLower
        have found : bound ∈ constraints.nonzeroLower := mem_combine_truthy picks_maxOf isLower zero
        refine mem_dependencies_iff.mpr ⟨.inr (.inl ?_), same⟩
        exact Option.or_eq_some_iff.mpr (.inl found)
    · refine mem_dependencies_iff.mpr ⟨.inr (.inr ?_), same⟩
      simp only [others, List.mem_append, List.mem_map]
      exact .inl (.inl ⟨equation, mem, rfl⟩)
    · refine mem_dependencies_iff.mpr ⟨.inr (.inr ?_), same⟩
      simp only [others, List.mem_append]
      exact .inl (.inr mem)
    · exact (mem_dependencies_iff.mp mem).2

end ObjectConstraints

section Maps

open ObjectConstraints

variable {Operation : Type}

/-- Each map adds its own objects. -/
theorem dependenciesFromConstraints_eq (maps : List (ObjectConstraints Operation)) (taint : Nat) :
    dependenciesFromConstraints (some maps) taint =
      maps.flatMap fun constraints => constraints.dependencies taint := by
  have append : ∀ objs : List IntObject,
      maps.foldl (fun objs constraints => objs ++ constraints.dependencies taint) objs =
        objs ++ maps.flatMap fun constraints => constraints.dependencies taint := by
    induction maps with
    | nil => simp
    | cons constraints rest ih =>
        intro objs
        rw [List.foldl_cons, ih, List.flatMap_cons, List.append_assoc]
  exact append []

/-- For each map, the objects are those that synthesis uses, and there are no others. -/
structure DependenciesMatch (maps : List (ObjectConstraints Operation)) (taint : Nat) : Prop where
  separate : dependenciesFromConstraints (some maps) taint =
    maps.flatMap fun constraints => dependenciesFromConstraints (some [constraints]) taint
  each : ∀ constraints ∈ maps, constraints.MatchesSynthesis taint
    (dependenciesFromConstraints (some [constraints]) taint)

/-- The dependencies are the objects that synthesis uses if and only if the bounds of all maps
are kept. -/
theorem dependenciesMatch_iff (maps : List (ObjectConstraints Operation)) (taint : Nat) :
    DependenciesMatch maps taint ↔ ∀ constraints ∈ maps, constraints.KeepsBounds taint := by
  have single : ∀ constraints : ObjectConstraints Operation,
      dependenciesFromConstraints (some [constraints]) taint = constraints.dependencies taint :=
    fun constraints => List.nil_append _
  constructor
  · intro matches_ constraints mem
    have each := matches_.each constraints mem
    rw [single] at each
    exact matchesSynthesis_iff.mp each
  · intro keeps
    constructor
    · rw [dependenciesFromConstraints_eq]
      exact List.flatMap_congr fun constraints _ => (single constraints).symm
    · intro constraints mem
      rw [single]
      exact matchesSynthesis_iff.mpr (keeps constraints mem)

/-- A map with one object under `lt`. -/
def below (object : IntObject) : ObjectConstraints Unit :=
  ⟨⟨some ⟨[object], List.cons_ne_nil _ _⟩, none, none, none, none, none⟩, none⟩

/-- An upper bound of zero is missing, and another one is returned twice. -/
theorem zero_missing_and_bound_twice :
    dependenciesFromConstraints (some [below ⟨1, 0, 4⟩]) 4 = [] ∧
      dependenciesFromConstraints (some [below ⟨1, 5, 4⟩]) 4 = [⟨1, 5, 4⟩, ⟨1, 5, 4⟩] ∧
      ¬ DependenciesMatch [below ⟨1, 0, 4⟩] 4 ∧ ¬ DependenciesMatch [below ⟨1, 5, 4⟩] 4 := by
  have missing : dependenciesFromConstraints (some [below ⟨1, 0, 4⟩]) 4 = [] := by decide
  have twice : dependenciesFromConstraints (some [below ⟨1, 5, 4⟩]) 4 =
      [⟨1, 5, 4⟩, ⟨1, 5, 4⟩] := by decide
  refine ⟨missing, twice, fun matches_ => ?_, fun matches_ => ?_⟩
  · have upper := (matches_.each _ List.mem_cons_self).upper ⟨1, 0, 4⟩ rfl rfl
    rw [missing] at upper
    contradiction
  · have once := (matches_.each _ List.mem_cons_self).once ⟨1, 5, 4⟩
    rw [twice] at once
    exact absurd once (by decide)

end Maps

end SaltyRtcServer
