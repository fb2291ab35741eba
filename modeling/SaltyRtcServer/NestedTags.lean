import SaltyRtcServer.SpliceTags

/-!
# Tags inside of containers

`check_tag` and `is_tainted_by` look into sequences and maps, and every container
counts as one level of the two that they go through.  They find the tags of all
leaves if the leaves that are nested deeper add nothing to the others.
-/

namespace SaltyRtcServer

/-- `check_tag` without `check_synthesis`. -/
def checkTrusted : Nat → Operand → Bool
  | _, .splice tags => tags.trusted
  | 0, _ => true
  | depth + 1, .mapping items =>
      items.all fun item => checkTrusted depth item.1 && checkTrusted depth item.2
  | depth + 1, .sequence items => items.all (checkTrusted depth)
  | _ + 1, .other => true

mutual

/-- The tags of all Splice objects inside of a value. -/
def Operand.leaves : Operand → List Tags
  | .splice tags => [tags]
  | .mapping items => itemLeaves items
  | .sequence items => sequenceLeaves items
  | .other => []

def itemLeaves : List (Operand × Operand) → List Tags
  | [] => []
  | (key, value) :: rest => key.leaves ++ value.leaves ++ itemLeaves rest

def sequenceLeaves : List Operand → List Tags
  | [] => []
  | operand :: rest => operand.leaves ++ sequenceLeaves rest

end

theorem itemLeaves_eq (items : List (Operand × Operand)) :
    itemLeaves items = items.flatMap fun item => item.1.leaves ++ item.2.leaves := by
  induction items with
  | nil => rfl
  | cons item rest ih => rw [itemLeaves, List.flatMap_cons, ih]

theorem sequenceLeaves_eq (items : List Operand) :
    sequenceLeaves items = items.flatMap Operand.leaves := by
  induction items with
  | nil => rfl
  | cons item rest ih => rw [sequenceLeaves, List.flatMap_cons, ih]

theorem argumentItems_eq (items : List (Operand × Operand)) :
    argumentItems items = items.map fun item => (item.1.argument, item.2.argument) := by
  induction items with
  | nil => rfl
  | cons item rest ih => rw [argumentItems, List.map_cons, ih]

theorem arguments_eq (items : List Operand) : arguments items = items.map Operand.argument := by
  induction items with
  | nil => rfl
  | cons item rest ih => rw [arguments, List.map_cons, ih]

/-- The tags of the Splice objects inside of at most `depth` containers. -/
def Operand.leavesWithin : Nat → Operand → List Tags
  | _, .splice tags => [tags]
  | 0, _ => []
  | depth + 1, .mapping items =>
      items.flatMap fun item => leavesWithin depth item.1 ++ leavesWithin depth item.2
  | depth + 1, .sequence items => items.flatMap (leavesWithin depth)
  | _ + 1, .other => []

namespace Operand

/-- Only tags of leaves are found. -/
theorem leavesWithin_subset (depth : Nat) (operand : Operand) :
    operand.leavesWithin depth ⊆ operand.leaves := by
  induction depth generalizing operand with
  | zero =>
      cases operand with
      | splice tags => exact List.Subset.refl _
      | _ => exact List.nil_subset _
  | succ depth ih =>
      cases operand with
      | splice tags => exact List.Subset.refl _
      | other => exact List.nil_subset _
      | mapping items =>
          rw [leavesWithin, leaves, itemLeaves_eq]
          intro tags mem
          obtain ⟨item, isItem, found⟩ := List.mem_flatMap.mp mem
          refine List.mem_flatMap.mpr ⟨item, isItem, ?_⟩
          exact List.append_subset.mpr ⟨List.subset_append_of_subset_left _ (ih item.1),
            List.subset_append_of_subset_right _ (ih item.2)⟩ found
      | sequence items =>
          rw [leavesWithin, leaves, sequenceLeaves_eq]
          intro tags mem
          obtain ⟨item, isItem, found⟩ := List.mem_flatMap.mp mem
          exact List.mem_flatMap.mpr ⟨item, isItem, ih item found⟩

theorem checkTrusted_eq (depth : Nat) (operand : Operand) :
    checkTrusted depth operand = (operand.leavesWithin depth).all fun tags => tags.trusted := by
  induction depth generalizing operand with
  | zero => cases operand <;> simp [checkTrusted, leavesWithin]
  | succ depth ih =>
      cases operand with
      | splice tags => simp [checkTrusted, leavesWithin]
      | other => rfl
      | mapping items => simp [checkTrusted, leavesWithin, ih, List.all_flatMap]
      | sequence items =>
          rw [checkTrusted, leavesWithin, List.all_flatMap]
          exact congrArg items.all (funext ih)

theorem unionTaint_assoc (one other third : Nat) :
    unionTaint (unionTaint one other) third = unionTaint one (unionTaint other third) :=
  Nat.or_assoc one other third

theorem testBit_isTaintedBy (depth position : Nat) (operand : Operand) :
    (isTaintedBy depth operand.argument).testBit position =
      (operand.leavesWithin depth).any fun tags => tags.taints.testBit position := by
  induction depth generalizing operand with
  | zero => cases operand <;> simp [argument, isTaintedBy, leavesWithin]
  | succ depth ih =>
      cases operand with
      | splice tags => simp [argument, isTaintedBy, leavesWithin]
      | other => simp [argument, isTaintedBy, leavesWithin]
      | mapping items =>
          rw [argument, isTaintedBy, argumentItems_eq, leavesWithin, List.any_flatMap,
            List.foldl_map]
          simp only [unionTaint_assoc]
          rw [testBit_foldl_union, testBit_emptyTaint, Bool.false_or]
          simp [ih]
      | sequence items =>
          rw [argument, isTaintedBy, arguments_eq, leavesWithin, List.any_flatMap,
            testBit_foldl_union, testBit_emptyTaint, Bool.false_or, List.any_map]
          exact congrArg items.any (funext ih)

/-- Consistent tags that are not all trusted, if one of them is synthesized. -/
theorem all_trusted_eq_false {leaves : List Tags} (consistent : ∀ tags ∈ leaves, tags.Consistent)
    (synthesized : (leaves.any fun tags => tags.synthesized) = true) :
    (leaves.all fun tags => tags.trusted) = false := by
  obtain ⟨tags, mem, isSynthesized⟩ := List.any_eq_true.mp synthesized
  rw [List.all_eq_false]
  exact ⟨tags, mem, fun trusted => consistent tags mem ⟨trusted, isSynthesized⟩⟩

/-- Whether all tags are trusted, and whether one of them is synthesized. -/
def summary (leaves : List Tags) : Bool × Bool :=
  (leaves.all fun tags => tags.trusted, leaves.any fun tags => tags.synthesized)

/-- Stopping at the first synthesized value loses nothing if no such value is trusted. -/
theorem checkAll_eq {check : Operand → Bool × Bool} {tagsOf : Operand → List Tags}
    {operands : List Operand} (found : ∀ operand ∈ operands, check operand = summary (tagsOf operand))
    (consistent : ∀ operand ∈ operands, ∀ tags ∈ tagsOf operand, tags.Consistent) (trusted : Bool) :
    checkAll check trusted operands =
      (trusted && (summary (operands.flatMap tagsOf)).1, (summary (operands.flatMap tagsOf)).2) := by
  induction operands generalizing trusted with
  | nil => simp [checkAll, summary]
  | cons operand rest ih =>
      obtain ⟨first, others⟩ := List.forall_mem_cons.mp found
      obtain ⟨firstConsistent, othersConsistent⟩ := List.forall_mem_cons.mp consistent
      rw [checkAll, first, List.flatMap_cons, summary, summary, List.all_append, List.any_append]
      cases synthesized : (tagsOf operand).any fun tags => tags.synthesized with
      | true => simp [all_trusted_eq_false firstConsistent synthesized]
      | false => simp [ih others othersConsistent, summary, Bool.and_assoc]

theorem checkTag_eq {depth : Nat} {operand : Operand}
    (consistent : ∀ tags ∈ operand.leavesWithin depth, tags.Consistent) :
    checkTag depth operand = summary (operand.leavesWithin depth) := by
  induction depth generalizing operand with
  | zero => cases operand <;> simp [checkTag, leavesWithin, summary]
  | succ depth ih =>
      cases operand with
      | splice tags => simp [checkTag, leavesWithin, summary]
      | other => rfl
      | mapping items =>
          have members : (items.flatMap fun item => [item.1, item.2]).flatMap (leavesWithin depth) =
              (mapping items).leavesWithin (depth + 1) := by
            rw [leavesWithin, List.flatMap_assoc]
            simp
          rw [← members] at consistent ⊢
          rw [List.forall_mem_flatMap] at consistent
          rw [checkTag, checkAll_eq (fun member mem => ih (consistent member mem)) consistent,
            Bool.true_and]
      | sequence items =>
          rw [leavesWithin, List.forall_mem_flatMap] at consistent
          rw [checkTag, checkAll_eq (fun member mem => ih (consistent member mem)) consistent,
            Bool.true_and, leavesWithin]

/-- The union of the taints of some Splice objects. -/
def taintsOf (leaves : List Tags) : Nat :=
  leaves.foldl (fun taints tags => unionTaint taints tags.taints) emptyTaint

theorem testBit_taintsOf (leaves : List Tags) (position : Nat) :
    (taintsOf leaves).testBit position =
      leaves.any fun tags => tags.taints.testBit position := by
  rw [taintsOf, testBit_foldl_union, testBit_emptyTaint, Bool.false_or]

theorem isTaintedBy_eq (depth : Nat) (operand : Operand) :
    isTaintedBy depth operand.argument = taintsOf (operand.leavesWithin depth) :=
  Nat.eq_of_testBit_eq fun position => by rw [testBit_isTaintedBy, testBit_taintsOf]

/-- With the default depth, the tags of all leaves are found. -/
structure HidesNothing (operand : Operand) : Prop where
  taints : isTaintedBy 2 operand.argument = taintsOf operand.leaves
  untrusted : checkTrusted 2 operand = false ↔ ∃ tags ∈ operand.leaves, tags.trusted = false
  untrustedWithSynthesis : (checkTag 2 operand).1 = false ↔
    ∃ tags ∈ operand.leaves, tags.trusted = false
  synthesized : (checkTag 2 operand).2 = true ↔ ∃ tags ∈ operand.leaves, tags.synthesized = true

/-- What a leaf is tagged with, another leaf inside of at most two containers is tagged
with as well. -/
structure NothingDeeper (operand : Operand) : Prop where
  taints : ∀ tags ∈ operand.leaves, ∀ position, tags.taints.testBit position = true →
    ∃ shallow ∈ operand.leavesWithin 2, shallow.taints.testBit position = true
  untrusted : ∀ tags ∈ operand.leaves, tags.trusted = false →
    ∃ shallow ∈ operand.leavesWithin 2, shallow.trusted = false
  synthesized : ∀ tags ∈ operand.leaves, tags.synthesized = true →
    ∃ shallow ∈ operand.leavesWithin 2, shallow.synthesized = true

theorem checkTrusted_eq_false_iff (depth : Nat) (operand : Operand) :
    checkTrusted depth operand = false ↔
      ∃ tags ∈ operand.leavesWithin depth, tags.trusted = false := by
  rw [checkTrusted_eq, List.all_eq_false]
  simp only [Bool.not_eq_true]

theorem summary_trusted_eq_false_iff {leaves : List Tags} :
    (summary leaves).1 = false ↔ ∃ tags ∈ leaves, tags.trusted = false := by
  rw [summary, List.all_eq_false]
  simp only [Bool.not_eq_true]

theorem summary_synthesized_iff {leaves : List Tags} :
    (summary leaves).2 = true ↔ ∃ tags ∈ leaves, tags.synthesized = true :=
  List.any_eq_true

theorem taintsOf_eq_iff {one other : List Tags} :
    taintsOf one = taintsOf other ↔
      ∀ position, (∃ tags ∈ one, tags.taints.testBit position = true) ↔
        ∃ tags ∈ other, tags.taints.testBit position = true := by
  simp only [← List.any_eq_true, ← testBit_taintsOf]
  constructor
  · rintro same position
    rw [same]
  · exact fun same => Nat.eq_of_testBit_eq fun position => Bool.eq_iff_iff.mpr (same position)

/-- What is found among some leaves is what is found among all if the others add nothing. -/
theorem exists_mem_iff_of_subset {Element : Type*} {found all : List Element}
    (subset : found ⊆ all) {property : Element → Prop} :
    ((∃ one ∈ found, property one) ↔ ∃ one ∈ all, property one) ↔
      ∀ one ∈ all, property one → ∃ other ∈ found, property other := by
  constructor
  · exact fun same one mem holds => same.mpr ⟨one, mem, holds⟩
  · intro others
    constructor
    · exact fun ⟨one, mem, holds⟩ => ⟨one, subset mem, holds⟩
    · exact fun ⟨one, mem, holds⟩ => others one mem holds

/-- A value hides no tags if and only if no leaf that is nested deeper than two containers has
a tag that the other leaves do not have. -/
theorem hidesNothing_iff (operand : Operand)
    (consistent : ∀ tags ∈ operand.leaves, tags.Consistent) :
    operand.HidesNothing ↔ operand.NothingDeeper := by
  have subset := leavesWithin_subset 2 operand
  have checked := checkTag_eq fun tags mem => consistent tags (subset mem)
  constructor
  · rintro ⟨taints, untrusted, _, synthesized⟩
    rw [isTaintedBy_eq, taintsOf_eq_iff] at taints
    rw [checkTrusted_eq_false_iff] at untrusted
    rw [checked, summary_synthesized_iff] at synthesized
    constructor
    · intro tags mem position
      exact (exists_mem_iff_of_subset subset).mp (taints position) tags mem
    · exact (exists_mem_iff_of_subset subset).mp untrusted
    · exact (exists_mem_iff_of_subset subset).mp synthesized
  · rintro ⟨taints, untrusted, synthesized⟩
    constructor
    · rw [isTaintedBy_eq, taintsOf_eq_iff]
      intro position
      exact (exists_mem_iff_of_subset subset).mpr fun tags mem => taints tags mem position
    · rw [checkTrusted_eq_false_iff]
      exact (exists_mem_iff_of_subset subset).mpr untrusted
    · rw [checked, summary_trusted_eq_false_iff]
      exact (exists_mem_iff_of_subset subset).mpr untrusted
    · rw [checked, summary_synthesized_iff]
      exact (exists_mem_iff_of_subset subset).mpr synthesized

/-- A tainted and a plain leaf in a list of lists. -/
theorem hidesNothing_two_lists :
    (sequence [sequence [splice ⟨false, true, 4⟩], sequence [other]]).HidesNothing := by
  refine (hidesNothing_iff _ (by decide)).mpr ⟨?_, by decide, by decide⟩
  exact fun tags mem position carries => ⟨tags, mem, carries⟩

/-- A tainted and synthesized leaf in three lists is not found. -/
theorem three_lists_hide :
    (∀ tags ∈ (sequence [sequence [sequence [splice ⟨false, true, 4⟩]]]).leaves,
      tags.Consistent) ∧
      ¬ (sequence [sequence [sequence [splice ⟨false, true, 4⟩]]]).HidesNothing := by
  refine ⟨by decide, fun hides => ?_⟩
  exact absurd hides.taints (by decide)

section Arguments

variable {operands : List Operand}

/-- `contains_untrusted_arguments` goes through its arguments as `check_tag` does through a
list. -/
theorem containsUntrusted_eq
    (consistent : ∀ operand ∈ operands, ∀ tags ∈ operand.leavesWithin 2, tags.Consistent)
    (untrusted : Bool) :
    containsUntrusted untrusted operands =
      (untrusted || !(summary (operands.flatMap (leavesWithin 2))).1,
        (summary (operands.flatMap (leavesWithin 2))).2) := by
  induction operands generalizing untrusted with
  | nil => simp [containsUntrusted, summary]
  | cons operand rest ih =>
      obtain ⟨first, others⟩ := List.forall_mem_cons.mp consistent
      rw [containsUntrusted, checkTag_eq first, List.flatMap_cons, summary, summary,
        List.all_append, List.any_append]
      cases synthesized : (operand.leavesWithin 2).any fun tags => tags.synthesized with
      | true => simp [all_trusted_eq_false first synthesized]
      | false => simp [ih others, summary, Bool.or_assoc]

end Arguments

end Operand

end SaltyRtcServer
