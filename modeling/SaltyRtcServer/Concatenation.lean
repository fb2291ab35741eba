import SaltyRtcServer.NestedTags
import SaltyRtcServer.SpliceDict

/-!
# Concatenation of strings

`+` with a `SpliceStr` on the left calls the decorated `str.__add__`, which tags
the result with the tags of both operands.  With a plain string on the left it
calls `SpliceStr.__radd__`, which passes the flags of the Splice string to the
constructor, and not its taints.
-/

namespace SaltyRtcServer

/-- A string as an argument of a method. -/
def SpliceData.operand (string : SpliceData String) : Operand :=
  match string.tags with
  | some tags => .splice tags
  | none => .other

/-- The decorated `str.__add__` of a `SpliceStr`. -/
def SpliceStr.add (content : String) (tags : Tags) (other : SpliceData String) :
    SpliceData String :=
  ⟨content ++ other.content, some (.returned [.splice tags, other.operand])⟩

/-- `SpliceStr.__radd__`. -/
def SpliceStr.radd (content : String) (tags : Tags) (other : SpliceData String) :
    Except SpliceError (SpliceData String) :=
  match other.tags with
  | some otherTags => do
      let added := SpliceStr.add other.content otherTags ⟨content, some tags⟩
      let constructed ← Tags.construct [added.operand] (some (tags.trusted || otherTags.trusted))
        (some (tags.synthesized || otherTags.synthesized)) none
      return ⟨added.content, some constructed⟩
  | none => do
      let constructed ← Tags.construct [.other] (some tags.trusted) (some tags.synthesized) none
      return ⟨other.content ++ content, some constructed⟩

/-- `left + right`. -/
def concatenate (left right : SpliceData String) : Except SpliceError (SpliceData String) :=
  match left.tags, right.tags with
  | some tags, _ => .ok (SpliceStr.add left.content tags right)
  | none, some tags => SpliceStr.radd right.content tags left
  | none, none => .ok (.plain (left.content ++ right.content))

/-- Strings that are joined with `+`. -/
inductive Concatenation
  | plain (content : String)
  | splice (content : String) (tags : Tags)
  | add (left right : Concatenation)
  deriving DecidableEq

namespace Concatenation

def evaluate : Concatenation → Except SpliceError (SpliceData String)
  | .plain content => .ok (.plain content)
  | .splice content tags => .ok ⟨content, some tags⟩
  | .add left right => do
      let left ← left.evaluate
      let right ← right.evaluate
      concatenate left right

/-- The tags of all Splice operands. -/
def operands : Concatenation → List Tags
  | .plain _ => []
  | .splice _ tags => [tags]
  | .add left right => left.operands ++ right.operands

/-- The Splice operands that are on the right of no `+` whose left operand is plain. -/
def kept : Concatenation → List Tags
  | .plain _ => []
  | .splice _ tags => [tags]
  | .add left right => if left.operands = [] then [] else left.kept ++ right.kept

/-- A Splice string on its own that is both trusted and synthesized. -/
def IsInconsistent : Concatenation → Prop
  | .splice _ tags => ¬ tags.Consistent
  | _ => False

/-- No `+` has a plain left operand and a right operand that is both trusted and
synthesized. -/
def Raisefree : Concatenation → Prop
  | .plain _ | .splice _ _ => True
  | .add left right =>
      left.Raisefree ∧ right.Raisefree ∧ (left.operands = [] → ¬ right.IsInconsistent)

/-- The result is tainted by some of the operands, and flagged by all of them. -/
structure TaggedBy (expression : Concatenation) (tainting : List Tags)
    (result : SpliceData String) : Prop where
  taints : isTaintedBy 2 result.operand.argument = Operand.taintsOf tainting
  untrusted : (∃ tags ∈ expression.operands, tags.trusted = false) →
    (checkTag 2 result.operand).1 = false
  synthesized : (∃ tags ∈ expression.operands, tags.synthesized = true) →
    (checkTag 2 result.operand).2 = true

/-- Nothing is raised, and the result has the tags of all operands. -/
def NeverLaunders (expression : Concatenation) : Prop :=
  ∃ result, expression.evaluate = .ok result ∧ expression.TaggedBy expression.operands result

/-- What the Splice operands are tainted with is what those are tainted with that are kept. -/
def KeepsTaints (expression : Concatenation) : Prop :=
  ∀ tags ∈ expression.operands, ∀ position, tags.taints.testBit position = true →
    ∃ kept ∈ expression.kept, kept.taints.testBit position = true

section Returned

variable {operands : List Operand} {operand : Operand} {untrusted : Bool}

theorem containsUntrusted_true : (containsUntrusted true operands).1 = true := by
  induction operands with
  | nil => rfl
  | cons first rest ih =>
      rw [containsUntrusted]
      split
      · rfl
      · rwa [Bool.true_or]

/-- An untrusted argument is found, unless a synthesized one is found before. -/
theorem containsUntrusted_of_mem (mem : operand ∈ operands)
    (found : (checkTag 2 operand).1 = false) : (containsUntrusted untrusted operands).1 = true := by
  induction operands generalizing untrusted with
  | nil => contradiction
  | cons first rest ih =>
      rw [containsUntrusted]
      split
      · rfl
      · next tag checked =>
        rcases List.mem_cons.mp mem with rfl | later
        · rw [checked] at found
          obtain rfl : tag = false := found
          rw [Bool.not_false, Bool.or_true]
          exact containsUntrusted_true
        · exact ih later

theorem containsSynthesized_of_mem (mem : operand ∈ operands)
    (found : (checkTag 2 operand).2 = true) : (containsUntrusted untrusted operands).2 = true := by
  induction operands generalizing untrusted with
  | nil => contradiction
  | cons first rest ih =>
      rw [containsUntrusted]
      split
      · rfl
      · next tag checked =>
        rcases List.mem_cons.mp mem with rfl | later
        · rw [checked] at found
          contradiction
        · exact ih later

end Returned

theorem taintsOf_append (one other : List Tags) :
    Operand.taintsOf (one ++ other) = unionTaint (Operand.taintsOf one) (Operand.taintsOf other) := by
  apply Nat.eq_of_testBit_eq
  intro position
  rw [testBit_unionTaint, Operand.testBit_taintsOf, Operand.testBit_taintsOf,
    Operand.testBit_taintsOf, List.any_append]

theorem kept_subset (expression : Concatenation) : expression.kept ⊆ expression.operands := by
  induction expression with
  | plain content | splice content tags => exact List.Subset.refl _
  | add left right ihLeft ihRight =>
      rw [kept, operands]
      split
      · exact List.nil_subset _
      · exact List.append_subset.mpr ⟨List.subset_append_of_subset_left _ ihLeft,
          List.subset_append_of_subset_right _ ihRight⟩

/-- What is true of the result of an expression that does not raise. -/
structure Describes (expression : Concatenation) (result : SpliceData String) : Prop
    extends expression.TaggedBy expression.kept result where
  plain : result.tags = none ↔ expression.operands = []
  consistent : ¬ expression.IsInconsistent → ∀ tags ∈ result.tags, tags.Consistent

variable {expression left right : Concatenation} {one other : SpliceData String}

theorem operand_of_tags {string : SpliceData String} {tags : Tags}
    (tagged : string.tags = some tags) : string.operand = .splice tags := by
  rw [SpliceData.operand, tagged]

/-- `+` with a Splice string on the left. -/
theorem describes_add (isLeft : left.Describes one) (isRight : right.Describes other) {tags : Tags}
    (tagged : one.tags = some tags) :
    (left.add right).Describes (SpliceStr.add one.content tags other) := by
  have isTagged : left.operands ≠ [] := by
    rw [Ne, ← isLeft.plain, tagged]
    exact Option.some_ne_none tags
  have members : ∀ string ∈ [one, other], string.operand ∈ [.splice tags, other.operand] := by
    simp [operand_of_tags tagged]
  have found : ∀ {property : Tags → Prop}, (∃ tags ∈ (left.add right).operands, property tags) →
      (∃ tags ∈ left.operands, property tags) ∨ ∃ tags ∈ right.operands, property tags := by
    rintro property ⟨operand, mem, holds⟩
    exact (List.mem_append.mp mem).imp (⟨operand, ·, holds⟩) (⟨operand, ·, holds⟩)
  refine ⟨⟨?_, ?_, ?_⟩, ?_, ?_⟩
  · have taintsLeft := isLeft.taints
    rw [operand_of_tags tagged] at taintsLeft
    rw [kept, if_neg isTagged, taintsOf_append, ← taintsLeft, ← isRight.taints]
    exact congrArg (unionTaint · _) (Nat.zero_or tags.taints)
  · intro untrusted
    have contains : (containsUntrustedArguments [.splice tags, other.operand]).1 = true := by
      rcases found untrusted with inLeft | inRight
      · exact containsUntrusted_of_mem (members one (by simp)) (isLeft.untrusted inLeft)
      · exact containsUntrusted_of_mem (members other (by simp)) (isRight.untrusted inRight)
    exact congrArg not contains
  · intro synthesized
    rcases found synthesized with inLeft | inRight
    · exact containsSynthesized_of_mem (members one (by simp)) (isLeft.synthesized inLeft)
    · exact containsSynthesized_of_mem (members other (by simp)) (isRight.synthesized inRight)
  · exact ⟨nofun, fun none => absurd (List.append_eq_nil_iff.mp none).1 isTagged⟩
  · rintro _ _ same
    rw [← Option.some.inj same]
    exact Tags.consistent_returned _

/-- `+` with a plain string on the left, and a Splice string on the right. -/
theorem describes_radd (isLeft : left.Describes one) (isRight : right.Describes other) {tags : Tags}
    (plain : one.tags = none) (tagged : other.tags = some tags)
    (consistent : ¬ right.IsInconsistent) :
    ∃ result, SpliceStr.radd other.content tags one = .ok result ∧
      (left.add right).Describes result := by
  have isPlain : left.operands = [] := isLeft.plain.mp plain
  have same : (left.add right).operands = right.operands := by
    rw [operands, isPlain, List.nil_append]
  have flags : ¬ (tags.trusted = true ∧ tags.synthesized = true) :=
    isRight.consistent consistent tags tagged
  refine ⟨⟨one.content ++ other.content, some ⟨tags.trusted, tags.synthesized, emptyTaint⟩⟩, ?_,
    ⟨?_, ?_, ?_⟩, ?_, ?_⟩
  · rw [SpliceStr.radd, plain]
    dsimp only
    rw [Tags.construct_other, if_neg flags]
    rfl
  · rw [kept, if_pos isPlain]
    rfl
  · rw [same]
    intro untrusted
    have flag := isRight.untrusted untrusted
    rwa [operand_of_tags tagged] at flag
  · rw [same]
    intro synthesized
    have flag := isRight.synthesized synthesized
    rwa [operand_of_tags tagged] at flag
  · rw [same, ← isRight.plain, tagged]
    exact ⟨nofun, nofun⟩
  · rintro _ _ isResult
    rw [← Option.some.inj isResult]
    exact flags

theorem describes_concatenate (isLeft : left.Describes one) (isRight : right.Describes other)
    (free : left.operands = [] → ¬ right.IsInconsistent) :
    ∃ result, concatenate one other = .ok result ∧ (left.add right).Describes result := by
  unfold concatenate
  split
  · next tags tagged => exact ⟨_, rfl, describes_add isLeft isRight tagged⟩
  · next tags plain tagged =>
    exact describes_radd isLeft isRight plain tagged (free (isLeft.plain.mp plain))
  · next plain plainRight =>
    have none : (left.add right).operands = [] := by
      rw [operands, isLeft.plain.mp plain, isRight.plain.mp plainRight, List.append_nil]
    refine ⟨_, rfl, ⟨?_, ?_, ?_⟩, ?_, ?_⟩
    · rw [kept, if_pos (isLeft.plain.mp plain)]
      rfl
    · simp [none]
    · simp [none]
    · exact ⟨fun _ => none, fun _ => rfl⟩
    · exact fun _ tags mem => nomatch mem

theorem exists_evaluate (free : expression.Raisefree) :
    ∃ result, expression.evaluate = .ok result ∧ expression.Describes result := by
  induction expression with
  | plain content =>
      exact ⟨_, rfl, ⟨rfl, by simp [operands], by simp [operands]⟩, ⟨fun _ => rfl, fun _ => rfl⟩,
        fun _ tags mem => nomatch mem⟩
  | splice content tags =>
      refine ⟨_, rfl, ⟨?_, ?_, ?_⟩, ⟨nofun, nofun⟩, ?_⟩
      · exact (Nat.zero_or tags.taints).symm
      · simp [operands, SpliceData.operand, checkTag]
      · simp [operands, SpliceData.operand, checkTag]
      · rintro consistent _ same
        rw [← Option.some.inj same]
        exact not_not.mp consistent
  | add left right ihLeft ihRight =>
      obtain ⟨freeLeft, freeRight, free⟩ := free
      obtain ⟨one, isOne, describesOne⟩ := ihLeft freeLeft
      obtain ⟨other, isOther, describesOther⟩ := ihRight freeRight
      obtain ⟨result, added, describes⟩ := describes_concatenate describesOne describesOther free
      refine ⟨result, ?_, describes⟩
      rw [evaluate, isOne, isOther]
      exact added

/-- A plain string and an inconsistent one raise an error, and so does what they are part
of. -/
theorem evaluate_raises (clash : ¬ expression.Raisefree) :
    ∃ raised, expression.evaluate = .error raised := by
  induction expression with
  | plain content | splice content tags => exact absurd trivial clash
  | add left right ihLeft ihRight =>
      rw [evaluate]
      by_cases freeLeft : left.Raisefree
      · obtain ⟨one, isOne, describesOne⟩ := exists_evaluate freeLeft
        rw [isOne]
        by_cases freeRight : right.Raisefree
        · obtain ⟨isPlain, inconsistent⟩ : left.operands = [] ∧ right.IsInconsistent := by
            by_contra neither
            exact clash ⟨freeLeft, freeRight, fun isPlain is => neither ⟨isPlain, is⟩⟩
          cases right with
          | splice content tags =>
              have flags : tags.trusted = true ∧ tags.synthesized = true :=
                not_not.mp inconsistent
              refine ⟨.attributeError "Cannot initialize a trusted and synthesized object.", ?_⟩
              change concatenate one ⟨content, some tags⟩ = _
              rw [concatenate, describesOne.plain.mpr isPlain]
              dsimp only
              rw [SpliceStr.radd, describesOne.plain.mpr isPlain]
              dsimp only
              rw [Tags.construct_other, if_pos flags]
              rfl
          | _ => contradiction
        · obtain ⟨raised, isRaised⟩ := ihRight freeRight
          exact ⟨raised, by rw [isRaised]; rfl⟩
      · obtain ⟨raised, isRaised⟩ := ihLeft freeLeft
        exact ⟨raised, by rw [isRaised]; rfl⟩

/-- Nothing is laundered if and only if no plain string is followed by an inconsistent one, and
the operands that are not kept add no taints. -/
theorem neverLaunders_iff (expression : Concatenation) :
    expression.NeverLaunders ↔ expression.Raisefree ∧ expression.KeepsTaints := by
  have subset := expression.kept_subset
  constructor
  · rintro ⟨result, evaluated, tagged⟩
    have free : expression.Raisefree := by
      by_contra clash
      obtain ⟨raised, isRaised⟩ := evaluate_raises clash
      rw [isRaised] at evaluated
      contradiction
    obtain ⟨same, isSame, describes⟩ := exists_evaluate free
    obtain rfl : same = result := Except.ok.inj (isSame.symm.trans evaluated)
    have taints := Operand.taintsOf_eq_iff.mp (describes.taints.symm.trans tagged.taints)
    exact ⟨free, fun tags mem position =>
      (Operand.exists_mem_iff_of_subset subset).mp (taints position) tags mem⟩
  · rintro ⟨free, keeps⟩
    obtain ⟨result, evaluated, describes⟩ := exists_evaluate free
    refine ⟨result, evaluated, ?_, describes.untrusted, describes.synthesized⟩
    rw [describes.taints, Operand.taintsOf_eq_iff]
    intro position
    exact (Operand.exists_mem_iff_of_subset subset).mpr fun tags mem => keeps tags mem position

/-- A literal in front takes the taints away, and behind it does not. -/
theorem literal_launders :
    ¬ (add (plain "path ") (splice "key" ⟨false, false, 4⟩)).NeverLaunders ∧
      (add (splice "key" ⟨false, false, 4⟩) (plain " path")).NeverLaunders := by
  constructor
  · rintro ⟨result, evaluated, tagged⟩
    cases evaluated
    exact absurd tagged.taints (by decide)
  · exact ⟨_, rfl, by decide, by decide, by decide⟩

end Concatenation

end SaltyRtcServer
