import Mathlib.Algebra.Order.Ring.Int
import Mathlib.Algebra.Order.BigOperators.Group.List
import Mathlib.Tactic.Ring
import Mathlib.Tactic.Linarith

/-!
# Positional hashes

A sequence of codes is hashed as the number that has the codes as its digits,
the most significant one first.  Zeros in front do not count, and bounds on the
codes bound the hash by multiples of the number whose digits are all one.
-/

/-- The number with the codes as digits to a base. -/
def positionalHash (base : Int) (codes : List Int) : Int :=
  codes.foldl (fun hash code => hash * base + code) 0

/-- The number with a given number of digits that are all one. -/
def repunit (base : Int) : Nat → Int
  | 0 => 0
  | count + 1 => base ^ count + repunit base count

namespace positionalHash

variable {base bound : Int} {codes : List Int}

theorem foldl_eq (base start : Int) (codes : List Int) :
    codes.foldl (fun hash code => hash * base + code) start =
      start * base ^ codes.length + positionalHash base codes := by
  induction codes generalizing start with
  | nil => simp [positionalHash]
  | cons code rest ih =>
      have first : positionalHash base (code :: rest) =
          rest.foldl (fun hash code => hash * base + code) (0 * base + code) := rfl
      rw [List.foldl_cons, ih, first, ih, List.length_cons, pow_succ]
      ring

theorem cons (base code : Int) (rest : List Int) :
    positionalHash base (code :: rest) =
      code * base ^ rest.length + positionalHash base rest := by
  rw [positionalHash, List.foldl_cons, foldl_eq]
  ring

/-- Zeros in front do not count. -/
theorem replicate_zero_append (base : Int) (count : Nat) (codes : List Int) :
    positionalHash base (List.replicate count 0 ++ codes) = positionalHash base codes := by
  induction count with
  | zero => rfl
  | succ count ih =>
      rw [List.replicate_succ, List.cons_append, cons, ih]
      ring

theorem le_repunit (nonneg : 0 ≤ base) (atMost : ∀ code ∈ codes, code ≤ bound) :
    positionalHash base codes ≤ bound * repunit base codes.length := by
  induction codes with
  | nil => simp [positionalHash, repunit]
  | cons code rest ih =>
      obtain ⟨first, others⟩ := List.forall_mem_cons.mp atMost
      have digit : code * base ^ rest.length ≤ bound * base ^ rest.length :=
        mul_le_mul_of_nonneg_right first (pow_nonneg nonneg _)
      rw [cons, List.length_cons, repunit, mul_add]
      exact add_le_add digit (ih others)

theorem repunit_le (nonneg : 0 ≤ base) (atLeast : ∀ code ∈ codes, bound ≤ code) :
    bound * repunit base codes.length ≤ positionalHash base codes := by
  induction codes with
  | nil => simp [positionalHash, repunit]
  | cons code rest ih =>
      obtain ⟨first, others⟩ := List.forall_mem_cons.mp atLeast
      have digit : bound * base ^ rest.length ≤ code * base ^ rest.length :=
        mul_le_mul_of_nonneg_right first (pow_nonneg nonneg _)
      rw [cons, List.length_cons, repunit, mul_add]
      exact add_le_add digit (ih others)

end positionalHash

theorem repunit_two (count : Nat) : repunit 2 count = 2 ^ count - 1 := by
  induction count with
  | zero => rfl
  | succ count ih =>
      rw [repunit, ih, pow_succ]
      ring
