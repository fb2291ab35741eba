import Mathlib.Data.Nat.Bitwise

/-!
# Taints

A taint is a set of clients, one bit for each, and an object that was computed
from others carries the union of their taints.
-/

namespace SaltyRtcServer

/-- `identity.MAX_USERS`. -/
def maxUsers : Nat := 63

def emptyTaint : Nat := 0

/-- `identity.get_taint_from_id`. -/
def getTaintFromId (uid : Nat) : Nat := 1 <<< (uid % maxUsers)

/-- `identity.taint_id_from_websocket`, for a remote address and port. -/
def taintIdFromWebsocket (remoteAddress : String × Nat) : Nat :=
  getTaintFromId remoteAddress.2

/-- `identity.union`. -/
def unionTaint (one other : Nat) : Nat := one ||| other

/-- An argument of a method, as far as its taint can be inspected. -/
inductive Argument
  | splice (taints : Nat)
  | mapping (items : List (Argument × Argument))
  | sequence (items : List Argument)
  | other

/-- `is_tainted_by`. -/
def isTaintedBy : Nat → Argument → Nat
  | _, .splice taints => taints
  | 0, _ => emptyTaint
  | depth + 1, .mapping items =>
      items.foldl (fun taints item =>
        unionTaint (unionTaint taints (isTaintedBy depth item.1)) (isTaintedBy depth item.2))
        emptyTaint
  | depth + 1, .sequence items =>
      items.foldl (fun taints item => unionTaint taints (isTaintedBy depth item)) emptyTaint
  | _ + 1, .other => emptyTaint

/-- `union_argument_taints`, which methods of Splice objects taint their results
with. -/
def unionArgumentTaints (arguments : List Argument) : Nat :=
  arguments.foldl (fun taints argument => unionTaint taints (isTaintedBy 2 argument)) emptyTaint

@[simp]
theorem testBit_emptyTaint (position : Nat) : emptyTaint.testBit position = false :=
  Nat.zero_testBit position

@[simp]
theorem testBit_unionTaint (one other position : Nat) :
    (unionTaint one other).testBit position =
      (one.testBit position || other.testBit position) :=
  Nat.testBit_or ..

/-- A fold of unions carries the bits of its start and of every element. -/
theorem testBit_foldl_union {Item : Type*} (taintsOf : Item → Nat) (items : List Item)
    (start position : Nat) :
    (items.foldl (fun taints item => unionTaint taints (taintsOf item)) start).testBit position =
      (start.testBit position || items.any fun item => (taintsOf item).testBit position) := by
  induction items generalizing start with
  | nil => simp
  | cons item rest ih =>
      rw [List.foldl_cons, ih, testBit_unionTaint, List.any_cons, Bool.or_assoc]

/-- A result carries the bits of all its arguments. -/
theorem testBit_unionArgumentTaints (arguments : List Argument) (position : Nat) :
    (unionArgumentTaints arguments).testBit position =
      arguments.any fun argument => (isTaintedBy 2 argument).testBit position := by
  rw [unionArgumentTaints, testBit_foldl_union, testBit_emptyTaint, Bool.false_or]

end SaltyRtcServer
