import Mathlib.Data.List.Basic

/-!
# Indices and slices

How Python's sequences resolve an index, which may count from the end, and the three
parts of a slice.  The positions depend on the length of the sequence alone, so that
sequences of the same length are indexed and sliced alike.
-/

namespace PythonSlice

/-- The position of an index, unless it is out of range. -/
def position (length : Nat) (index : Int) : Option Nat :=
  let shifted := if index < 0 then index + length else index
  if 0 ≤ shifted ∧ shifted < length then some shifted.toNat else none

/-- A bound of a slice as `slice.indices` adjusts it: within `low` and `high`. -/
def clamp (length : Nat) (low high bound : Int) : Int :=
  max low (min high (if bound < 0 then bound + length else bound))

/-- The positions `start`, `start + step` and so on, `count` of them. -/
def progression (start step : Int) (count : Nat) : List Nat :=
  (List.range count).map fun index => (start + step * index).toNat

/-- The positions of a slice, which raises an error for a step of zero. -/
def positions (length : Nat) (start stop step : Option Int) : Option (List Nat) :=
  let step := step.getD 1
  if step = 0 then none
  else if 0 < step then
    let first := clamp length 0 length (start.getD 0)
    let last := clamp length 0 length (stop.getD length)
    some (progression first step (if first < last then (last - first - 1) / step + 1 else 0).toNat)
  else
    let first := (start.map (clamp length (-1) (length - 1))).getD (length - 1)
    let last := (stop.map (clamp length (-1) (length - 1))).getD (-1)
    some (progression first step
      (if last < first then (first - last - 1) / (-step) + 1 else 0).toNat)

variable {Item Other : Type*} (items : List Item)

/-- `items[index]`. -/
def get? (index : Int) : Option Item :=
  (position items.length index).bind fun place => items[place]?

/-- `items[start:stop:step]`. -/
def slice (start stop step : Option Int) : Option (List Item) :=
  (positions items.length start stop step).map fun places =>
    places.filterMap fun place => items[place]?

theorem slice_map (function : Item → Other) (start stop step : Option Int) :
    slice (items.map function) start stop step =
      (slice items start stop step).map (List.map function) := by
  rw [slice, slice, List.length_map, Option.map_map]
  congr 1
  funext places
  rw [Function.comp_apply, List.map_filterMap]
  congr 1
  funext place
  exact List.getElem?_map

end PythonSlice
