import Mathlib.Data.List.Basic

/-!
# Closed ranges in a row

A long range of numbers is worked through in pieces, each of which begins right after the
one before.
-/

namespace Ranges

/-- The numbers of a closed range. -/
def numbers (range : Nat × Nat) : List Nat := List.range' range.1 (range.2 + 1 - range.1)

/-- The ranges follow each other from `low` to `high`, without gap or overlap. -/
inductive Tiling : Nat → Nat → List (Nat × Nat) → Prop where
  | last {low high : Nat} : low ≤ high → Tiling low high [(low, high)]
  | next {low middle high : Nat} {ranges : List (Nat × Nat)} :
      low ≤ middle → Tiling (middle + 1) high ranges → Tiling low high ((low, middle) :: ranges)

theorem mem_numbers {range : Nat × Nat} {number : Nat} :
    number ∈ numbers range ↔ range.1 ≤ number ∧ number ≤ range.2 := by
  rw [numbers, List.mem_range'_1]
  omega

namespace Tiling

variable {low high : Nat} {ranges : List (Nat × Nat)}

theorem le (tiling : Tiling low high ranges) : low ≤ high := by
  induction tiling with
  | last ordered => exact ordered
  | next ordered _ ih => exact Nat.le_trans ordered (Nat.le_of_succ_le ih)

/-- Each number comes exactly once, in order. -/
theorem flatMap_numbers (tiling : Tiling low high ranges) :
    ranges.flatMap numbers = List.range' low (high + 1 - low) := by
  induction tiling with
  | last => simp [numbers]
  | @next low middle high ranges ordered rest ih =>
      have upper := rest.le
      rw [List.flatMap_cons, ih, numbers]
      have split : high + 1 - low = (middle + 1 - low) + (high + 1 - (middle + 1)) := by omega
      have begins : low + (middle + 1 - low) = middle + 1 := by omega
      rw [split, ← List.range'_append_1, begins]

/-- The ranges hold the numbers from `low` to `high` and no others. -/
theorem covers (tiling : Tiling low high ranges) {number : Nat} :
    (∃ range ∈ ranges, number ∈ numbers range) ↔ low ≤ number ∧ number ≤ high := by
  rw [← List.mem_flatMap, tiling.flatMap_numbers, List.mem_range'_1]
  have upper := tiling.le
  omega

/-- A range begins right after the one before it. -/
theorem consecutive (tiling : Tiling low high ranges) :
    ranges.IsChain fun first second => second.1 = first.2 + 1 := by
  induction tiling with
  | last => exact .singleton _
  | next _ rest ih =>
      cases rest with
      | last => exact .cons_cons rfl ih
      | next => exact .cons_cons rfl ih

theorem disjoint (tiling : Tiling low high ranges) :
    ranges.Pairwise fun first second => (numbers first).Disjoint (numbers second) := by
  induction tiling with
  | last => exact List.pairwise_singleton _ _
  | next _ rest ih =>
      refine .cons ?_ ih
      intro later member number early late
      have above := (rest.covers.mp ⟨later, member, late⟩).1
      have below := (mem_numbers.mp early).2
      omega

end Tiling

end Ranges
