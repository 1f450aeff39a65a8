import Mathlib.Logic.Equiv.Fintype
import Mathlib.SetTheory.Cardinal.Finite
import Mathlib.Data.Finite.Perm
import Mathlib.Algebra.BigOperators.Fin
import Mathlib.Order.CompletePartialOrder

/-!
# The swap shuffle

The loop that walks an array from its last slot down to its second and swaps each slot
with a drawn one at or below it.  A sequence of draws within the bounds is the same thing
as a permutation of the slots.  The second half counts the permutations that send given
places into given disjoint sets.
-/

namespace Shuffle

open Equiv

/-- Draws within their bounds, position by position. -/
abbrev InBounds (draws bounds : List Nat) : Prop := List.Forall₂ (· < ·) draws bounds

/-- The bounds of the loop over `count` slots: `count`, `count - 1`, down to two. -/
def bounds : Nat → List Nat
  | 0 => []
  | 1 => []
  | count + 2 => (count + 2) :: bounds (count + 1)

/-- The permutation a sequence of draws stands for: slot `k` of the shuffled array is slot
`permutation k` of the array before. -/
def permutation : Nat → List Nat → Perm Nat
  | count + 2, draw :: draws => swap (count + 1) draw * permutation (count + 1) draws
  | _, _ => 1

/-- The slots from `count` on stay where they are. -/
def Fixes (count : Nat) (moved : Perm Nat) : Prop := ∀ slot, count ≤ slot → moved slot = slot

theorem fixes_permutation : (count : Nat) → {draws : List Nat} →
    InBounds draws (bounds count) → Fixes count (permutation count draws)
  | 0, _, _ => fun _ _ => rfl
  | 1, _, _ => fun _ _ => rfl
  | count + 2, _ :: _, .cons drawBound rest => by
      intro slot above
      have ih := fixes_permutation (count + 1) rest slot (by omega)
      rw [permutation, Perm.mul_apply, ih]
      exact swap_apply_of_ne_of_ne (by omega) (by omega)

/-- The first draw is where the last slot is read from. -/
theorem permutation_last {count draw : Nat} {draws : List Nat}
    (fit : InBounds draws (bounds (count + 1))) :
    permutation (count + 2) (draw :: draws) (count + 1) = draw := by
  rw [permutation, Perm.mul_apply, fixes_permutation (count + 1) fit _ (Nat.le_refl _),
    swap_apply_left]

theorem fixes_eq_one {count : Nat} (few : count ≤ 1) {moved : Perm Nat}
    (fixes : Fixes count moved) : moved = 1 := by
  have above : ∀ slot, 1 ≤ slot → moved slot = slot := fun slot bound =>
    fixes slot (few.trans bound)
  have zero : moved 0 = 0 := by
    by_contra elsewhere
    have twice := above (moved 0) (Nat.one_le_iff_ne_zero.mpr elsewhere)
    exact elsewhere (moved.injective twice)
  apply Equiv.ext
  intro slot
  cases slot with
  | zero => exact zero
  | succ slot => exact above (slot + 1) (by omega)

/-- Different draws shuffle differently. -/
theorem permutation_injective : (count : Nat) → {draws draws' : List Nat} →
    InBounds draws (bounds count) → InBounds draws' (bounds count) →
    permutation count draws = permutation count draws' → draws = draws'
  | 0, _, _, .nil, .nil, _ => rfl
  | 1, _, _, .nil, .nil, _ => rfl
  | count + 2, _, _, .cons _ rest, .cons _ rest', same => by
      have first := congrArg (· (count + 1)) same
      simp only [permutation_last rest, permutation_last rest'] at first
      subst first
      have later := mul_left_cancel same
      rw [permutation_injective (count + 1) rest rest' later]

/-- Every permutation of the slots is drawn. -/
theorem permutation_surjective : (count : Nat) → {moved : Perm Nat} → Fixes count moved →
    ∃ draws, InBounds draws (bounds count) ∧ permutation count draws = moved
  | 0, _, fixes => ⟨[], .nil, (fixes_eq_one (by omega) fixes).symm⟩
  | 1, _, fixes => ⟨[], .nil, (fixes_eq_one (by omega) fixes).symm⟩
  | count + 2, moved, fixes => by
      -- undoing the first swap leaves a permutation of one slot less
      have fixesRest : Fixes (count + 1) (swap (count + 1) (moved (count + 1)) * moved) := by
        intro slot above
        rw [Perm.mul_apply]
        by_cases last : slot = count + 1
        · subst last
          exact swap_apply_right _ _
        · have fixed := fixes slot (by omega)
          rw [fixed]
          apply swap_apply_of_ne_of_ne last
          intro clash
          exact last (moved.injective (fixed.trans clash))
      have bound : moved (count + 1) < count + 2 := by
        by_contra above
        have twice := fixes (moved (count + 1)) (by omega)
        have fixed := moved.injective twice
        omega
      obtain ⟨draws, fit, drawn⟩ := permutation_surjective (count + 1) fixesRest
      refine ⟨moved (count + 1) :: draws, .cons bound fit, ?_⟩
      rw [permutation, drawn, ← mul_assoc, swap_mul_self, one_mul]

/-! ## Permutations of a finite set of slots -/

/-- The permutations of the naturals that keep the slots from `count` on. -/
def slotsEquiv (count : Nat) : Perm (Fin count) ≃ { moved : Perm Nat // Fixes count moved } :=
  (Fin.equivSubtype.permCongr.trans (Perm.subtypeEquivSubtypePerm (· < count))).trans
    (Equiv.subtypeEquivRight fun _ => forall_congr' fun _ => by rw [Nat.not_lt])

theorem slotsEquiv_apply {count : Nat} (moved : Perm (Fin count)) (slot : Fin count) :
    (slotsEquiv count moved).val slot = moved slot := by
  have inside := Perm.subtypeEquivSubtypePerm_apply_of_mem
    (Fin.equivSubtype.permCongr moved) slot.isLt
  exact inside

/-- The shuffles of `count` slots as permutations of these slots. -/
def slotPermutation (count : Nat) (draws : { draws // InBounds draws (bounds count) }) :
    Perm (Fin count) :=
  (slotsEquiv count).symm ⟨permutation count draws.val, fixes_permutation count draws.property⟩

theorem slotPermutation_apply {count : Nat}
    (draws : { draws // InBounds draws (bounds count) }) (slot : Fin count) :
    (slotPermutation count draws slot : Nat) = permutation count draws.val slot := by
  have back := slotsEquiv_apply (slotPermutation count draws) slot
  rw [slotPermutation, Equiv.apply_symm_apply] at back
  exact back.symm

theorem slotPermutation_bijective (count : Nat) : Function.Bijective (slotPermutation count) := by
  constructor
  · intro draws draws' same
    have equal := congrArg Subtype.val ((slotsEquiv count).symm.injective same)
    exact Subtype.ext (permutation_injective count draws.property draws'.property equal)
  · intro moved
    obtain ⟨draws, fit, drawn⟩ :=
      permutation_surjective count (slotsEquiv count moved).property
    refine ⟨⟨draws, fit⟩, ?_⟩
    rw [slotPermutation, Equiv.symm_apply_eq]
    exact Subtype.ext drawn

/-! ## Permutations that hit given sets -/

section Hitting

variable {ι α : Type} [Finite α]

/-- An injection prescribed on some places extends to a permutation. -/
theorem exists_extension (places images : ι ↪ α) :
    ∃ moved : Perm α, ∀ index, moved (places index) = images index := by
  classical
  have := Fintype.ofFinite α
  let between : Set.range places ≃ Set.range images :=
    (Equiv.ofInjective places places.injective).symm.trans
      (Equiv.ofInjective images images.injective)
  refine ⟨between.extendSubtype, fun index => ?_⟩
  rw [between.extendSubtype_apply_of_mem (places index) ⟨index, rfl⟩]
  simp [between, Equiv.ofInjective_symm_apply]

/-- Each prescription is met by as many permutations as there are of the other places. -/
theorem card_extensions [Finite ι] (places images : ι ↪ α) :
    Nat.card { moved : Perm α // ∀ index, moved (places index) = images index } =
      (Nat.card α - Nat.card ι).factorial := by
  classical
  obtain ⟨base, extends_⟩ := exists_extension places images
  have toFixing : { moved : Perm α // ∀ index, moved (places index) = images index } ≃
      { moved : Perm α // ∀ place, ¬ place ∉ Set.range places → moved place = place } :=
    (Equiv.mulLeft base⁻¹).subtypeEquiv fun moved => by
      simp only [Classical.not_not, Set.forall_mem_range, Equiv.coe_mulLeft, Perm.mul_apply]
      exact forall_congr' fun index => by rw [Perm.inv_eq_iff_eq, extends_ index]
  have others : Nat.card { place // place ∉ Set.range places } = Nat.card α - Nat.card ι := by
    have split := Nat.card_congr (Equiv.Set.sumCompl (Set.range places))
    rw [Nat.card_sum, Nat.card_range_of_injective places.injective] at split
    exact (Nat.sub_eq_of_eq_add' split.symm).symm
  rw [Nat.card_congr toFixing,
    ← Nat.card_congr (Perm.subtypeEquivSubtypePerm (· ∉ Set.range places)), Nat.card_perm,
    others]

/-- The permutations that send every place into its own one of some disjoint sets. -/
theorem card_hitting [Fintype ι] (places : ι ↪ α) (targets : ι → Set α)
    (disjoint : Pairwise fun index index' => Disjoint (targets index) (targets index')) :
    Nat.card { moved : Perm α // ∀ index, moved (places index) ∈ targets index } =
      (∏ index, Nat.card (targets index)) * (Nat.card α - Nat.card ι).factorial := by
  classical
  -- a choice of one element from each set is an injection, the sets being disjoint
  let images : (∀ index, targets index) → (ι ↪ α) := fun chosen =>
    ⟨fun index => chosen index, fun index index' same => by
      by_contra apart
      have shared : (chosen index : α) ∈ targets index' := by
        rw [show (chosen index : α) = chosen index' from same]
        exact (chosen index').property
      exact Set.disjoint_left.mp (disjoint apart) (chosen index).property shared⟩
  have byImages : { moved : Perm α // ∀ index, moved (places index) ∈ targets index } ≃
      Σ chosen : ∀ index, targets index,
        { moved : Perm α // ∀ index, moved (places index) = images chosen index } :=
    { toFun := fun moved => ⟨fun index => ⟨moved.val (places index), moved.property index⟩,
        moved.val, fun _ => rfl⟩
      invFun := fun pair => ⟨pair.2.val, fun index => by
        rw [pair.2.property index]
        exact (pair.1 index).property⟩
      left_inv := fun _ => rfl
      right_inv := by
        rintro ⟨chosen, moved, meets⟩
        apply Sigma.subtype_ext
        · exact funext fun index => Subtype.ext (meets index)
        · rfl }
  have := Fintype.ofFinite (∀ index, targets index)
  rw [Nat.card_congr byImages, Nat.card_sigma]
  simp only [card_extensions, Finset.sum_const, smul_eq_mul, Finset.card_univ]
  rw [← Nat.card_eq_fintype_card, Nat.card_pi]

end Hitting

end Shuffle
