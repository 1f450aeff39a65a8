import Mathlib.Data.List.Induction
import Mathlib.Algebra.Ring.Nat
import Mathlib.Tactic.Ring

/-!
# Digit strings and bit buffers

The value of a digit string, most significant digit first, and the bit buffer through
which such a string is written again in digits of another width.  Of the buffer only the
low bits that are still pending count; what is shifted out above is never read.
-/

namespace Radix

/-- The number a digit string stands for. -/
def value (base : Nat) (digits : List Nat) : Nat :=
  digits.foldl (fun sum digit => sum * base + digit) 0

@[simp] theorem value_nil (base : Nat) : value base [] = 0 := rfl

@[simp] theorem value_concat (base : Nat) (digits : List Nat) (digit : Nat) :
    value base (digits ++ [digit]) = value base digits * base + digit := by
  rw [value, List.foldl_append]
  rfl

/-- Strings of one length and one value are the same. -/
theorem value_inj {base : Nat} {digits : List Nat} :
    ∀ {digits' : List Nat}, digits.length = digits'.length → (∀ digit ∈ digits, digit < base) →
      (∀ digit ∈ digits', digit < base) → value base digits = value base digits' →
      digits = digits' := by
  induction digits using List.reverseRecOn with
  | nil =>
      intro digits' length_eq _ _ _
      exact (List.length_eq_zero_iff.mp length_eq.symm).symm
  | append_singleton digits digit ih =>
      intro digits' length_eq below below' same
      obtain rfl | ⟨front, last, rfl⟩ := List.eq_nil_or_concat digits'
      · simp at length_eq
      rw [List.concat_eq_append] at length_eq below' same ⊢
      rw [value_concat, value_concat] at same
      have lastBelow := below digit (by simp)
      have lastBelow' := below' last (by simp)
      have lastSame : digit = last := by
        have remainders := congrArg (· % base) same
        simpa [Nat.mul_add_mod', Nat.mod_eq_of_lt lastBelow, Nat.mod_eq_of_lt lastBelow']
          using remainders
      subst lastSame
      have frontSame : value base digits = value base front :=
        Nat.eq_of_mul_eq_mul_right (Nat.zero_lt_of_lt lastBelow) (by omega)
      rw [ih (by simpa using length_eq) (fun other member => below other (by simp [member]))
        (fun other member => below' other (by simp [member])) frontSame]

/-- A buffer of some size after a digit of the given width is shifted in from below. -/
def shiftInto (size width buf digit : Nat) : Nat := (buf <<< width) % 2 ^ size ||| digit

/-- A 64-bit buffer after a digit of the given width is shifted in from below. -/
def shiftIn (width buf digit : Nat) : Nat := (buf <<< width) % 2 ^ 64 ||| digit

/-- The pending bits grow by the digit, as long as they fit the buffer. -/
theorem shiftInto_mod {size width buf digit bits : Nat} (digitFits : digit < 2 ^ width)
    (bufferFits : bits + width ≤ size) :
    shiftInto size width buf digit % 2 ^ (bits + width) = buf % 2 ^ bits * 2 ^ width + digit := by
  have split : 2 ^ size = 2 ^ (size - width) * 2 ^ width := by
    rw [← Nat.pow_add]
    congr 1
    omega
  have kept : (buf <<< width) % 2 ^ size = (buf % 2 ^ (size - width)) <<< width := by
    rw [Nat.shiftLeft_eq, Nat.shiftLeft_eq, split, Nat.mul_mod_mul_right]
  have small : buf % 2 ^ bits * 2 ^ width + digit < 2 ^ (bits + width) := by
    have below : buf % 2 ^ bits < 2 ^ bits := Nat.mod_lt _ (Nat.two_pow_pos bits)
    calc buf % 2 ^ bits * 2 ^ width + digit < buf % 2 ^ bits * 2 ^ width + 2 ^ width := by omega
      _ = (buf % 2 ^ bits + 1) * 2 ^ width := by ring
      _ ≤ 2 ^ bits * 2 ^ width := Nat.mul_le_mul_right _ below
      _ = 2 ^ (bits + width) := (Nat.pow_add 2 bits width).symm
  have divides : 2 ^ bits ∣ 2 ^ (size - width) := Nat.pow_dvd_pow 2 (by omega)
  calc shiftInto size width buf digit % 2 ^ (bits + width)
      = (buf % 2 ^ (size - width) * 2 ^ width + digit) % 2 ^ (bits + width) := by
        rw [shiftInto, kept, ← Nat.shiftLeft_add_eq_or_of_lt digitFits, Nat.shiftLeft_eq]
    _ = (buf % 2 ^ bits * 2 ^ width + digit) % 2 ^ (bits + width) := by
        rw [Nat.add_mod, Nat.pow_add, Nat.mul_mod_mul_right, Nat.mod_mod_of_dvd _ divides,
          Nat.add_mod_mod]
    _ = buf % 2 ^ bits * 2 ^ width + digit := Nat.mod_eq_of_lt small

theorem shiftIn_mod {width buf digit bits : Nat} (digitFits : digit < 2 ^ width)
    (bufferFits : bits + width ≤ 64) :
    shiftIn width buf digit % 2 ^ (bits + width) = buf % 2 ^ bits * 2 ^ width + digit :=
  shiftInto_mod digitFits bufferFits

/-- Taking the top group off the pending bits. -/
theorem mod_split (buf bits width : Nat) :
    buf % 2 ^ (bits + width) = buf >>> bits % 2 ^ width * 2 ^ bits + buf % 2 ^ bits := by
  rw [Nat.pow_add, Nat.mod_mul, Nat.shiftRight_eq_div_pow]
  ring

/-! ## Regrouping -/

/-- The digits of some width written of a string of digits of another, and what the buffer
still holds. -/
structure Regroups (source width : Nat) (taken written : List Nat) (buf bits : Nat) : Prop where
  below : ∀ digit ∈ written, digit < 2 ^ width
  length_eq : source * taken.length = width * written.length + bits
  value_eq : value (2 ^ source) taken = value (2 ^ width) written * 2 ^ bits + buf % 2 ^ bits

namespace Regroups

variable {source width buf bits : Nat} {taken written : List Nat}

theorem start (source width buf : Nat) : Regroups source width [] [] buf 0 where
  below := nofun
  length_eq := rfl
  value_eq := by rw [Nat.pow_zero, Nat.mod_one]; rfl

theorem shift (inv : Regroups source width taken written buf bits) {size digit : Nat}
    (digitFits : digit < 2 ^ source) (room : bits + source ≤ size) :
    Regroups source width (taken ++ [digit]) written (shiftInto size source buf digit)
      (bits + source) where
  below := inv.below
  length_eq := by
    rw [List.length_append, List.length_singleton, Nat.mul_add, inv.length_eq]
    omega
  value_eq := by
    rw [shiftInto_mod digitFits room, value_concat, inv.value_eq, Nat.pow_add]
    ring

theorem emit (inv : Regroups source width taken written buf (bits + width)) :
    Regroups source width taken (written ++ [buf >>> bits % 2 ^ width]) buf bits where
  below := by
    intro digit member
    rcases List.mem_append.mp member with earlier | last
    · exact inv.below digit earlier
    · rw [List.mem_singleton.mp last]
      exact Nat.mod_lt _ (Nat.two_pow_pos width)
  length_eq := by
    have lengths := inv.length_eq
    rw [List.length_append, List.length_singleton, Nat.mul_add]
    omega
  value_eq := by
    rw [inv.value_eq, mod_split, value_concat, Nat.pow_add]
    ring

/-- When nothing is pending, what was written determines what was taken. -/
theorem inj {taken' : List Nat} {buf' : Nat} (inv : Regroups source width taken written buf 0)
    (inv' : Regroups source width taken' written buf' 0) (positive : 0 < source)
    (below : ∀ digit ∈ taken, digit < 2 ^ source)
    (below' : ∀ digit ∈ taken', digit < 2 ^ source) : taken = taken' := by
  apply value_inj _ below below'
  · rw [inv.value_eq, inv'.value_eq, Nat.pow_zero, Nat.mod_one, Nat.mod_one]
  · apply Nat.eq_of_mul_eq_mul_left positive
    rw [inv.length_eq, inv'.length_eq]

end Regroups

end Radix
