import Mathlib.Algebra.Ring.Nat
import Mathlib.Data.List.Induction
import Mathlib.Tactic.Ring

/-!
# Bytes as base32 and base64 text

The bits of a byte string, most significant first, are cut into groups of five or six; the
last group is filled up with zeros, and each group is written as a letter.
-/

namespace BitGroups

/-- The low `width` bits of a number, most significant first. -/
def toBits : (width : Nat) → Nat → List Bool
  | 0, _ => []
  | width + 1, number => number.testBit width :: toBits width number

/-- The number a bit string stands for. -/
def ofBits (bits : List Bool) : Nat := bits.foldl (fun sum bit => 2 * sum + bit.toNat) 0

@[simp] theorem length_toBits (width number : Nat) : (toBits width number).length = width := by
  induction width with
  | zero => rfl
  | succ width ih => simp [toBits, ih]

theorem toBits_congr {width number other : Nat}
    (same : ∀ index < width, number.testBit index = other.testBit index) :
    toBits width number = toBits width other := by
  induction width with
  | zero => rfl
  | succ width ih =>
      rw [toBits, toBits, same width (Nat.lt_succ_self _)]
      rw [ih fun index below => same index (Nat.lt_succ_of_lt below)]

/-- Bits at and above the width do not count. -/
theorem toBits_mod {width size : Nat} (fits : width ≤ size) (number : Nat) :
    toBits width (number % 2 ^ size) = toBits width number := by
  apply toBits_congr
  intro index below
  rw [Nat.testBit_mod_two_pow, decide_eq_true (Nat.lt_of_lt_of_le below fits), Bool.true_and]

/-- The high bits, then the low bits. -/
theorem toBits_add (high low number : Nat) :
    toBits (high + low) number = toBits high (number / 2 ^ low) ++ toBits low number := by
  induction high with
  | zero => rw [Nat.zero_add]; rfl
  | succ high ih =>
      rw [Nat.succ_add, toBits, toBits, ih, Nat.testBit_div_two_pow, Nat.add_comm]
      rfl

@[simp] theorem ofBits_concat (bits : List Bool) (bit : Bool) :
    ofBits (bits ++ [bit]) = 2 * ofBits bits + bit.toNat := by
  rw [ofBits, List.foldl_append]
  rfl

theorem ofBits_lt (bits : List Bool) : ofBits bits < 2 ^ bits.length := by
  induction bits using List.reverseRecOn with
  | nil => decide
  | append_singleton bits bit ih =>
      have digit : bit.toNat ≤ 1 := Bool.toNat_le bit
      rw [ofBits_concat, List.length_append, List.length_singleton, Nat.pow_succ]
      omega

theorem toBits_ofBits (bits : List Bool) : toBits bits.length (ofBits bits) = bits := by
  induction bits using List.reverseRecOn with
  | nil => rfl
  | append_singleton bits bit ih =>
      have half : (2 * ofBits bits + bit.toNat) / 2 ^ 1 = ofBits bits := by
        have digit : bit.toNat ≤ 1 := Bool.toNat_le bit
        omega
      have last : toBits 1 (2 * ofBits bits + bit.toNat) = [bit] := by
        cases bit <;> simp [toBits, Nat.testBit_zero]
      rw [ofBits_concat, List.length_append, List.length_singleton, toBits_add, half, ih, last]

theorem ofBits_toBits (width number : Nat) : ofBits (toBits width number) = number % 2 ^ width := by
  induction width generalizing number with
  | zero => rw [Nat.pow_zero, Nat.mod_one]; rfl
  | succ width ih =>
      have low : toBits 1 number = [number.testBit 0] := rfl
      rw [toBits_add, low, ofBits_concat, ih, Nat.testBit_zero, Nat.pow_one]
      have parity : (decide (number % 2 = 1)).toNat = number % 2 := by
        rcases Nat.mod_two_eq_zero_or_one number with even | odd
        · simp [even]
        · simp [odd]
      have power : 2 ^ (width + 1) = 2 * 2 ^ width := by ring
      have split : number % (2 * 2 ^ width) = number % 2 + 2 * (number / 2 % 2 ^ width) :=
        Nat.mod_mul
      rw [parity, power, split, Nat.add_comm]

theorem toBits_inj {width number other : Nat} (fits : number < 2 ^ width)
    (otherFits : other < 2 ^ width) (same : toBits width number = toBits width other) :
    number = other := by
  have values := congrArg ofBits same
  rwa [ofBits_toBits, ofBits_toBits, Nat.mod_eq_of_lt fits, Nat.mod_eq_of_lt otherFits] at values

theorem toBits_zero (width : Nat) : toBits width 0 = List.replicate width false := by
  induction width with
  | zero => rfl
  | succ width ih => rw [toBits, ih, Nat.zero_testBit, List.replicate_succ]

theorem toBits_eq_replicate_iff {width number : Nat} :
    toBits width number = List.replicate width false ↔ number % 2 ^ width = 0 := by
  rw [← toBits_zero, ← toBits_mod (Nat.le_refl width) number]
  constructor
  · intro same
    exact toBits_inj (Nat.mod_lt _ (Nat.two_pow_pos width)) (Nat.two_pow_pos width) same
  · intro zero
    rw [zero]

/-! ## Groups -/

/-- The bits a digit string spells. -/
def spell (width : Nat) (digits : List Nat) : List Bool := digits.flatMap (toBits width)

@[simp] theorem length_spell (width : Nat) (digits : List Nat) :
    (spell width digits).length = width * digits.length := by
  induction digits with
  | nil => rfl
  | cons digit digits ih =>
      rw [spell, List.flatMap_cons, List.length_append, length_toBits, ← spell, ih,
        List.length_cons]
      ring

theorem spell_inj {width : Nat} {digits : List Nat} : ∀ {others : List Nat},
    (∀ digit ∈ digits, digit < 2 ^ width) → (∀ digit ∈ others, digit < 2 ^ width) →
      digits.length = others.length → spell width digits = spell width others →
      digits = others := by
  induction digits with
  | nil =>
      intro others _ _ lengths _
      exact (List.length_eq_zero_iff.mp lengths.symm).symm
  | cons digit digits ih =>
      intro others fit otherFit lengths same
      cases others with
      | nil => cases lengths
      | cons other others =>
          obtain ⟨first, rest⟩ := List.append_inj same (by simp)
          rw [toBits_inj (fit digit List.mem_cons_self) (otherFit other List.mem_cons_self) first,
            ih (fun later member => fit later (List.mem_cons_of_mem _ member))
              (fun later member => otherFit later (List.mem_cons_of_mem _ member))
              (Nat.succ.inj lengths) rest]

/-- Cut bits into groups; `pending` holds the bits of the group that is being filled. -/
def cut (width : Nat) : (pending : List Bool) → List Bool → List Nat
  | [], [] => []
  | pending, [] => [ofBits (pending ++ List.replicate (width - pending.length) false)]
  | pending, bit :: bits =>
      if pending.length + 1 = width then ofBits (pending ++ [bit]) :: cut width [] bits
      else cut width (pending ++ [bit]) bits

/-- The bits in groups of `width`, the last one filled up with zeros. -/
def groups (width : Nat) (bits : List Bool) : List Nat := cut width [] bits

theorem cut_spells {width : Nat} (bits : List Bool) {pending : List Bool} (below : pending.length < width) :
    (∀ digit ∈ cut width pending bits, digit < 2 ^ width) ∧
      ∃ zeros < width, spell width (cut width pending bits) =
        pending ++ bits ++ List.replicate zeros false := by
  induction bits generalizing pending with
  | nil =>
      cases pending with
      | nil => exact ⟨by simp [cut], 0, below, rfl⟩
      | cons first rest =>
          have filled : ((first :: rest) ++
              List.replicate (width - (first :: rest).length) false).length = width := by
            rw [List.length_append, List.length_replicate]
            omega
          constructor
          · intro digit member
            obtain rfl := List.mem_singleton.mp member
            have fits := ofBits_lt ((first :: rest) ++
              List.replicate (width - (first :: rest).length) false)
            rwa [filled] at fits
          · refine ⟨width - (first :: rest).length, by simp only [List.length_cons]; omega, ?_⟩
            have spelled := toBits_ofBits ((first :: rest) ++
              List.replicate (width - (first :: rest).length) false)
            rw [filled] at spelled
            rw [List.append_nil, cut, spell, List.flatMap_singleton, spelled]
            simp
  | cons bit bits ih =>
      rw [cut]
      split
      · next full =>
          have filled : (pending ++ [bit]).length = width := by simpa using full
          have empty : ([] : List Bool).length < width := Nat.zero_lt_of_lt below
          obtain ⟨fit, zeros, few, spelled⟩ := ih empty
          constructor
          · intro digit member
            rcases List.mem_cons.mp member with rfl | later
            · have fits := ofBits_lt (pending ++ [bit])
              rwa [filled] at fits
            · exact fit digit later
          · refine ⟨zeros, few, ?_⟩
            have first := toBits_ofBits (pending ++ [bit])
            rw [filled] at first
            rw [spell, List.flatMap_cons, first, ← spell, spelled]
            simp
      · next room =>
          have longer : (pending ++ [bit]).length < width := by
            rw [List.length_append, List.length_singleton]
            omega
          obtain ⟨fit, zeros, few, spelled⟩ := ih longer
          refine ⟨fit, zeros, few, ?_⟩
          rw [spelled]
          simp

/-- The bits are all zeros exactly when the digits are. -/
theorem spell_zeros_iff {width : Nat} {digits : List Nat}
    (fit : ∀ digit ∈ digits, digit < 2 ^ width) :
    (∀ bit ∈ spell width digits, bit = false) ↔ ∀ digit ∈ digits, digit = 0 := by
  rw [spell, List.forall_mem_flatMap]
  apply forall_congr'
  intro digit
  apply imp_congr_right
  intro member
  have zeros := List.eq_replicate_iff (l := toBits width digit) (n := width) (a := false)
  rw [length_toBits, toBits_eq_replicate_iff, Nat.mod_eq_of_lt (fit digit member)] at zeros
  simp [zeros]

/-- The groups are the digits that spell the bits with fewer zeros after them than make a
group. -/
theorem eq_groups_iff {width : Nat} {digits : List Nat} {bits : List Bool} (positive : 0 < width)
    (fit : ∀ digit ∈ digits, digit < 2 ^ width) :
    digits = groups width bits ↔
      ∃ zeros < width, spell width digits = bits ++ List.replicate zeros false := by
  have empty : ([] : List Bool).length < width := positive
  obtain ⟨groupsFit, zeros, few, spelled⟩ := cut_spells bits empty
  constructor
  · intro equal
    subst equal
    exact ⟨zeros, few, spelled⟩
  · rintro ⟨others, otherFew, otherSpelled⟩
    have lengths := congrArg List.length spelled
    have otherLengths := congrArg List.length otherSpelled
    simp only [length_spell, List.nil_append, List.length_append, List.length_replicate]
      at lengths otherLengths
    have sameLength : digits.length = (cut width [] bits).length := by
      apply Nat.le_antisymm
      · apply Nat.le_of_lt_succ
        apply Nat.lt_of_mul_lt_mul_left (a := width)
        rw [Nat.mul_succ]
        omega
      · apply Nat.le_of_lt_succ
        apply Nat.lt_of_mul_lt_mul_left (a := width)
        rw [Nat.mul_succ]
        omega
    have sameZeros : zeros = others := by
      rw [sameLength] at otherLengths
      omega
    apply spell_inj fit groupsFit sameLength
    rw [otherSpelled, spelled, sameZeros]
    rfl

end BitGroups

namespace Rfc4648

open BitGroups

def byteBits (bytes : List UInt8) : List Bool := spell 8 (bytes.map UInt8.toNat)

theorem byteBits_cons (byte : UInt8) (bytes : List UInt8) :
    byteBits (byte :: bytes) = toBits 8 byte.toNat ++ byteBits bytes := rfl

@[simp] theorem byteBits_nil : byteBits [] = [] := rfl

theorem byteBits_append (first second : List UInt8) :
    byteBits (first ++ second) = byteBits first ++ byteBits second := by
  simp [byteBits, spell]

@[simp] theorem length_byteBits (bytes : List UInt8) :
    (byteBits bytes).length = 8 * bytes.length := by
  rw [byteBits, length_spell, List.length_map]

theorem byteBits_inj {first second : List UInt8} (same : byteBits first = byteBits second) :
    first = second := by
  have lengths := congrArg List.length same
  rw [length_byteBits, length_byteBits] at lengths
  have bytes : ∀ {bytes : List UInt8}, ∀ digit ∈ bytes.map UInt8.toNat, digit < 2 ^ 8 := by
    intro bytes digit member
    obtain ⟨byte, -, rfl⟩ := List.mem_map.mp member
    exact byte.toNat_lt
  have values : first.map UInt8.toNat = second.map UInt8.toNat :=
    spell_inj bytes bytes (by rw [List.length_map, List.length_map]; omega) same
  exact (List.map_inj_right fun _ _ => UInt8.toNat_inj.mp).mp values

/-- A byte string followed by fewer than eight further bits is known by its bits. -/
theorem byteBits_append_inj {first second : List UInt8} {rest others : List Bool}
    (few : rest.length < 8) (fewOthers : others.length < 8)
    (same : byteBits first ++ rest = byteBits second ++ others) :
    first = second ∧ rest = others := by
  have lengths := congrArg List.length same
  simp only [List.length_append, length_byteBits] at lengths
  obtain ⟨bytes, tails⟩ := List.append_inj same (by simp only [length_byteBits]; omega)
  exact ⟨byteBits_inj bytes, tails⟩

def base32Alphabet : List Char :=
  ['A', 'B', 'C', 'D', 'E', 'F', 'G', 'H', 'I', 'J', 'K', 'L', 'M', 'N', 'O', 'P', 'Q', 'R', 'S',
    'T', 'U', 'V', 'W', 'X', 'Y', 'Z', '2', '3', '4', '5', '6', '7']

def base32Char (digit : Nat) : Char := base32Alphabet.getD digit 'A'

/-- Base32 without padding. -/
def base32 (bytes : List UInt8) : List Char := (groups 5 (byteBits bytes)).map base32Char

def base64Alphabet : List Char :=
  ['A', 'B', 'C', 'D', 'E', 'F', 'G', 'H', 'I', 'J', 'K', 'L', 'M', 'N', 'O', 'P', 'Q', 'R', 'S',
    'T', 'U', 'V', 'W', 'X', 'Y', 'Z', 'a', 'b', 'c', 'd', 'e', 'f', 'g', 'h', 'i', 'j', 'k', 'l',
    'm', 'n', 'o', 'p', 'q', 'r', 's', 't', 'u', 'v', 'w', 'x', 'y', 'z', '0', '1', '2', '3', '4',
    '5', '6', '7', '8', '9', '+', '/']

def base64Char (digit : Nat) : Char := base64Alphabet.getD digit 'A'

/-- Base64, padded to whole quartets. -/
def base64 (bytes : List UInt8) : List Char :=
  let letters := (groups 6 (byteBits bytes)).map base64Char
  letters ++ List.replicate ((4 - letters.length % 4) % 4) '='

def base64Value (char : Char) : Option Nat := base64Alphabet.findIdx? (· = char)

/-- The bytes whose base64 is the text, if there are such. -/
def base64Decode (text : List Char) : Option (List UInt8) := do
  let digits ← (text.takeWhile (· ≠ '=')).mapM base64Value
  let bits := spell 6 digits
  let bytes := (groups 8 (bits.take (bits.length / 8 * 8))).map UInt8.ofNat
  if base64 bytes = text then some bytes else none

theorem base64Char_lookup : ∀ digit < 64, base64Value (base64Char digit) = some digit ∧
    base64Char digit ≠ '=' := by
  decide

theorem base64Char_mem (digit : Nat) : base64Char digit ∈ base64Alphabet := by
  unfold base64Char
  rw [List.getD_eq_getElem?_getD]
  cases found : base64Alphabet[digit]? with
  | none => decide
  | some letter => exact List.mem_of_getElem? found

/-- Letters up to the padding are read back to their digits. -/
theorem mapM_base64Value {digits : List Nat} (fit : ∀ digit ∈ digits, digit < 2 ^ 6)
    (padding : Nat) :
    ((digits.map base64Char ++ List.replicate padding '=').takeWhile (· ≠ '=')).mapM base64Value =
      some digits := by
  induction digits with
  | nil => cases padding <;> rfl
  | cons digit digits ih =>
      obtain ⟨value, letter⟩ := base64Char_lookup digit (fit digit List.mem_cons_self)
      have rest := ih fun later member => fit later (List.mem_cons_of_mem _ member)
      rw [List.map_cons, List.cons_append, List.takeWhile_cons_of_pos (by simpa using letter),
        List.mapM_cons, value, rest]
      rfl

theorem groups_byteBits (bytes : List UInt8) :
    groups 8 (byteBits bytes) = bytes.map UInt8.toNat := by
  symm
  apply (eq_groups_iff (by decide) _).mpr ⟨0, by decide, (List.append_nil _).symm⟩
  intro digit member
  obtain ⟨byte, -, rfl⟩ := List.mem_map.mp member
  exact byte.toNat_lt

theorem base64Decode_base64 (bytes : List UInt8) : base64Decode (base64 bytes) = some bytes := by
  obtain ⟨fit, zeros, few, spelled⟩ :=
    cut_spells (byteBits bytes) (show ([] : List Bool).length < 6 by decide)
  have read := mapM_base64Value fit
    ((4 - ((groups 6 (byteBits bytes)).map base64Char).length % 4) % 4)
  have whole : (spell 6 (groups 6 (byteBits bytes))).take
      ((spell 6 (groups 6 (byteBits bytes))).length / 8 * 8) = byteBits bytes := by
    have spelled : spell 6 (groups 6 (byteBits bytes)) =
        byteBits bytes ++ List.replicate zeros false := spelled
    have count : (8 * bytes.length + zeros) / 8 * 8 = (byteBits bytes).length := by
      rw [length_byteBits]
      omega
    rw [spelled, List.length_append, length_byteBits, List.length_replicate, count,
      List.take_left]
  have back : (bytes.map UInt8.toNat).map UInt8.ofNat = bytes := by
    rw [List.map_map]
    exact (List.map_congr_left fun byte _ => UInt8.ofNat_toNat).trans (List.map_id bytes)
  unfold base64Decode
  rw [base64]
  simp only [groups] at read whole ⊢
  rw [read]
  simp only [Option.bind_eq_bind, Option.bind_some, whole]
  rw [← groups, groups_byteBits, back]
  exact if_pos rfl

/-- The letters of zeros. -/
theorem base64_zeros (bytes : List UInt8) :
    (base64 bytes).all (fun char => char = 'A' || char = '=') = bytes.all (· = 0) := by
  have empty : ([] : List Bool).length < 6 := by decide
  obtain ⟨fit, zeros, few, spelled⟩ := cut_spells (byteBits bytes) empty
  have zeroLetter : ∀ digit < 64, base64Char digit = 'A' ∨ base64Char digit = '=' ↔ digit = 0 := by
    decide
  have letters : (base64 bytes).all (fun char => char = 'A' || char = '=') = true ↔
      ∀ digit ∈ groups 6 (byteBits bytes), digit = 0 := by
    simp only [base64, List.all_append, List.all_map, List.all_replicate, Bool.and_eq_true,
      List.all_eq_true, Function.comp, Bool.or_eq_true, decide_eq_true_eq]
    constructor
    · rintro ⟨letters, -⟩ digit member
      exact (zeroLetter digit (fit digit member)).mp (letters digit member)
    · intro digits
      refine ⟨?_, by simp⟩
      intro digit member
      exact (zeroLetter digit (fit digit member)).mpr (digits digit member)
  have bytesFit : ∀ digit ∈ bytes.map UInt8.toNat, digit < 2 ^ 8 := by
    intro digit member
    obtain ⟨byte, -, rfl⟩ := List.mem_map.mp member
    exact byte.toNat_lt
  rw [Bool.eq_iff_iff, letters, groups, ← spell_zeros_iff fit, spelled, List.nil_append,
    List.forall_mem_append, byteBits, spell_zeros_iff bytesFit]
  simp [← UInt8.toNat_inj]

/-- The text that is decoded is the base64 of the bytes. -/
theorem base64_of_decode {text : List Char} {bytes : List UInt8}
    (decoded : base64Decode text = some bytes) : base64 bytes = text := by
  rw [base64Decode, Option.bind_eq_bind, Option.bind_eq_some_iff] at decoded
  obtain ⟨digits, -, tail⟩ := decoded
  dsimp only at tail
  split at tail
  · next same =>
      cases tail
      exact same
  · cases tail

theorem base64_inj {first second : List UInt8} (same : base64 first = base64 second) :
    first = second := by
  have decoded := congrArg base64Decode same
  rw [base64Decode_base64, base64Decode_base64] at decoded
  exact Option.some.inj decoded

example : base32 [102, 111, 111, 98] = "MZXW6YQ".toList := by decide

example : base64 [102, 111, 111, 98] = "Zm9vYg==".toList := by decide

end Rfc4648
