import Pangolin.Lib.Radix
import Pangolin.Lib.Utf8

/-!
# The checksummed text form

Pairing payloads, device envelopes and backups are shown to the user as lowercase base32
without padding, with the first four bytes of a SHA-256 digest appended.  The codec is written
out twice, in `pairing_transport` and in `recovery_backup`; the two differ in their errors.
-/

namespace Pangolin.Core

open Radix

/-! ## Base32 -/

/-- `BASE32_ALPHABET`, the same in both files. -/
def base32Alphabet : List Char :=
  ['a', 'b', 'c', 'd', 'e', 'f', 'g', 'h', 'i', 'j', 'k', 'l', 'm', 'n', 'o', 'p', 'q', 'r', 's',
    't', 'u', 'v', 'w', 'x', 'y', 'z', '2', '3', '4', '5', '6', '7']

def base32Char (idx : Nat) : Char := base32Alphabet.getD idx 'a'

/-- The variables of the encoding loop. -/
structure EncodeState where
  buf : Nat
  bits : Nat
  out : Utf8.Text
  deriving Repr, DecidableEq

/-- The `while bits >= 5` loop. -/
def emitChars (buf : Nat) : Nat → Utf8.Text → Nat × Utf8.Text
  | bits + 5, out => emitChars buf bits (out ++ [base32Char (buf >>> bits &&& 0x1F)])
  | bits, out => (bits, out)

def encodeByte (state : EncodeState) (byte : UInt8) : EncodeState :=
  let buf := shiftIn 8 state.buf byte.toNat
  let emitted := emitChars buf (state.bits + 8) state.out
  ⟨buf, emitted.1, emitted.2⟩

/-- `base32_encode`. -/
def base32Encode (bytes : List UInt8) : Utf8.Text :=
  let state := bytes.foldl encodeByte ⟨0, 0, []⟩
  if 0 < state.bits then
    state.out ++ [base32Char ((state.buf <<< (5 - state.bits)) % 2 ^ 64 &&& 0x1F)]
  else
    state.out

section Decoding

variable {ε : Type} (invalidEncoding : ε)

/-- `base32_decode_char`. -/
def base32DecodeChar (c : UInt8) : Except ε Nat :=
  if 'a'.toNat ≤ c.toNat ∧ c.toNat ≤ 'z'.toNat then
    .ok (c.toNat - 'a'.toNat)
  else if '2'.toNat ≤ c.toNat ∧ c.toNat ≤ '7'.toNat then
    .ok (c.toNat - '2'.toNat + 26)
  else
    .error invalidEncoding

/-- The variables of the decoding loop. -/
structure DecodeState where
  buf : Nat
  bits : Nat
  out : List UInt8
  deriving Repr, DecidableEq

/-- What a digit does to them. -/
def decodeDigit (state : DecodeState) (idx : Nat) : DecodeState :=
  let buf := shiftIn 5 state.buf idx
  let bits := state.bits + 5
  if 8 ≤ bits then
    ⟨buf, bits - 8, state.out ++ [UInt8.ofNat (buf >>> (bits - 8) &&& 0xFF)]⟩
  else
    ⟨buf, bits, state.out⟩

def decodeLoop : List UInt8 → DecodeState → Except ε DecodeState
  | [], state => .ok state
  | c :: rest, state =>
      match base32DecodeChar invalidEncoding c with
      | .error error => .error error
      | .ok idx => decodeLoop rest (decodeDigit state idx)

/-- `base32_decode`. -/
def base32Decode (bytes : List UInt8) : Except ε (List UInt8) :=
  if bytes.isEmpty then
    .error invalidEncoding
  else
    match decodeLoop invalidEncoding bytes ⟨0, 0, []⟩ with
    | .error error => .error error
    | .ok state =>
        if 0 < state.bits ∧ state.buf &&& (2 ^ state.bits - 1) ≠ 0 then
          .error invalidEncoding
        else
          .ok state.out

end Decoding

/-! ## The checksum -/

def textChecksumLen : Nat := 4

/-- SHA-256. -/
abbrev Sha256 := List UInt8 → Vector UInt8 32

/-- `payload_checksum`, and `integrity_hash` of the backups. -/
def payloadChecksum (sha256 : Sha256) (bytes : List UInt8) : List UInt8 :=
  (sha256 bytes).toList.take textChecksumLen

def encodeText (sha256 : Sha256) (bytes : List UInt8) : Utf8.Text :=
  base32Encode (bytes ++ payloadChecksum sha256 bytes)

/-- The body both decoders share, with the errors of the one it is used for. -/
def decodeText {ε : Type} (invalidEncoding tooShort checksumMismatch : ε) (sha256 : Sha256)
    (text : Utf8.Text) : Except ε (List UInt8) :=
  match base32Decode invalidEncoding (Utf8.encode text) with
  | .error error => .error error
  | .ok decoded =>
      if decoded.length < textChecksumLen then
        .error tooShort
      else
        let split := decoded.length - textChecksumLen
        let body := decoded.take split
        if decoded.drop split ≠ payloadChecksum sha256 body then
          .error checksumMismatch
        else
          .ok body

namespace PairingTransport

/-- The errors the text form can meet. -/
inductive PairingTransportError where
  | wrongLength
  | invalidEncoding
  | checksumMismatch
  deriving Repr, DecidableEq

def base32Encode (bytes : List UInt8) : Utf8.Text := Core.base32Encode bytes

def base32Decode (bytes : List UInt8) : Except PairingTransportError (List UInt8) :=
  Core.base32Decode .invalidEncoding bytes

def encodeTextWithChecksum (sha256 : Sha256) (bytes : List UInt8) : Utf8.Text :=
  encodeText sha256 bytes

def decodeTextWithChecksum (sha256 : Sha256) (text : Utf8.Text) :
    Except PairingTransportError (List UInt8) :=
  decodeText .invalidEncoding .wrongLength .checksumMismatch sha256 text

end PairingTransport

namespace RecoveryBackup

/-- The errors the text form can meet. -/
inductive BackupError where
  | validation (kind message : String)
  | textChecksumMismatch
  | textInvalidEncoding
  deriving Repr, DecidableEq

def base32Encode (bytes : List UInt8) : Utf8.Text := Core.base32Encode bytes

def base32Decode (bytes : List UInt8) : Except BackupError (List UInt8) :=
  Core.base32Decode .textInvalidEncoding bytes

def encodeText (sha256 : Sha256) (bytes : List UInt8) : Utf8.Text := Core.encodeText sha256 bytes

def decodeText (sha256 : Sha256) (text : Utf8.Text) : Except BackupError (List UInt8) :=
  Core.decodeText .textInvalidEncoding
    (.validation "text" "backup text form too short to hold a checksum") .textChecksumMismatch
    sha256 text

end RecoveryBackup

/-! ## Digits and characters -/

/-- The byte of a digit's character. -/
def digitByte (digit : Nat) : UInt8 := UInt8.ofNat (base32Char digit).toNat

/-- A digit string of base 32. -/
def Digits (digits : List Nat) : Prop := ∀ digit ∈ digits, digit < 32

theorem utf8EncodeChar_base32Char {digit : Nat} (below : digit < 32) :
    String.utf8EncodeChar (base32Char digit) = [digitByte digit] := by
  have all : ∀ digit < 32, String.utf8EncodeChar (base32Char digit) = [digitByte digit] := by
    decide
  exact all digit below

theorem toNat_digitByte {digit : Nat} (below : digit < 32) :
    (digitByte digit).toNat = if digit < 26 then 97 + digit else 50 + (digit - 26) := by
  have all : ∀ digit < 32,
      (digitByte digit).toNat = if digit < 26 then 97 + digit else 50 + (digit - 26) := by decide
  exact all digit below

/-- Exactly the characters of the alphabet are read. -/
theorem base32DecodeChar_eq_ok_iff {ε : Type} {invalidEncoding : ε} {c : UInt8} {digit : Nat} :
    base32DecodeChar invalidEncoding c = .ok digit ↔ digit < 32 ∧ c = digitByte digit := by
  have lowerA : 'a'.toNat = 97 := rfl
  have lowerZ : 'z'.toNat = 122 := rfl
  have two : '2'.toNat = 50 := rfl
  have seven : '7'.toNat = 55 := rfl
  rw [base32DecodeChar, lowerA, lowerZ, two, seven]
  constructor
  · intro read
    have code : digit < 32 ∧
        c.toNat = if digit < 26 then 97 + digit else 50 + (digit - 26) := by
      split at read
      · have drawn := Except.ok.inj read
        rw [if_pos (by omega)]
        omega
      · split at read
        · have drawn := Except.ok.inj read
          rw [if_neg (by omega)]
          omega
        · cases read
    exact ⟨code.1, UInt8.toNat_inj.mp (code.2.trans (toNat_digitByte code.1).symm)⟩
  · rintro ⟨below, rfl⟩
    rw [toNat_digitByte below]
    by_cases letter : digit < 26
    · rw [if_pos letter, if_pos (by omega), Nat.add_sub_cancel_left]
    · rw [if_neg letter, if_neg (by omega), if_pos (by omega)]
      exact congrArg _ (by omega)

theorem digitByte_inj {digit digit' : Nat} (below : digit < 32) (below' : digit' < 32)
    (same : digitByte digit = digitByte digit') : digit = digit' := by
  have read : base32DecodeChar () (digitByte digit) = .ok digit :=
    base32DecodeChar_eq_ok_iff.mpr ⟨below, rfl⟩
  have read' : base32DecodeChar () (digitByte digit) = .ok digit' :=
    base32DecodeChar_eq_ok_iff.mpr ⟨below', same⟩
  exact Except.ok.inj (read.symm.trans read')

theorem map_base32Char_inj {digits : List Nat} : {digits' : List Nat} → Digits digits →
    Digits digits' → digits.map base32Char = digits'.map base32Char → digits = digits' := by
  induction digits with
  | nil =>
      intro digits' _ _ same
      exact (List.map_eq_nil_iff.mp same.symm).symm
  | cons digit digits ih =>
      intro digits' below below' same
      cases digits' with
      | nil => cases same
      | cons digit' digits' =>
          rw [List.map_cons, List.map_cons, List.cons.injEq] at same
          have first := digitByte_inj (below digit List.mem_cons_self)
            (below' digit' List.mem_cons_self) (by rw [digitByte, digitByte, same.1])
          have rest := ih (fun other member => below other (List.mem_cons_of_mem _ member))
            (fun other member => below' other (List.mem_cons_of_mem _ member)) same.2
          rw [first, rest]

theorem encode_map_base32Char {digits : List Nat} (below : Digits digits) :
    Utf8.encode (digits.map base32Char) = digits.map digitByte := by
  induction digits with
  | nil => rfl
  | cons digit digits ih =>
      have rest := ih fun other member => below other (List.mem_cons_of_mem _ member)
      rw [Utf8.encode] at rest
      rw [Utf8.encode, List.map_cons, List.map_cons, List.flatMap_cons, rest,
        utf8EncodeChar_base32Char (below digit List.mem_cons_self)]
      rfl

/-- A text whose bytes are those of digits consists of their characters. -/
theorem eq_map_of_encode_eq {text : Utf8.Text} {digits : List Nat} (below : Digits digits)
    (bytes : Utf8.encode text = digits.map digitByte) : text = digits.map base32Char := by
  have same := congrArg Utf8.decode? (bytes.trans (encode_map_base32Char below).symm)
  rw [Utf8.decode?_encode, Utf8.decode?_encode] at same
  exact Option.some.inj same

/-! ## The two loops -/

/-- The bytes as a digit string of base 256. -/
def byteDigits (bytes : List UInt8) : List Nat := bytes.map UInt8.toNat

theorem byteDigits_lt {bytes : List UInt8} : ∀ digit ∈ byteDigits bytes, digit < 256 := by
  intro digit member
  obtain ⟨byte, -, rfl⟩ := List.mem_map.mp member
  exact byte.toNat_lt

/-- The digits stand for the bytes and some zero bits after them. -/
structure Spells (digits : List Nat) (bytes : List UInt8) (padding : Nat) : Prop where
  below : Digits digits
  length_eq : 5 * digits.length = 8 * bytes.length + padding
  value_eq : value 32 digits = value 256 (byteDigits bytes) * 2 ^ padding

/-- What the encoder has written and what it still holds. -/
structure EncodeInv (bytes : List UInt8) (state : EncodeState) (digits : List Nat) : Prop where
  below : Digits digits
  out_eq : state.out = digits.map base32Char
  length_eq : 8 * bytes.length = 5 * digits.length + state.bits
  value_eq : value 256 (byteDigits bytes) =
    value 32 digits * 2 ^ state.bits + state.buf % 2 ^ state.bits

theorem Digits.concat {digits : List Nat} (below : Digits digits) {digit : Nat} (fits : digit < 32) :
    Digits (digits ++ [digit]) := by
  intro other member
  rcases List.mem_append.mp member with earlier | last
  · exact below other earlier
  · rw [List.mem_singleton.mp last]
    exact fits

/-- The inner loop moves whole groups from the buffer to the output. -/
theorem emitChars_inv {bytes : List UInt8} (buf bits : Nat) (out : Utf8.Text) :
    ∀ {digits}, EncodeInv bytes ⟨buf, bits, out⟩ digits →
      ∃ digits', EncodeInv bytes ⟨buf, (emitChars buf bits out).1, (emitChars buf bits out).2⟩
          digits' ∧ (emitChars buf bits out).1 < 5 := by
  fun_induction emitChars buf bits out with
  | case1 bits out ih =>
      intro digits inv
      have group : buf >>> bits &&& 0x1F = buf >>> bits % 2 ^ 5 :=
        Nat.and_two_pow_sub_one_eq_mod _ 5
      have small : buf >>> bits % 2 ^ 5 < 32 := Nat.mod_lt _ (by decide)
      have written : out = digits.map base32Char := inv.out_eq
      have lengths : 8 * bytes.length = 5 * digits.length + (bits + 5) := inv.length_eq
      have values : value 256 (byteDigits bytes) =
          value 32 digits * 2 ^ (bits + 5) + buf % 2 ^ (bits + 5) := inv.value_eq
      rw [group] at ih ⊢
      apply ih
      constructor
      · exact inv.below.concat small
      · rw [written, List.map_append]
        rfl
      · change 8 * bytes.length = 5 * (digits ++ [buf >>> bits % 2 ^ 5]).length + bits
        rw [List.length_append, List.length_singleton]
        omega
      · rw [values, mod_split, Nat.pow_add, value_concat]
        ring
  | case2 bits out few =>
      intro digits inv
      refine ⟨digits, inv, ?_⟩
      by_contra many
      exact few (bits - 5) (by omega)

theorem encodeByte_inv {bytes : List UInt8} {state : EncodeState} {digits : List Nat}
    (inv : EncodeInv bytes state digits) (few : state.bits < 5) (byte : UInt8) :
    ∃ digits', EncodeInv (bytes ++ [byte]) (encodeByte state byte) digits' ∧
      (encodeByte state byte).bits < 5 := by
  apply emitChars_inv
  constructor
  · exact inv.below
  · exact inv.out_eq
  · have lengths := inv.length_eq
    simp only [List.length_append, List.length_singleton]
    omega
  · have pending : shiftIn 8 state.buf byte.toNat % 2 ^ (state.bits + 8) =
        state.buf % 2 ^ state.bits * 2 ^ 8 + byte.toNat := shiftIn_mod byte.toNat_lt (by omega)
    have values := inv.value_eq
    simp only [byteDigits, List.map_append, List.map_cons, List.map_nil, value_concat] at values ⊢
    rw [pending, values, Nat.pow_add]
    ring

theorem foldl_encodeByte_inv (bytes : List UInt8) :
    ∃ digits, EncodeInv bytes (bytes.foldl encodeByte ⟨0, 0, []⟩) digits ∧
      (bytes.foldl encodeByte ⟨0, 0, []⟩).bits < 5 := by
  induction bytes using List.reverseRecOn with
  | nil => exact ⟨[], ⟨nofun, rfl, rfl, rfl⟩, by decide⟩
  | append_singleton bytes byte ih =>
      obtain ⟨digits, inv, few⟩ := ih
      rw [List.foldl_append]
      exact encodeByte_inv inv few byte

/-- The encoder pads the last group with less than five zero bits. -/
theorem base32Encode_spells (bytes : List UInt8) :
    ∃ digits padding, base32Encode bytes = digits.map base32Char ∧ Spells digits bytes padding ∧
      padding < 5 := by
  obtain ⟨digits, inv, few⟩ := foldl_encodeByte_inv bytes
  unfold base32Encode
  generalize bytes.foldl encodeByte ⟨0, 0, []⟩ = state at inv few
  obtain ⟨buf, bits, out⟩ := state
  have lengths := inv.length_eq
  have values := inv.value_eq
  have written := inv.out_eq
  dsimp only at few lengths values written ⊢
  by_cases pending : 0 < bits
  · rw [if_pos pending]
    have last : (buf <<< (5 - bits)) % 2 ^ 64 &&& 0x1F = buf % 2 ^ bits * 2 ^ (5 - bits) := by
      have width : 2 ^ 5 = 2 ^ bits * 2 ^ (5 - bits) := by
        rw [← Nat.pow_add]
        congr 1
        omega
      rw [show 0x1F = 2 ^ 5 - 1 from rfl, Nat.and_two_pow_sub_one_eq_mod,
        Nat.mod_mod_of_dvd _ (Nat.pow_dvd_pow 2 (by decide)), Nat.shiftLeft_eq, width,
        Nat.mul_mod_mul_right]
    have small : buf % 2 ^ bits * 2 ^ (5 - bits) < 32 := by
      rw [← last]
      exact Nat.lt_of_le_of_lt Nat.and_le_right (by decide)
    refine ⟨digits ++ [buf % 2 ^ bits * 2 ^ (5 - bits)], 5 - bits, ?_, ⟨inv.below.concat small, ?_, ?_⟩,
      by omega⟩
    · rw [last, written, List.map_append]
      rfl
    · rw [List.length_append, List.length_singleton]
      omega
    · have whole : 2 ^ bits * 2 ^ (5 - bits) = 32 := by
        rw [← Nat.pow_add, Nat.add_sub_cancel' (by omega)]
      rw [value_concat, values, Nat.add_mul, Nat.mul_assoc, whole]
  · have none : bits = 0 := by omega
    subst none
    rw [if_neg (by decide)]
    refine ⟨digits, 0, written, ⟨inv.below, by omega, ?_⟩, by decide⟩
    rw [values, Nat.pow_zero, Nat.mod_one]
    ring

/-- What the decoder has written and what it still holds. -/
structure DecodeInv (digits : List Nat) (state : DecodeState) : Prop where
  few : state.bits < 8
  length_eq : 5 * digits.length = 8 * state.out.length + state.bits
  value_eq : value 32 digits =
    value 256 (byteDigits state.out) * 2 ^ state.bits + state.buf % 2 ^ state.bits

theorem decodeDigit_inv {digits : List Nat} {state : DecodeState} (inv : DecodeInv digits state)
    {digit : Nat} (below : digit < 32) :
    DecodeInv (digits ++ [digit]) (decodeDigit state digit) := by
  obtain ⟨buf, bits, out⟩ := state
  have few : bits < 8 := inv.few
  have lengths : 5 * digits.length = 8 * out.length + bits := inv.length_eq
  have values : value 32 digits =
      value 256 (byteDigits out) * 2 ^ bits + buf % 2 ^ bits := inv.value_eq
  have pending : shiftIn 5 buf digit % 2 ^ (bits + 5) = buf % 2 ^ bits * 2 ^ 5 + digit :=
    shiftIn_mod below (by omega)
  have grown : value 32 (digits ++ [digit]) =
      value 256 (byteDigits out) * 2 ^ (bits + 5) +
        shiftIn 5 buf digit % 2 ^ (bits + 5) := by
    rw [value_concat, values, pending, Nat.pow_add]
    ring
  have longer : 5 * (digits ++ [digit]).length = 8 * out.length + (bits + 5) := by
    rw [List.length_append, List.length_singleton]
    omega
  unfold decodeDigit
  dsimp only
  by_cases full : 8 ≤ bits + 5
  · rw [if_pos full]
    have group : shiftIn 5 buf digit >>> (bits + 5 - 8) &&& 0xFF =
        shiftIn 5 buf digit >>> (bits + 5 - 8) % 2 ^ 8 := Nat.and_two_pow_sub_one_eq_mod _ 8
    have byte : (UInt8.ofNat (shiftIn 5 buf digit >>> (bits + 5 - 8) &&& 0xFF)).toNat =
        shiftIn 5 buf digit >>> (bits + 5 - 8) % 2 ^ 8 := by
      rw [group, UInt8.toNat_ofNat', Nat.mod_mod]
    have split : bits + 5 = bits + 5 - 8 + 8 := by omega
    constructor
    · dsimp only
      omega
    · simp only [List.length_append, List.length_singleton] at longer ⊢
      omega
    · simp only [byteDigits, List.map_append, List.map_cons, List.map_nil, value_concat, byte]
      rw [split, Nat.pow_add, ← Nat.pow_add, mod_split] at grown
      rw [← value_concat, grown, byteDigits]
      ring
  · rw [if_neg full]
    exact ⟨by dsimp only; omega, longer, grown⟩

theorem decodeLoop_digits {ε : Type} (invalidEncoding : ε) {digits : List Nat}
    (below : Digits digits) (state : DecodeState) :
    decodeLoop invalidEncoding (digits.map digitByte) state =
      .ok (digits.foldl decodeDigit state) := by
  induction digits generalizing state with
  | nil => rfl
  | cons digit digits ih =>
      have read : base32DecodeChar invalidEncoding (digitByte digit) = .ok digit :=
        base32DecodeChar_eq_ok_iff.mpr ⟨below digit List.mem_cons_self, rfl⟩
      rw [List.map_cons, decodeLoop, read]
      exact ih (fun other member => below other (List.mem_cons_of_mem _ member)) _

theorem decodeLoop_ok {ε : Type} {invalidEncoding : ε} {bytes : List UInt8}
    {state final : DecodeState} (run : decodeLoop invalidEncoding bytes state = .ok final) :
    ∃ digits, Digits digits ∧ bytes = digits.map digitByte := by
  induction bytes generalizing state with
  | nil => exact ⟨[], nofun, rfl⟩
  | cons c bytes ih =>
      rw [decodeLoop] at run
      cases read : base32DecodeChar invalidEncoding c with
      | error error =>
          rw [read] at run
          cases run
      | ok digit =>
          rw [read] at run
          obtain ⟨below, rfl⟩ := base32DecodeChar_eq_ok_iff.mp read
          obtain ⟨digits, rest, rfl⟩ := ih run
          refine ⟨digit :: digits, ?_, rfl⟩
          intro other member
          rcases List.mem_cons.mp member with rfl | later
          · exact below
          · exact rest other later

theorem foldl_decodeDigit_inv {digits : List Nat} (below : Digits digits) :
    DecodeInv digits (digits.foldl decodeDigit ⟨0, 0, []⟩) := by
  induction digits using List.reverseRecOn with
  | nil => exact ⟨by decide, rfl, rfl⟩
  | append_singleton digits digit ih =>
      rw [List.foldl_append]
      exact decodeDigit_inv (ih fun other member => below other (List.mem_append_left _ member))
        (below digit (by simp))

theorem byteDigits_inj {bytes bytes' : List UInt8}
    (length_eq : bytes.length = bytes'.length)
    (same : value 256 (byteDigits bytes) = value 256 (byteDigits bytes')) : bytes = bytes' := by
  have digits := value_inj (by simpa [byteDigits] using length_eq) byteDigits_lt byteDigits_lt same
  exact (List.map_inj_right fun _ _ => UInt8.toNat_inj.mp).mp digits

/-- The digits spell bytes exactly when nothing but zeros is pending, and then the output. -/
theorem DecodeInv.spells_iff {digits : List Nat} {state : DecodeState}
    (inv : DecodeInv digits state) (below : Digits digits) {bytes : List UInt8} :
    (∃ padding < 8, Spells digits bytes padding) ↔
      state.buf % 2 ^ state.bits = 0 ∧ state.out = bytes := by
  have few := inv.few
  have lengths := inv.length_eq
  have values := inv.value_eq
  constructor
  · rintro ⟨padding, short, spells⟩
    have spelled := spells.length_eq
    have samePadding : padding = state.bits := by omega
    have sameLength : state.out.length = bytes.length := by omega
    subst samePadding
    rw [spells.value_eq] at values
    have positive : 0 < 2 ^ state.bits := Nat.two_pow_pos _
    have clean : state.buf % 2 ^ state.bits = 0 := by
      have remainders := congrArg (· % 2 ^ state.bits) values
      simpa [Nat.mul_mod_left, Nat.mul_add_mod', Nat.mod_mod] using remainders.symm
    rw [clean, Nat.add_zero] at values
    exact ⟨clean, byteDigits_inj sameLength (Nat.eq_of_mul_eq_mul_right positive values).symm⟩
  · rintro ⟨clean, rfl⟩
    rw [clean, Nat.add_zero] at values
    exact ⟨state.bits, few, below, lengths, values⟩

/-- The decoder accepts the digit strings that spell whole bytes and less than eight zero
bits. -/
theorem base32Decode_eq_ok_iff {ε : Type} {invalidEncoding : ε} {digits : List Nat}
    (below : Digits digits) {bytes : List UInt8} :
    base32Decode invalidEncoding (digits.map digitByte) = .ok bytes ↔
      digits ≠ [] ∧ ∃ padding < 8, Spells digits bytes padding := by
  have inv := foldl_decodeDigit_inv below
  rw [base32Decode, decodeLoop_digits invalidEncoding below, inv.spells_iff below]
  generalize digits.foldl decodeDigit ⟨0, 0, []⟩ = state
  cases digits with
  | nil => simp
  | cons digit digits =>
      rw [List.map_cons, List.isEmpty_cons, if_neg (by decide)]
      dsimp only
      rw [Nat.and_two_pow_sub_one_eq_mod]
      by_cases clean : state.buf % 2 ^ state.bits = 0
      · rw [if_neg (by simp [clean])]
        simp [clean]
      · have pending : 0 < state.bits := by
          by_contra none
          have zero : state.bits = 0 := by omega
          rw [zero, Nat.pow_zero, Nat.mod_one] at clean
          exact clean rfl
        rw [if_pos ⟨pending, clean⟩]
        simp [clean]

theorem base32Decode_ok {ε : Type} {invalidEncoding : ε} {bytes decoded : List UInt8}
    (read : base32Decode invalidEncoding bytes = .ok decoded) :
    ∃ digits, Digits digits ∧ bytes = digits.map digitByte := by
  unfold base32Decode at read
  split at read
  · cases read
  · split at read
    · cases read
    · next state run => exact decodeLoop_ok run

/-! ## The text form -/

section Text

variable {sha256 : Sha256}

theorem length_payloadChecksum (bytes : List UInt8) :
    (payloadChecksum sha256 bytes).length = 4 := by
  rw [payloadChecksum, List.length_take, Vector.length_toList]
  rfl

/-- The accepted texts spell the payload, its checksum and less than eight zero bits. -/
theorem decodeText_eq_ok_iff {ε : Type} {invalidEncoding tooShort checksumMismatch : ε}
    {text : Utf8.Text} {payload : List UInt8} :
    decodeText invalidEncoding tooShort checksumMismatch sha256 text = .ok payload ↔
      ∃ digits, text = digits.map base32Char ∧ ∃ padding < 8,
        Spells digits (payload ++ payloadChecksum sha256 payload) padding := by
  constructor
  · intro accepted
    unfold decodeText at accepted
    split at accepted
    · cases accepted
    · next decoded read =>
        obtain ⟨digits, below, bytes⟩ := base32Decode_ok read
        rw [bytes, base32Decode_eq_ok_iff below] at read
        obtain ⟨-, padding, short, spells⟩ := read
        refine ⟨digits, eq_map_of_encode_eq below bytes, padding, short, ?_⟩
        split at accepted
        · cases accepted
        · dsimp only at accepted
          split at accepted
          · cases accepted
          · next same =>
              have body := Except.ok.inj accepted
              have checked := Classical.not_not.mp same
              rw [body] at checked
              rw [← checked, ← body, List.take_append_drop]
              exact spells
  · rintro ⟨digits, rfl, padding, short, spells⟩
    have sized : (payloadChecksum sha256 payload).length = 4 := length_payloadChecksum payload
    have nonempty : digits ≠ [] := by
      rintro rfl
      have lengths := spells.length_eq
      rw [List.length_append] at lengths
      simp only [List.length_nil] at lengths
      omega
    have read : base32Decode invalidEncoding (digits.map digitByte) =
        .ok (payload ++ payloadChecksum sha256 payload) :=
      (base32Decode_eq_ok_iff spells.below).mpr ⟨nonempty, padding, short, spells⟩
    unfold decodeText
    rw [encode_map_base32Char spells.below, read]
    dsimp only
    have split : (payload ++ payloadChecksum sha256 payload).length - textChecksumLen =
        payload.length := by
      rw [List.length_append, sized, textChecksumLen, Nat.add_sub_cancel]
    rw [split, List.take_left' rfl, List.drop_left' rfl, if_neg, if_neg]
    · exact fun differs => differs rfl
    · rw [List.length_append, sized, textChecksumLen]
      omega

/-- Encoding the payload gives the text back unless a whole group of it is padding. -/
theorem encodeText_eq_iff {digits : List Nat} {payload : List UInt8} {padding : Nat}
    (short : padding < 8)
    (spells : Spells digits (payload ++ payloadChecksum sha256 payload) padding) :
    encodeText sha256 payload = digits.map base32Char ↔ padding < 5 := by
  obtain ⟨written, encodePadding, encoded, encodeSpells, few⟩ :=
    base32Encode_spells (payload ++ payloadChecksum sha256 payload)
  rw [encodeText, encoded]
  have lengths := spells.length_eq
  have encodeLengths := encodeSpells.length_eq
  constructor
  · intro same
    have equal := map_base32Char_inj encodeSpells.below spells.below same
    subst equal
    omega
  · intro small
    have samePadding : encodePadding = padding := by omega
    subst samePadding
    have equal := value_inj (by omega) encodeSpells.below spells.below
      (encodeSpells.value_eq.trans spells.value_eq.symm)
    rw [equal]

theorem decodeText_encodeText {ε : Type} {invalidEncoding tooShort checksumMismatch : ε}
    (payload : List UInt8) :
    decodeText invalidEncoding tooShort checksumMismatch sha256 (encodeText sha256 payload) =
      .ok payload := by
  obtain ⟨digits, padding, encoded, spells, few⟩ :=
    base32Encode_spells (payload ++ payloadChecksum sha256 payload)
  rw [decodeText_eq_ok_iff]
  exact ⟨digits, encoded, padding, by omega, spells⟩

/-- The lengths at which a whole group of the text can be padding. -/
def overlong (text : Utf8.Text) : Bool := text.length % 8 ∈ [1, 3, 6]

/-- An accepted text is the one the payload is encoded to exactly when its length is not of
the kind that leaves a whole group over. -/
theorem encodeText_of_decodeText {ε : Type} {invalidEncoding tooShort checksumMismatch : ε}
    {text : Utf8.Text} {payload : List UInt8}
    (accepted : decodeText invalidEncoding tooShort checksumMismatch sha256 text = .ok payload) :
    encodeText sha256 payload = text ↔ overlong text = false := by
  obtain ⟨digits, rfl, padding, short, spells⟩ := decodeText_eq_ok_iff.mp accepted
  have lengths := spells.length_eq
  rw [encodeText_eq_iff short spells, overlong, List.length_map, decide_eq_false_iff_not]
  have residue : padding = 5 * (digits.length % 8) % 8 := by omega
  have table : ∀ rest < 8, 5 * rest % 8 < 5 ↔ rest ∉ [1, 3, 6] := by decide
  rw [residue]
  exact table _ (Nat.mod_lt _ (by decide))

end Text

/-! ## The two copies -/

/-- The error of the backups' codec where the pairing codec has this one. -/
def asBackupError : PairingTransport.PairingTransportError → RecoveryBackup.BackupError
  | .wrongLength => .validation "text" "backup text form too short to hold a checksum"
  | .invalidEncoding => .textInvalidEncoding
  | .checksumMismatch => .textChecksumMismatch

section Errors

variable {ε ε' : Type} (rename : ε → ε') (invalidEncoding tooShort checksumMismatch : ε)

theorem decodeLoop_mapError (bytes : List UInt8) (state : DecodeState) :
    decodeLoop (rename invalidEncoding) bytes state =
      (decodeLoop invalidEncoding bytes state).mapError rename := by
  induction bytes generalizing state with
  | nil => rfl
  | cons c bytes ih =>
      have char : base32DecodeChar (rename invalidEncoding) c =
          (base32DecodeChar invalidEncoding c).mapError rename := by
        unfold base32DecodeChar
        split
        · rfl
        · split <;> rfl
      rw [decodeLoop, decodeLoop, char]
      cases base32DecodeChar invalidEncoding c with
      | error error => rfl
      | ok digit => exact ih _

theorem base32Decode_mapError (bytes : List UInt8) :
    base32Decode (rename invalidEncoding) bytes =
      (base32Decode invalidEncoding bytes).mapError rename := by
  unfold base32Decode
  rw [decodeLoop_mapError]
  split
  · rfl
  · cases decodeLoop invalidEncoding bytes ⟨0, 0, []⟩ with
    | error error => rfl
    | ok state =>
        simp only [Except.mapError]
        split <;> rfl

theorem decodeText_mapError (sha256 : Sha256) (text : Utf8.Text) :
    decodeText (rename invalidEncoding) (rename tooShort) (rename checksumMismatch) sha256 text =
      (decodeText invalidEncoding tooShort checksumMismatch sha256 text).mapError rename := by
  unfold decodeText
  rw [base32Decode_mapError]
  cases base32Decode invalidEncoding (Utf8.encode text) with
  | error error => rfl
  | ok decoded =>
      simp only [Except.mapError]
      split
      · rfl
      · split <;> rfl

end Errors

/-- Decoding undoes encoding, the two codecs agree on every input, and an accepted text is the
encoding of its payload exactly when its length is not that of a text with a spare group. -/
theorem text_codec_canonical_iff (sha256 : Sha256) (bytes : List UInt8) (text : Utf8.Text) :
    (PairingTransport.decodeTextWithChecksum sha256
        (PairingTransport.encodeTextWithChecksum sha256 bytes) = .ok bytes ∧
      RecoveryBackup.decodeText sha256 (RecoveryBackup.encodeText sha256 bytes) = .ok bytes) ∧
    (RecoveryBackup.base32Encode bytes = PairingTransport.base32Encode bytes ∧
      RecoveryBackup.base32Decode bytes =
        (PairingTransport.base32Decode bytes).mapError asBackupError ∧
      RecoveryBackup.encodeText sha256 bytes =
        PairingTransport.encodeTextWithChecksum sha256 bytes ∧
      RecoveryBackup.decodeText sha256 text =
        (PairingTransport.decodeTextWithChecksum sha256 text).mapError asBackupError) ∧
    (∀ payload, PairingTransport.decodeTextWithChecksum sha256 text = .ok payload →
      (PairingTransport.encodeTextWithChecksum sha256 payload = text ↔ overlong text = false)) ∧
    ∀ payload, RecoveryBackup.decodeText sha256 text = .ok payload →
      (RecoveryBackup.encodeText sha256 payload = text ↔ overlong text = false) := by
  refine ⟨⟨decodeText_encodeText bytes, decodeText_encodeText bytes⟩, ⟨rfl, ?_, rfl, ?_⟩, ?_, ?_⟩
  · exact base32Decode_mapError asBackupError .invalidEncoding bytes
  · exact decodeText_mapError asBackupError .invalidEncoding .wrongLength .checksumMismatch sha256
      text
  · exact fun _ accepted => encodeText_of_decodeText accepted
  · exact fun _ accepted => encodeText_of_decodeText accepted

namespace CodecSample

/-- The SHA-256 digest of the one byte zero. -/
def zeroDigest : Vector UInt8 32 :=
  ⟨#[0x6e, 0x34, 0x0b, 0x9c, 0xff, 0xb3, 0x7a, 0x98, 0x9c, 0xa5, 0x44, 0xe6, 0xbb, 0x78, 0x0a,
    0x2c, 0x78, 0x90, 0x1d, 0x3f, 0xb3, 0x37, 0x38, 0x76, 0x85, 0x11, 0xa3, 0x06, 0x17, 0xaf, 0xa0,
    0x1d], rfl⟩

/-- A digest function that is SHA-256 on that byte. -/
def digest : Sha256 := fun _ => zeroDigest

/-- The text of the payload, and the same with a digit more. -/
def canonical : Utf8.Text := ['a', 'b', 'x', 'd', 'i', 'c', '4', '4']

def extended : Utf8.Text := canonical ++ ['a']

end CodecSample

/-- Two texts decode to the same payload, and the longer one is not what it is encoded to. -/
theorem text_codec_two_texts :
    (PairingTransport.decodeTextWithChecksum CodecSample.digest CodecSample.canonical = .ok [0] ∧
      PairingTransport.decodeTextWithChecksum CodecSample.digest CodecSample.extended = .ok [0] ∧
      PairingTransport.encodeTextWithChecksum CodecSample.digest [0] ≠ CodecSample.extended) ∧
    RecoveryBackup.decodeText CodecSample.digest CodecSample.extended = .ok [0] ∧
    RecoveryBackup.encodeText CodecSample.digest [0] ≠ CodecSample.extended := by
  decide +kernel

end Pangolin.Core
