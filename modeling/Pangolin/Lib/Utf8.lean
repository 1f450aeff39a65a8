import Mathlib.Data.List.Basic

/-!
# Text and its UTF-8 bytes

A text is a list of Unicode scalar values.  Writing it as UTF-8 and reading the bytes back
gives the text; reading bytes that are not UTF-8 puts a replacement character for each
maximal ill-formed piece, as the Unicode standard recommends.
-/

namespace Utf8

abbrev Text := List Char

/-- The UTF-8 bytes of a text. -/
def encode (text : Text) : List UInt8 := text.flatMap String.utf8EncodeChar

/-- U+FFFD. -/
def replacement : Char := Char.ofNat 0xFFFD

def isContinuation (byte : UInt8) : Bool := 0x80 ≤ byte && byte ≤ 0xBF

/-- The second bytes a three- or four-byte lead allows. -/
def secondAllowed (lead second : UInt8) : Bool :=
  if lead = 0xE0 then 0xA0 ≤ second && second ≤ 0xBF
  else if lead = 0xED then 0x80 ≤ second && second ≤ 0x9F
  else if 0xE1 ≤ lead && lead ≤ 0xEF then isContinuation second
  else if lead = 0xF0 then 0x90 ≤ second && second ≤ 0xBF
  else if 0xF1 ≤ lead && lead ≤ 0xF3 then isContinuation second
  else if lead = 0xF4 then 0x80 ≤ second && second ≤ 0x8F
  else false

/-- The length of the maximal ill-formed piece at the start of bytes that do not start
with a character. -/
def invalidLength : List UInt8 → Nat
  | lead :: second :: third :: _ =>
      if secondAllowed lead second then
        if 0xF0 ≤ lead && isContinuation third then 3 else 2
      else
        1
  | [lead, second] => if secondAllowed lead second then 2 else 1
  | _ => 1

/-- The loop of `decodeLossy`; every turn takes a byte at least. -/
def decodeLossyLoop : Nat → List UInt8 → Text
  | 0, _ => []
  | _ + 1, [] => []
  | turns + 1, bytes =>
      match bytes.toByteArray.utf8DecodeChar? 0 with
      | some char => char :: decodeLossyLoop turns (bytes.drop char.utf8Size)
      | none => replacement :: decodeLossyLoop turns (bytes.drop (invalidLength bytes))

/-- Read bytes as UTF-8, with replacement characters for what is not. -/
def decodeLossy (bytes : List UInt8) : Text := decodeLossyLoop bytes.length bytes

theorem utf8DecodeChar?_encode_cons (char : Char) (text : Text) :
    (encode (char :: text)).toByteArray.utf8DecodeChar? 0 = some char :=
  List.utf8DecodeChar?_utf8Encode_cons

/-- Enough turns read a text back. -/
theorem decodeLossyLoop_encode (text : Text) :
    ∀ turns, (encode text).length ≤ turns → decodeLossyLoop turns (encode text) = text := by
  induction text with
  | nil =>
      intro turns _
      cases turns <;> rfl
  | cons char text ih =>
      intro turns enough
      have bytes : encode (char :: text) = String.utf8EncodeChar char ++ encode text := rfl
      have size : (String.utf8EncodeChar char).length = char.utf8Size :=
        String.length_utf8EncodeChar char
      have positive : 0 < char.utf8Size := Char.utf8Size_pos char
      rw [bytes, List.length_append, size] at enough
      cases turns with
      | zero => omega
      | succ turns =>
          obtain ⟨first, rest, starts⟩ : ∃ first rest, encode (char :: text) = first :: rest := by
            apply List.exists_cons_of_length_pos
            rw [bytes, List.length_append, size]
            omega
          have decoded := utf8DecodeChar?_encode_cons char text
          have remaining : (encode (char :: text)).drop char.utf8Size = encode text := by
            rw [bytes, ← size, List.drop_left]
          rw [starts] at decoded remaining ⊢
          simp only [decodeLossyLoop, decoded, remaining]
          rw [ih turns (by omega)]

/-- What was written as UTF-8 reads back. -/
@[simp] theorem decodeLossy_encode (text : Text) : decodeLossy (encode text) = text :=
  decodeLossyLoop_encode text _ (Nat.le_refl _)

/-- Read bytes as UTF-8 or refuse them. -/
def decode? (bytes : List UInt8) : Option Text :=
  let text := decodeLossy bytes
  if encode text = bytes then some text else none

@[simp] theorem decode?_encode (text : Text) : decode? (encode text) = some text := by
  simp [decode?]

/-- Bytes that are read are those of the text. -/
theorem eq_encode_of_decode? {bytes : List UInt8} {text : Text}
    (decoded : decode? bytes = some text) : bytes = encode text := by
  simp only [decode?] at decoded
  split at decoded
  · next same =>
      rw [← Option.some.inj decoded]
      exact same.symm
  · cases decoded

/-- ASCII characters are one byte each. -/
theorem encode_ascii {text : Text} (ascii : ∀ char ∈ text, char.toNat < 128) :
    encode text = text.map fun char => char.val.toUInt8 := by
  induction text with
  | nil => rfl
  | cons char text ih =>
      have small : char.val ≤ 127 := by
        have below := ascii char List.mem_cons_self
        exact UInt32.le_iff_toNat_le.mpr (Nat.le_of_lt_succ below)
      have single : String.utf8EncodeChar char = [char.val.toUInt8] :=
        String.utf8EncodeChar_eq_singleton (Char.utf8Size_eq_one_iff.mpr small)
      rw [encode, List.flatMap_cons, single, ← encode,
        ih fun other member => ascii other (List.mem_cons_of_mem _ member)]
      rfl

end Utf8
