import Pangolin.Lib.Fallible
import Pangolin.Lib.Reader

/-!
# The outer header of a KeePass file

The header is read before anything about the file is authenticated: magic words, a version,
tagged fields up to an end tag, and for KDBX 4 a dictionary of parameters for the key
derivation.  Fields may come in any order and more than once; the last one counts.
-/

namespace Pangolin.Kdbx

open Reading

inductive KdbxError where
  | notKdbx
  | unsupportedVersion (major minor : Nat)
  | fileTooLarge (len max : Nat)
  | corruptHeader (reason : String)
  | corruptPayload (reason : String)
  | blockHmacMismatch
  | wrongCredentials
  | unsupportedCredential (reason : String)
  | unsupportedKdf (reason : String)
  | kdfParamsRejected (reason : String)
  | unsupportedCipher (reason : String)
  | xmlMalformed (reason : String)
  | tooManyEntries (limit : Nat)
  | inflatedTooLarge (limit : Nat)
  deriving Repr, DecidableEq

inductive KdbxFormat where
  | v3
  | v4
  deriving Repr, DecidableEq

inductive OuterCipher where
  | aes256Cbc
  | chaCha20
  deriving Repr, DecidableEq

inductive InnerStreamCipher where
  | none
  | salsa20
  | chaCha20
  deriving Repr, DecidableEq

/-- The parameters of the key derivation. -/
inductive Kdf where
  | aes (seed : List UInt8) (rounds : Nat)
  | argon2 (variant : Nat) (salt : List UInt8) (parallelism memoryKib iterations version : Nat)
  deriving Repr, DecidableEq

structure OuterHeader where
  format : KdbxFormat
  headerLen : Nat
  cipher : OuterCipher
  compressed : Bool
  masterSeed : List UInt8
  encryptionIv : List UInt8
  kdf : Kdf
  v3InnerStreamKey : Option (List UInt8)
  v3StreamStartBytes : Option (List UInt8)
  v3InnerStreamCipher : Option InnerStreamCipher
  rawHeader : List UInt8
  deriving Repr, DecidableEq

/-! ## Constants -/

def sig1 : Nat := 0x9AA2D903
def sig2Kp2 : Nat := 0xB54BFB67
def sig2Kp1 : Nat := 0xB54BFB65
def sig2Kp2Pre : Nat := 0xB54BFB66

def cipherAes256 : List UInt8 :=
  [0x31, 0xC1, 0xF2, 0xE6, 0xBF, 0x71, 0x43, 0x50, 0xBE, 0x58, 0x05, 0x21, 0x6A, 0xFC, 0x5A, 0xFF]
def cipherChaCha20 : List UInt8 :=
  [0xD6, 0x03, 0x8A, 0x2B, 0x8B, 0x6F, 0x4C, 0xB5, 0xA5, 0x24, 0x33, 0x9A, 0x31, 0xDB, 0xB5, 0x9A]
def cipherTwofish : List UInt8 :=
  [0xAD, 0x68, 0xF2, 0x9F, 0x57, 0x6F, 0x4B, 0xB9, 0xA3, 0x6A, 0xD4, 0x7A, 0xF9, 0x65, 0x34, 0x6C]

def kdfAes : List UInt8 :=
  [0xC9, 0xD9, 0xF3, 0x9A, 0x62, 0x8A, 0x44, 0x60, 0xBF, 0x74, 0x0D, 0x08, 0xC1, 0x8A, 0x4F, 0xEA]
def kdfArgon2d : List UInt8 :=
  [0xEF, 0x63, 0x6D, 0xDF, 0x8C, 0x29, 0x44, 0x4B, 0x91, 0xF7, 0xA9, 0xA4, 0x03, 0xE3, 0x0A, 0x0C]
def kdfArgon2id : List UInt8 :=
  [0x9E, 0x29, 0x8B, 0x19, 0x56, 0xDB, 0x47, 0x73, 0xB2, 0x3D, 0xFC, 0x3E, 0xC6, 0xF0, 0xA1, 0xE6]

/-- `MAX_HEADER_FIELD`. -/
def maxHeaderField : Nat := 2 ^ 20

/-- `MAX_VARIANT_ENTRIES`. -/
def maxVariantEntries : Nat := 64

/-- `MAX_VARIANT_VALUE`. -/
def maxVariantValue : Nat := 2 ^ 20

/-! ## The reader -/

abbrev HeaderReader := Reader KdbxError

namespace HeaderReader

def truncated : KdbxError := .corruptHeader "truncated"

def u8 : HeaderReader UInt8 := Reader.byte truncated

def take (count : Nat) : HeaderReader (List UInt8) := Reader.exactly truncated count

def u16 : HeaderReader Nat := do
  let bytes ← take 2
  return ofBytesLe bytes

def u32 : HeaderReader Nat := do
  let bytes ← take 4
  return ofBytesLe bytes

def fail {α : Type} (error : KdbxError) : HeaderReader α := fun _ => .error error

/-- A value that must have a length, as `try_into` checks it. -/
def sized (length : Nat) (reason : String) (data : List UInt8) : HeaderReader (List UInt8) :=
  if data.length = length then pure data else fail (.corruptHeader reason)

end HeaderReader

open HeaderReader

/-! ## The parameters of the key derivation -/

/-- The entries of the dictionary read so far. -/
structure VariantDict where
  uuid : Option (List UInt8) := none
  salt : Option (List UInt8) := none
  parallelism : Option Nat := none
  memory : Option Nat := none
  iterations : Option Nat := none
  version : Option Nat := none
  rounds : Option Nat := none
  count : Nat := 0
  deriving Repr, DecidableEq

/-- The key `$UUID`; the other keys are the letters `S`, `P`, `M`, `I`, `V` and `R`. -/
def uuidKey : List UInt8 := [0x24, 0x55, 0x55, 0x49, 0x44]

/-- A number as `{:#x}` shows it. -/
def hexText (number : Nat) : String := "0x" ++ String.ofList (Nat.toDigits 16 number)

/-- What an entry does to them.  A key of another type is passed over when its type is one
of the format's. -/
def VariantDict.insert (dict : VariantDict) (tag : UInt8) (key val : List UInt8) :
    HeaderReader VariantDict :=
  if key = uuidKey ∧ tag = 0x42 then do
    let uuid ← sized 16 "KDF UUID not 16 bytes" val
    return { dict with uuid := some uuid }
  else if key = [0x53] ∧ tag = 0x42 then
    return { dict with salt := some val }
  else if key = [0x50] ∧ tag = 0x04 then do
    let val ← sized 4 "VariantDict u32" val
    return { dict with parallelism := some (ofBytesLe val) }
  else if key = [0x4D] ∧ tag = 0x05 then do
    let val ← sized 8 "VariantDict u64" val
    return { dict with memory := some (ofBytesLe val) }
  else if key = [0x49] ∧ tag = 0x05 then do
    let val ← sized 8 "VariantDict u64" val
    return { dict with iterations := some (ofBytesLe val) }
  else if key = [0x56] ∧ tag = 0x04 then do
    let val ← sized 4 "VariantDict u32" val
    return { dict with version := some (ofBytesLe val) }
  else if key = [0x52] ∧ tag = 0x05 then do
    let val ← sized 8 "VariantDict u64" val
    return { dict with rounds := some (ofBytesLe val) }
  else if key = [0x52] ∧ tag = 0x04 then do
    let val ← sized 4 "VariantDict u32" val
    return { dict with rounds := some (ofBytesLe val) }
  else if [0x04, 0x05, 0x08, 0x0C, 0x0D, 0x18, 0x42].contains tag then
    return dict
  else
    fail (.corruptHeader ("unknown VariantDict type tag " ++ hexText tag.toNat))

/-- One turn of the loop over the dictionary. -/
def variantEntry (dict : VariantDict) : HeaderReader (VariantDict ⊕ VariantDict) := do
  let tag ← u8
  if tag = 0 then
    return .inr dict
  else
    let dict := { dict with count := dict.count + 1 }
    if maxVariantEntries < dict.count then
      fail (.corruptHeader "VariantDict too large")
    else
      let keyLen ← u32
      if 256 < keyLen then
        fail (.corruptHeader "VariantDict key too long")
      else
        let key ← take keyLen
        let valLen ← u32
        if maxVariantValue < valLen then
          fail (.corruptHeader "VariantDict value too large")
        else
          let val ← take valLen
          let dict ← dict.insert tag key val
          return .inl dict

/-- A required value. -/
def required {α : Type} (reason : String) (value : Option α) : Except KdbxError α :=
  match value with
  | none => .error (.corruptHeader reason)
  | some value => .ok value

/-- `u64::saturating_mul`. -/
def saturatingMul (first second : Nat) : Nat := min (first * second) (2 ^ 64 - 1)

/-- The checks after the loop of `parse_kdf_variant_dict`. -/
def resolveKdf (dict : VariantDict) : Except KdbxError Kdf := do
  let uuid ← required "KDF $UUID missing" dict.uuid
  if uuid = kdfAes then
    let rounds ← required "AES-KDF rounds missing" dict.rounds
    let seed ← required "AES-KDF seed missing" dict.salt
    if seed.length ≠ 32 then
      .error (.corruptHeader "AES-KDF seed not 32 bytes")
    else if 100000000 < rounds then
      .error (.kdfParamsRejected s!"AES-KDF rounds {rounds} too large")
    else
      return .aes seed rounds
  else if uuid = kdfArgon2d ∨ uuid = kdfArgon2id then
    let variant := if uuid = kdfArgon2d then 0 else 2
    let salt ← required "Argon2 salt missing" dict.salt
    let parallelism ← required "Argon2 P missing" dict.parallelism
    let memory ← required "Argon2 M missing" dict.memory
    let iterations ← required "Argon2 I missing" dict.iterations
    let version := dict.version.getD 0x13
    let memoryKib := memory / 1024
    if version ≠ 0x10 ∧ version ≠ 0x13 then
      .error (.kdfParamsRejected ("Argon2 version " ++ hexText version ++ " not recognised"))
    else if memory % 1024 ≠ 0 then
      .error (.corruptHeader "Argon2 M not KiB-aligned")
    else if ¬ (8 ≤ memoryKib ∧ memoryKib ≤ 1024 * 1024) then
      .error (.kdfParamsRejected s!"Argon2 memory {memory} bytes out of range")
    else if iterations = 0 ∨ 64 < iterations then
      .error (.kdfParamsRejected s!"Argon2 iterations {iterations} out of range")
    else if parallelism = 0 ∨ 8 < parallelism then
      .error (.kdfParamsRejected s!"Argon2 parallelism {parallelism} out of range")
    else if 4 * 1024 * 1024 < saturatingMul iterations memoryKib then
      .error (.kdfParamsRejected
        s!"Argon2 work factor too large (iterations {iterations} × memory {memoryKib} KiB)")
    else if salt.length < 8 ∨ 64 < salt.length then
      .error (.corruptHeader "Argon2 salt length out of range")
    else
      return .argon2 variant salt parallelism (memoryKib % 2 ^ 32) iterations version
  else
    .error (.unsupportedKdf "unknown KDF UUID")

/-- `parse_kdf_variant_dict`. -/
def parseKdfVariantDict (buf : List UInt8) : Except KdbxError Kdf := do
  let (_, entries) ← u16 buf
  let (dict, _) ← Reader.repeatUntil truncated variantEntry (buf.length + 1) {} entries
  resolveKdf dict

/-! ## The header -/

/-- The fields read so far. -/
structure HeaderFields where
  cipher : Option OuterCipher := none
  compressed : Option Bool := none
  masterSeed : Option (List UInt8) := none
  transformSeed : Option (List UInt8) := none
  transformRounds : Option Nat := none
  encryptionIv : Option (List UInt8) := none
  v3InnerStreamKey : Option (List UInt8) := none
  v3StreamStartBytes : Option (List UInt8) := none
  v3InnerStreamCipher : Option InnerStreamCipher := none
  kdfVariantDict : Option (List UInt8) := none
  deriving Repr, DecidableEq

/-- `InnerStreamCipher::from_id`. -/
def InnerStreamCipher.fromId (id : Nat) : HeaderReader InnerStreamCipher :=
  if id = 0 then pure .none
  else if id = 1 then fail (.corruptPayload "obsolete inner stream cipher")
  else if id = 2 then pure .salsa20
  else if id = 3 then pure .chaCha20
  else fail (.corruptPayload s!"unknown inner stream cipher id {id}")

/-- What a field does to them; an unknown field is passed over. -/
def HeaderFields.insert (fields : HeaderFields) (id : Nat) (data : List UInt8) :
    HeaderReader HeaderFields :=
  match id with
  | 2 => do
      let uuid ← sized 16 "cipher uuid not 16 bytes" data
      if uuid = cipherAes256 then
        return { fields with cipher := some .aes256Cbc }
      else if uuid = cipherChaCha20 then
        return { fields with cipher := some .chaCha20 }
      else if uuid = cipherTwofish then
        fail (.unsupportedCipher "TwoFish")
      else
        fail (.unsupportedCipher "unknown cipher UUID")
  | 3 => do
      let flag ← sized 4 "compression flag" data
      if ofBytesLe flag = 0 then
        return { fields with compressed := some false }
      else if ofBytesLe flag = 1 then
        return { fields with compressed := some true }
      else
        fail (.corruptHeader "unknown compression flag")
  | 4 => do
      let seed ← sized 32 "master seed not 32 bytes" data
      return { fields with masterSeed := some seed }
  | 5 => do
      let seed ← sized 32 "transform seed not 32" data
      return { fields with transformSeed := some seed }
  | 6 => do
      let rounds ← sized 8 "transform rounds not 8 bytes" data
      return { fields with transformRounds := some (ofBytesLe rounds) }
  | 7 => return { fields with encryptionIv := some data }
  | 8 => return { fields with v3InnerStreamKey := some data }
  | 9 => return { fields with v3StreamStartBytes := some data }
  | 10 => do
      let id ← sized 4 "inner stream id not 4 bytes" data
      let cipher ← InnerStreamCipher.fromId (ofBytesLe id)
      return { fields with v3InnerStreamCipher := some cipher }
  | 11 => return { fields with kdfVariantDict := some data }
  | _ => return fields

/-- A field's length, two bytes in KDBX 3 and four in KDBX 4. -/
def fieldLen : KdbxFormat → HeaderReader Nat
  | .v3 => u16
  | .v4 => u32

/-- One turn of the loop over the fields. -/
def headerField (format : KdbxFormat) (fields : HeaderFields) :
    HeaderReader (HeaderFields ⊕ HeaderFields) := do
  let id ← u8
  let len ← fieldLen format
  if maxHeaderField < len then
    fail (.corruptHeader s!"header field {id} length {len} too large")
  else
    let data ← take len
    if id = 0 then
      return .inr fields
    else
      let fields ← fields.insert id.toNat data
      return .inl fields

/-- The key derivation of a header. -/
def headerKdf (format : KdbxFormat) (fields : HeaderFields) : Except KdbxError Kdf :=
  match format with
  | .v3 => do
      let seed ← required "missing transform seed" fields.transformSeed
      let rounds ← required "missing transform rounds" fields.transformRounds
      if 100000000 < rounds then
        .error (.kdfParamsRejected s!"AES-KDF rounds {rounds} too large")
      else
        return .aes seed rounds
  | .v4 => do
      let dict ← required "missing KDF parameters" fields.kdfVariantDict
      parseKdfVariantDict dict

/-- The magic words and the version. -/
def magic : HeaderReader KdbxFormat := do
  let first ← u32
  let second ← u32
  if first ≠ sig1 then
    fail .notKdbx
  else if second = sig2Kp1 then
    fail (.unsupportedVersion 1 0)
  else if second = sig2Kp2Pre then
    fail (.unsupportedVersion 2 0)
  else if second ≠ sig2Kp2 then
    fail .notKdbx
  else
    let minor ← u16
    let major ← u16
    if major = 3 then pure .v3
    else if major = 4 then pure .v4
    else fail (.unsupportedVersion major minor)

/-- `parse_outer_header`. -/
def parseOuterHeader (buf : List UInt8) : Except KdbxError OuterHeader := do
  let (format, afterMagic) ← magic buf
  let (fields, rest) ←
    Reader.repeatUntil truncated (headerField format) (buf.length + 1) {} afterMagic
  let headerLen := buf.length - rest.length
  let rawHeader := buf.take headerLen
  let cipher ← required "missing cipher id" fields.cipher
  let compressed ← required "missing compression flag" fields.compressed
  let masterSeed ← required "missing master seed" fields.masterSeed
  let encryptionIv ← required "missing encryption IV" fields.encryptionIv
  let kdf ← headerKdf format fields
  if cipher = .aes256Cbc ∧ encryptionIv.length ≠ 16 then
    .error (.corruptHeader "AES-CBC IV not 16 bytes")
  else if cipher = .chaCha20 ∧ encryptionIv.length ≠ 12 then
    .error (.corruptHeader "ChaCha20 IV not 12 bytes")
  else
    return {
      format, headerLen, cipher, compressed, masterSeed, encryptionIv, kdf
      v3InnerStreamKey := fields.v3InnerStreamKey
      v3StreamStartBytes := fields.v3StreamStartBytes
      v3InnerStreamCipher := fields.v3InnerStreamCipher
      rawHeader }

/-! ## What a header that parses asks of the key derivation -/

/-- The documented bounds. -/
def Kdf.Clamped : Kdf → Prop
  | .aes _ rounds => rounds ≤ 100000000
  | .argon2 _ _ parallelism memoryKib iterations _ =>
      8 ≤ memoryKib ∧ memoryKib ≤ 2 ^ 20 ∧ 1 ≤ iterations ∧ iterations ≤ 64 ∧
        1 ≤ parallelism ∧ parallelism ≤ 8 ∧ iterations * memoryKib ≤ 4 * 2 ^ 20

theorem resolveKdf_clamped {dict : VariantDict} {kdf : Kdf}
    (resolved : resolveKdf dict = .ok kdf) : kdf.Clamped := by
  obtain ⟨uuid, -, resolved⟩ := Fallible.bind_eq_ok_iff.mp resolved
  split at resolved
  · obtain ⟨rounds, -, resolved⟩ := Fallible.bind_eq_ok_iff.mp resolved
    obtain ⟨seed, -, resolved⟩ := Fallible.bind_eq_ok_iff.mp resolved
    split at resolved
    · cases resolved
    split at resolved
    · cases resolved
    · next few =>
        obtain rfl := Except.ok.inj resolved
        exact Nat.not_lt.mp few
  split at resolved
  · simp only at resolved
    obtain ⟨salt, -, resolved⟩ := Fallible.bind_eq_ok_iff.mp resolved
    obtain ⟨parallelism, -, resolved⟩ := Fallible.bind_eq_ok_iff.mp resolved
    obtain ⟨memory, -, resolved⟩ := Fallible.bind_eq_ok_iff.mp resolved
    obtain ⟨iterations, -, resolved⟩ := Fallible.bind_eq_ok_iff.mp resolved
    split at resolved
    · cases resolved
    split at resolved
    · cases resolved
    split at resolved
    · cases resolved
    next memoryRange =>
    split at resolved
    · cases resolved
    next iterationRange =>
    split at resolved
    · cases resolved
    next lanes =>
    split at resolved
    · cases resolved
    next work =>
    split at resolved
    · cases resolved
    · obtain rfl := Except.ok.inj resolved
      -- No product of the clamped values saturates, and the cast keeps the memory.
      have product : iterations * (memory / 1024) ≤ 64 * 2 ^ 20 :=
        Nat.mul_le_mul (by omega) (by omega)
      have unsaturated : saturatingMul iterations (memory / 1024) =
          iterations * (memory / 1024) := Nat.min_eq_left (by omega)
      have kept : memory / 1024 % 2 ^ 32 = memory / 1024 := Nat.mod_eq_of_lt (by omega)
      rw [unsaturated] at work
      unfold Kdf.Clamped
      simp only [kept]
      omega
  · cases resolved

/-- Every header that parses has clamped parameters. -/
theorem parseOuterHeader_clamped {buf : List UInt8} {header : OuterHeader}
    (parsed : parseOuterHeader buf = .ok header) : header.kdf.Clamped := by
  obtain ⟨⟨format, afterMagic⟩, -, parsed⟩ := Fallible.bind_eq_ok_iff.mp parsed
  obtain ⟨⟨fields, rest⟩, -, parsed⟩ := Fallible.bind_eq_ok_iff.mp parsed
  obtain ⟨cipher, -, parsed⟩ := Fallible.bind_eq_ok_iff.mp parsed
  obtain ⟨compressed, -, parsed⟩ := Fallible.bind_eq_ok_iff.mp parsed
  obtain ⟨masterSeed, -, parsed⟩ := Fallible.bind_eq_ok_iff.mp parsed
  obtain ⟨encryptionIv, -, parsed⟩ := Fallible.bind_eq_ok_iff.mp parsed
  obtain ⟨kdf, derived, parsed⟩ := Fallible.bind_eq_ok_iff.mp parsed
  have clamped : kdf.Clamped := by
    cases format with
    | v3 =>
        obtain ⟨seed, -, derived⟩ := Fallible.bind_eq_ok_iff.mp derived
        obtain ⟨rounds, -, derived⟩ := Fallible.bind_eq_ok_iff.mp derived
        split at derived
        · cases derived
        · next few =>
            obtain rfl := Except.ok.inj derived
            exact Nat.not_lt.mp few
    | v4 =>
        obtain ⟨dict, -, derived⟩ := Fallible.bind_eq_ok_iff.mp derived
        obtain ⟨⟨_, entries⟩, -, derived⟩ := Fallible.bind_eq_ok_iff.mp derived
        obtain ⟨⟨read, _⟩, -, derived⟩ := Fallible.bind_eq_ok_iff.mp derived
        exact resolveKdf_clamped derived
  split at parsed
  · cases parsed
  split at parsed
  · cases parsed
  · obtain rfl := Except.ok.inj parsed
    exact clamped

/-! ## The loops end -/

theorem local_u16 : Local u16 := (Local.exactly _ 2).bind fun _ => .pure _

theorem local_u32 : Local u32 := (Local.exactly _ 4).bind fun _ => .pure _

theorem local_sized (length : Nat) (reason : String) (data : List UInt8) :
    Local (sized length reason data) :=
  .ite (fun _ => .pure data) fun _ => .fail _

theorem InnerStreamCipher.local_fromId (id : Nat) : Local (InnerStreamCipher.fromId id) := by
  unfold InnerStreamCipher.fromId
  repeat' apply Local.ite <;> intro _
  all_goals first
    | exact .pure _
    | exact .fail _

theorem HeaderFields.local_insert (fields : HeaderFields) (id : Nat) (data : List UInt8) :
    Local (fields.insert id data) := by
  unfold HeaderFields.insert
  split
  · apply (local_sized _ _ _).bind
    intro uuid
    repeat' apply Local.ite <;> intro _
    all_goals first
      | exact .pure _
      | exact .fail _
  · apply (local_sized _ _ _).bind
    intro flag
    repeat' apply Local.ite <;> intro _
    all_goals first
      | exact .pure _
      | exact .fail _
  · exact (local_sized _ _ _).bind fun _ => .pure _
  · exact (local_sized _ _ _).bind fun _ => .pure _
  · exact (local_sized _ _ _).bind fun _ => .pure _
  · exact .pure _
  · exact .pure _
  · exact .pure _
  · apply (local_sized _ _ _).bind
    intro id
    exact (InnerStreamCipher.local_fromId _).bind fun _ => .pure _
  · exact .pure _
  · exact .pure _

theorem VariantDict.local_insert (dict : VariantDict) (tag : UInt8) (key val : List UInt8) :
    Local (dict.insert tag key val) := by
  unfold VariantDict.insert
  repeat' apply Local.ite <;> intro _
  all_goals first
    | exact .pure _
    | exact .fail _
    | exact (local_sized _ _ _).bind fun _ => .pure _

/-- Each field takes at least its tag. -/
theorem headerField_consumes (format : KdbxFormat) (fields : HeaderFields) (bytes : List UInt8)
    (next : HeaderFields) (rest : List UInt8)
    (stepped : headerField format fields bytes = .ok (.inl next, rest)) :
    rest.length + 1 ≤ bytes.length := by
  refine Local.length_lt ?_ stepped
  intro id
  apply Local.bind
  · cases format with
    | v3 => exact local_u16
    | v4 => exact local_u32
  · intro len
    apply Local.ite
    · intro _
      exact .fail _
    · intro _
      apply (Local.exactly _ len).bind
      intro data
      apply Local.ite
      · intro _
        exact .pure _
      · intro _
        exact (HeaderFields.local_insert _ _ _).bind fun _ => .pure _

theorem variantEntry_consumes (dict : VariantDict) (bytes : List UInt8) (next : VariantDict)
    (rest : List UInt8) (stepped : variantEntry dict bytes = .ok (.inl next, rest)) :
    rest.length + 1 ≤ bytes.length := by
  refine Local.length_lt ?_ stepped
  intro tag
  apply Local.ite
  · intro _
    exact .pure _
  intro _
  apply Local.ite
  · intro _
    exact .fail _
  intro _
  apply local_u32.bind
  intro keyLen
  apply Local.ite
  · intro _
    exact .fail _
  intro _
  apply (Local.exactly _ keyLen).bind
  intro key
  apply local_u32.bind
  intro valLen
  apply Local.ite
  · intro _
    exact .fail _
  intro _
  apply (Local.exactly _ valLen).bind
  intro val
  exact (VariantDict.local_insert _ _ _ _).bind fun _ => .pure _

/-- Neither loop uses up its rounds: more of them, or another error for that case, change
nothing. -/
theorem header_loops_end (stuck : KdbxError) {rounds : Nat} {bytes : List UInt8}
    (enough : bytes.length < rounds) :
    (∀ format fields, Reader.repeatUntil stuck (headerField format) rounds fields bytes =
        Reader.repeatUntil truncated (headerField format) (bytes.length + 1) fields bytes) ∧
      ∀ dict, Reader.repeatUntil stuck variantEntry rounds dict bytes =
        Reader.repeatUntil truncated variantEntry (bytes.length + 1) dict bytes := by
  have enough' : bytes.length / 1 < rounds := by rwa [Nat.div_one]
  have inTime : bytes.length / 1 < bytes.length + 1 := by
    rw [Nat.div_one]
    exact Nat.lt_succ_self _
  constructor
  · intro format fields
    exact Reader.repeatUntil_eq Nat.one_pos (headerField_consumes format) _ _ fields enough' inTime
  · intro dict
    exact Reader.repeatUntil_eq Nat.one_pos variantEntry_consumes _ _ dict enough' inTime

end Pangolin.Kdbx
