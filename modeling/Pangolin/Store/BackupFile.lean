import Pangolin.Store.ArchiveBytes
import Pangolin.Store.SeedPhrase

/-!
# The recovery backup file

A backup is a CBOR body sealed under a seed phrase, between a header of fixed length and a
short digest; it is kept as bytes or as checksummed text.  The sealer checks that there is
one sealing key for each guardian.  The opener checks more than that, and its checks decide
which backups open again.
-/

namespace Pangolin.Store.RecoveryBackup

open Symbolic Crypto Cbor Reading Pangolin.Core

/-- The contents of a backup. -/
structure BackupContents where
  wrappedRecovery : List UInt8
  vaultId : Vector UInt8 32
  epoch : UInt64
  threshold : UInt8
  guardianCount : UInt8
  guardianX25519Pubs : List (Vector UInt8 32)
  sealedShares : List (List UInt8)
  guardianEvmAddrs : List (Vector UInt8 20)
  vaultDisplayName : String
  createdAtUnix : UInt64
  deriving Repr, DecidableEq

/-! ## The outer header -/

/-- `SCHEMA_VERSION`. -/
def schemaVersion : Nat := 3

/-- `DOMAIN`: "pangolin-recovery-backup-v0" and a zero byte. -/
def domain : List UInt8 :=
  [0x70, 0x61, 0x6e, 0x67, 0x6f, 0x6c, 0x69, 0x6e, 0x2d, 0x72, 0x65, 0x63, 0x6f, 0x76, 0x65,
    0x72, 0x79, 0x2d, 0x62, 0x61, 0x63, 0x6b, 0x75, 0x70, 0x2d, 0x76, 0x30, 0x00]

/-- `KDF_ALGO_ARGON2ID`. -/
def kdfAlgoArgon2id : Nat := 1

/-- `INTEGRITY_HASH_LEN`. -/
def integrityHashLen : Nat := 4

/-- `MAX_CIPHERTEXT_LEN`. -/
def maxCiphertextLen : Nat := 16 * 1024 * 1024

/-- `OUTER_HEADER_LEN`. -/
def outerHeaderLen : Nat := domain.length + 1 + 1 + 4 + 4 + 4 + saltLen + nonceLen + 8

structure OuterHeader where
  schemaVersion : Nat
  kdfAlgoId : Nat
  kdfParams : KdfParams
  salt : KdfSalt
  nonce : Nonce
  ctLen : Nat
  deriving Repr, DecidableEq

/-- `integrity_hash`. -/
def integrityHash (sha256 : Sha256) (bytes : List UInt8) : List UInt8 :=
  payloadChecksum sha256 bytes

def writeOuterHeader (kdfParams : KdfParams) (salt : KdfSalt) (nonce : Nonce) (ctLen : Nat) :
    List UInt8 :=
  domain ++ (toBytes 1 schemaVersion ++ (toBytes 1 kdfAlgoArgon2id ++
    (toBytes 4 kdfParams.memoryKib ++ (toBytes 4 kdfParams.timeCost ++
      (toBytes 4 kdfParams.parallelism ++ (toBytes saltLen salt.raw ++
        (toBytes nonceLen nonce.raw ++ toBytes 8 ctLen)))))))

abbrev Dec (α : Type) := Reader BackupError α

def argumentErr (message : String) : BackupError := .validation "argument" message

def backupTooShort (length : Nat) : BackupError :=
  argumentErr ("backup too short: need at least " ++ toString (outerHeaderLen + integrityHashLen) ++
    " bytes (got " ++ toString length ++ ")")

/-- The first parameter that is out of the range the opener accepts. -/
def outOfRange (params : KdfParams) : Option BackupError :=
  if 1024 * 1024 < params.memoryKib then some (.kdfParamOutOfRange "memory_kib" params.memoryKib)
  else if 8 < params.timeCost then some (.kdfParamOutOfRange "time_cost" params.timeCost)
  else if 8 < params.parallelism then some (.kdfParamOutOfRange "parallelism" params.parallelism)
  else if 3 * 1024 * 1024 < params.memoryKib * params.timeCost then
    some (.kdfParamOutOfRange "memory_time_product" (params.memoryKib * params.timeCost))
  else none

/-- The clamp on the parameters. -/
def clampKdf (params : KdfParams) : Dec Unit :=
  match outOfRange params with
  | some error => throw error
  | none => pure ()

/-- The fields of the header, each checked where it is read; `short` is for a header that is
not all there. -/
def outerFields (short : BackupError) : Dec OuterHeader := do
  let found ← Reader.exactly short domain.length
  if found ≠ domain then throw (argumentErr "backup domain prefix mismatch")
  else do
    let version ← Reader.number short 1
    if version ≠ schemaVersion then throw (.unknownSchemaVersion version schemaVersion)
    else do
      let kdfAlgoId ← Reader.number short 1
      if kdfAlgoId ≠ kdfAlgoArgon2id then
        throw (argumentErr ("unsupported backup KDF algorithm: " ++ toString kdfAlgoId))
      else do
        let memoryKib ← Reader.number short 4
        let timeCost ← Reader.number short 4
        let parallelism ← Reader.number short 4
        clampKdf ⟨memoryKib, timeCost, parallelism⟩
        let salt ← Reader.number short saltLen
        let nonce ← Reader.number short nonceLen
        let ctLen ← Reader.number short 8
        if maxCiphertextLen < ctLen then
          throw (argumentErr "backup ciphertext length exceeds the maximum")
        else
          return ⟨version, kdfAlgoId, ⟨memoryKib, timeCost, parallelism⟩, ⟨salt⟩, ⟨nonce⟩, ctLen⟩

/-- `parse_outer_header`: the header and the ciphertext between it and the digest. -/
def parseOuterHeader (sha256 : Sha256) (bytes : List UInt8) :
    Except BackupError (OuterHeader × List UInt8) :=
  if bytes.length < outerHeaderLen + integrityHashLen then
    .error (backupTooShort bytes.length)
  else do
    let (header, rest) ← outerFields (backupTooShort bytes.length) bytes
    let expectedTotal := outerHeaderLen + header.ctLen + integrityHashLen
    if bytes.length ≠ expectedTotal then
      .error (argumentErr ("backup length mismatch: expected " ++ toString expectedTotal ++
        " bytes, got " ++ toString bytes.length))
    else
      let hashed := bytes.take (bytes.length - integrityHashLen)
      let trailing := bytes.drop (bytes.length - integrityHashLen)
      if trailing ≠ integrityHash sha256 hashed then
        .error .integrityFailed
      else
        .ok (header, rest.take header.ctLen)

/-! ## The body -/

section

variable (codec : HeaderCodec)

/-- `encode_body`. -/
def encodeBody (contents : BackupContents) : List UInt8 :=
  putArray codec 11 ++ (putBytes codec contents.wrappedRecovery ++
    (putBytes codec contents.vaultId.toList ++ (putUint codec contents.epoch.toNat ++
      (putUint codec contents.threshold.toNat ++ (putUint codec contents.guardianCount.toNat ++
        ((putArray codec contents.guardianX25519Pubs.length ++
            contents.guardianX25519Pubs.flatMap fun pk => putBytes codec pk.toList) ++
          ((putArray codec contents.sealedShares.length ++
              contents.sealedShares.flatMap (putBytes codec)) ++
            ((putArray codec contents.guardianEvmAddrs.length ++
                contents.guardianEvmAddrs.flatMap fun addr => putBytes codec addr.toList) ++
              (putText codec contents.vaultDisplayName ++
                (putUint codec contents.createdAtUnix.toNat ++
                  putUint codec schemaVersion))))))))))

def cborErr (message : String) : BackupError := .validation "cbor" message

def pull : Dec Header := fun bytes =>
  match codec.pull bytes with
  | some pulled => .ok pulled
  | none => .error (cborErr "malformed backup CBOR")

def expectArray (want : Nat) : Dec Unit := do
  match ← pull codec with
  | .array (some length) =>
      if length = want then pure ()
      else throw (cborErr "backup CBOR: unexpected array shape")
  | _ => throw (cborErr "backup CBOR: unexpected array shape")

def pullUint : Dec Nat := do
  match ← pull codec with
  | .positive value => pure value
  | _ => throw (cborErr "backup CBOR: expected unsigned integer")

def pullArrayLen : Dec Nat := do
  match ← pull codec with
  | .array (some length) => pure length
  | _ => throw (cborErr "backup CBOR: expected definite-length array")

/-- `MAX_WRAPPED_RECOVERY_LEN`. -/
def maxWrappedRecoveryLen : Nat := 64 * 1024

/-- `MAX_SEALED_SHARE_LEN`. -/
def maxSealedShareLen : Nat := 1024

/-- `MAX_DISPLAY_NAME_LEN`. -/
def maxDisplayNameLen : Nat := 4 * 1024

/-- `MAX_GUARDIAN_COUNT_DECODE`. -/
def maxGuardianCountDecode : Nat := 256

def tooLong (what : String) (length cap : Nat) : BackupError :=
  cborErr ("backup CBOR: " ++ what ++ " too long (" ++ toString length ++ " > " ++ toString cap ++
    ")")

def pullBytesCapped (cap : Nat) (what : String) : Dec (List UInt8) := do
  match ← pull codec with
  | .bytes (some length) =>
      if cap < length then throw (tooLong what length cap)
      else Reader.exactly (cborErr ("backup CBOR: truncated " ++ what)) length
  | _ => throw (cborErr ("backup CBOR: expected byte string (" ++ what ++ ")"))

def pullBytesExact (size : Nat) (what : String) : Dec (Vector UInt8 size) := do
  let bytes ← pullBytesCapped codec size what
  if sized : bytes.length = size then pure ⟨bytes.toArray, sized⟩
  else throw (cborErr ("backup CBOR: " ++ what ++ " wrong length"))

def pullTextCapped (cap : Nat) (what : String) : Dec String := do
  match ← pull codec with
  | .text (some length) =>
      if cap < length then throw (tooLong what length cap)
      else do
        let bytes ← Reader.exactly (cborErr ("backup CBOR: truncated " ++ what)) length
        match Utf8.decode? bytes with
        | some text => pure (String.ofList text)
        | none => throw (cborErr ("backup CBOR: invalid UTF-8 in " ++ what))
  | _ => throw (cborErr ("backup CBOR: expected text string (" ++ what ++ ")"))

/-- A number that must fit a byte. -/
def pullU8 (message : String) : Dec UInt8 := do
  let value ← pullUint codec
  if value < 2 ^ 8 then pure (UInt8.ofNat value) else throw (cborErr message)

/-- An array with one item for each guardian. -/
def pullPerGuardian {α : Type} (guardianCount : UInt8) (what : String) (item : Dec α) :
    Dec (List α) := do
  let length ← pullArrayLen codec
  if length ≠ guardianCount.toNat then
    throw (cborErr ("backup CBOR: guardian_count (" ++ toString guardianCount ++ ") ≠ " ++ what ++
      " array length (" ++ toString length ++ ")"))
  else
    item.times length

/-- The array of the sealing keys, whose length is capped besides. -/
def pullGuardianPubs (guardianCount : UInt8) : Dec (List (Vector UInt8 32)) := do
  let length ← pullArrayLen codec
  if maxGuardianCountDecode < length then
    throw (cborErr ("backup CBOR: too many guardian pubkeys (" ++ toString length ++ " > " ++
      toString maxGuardianCountDecode ++ ")"))
  else if length ≠ guardianCount.toNat then
    throw (cborErr ("backup CBOR: guardian_count (" ++ toString guardianCount ++
      ") ≠ pubkey array length (" ++ toString length ++ ")"))
  else
    (pullBytesExact codec 32 "guardian_x25519_pub").times length

/-- One guardian's address. -/
def pullEvmAddr : Dec (Vector UInt8 20) := do
  let addr ← pullBytesExact codec 20 "guardian_evm_addr"
  if addr.toList.all fun byte => byte = 0 then
    throw (cborErr ("backup CBOR: guardian_evm_addrs entry is all-zero " ++
      "(re-create the backup under the current Pangolin version)"))
  else
    return addr

/-- The body up to its end. -/
def bodyFields : Dec BackupContents := do
  expectArray codec 11
  let wrappedRecovery ← pullBytesCapped codec maxWrappedRecoveryLen "wrapped_recovery"
  let vaultId ← pullBytesExact codec 32 "vault_id"
  let epoch ← pullUint codec
  let threshold ← pullU8 codec "backup CBOR: threshold out of u8 range"
  let guardianCount ← pullU8 codec "backup CBOR: guardian_count out of u8 range"
  let guardianX25519Pubs ← pullGuardianPubs codec guardianCount
  let sealedShares ← pullPerGuardian codec guardianCount "sealed_shares"
    (pullBytesCapped codec maxSealedShareLen "sealed_share")
  let guardianEvmAddrs ← pullPerGuardian codec guardianCount "guardian_evm_addrs"
    (pullEvmAddr codec)
  let vaultDisplayName ← pullTextCapped codec maxDisplayNameLen "vault_display_name"
  let createdAtUnix ← pullUint codec
  let innerSchema ← pullU8 codec "backup CBOR: inner schema_version out of u8"
  if innerSchema.toNat ≠ schemaVersion then throw .authenticationFailed
  else
    return ⟨wrappedRecovery, vaultId, UInt64.ofNat epoch, threshold, guardianCount,
      guardianX25519Pubs, sealedShares, guardianEvmAddrs, vaultDisplayName,
      UInt64.ofNat createdAtUnix⟩

/-- `decode_body`; bytes after the body are not looked at. -/
def decodeBody (bytes : List UInt8) : Except BackupError BackupContents :=
  (bodyFields codec bytes).map Prod.fst

end

/-! ## Sealing and opening -/

section

variable (codec : HeaderCodec) (cipher : PasswordCipher) (sha256 : Sha256)

/-- `seal_backup`. -/
def sealBackup (contents : BackupContents) (seedPhrase : List String) (draw : ArchiveDraw) :
    Except BackupError (List UInt8) :=
  if contents.guardianX25519Pubs.length ≠ contents.guardianCount.toNat then
    .error (argumentErr ("guardian_count (" ++ toString contents.guardianCount ++
      ") ≠ pubkey list length (" ++ toString contents.guardianX25519Pubs.length ++ ")"))
  else do
    let kdfInput ← seedPhraseToKdfInput seedPhrase
    match cipher.deriveKey ⟨kdfInput⟩ draw.salt .recommended with
    | none => .error .authenticationFailed
    | some key =>
        let body := encodeBody codec contents
        if 2 ^ 64 ≤ body.length + aeadTagLen then
          .error (argumentErr "backup body too large to encode ct_len")
        else
          let aad := writeOuterHeader .recommended draw.salt draw.nonce (body.length + aeadTagLen)
          match cipher.encrypt key draw.nonce body aad with
          | none => .error .authenticationFailed
          | some ciphertext =>
              .ok (aad ++ ciphertext ++ integrityHash sha256 (aad ++ ciphertext))

/-- `encode_text`. -/
def encodeText (bytes : List UInt8) : Utf8.Text := Core.encodeText sha256 bytes

/-- `decode_text`. -/
def decodeText (text : Utf8.Text) : Except BackupError (List UInt8) :=
  Core.decodeText .textInvalidEncoding
    (.validation "text" "backup text form too short to hold a checksum") .textChecksumMismatch
    sha256 text

/-- The byte form of an input that is bytes or text. -/
def backupBytes (bytesOrText : List UInt8) : Except BackupError (List UInt8) :=
  if domain.isPrefixOf bytesOrText then
    .ok bytesOrText
  else
    match Utf8.decode? bytesOrText with
    | none =>
        .error (argumentErr
          "backup input is neither a DOMAIN-prefixed byte form nor valid UTF-8 text")
    | some text => decodeText sha256 text

/-- `decode_backup_from_outer`. -/
def decodeBackupFromOuter (aad ciphertext : List UInt8) (header : OuterHeader)
    (seedPhrase : List String) : Except BackupError BackupContents := do
  let kdfInput ← seedPhraseToKdfInput seedPhrase
  match cipher.deriveKey ⟨kdfInput⟩ header.salt header.kdfParams with
  | none => .error .authenticationFailed
  | some key =>
      match cipher.openBytes key header.nonce ciphertext aad with
      | none => .error .authenticationFailed
      | some plain => decodeBody codec plain

/-- `decode_backup`. -/
def decodeBackup (bytesOrText : List UInt8) (seedPhrase : List String) :
    Except BackupError BackupContents := do
  let bytes ← backupBytes sha256 bytesOrText
  let (header, ciphertext) ← parseOuterHeader sha256 bytes
  decodeBackupFromOuter codec cipher (bytes.take outerHeaderLen) ciphertext header seedPhrase

end

/-! ## What the opener takes -/

/-- Lengths that a machine word counts. -/
structure BackupContents.Typed (contents : BackupContents) : Prop where
  wrappedRecovery : IsUsize contents.wrappedRecovery.length
  guardianX25519Pubs : IsUsize contents.guardianX25519Pubs.length
  sealedShares : ItemsTyped (fun share => IsUsize share.length) contents.sealedShares
  guardianEvmAddrs : IsUsize contents.guardianEvmAddrs.length
  vaultDisplayName : IsUsize (Utf8.encode contents.vaultDisplayName.toList).length

/-- An address that is not all zeros. -/
def AddrSet (addr : Vector UInt8 20) : Prop := ¬ addr.toList.all fun byte => byte = 0

instance AddrSet.decidable (addr : Vector UInt8 20) : Decidable (AddrSet addr) :=
  inferInstanceAs (Decidable (¬ addr.toList.all fun byte => byte = 0))

/-- The arrays have one item for each guardian, the strings are within the opener's bounds,
and the addresses are set. -/
structure BackupContents.Opens (contents : BackupContents) : Prop where
  wrappedRecovery : contents.wrappedRecovery.length ≤ maxWrappedRecoveryLen
  pubs : contents.guardianX25519Pubs.length = contents.guardianCount.toNat
  shares : contents.sealedShares.length = contents.guardianCount.toNat
  shareLens : ∀ share ∈ contents.sealedShares, share.length ≤ maxSealedShareLen
  addrs : contents.guardianEvmAddrs.length = contents.guardianCount.toNat
  addrsSet : ∀ addr ∈ contents.guardianEvmAddrs, AddrSet addr
  vaultDisplayName : (Utf8.encode contents.vaultDisplayName.toList).length ≤ maxDisplayNameLen

section

variable (codec : HeaderCodec)

theorem reads_pull (header : Header) (definite : header.Definite) :
    Reads (pull codec) (codec.push header) header := by
  intro rest
  rw [pull, codec.pull_push header rest definite]

theorem reads_expectArray {want : Nat} (small : want < 2 ^ 64) :
    Reads (expectArray codec want) (putArray codec want) () := by
  apply (reads_pull codec (.array (some want)) small).last
  simp only [if_true]
  exact .pure ()

theorem reads_pullUint {value : Nat} (small : value < 2 ^ 64) :
    Reads (pullUint codec) (putUint codec value) value :=
  (reads_pull codec (.positive value) small).last (.pure value)

theorem reads_pullArrayLen {length : Nat} (small : IsUsize length) :
    Reads (pullArrayLen codec) (putArray codec length) length :=
  (reads_pull codec (.array (some length)) small).last (.pure length)

theorem reads_pullU8 (message : String) (value : UInt8) :
    Reads (pullU8 codec message) (putUint codec value.toNat) value := by
  have small : value.toNat < 2 ^ 8 := value.toNat_lt
  apply (reads_pullUint codec (show value.toNat < 2 ^ 64 by omega)).last
  simp only [small, if_true, UInt8.ofNat_toNat]
  exact .pure value

theorem settles_pullBytesCapped (cap : Nat) (what : String) {bytes : List UInt8}
    (typed : IsUsize bytes.length) :
    Settles (bytes.length ≤ cap) (pullBytesCapped codec cap what) (putBytes codec bytes)
      bytes := by
  apply Settles.congr
  · apply Settles.after (reads_pull codec (.bytes (some bytes.length)) typed)
    apply Settles.guarded
    intro _
    exact .of_reads (.exactly _ bytes)
  · rw [and_true, Nat.not_lt]

theorem reads_pullBytesExact {size : Nat} (small : IsUsize size) (what : String)
    (bytes : Vector UInt8 size) :
    Reads (pullBytesExact codec size what) (putBytes codec bytes.toList) bytes := by
  have sized : bytes.toList.length = size := bytes.length_toList
  apply ((settles_pullBytesCapped codec size what (sized.symm ▸ small)).reads
    (Nat.le_of_eq sized)).last
  simp only [sized, dif_pos]
  exact .pure bytes

theorem settles_pullTextCapped (cap : Nat) (what : String) {text : String}
    (typed : IsUsize (Utf8.encode text.toList).length) :
    Settles ((Utf8.encode text.toList).length ≤ cap) (pullTextCapped codec cap what)
      (putText codec text) text := by
  apply Settles.congr
  · apply Settles.after
      (reads_pull codec (.text (some (Utf8.encode text.toList).length)) typed)
    apply Settles.guarded
    intro _
    apply (Settles.of_reads (.exactly _ (Utf8.encode text.toList))).last
    intro _
    simp only [Utf8.decode?_encode, String.ofList_toList]
    exact .pure text
  · rw [and_true, Nat.not_lt]

/-- An array reads back when it has one item for each guardian and each item does. -/
theorem settles_pullPerGuardian {α : Type} {item : Dec α} {put : α → List UInt8}
    {fits : α → Prop} {items : List α} (guardianCount : UInt8) (what : String)
    (typed : IsUsize items.length)
    (each : ∀ value ∈ items, Settles (fits value) item (put value) value) :
    Settles (items.length = guardianCount.toNat ∧ ∀ value ∈ items, fits value)
      (pullPerGuardian codec guardianCount what item)
      (putArray codec items.length ++ items.flatMap put) items := by
  apply Settles.congr
  · apply Settles.after (reads_pullArrayLen codec typed)
    apply Settles.guarded
    intro _
    exact .times each
  · rw [ne_eq, not_not]

theorem settles_pullGuardianPubs {pubs : List (Vector UInt8 32)} (guardianCount : UInt8)
    (typed : IsUsize pubs.length) :
    Settles (pubs.length = guardianCount.toNat) (pullGuardianPubs codec guardianCount)
      (putArray codec pubs.length ++ pubs.flatMap fun pk => putBytes codec pk.toList) pubs := by
  have small := guardianCount.toNat_lt
  apply Settles.congr
  · apply Settles.after (reads_pullArrayLen codec typed)
    apply Settles.guarded
    intro _
    apply Settles.guarded
    intro _
    exact .of_reads (.times fun pk _ => reads_pullBytesExact codec (by decide) _ pk)
  · rw [and_true, maxGuardianCountDecode]
    omega

theorem settles_pullEvmAddr (addr : Vector UInt8 20) :
    Settles (AddrSet addr) (pullEvmAddr codec) (putBytes codec addr.toList) addr := by
  apply Settles.congr
  · apply Settles.checked (reads_pullBytesExact codec (by decide) _ addr)
    apply Settles.guarded
    intro _
    exact .of_reads (.pure addr)
  · exact and_iff_left trivial

/-- A body that was written is read back when the opener takes the contents and refused when
it does not. -/
theorem settles_bodyFields {contents : BackupContents} (typed : contents.Typed) :
    Settles contents.Opens (bodyFields codec) (encodeBody codec contents) contents := by
  have version : ¬ (UInt8.ofNat schemaVersion).toNat ≠ schemaVersion := by decide
  apply Settles.congr
  · apply Settles.after (reads_expectArray codec (by decide))
    apply (settles_pullBytesCapped codec _ _ typed.wrappedRecovery).bind
    intro _
    apply Settles.after (reads_pullBytesExact codec (by decide) _ contents.vaultId)
    apply Settles.after (reads_pullUint codec contents.epoch.toNat_lt)
    apply Settles.after (reads_pullU8 codec _ contents.threshold)
    apply Settles.after (reads_pullU8 codec _ contents.guardianCount)
    apply (settles_pullGuardianPubs codec contents.guardianCount typed.guardianX25519Pubs).bind
    intro _
    apply (settles_pullPerGuardian codec contents.guardianCount _ typed.sealedShares.1
      fun share member => settles_pullBytesCapped codec maxSealedShareLen _
        (typed.sealedShares.2 share member)).bind
    intro _
    apply (settles_pullPerGuardian codec contents.guardianCount _ typed.guardianEvmAddrs
      fun addr _ => settles_pullEvmAddr codec addr).bind
    intro _
    apply (settles_pullTextCapped codec _ _ typed.vaultDisplayName).bind
    intro _
    apply Settles.of_reads
    apply (reads_pullUint codec contents.createdAtUnix.toNat_lt).bind
    apply (reads_pullU8 codec _ (UInt8.ofNat schemaVersion)).last
    simp only [version, if_false, UInt64.ofNat_toNat]
    exact .pure contents
  · exact ⟨fun ⟨wrapped, pubs, ⟨shares, lens⟩, ⟨addrs, nonzero⟩, name, _⟩ =>
        ⟨wrapped, pubs, shares, lens, addrs, nonzero, name⟩,
      fun opens => ⟨opens.wrappedRecovery, opens.pubs, ⟨opens.shares, opens.shareLens⟩,
        ⟨opens.addrs, opens.addrsSet⟩, opens.vaultDisplayName, trivial⟩⟩

end

/-! ## A body that opens is small -/

section

variable (codec : StreamCodec)

theorem length_flatMap_le {α : Type} {put : α → List UInt8} {items : List α} {size : Nat}
    (each : ∀ item ∈ items, (put item).length ≤ size) :
    (items.flatMap put).length ≤ items.length * size := by
  induction items with
  | nil => exact Nat.zero_le _
  | cons item items ih =>
      have first := each item List.mem_cons_self
      have rest := ih fun other member => each other (List.mem_cons_of_mem _ member)
      rw [List.flatMap_cons, List.length_append, List.length_cons, Nat.succ_mul]
      omega

theorem length_putUint {value : Nat} (small : value < 2 ^ 64) :
    (putUint codec.toHeaderCodec value).length ≤ 9 :=
  codec.length_push (.positive value) small

theorem length_putArray {length : Nat} (small : IsUsize length) :
    (putArray codec.toHeaderCodec length).length ≤ 9 :=
  codec.length_push (.array (some length)) small

theorem length_putBytes {bytes : List UInt8} (typed : IsUsize bytes.length) :
    (putBytes codec.toHeaderCodec bytes).length ≤ 9 + bytes.length := by
  have head := codec.length_push (.bytes (some bytes.length)) typed
  rw [putBytes, List.length_append]
  omega

theorem length_putText {text : String} (typed : IsUsize (Utf8.encode text.toList).length) :
    (putText codec.toHeaderCodec text).length ≤ 9 + (Utf8.encode text.toList).length := by
  have head := codec.length_push (.text (some (Utf8.encode text.toList).length)) typed
  rw [putText, List.length_append]
  omega

/-- An array of byte strings of a bounded length. -/
theorem length_putArray_flatMap {α : Type} (bytes : α → List UInt8) {items : List α} {size : Nat}
    (typed : IsUsize size) (counted : IsUsize items.length)
    (each : ∀ item ∈ items, (bytes item).length ≤ size) :
    (putArray codec.toHeaderCodec items.length ++
      items.flatMap fun item => putBytes codec.toHeaderCodec (bytes item)).length ≤
        9 + items.length * (9 + size) := by
  have head := length_putArray codec counted
  have rest : (items.flatMap fun item => putBytes codec.toHeaderCodec (bytes item)).length ≤
      items.length * (9 + size) := by
    apply length_flatMap_le
    intro item member
    have bound := each item member
    have whole := length_putBytes codec (Nat.lt_of_le_of_lt bound typed)
    omega
  rw [List.length_append]
  omega

/-- The bounds on the fields are well below the bound on the ciphertext. -/
theorem BackupContents.Opens.within {contents : BackupContents} (opens : contents.Opens)
    (typed : contents.Typed) :
    (encodeBody codec.toHeaderCodec contents).length + aeadTagLen ≤ maxCiphertextLen := by
  have byte : ∀ value : UInt8, value.toNat < 2 ^ 64 := fun value =>
    Nat.lt_trans value.toNat_lt (by decide)
  have count := contents.guardianCount.toNat_lt
  have head := length_putArray codec (show IsUsize 11 by decide)
  have wrapped := length_putBytes codec typed.wrappedRecovery
  have vault := length_putBytes codec
    (show IsUsize contents.vaultId.toList.length by rw [Vector.length_toList]; decide)
  have epoch := length_putUint codec contents.epoch.toNat_lt
  have threshold := length_putUint codec (byte contents.threshold)
  have guardians := length_putUint codec (byte contents.guardianCount)
  have pubs := length_putArray_flatMap codec Vector.toList (show IsUsize 32 by decide)
    typed.guardianX25519Pubs fun pk _ => Nat.le_of_eq pk.length_toList
  have shares : (putArray codec.toHeaderCodec contents.sealedShares.length ++
      contents.sealedShares.flatMap (putBytes codec.toHeaderCodec)).length ≤
        9 + contents.sealedShares.length * (9 + maxSealedShareLen) :=
    length_putArray_flatMap codec id (by decide) typed.sealedShares.1 opens.shareLens
  have addrs := length_putArray_flatMap codec Vector.toList (show IsUsize 20 by decide)
    typed.guardianEvmAddrs fun addr _ => Nat.le_of_eq addr.length_toList
  have name := length_putText codec typed.vaultDisplayName
  have created := length_putUint codec contents.createdAtUnix.toNat_lt
  have version := length_putUint codec (show schemaVersion < 2 ^ 64 by decide)
  have wrappedCap := opens.wrappedRecovery
  have nameCap := opens.vaultDisplayName
  have pubsCount := opens.pubs
  have sharesCount := opens.shares
  have addrsCount := opens.addrs
  rw [Vector.length_toList] at vault
  simp only [encodeBody, List.length_append, maxCiphertextLen, aeadTagLen, maxSealedShareLen,
    maxWrappedRecoveryLen, maxDisplayNameLen] at *
  omega

end

/-! ## The header reads back -/

theorem length_writeOuterHeader (kdfParams : KdfParams) (salt : KdfSalt) (nonce : Nonce)
    (ctLen : Nat) : (writeOuterHeader kdfParams salt nonce ctLen).length = outerHeaderLen := by
  simp only [writeOuterHeader, List.length_append, length_toBytes]
  rfl

/-- The header of a backup that is written. -/
def writtenOuterHeader (draw : ArchiveDraw) (ctLen : Nat) : OuterHeader :=
  ⟨schemaVersion, kdfAlgoArgon2id, .recommended, draw.salt, draw.nonce, ctLen⟩

/-- The fields of a written header are read back when its ciphertext is within the bound. -/
theorem settles_outerFields (short : BackupError) {draw : ArchiveDraw} (drawn : draw.Typed)
    {ctLen : Nat} (small : ctLen < 256 ^ 8) :
    Settles (ctLen ≤ maxCiphertextLen) (outerFields short)
      (writeOuterHeader .recommended draw.salt draw.nonce ctLen)
      (writtenOuterHeader draw ctLen) := by
  have clamped : Reads (clampKdf .recommended) [] () := fun _ => rfl
  apply Settles.congr
  · apply Settles.after (Reads.exactly short domain)
    simp only [ne_eq, not_true_eq_false, if_false]
    apply Settles.after (Reads.number short (show schemaVersion < 256 ^ 1 by decide))
    simp only [not_true_eq_false, if_false]
    apply Settles.after (Reads.number short (show kdfAlgoArgon2id < 256 ^ 1 by decide))
    simp only [not_true_eq_false, if_false]
    apply Settles.after
      (Reads.number short (show KdfParams.recommended.memoryKib < 256 ^ 4 by decide))
    apply Settles.after
      (Reads.number short (show KdfParams.recommended.timeCost < 256 ^ 4 by decide))
    apply Settles.after
      (Reads.number short (show KdfParams.recommended.parallelism < 256 ^ 4 by decide))
    apply Settles.skip clamped
    apply Settles.after (Reads.number short drawn.salt)
    apply Settles.after (Reads.number short drawn.nonce)
    apply Settles.checked (Reads.number short small)
    apply Settles.guarded
    intro _
    exact .of_reads (.pure _)
  · rw [and_true, Nat.not_lt]

section

variable {sha256 : Sha256} {draw : ArchiveDraw} {ctLen : Nat} {ciphertext : List UInt8}

/-- The bytes of a backup. -/
def backupFile (sha256 : Sha256) (aad ciphertext : List UInt8) : List UInt8 :=
  aad ++ ciphertext ++ integrityHash sha256 (aad ++ ciphertext)

theorem length_backupFile (aad ciphertext : List UInt8) :
    (backupFile sha256 aad ciphertext).length =
      aad.length + ciphertext.length + integrityHashLen := by
  rw [backupFile, List.length_append, List.length_append, integrityHash, length_payloadChecksum]
  rfl

theorem parseOuterHeader_written (sha256 : Sha256) (drawn : draw.Typed) (within : ctLen ≤ maxCiphertextLen)
    (sized : ciphertext.length = ctLen) :
    parseOuterHeader sha256 (backupFile sha256
        (writeOuterHeader .recommended draw.salt draw.nonce ctLen) ciphertext) =
      .ok (writtenOuterHeader draw ctLen, ciphertext) := by
  have small : ctLen < 256 ^ 8 := Nat.lt_of_le_of_lt within (by decide)
  generalize whole : writeOuterHeader .recommended draw.salt draw.nonce ctLen = aad
  have aadLen : aad.length = outerHeaderLen := by rw [← whole, length_writeOuterHeader]
  have total : (backupFile sha256 aad ciphertext).length =
      outerHeaderLen + ctLen + integrityHashLen := by rw [length_backupFile, aadLen, sized]
  have body : (aad ++ ciphertext).length = outerHeaderLen + ctLen := by
    rw [List.length_append, aadLen, sized]
  have front : (backupFile sha256 aad ciphertext).take (outerHeaderLen + ctLen) =
      aad ++ ciphertext := List.take_left' body
  have back : (backupFile sha256 aad ciphertext).drop (outerHeaderLen + ctLen) =
      integrityHash sha256 (aad ++ ciphertext) := List.drop_left' body
  have fields := (settles_outerFields (backupTooShort (backupFile sha256 aad ciphertext).length)
    drawn small).reads within (ciphertext ++ integrityHash sha256 (aad ++ ciphertext))
  rw [whole, ← List.append_assoc] at fields
  change outerFields _ (backupFile sha256 aad ciphertext) = _ at fields
  have long : ¬ (backupFile sha256 aad ciphertext).length < outerHeaderLen + integrityHashLen := by
    rw [total]
    omega
  rw [parseOuterHeader, if_neg long, fields]
  simp only [bind, Except.bind, total, Nat.add_sub_cancel, writtenOuterHeader, front, back, ne_eq,
    not_true_eq_false, if_false, List.take_left' sized]

theorem parseOuterHeader_exceeds (sha256 : Sha256) (ciphertext : List UInt8) (drawn : draw.Typed)
    (small : ctLen < 256 ^ 8) (large : maxCiphertextLen < ctLen) :
    ∃ error, parseOuterHeader sha256 (backupFile sha256
      (writeOuterHeader .recommended draw.salt draw.nonce ctLen) ciphertext) = .error error := by
  generalize whole : writeOuterHeader .recommended draw.salt draw.nonce ctLen = aad
  obtain ⟨error, refused⟩ := (settles_outerFields
    (backupTooShort (backupFile sha256 aad ciphertext).length) drawn small).refuses
      (Nat.not_le.mpr large) (ciphertext ++ integrityHash sha256 (aad ++ ciphertext))
  rw [whole, ← List.append_assoc] at refused
  change outerFields _ (backupFile sha256 aad ciphertext) = _ at refused
  have aadLen : aad.length = outerHeaderLen := by rw [← whole, length_writeOuterHeader]
  have long : ¬ (backupFile sha256 aad ciphertext).length < outerHeaderLen + integrityHashLen := by
    rw [length_backupFile, aadLen]
    omega
  refine ⟨error, ?_⟩
  rw [parseOuterHeader, if_neg long, refused]
  rfl

/-! ## Bytes and text -/

theorem backupBytes_of_bytes (ctLen : Nat) (ciphertext : List UInt8) :
    backupBytes sha256 (backupFile sha256
        (writeOuterHeader .recommended draw.salt draw.nonce ctLen) ciphertext) =
      .ok (backupFile sha256 (writeOuterHeader .recommended draw.salt draw.nonce ctLen)
        ciphertext) := by
  have starts : domain.isPrefixOf (backupFile sha256
      (writeOuterHeader .recommended draw.salt draw.nonce ctLen) ciphertext) = true := by
    rw [List.isPrefixOf_iff_prefix, backupFile, writeOuterHeader, List.append_assoc,
      List.append_assoc]
    exact List.prefix_append _ _
  rw [backupBytes, if_pos starts]

/-- No text form has the hyphens of the domain. -/
theorem backupBytes_of_text (bytes : List UInt8) :
    backupBytes sha256 (Utf8.encode (encodeText sha256 bytes)) = .ok bytes := by
  have notBytes : domain.isPrefixOf (Utf8.encode (encodeText sha256 bytes)) = false := by
    apply Bool.eq_false_iff.mpr
    intro starts
    have hyphen : (0x2d : UInt8) ∈ Utf8.encode (encodeText sha256 bytes) :=
      (List.isPrefixOf_iff_prefix.mp starts).subset (by decide)
    obtain ⟨digits, padding, encoded, spells, -⟩ :=
      base32Encode_spells (bytes ++ payloadChecksum sha256 bytes)
    rw [encodeText, Core.encodeText, encoded, encode_map_base32Char spells.below] at hyphen
    obtain ⟨digit, member, same⟩ := List.mem_map.mp hyphen
    have noHyphen : ∀ digit < 32, digitByte digit ≠ 0x2d := by decide
    exact noHyphen digit (spells.below digit member) same
  rw [backupBytes, notBytes]
  simp only [Bool.false_eq_true, if_false, Utf8.decode?_encode, decodeText, encodeText,
    decodeText_encodeText]

end

/-! ## Which backups open again -/

section

variable {codec : StreamCodec} {cipher : PasswordCipher} {sha256 : Sha256}
variable {contents : BackupContents} {seedPhrase : List String} {draw : ArchiveDraw}
variable {bytes : List UInt8}

/-- What is sealed is the file of a body encrypted under the key of the phrase. -/
theorem sealBackup_eq_ok
    (written : sealBackup codec.toHeaderCodec cipher sha256 contents seedPhrase draw = .ok bytes) :
    ∃ kdfInput key ciphertext, seedPhraseToKdfInput seedPhrase = .ok kdfInput ∧
      cipher.deriveKey ⟨kdfInput⟩ draw.salt .recommended = some key ∧
      (encodeBody codec.toHeaderCodec contents).length + aeadTagLen < 2 ^ 64 ∧
      cipher.encrypt key draw.nonce (encodeBody codec.toHeaderCodec contents)
        (writeOuterHeader .recommended draw.salt draw.nonce
          ((encodeBody codec.toHeaderCodec contents).length + aeadTagLen)) = some ciphertext ∧
      bytes = backupFile sha256 (writeOuterHeader .recommended draw.salt draw.nonce
        ((encodeBody codec.toHeaderCodec contents).length + aeadTagLen)) ciphertext := by
  unfold sealBackup at written
  split at written
  · cases written
  · obtain ⟨kdfInput, accepted, written⟩ := Fallible.bind_eq_ok_iff.mp written
    split at written
    · cases written
    · next key derived =>
        dsimp only at written
        split at written
        · cases written
        · next small =>
            split at written
            · cases written
            · next ciphertext encrypted =>
                exact ⟨kdfInput, key, ciphertext, accepted, derived, Nat.lt_of_not_le small,
                  encrypted, (Except.ok.inj written).symm⟩

/-- A sealed body is decoded when it is within the opener's bound, and the backup is refused
when it is not. -/
theorem open_sealBackup (correct : cipher.Correct) (drawn : draw.Typed)
    (written : sealBackup codec.toHeaderCodec cipher sha256 contents seedPhrase draw = .ok bytes)
    {input : List UInt8} (given : backupBytes sha256 input = .ok bytes) :
    ((encodeBody codec.toHeaderCodec contents).length + aeadTagLen ≤ maxCiphertextLen →
      decodeBackup codec.toHeaderCodec cipher sha256 input seedPhrase =
        decodeBody codec.toHeaderCodec (encodeBody codec.toHeaderCodec contents)) ∧
    (maxCiphertextLen < (encodeBody codec.toHeaderCodec contents).length + aeadTagLen →
      ∃ error, decodeBackup codec.toHeaderCodec cipher sha256 input seedPhrase = .error error) := by
  obtain ⟨kdfInput, key, ciphertext, accepted, derived, small, encrypted, rfl⟩ :=
    sealBackup_eq_ok written
  constructor
  · intro within
    have parsed := parseOuterHeader_written sha256 drawn within (correct.length_encrypt encrypted)
    have opened := correct.openBytes_encrypt encrypted
    rw [decodeBackup, given]
    simp only [bind, Except.bind, parsed]
    rw [backupFile, List.append_assoc, List.take_left' (length_writeOuterHeader _ _ _ _)]
    simp only [decodeBackupFromOuter, accepted, bind, Except.bind, writtenOuterHeader, derived,
      opened]
  · intro large
    obtain ⟨error, refused⟩ := parseOuterHeader_exceeds sha256 ciphertext drawn
      (Nat.lt_of_lt_of_le small (by decide)) large
    refine ⟨error, ?_⟩
    rw [decodeBackup, given]
    simp only [bind, Except.bind, refused]

/-- Whatever form it is given in, a sealed backup opens to its contents exactly when the
opener takes them. -/
theorem decodeBackup_sealBackup_iff (correct : cipher.Correct) (typed : contents.Typed)
    (drawn : draw.Typed)
    (written : sealBackup codec.toHeaderCodec cipher sha256 contents seedPhrase draw = .ok bytes)
    {input : List UInt8} (given : backupBytes sha256 input = .ok bytes) :
    decodeBackup codec.toHeaderCodec cipher sha256 input seedPhrase = .ok contents ↔
      contents.Opens := by
  obtain ⟨opens, refuses⟩ := open_sealBackup correct drawn written given
  have body := settles_bodyFields codec.toHeaderCodec typed
  constructor
  · intro decoded
    rcases Nat.lt_or_ge maxCiphertextLen
      ((encodeBody codec.toHeaderCodec contents).length + aeadTagLen) with large | within
    · obtain ⟨error, refused⟩ := refuses large
      rw [refused] at decoded
      cases decoded
    · by_contra exceeds
      obtain ⟨error, refused⟩ := body.refuses exceeds []
      rw [List.append_nil] at refused
      rw [opens within, decodeBody, refused] at decoded
      cases decoded
  · intro taken
    rw [opens (taken.within codec typed), decodeBody, (body.reads taken).of_nil]
    rfl

end

/-- A backup that was sealed opens, from its bytes and from its text, exactly when there is a
share and an address for each guardian, the strings are within the opener's bounds and no
address is zero; generated phrases are accepted and determine their entropy. -/
theorem backup_reopens_iff (codec : StreamCodec) {cipher : PasswordCipher}
    (correct : cipher.Correct) (sha256 : Sha256) {contents : BackupContents}
    (typed : contents.Typed) {seedPhrase : List String} {draw : ArchiveDraw} (drawn : draw.Typed)
    {bytes : List UInt8}
    (written : sealBackup codec.toHeaderCodec cipher sha256 contents seedPhrase draw = .ok bytes) :
    (decodeBackup codec.toHeaderCodec cipher sha256 bytes seedPhrase = .ok contents ↔
      contents.Opens) ∧
      (decodeBackup codec.toHeaderCodec cipher sha256 (Utf8.encode (encodeText sha256 bytes))
        seedPhrase = .ok contents ↔ contents.Opens) ∧
      ∀ entropy, entropy.length = bip39EntropyBytes →
        ∃ words input, bip39WordsFromEntropy sha256 entropy = .ok words ∧
          words.length = seedPhraseWordCount ∧ (∀ word ∈ words, word ∈ bip39EnglishWordlist) ∧
          seedPhraseToKdfInput words = .ok input ∧
          ∀ entropy', entropy'.length = bip39EntropyBytes →
            bip39WordsFromEntropy sha256 entropy' = .ok words → entropy = entropy' := by
  refine ⟨?_, ?_, fun entropy sized => bip39WordsFromEntropy_accepted sha256 sized⟩
  · apply decodeBackup_sealBackup_iff correct typed drawn written
    obtain ⟨_, _, ciphertext, -, -, -, -, rfl⟩ := sealBackup_eq_ok written
    exact backupBytes_of_bytes _ ciphertext
  · exact decodeBackup_sealBackup_iff correct typed drawn written (backupBytes_of_text bytes)

/-- The plain cipher seals a backup whose phrase is accepted. -/
theorem sealBackup_plain (codec : HeaderCodec) (sha256 : Sha256) {contents : BackupContents}
    {seedPhrase : List String} {kdfInput : List UInt8} (draw : ArchiveDraw)
    (pubs : contents.guardianX25519Pubs.length = contents.guardianCount.toNat)
    (accepted : seedPhraseToKdfInput seedPhrase = .ok kdfInput)
    (small : (encodeBody codec contents).length + aeadTagLen < 2 ^ 64) :
    ∃ bytes, sealBackup codec .plain sha256 contents seedPhrase draw = .ok bytes := by
  have derived : PasswordCipher.plain.deriveKey ⟨kdfInput⟩ draw.salt .recommended =
      some (kdfInput ++ toBytes 16 draw.salt.raw) := rfl
  rw [sealBackup, if_neg (not_not.mpr pubs), accepted]
  simp only [bind, Except.bind, derived]
  rw [if_neg (Nat.not_le.mpr small)]
  exact ⟨_, rfl⟩

/-- A backup with one guardian, at an address of one repeated byte. -/
def oneGuardian (fill : UInt8) : BackupContents :=
  ⟨[1, 2, 3], Vector.replicate 32 0x42, 7, 1, 1, [Vector.replicate 32 0xa1], [[0xb1]],
    [Vector.replicate 20 fill], "v", 9⟩

/-- The first word of the list, 24 times. -/
def abandonPhrase : List String := List.replicate seedPhraseWordCount "abandon"

theorem oneGuardian_typed (fill : UInt8) : (oneGuardian fill).Typed := by
  have one : IsUsize 1 := by decide
  have three : IsUsize 3 := by decide
  have name : IsUsize (Utf8.encode "v".toList).length := by decide
  refine ⟨three, one, ⟨one, ?_⟩, one, name⟩
  intro share member
  rw [List.mem_singleton.mp member]
  exact one

theorem abandonPhrase_accepted : ∃ kdfInput, seedPhraseToKdfInput abandonPhrase = .ok kdfInput := by
  refine ⟨_, seedPhraseToKdfInput_of_words List.length_replicate ?_⟩
  intro word member
  rw [List.eq_of_mem_replicate member]
  exact List.mem_cons_self

theorem oneGuardian_sealed (fill : UInt8)
    (sized : (encodeBody StreamCodec.rfc8949.toHeaderCodec (oneGuardian fill)).length = 106) :
    ∃ bytes, sealBackup StreamCodec.rfc8949.toHeaderCodec .plain CodecSample.digest
      (oneGuardian fill) abandonPhrase ⟨⟨1⟩, ⟨2⟩⟩ = .ok bytes := by
  obtain ⟨kdfInput, accepted⟩ := abandonPhrase_accepted
  apply sealBackup_plain _ _ _ rfl accepted
  rw [sized]
  decide

theorem one_guardian_reopens :
    ∃ bytes, sealBackup StreamCodec.rfc8949.toHeaderCodec .plain CodecSample.digest
        (oneGuardian 0x11) abandonPhrase ⟨⟨1⟩, ⟨2⟩⟩ = .ok bytes ∧
      decodeBackup StreamCodec.rfc8949.toHeaderCodec .plain CodecSample.digest bytes abandonPhrase =
        .ok (oneGuardian 0x11) := by
  obtain ⟨bytes, written⟩ := oneGuardian_sealed 0x11 (by decide +kernel)
  have set : ∀ addr ∈ (oneGuardian 0x11).guardianEvmAddrs, AddrSet addr := fun addr member => by
    rw [List.mem_singleton.mp member]
    decide
  have opens : (oneGuardian 0x11).Opens :=
    ⟨by decide, rfl, rfl, by decide, rfl, set, by decide⟩
  exact ⟨bytes, written, (backup_reopens_iff .rfc8949 PasswordCipher.plain_correct _
    (oneGuardian_typed 0x11) ⟨by decide, by decide⟩ written).1.mpr opens⟩

/-- A guardian at the zero address: the backup is sealed and opens neither from its bytes nor
from its text. -/
theorem zero_address_refused :
    ∃ bytes, sealBackup StreamCodec.rfc8949.toHeaderCodec .plain CodecSample.digest
        (oneGuardian 0) abandonPhrase ⟨⟨1⟩, ⟨2⟩⟩ = .ok bytes ∧
      decodeBackup StreamCodec.rfc8949.toHeaderCodec .plain CodecSample.digest bytes abandonPhrase ≠
        .ok (oneGuardian 0) ∧
      decodeBackup StreamCodec.rfc8949.toHeaderCodec .plain CodecSample.digest
        (Utf8.encode (encodeText CodecSample.digest bytes)) abandonPhrase ≠
          .ok (oneGuardian 0) := by
  obtain ⟨bytes, written⟩ := oneGuardian_sealed 0 (by decide +kernel)
  have zero : ¬ (oneGuardian 0).Opens := fun opens =>
    opens.addrsSet (Vector.replicate 20 0) (List.mem_singleton_self _) (by decide)
  have refused : ∀ {input}, backupBytes CodecSample.digest input = .ok bytes →
      decodeBackup StreamCodec.rfc8949.toHeaderCodec .plain CodecSample.digest input abandonPhrase ≠
        .ok (oneGuardian 0) := fun given decoded =>
    zero ((decodeBackup_sealBackup_iff PasswordCipher.plain_correct (oneGuardian_typed 0)
      ⟨by decide, by decide⟩ written given).mp decoded)
  refine ⟨bytes, written, refused ?_, refused (backupBytes_of_text bytes)⟩
  obtain ⟨_, _, ciphertext, -, -, -, -, rfl⟩ := sealBackup_eq_ok written
  exact backupBytes_of_bytes _ ciphertext

end Pangolin.Store.RecoveryBackup
