import Pangolin.Crypto.PasswordCipher
import Pangolin.Store.Archive

/-!
# The bytes of an archive

An archive file is a header of fixed length and the ciphertext of the document.  A header is
read back from the bytes it was written to and from no others.  The document decoder does
not look ahead, so nothing shorter than a document is one.  The bounds of the reader decide
which of the archives that were written open again.
-/

namespace Pangolin.Store

open Symbolic Crypto Cbor Reading

/-! ## The header -/

/-- `ARCHIVE_MAGIC`: "PANGOLIN-VEA". -/
def archiveMagic : List UInt8 :=
  [0x50, 0x41, 0x4e, 0x47, 0x4f, 0x4c, 0x49, 0x4e, 0x2d, 0x56, 0x45, 0x41]

def saltLen : Nat := 16

def nonceLen : Nat := 24

/-- `ARCHIVE_HEADER_LEN`. -/
def archiveHeaderLen : Nat := archiveMagic.length + 1 + 1 + 4 + 4 + 4 + saltLen + nonceLen + 8

def ArchiveHeader.toBytes (header : ArchiveHeader) : List UInt8 :=
  archiveMagic ++ (Reading.toBytes 1 header.formatVersion ++
    (Reading.toBytes 1 header.kdfAlgoId ++ (Reading.toBytes 4 header.kdfParams.memoryKib ++
      (Reading.toBytes 4 header.kdfParams.timeCost ++
        (Reading.toBytes 4 header.kdfParams.parallelism ++
          (Reading.toBytes saltLen header.salt.raw ++ (Reading.toBytes nonceLen header.nonce.raw ++
            Reading.toBytes 8 header.ctLen)))))))

def headerIncomplete : StoreError := cborErr "archive truncated: header incomplete"

/-- The fields of the header, each checked where it is read. -/
def parseHeaderFields : Dec ArchiveHeader := do
  let magic ← Reader.exactly headerIncomplete archiveMagic.length
  if magic ≠ archiveMagic then throw (cborErr "not a Pangolin encrypted archive")
  else do
    let formatVersion ← Reader.number headerIncomplete 1
    if formatVersion ≠ 1 then
      throw (cborErr "unsupported archive format version (need a newer Pangolin)")
    else do
      let kdfAlgoId ← Reader.number headerIncomplete 1
      if kdfAlgoId ≠ 1 then throw (cborErr "unsupported archive KDF algorithm")
      else do
        let memoryKib ← Reader.number headerIncomplete 4
        let timeCost ← Reader.number headerIncomplete 4
        let parallelism ← Reader.number headerIncomplete 4
        if ¬ archiveKdfSupported ⟨memoryKib, timeCost, parallelism⟩ then
          throw (cborErr "archive KDF parameters out of supported range")
        else do
          let salt ← Reader.number headerIncomplete saltLen
          let nonce ← Reader.number headerIncomplete nonceLen
          let ctLen ← Reader.number headerIncomplete 8
          if maxCiphertextLen < ctLen then
            throw (cborErr "archive ciphertext length exceeds the maximum")
          else
            return ⟨formatVersion, kdfAlgoId, ⟨memoryKib, timeCost, parallelism⟩, ⟨salt⟩, ⟨nonce⟩,
              ctLen⟩

/-- `ArchiveHeader::parse`: the header and the bytes after it. -/
def ArchiveHeader.parse (bytes : List UInt8) : Except StoreError (ArchiveHeader × List UInt8) :=
  if bytes.length < archiveHeaderLen then
    .error headerIncomplete
  else do
    let (header, rest) ← parseHeaderFields bytes
    if rest.length ≠ header.ctLen then
      .error (cborErr "archive ciphertext length does not match file size")
    else
      .ok (header, rest)

/-- A header of this version whose fields are in their types and whose parameters the reader
supports. -/
structure ArchiveHeader.Current (header : ArchiveHeader) : Prop where
  formatVersion : header.formatVersion = 1
  kdfAlgoId : header.kdfAlgoId = 1
  kdfParams : archiveKdfSupported header.kdfParams = true
  salt : header.salt.raw < 256 ^ saltLen
  nonce : header.nonce.raw < 256 ^ nonceLen
  ctLen : header.ctLen < 256 ^ 8

/-- A header the reader accepts. -/
structure ArchiveHeader.Accepted (header : ArchiveHeader) : Prop extends header.Current where
  within : header.ctLen ≤ maxCiphertextLen

theorem ArchiveHeader.length_toBytes (header : ArchiveHeader) :
    header.toBytes.length = archiveHeaderLen := by
  simp only [ArchiveHeader.toBytes, List.length_append, Reading.length_toBytes]
  rfl

/-- Parameters the reader supports are 32-bit numbers. -/
theorem words_of_archiveKdfSupported {params : KdfParams}
    (supported : archiveKdfSupported params = true) :
    params.memoryKib < 256 ^ 4 ∧ params.timeCost < 256 ^ 4 ∧ params.parallelism < 256 ^ 4 := by
  simp only [archiveKdfSupported, Bool.and_eq_true, decide_eq_true_eq] at supported
  omega

/-- The fields of a current header are read back when its ciphertext is within the bound. -/
theorem settles_parseHeaderFields {header : ArchiveHeader} (current : header.Current) :
    Settles (header.ctLen ≤ maxCiphertextLen) parseHeaderFields header.toBytes header := by
  obtain ⟨formatVersion, kdfAlgoId, ⟨memoryKib, timeCost, parallelism⟩, ⟨salt⟩, ⟨nonce⟩, ctLen⟩ :=
    header
  obtain ⟨version, algorithm, params, saltFits, nonceFits, lengthFits⟩ := current
  obtain ⟨memory, time, lanes⟩ := words_of_archiveKdfSupported params
  obtain rfl : formatVersion = 1 := version
  obtain rfl : kdfAlgoId = 1 := algorithm
  simp only at params
  apply Settles.congr
  · apply Settles.after (Reads.exactly headerIncomplete archiveMagic)
    simp only [ne_eq, not_true_eq_false, if_false]
    apply Settles.after (Reads.number headerIncomplete (show 1 < 256 ^ 1 by decide))
    simp only [not_true_eq_false, if_false]
    apply Settles.after (Reads.number headerIncomplete (show 1 < 256 ^ 1 by decide))
    simp only [not_true_eq_false, if_false]
    apply Settles.after (Reads.number headerIncomplete memory)
    apply Settles.after (Reads.number headerIncomplete time)
    apply Settles.after (Reads.number headerIncomplete lanes)
    simp only [params, not_true_eq_false, if_false]
    apply Settles.after (Reads.number headerIncomplete saltFits)
    apply Settles.after (Reads.number headerIncomplete nonceFits)
    apply Settles.checked (Reads.number headerIncomplete lengthFits)
    apply Settles.guarded
    intro _
    exact .of_reads (.pure _)
  · rw [and_true, Nat.not_lt]

/-- A check that was passed. -/
theorem of_unless_throw {α : Type} {condition : Prop} [Decidable condition] {error : StoreError}
    {reader : Dec α} {bytes : List UInt8} {result : α × List UInt8}
    (read : (if condition then throw error else reader) bytes = .ok result) :
    ¬ condition ∧ reader bytes = .ok result := by
  split at read
  · cases read
  · exact ⟨‹_›, read⟩

/-- The fields are read from what an accepted header is written to. -/
theorem parseHeaderFields_eq_ok {bytes rest : List UInt8} {header : ArchiveHeader}
    (read : parseHeaderFields bytes = .ok (header, rest)) :
    header.Accepted ∧ bytes = header.toBytes ++ rest := by
  obtain ⟨magic, _, readMagic, read⟩ := Reader.bind_eq_ok_iff.mp read
  obtain ⟨sameMagic, read⟩ := of_unless_throw read
  obtain ⟨version, _, readVersion, read⟩ := Reader.bind_eq_ok_iff.mp read
  obtain ⟨sameVersion, read⟩ := of_unless_throw read
  obtain ⟨algorithm, _, readAlgorithm, read⟩ := Reader.bind_eq_ok_iff.mp read
  obtain ⟨sameAlgorithm, read⟩ := of_unless_throw read
  obtain ⟨memoryKib, _, readMemory, read⟩ := Reader.bind_eq_ok_iff.mp read
  obtain ⟨timeCost, _, readTime, read⟩ := Reader.bind_eq_ok_iff.mp read
  obtain ⟨parallelism, _, readLanes, read⟩ := Reader.bind_eq_ok_iff.mp read
  obtain ⟨supported, read⟩ := of_unless_throw read
  obtain ⟨salt, _, readSalt, read⟩ := Reader.bind_eq_ok_iff.mp read
  obtain ⟨nonce, _, readNonce, read⟩ := Reader.bind_eq_ok_iff.mp read
  obtain ⟨ctLen, _, readLength, read⟩ := Reader.bind_eq_ok_iff.mp read
  obtain ⟨within, done⟩ := of_unless_throw read
  obtain ⟨rfl, rfl⟩ := Prod.mk.inj (Except.ok.inj done)
  obtain ⟨rfl, -⟩ := Reader.exactly_eq_ok readMagic
  obtain ⟨-, rfl⟩ := Reader.number_eq_ok readVersion
  obtain ⟨-, rfl⟩ := Reader.number_eq_ok readAlgorithm
  obtain ⟨-, rfl⟩ := Reader.number_eq_ok readMemory
  obtain ⟨-, rfl⟩ := Reader.number_eq_ok readTime
  obtain ⟨-, rfl⟩ := Reader.number_eq_ok readLanes
  obtain ⟨saltFits, rfl⟩ := Reader.number_eq_ok readSalt
  obtain ⟨nonceFits, rfl⟩ := Reader.number_eq_ok readNonce
  obtain ⟨lengthFits, rfl⟩ := Reader.number_eq_ok readLength
  constructor
  · exact ⟨⟨not_not.mp sameVersion, not_not.mp sameAlgorithm, not_not.mp supported, saltFits,
      nonceFits, lengthFits⟩, Nat.not_lt.mp within⟩
  · rw [not_not.mp sameMagic]
    simp only [ArchiveHeader.toBytes, List.append_assoc]

/-- A written header is long enough. -/
theorem ArchiveHeader.parse_append (header : ArchiveHeader) (ciphertext : List UInt8) :
    ArchiveHeader.parse (header.toBytes ++ ciphertext) = (do
      let (found, rest) ← parseHeaderFields (header.toBytes ++ ciphertext)
      if rest.length ≠ found.ctLen then
        .error (cborErr "archive ciphertext length does not match file size")
      else
        .ok (found, rest)) := by
  have long : ¬ (header.toBytes ++ ciphertext).length < archiveHeaderLen := by
    rw [List.length_append, header.length_toBytes]
    omega
  exact if_neg long

/-- A header is parsed from the bytes it was written to, in front of as many bytes as it
says, and from no others. -/
theorem ArchiveHeader.parse_eq_ok_iff {bytes ciphertext : List UInt8} {header : ArchiveHeader} :
    ArchiveHeader.parse bytes = .ok (header, ciphertext) ↔
      header.Accepted ∧ ciphertext.length = header.ctLen ∧ bytes = header.toBytes ++ ciphertext := by
  constructor
  · intro parsed
    unfold ArchiveHeader.parse at parsed
    split at parsed
    · cases parsed
    · obtain ⟨⟨found, rest⟩, read, parsed⟩ := Fallible.bind_eq_ok_iff.mp parsed
      simp only at parsed
      split at parsed
      · cases parsed
      · next matching =>
          obtain ⟨rfl, rfl⟩ := Prod.mk.inj (Except.ok.inj parsed)
          obtain ⟨accepted, split⟩ := parseHeaderFields_eq_ok read
          exact ⟨accepted, not_not.mp matching, split⟩
  · intro ⟨accepted, sized, split⟩
    have read := (settles_parseHeaderFields accepted.toCurrent).reads accepted.within ciphertext
    rw [split, header.parse_append, read]
    exact if_neg (not_not.mpr sized)

/-! ## Sealing and opening -/

/-- The randomness is of its types. -/
structure ArchiveDraw.Typed (draw : ArchiveDraw) : Prop where
  salt : draw.salt.raw < 256 ^ saltLen
  nonce : draw.nonce.raw < 256 ^ nonceLen

/-- The header of an archive that is written. -/
def writtenHeader (plaintext : List UInt8) (draw : ArchiveDraw) : ArchiveHeader :=
  ⟨1, 1, .recommended, draw.salt, draw.nonce, plaintext.length + aeadTagLen⟩

namespace ArchiveBytes

variable (cipher : PasswordCipher)

/-- `seal_archive`. -/
def sealArchive (passphrase : Password) (plaintext : List UInt8) (draw : ArchiveDraw) :
    Except StoreError (List UInt8) :=
  match cipher.deriveKey passphrase draw.salt .recommended with
  | none => .error (.validation "export_internal" "archive key derivation failed")
  | some key =>
      if 2 ^ 64 ≤ plaintext.length + aeadTagLen then
        .error (.validation "export_internal" "archive too large")
      else
        let header := writtenHeader plaintext draw
        match cipher.encrypt key draw.nonce plaintext header.toBytes with
        | none => .error (.validation "export_internal" "archive sealing failed")
        | some ciphertext => .ok (header.toBytes ++ ciphertext)

/-- `decode_archive`. -/
def decodeArchive (codec : HeaderCodec) (bytes : List UInt8) (passphrase : Password) :
    Except StoreError ArchiveSnapshot := do
  let (header, ciphertext) ← ArchiveHeader.parse bytes
  match cipher.deriveKey passphrase header.salt header.kdfParams with
  | none => .error (.validation "export_internal" "archive key derivation failed")
  | some key =>
      match cipher.openBytes key header.nonce ciphertext header.toBytes with
      | none =>
          .error (.validation "export_credentials"
            "wrong export passphrase, or the archive is corrupt")
      | some plaintext => decodeSnapshot codec plaintext

variable {cipher}

theorem writtenHeader_current {plaintext : List UInt8} {draw : ArchiveDraw} (drawn : draw.Typed)
    (small : plaintext.length + aeadTagLen < 2 ^ 64) :
    (writtenHeader plaintext draw).Current where
  formatVersion := rfl
  kdfAlgoId := rfl
  kdfParams := show archiveKdfSupported .recommended = true from rfl
  salt := drawn.salt
  nonce := drawn.nonce
  ctLen := Nat.lt_of_lt_of_le small (by decide)

/-- What is sealed is the written header and a ciphertext under the derived key. -/
theorem sealArchive_eq_ok {passphrase : Password} {plaintext bytes : List UInt8}
    {draw : ArchiveDraw} (written : sealArchive cipher passphrase plaintext draw = .ok bytes) :
    plaintext.length + aeadTagLen < 2 ^ 64 ∧
      ∃ key ciphertext, cipher.deriveKey passphrase draw.salt .recommended = some key ∧
        cipher.encrypt key draw.nonce plaintext (writtenHeader plaintext draw).toBytes =
          some ciphertext ∧
        bytes = (writtenHeader plaintext draw).toBytes ++ ciphertext := by
  unfold sealArchive at written
  split at written
  · cases written
  · next key derived =>
      split at written
      · cases written
      · next small =>
          dsimp only at written
          split at written
          · cases written
          · next ciphertext encrypted =>
              exact ⟨Nat.lt_of_not_le small, key, ciphertext, derived, encrypted,
                (Except.ok.inj written).symm⟩

/-- The plain cipher seals every document a machine word counts. -/
theorem sealArchive_plain (passphrase : Password) (plaintext : List UInt8) (draw : ArchiveDraw)
    (small : plaintext.length + aeadTagLen < 2 ^ 64) :
    ∃ bytes, sealArchive .plain passphrase plaintext draw = .ok bytes := by
  have derived : PasswordCipher.plain.deriveKey passphrase draw.salt .recommended =
      some (passphrase.bytes ++ toBytes 16 draw.salt.raw) := rfl
  rw [sealArchive, derived]
  dsimp only
  rw [if_neg (Nat.not_le.mpr small)]
  exact ⟨_, rfl⟩

/-- An archive that was written opens to the document in it when it is within the reader's
bound, and is refused when it is not. -/
theorem decodeArchive_sealArchive (correct : cipher.Correct) (codec : HeaderCodec)
    {passphrase : Password} {plaintext bytes : List UInt8} {draw : ArchiveDraw}
    (drawn : draw.Typed) (written : sealArchive cipher passphrase plaintext draw = .ok bytes) :
    (plaintext.length + aeadTagLen ≤ maxCiphertextLen →
      decodeArchive cipher codec bytes passphrase = decodeSnapshot codec plaintext) ∧
    (maxCiphertextLen < plaintext.length + aeadTagLen →
      ∃ error, decodeArchive cipher codec bytes passphrase = .error error) := by
  obtain ⟨small, key, ciphertext, derived, encrypted, rfl⟩ := sealArchive_eq_ok written
  have current := writtenHeader_current drawn small
  constructor
  · intro within
    have parsed : ArchiveHeader.parse ((writtenHeader plaintext draw).toBytes ++ ciphertext) =
        .ok (writtenHeader plaintext draw, ciphertext) :=
      ArchiveHeader.parse_eq_ok_iff.mpr
        ⟨⟨current, within⟩, correct.length_encrypt encrypted, rfl⟩
    have opened := correct.openBytes_encrypt encrypted
    rw [decodeArchive, parsed]
    change (match cipher.deriveKey passphrase draw.salt .recommended with
      | none => _
      | some key => match cipher.openBytes key draw.nonce ciphertext
          (writtenHeader plaintext draw).toBytes with
        | none => _
        | some plaintext => _) = _
    rw [derived]
    dsimp only
    rw [opened]
  · intro large
    obtain ⟨error, refused⟩ := (settles_parseHeaderFields current).refuses
      (Nat.not_le.mpr large) ciphertext
    refine ⟨error, ?_⟩
    rw [decodeArchive, ArchiveHeader.parse_append, refused]
    rfl

/-- The archive of the abstract model opens to the same snapshots. -/
theorem toOption_decodeArchive (correct : cipher.Correct) (codec : HeaderCodec)
    {passphrase : Password} {plaintext bytes : List UInt8} {draw : ArchiveDraw}
    {archive : ArchiveFile} (drawn : draw.Typed)
    (written : sealArchive cipher passphrase plaintext draw = .ok bytes)
    (sealed : Store.sealArchive passphrase plaintext draw = .ok archive) :
    (decodeArchive cipher codec bytes passphrase).toOption =
      (Store.decodeArchive codec archive passphrase).toOption := by
  obtain ⟨opens, refuses⟩ := decodeArchive_sealArchive correct codec drawn written
  rcases Nat.lt_or_ge maxCiphertextLen (plaintext.length + aeadTagLen) with large | within
  · obtain ⟨error, refused⟩ := refuses large
    have derived : deriveKey passphrase draw.salt .recommended =
        some ⟨passphrase, draw.salt, .recommended⟩ := rfl
    have exceeds : maxCiphertextLen < plaintext.length + tagLen := large
    have supported : archiveKdfSupported .recommended = true := rfl
    rw [Store.sealArchive, derived] at sealed
    dsimp only at sealed
    split at sealed
    · cases sealed
    · obtain rfl := Except.ok.inj sealed
      rw [refused]
      simp only [Store.decodeArchive, ArchiveFile.parse, supported, exceeds, ne_eq,
        not_true_eq_false, if_false, if_true, bind, Except.bind]
      rfl
  · obtain ⟨found, same, opened⟩ := sealArchive_opens passphrase within draw
    rw [opens within]
    rw [same, Except.ok.injEq] at sealed
    rw [← sealed, opened]

end ArchiveBytes

/-! ## Nothing shorter is a document -/

section

variable (codec : StreamCodec)

theorem local_pull : Local (pull codec.toHeaderCodec) := by
  intro bytes header rest read
  unfold pull at read
  split at read
  · next pulled found =>
      obtain rfl := Except.ok.inj read
      obtain ⟨taken, -, split, again⟩ := codec.pull_takes _ _ _ found
      refine ⟨taken, split, ?_⟩
      intro more
      rw [pull, again more]
  · cases read

theorem local_expectArray (want : Nat) : Local (expectArray codec.toHeaderCodec want) := by
  apply (local_pull codec).bind
  intro header
  split
  · exact .ite (fun _ => .pure ()) fun _ => .fail _
  · exact .fail _

theorem local_pullArrayLen : Local (pullArrayLen codec.toHeaderCodec) := by
  apply (local_pull codec).bind
  intro header
  split
  · exact .pure _
  · exact .fail _

theorem local_pullBelow (bound : Nat) (message : String) :
    Local (pullBelow codec.toHeaderCodec bound message) := by
  apply Local.bind
  · apply (local_pull codec).bind
    intro header
    split
    · exact .pure _
    · exact .fail _
  · intro value
    exact .ite (fun _ => .pure value) fun _ => .fail _

theorem local_pullInt : Local (pullInt codec.toHeaderCodec) := by
  apply (local_pull codec).bind
  intro header
  split
  · exact .ite (fun _ => .pure _) fun _ => .fail _
  · exact .ite (fun _ => .pure _) fun _ => .fail _
  · exact .fail _

theorem local_pullBool : Local (pullBool codec.toHeaderCodec) := by
  apply (local_pull codec).bind
  intro header
  split
  · exact .ite (fun _ => .pure true) fun _ => .ite (fun _ => .pure false) fun _ => .fail _
  · exact .fail _

theorem local_pullBytes : Local (pullBytes codec.toHeaderCodec) := by
  apply (local_pull codec).bind
  intro header
  split
  · exact .ite (fun _ => .fail _) fun _ => .exactly _ _
  · exact .fail _

theorem local_pullText : Local (pullText codec.toHeaderCodec) := by
  apply (local_pull codec).bind
  intro header
  split
  · apply Local.ite (fun _ => .fail _)
    intro _
    apply (Local.exactly _ _).bind
    intro bytes
    split
    · exact .pure _
    · exact .fail _
  · exact .fail _

theorem local_pullArray32 : Local (pullArray32 codec.toHeaderCodec) := by
  apply (local_pullBytes codec).bind
  intro bytes
  exact .ite (fun _ => .pure _) fun _ => .fail _

theorem local_pullItems {α : Type} {item : Dec α} (each : Local item) (tooMany : String) :
    Local (pullItems codec.toHeaderCodec item tooMany) := by
  apply (local_pullArrayLen codec).bind
  intro length
  exact .ite (fun _ => .fail _) fun _ => each.times length

theorem local_decodePasswordEntry : Local (decodePasswordEntry codec.toHeaderCodec) := by
  apply (local_expectArray codec 3).bind
  intro _
  apply (local_pullBytes codec).bind
  intro password
  apply (local_pullInt codec).bind
  intro setAtMs
  apply (local_pullArray32 codec).bind
  intro device
  exact .pure _

theorem local_decodeTotp : Local (decodeTotp codec.toHeaderCodec) := by
  apply (local_expectArray codec 4).bind
  intro _
  apply (local_pullBytes codec).bind
  intro secret
  apply (local_pullBelow codec _ _).bind
  intro algorithm
  apply Local.ite (fun _ => .fail _)
  intro _
  apply (local_pullBelow codec _ _).bind
  intro digits
  apply (local_pullBelow codec _ _).bind
  intro period
  exact .pure _

theorem local_decodeAccount : Local (decodeAccount codec.toHeaderCodec) := by
  have texts : ∀ what, Local (pullSecretBytesVec codec.toHeaderCodec what) :=
    fun _ => local_pullItems codec (local_pullBytes codec) _
  apply (local_expectArray codec 9).bind
  intro _
  apply (local_pullArray32 codec).bind
  intro accountId
  apply (local_pullInt codec).bind
  intro createdAtMs
  apply (local_pullBytes codec).bind
  intro displayName
  apply (texts "tags").bind
  intro tags
  apply (texts "urls").bind
  intro urls
  apply (texts "usernames").bind
  intro usernames
  apply (local_pullBytes codec).bind
  intro notes
  apply (local_pullItems codec (local_decodePasswordEntry codec) _).bind
  intro passwordHistory
  apply (local_decodeTotp codec).bind
  intro totp
  exact .pure _

theorem local_decodeDevice : Local (decodeDevice codec.toHeaderCodec) := by
  apply (local_expectArray codec 3).bind
  intro _
  apply (local_pullArray32 codec).bind
  intro deviceId
  apply (local_pullText codec).bind
  intro label
  apply (local_pullInt codec).bind
  intro addedAtMs
  exact .pure _

theorem local_decodeCaptureAuthority : Local (decodeCaptureAuthority codec.toHeaderCodec) := by
  apply (local_expectArray codec 7).bind
  intro _
  apply (local_pullInt codec).bind
  intro contextKind
  apply (local_pullText codec).bind
  intro platformHint
  apply (local_pullInt codec).bind
  intro authorityKind
  apply (local_pullText codec).bind
  intro componentId
  apply (local_pullText codec).bind
  intro componentVersion
  apply (local_pullInt codec).bind
  intro registeredAt
  apply (local_pullBelow codec _ _).bind
  intro schemaVersion
  exact .pure _

theorem local_decodeSessionIdle : Local (decodeSessionIdle codec.toHeaderCodec) := by
  apply (local_expectArray codec 2).bind
  intro _
  apply (local_pullBool codec).bind
  intro present
  apply (local_pullInt codec).bind
  intro value
  exact .pure _

theorem local_decodeBody (schemaVersion : Nat) (hasCaptureAuthorities : Bool) :
    Local (decodeBody codec.toHeaderCodec schemaVersion hasCaptureAuthorities) := by
  apply (local_pullInt codec).bind
  intro exportedAt
  apply (local_pullArray32 codec).bind
  intro sourceDeviceId
  apply (local_pullArray32 codec).bind
  intro vaultId
  apply (local_decodeSessionIdle codec).bind
  intro sessionIdleSecs
  apply (local_pullItems codec (local_decodeAccount codec) _).bind
  intro accounts
  apply (local_pullItems codec (local_decodeDevice codec) _).bind
  intro devices
  apply Local.ite
  · intro _
    apply (local_pullItems codec (local_decodeCaptureAuthority codec) _).bind
    intro captureAuthorities
    exact .pure _
  · intro _
    exact .pure _

theorem local_decodeDocument : Local (decodeDocument codec.toHeaderCodec) := by
  apply (local_pullArrayLen codec).bind
  intro topLen
  apply Local.ite (fun _ => .fail _)
  intro _
  apply (local_pullBelow codec _ _).bind
  intro schemaVersion
  exact .ite (fun _ => local_decodeBody codec _ _) fun _ => .fail _

/-- No proper prefix of an encoded snapshot decodes, whether or not the snapshot itself
does. -/
theorem decodeSnapshot_proper_prefix {snapshot : ArchiveSnapshot} (typed : snapshot.Typed)
    (version : snapshot.schemaVersion = archiveSnapshotSchemaVersion) {front : List UInt8}
    (isFront : front <+: encodeSnapshot codec.toHeaderCodec snapshot)
    (proper : front ≠ encodeSnapshot codec.toHeaderCodec snapshot) (found : ArchiveSnapshot) :
    decodeSnapshot codec.toHeaderCodec front ≠ .ok found := by
  intro decoded
  have shorter : front.length < (encodeSnapshot codec.toHeaderCodec snapshot).length :=
    Nat.lt_of_le_of_ne isFront.length_le fun same => proper (isFront.eq_of_length same)
  unfold decodeSnapshot at decoded
  cases read : decodeDocument codec.toHeaderCodec front with
  | error error =>
      rw [read] at decoded
      cases decoded
  | ok outcome =>
      obtain ⟨value, rest⟩ := outcome
      exact (local_decodeDocument codec).not_ok_of_front
        (settles_decodeDocument codec.toHeaderCodec typed version) shorter isFront read

end

/-! ## Which archives open again -/

/-- An archive that was written opens to the snapshot in it exactly when every string and
every list of the snapshot is within the reader's bounds and so is the ciphertext. -/
theorem archive_reopens_iff (codec : StreamCodec) {cipher : PasswordCipher}
    (correct : cipher.Correct) {snapshot : ArchiveSnapshot} (typed : snapshot.Typed)
    (version : snapshot.schemaVersion = archiveSnapshotSchemaVersion) {passphrase : Password}
    {draw : ArchiveDraw} (drawn : draw.Typed) {bytes : List UInt8}
    (written : ArchiveBytes.sealArchive cipher passphrase
      (encodeSnapshot codec.toHeaderCodec snapshot) draw = .ok bytes) :
    (ArchiveBytes.decodeArchive cipher codec.toHeaderCodec bytes passphrase = .ok snapshot ↔
      snapshot.Fits ∧
        (encodeSnapshot codec.toHeaderCodec snapshot).length + aeadTagLen ≤ maxCiphertextLen) ∧
      (∀ front found, front <+: encodeSnapshot codec.toHeaderCodec snapshot →
        front ≠ encodeSnapshot codec.toHeaderCodec snapshot →
          decodeSnapshot codec.toHeaderCodec front ≠ .ok found) ∧
      ∀ (file ciphertext : List UInt8) (header : ArchiveHeader),
        ArchiveHeader.parse file = .ok (header, ciphertext) ↔
          header.Accepted ∧ ciphertext.length = header.ctLen ∧
            file = header.toBytes ++ ciphertext := by
  obtain ⟨opens, refuses⟩ :=
    ArchiveBytes.decodeArchive_sealArchive correct codec.toHeaderCodec drawn written
  have document := settles_decodeDocument codec.toHeaderCodec typed version
  refine ⟨?_, ?_, fun file ciphertext header => ArchiveHeader.parse_eq_ok_iff⟩
  · constructor
    · intro decoded
      rcases Nat.lt_or_ge maxCiphertextLen
        ((encodeSnapshot codec.toHeaderCodec snapshot).length + aeadTagLen) with large | within
      · obtain ⟨error, refused⟩ := refuses large
        rw [refused] at decoded
        cases decoded
      · refine ⟨?_, within⟩
        by_contra exceeds
        obtain ⟨error, refused⟩ := document.refuses exceeds []
        rw [List.append_nil] at refused
        rw [opens within, decodeSnapshot, refused] at decoded
        cases decoded
    · rintro ⟨fits, within⟩
      rw [opens within]
      exact decodeSnapshot_encodeSnapshot codec.toHeaderCodec fits
  · intro front found isFront proper
    exact decodeSnapshot_proper_prefix codec typed version isFront proper found

/-- A snapshot of one account and one device, with times before the epoch. -/
def smallSnapshot : ArchiveSnapshot :=
  ⟨2, -5, ⟨1⟩, ⟨2⟩, some (-1),
    [⟨⟨3⟩, -7, [0x61], [[0x62], []], [], [[0x63]], [], [⟨[0x64], -9, ⟨1⟩⟩], [], ⟨0, 6, 30⟩⟩],
    [⟨⟨1⟩, "d", 4⟩], []⟩

theorem smallSnapshot_fits : smallSnapshot.Fits where
  schemaVersion := rfl
  exportedAt := by decide
  sourceDeviceId := by decide
  vaultId := by decide
  sessionIdleSecs := by decide
  accounts := by decide
  devices := by decide
  captureAuthorities := by decide

theorem small_archive_reopens :
    ∃ bytes, ArchiveBytes.sealArchive .plain ⟨[0x70]⟩
        (encodeSnapshot StreamCodec.rfc8949.toHeaderCodec smallSnapshot) ⟨⟨1⟩, ⟨2⟩⟩ = .ok bytes ∧
      ArchiveBytes.decodeArchive .plain StreamCodec.rfc8949.toHeaderCodec bytes ⟨[0x70]⟩ =
        .ok smallSnapshot := by
  have sized : (encodeSnapshot StreamCodec.rfc8949.toHeaderCodec smallSnapshot).length = 207 := by
    decide +kernel
  obtain ⟨bytes, written⟩ := ArchiveBytes.sealArchive_plain ⟨[0x70]⟩ _ ⟨⟨1⟩, ⟨2⟩⟩
    (show (encodeSnapshot StreamCodec.rfc8949.toHeaderCodec smallSnapshot).length +
      aeadTagLen < 2 ^ 64 by rw [sized]; decide)
  exact ⟨bytes, written, (archive_reopens_iff .rfc8949 PasswordCipher.plain_correct
    smallSnapshot_fits.typed rfl ⟨by decide, by decide⟩ written).1.mpr
      ⟨smallSnapshot_fits, by rw [sized]; decide⟩⟩

/-- A snapshot of one account with a number of empty tags. -/
def taggedSnapshot (tags : Nat) : ArchiveSnapshot :=
  ⟨2, 0, ⟨0⟩, ⟨0⟩, none,
    [⟨⟨0⟩, 0, [], List.replicate tags [], [], [], [], [], [], ⟨0, 6, 30⟩⟩], [], []⟩

theorem taggedSnapshot_typed {tags : Nat} (small : tags < 2 ^ 64) :
    (taggedSnapshot tags).Typed := by
  have time : IsI64 0 := by decide
  have id : IsId32 0 := by decide
  have none : IsUsize 0 := by decide
  have one : IsUsize 1 := by decide
  refine ⟨time, id, id, nofun, ⟨one, ?_⟩, ⟨none, nofun⟩, ⟨none, nofun⟩⟩
  intro account member
  obtain rfl := List.mem_singleton.mp member
  refine ⟨id, time, none, ⟨?_, ?_⟩, ⟨none, nofun⟩, ⟨none, nofun⟩, none, ⟨none, nofun⟩, none,
    show 0 ≤ 2 ∧ 6 < 2 ^ 8 ∧ 30 < 2 ^ 32 by decide⟩
  · rw [List.length_replicate]
    exact small
  · intro tag member
    rw [List.eq_of_mem_replicate member]
    exact none

theorem length_encode_taggedSnapshot (codec : HeaderCodec) (tags : Nat) :
    (encodeSnapshot codec (taggedSnapshot tags)).length + (putBytesList codec []).length =
      (encodeSnapshot codec (taggedSnapshot 0)).length + (putArray codec tags).length +
        tags * (putBytes codec []).length := by
  have listed : (putBytesList codec (List.replicate tags [])).length =
      (putArray codec tags).length + tags * (putBytes codec []).length := by
    rw [putBytesList, List.length_append, List.length_replicate, List.length_flatMap,
      List.map_replicate, List.sum_replicate_nat]
  simp only [encodeSnapshot, taggedSnapshot, List.flatMap_cons, List.flatMap_nil, putAccount,
    List.length_append, List.length_cons, List.length_nil, listed, List.replicate_zero]
  omega

/-- One tag more than the reader takes: the archive is written and does not open. -/
theorem tagged_archive_refused :
    (taggedSnapshot 2000001).Typed ∧
      ∃ bytes, ArchiveBytes.sealArchive .plain ⟨[0x70]⟩
          (encodeSnapshot StreamCodec.rfc8949.toHeaderCodec (taggedSnapshot 2000001))
          ⟨⟨1⟩, ⟨2⟩⟩ = .ok bytes ∧
        ∀ found, ArchiveBytes.decodeArchive .plain StreamCodec.rfc8949.toHeaderCodec bytes
          ⟨[0x70]⟩ ≠ .ok found := by
  have typed : (taggedSnapshot 2000001).Typed := taggedSnapshot_typed (by decide)
  have sized := length_encode_taggedSnapshot StreamCodec.rfc8949.toHeaderCodec 2000001
  have empty : (encodeSnapshot StreamCodec.rfc8949.toHeaderCodec (taggedSnapshot 0)).length =
    125 := by decide +kernel
  have none : (putBytesList StreamCodec.rfc8949.toHeaderCodec []).length = 1 := by decide +kernel
  have one : (putBytes StreamCodec.rfc8949.toHeaderCodec []).length = 1 := by decide +kernel
  have many : (putArray StreamCodec.rfc8949.toHeaderCodec 2000001).length = 5 := by
    decide +kernel
  rw [empty, none, one, many] at sized
  obtain ⟨bytes, written⟩ := ArchiveBytes.sealArchive_plain ⟨[0x70]⟩
    (encodeSnapshot StreamCodec.rfc8949.toHeaderCodec (taggedSnapshot 2000001)) ⟨⟨1⟩, ⟨2⟩⟩
    (by rw [aeadTagLen]; omega)
  refine ⟨typed, bytes, written, ?_⟩
  intro found decoded
  have within : (encodeSnapshot StreamCodec.rfc8949.toHeaderCodec
      (taggedSnapshot 2000001)).length + aeadTagLen ≤ maxCiphertextLen := by
    rw [aeadTagLen, maxCiphertextLen]
    omega
  have exceeds : ¬ (taggedSnapshot 2000001).Fits := by
    intro fits
    have bound := (fits.accounts.2 _ (List.mem_singleton_self _)).tags.1
    rw [List.length_replicate, maxItems] at bound
    omega
  obtain ⟨error, refused⟩ := (settles_decodeDocument StreamCodec.rfc8949.toHeaderCodec typed
    rfl).refuses exceeds []
  rw [List.append_nil] at refused
  rw [(ArchiveBytes.decodeArchive_sealArchive PasswordCipher.plain_correct _
    ⟨by decide, by decide⟩ written).1 within, decodeSnapshot, refused] at decoded
  cases decoded

end Pangolin.Store
