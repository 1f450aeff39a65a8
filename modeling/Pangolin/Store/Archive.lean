import Pangolin.Lib.Cbor
import Pangolin.Lib.Utf8
import Pangolin.Store.Export

/-!
# The archive format

A snapshot is written as a CBOR document and sealed under a key derived from the export
passphrase, with the header of the archive as associated data.  The decoder is bounded at
every step; it reads back every snapshot whose numbers are in their types and whose sizes
are within its bounds.

The header is kept as a record: its fixed byte layout and its magic are not modelled.
-/

namespace Pangolin.Store

open Symbolic Crypto Cbor Reading

/-! ## Writing a snapshot -/

section

variable (codec : HeaderCodec)

def putBytes (bytes : List UInt8) : List UInt8 :=
  codec.push (.bytes (some bytes.length)) ++ bytes

def putText (text : String) : List UInt8 :=
  let bytes := Utf8.encode text.toList
  codec.push (.text (some bytes.length)) ++ bytes

def putInt (value : Int) : List UInt8 :=
  if 0 ≤ value then codec.push (.positive value.toNat)
  else codec.push (.negative (-1 - value).toNat)

def putUint (value : Nat) : List UInt8 := codec.push (.positive value)

def putArray (length : Nat) : List UInt8 := codec.push (.array (some length))

def putBool (value : Bool) : List UInt8 := codec.push (.ofBool value)

/-- A 32-byte id. -/
def putArray32 (id : Nat) : List UInt8 := putBytes codec (toBytes 32 id)

/-- A list of byte strings. -/
def putBytesList (items : List (List UInt8)) : List UInt8 :=
  putArray codec items.length ++ items.flatMap (putBytes codec)

def putPasswordEntry (entry : PasswordEntry) : List UInt8 :=
  putArray codec 3 ++ (putBytes codec entry.password ++ (putInt codec entry.setAtMs ++
    putArray32 codec entry.originatingDevice.raw))

def putTotp (secret : List UInt8) (params : TotpParams) : List UInt8 :=
  putArray codec 4 ++ (putBytes codec secret ++ (putUint codec params.algorithm ++
    (putUint codec params.digits ++ putUint codec params.period)))

def putHistory (history : List PasswordEntry) : List UInt8 :=
  putArray codec history.length ++ history.flatMap (putPasswordEntry codec)

def putAccount (account : ArchivedAccount) : List UInt8 :=
  putArray codec 9 ++ (putArray32 codec account.accountId.raw ++
    (putInt codec account.createdAtMs ++ (putBytes codec account.displayName ++
      (putBytesList codec account.tags ++ (putBytesList codec account.urls ++
        (putBytesList codec account.usernames ++ (putBytes codec account.notes ++
          (putHistory codec account.passwordHistory ++
            putTotp codec account.totpSecret account.totpParams))))))))

def putDevice (device : ArchivedDevice) : List UInt8 :=
  putArray codec 3 ++ (putArray32 codec device.deviceId.raw ++ (putText codec device.label ++
    putInt codec device.addedAtMs))

def putCaptureAuthority (authority : CaptureAuthority) : List UInt8 :=
  putArray codec 7 ++ (putInt codec authority.contextKind ++
    (putText codec authority.platformHint ++ (putInt codec authority.authorityKind ++
      (putText codec authority.componentId ++ (putText codec authority.componentVersion ++
        (putInt codec authority.registeredAt ++ putUint codec authority.schemaVersion))))))

/-- The idle setting: whether it is there, and its value or zero. -/
def putSessionIdle (secs : Option Int) : List UInt8 :=
  putArray codec 2 ++ (putBool codec secs.isSome ++ putInt codec (secs.getD 0))

/-- `encode_snapshot`. -/
def encodeSnapshot (snapshot : ArchiveSnapshot) : List UInt8 :=
  putArray codec 8 ++ (putUint codec snapshot.schemaVersion ++
    (putInt codec snapshot.exportedAt ++ (putArray32 codec snapshot.sourceDeviceId.raw ++
      (putArray32 codec snapshot.vaultId.raw ++ (putSessionIdle codec snapshot.sessionIdleSecs ++
        ((putArray codec snapshot.accounts.length ++
            snapshot.accounts.flatMap (putAccount codec)) ++
          ((putArray codec snapshot.devices.length ++
              snapshot.devices.flatMap (putDevice codec)) ++
            (putArray codec snapshot.captureAuthorities.length ++
              snapshot.captureAuthorities.flatMap (putCaptureAuthority codec)))))))))

/-! ## Reading it back -/

/-- `cbor_err`. -/
def cborErr (message : String) : StoreError := .validation "export_format" message

/-- `MAX_BLOB_LEN`. -/
def maxBlobLen : Nat := 64 * 1024 * 1024

/-- `MAX_ITEMS`. -/
def maxItems : Nat := 2000000

abbrev Dec (α : Type) := Reader StoreError α

def pull : Dec Header := fun bytes =>
  match codec.pull bytes with
  | some pulled => .ok pulled
  | none => .error (cborErr "malformed archive CBOR")

def expectArray (want : Nat) : Dec Unit := do
  match ← pull codec with
  | .array (some length) =>
      if length = want then pure ()
      else throw (cborErr "archive CBOR: unexpected array shape")
  | _ => throw (cborErr "archive CBOR: unexpected array shape")

def pullArrayLen : Dec Nat := do
  match ← pull codec with
  | .array (some length) => pure length
  | _ => throw (cborErr "archive CBOR: expected definite-length array")

def pullUint : Dec Nat := do
  match ← pull codec with
  | .positive value => pure value
  | _ => throw (cborErr "archive CBOR: expected unsigned integer")

def pullInt : Dec Int := do
  match ← pull codec with
  | .positive value =>
      if value < 2 ^ 63 then pure (value : Int)
      else throw (cborErr "archive CBOR: integer overflow")
  | .negative value =>
      if value < 2 ^ 63 then pure (-1 - (value : Int))
      else throw (cborErr "archive CBOR: integer overflow")
  | _ => throw (cborErr "archive CBOR: expected integer")

def pullBool : Dec Bool := do
  match ← pull codec with
  | .simple value =>
      if value = 21 then pure true
      else if value = 20 then pure false
      else throw (cborErr "archive CBOR: expected boolean")
  | _ => throw (cborErr "archive CBOR: expected boolean")

def pullBytes : Dec (List UInt8) := do
  match ← pull codec with
  | .bytes (some length) =>
      if maxBlobLen < length then throw (cborErr "archive CBOR: byte string too long")
      else Reader.exactly (cborErr "archive CBOR: truncated byte string") length
  | _ => throw (cborErr "archive CBOR: expected definite byte string")

def pullText : Dec String := do
  match ← pull codec with
  | .text (some length) =>
      if maxBlobLen < length then throw (cborErr "archive CBOR: text string too long")
      else do
        let bytes ← Reader.exactly (cborErr "archive CBOR: truncated text string") length
        match Utf8.decode? bytes with
        | some text => pure (String.ofList text)
        | none => throw (cborErr "archive CBOR: invalid UTF-8")
  | _ => throw (cborErr "archive CBOR: expected definite text string")

def pullArray32 : Dec Nat := do
  let bytes ← pullBytes codec
  if bytes.length = 32 then pure (ofBytes bytes)
  else throw (cborErr "archive CBOR: expected 32-byte id")

/-- A bounded list of items. -/
def pullItems {α : Type} (item : Dec α) (tooMany : String) : Dec (List α) := do
  let length ← pullArrayLen codec
  if maxItems < length then throw (cborErr tooMany)
  else item.times length

/-- `pull_secret_bytes_vec`. -/
def pullSecretBytesVec (what : String) : Dec (List (List UInt8)) :=
  pullItems codec (pullBytes codec) ("archive CBOR: too many " ++ what)

def decodePasswordEntry : Dec PasswordEntry := do
  expectArray codec 3
  let password ← pullBytes codec
  let setAtMs ← pullInt codec
  let device ← pullArray32 codec
  return ⟨password, setAtMs, ⟨device⟩⟩

/-- An unsigned number that must be below a bound. -/
def pullBelow (bound : Nat) (message : String) : Dec Nat := do
  let value ← pullUint codec
  if value < bound then pure value else throw (cborErr message)

def decodeTotp : Dec (List UInt8 × TotpParams) := do
  expectArray codec 4
  let secret ← pullBytes codec
  let algorithm ← pullBelow codec (2 ^ 8) "archive CBOR: bad TOTP algorithm"
  if 2 < algorithm then throw (cborErr "archive CBOR: unknown TOTP algorithm")
  else do
    let digits ← pullBelow codec (2 ^ 8) "archive CBOR: bad TOTP digits"
    let period ← pullBelow codec (2 ^ 32) "archive CBOR: bad TOTP period"
    return (secret, ⟨algorithm, digits, period⟩)

/-- `decode_account`. -/
def decodeAccount : Dec ArchivedAccount := do
  expectArray codec 9
  let accountId ← pullArray32 codec
  let createdAtMs ← pullInt codec
  let displayName ← pullBytes codec
  let tags ← pullSecretBytesVec codec "tags"
  let urls ← pullSecretBytesVec codec "urls"
  let usernames ← pullSecretBytesVec codec "usernames"
  let notes ← pullBytes codec
  let passwordHistory ← pullItems codec (decodePasswordEntry codec)
    "archive CBOR: too many history entries"
  let (totpSecret, totpParams) ← decodeTotp codec
  return ⟨⟨accountId⟩, createdAtMs, displayName, tags, urls, usernames, notes, passwordHistory,
    totpSecret, totpParams⟩

def decodeDevice : Dec ArchivedDevice := do
  expectArray codec 3
  let deviceId ← pullArray32 codec
  let label ← pullText codec
  let addedAtMs ← pullInt codec
  return ⟨⟨deviceId⟩, label, addedAtMs⟩

def decodeCaptureAuthority : Dec CaptureAuthority := do
  expectArray codec 7
  let contextKind ← pullInt codec
  let platformHint ← pullText codec
  let authorityKind ← pullInt codec
  let componentId ← pullText codec
  let componentVersion ← pullText codec
  let registeredAt ← pullInt codec
  let schemaVersion ← pullBelow codec (2 ^ 16)
    "archive CBOR: capture-authority schema_version out of u16"
  return ⟨contextKind, platformHint, authorityKind, componentId, componentVersion, registeredAt,
    schemaVersion⟩

def decodeSessionIdle : Dec (Option Int) := do
  expectArray codec 2
  let present ← pullBool codec
  let value ← pullInt codec
  return if present then some value else none

/-- The items after the schema version. -/
def decodeBody (schemaVersion : Nat) (hasCaptureAuthorities : Bool) : Dec ArchiveSnapshot := do
  let exportedAt ← pullInt codec
  let sourceDeviceId ← pullArray32 codec
  let vaultId ← pullArray32 codec
  let sessionIdleSecs ← decodeSessionIdle codec
  let accounts ← pullItems codec (decodeAccount codec) "archive CBOR: too many accounts"
  let devices ← pullItems codec (decodeDevice codec) "archive CBOR: too many devices"
  let captureAuthorities ←
    if hasCaptureAuthorities then
      pullItems codec (decodeCaptureAuthority codec)
        "archive CBOR: too many capture authorities"
    else
      pure []
  return ⟨schemaVersion, exportedAt, ⟨sourceDeviceId⟩, ⟨vaultId⟩, sessionIdleSecs, accounts,
    devices, captureAuthorities⟩

/-- The document: seven items of the first schema version or eight of the second. -/
def decodeDocument : Dec ArchiveSnapshot := do
  let topLen ← pullArrayLen codec
  if topLen ≠ 7 ∧ topLen ≠ 8 then
    throw (cborErr "archive CBOR: unexpected top-level array shape")
  else do
    let schemaVersion ← pullBelow codec (2 ^ 16) "archive payload schema version out of range"
    if (topLen = 7 ∧ schemaVersion = 1) ∨ (topLen = 8 ∧ schemaVersion = 2) then
      decodeBody codec schemaVersion (topLen = 8)
    else
      throw (cborErr "unsupported archive payload schema version (need a newer Pangolin)")

/-- `decode_snapshot`; bytes after the document are not looked at. -/
def decodeSnapshot (bytes : List UInt8) : Except StoreError ArchiveSnapshot :=
  (decodeDocument codec bytes).map Prod.fst

end

/-! ## What fits the format -/

/-- The range of an `i64`. -/
def IsI64 (value : Int) : Prop := -2 ^ 63 ≤ value ∧ value < 2 ^ 63

instance IsI64.decidable (value : Int) : Decidable (IsI64 value) :=
  inferInstanceAs (Decidable (-2 ^ 63 ≤ value ∧ value < 2 ^ 63))

/-- The range of a 32-byte id. -/
def IsId32 (id : Nat) : Prop := id < 256 ^ 32

instance IsId32.decidable (id : Nat) : Decidable (IsId32 id) :=
  inferInstanceAs (Decidable (id < 256 ^ 32))

/-- A byte string the decoder takes. -/
def BlobFits (bytes : List UInt8) : Prop := bytes.length ≤ maxBlobLen

instance BlobFits.decidable (bytes : List UInt8) : Decidable (BlobFits bytes) :=
  inferInstanceAs (Decidable (bytes.length ≤ maxBlobLen))

/-- A list the decoder takes, of items that each fit. -/
def ItemsFit {α : Type} (fits : α → Prop) (items : List α) : Prop :=
  items.length ≤ maxItems ∧ ∀ item ∈ items, fits item

instance ItemsFit.decidable {α : Type} (fits : α → Prop) [DecidablePred fits] (items : List α) :
    Decidable (ItemsFit fits items) :=
  inferInstanceAs (Decidable (items.length ≤ maxItems ∧ ∀ item ∈ items, fits item))

structure PasswordEntry.Fits (entry : PasswordEntry) : Prop where
  password : BlobFits entry.password
  setAtMs : IsI64 entry.setAtMs
  device : IsId32 entry.originatingDevice.raw

structure ArchivedAccount.Fits (account : ArchivedAccount) : Prop where
  accountId : IsId32 account.accountId.raw
  createdAtMs : IsI64 account.createdAtMs
  displayName : BlobFits account.displayName
  tags : ItemsFit BlobFits account.tags
  urls : ItemsFit BlobFits account.urls
  usernames : ItemsFit BlobFits account.usernames
  notes : BlobFits account.notes
  history : ItemsFit PasswordEntry.Fits account.passwordHistory
  totpSecret : BlobFits account.totpSecret
  totpParams : account.totpParams.algorithm ≤ 2 ∧ account.totpParams.digits < 2 ^ 8 ∧
    account.totpParams.period < 2 ^ 32

structure ArchivedDevice.Fits (device : ArchivedDevice) : Prop where
  deviceId : IsId32 device.deviceId.raw
  label : BlobFits (Utf8.encode device.label.toList)
  addedAtMs : IsI64 device.addedAtMs

structure CaptureAuthority.Fits (authority : CaptureAuthority) : Prop where
  contextKind : IsI64 authority.contextKind
  platformHint : BlobFits (Utf8.encode authority.platformHint.toList)
  authorityKind : IsI64 authority.authorityKind
  componentId : BlobFits (Utf8.encode authority.componentId.toList)
  componentVersion : BlobFits (Utf8.encode authority.componentVersion.toList)
  registeredAt : IsI64 authority.registeredAt
  schemaVersion : authority.schemaVersion < 2 ^ 16

/-- A snapshot of this build whose numbers are values of their types and whose strings and
lists are within the decoder's bounds. -/
structure ArchiveSnapshot.Fits (snapshot : ArchiveSnapshot) : Prop where
  schemaVersion : snapshot.schemaVersion = archiveSnapshotSchemaVersion
  exportedAt : IsI64 snapshot.exportedAt
  sourceDeviceId : IsId32 snapshot.sourceDeviceId.raw
  vaultId : IsId32 snapshot.vaultId.raw
  sessionIdleSecs : ∀ secs ∈ snapshot.sessionIdleSecs, IsI64 secs
  accounts : ItemsFit ArchivedAccount.Fits snapshot.accounts
  devices : ItemsFit ArchivedDevice.Fits snapshot.devices
  captureAuthorities : ItemsFit CaptureAuthority.Fits snapshot.captureAuthorities

instance PasswordEntry.decidableFits (entry : PasswordEntry) : Decidable entry.Fits :=
  decidable_of_iff (BlobFits entry.password ∧ IsI64 entry.setAtMs ∧
      IsId32 entry.originatingDevice.raw)
    ⟨fun ⟨password, setAtMs, device⟩ => ⟨password, setAtMs, device⟩,
      fun ⟨password, setAtMs, device⟩ => ⟨password, setAtMs, device⟩⟩

instance ArchivedAccount.decidableFits (account : ArchivedAccount) : Decidable account.Fits :=
  decidable_of_iff ((IsId32 account.accountId.raw ∧ IsI64 account.createdAtMs) ∧
      (BlobFits account.displayName ∧ ItemsFit BlobFits account.tags ∧
        ItemsFit BlobFits account.urls ∧ ItemsFit BlobFits account.usernames ∧
        BlobFits account.notes) ∧
      ItemsFit PasswordEntry.Fits account.passwordHistory ∧ BlobFits account.totpSecret ∧
      account.totpParams.algorithm ≤ 2 ∧ account.totpParams.digits < 2 ^ 8 ∧
        account.totpParams.period < 2 ^ 32)
    ⟨fun ⟨⟨id, time⟩, ⟨name, tags, urls, usernames, notes⟩, history, secret, params⟩ =>
        ⟨id, time, name, tags, urls, usernames, notes, history, secret, params⟩,
      fun ⟨id, time, name, tags, urls, usernames, notes, history, secret, params⟩ =>
        ⟨⟨id, time⟩, ⟨name, tags, urls, usernames, notes⟩, history, secret, params⟩⟩

instance ArchivedDevice.decidableFits (device : ArchivedDevice) : Decidable device.Fits :=
  decidable_of_iff (IsId32 device.deviceId.raw ∧
      BlobFits (Utf8.encode device.label.toList) ∧ IsI64 device.addedAtMs)
    ⟨fun ⟨id, label, time⟩ => ⟨id, label, time⟩, fun ⟨id, label, time⟩ => ⟨id, label, time⟩⟩

instance CaptureAuthority.decidableFits (authority : CaptureAuthority) :
    Decidable authority.Fits :=
  decidable_of_iff ((IsI64 authority.contextKind ∧
        BlobFits (Utf8.encode authority.platformHint.toList) ∧
        IsI64 authority.authorityKind) ∧
      (BlobFits (Utf8.encode authority.componentId.toList) ∧
        BlobFits (Utf8.encode authority.componentVersion.toList)) ∧
      IsI64 authority.registeredAt ∧ authority.schemaVersion < 2 ^ 16)
    ⟨fun ⟨⟨context, hint, kind⟩, ⟨component, version⟩, time, schema⟩ =>
        ⟨context, hint, kind, component, version, time, schema⟩,
      fun ⟨context, hint, kind, component, version, time, schema⟩ =>
        ⟨⟨context, hint, kind⟩, ⟨component, version⟩, time, schema⟩⟩

/-! ## What the types hold

Every value the writer is given is one of its types: numbers in their ranges, and lengths
that a machine word counts. -/

/-- A length a machine word counts. -/
def IsUsize (length : Nat) : Prop := length < 2 ^ 64

instance IsUsize.decidable (length : Nat) : Decidable (IsUsize length) :=
  inferInstanceAs (Decidable (length < 2 ^ 64))

/-- A list in memory, of items that are each of their type. -/
def ItemsTyped {α : Type} (typed : α → Prop) (items : List α) : Prop :=
  IsUsize items.length ∧ ∀ item ∈ items, typed item

structure PasswordEntry.Typed (entry : PasswordEntry) : Prop where
  password : IsUsize entry.password.length
  setAtMs : IsI64 entry.setAtMs
  device : IsId32 entry.originatingDevice.raw

structure ArchivedAccount.Typed (account : ArchivedAccount) : Prop where
  accountId : IsId32 account.accountId.raw
  createdAtMs : IsI64 account.createdAtMs
  displayName : IsUsize account.displayName.length
  tags : ItemsTyped (fun tag => IsUsize tag.length) account.tags
  urls : ItemsTyped (fun url => IsUsize url.length) account.urls
  usernames : ItemsTyped (fun username => IsUsize username.length) account.usernames
  notes : IsUsize account.notes.length
  history : ItemsTyped PasswordEntry.Typed account.passwordHistory
  totpSecret : IsUsize account.totpSecret.length
  totpParams : account.totpParams.algorithm ≤ 2 ∧ account.totpParams.digits < 2 ^ 8 ∧
    account.totpParams.period < 2 ^ 32

structure ArchivedDevice.Typed (device : ArchivedDevice) : Prop where
  deviceId : IsId32 device.deviceId.raw
  label : IsUsize (Utf8.encode device.label.toList).length
  addedAtMs : IsI64 device.addedAtMs

structure CaptureAuthority.Typed (authority : CaptureAuthority) : Prop where
  contextKind : IsI64 authority.contextKind
  platformHint : IsUsize (Utf8.encode authority.platformHint.toList).length
  authorityKind : IsI64 authority.authorityKind
  componentId : IsUsize (Utf8.encode authority.componentId.toList).length
  componentVersion : IsUsize (Utf8.encode authority.componentVersion.toList).length
  registeredAt : IsI64 authority.registeredAt
  schemaVersion : authority.schemaVersion < 2 ^ 16

/-- A snapshot whose parts are all values of their types. -/
structure ArchiveSnapshot.Typed (snapshot : ArchiveSnapshot) : Prop where
  exportedAt : IsI64 snapshot.exportedAt
  sourceDeviceId : IsId32 snapshot.sourceDeviceId.raw
  vaultId : IsId32 snapshot.vaultId.raw
  sessionIdleSecs : ∀ secs ∈ snapshot.sessionIdleSecs, IsI64 secs
  accounts : ItemsTyped ArchivedAccount.Typed snapshot.accounts
  devices : ItemsTyped ArchivedDevice.Typed snapshot.devices
  captureAuthorities : ItemsTyped CaptureAuthority.Typed snapshot.captureAuthorities

theorem BlobFits.typed {bytes : List UInt8} (fits : BlobFits bytes) : IsUsize bytes.length :=
  Nat.lt_of_le_of_lt fits (by decide)

theorem ItemsFit.typed {α : Type} {fits typed : α → Prop} {items : List α}
    (each : ∀ item, fits item → typed item) (fit : ItemsFit fits items) :
    ItemsTyped typed items :=
  ⟨Nat.lt_of_le_of_lt fit.1 (by decide), fun item member => each item (fit.2 item member)⟩

theorem PasswordEntry.Fits.typed {entry : PasswordEntry} (fits : entry.Fits) : entry.Typed :=
  ⟨fits.password.typed, fits.setAtMs, fits.device⟩

theorem ArchivedAccount.Fits.typed {account : ArchivedAccount} (fits : account.Fits) :
    account.Typed where
  accountId := fits.accountId
  createdAtMs := fits.createdAtMs
  displayName := fits.displayName.typed
  tags := fits.tags.typed fun _ => BlobFits.typed
  urls := fits.urls.typed fun _ => BlobFits.typed
  usernames := fits.usernames.typed fun _ => BlobFits.typed
  notes := fits.notes.typed
  history := fits.history.typed fun _ => PasswordEntry.Fits.typed
  totpSecret := fits.totpSecret.typed
  totpParams := fits.totpParams

theorem ArchivedDevice.Fits.typed {device : ArchivedDevice} (fits : device.Fits) :
    device.Typed :=
  ⟨fits.deviceId, fits.label.typed, fits.addedAtMs⟩

theorem CaptureAuthority.Fits.typed {authority : CaptureAuthority} (fits : authority.Fits) :
    authority.Typed where
  contextKind := fits.contextKind
  platformHint := fits.platformHint.typed
  authorityKind := fits.authorityKind
  componentId := fits.componentId.typed
  componentVersion := fits.componentVersion.typed
  registeredAt := fits.registeredAt
  schemaVersion := fits.schemaVersion

theorem ArchiveSnapshot.Fits.typed {snapshot : ArchiveSnapshot} (fits : snapshot.Fits) :
    snapshot.Typed where
  exportedAt := fits.exportedAt
  sourceDeviceId := fits.sourceDeviceId
  vaultId := fits.vaultId
  sessionIdleSecs := fits.sessionIdleSecs
  accounts := fits.accounts.typed fun _ => ArchivedAccount.Fits.typed
  devices := fits.devices.typed fun _ => ArchivedDevice.Fits.typed
  captureAuthorities := fits.captureAuthorities.typed fun _ => CaptureAuthority.Fits.typed

/-! ## The decoder inverts the encoder

Each decoder reads what its encoder wrote of a typed value exactly when the value fits, and
refuses it otherwise. -/

section

variable (codec : HeaderCodec)

theorem reads_pull (header : Header) (definite : header.Definite) :
    Reads (pull codec) (codec.push header) header := by
  intro rest
  rw [pull, codec.pull_push header rest definite]

theorem reads_expectArray {want : Nat} (small : want < 2 ^ 64) :
    Reads (expectArray codec want) (putArray codec want) () := by
  apply (reads_pull codec (.array (some want)) small).last
  simp only [if_true]
  exact .pure ()

theorem reads_pullArrayLen {length : Nat} (small : IsUsize length) :
    Reads (pullArrayLen codec) (putArray codec length) length :=
  (reads_pull codec (.array (some length)) small).last (.pure length)

theorem reads_pullUint {value : Nat} (small : value < 2 ^ 64) :
    Reads (pullUint codec) (putUint codec value) value :=
  (reads_pull codec (.positive value) small).last (.pure value)

theorem reads_pullBelow {bound value : Nat} (message : String) (small : value < bound)
    (fits : bound ≤ 2 ^ 64) :
    Reads (pullBelow codec bound message) (putUint codec value) value := by
  apply (reads_pullUint codec (small.trans_le fits)).last
  simp only [small, if_true]
  exact .pure value

theorem reads_pullInt {value : Int} (fits : IsI64 value) :
    Reads (pullInt codec) (putInt codec value) value := by
  obtain ⟨low, high⟩ := fits
  unfold putInt
  split
  · next nonneg =>
      have small : value.toNat < 2 ^ 63 := by omega
      have same : ((value.toNat : Nat) : Int) = value := Int.toNat_of_nonneg nonneg
      apply (reads_pull codec (.positive value.toNat)
        (show value.toNat < 2 ^ 64 by omega)).last
      simp only [small, if_true, same]
      exact .pure value
  · next negative =>
      have small : (-1 - value).toNat < 2 ^ 63 := by omega
      have same : -1 - (((-1 - value).toNat : Nat) : Int) = value := by omega
      apply (reads_pull codec (.negative (-1 - value).toNat)
        (show (-1 - value).toNat < 2 ^ 64 by omega)).last
      simp only [small, if_true, same]
      exact .pure value

theorem reads_pullBool (value : Bool) : Reads (pullBool codec) (putBool codec value) value := by
  cases value with
  | false =>
      apply (reads_pull codec (.simple 20) (show 20 < 24 by omega)).last
      exact .pure false
  | true =>
      apply (reads_pull codec (.simple 21) (show 21 < 24 by omega)).last
      exact .pure true

theorem settles_pullBytes {bytes : List UInt8} (typed : IsUsize bytes.length) :
    Settles (BlobFits bytes) (pullBytes codec) (putBytes codec bytes) bytes := by
  apply Settles.congr
  · apply Settles.after (reads_pull codec (.bytes (some bytes.length)) typed)
    apply Settles.guarded
    intro _
    exact .of_reads (.exactly _ bytes)
  · rw [and_true, Nat.not_lt]
    rfl

theorem settles_pullText {text : String} (typed : IsUsize (Utf8.encode text.toList).length) :
    Settles (BlobFits (Utf8.encode text.toList)) (pullText codec) (putText codec text) text := by
  apply Settles.congr
  · apply Settles.after
      (reads_pull codec (.text (some (Utf8.encode text.toList).length)) typed)
    apply Settles.guarded
    intro _
    apply (Settles.of_reads (.exactly _ (Utf8.encode text.toList))).last
    intro _
    simp only [Utf8.decode?_encode, String.ofList_toList]
    exact .pure text
  · rw [and_true, Nat.not_lt]
    rfl

theorem reads_pullArray32 {id : Nat} (fits : IsId32 id) :
    Reads (pullArray32 codec) (putArray32 codec id) id := by
  have blob : BlobFits (toBytes 32 id) := by
    rw [BlobFits, length_toBytes]
    decide
  apply ((settles_pullBytes codec blob.typed).reads blob).last
  simp only [length_toBytes, if_true, ofBytes_toBytes fits]
  exact .pure id

/-- A bounded list reads back when it is within the bound and each of its items does. -/
theorem settles_pullItems {α : Type} {item : Dec α} {put : α → List UInt8} {items : List α}
    {fits typed : α → Prop} (tooMany : String)
    (each : ∀ value, typed value → Settles (fits value) item (put value) value)
    (known : ItemsTyped typed items) :
    Settles (ItemsFit fits items) (pullItems codec item tooMany)
      (putArray codec items.length ++ items.flatMap put) items := by
  apply Settles.congr
  · apply Settles.after (reads_pullArrayLen codec known.1)
    apply Settles.guarded
    intro _
    exact .times fun value member => each value (known.2 value member)
  · rw [Nat.not_lt]
    rfl

theorem settles_pullSecretBytesVec {items : List (List UInt8)} (what : String)
    (typed : ItemsTyped (fun bytes => IsUsize bytes.length) items) :
    Settles (ItemsFit BlobFits items) (pullSecretBytesVec codec what)
      (putBytesList codec items) items :=
  settles_pullItems codec _ (fun _ typed => settles_pullBytes codec typed) typed

theorem settles_decodePasswordEntry {entry : PasswordEntry} (typed : entry.Typed) :
    Settles entry.Fits (decodePasswordEntry codec) (putPasswordEntry codec entry) entry := by
  apply Settles.congr
  · apply Settles.after (reads_expectArray codec (by decide))
    apply (settles_pullBytes codec typed.password).bind
    intro _
    apply Settles.after (reads_pullInt codec typed.setAtMs)
    apply Settles.of_reads
    apply (reads_pullArray32 codec typed.device).last
    exact .pure entry
  · exact ⟨fun ⟨password, _⟩ => ⟨password, typed.setAtMs, typed.device⟩,
      fun fits => ⟨fits.password, trivial⟩⟩

theorem settles_decodeTotp {secret : List UInt8} {params : TotpParams}
    (typed : IsUsize secret.length)
    (known : params.algorithm ≤ 2 ∧ params.digits < 2 ^ 8 ∧ params.period < 2 ^ 32) :
    Settles (BlobFits secret) (decodeTotp codec) (putTotp codec secret params)
      (secret, params) := by
  obtain ⟨algorithm, digits, period⟩ := known
  have named : ¬ 2 < params.algorithm := Nat.not_lt.mpr algorithm
  apply Settles.congr
  · apply Settles.after (reads_expectArray codec (by decide))
    apply (settles_pullBytes codec typed).bind
    intro _
    apply Settles.of_reads
    apply (reads_pullBelow codec _ (show params.algorithm < 2 ^ 8 by omega) (by decide)).bind
    simp only [named, if_false]
    apply (reads_pullBelow codec _ digits (by decide)).bind
    apply (reads_pullBelow codec _ period (by decide)).last
    exact .pure (secret, params)
  · exact and_iff_left trivial

theorem settles_decodeAccount {account : ArchivedAccount} (typed : account.Typed) :
    Settles account.Fits (decodeAccount codec) (putAccount codec account) account := by
  apply Settles.congr
  · apply Settles.after (reads_expectArray codec (by decide))
    apply Settles.after (reads_pullArray32 codec typed.accountId)
    apply Settles.after (reads_pullInt codec typed.createdAtMs)
    apply (settles_pullBytes codec typed.displayName).bind
    intro _
    apply (settles_pullSecretBytesVec codec _ typed.tags).bind
    intro _
    apply (settles_pullSecretBytesVec codec _ typed.urls).bind
    intro _
    apply (settles_pullSecretBytesVec codec _ typed.usernames).bind
    intro _
    apply (settles_pullBytes codec typed.notes).bind
    intro _
    apply (settles_pullItems codec _ (fun _ typed => settles_decodePasswordEntry codec typed)
      typed.history).bind
    intro _
    apply (settles_decodeTotp codec typed.totpSecret typed.totpParams).last
    intro _
    exact .pure account
  · exact ⟨fun ⟨name, tags, urls, usernames, notes, history, secret⟩ =>
        ⟨typed.accountId, typed.createdAtMs, name, tags, urls, usernames, notes, history,
          secret, typed.totpParams⟩,
      fun fits => ⟨fits.displayName, fits.tags, fits.urls, fits.usernames, fits.notes,
        fits.history, fits.totpSecret⟩⟩

theorem settles_decodeDevice {device : ArchivedDevice} (typed : device.Typed) :
    Settles device.Fits (decodeDevice codec) (putDevice codec device) device := by
  apply Settles.congr
  · apply Settles.after (reads_expectArray codec (by decide))
    apply Settles.after (reads_pullArray32 codec typed.deviceId)
    apply (settles_pullText codec typed.label).bind
    intro _
    apply Settles.of_reads
    apply (reads_pullInt codec typed.addedAtMs).last
    exact .pure device
  · exact ⟨fun ⟨label, _⟩ => ⟨typed.deviceId, label, typed.addedAtMs⟩,
      fun fits => ⟨fits.label, trivial⟩⟩

theorem settles_decodeCaptureAuthority {authority : CaptureAuthority}
    (typed : authority.Typed) :
    Settles authority.Fits (decodeCaptureAuthority codec) (putCaptureAuthority codec authority)
      authority := by
  apply Settles.congr
  · apply Settles.after (reads_expectArray codec (by decide))
    apply Settles.after (reads_pullInt codec typed.contextKind)
    apply (settles_pullText codec typed.platformHint).bind
    intro _
    apply Settles.after (reads_pullInt codec typed.authorityKind)
    apply (settles_pullText codec typed.componentId).bind
    intro _
    apply (settles_pullText codec typed.componentVersion).bind
    intro _
    apply Settles.of_reads
    apply (reads_pullInt codec typed.registeredAt).bind
    apply (reads_pullBelow codec _ typed.schemaVersion (by decide)).last
    exact .pure authority
  · exact ⟨fun ⟨hint, component, version, _⟩ => ⟨typed.contextKind, hint, typed.authorityKind,
        component, version, typed.registeredAt, typed.schemaVersion⟩,
      fun fits => ⟨fits.platformHint, fits.componentId, fits.componentVersion, trivial⟩⟩

theorem reads_decodeSessionIdle {secs : Option Int} (fits : ∀ value ∈ secs, IsI64 value) :
    Reads (decodeSessionIdle codec) (putSessionIdle codec secs) secs := by
  have typed : IsI64 (secs.getD 0) := by
    cases secs with
    | none => decide
    | some value => exact fits value rfl
  apply (reads_expectArray codec (by decide)).bind
  apply (reads_pullBool codec secs.isSome).bind
  apply (reads_pullInt codec typed).last
  cases secs with
  | none => exact .pure none
  | some value => exact .pure (some value)

/-- A document `encode_snapshot` wrote is read back when the snapshot fits and refused when
it does not. -/
theorem settles_decodeDocument {snapshot : ArchiveSnapshot} (typed : snapshot.Typed)
    (version : snapshot.schemaVersion = archiveSnapshotSchemaVersion) :
    Settles snapshot.Fits (decodeDocument codec) (encodeSnapshot codec snapshot) snapshot := by
  have second : snapshot.schemaVersion = 2 := version
  apply Settles.congr
  · apply Settles.after (reads_pullArrayLen codec (show IsUsize 8 by decide))
    simp only [ne_eq, Nat.reduceEqDiff, not_false_eq_true, not_true_eq_false, and_false, if_false]
    apply Settles.after (reads_pullBelow codec _ (show snapshot.schemaVersion < 2 ^ 16 by omega)
      (by decide))
    simp only [second, and_self, or_true, if_true, decide_true]
    apply Settles.after (reads_pullInt codec typed.exportedAt)
    apply Settles.after (reads_pullArray32 codec typed.sourceDeviceId)
    apply Settles.after (reads_pullArray32 codec typed.vaultId)
    apply Settles.after (reads_decodeSessionIdle codec typed.sessionIdleSecs)
    apply (settles_pullItems codec _ (fun _ typed => settles_decodeAccount codec typed)
      typed.accounts).bind
    intro _
    apply (settles_pullItems codec _ (fun _ typed => settles_decodeDevice codec typed)
      typed.devices).bind
    intro _
    apply (settles_pullItems codec _ (fun _ typed => settles_decodeCaptureAuthority codec typed)
      typed.captureAuthorities).last
    intro _
    rw [← second]
    exact .pure snapshot
  · exact ⟨fun ⟨accounts, devices, authorities⟩ => ⟨version, typed.exportedAt,
        typed.sourceDeviceId, typed.vaultId, typed.sessionIdleSecs, accounts, devices,
        authorities⟩,
      fun fits => ⟨fits.accounts, fits.devices, fits.captureAuthorities⟩⟩

/-- `decode_snapshot` returns the snapshot `encode_snapshot` wrote. -/
theorem decodeSnapshot_encodeSnapshot {snapshot : ArchiveSnapshot} (fits : snapshot.Fits) :
    decodeSnapshot codec (encodeSnapshot codec snapshot) = .ok snapshot := by
  have document := (settles_decodeDocument codec fits.typed fits.schemaVersion).reads fits
  rw [decodeSnapshot, document.of_nil]
  rfl

end

/-! ## Sealing -/

structure ArchiveHeader where
  formatVersion : Nat
  kdfAlgoId : Nat
  kdfParams : KdfParams
  salt : KdfSalt
  nonce : Nonce
  ctLen : Nat
  deriving Repr, DecidableEq

/-- The key `derive_key` makes of a passphrase. -/
structure ArchiveKey where
  passphrase : Password
  salt : KdfSalt
  params : KdfParams
  deriving Repr, DecidableEq

/-- `kdf::derive_key`. -/
def deriveKey (passphrase : Password) (salt : KdfSalt) (params : KdfParams) :
    Option ArchiveKey :=
  if params.validate then some ⟨passphrase, salt, params⟩ else none

/-- An archive: its header and the ciphertext sealed with the header as associated data. -/
structure ArchiveFile where
  header : ArchiveHeader
  ciphertext : Sealed ArchiveKey (Nonce × ArchiveHeader) (List UInt8)
  deriving Repr, DecidableEq

/-- The length of the AEAD tag. -/
def tagLen : Nat := 16

/-- The ciphertext is longer than its plaintext by the tag. -/
def ArchiveFile.ciphertextLen (archive : ArchiveFile) : Nat :=
  archive.ciphertext.msg.length + tagLen

/-- The randomness of one export. -/
structure ArchiveDraw where
  salt : KdfSalt
  nonce : Nonce
  deriving Repr, DecidableEq

/-- `seal_archive`. -/
def sealArchive (passphrase : Password) (plaintext : List UInt8) (draw : ArchiveDraw) :
    Except StoreError ArchiveFile :=
  match deriveKey passphrase draw.salt .recommended with
  | none => .error (.validation "export_internal" "archive key derivation failed")
  | some key =>
      if 2 ^ 64 ≤ plaintext.length + tagLen then
        .error (.validation "export_internal" "archive too large")
      else
        let header : ArchiveHeader :=
          ⟨1, 1, .recommended, draw.salt, draw.nonce, plaintext.length + tagLen⟩
        .ok ⟨header, ⟨key, (draw.nonce, header), plaintext⟩⟩

/-- `MAX_CIPHERTEXT_LEN`. -/
def maxCiphertextLen : Nat := 256 * 1024 * 1024

/-- The KDF parameters `ArchiveHeader::parse` accepts. -/
def archiveKdfSupported (params : KdfParams) : Bool :=
  params.validate && params.memoryKib ≤ 1024 * 1024 && params.timeCost ≤ 8 &&
    params.parallelism ≤ 8 && params.memoryKib * params.timeCost ≤ 3 * 1024 * 1024

/-- The checks of `ArchiveHeader::parse`. -/
def ArchiveFile.parse (archive : ArchiveFile) : Except StoreError ArchiveHeader :=
  let header := archive.header
  if header.formatVersion ≠ 1 then
    .error (cborErr "unsupported archive format version (need a newer Pangolin)")
  else if header.kdfAlgoId ≠ 1 then
    .error (cborErr "unsupported archive KDF algorithm")
  else if ¬ archiveKdfSupported header.kdfParams then
    .error (cborErr "archive KDF parameters out of supported range")
  else if maxCiphertextLen < header.ctLen then
    .error (cborErr "archive ciphertext length exceeds the maximum")
  else if archive.ciphertextLen ≠ header.ctLen then
    .error (cborErr "archive ciphertext length does not match file size")
  else
    .ok header

/-- `decode_archive`. -/
def decodeArchive (codec : HeaderCodec) (archive : ArchiveFile) (passphrase : Password) :
    Except StoreError ArchiveSnapshot := do
  let header ← archive.parse
  match deriveKey passphrase header.salt header.kdfParams with
  | none => .error (.validation "export_internal" "archive key derivation failed")
  | some key =>
      match archive.ciphertext.open? key (header.nonce, header) with
      | none =>
          .error (.validation "export_credentials"
            "wrong export passphrase, or the archive is corrupt")
      | some plaintext => decodeSnapshot codec plaintext

/-- `export_encrypted`. -/
def exportEncrypted (codec : HeaderCodec) (vault : Vault) (passphrase : Password)
    (selection : AccountSelection) (presence : PresenceCheck) (input : ExportInput)
    (draw : ArchiveDraw) (now : Nat) : Call ArchiveFile :=
  withFreshSession vault now fun active => do
    presence.verify
    let snapshot ← gatherArchiveSnapshot vault active selection input
    let archive ← sealArchive passphrase (encodeSnapshot codec snapshot) draw
    return (vault, archive)

/-- A plaintext within the bound is sealed, and the archive opens to it. -/
theorem sealArchive_opens (passphrase : Password) {plaintext : List UInt8}
    (within : plaintext.length + tagLen ≤ maxCiphertextLen) (draw : ArchiveDraw) :
    ∃ archive, sealArchive passphrase plaintext draw = .ok archive ∧
      ∀ codec, decodeArchive codec archive passphrase = decodeSnapshot codec plaintext := by
  have small : ¬ 2 ^ 64 ≤ plaintext.length + tagLen :=
    Nat.not_le.mpr (within.trans_lt (by decide))
  have bounded : ¬ maxCiphertextLen < plaintext.length + tagLen := Nat.not_lt.mpr within
  have derived : deriveKey passphrase draw.salt .recommended =
      some ⟨passphrase, draw.salt, .recommended⟩ := rfl
  have supported : archiveKdfSupported .recommended = true := rfl
  simp only [sealArchive, derived, small, if_false]
  refine ⟨_, rfl, ?_⟩
  intro codec
  simp only [decodeArchive, ArchiveFile.parse, ArchiveFile.ciphertextLen, supported, bounded,
    ne_eq, not_true_eq_false, if_false, bind, Except.bind, derived, Sealed.open?, and_self,
    if_true]

end Pangolin.Store
