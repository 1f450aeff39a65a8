import Pangolin.Contracts.Evm
import Pangolin.Lib.Sealed
import Pangolin.Lib.Utf8
import Mathlib.Data.List.Sort

/-!
# The ephemeral indexer

A session fetches a vault's verified events chunk by chunk into a temporary database and
hands them to the host in batches.  The byte columns of a row are sealed under the session's
key with associated data that names the vault, the row and the schema version; the integer
columns are stored as they are.

What the chain answers is an input of a request: the head, and one answer for each fetch.  A
fetch without an answer fails.
-/

namespace Pangolin.Indexer

open Symbolic Utf8
open Evm (Bytes bigEndian)

/-- A byte array of a fixed length. -/
abbrev Bytes32 := Vector UInt8 32

/-! ## Events -/

/-- An event the chain crate has fetched and verified. -/
structure VerifiedRevisionEvent where
  vaultId : Bytes32
  accountId : Bytes32
  parentRevision : Bytes32
  deviceId : Bytes32
  schemaVersion : UInt16
  sequence : Nat
  encPayload : Bytes
  signer : Vector UInt8 20
  blockNumber : Nat
  blockHash : Bytes32
  txHash : Bytes32
  logIndex : Nat
  deriving DecidableEq

/-- The wire shape of an event, with every byte field in hex. -/
structure IndexedEvent where
  vaultId : Text
  accountId : Text
  parentRevision : Text
  deviceId : Text
  schemaVersion : UInt16
  sequence : Nat
  encPayload : Text
  signer : Text
  blockNumber : Nat
  blockHash : Text
  txHash : Text
  logIndex : Nat
  deriving DecidableEq

def hexDigit (digit : Nat) : Char := "0123456789abcdef".toList.getD digit '0'

/-- `hex::encode`. -/
def hexEncode (bytes : Bytes) : Text :=
  bytes.flatMap fun byte => [hexDigit (byte.toNat / 16), hexDigit (byte.toNat % 16)]

/-- `IndexedEvent::from_verified`. -/
def IndexedEvent.fromVerified (verified : VerifiedRevisionEvent) : IndexedEvent where
  vaultId := hexEncode verified.vaultId.toList
  accountId := hexEncode verified.accountId.toList
  parentRevision := hexEncode verified.parentRevision.toList
  deviceId := hexEncode verified.deviceId.toList
  schemaVersion := verified.schemaVersion
  sequence := verified.sequence
  encPayload := hexEncode verified.encPayload
  signer := hexEncode verified.signer.toList
  blockNumber := verified.blockNumber
  blockHash := hexEncode verified.blockHash.toList
  txHash := hexEncode verified.txHash.toList
  logIndex := verified.logIndex

/-! ## Errors -/

inductive FromHexError where
  | oddLength
  | invalidHexCharacter (byte : UInt8) (index : Nat)
  deriving Repr, DecidableEq

inductive CipherError where
  | tagMismatch
  | framingTooShort
  deriving Repr, DecidableEq

/-- The causes of a protocol error. -/
inductive ProtocolCause where
  | vaultIdHexDecode (error : FromHexError)
  | vaultIdLength (length : Nat)
  | endBeforeStart (endBlock startBlock : Nat)
  | pullBeforeStartIndex
  deriving Repr, DecidableEq

/-- What a tamper error names: an integer out of range or a column that does not open. -/
inductive TamperContext where
  | pageSeqOutOfRange (raw : Int)
  | schemaVersionOutOfRange (raw : Int)
  | column (name : String) (error : CipherError)
  deriving Repr, DecidableEq

inductive IndexerError where
  | tempDbIo
  | chainSync
  | protocolError (cause : ProtocolCause)
  | cipherTamper (context : TamperContext)
  deriving Repr, DecidableEq

/-! ## Integers -/

def i64Max : Nat := 2 ^ 63 - 1

def u64Max : Nat := 2 ^ 64 - 1

/-- `i64::try_from(value).unwrap_or(i64::MAX)`. -/
def toI64 (value : Nat) : Int := (min value i64Max : Nat)

/-- `u64::try_from(value)` on an `i64`. -/
def toU64? (value : Int) : Option Nat :=
  if 0 ≤ value then some value.toNat else none

/-- `u16::try_from(value)` on an `i64`. -/
def toU16? (value : Int) : Option UInt16 :=
  if 0 ≤ value ∧ value < 65536 then some (UInt16.ofNat value.toNat) else none

/-- `u64::saturating_add`. -/
def saturatingAdd (first second : Nat) : Nat := min (first + second) u64Max

/-! ## The cipher -/

/-- The key of a session's cipher. -/
structure PageKey where
  raw : Nat
  deriving Repr, DecidableEq

/-- A framed page: key, associated data and plaintext. -/
abbrev Page := Sealed PageKey Bytes Bytes

/-- The content of a byte column: a sealed page, or other bytes, long enough for a frame or
not. -/
inductive Blob where
  | page (page : Page)
  | other (framed : Bool)
  deriving Repr, DecidableEq

/-- `encrypt_page`, up to the nonce. -/
def encryptPage (key : PageKey) (plaintext aad : Bytes) : Blob := .page ⟨key, aad, plaintext⟩

/-- `decrypt_page`. -/
def decryptPage (key : PageKey) (aad : Bytes) : Blob → Except CipherError Bytes
  | .page page =>
      match page.open? key aad with
      | some plaintext => .ok plaintext
      | none => .error .tagMismatch
  | .other true => .error .tagMismatch
  | .other false => .error .framingTooShort

/-- `unwrap_column`. -/
def unwrapColumn (key : PageKey) (name : String) (blob : Blob) (aad : Bytes) :
    Except IndexerError Bytes :=
  match decryptPage key aad blob with
  | .ok plaintext => .ok plaintext
  | .error error => .error (.cipherTamper (.column name error))

/-- `build_aad`. -/
def buildAad (vaultId : Bytes32) (pageId : Nat) (schemaVersion : UInt16) : Bytes :=
  vaultId.toList ++ bigEndian 8 pageId ++ bigEndian 2 schemaVersion.toNat

/-! ## The table -/

/-- A row of `cached_revisions`. -/
structure CachedRevision where
  rowid : Int
  pageSeq : Int
  vaultId : Blob
  accountId : Blob
  parentRevision : Blob
  deviceId : Blob
  schemaVersion : Int
  sequence : Int
  encPayload : Blob
  signer : Blob
  blockNumber : Int
  blockHash : Blob
  txHash : Blob
  logIndex : Int
  deriving DecidableEq

/-- The byte columns. -/
def CachedRevision.blobs (row : CachedRevision) : List Blob :=
  [row.vaultId, row.accountId, row.parentRevision, row.deviceId, row.encPayload, row.signer,
    row.blockHash, row.txHash]

/-- The row `persist_chunk` writes for an event. -/
def sealRow (key : PageKey) (bound : Bytes32) (rowid pageSeq : Nat)
    (event : VerifiedRevisionEvent) : CachedRevision :=
  let aad := buildAad bound pageSeq event.schemaVersion
  { rowid
    pageSeq := toI64 pageSeq
    vaultId := encryptPage key event.vaultId.toList aad
    accountId := encryptPage key event.accountId.toList aad
    parentRevision := encryptPage key event.parentRevision.toList aad
    deviceId := encryptPage key event.deviceId.toList aad
    schemaVersion := event.schemaVersion.toNat
    sequence := toI64 event.sequence
    encPayload := encryptPage key event.encPayload aad
    signer := encryptPage key event.signer.toList aad
    blockNumber := toI64 event.blockNumber
    blockHash := encryptPage key event.blockHash.toList aad
    txHash := encryptPage key event.txHash.toList aad
    logIndex := toI64 event.logIndex }

/-- The table and the last row id it has given out. -/
structure TempDb where
  rows : List CachedRevision
  lastRowid : Nat
  deriving DecidableEq

/-- `INSERT INTO cached_revisions`: row ids are not used twice and end at the largest `i64`,
and a `page_seq` is stored once. -/
def TempDb.insert (db : TempDb) (row : Nat → CachedRevision) : Option TempDb :=
  let rowid := db.lastRowid + 1
  if i64Max < rowid then none
  else if db.rows.any fun other => other.pageSeq = (row rowid).pageSeq then none
  else some ⟨db.rows ++ [row rowid], rowid⟩

/-- `WHERE rowid > ? ORDER BY rowid ASC LIMIT ?`. -/
def TempDb.select (db : TempDb) (after : Int) (limit : Nat) : List CachedRevision :=
  let rows := db.rows.filter fun row => after < row.rowid
  (rows.insertionSort fun first second => first.rowid ≤ second.rowid).take limit

/-! ## The session -/

structure IndexerSession where
  key : PageKey
  db : TempDb
  boundVault : Option Bytes32
  nextPullOffset : Nat
  startBlock : Nat
  endBlock : Nat
  lastProcessedBlock : Nat
  totalBlocks : Nat
  pageSeqCounter : Nat
  deriving DecidableEq

/-- `IndexerSession::new`. -/
def IndexerSession.new (key : PageKey) : IndexerSession where
  key
  db := ⟨[], 0⟩
  boundVault := none
  nextPullOffset := 0
  startBlock := 0
  endBlock := 0
  lastProcessedBlock := 0
  totalBlocks := 0
  pageSeqCounter := 0

/-! ### Persisting -/

/-- One turn of the loop of `persist_chunk`: events of other vaults are skipped, and the
counter moves on before the insert that can fail. -/
def persistEvent (bound : Bytes32) (session : IndexerSession) (event : VerifiedRevisionEvent) :
    IndexerSession × Except IndexerError Unit :=
  if event.vaultId ≠ bound then
    (session, .ok ())
  else
    let pageSeq := session.pageSeqCounter
    let session := { session with pageSeqCounter := (pageSeq + 1) % 2 ^ 64 }
    match session.db.insert fun rowid => sealRow session.key bound rowid pageSeq event with
    | none => (session, .error .tempDbIo)
    | some db => ({ session with db }, .ok ())

/-- `persist_chunk`. -/
def persistChunk (bound : Bytes32) :
    IndexerSession → List VerifiedRevisionEvent → IndexerSession × Except IndexerError Unit
  | session, [] => (session, .ok ())
  | session, event :: events =>
      match persistEvent bound session event with
      | (session, .error error) => (session, .error error)
      | (session, .ok ()) => persistChunk bound session events

/-! ### Fetching -/

/-- `CHAIN_SYNC_LOG_BLOCK_CHUNK`. -/
def chainSyncLogBlockChunk : Nat := 9000

/-- The chain's answer to one fetch, by the first and the last block asked for. -/
abbrev Fetch := Nat → Nat → Option (List VerifiedRevisionEvent)

/-- What the chain answers during a request: its head, and the fetches in turn. -/
structure ChainAnswers where
  head : Option Nat
  fetches : List Fetch

/-- The last block of the chunk that starts at the cursor. -/
def chunkEnd (cursor endBlock : Nat) : Nat :=
  min (saturatingAdd cursor (chainSyncLogBlockChunk - 1)) endBlock

/-- `run_chunk_loop` from a cursor. -/
def runChunkLoop (vaultId : Bytes32) :
    Nat → List Fetch → IndexerSession → IndexerSession × Except IndexerError Unit
  | cursor, [], session =>
      (session, if cursor ≤ session.endBlock then .error .chainSync else .ok ())
  | cursor, fetch :: fetches, session =>
      if cursor ≤ session.endBlock then
        let last := chunkEnd cursor session.endBlock
        match fetch cursor last with
        | none => (session, .error .chainSync)
        | some verified =>
            match persistChunk vaultId session verified with
            | (session, .error error) => (session, .error error)
            | (session, .ok ()) =>
                let session := { session with lastProcessedBlock := last }
                let next := saturatingAdd last 1
                if next = 0 then (session, .ok ()) else runChunkLoop vaultId next fetches session
      else
        (session, .ok ())

/-! ### Requests -/

inductive IndexerRequest where
  | startIndex (vaultId : Text) (startBlock : Nat) (endBlock : Option Nat)
  | pull (batchSize : Nat)
  | heartbeat
  | stop
  deriving Repr, DecidableEq

inductive IndexerResponse where
  | started (protocolVersion : Nat) (vaultId : Text)
  | batch (events : List IndexedEvent)
  | heartbeat
  | stopped
  deriving DecidableEq

/-- What a request leaves behind and returns. -/
abbrev Handled := IndexerSession × Except IndexerError IndexerResponse

def protocolVersion : Nat := 1

/-- The value of a hex digit, of either case. -/
def hexValue (byte : UInt8) : Option Nat :=
  if 'A'.toNat ≤ byte.toNat ∧ byte.toNat ≤ 'F'.toNat then some (byte.toNat - 'A'.toNat + 10)
  else if 'a'.toNat ≤ byte.toNat ∧ byte.toNat ≤ 'f'.toNat then
    some (byte.toNat - 'a'.toNat + 10)
  else if '0'.toNat ≤ byte.toNat ∧ byte.toNat ≤ '9'.toNat then some (byte.toNat - '0'.toNat)
  else none

/-- The pairs of `hex::decode`, from an index on. -/
def hexPairs : Nat → Bytes → Except FromHexError Bytes
  | index, high :: low :: rest =>
      match hexValue high, hexValue low with
      | none, _ => .error (.invalidHexCharacter high index)
      | some _, none => .error (.invalidHexCharacter low (index + 1))
      | some highValue, some lowValue => do
          let decoded ← hexPairs (index + 2) rest
          return UInt8.ofNat (highValue * 16 + lowValue) :: decoded
  | _, _ => .ok []

/-- `hex::decode`. -/
def hexDecode (bytes : Bytes) : Except FromHexError Bytes :=
  if bytes.length % 2 ≠ 0 then .error .oddLength else hexPairs 0 bytes

/-- `decode_vault_id`. -/
def decodeVaultId (text : Text) : Except IndexerError Bytes32 :=
  match hexDecode (encode text) with
  | .error error => .error (.protocolError (.vaultIdHexDecode error))
  | .ok raw =>
      if fits : raw.length = 32 then .ok ⟨raw.toArray, by simpa using fits⟩
      else .error (.protocolError (.vaultIdLength raw.length))

/-- `handle_start_index`.  The vault is bound and the first block set before the head is
known and the range checked. -/
def handleStartIndex (session : IndexerSession) (answers : ChainAnswers) (vaultIdHex : Text)
    (startBlock : Nat) (endBlock : Option Nat) : Handled :=
  match decodeVaultId vaultIdHex with
  | .error error => (session, .error error)
  | .ok vaultId =>
      let session := { session with boundVault := some vaultId, startBlock }
      match endBlock <|> answers.head with
      | none => (session, .error .chainSync)
      | some last =>
          if last < startBlock then
            (session, .error (.protocolError (.endBeforeStart last startBlock)))
          else
            let session := { session with
              endBlock := last
              totalBlocks := saturatingAdd (last - startBlock) 1
              lastProcessedBlock := startBlock - 1
              nextPullOffset := 0 }
            match runChunkLoop vaultId startBlock answers.fetches session with
            | (session, .error error) => (session, .error error)
            | (session, .ok ()) => (session, .ok (.started protocolVersion vaultIdHex))

/-! ### Pulling -/

/-- `PULL_BATCH_SIZE_MAX`. -/
def pullBatchSizeMax : Nat := 1024

/-- The columns of a row whose integers are in range; nothing for a row of another vault. -/
def openRow (key : PageKey) (bound : Bytes32) (row : CachedRevision) (pageSeq : Nat)
    (schemaVersion : UInt16) : Except IndexerError (Option IndexedEvent) := do
  let aad := buildAad bound pageSeq schemaVersion
  let vaultId ← unwrapColumn key "vault_id" row.vaultId aad
  if vaultId ≠ bound.toList then
    return none
  else
    let accountId ← unwrapColumn key "account_id" row.accountId aad
    let parentRevision ← unwrapColumn key "parent_revision" row.parentRevision aad
    let deviceId ← unwrapColumn key "device_id" row.deviceId aad
    let encPayload ← unwrapColumn key "enc_payload" row.encPayload aad
    let signer ← unwrapColumn key "signer" row.signer aad
    let blockHash ← unwrapColumn key "block_hash" row.blockHash aad
    let txHash ← unwrapColumn key "tx_hash" row.txHash aad
    return some
      { vaultId := hexEncode vaultId
        accountId := hexEncode accountId
        parentRevision := hexEncode parentRevision
        deviceId := hexEncode deviceId
        schemaVersion
        sequence := (toU64? row.sequence).getD 0
        encPayload := hexEncode encPayload
        signer := hexEncode signer
        blockNumber := (toU64? row.blockNumber).getD 0
        blockHash := hexEncode blockHash
        txHash := hexEncode txHash
        logIndex := (toU64? row.logIndex).getD 0 }

/-- One row of `handle_pull`. -/
def readRow (key : PageKey) (bound : Bytes32) (row : CachedRevision) :
    Except IndexerError (Option IndexedEvent) :=
  match toU64? row.pageSeq, toU16? row.schemaVersion with
  | none, _ => .error (.cipherTamper (.pageSeqOutOfRange row.pageSeq))
  | some _, none => .error (.cipherTamper (.schemaVersionOutOfRange row.schemaVersion))
  | some pageSeq, some schemaVersion => openRow key bound row pageSeq schemaVersion

/-- The loop of `handle_pull`. -/
def readRows (key : PageKey) (bound : Bytes32) :
    List CachedRevision → Except IndexerError (List IndexedEvent)
  | [] => .ok []
  | row :: rows => do
      let event ← readRow key bound row
      let events ← readRows key bound rows
      return event.toList ++ events

/-- `handle_pull`.  The position moves by the number of events returned; it is compared with
row ids. -/
def handlePull (session : IndexerSession) (batchSize : Nat) : Handled :=
  let limit := min batchSize pullBatchSizeMax
  if limit = 0 then
    (session, .ok (.batch []))
  else
    match session.boundVault with
    | none => (session, .error (.protocolError .pullBeforeStartIndex))
    | some bound =>
        let offset := toI64 session.nextPullOffset
        match readRows session.key bound (session.db.select offset limit) with
        | .error error => (session, .error error)
        | .ok events =>
            let highestRowid := min (offset + events.length) i64Max
            ({ session with nextPullOffset := highestRowid.toNat }, .ok (.batch events))

/-- `handle_request`. -/
def handleRequest (session : IndexerSession) (answers : ChainAnswers) : IndexerRequest → Handled
  | .startIndex vaultId startBlock endBlock =>
      handleStartIndex session answers vaultId startBlock endBlock
  | .pull batchSize => handlePull session batchSize
  | .heartbeat => (session, .ok .heartbeat)
  | .stop => (session, .ok .stopped)

/-! ## What a stored row gives back -/

theorem toU64?_toI64 (value : Nat) : toU64? (toI64 value) = some (min value i64Max) := by
  rw [toU64?, toI64, if_pos (Int.natCast_nonneg _), Int.toNat_natCast]

theorem toI64_of_le {value : Nat} (fits : value ≤ i64Max) : toI64 value = value := by
  rw [toI64, Nat.min_eq_left fits]

theorem toU16?_toNat (value : UInt16) : toU16? (value.toNat : Int) = some value := by
  have below : value.toNat < 65536 := value.toNat_lt
  unfold toU16?
  rw [if_pos ⟨by omega, by omega⟩]
  simp

/-- The associated data names the vault, the row and the schema version. -/
theorem buildAad_inj {vaultId vaultId' : Bytes32} {pageId pageId' : Nat}
    {schemaVersion schemaVersion' : UInt16}
    (same : buildAad vaultId pageId schemaVersion = buildAad vaultId' pageId' schemaVersion') :
    vaultId = vaultId' ∧ pageId % 2 ^ 64 = pageId' % 2 ^ 64 ∧
      schemaVersion = schemaVersion' := by
  unfold buildAad at same
  obtain ⟨front, schema⟩ := List.append_inj same (by simp [Evm.length_bigEndian])
  obtain ⟨vault, page⟩ := List.append_inj front (by simp)
  refine ⟨Vector.toList_inj.mp vault, ?_, ?_⟩
  · have decoded := congrArg Evm.ofBigEndian page
    simpa [Evm.ofBigEndian_bigEndian] using decoded
  · have decoded := congrArg Evm.ofBigEndian schema
    simp only [Evm.ofBigEndian_bigEndian] at decoded
    have below : schemaVersion.toNat < 65536 := schemaVersion.toNat_lt
    have below' : schemaVersion'.toNat < 65536 := schemaVersion'.toNat_lt
    apply UInt16.toNat_inj.mp
    omega

/-- The event a row gives back: its integers end at the largest `i64`. -/
def storedEvent (event : VerifiedRevisionEvent) : IndexedEvent :=
  { IndexedEvent.fromVerified event with
    sequence := min event.sequence i64Max
    blockNumber := min event.blockNumber i64Max
    logIndex := min event.logIndex i64Max }

/-- A column opens with the associated data it was sealed with. -/
theorem unwrapColumn_sealed (key : PageKey) (name : String) (plaintext aad : Bytes) :
    unwrapColumn key name (encryptPage key plaintext aad) aad = .ok plaintext := by
  simp [unwrapColumn, encryptPage, decryptPage, Sealed.open?]

/-- The integers of a stored row are in range. -/
theorem readRow_stored (key : PageKey) (bound vault : Bytes32) (rowid pageSeq : Nat)
    (event : VerifiedRevisionEvent) :
    readRow key bound (sealRow key vault rowid pageSeq event) =
      openRow key bound (sealRow key vault rowid pageSeq event) (min pageSeq i64Max)
        event.schemaVersion := by
  have page : toU64? (sealRow key vault rowid pageSeq event).pageSeq =
      some (min pageSeq i64Max) := toU64?_toI64 pageSeq
  have schema : toU16? (sealRow key vault rowid pageSeq event).schemaVersion =
      some event.schemaVersion := toU16?_toNat event.schemaVersion
  rw [readRow, page, schema]

/-- A row of the bound vault is read back. -/
theorem readRow_sealRow (key : PageKey) {bound : Bytes32} (rowid : Nat) {pageSeq : Nat}
    {event : VerifiedRevisionEvent} (vault : event.vaultId = bound) (few : pageSeq ≤ i64Max) :
    readRow key bound (sealRow key bound rowid pageSeq event) = .ok (some (storedEvent event)) := by
  rw [readRow_stored, Nat.min_eq_left few]
  subst vault
  simp [openRow, sealRow, toU64?_toI64, unwrapColumn_sealed, storedEvent,
    IndexedEvent.fromVerified, bind, Except.bind, pure, Except.pure]

/-- A row sealed for another vault does not open. -/
theorem readRow_of_ne (key : PageKey) {bound vault : Bytes32} (different : vault ≠ bound)
    (rowid pageSeq : Nat) (event : VerifiedRevisionEvent) :
    readRow key bound (sealRow key vault rowid pageSeq event) =
      .error (.cipherTamper (.column "vault_id" .tagMismatch)) := by
  have aad : buildAad vault pageSeq event.schemaVersion ≠
      buildAad bound (min pageSeq i64Max) event.schemaVersion := by
    intro same
    exact different (buildAad_inj same).1
  rw [readRow_stored]
  simp [openRow, sealRow, unwrapColumn, encryptPage, decryptPage, Sealed.open?, aad, bind,
    Except.bind]

namespace IndexerSample

def vault (byte : UInt8) : Bytes32 := Vector.replicate 32 byte

def vaultHex (byte : UInt8) : Text := hexEncode (vault byte).toList

/-- A revision of the first vault. -/
def event : VerifiedRevisionEvent where
  vaultId := vault 1
  accountId := vault 2
  parentRevision := vault 0
  deviceId := vault 3
  schemaVersion := 1
  sequence := 0
  encPayload := [7, 8]
  signer := Vector.replicate 20 4
  blockNumber := 2
  blockHash := vault 5
  txHash := vault 6
  logIndex := 0

end IndexerSample

end Pangolin.Indexer
