import Mathlib.Algebra.Ring.Nat
import Pangolin.Crypto.Escrow
import Pangolin.Lib.Table

/-!
# The vault file

One structure per table of the SQLite schema, with the columns the modelled
operations read or write, grouped by what they are for: the key material, the
guardian escrow, the recovery recipients, and the revision log.

A revision payload is kept as a ciphertext: either sealed by a holder of some VDK,
or bytes nobody here can open.
-/

namespace Pangolin.Store

open Symbolic Crypto

structure AccountId where
  raw : Nat
  deriving Repr, DecidableEq

/-- A 32-byte revision id; its byte order is the order of the number. -/
structure RevisionId where
  raw : Nat
  deriving Repr, DecidableEq

/-- The all-zero parent of a genesis revision. -/
def RevisionId.genesisParent : RevisionId := ⟨0⟩

/-! ## Errors -/

inductive StoreError where
  | authenticationFailed
  | notUnlocked
  | sessionExpired
  | sessionPending
  | accountNotFound
  | accountTombstoned
  | accountFrozenPendingResolve (accountId : AccountId)
  | revisionNotFound
  | unsupportedRevisionSchemaVersion (accountId : AccountId) (revisionId : RevisionId)
      (found supported : Nat)
  | notAHead (accountId : AccountId) (chosen : RevisionId) (currentHeads : List RevisionId)
  | validation (kind message : String)
  | corrupted (what : String)
  | checkpointOutOfRange (requested available : Nat)
  | presenceProofRequired
  | promptTimedOut
  | chainSignError
  | sqlite
  | unreachableCode
  deriving Repr, DecidableEq

/-- An `i64` column refuses values from `2^63` on. -/
def fitsI64 (value : Nat) : Bool := decide (value < 2 ^ 63)

/-! ## Key tables -/

/-- The single `meta` row. -/
structure VaultMeta where
  vaultId : VaultId
  createdAt : Int
  kdfParams : KdfParams
  kdfSalt : KdfSalt
  wrapContext : WrapContext
  wrapped : WrappedVdk
  deriving Repr, DecidableEq

/-- The columns of the `meta` row that later migrations added; they are read and written
one by one. -/
structure MetaSettings where
  sessionIdleSecs : Option Int
  syncModePreference : Option String
  revisionlogVersion : Option Int
  deriving Repr, DecidableEq

/-- All three columns `NULL`. -/
def MetaSettings.unset : MetaSettings := ⟨none, none, none⟩

/-- One `vdk_chain` row: a retained epoch's VDK under the password authority and
under the local device key. -/
structure RetainedEpoch where
  epoch : Nat
  anchor : WrappedVdk
  anchorWrapSchema : Nat
  deviceWrapped : DeviceWrappedVdk
  deriving Repr, DecidableEq

/-- One `devices` row. -/
structure DeviceRow where
  deviceId : DeviceId
  label : String
  addedAt : Int
  evmAddress : Option EvmAddress
  discoveredViaChainSync : Bool
  deriving Repr, DecidableEq

/-- The sealed device seed; bound to the vault and the device. -/
abbrev SealedDeviceKey := Sealed VdkKey (VaultId × DeviceId) DeviceKey

structure KeyTables where
  vaultMeta : VaultMeta
  vdkChain : List RetainedEpoch
  /-- `vdk_chain_state.current_epoch`; absent on a vault that never rotated. -/
  vdkChainState : Option Nat
  devices : List DeviceRow
  deviceKey : Option SealedDeviceKey
  settings : MetaSettings
  deriving Repr, DecidableEq

/-- `meta::write`: an `INSERT OR REPLACE` that names the columns of `VaultMeta` only, so
the others of the row become `NULL`. -/
abbrev writeMeta (keys : KeyTables) (vaultMeta : VaultMeta) : KeyTables :=
  { keys with vaultMeta, settings := .unset }

/-! ## Escrow and recovery tables -/

structure EscrowRow where
  wrappedRecovery : WrappedVdkRecovery
  wrapSchemaVersion : Nat
  threshold : Nat
  guardianCount : Nat
  epoch : Nat
  deriving Repr, DecidableEq

/-- What a guardian row's second seal is bound to: vault, epoch and slot. -/
structure ShareAad where
  vaultId : VaultId
  epoch : Nat
  index : Nat
  deriving Repr, DecidableEq

structure GuardianRow where
  index : Nat
  guardianPub : X25519Pub
  signer : EvmAddress
  encSealedShare : Sealed VdkKey ShareAad SealedBox
  deriving Repr, DecidableEq

structure EscrowTables where
  escrow : Option EscrowRow
  guardians : List GuardianRow
  deriving Repr, DecidableEq

/-- One `recovery_recipient` row: the ephemeral X25519 key of a recovery attempt
for another vault. -/
structure RecipientRow where
  targetVaultId : VaultId
  attemptNonce : Nat
  pub : X25519Pub
  encSecret : Sealed VdkKey (VaultId × Nat) X25519Secret
  createdAtUnix : Int
  deriving Repr, DecidableEq

/-! ## Device directory and pending rotations -/

structure DirectoryEntry where
  signer : EvmAddress
  deviceId : DeviceId
  pairingPub : X25519Pub
  deriving Repr, DecidableEq

structure RotationPending where
  removedSigner : EvmAddress
  observedEpoch : Nat
  observedAt : Int
  resolved : Bool
  deriving Repr, DecidableEq

structure DeviceSetTables where
  directory : List DirectoryEntry
  rotationPending : List RotationPending
  deriving Repr, DecidableEq

/-! ## The revision log -/

structure PasswordEntry where
  password : List UInt8
  setAtMs : Int
  originatingDevice : DeviceId
  deriving Repr, DecidableEq

structure TotpParams where
  algorithm : Nat
  digits : Nat
  period : Nat
  deriving Repr, DecidableEq

structure AccountIdentity where
  displayName : List UInt8
  tags : List (List UInt8)
  notes : List UInt8
  urls : List (List UInt8)
  usernames : List (List UInt8)
  passwordHistory : List PasswordEntry
  totpSecret : List UInt8
  totpParams : TotpParams
  deriving Repr, DecidableEq

/-- A decoded revision payload.  `future` is a body whose own version is newer than
this build understands. -/
inductive IdentityPayload where
  | live (identity : AccountIdentity)
  | tombstone (accountId : AccountId) (tombstonedAtMs : Nat)
  | future (payloadVersion : Nat)
  deriving Repr, DecidableEq

/-- `build_aad`: what a revision payload is bound to. -/
structure RevisionAad where
  vaultId : VaultId
  accountId : AccountId
  parent : RevisionId
  schemaVersion : Nat
  deriving Repr, DecidableEq

/-- The `enc_payload` column.  The nonce column is separate, so a sealed payload
remembers it. -/
inductive Ciphertext where
  | sealedPayload (box : Sealed VdkKey (Nonce × RevisionAad) IdentityPayload)
  | bytes (raw : List UInt8)
  deriving Repr, DecidableEq

def Ciphertext.open? (ciphertext : Ciphertext) (vdk : VdkKey) (nonce : Nonce)
    (aad : RevisionAad) : Option IdentityPayload :=
  match ciphertext with
  | .sealedPayload box => box.open? vdk (nonce, aad)
  | .bytes _ => none

def sealPayload (vdk : VdkKey) (nonce : Nonce) (aad : RevisionAad)
    (payload : IdentityPayload) : Ciphertext :=
  .sealedPayload ⟨vdk, (nonce, aad), payload⟩

@[simp] theorem open?_sealPayload (vdk : VdkKey) (nonce : Nonce) (aad : RevisionAad)
    (payload : IdentityPayload) :
    (sealPayload vdk nonce aad payload).open? vdk nonce aad = some payload := by
  simp [sealPayload, Ciphertext.open?, Sealed.open?]

/-- Where a revision was logged: transaction, block and log index. -/
structure ChainAnchor where
  txHash : Nat
  blockNumber : Nat
  logIndex : Nat
  deriving Repr, DecidableEq

inductive RevisionStatus where
  | pending
  | finalized
  deriving Repr, DecidableEq

structure RevisionRow where
  revisionId : RevisionId
  accountId : AccountId
  parent : RevisionId
  deviceId : DeviceId
  schemaVersion : Nat
  createdAt : Int
  encPayload : Ciphertext
  encNonce : Nonce
  isTombstone : Bool
  chainAnchor : Option ChainAnchor := none
  supersededBy : Option RevisionId := none
  vdkEpoch : Nat := 0
  revoked : Bool := false
  recoveredSigner : Option EvmAddress := none
  status : RevisionStatus := .finalized
  observedAtBlock : Option Nat := none
  observedBlockHash : Option Nat := none
  deriving Repr, DecidableEq

structure AccountRow where
  accountId : AccountId
  createdAt : Int
  lastModifiedAt : Int
  tombstoned : Bool
  headRevisionId : RevisionId
  frozenPendingResolve : Bool := false
  deriving Repr, DecidableEq

structure DirtyMarker where
  accountId : AccountId
  revisionId : RevisionId
  markedAt : Int
  deriving Repr, DecidableEq

/-- A stashed merge revision, sealed before its publication. -/
structure PendingMergeRow where
  accountId : AccountId
  targetHeadId : RevisionId
  deviceSecret : Nat
  aeadNonce : Nonce
  encPayload : Ciphertext
  schemaVersion : Nat
  createdAtMs : Int
  deriving Repr, DecidableEq

structure RevisionTables where
  accounts : List AccountRow
  revisions : List RevisionRow
  dirtyAccounts : List DirtyMarker
  pendingMerges : List PendingMergeRow
  deriving Repr, DecidableEq

/-- The whole file. -/
structure Disk where
  keys : KeyTables
  escrow : EscrowTables
  recipients : List RecipientRow
  deviceSet : DeviceSetTables
  log : RevisionTables
  deriving Repr, DecidableEq

end Pangolin.Store
