import Pangolin.Contracts.Evm

/-!
# RecoveryV2

The recovery contract: a guardian set fixed once per vault, at most one recovery attempt
at a time, guardian approvals that sign over the attempt, and a delay before the
authority moves.  Each external function is a function of the storage that reverts or
returns the new storage and the event it emits.
-/

namespace Pangolin.RecoveryV2

open Evm

inductive Status where
  | none
  | pending
  | finalized
  | canceled
  deriving Repr, DecidableEq

structure GuardianSet where
  root : Bytes32
  threshold : UInt8
  guardianCount : UInt8
  initialized : Bool
  deriving Repr, DecidableEq

structure Recovery where
  proposedAuthority : Address
  initiatedAt : UInt64
  attemptNonce : UInt64
  approvals : UInt8
  status : Status
  recipientCommitment : Bytes32
  deriving Repr, DecidableEq

structure Storage where
  guardianSet : Bytes32 → GuardianSet
  vaultAuthority : Bytes32 → Address
  recovery : Bytes32 → Recovery
  hasApproved : Bytes32 → UInt64 → Address → Bool

/-- The storage of a new deployment: every slot zero. -/
def Storage.empty : Storage where
  guardianSet _ := ⟨0, 0, 0, false⟩
  vaultAuthority _ := 0
  recovery _ := ⟨0, 0, 0, 0, .none, 0⟩
  hasApproved _ _ _ := false

inductive Event where
  | guardianSetInitialized (vaultId root : Bytes32) (threshold guardianCount : UInt8)
      (initialAuthority : Address) (schemaVersion : UInt16)
  | recoveryInitiated (vaultId : Bytes32) (attemptNonce : UInt64) (proposedAuthority : Address)
      (initiatedAt : UInt64) (recipientCommitment : Bytes32) (schemaVersion : UInt16)
  | recoveryApproved (vaultId : Bytes32) (attemptNonce : UInt64) (guardian : Address)
      (approvals : UInt8) (schemaVersion : UInt16)
  | recoveryCanceled (vaultId : Bytes32) (attemptNonce : UInt64) (schemaVersion : UInt16)
  | recoveryFinalized (vaultId : Bytes32) (attemptNonce : UInt64)
      (oldAuthority newAuthority : Address) (schemaVersion : UInt16)
  deriving Repr, DecidableEq

inductive Revert where
  | guardianSetAlreadyInitialized
  | thresholdOutOfBounds
  | guardianCountOutOfBounds
  | zeroValue
  | guardianSetNotInitialized
  | recoveryAlreadyPending
  | noActiveRecovery
  | invalidSignature
  | invalidMerkleProof
  | duplicateApproval
  | delayNotElapsed
  | thresholdNotMet
  | notAuthorizedToCancel
  | approvalExpired
  | unsupportedSchemaVersion
  deriving Repr, DecidableEq

def maxKnownSchemaVersion : UInt16 := 1

/-- `MIN_DELAY`, 72 hours in seconds. -/
def minDelay : Nat := 72 * 3600

def minThreshold : UInt8 := 2

def maxThreshold : UInt8 := 9

def minGuardians : UInt8 := 3

def maxGuardians : UInt8 := 15

def setGuardianSet (context : Context) (storage : Storage) (vaultId root : Bytes32)
    (threshold guardianCount : UInt8) (schemaVersion : UInt16) :
    Except Revert (Storage × Event) :=
  if maxKnownSchemaVersion < schemaVersion then
    .error .unsupportedSchemaVersion
  else if (storage.guardianSet vaultId).initialized then
    .error .guardianSetAlreadyInitialized
  else if root = 0 then
    .error .zeroValue
  else if guardianCount < minGuardians ∨ maxGuardians < guardianCount then
    .error .guardianCountOutOfBounds
  else if threshold < minThreshold ∨ maxThreshold < threshold ∨ guardianCount < threshold then
    .error .thresholdOutOfBounds
  else
    .ok ({ storage with
        guardianSet := Function.update storage.guardianSet vaultId
          ⟨root, threshold, guardianCount, true⟩
        vaultAuthority := Function.update storage.vaultAuthority vaultId context.sender },
      .guardianSetInitialized vaultId root threshold guardianCount context.sender schemaVersion)

def initiateRecovery (context : Context) (storage : Storage) (vaultId : Bytes32)
    (proposedAuthority : Address) (recipientCommitment : Bytes32) (schemaVersion : UInt16) :
    Except Revert (Storage × Event) :=
  let attempt := storage.recovery vaultId
  if maxKnownSchemaVersion < schemaVersion then
    .error .unsupportedSchemaVersion
  else if ¬ (storage.guardianSet vaultId).initialized then
    .error .guardianSetNotInitialized
  else if proposedAuthority = 0 then
    .error .zeroValue
  else if recipientCommitment = 0 then
    .error .zeroValue
  else if attempt.status = .pending then
    .error .recoveryAlreadyPending
  else
    -- unchecked: both the nonce and the timestamp wrap at 2^64
    let newNonce := attempt.attemptNonce + 1
    let initiatedAt := UInt64.ofNat context.timestamp
    .ok ({ storage with
        recovery := Function.update storage.recovery vaultId
          ⟨proposedAuthority, initiatedAt, newNonce, 0, .pending, recipientCommitment⟩ },
      .recoveryInitiated vaultId newNonce proposedAuthority initiatedAt recipientCommitment
        schemaVersion)

/-- `_hashApprove`. -/
def hashApprove (machine : Machine) (vaultId : Bytes32) (proposedAuthority : Address)
    (attemptNonce expiresAt : UInt64) (recipientCommitment : Bytes32) (schemaVersion : UInt16) :
    Bytes32 :=
  let typeHash := machine.keccakString <|
    "Approve(bytes32 vaultId,address proposedAuthority,uint64 attemptNonce," ++
      "uint64 expiresAt,bytes32 recipientCommitment,uint16 schemaVersion)"
  let structHash := machine.keccak256 (abiEncode [
    typeHash.toNat, vaultId.toNat, proposedAuthority.toNat, attemptNonce.toNat,
    expiresAt.toNat, recipientCommitment.toNat, schemaVersion.toNat])
  machine.typedDataHash (machine.domainSeparator "Pangolin Recovery" "1") structHash

/-- The leaf of a guardian in the committed tree. -/
def guardianLeaf (machine : Machine) (guardian : Address) : Bytes32 :=
  machine.keccak256 (abiEncode [guardian.toNat])

def approveRecovery (machine : Machine) (context : Context) (storage : Storage)
    (vaultId : Bytes32) (guardian : Address) (proof : List Bytes32) (expiresAt : UInt64)
    (schemaVersion : UInt16) (signature : Bytes) : Except Revert (Storage × Event) :=
  let attempt := storage.recovery vaultId
  if maxKnownSchemaVersion < schemaVersion then
    .error .unsupportedSchemaVersion
  else if attempt.status ≠ .pending then
    .error .noActiveRecovery
  else if expiresAt.toNat < context.timestamp then
    .error .approvalExpired
  else if ¬ machine.verifyMerkleProof proof (storage.guardianSet vaultId).root
      (guardianLeaf machine guardian) then
    .error .invalidMerkleProof
  else
    let signer := machine.recover
      (hashApprove machine vaultId attempt.proposedAuthority attempt.attemptNonce expiresAt
        attempt.recipientCommitment schemaVersion) signature
    if signer = 0 then
      .error .invalidSignature
    else if signer ≠ guardian then
      .error .invalidSignature
    else if storage.hasApproved vaultId attempt.attemptNonce guardian then
      .error .duplicateApproval
    else
      let approved :=
        Function.update (storage.hasApproved vaultId attempt.attemptNonce) guardian true
      -- unchecked: the counter wraps at 256
      let approvals := attempt.approvals + 1
      .ok ({ storage with
          hasApproved := Function.update storage.hasApproved vaultId
            (Function.update (storage.hasApproved vaultId) attempt.attemptNonce approved)
          recovery := Function.update storage.recovery vaultId { attempt with approvals } },
        .recoveryApproved vaultId attempt.attemptNonce guardian approvals schemaVersion)

def cancelRecovery (context : Context) (storage : Storage) (vaultId : Bytes32)
    (schemaVersion : UInt16) : Except Revert (Storage × Event) :=
  let attempt := storage.recovery vaultId
  if maxKnownSchemaVersion < schemaVersion then
    .error .unsupportedSchemaVersion
  else if attempt.status ≠ .pending then
    .error .noActiveRecovery
  else if context.sender ≠ storage.vaultAuthority vaultId then
    .error .notAuthorizedToCancel
  else
    .ok ({ storage with
        recovery := Function.update storage.recovery vaultId { attempt with status := .canceled } },
      .recoveryCanceled vaultId attempt.attemptNonce schemaVersion)

def finalizeRecovery (context : Context) (storage : Storage) (vaultId : Bytes32)
    (schemaVersion : UInt16) : Except Revert (Storage × Event) :=
  let attempt := storage.recovery vaultId
  if maxKnownSchemaVersion < schemaVersion then
    .error .unsupportedSchemaVersion
  else if attempt.status ≠ .pending then
    .error .noActiveRecovery
  else if attempt.approvals < (storage.guardianSet vaultId).threshold then
    .error .thresholdNotMet
  else if context.timestamp < attempt.initiatedAt.toNat + minDelay then
    .error .delayNotElapsed
  else
    .ok ({ storage with
        recovery := Function.update storage.recovery vaultId { attempt with status := .finalized }
        vaultAuthority :=
          Function.update storage.vaultAuthority vaultId attempt.proposedAuthority },
      .recoveryFinalized vaultId attempt.attemptNonce (storage.vaultAuthority vaultId)
        attempt.proposedAuthority schemaVersion)

/-! ## Transactions -/

/-- An external call with its calldata. -/
inductive Call where
  | setGuardianSet (vaultId root : Bytes32) (threshold guardianCount : UInt8)
      (schemaVersion : UInt16)
  | initiateRecovery (vaultId : Bytes32) (proposedAuthority : Address)
      (recipientCommitment : Bytes32) (schemaVersion : UInt16)
  | approveRecovery (vaultId : Bytes32) (guardian : Address) (proof : List Bytes32)
      (expiresAt : UInt64) (schemaVersion : UInt16) (signature : Bytes)
  | cancelRecovery (vaultId : Bytes32) (schemaVersion : UInt16)
  | finalizeRecovery (vaultId : Bytes32) (schemaVersion : UInt16)
  deriving Repr, DecidableEq

structure Transaction where
  context : Context
  call : Call
  deriving Repr, DecidableEq

def execute (machine : Machine) (storage : Storage) (tx : Transaction) :
    Except Revert (Storage × Event) :=
  match tx.call with
  | .setGuardianSet vaultId root threshold guardianCount schemaVersion =>
      setGuardianSet tx.context storage vaultId root threshold guardianCount schemaVersion
  | .initiateRecovery vaultId proposedAuthority recipientCommitment schemaVersion =>
      initiateRecovery tx.context storage vaultId proposedAuthority recipientCommitment
        schemaVersion
  | .approveRecovery vaultId guardian proof expiresAt schemaVersion signature =>
      approveRecovery machine tx.context storage vaultId guardian proof expiresAt schemaVersion
        signature
  | .cancelRecovery vaultId schemaVersion =>
      cancelRecovery tx.context storage vaultId schemaVersion
  | .finalizeRecovery vaultId schemaVersion =>
      finalizeRecovery tx.context storage vaultId schemaVersion

/-- A mined transaction: what it emitted, or why it reverted. -/
structure Receipt where
  tx : Transaction
  outcome : Except Revert Event
  deriving DecidableEq

/-- The contract on its chain: the storage, the last block's time and every receipt,
oldest first. -/
structure Chain where
  storage : Storage
  timestamp : Nat
  receipts : List Receipt

def Chain.deployed : Chain := ⟨.empty, 0, []⟩

/-- Mine one transaction; a revert changes no storage. -/
def Chain.submit (machine : Machine) (chain : Chain) (tx : Transaction) : Chain :=
  match execute machine chain.storage tx with
  | .ok (storage, event) => ⟨storage, tx.context.timestamp, chain.receipts ++ [⟨tx, .ok event⟩]⟩
  | .error revert =>
      ⟨chain.storage, tx.context.timestamp, chain.receipts ++ [⟨tx, .error revert⟩]⟩

/-- Block timestamps never decrease and stay below `2^64`. -/
def Chain.InOrder (chain : Chain) (tx : Transaction) : Prop :=
  chain.timestamp ≤ tx.context.timestamp ∧ tx.context.timestamp < 2 ^ 64

instance (chain : Chain) (tx : Transaction) : Decidable (chain.InOrder tx) :=
  inferInstanceAs (Decidable (_ ∧ _))

end Pangolin.RecoveryV2
