import Pangolin.Contracts.Evm
import Mathlib.Data.Finset.Card

/-!
# RevisionLogV2

The revision log: a set of authorized devices per vault, a device manager who signs every
change of the set, and a delayed promotion by which a device of the set becomes the
manager.  Where the recovery contract knows an authority for the vault, that authority is
the manager; the read of it is a parameter of each function that makes it.
-/

namespace Pangolin.RevisionLogV2

open Evm

/-- A pending promotion; `readyAt = 0` means that none is. -/
structure Promotion where
  candidate : Address
  readyAt : UInt64
  deriving Repr, DecidableEq

structure Storage where
  nextSequence : BitVec 256
  authorizedDevice : Bytes32 → Address → Bool
  authorizedDeviceCount : Bytes32 → UInt32
  deviceManager : Bytes32 → Address
  deviceNonce : Bytes32 → UInt64
  pendingPromotion : Bytes32 → Promotion
  bootstrapped : Bytes32 → Bool

/-- The storage of a new deployment: every slot zero. -/
def Storage.empty : Storage where
  nextSequence := 0
  authorizedDevice _ _ := false
  authorizedDeviceCount _ := 0
  deviceManager _ := 0
  deviceNonce _ := 0
  pendingPromotion _ := ⟨0, 0⟩
  bootstrapped _ := false

inductive Event where
  | revisionPublished (sequence : BitVec 256) (vaultId accountId parentRevision deviceId : Bytes32)
      (schemaVersion : UInt16) (encPayload : Bytes) (signer : Address)
  | vaultBootstrapped (vaultId : Bytes32) (firstSigner manager : Address)
      (schemaVersion : UInt16)
  | deviceAdded (vaultId : Bytes32) (signer manager : Address) (nonce : UInt64)
      (schemaVersion : UInt16)
  | deviceRemoved (vaultId : Bytes32) (signer manager : Address) (nonce : UInt64)
      (schemaVersion : UInt16)
  | promotionProposed (vaultId : Bytes32) (candidate : Address) (readyAt : UInt64)
      (schemaVersion : UInt16)
  | promotionFinalized (vaultId : Bytes32) (oldManager newManager : Address)
      (schemaVersion : UInt16)
  | promotionCanceled (vaultId : Bytes32) (candidate : Address) (schemaVersion : UInt16)
  deriving Repr, DecidableEq

inductive Revert where
  | invalidSignature
  | signerNotAuthorized
  | notDeviceManager
  | alreadyAuthorized
  | notAuthorized
  | vaultAlreadyBootstrapped
  | vaultNotBootstrapped
  | wouldBrickVault
  | notSetMember
  | promotionPending
  | noPromotionPending
  | promotionDelayNotElapsed
  | notAuthorizedToCancel
  | badNonce
  | setSizeExceeded
  | unsupportedSchemaVersion
  | zeroValue
  deriving Repr, DecidableEq

def maxKnownSchemaVersion : UInt16 := 1

def maxDevices : UInt32 := 32

/-- `PROMOTION_DELAY`, 48 hours in seconds. -/
def promotionDelay : UInt64 := 48 * 3600

/-! ## Digests -/

/-- The contract's EIP-712 digest of a struct hash. -/
def hashStruct (machine : Machine) (structType : String) (fields : List Nat) : Bytes32 :=
  let structHash :=
    machine.keccak256 (abiEncode ((machine.keccakString structType).toNat :: fields))
  machine.typedDataHash (machine.domainSeparator "Pangolin RevisionLog" "2") structHash

/-- `_hashRevision`. -/
def hashRevision (machine : Machine) (vaultId accountId parentRevision deviceId : Bytes32)
    (schemaVersion : UInt16) (encPayloadHash : Bytes32) : Bytes32 :=
  hashStruct machine
    ("Revision(bytes32 vaultId,bytes32 accountId,bytes32 parentRevision,bytes32 deviceId," ++
      "uint16 schemaVersion,bytes32 encPayloadHash)")
    [vaultId.toNat, accountId.toNat, parentRevision.toNat, deviceId.toNat, schemaVersion.toNat,
      encPayloadHash.toNat]

/-- `_hashAddDevice`. -/
def hashAddDevice (machine : Machine) (vaultId : Bytes32) (newSigner : Address) (nonce : UInt64)
    (schemaVersion : UInt16) : Bytes32 :=
  hashStruct machine
    "AddDevice(bytes32 vaultId,address newSigner,uint64 nonce,uint16 schemaVersion)"
    [vaultId.toNat, newSigner.toNat, nonce.toNat, schemaVersion.toNat]

/-- `_hashRemoveDevice`. -/
def hashRemoveDevice (machine : Machine) (vaultId : Bytes32) (signer : Address) (nonce : UInt64)
    (schemaVersion : UInt16) : Bytes32 :=
  hashStruct machine
    "RemoveDevice(bytes32 vaultId,address signer,uint64 nonce,uint16 schemaVersion)"
    [vaultId.toNat, signer.toNat, nonce.toNat, schemaVersion.toNat]

/-- `_hashPromote`. -/
def hashPromote (machine : Machine) (vaultId : Bytes32) (candidate : Address) (nonce : UInt64)
    (schemaVersion : UInt16) : Bytes32 :=
  hashStruct machine
    "Promote(bytes32 vaultId,address candidate,uint64 nonce,uint16 schemaVersion)"
    [vaultId.toNat, candidate.toNat, nonce.toNat, schemaVersion.toNat]

/-! ## The manager -/

/-- `_currentManager`: the recovery contract's authority if there is one, else the log's own
manager. -/
def currentManager (authority : Address) (storage : Storage) (vaultId : Bytes32) : Address :=
  if authority = 0 then storage.deviceManager vaultId else authority

/-- The manager of a new vault: the recovery contract's authority if there is one, else the
first signer. -/
def seedManager (authority firstSigner : Address) : Address :=
  if authority = 0 then firstSigner else authority

/-- `_requireManagerSig`. -/
def requireManagerSig (machine : Machine) (authority : Address) (storage : Storage)
    (vaultId digest : Bytes32) (authoritySig : Bytes) : Except Revert Address :=
  let recovered := machine.recover digest authoritySig
  if recovered = 0 then
    .error .invalidSignature
  else
    let manager := currentManager authority storage vaultId
    if recovered ≠ manager then .error .notDeviceManager else .ok manager

/-! ## The external functions

`authority` is what `RECOVERY_V1.vaultAuthority(vaultId)` returns during the call. -/

def bootstrapVault (machine : Machine) (authority : Address) (storage : Storage)
    (vaultId : Bytes32) (firstSigner : Address) (schemaVersion : UInt16) (signature : Bytes) :
    Except Revert (Storage × Event) :=
  if maxKnownSchemaVersion < schemaVersion then
    .error .unsupportedSchemaVersion
  else if storage.bootstrapped vaultId then
    .error .vaultAlreadyBootstrapped
  else if firstSigner = 0 then
    .error .zeroValue
  else
    let recovered := machine.recover (hashAddDevice machine vaultId firstSigner 0 schemaVersion)
      signature
    if recovered = 0 then
      .error .invalidSignature
    else if recovered ≠ firstSigner then
      .error .invalidSignature
    else
      let manager := seedManager authority firstSigner
      .ok ({ storage with
          authorizedDevice := Function.update storage.authorizedDevice vaultId
            (Function.update (storage.authorizedDevice vaultId) firstSigner true)
          authorizedDeviceCount := Function.update storage.authorizedDeviceCount vaultId 1
          deviceManager := Function.update storage.deviceManager vaultId manager
          bootstrapped := Function.update storage.bootstrapped vaultId true
          deviceNonce := Function.update storage.deviceNonce vaultId 1 },
        .vaultBootstrapped vaultId firstSigner manager schemaVersion)

/-- `_verifyAndGate`. -/
def verifyAndGate (machine : Machine) (storage : Storage)
    (vaultId accountId parentRevision deviceId : Bytes32) (schemaVersion : UInt16)
    (encPayload signature : Bytes) : Except Revert Address :=
  if ¬ storage.bootstrapped vaultId then
    .error .vaultNotBootstrapped
  else
    let signer := machine.recover
      (hashRevision machine vaultId accountId parentRevision deviceId schemaVersion
        (machine.keccak256 encPayload)) signature
    if signer = 0 then
      .error .invalidSignature
    else if ¬ storage.authorizedDevice vaultId signer then
      .error .signerNotAuthorized
    else
      .ok signer

def publishRevision (machine : Machine) (storage : Storage)
    (vaultId accountId parentRevision deviceId : Bytes32) (schemaVersion : UInt16)
    (encPayload signature : Bytes) : Except Revert (Storage × Event) :=
  if maxKnownSchemaVersion < schemaVersion then
    .error .unsupportedSchemaVersion
  else
    match verifyAndGate machine storage vaultId accountId parentRevision deviceId schemaVersion
        encPayload signature with
    | .error revert => .error revert
    | .ok signer =>
        -- unchecked: the counter wraps at 2^256
        .ok ({ storage with nextSequence := storage.nextSequence + 1 },
          .revisionPublished storage.nextSequence vaultId accountId parentRevision deviceId
            schemaVersion encPayload signer)

/-- The writes of a change of the set: the device's flag, the count and the nonce. -/
def Storage.setDevice (storage : Storage) (vaultId : Bytes32) (signer : Address)
    (authorized : Bool) (count : UInt32) (nonce : UInt64) : Storage :=
  { storage with
    authorizedDevice := Function.update storage.authorizedDevice vaultId
      (Function.update (storage.authorizedDevice vaultId) signer authorized)
    authorizedDeviceCount := Function.update storage.authorizedDeviceCount vaultId count
    deviceNonce := Function.update storage.deviceNonce vaultId nonce }

def addDevice (machine : Machine) (authority : Address) (storage : Storage) (vaultId : Bytes32)
    (newSigner : Address) (nonce : UInt64) (schemaVersion : UInt16) (authoritySig : Bytes) :
    Except Revert (Storage × Event) :=
  if maxKnownSchemaVersion < schemaVersion then
    .error .unsupportedSchemaVersion
  else if ¬ storage.bootstrapped vaultId then
    .error .vaultNotBootstrapped
  else if newSigner = 0 then
    .error .zeroValue
  else if nonce ≠ storage.deviceNonce vaultId then
    .error .badNonce
  else if maxDevices ≤ storage.authorizedDeviceCount vaultId then
    .error .setSizeExceeded
  else if storage.authorizedDevice vaultId newSigner then
    .error .alreadyAuthorized
  else
    match requireManagerSig machine authority storage vaultId
        (hashAddDevice machine vaultId newSigner nonce schemaVersion) authoritySig with
    | .error revert => .error revert
    | .ok manager =>
        .ok (storage.setDevice vaultId newSigner true
            (storage.authorizedDeviceCount vaultId + 1) (nonce + 1),
          .deviceAdded vaultId newSigner manager nonce schemaVersion)

def removeDevice (machine : Machine) (authority : Address) (storage : Storage) (vaultId : Bytes32)
    (signer : Address) (nonce : UInt64) (schemaVersion : UInt16) (authoritySig : Bytes) :
    Except Revert (Storage × Event) :=
  if maxKnownSchemaVersion < schemaVersion then
    .error .unsupportedSchemaVersion
  else if ¬ storage.bootstrapped vaultId then
    .error .vaultNotBootstrapped
  else if nonce ≠ storage.deviceNonce vaultId then
    .error .badNonce
  else if ¬ storage.authorizedDevice vaultId signer then
    .error .notAuthorized
  else if signer = currentManager authority storage vaultId ∨
      storage.authorizedDeviceCount vaultId ≤ 1 then
    .error .wouldBrickVault
  else
    match requireManagerSig machine authority storage vaultId
        (hashRemoveDevice machine vaultId signer nonce schemaVersion) authoritySig with
    | .error revert => .error revert
    | .ok manager =>
        .ok (storage.setDevice vaultId signer false
            (storage.authorizedDeviceCount vaultId - 1) (nonce + 1),
          .deviceRemoved vaultId signer manager nonce schemaVersion)

def proposePromotion (machine : Machine) (context : Context) (storage : Storage)
    (vaultId : Bytes32) (candidate : Address) (nonce : UInt64) (schemaVersion : UInt16)
    (candidateSig : Bytes) : Except Revert (Storage × Event) :=
  if maxKnownSchemaVersion < schemaVersion then
    .error .unsupportedSchemaVersion
  else if ¬ storage.bootstrapped vaultId then
    .error .vaultNotBootstrapped
  else if candidate = 0 then
    .error .zeroValue
  else if nonce ≠ storage.deviceNonce vaultId then
    .error .badNonce
  else if (storage.pendingPromotion vaultId).readyAt ≠ 0 then
    .error .promotionPending
  else if ¬ storage.authorizedDevice vaultId candidate then
    .error .notSetMember
  else
    let recovered := machine.recover (hashPromote machine vaultId candidate nonce schemaVersion)
      candidateSig
    if recovered = 0 ∨ recovered ≠ candidate then
      .error .invalidSignature
    else
      -- unchecked: the truncated timestamp and the sum wrap at 2^64
      let readyAt := UInt64.ofNat context.timestamp + promotionDelay
      .ok ({ storage with
          deviceNonce := Function.update storage.deviceNonce vaultId (nonce + 1)
          pendingPromotion := Function.update storage.pendingPromotion vaultId
            ⟨candidate, readyAt⟩ },
        .promotionProposed vaultId candidate readyAt schemaVersion)

def finalizePromotion (context : Context) (authority : Address) (storage : Storage)
    (vaultId : Bytes32) (schemaVersion : UInt16) : Except Revert (Storage × Event) :=
  let promotion := storage.pendingPromotion vaultId
  if maxKnownSchemaVersion < schemaVersion then
    .error .unsupportedSchemaVersion
  else if promotion.readyAt = 0 then
    .error .noPromotionPending
  else if context.timestamp < promotion.readyAt.toNat then
    .error .promotionDelayNotElapsed
  else if ¬ storage.authorizedDevice vaultId promotion.candidate then
    .error .notSetMember
  else
    .ok ({ storage with
        deviceManager := Function.update storage.deviceManager vaultId promotion.candidate
        pendingPromotion := Function.update storage.pendingPromotion vaultId ⟨0, 0⟩ },
      .promotionFinalized vaultId (currentManager authority storage vaultId) promotion.candidate
        schemaVersion)

def cancelPromotion (context : Context) (authority : Address) (storage : Storage)
    (vaultId : Bytes32) (schemaVersion : UInt16) : Except Revert (Storage × Event) :=
  let promotion := storage.pendingPromotion vaultId
  if maxKnownSchemaVersion < schemaVersion then
    .error .unsupportedSchemaVersion
  else if promotion.readyAt = 0 then
    .error .noPromotionPending
  else if context.sender ≠ currentManager authority storage vaultId then
    .error .notAuthorizedToCancel
  else
    .ok ({ storage with
        pendingPromotion := Function.update storage.pendingPromotion vaultId ⟨0, 0⟩ },
      .promotionCanceled vaultId promotion.candidate schemaVersion)

/-! ## Transactions -/

/-- An external call with its calldata. -/
inductive Call where
  | bootstrapVault (vaultId : Bytes32) (firstSigner : Address) (schemaVersion : UInt16)
      (signature : Bytes)
  | publishRevision (vaultId accountId parentRevision deviceId : Bytes32) (schemaVersion : UInt16)
      (encPayload signature : Bytes)
  | addDevice (vaultId : Bytes32) (newSigner : Address) (nonce : UInt64) (schemaVersion : UInt16)
      (authoritySig : Bytes)
  | removeDevice (vaultId : Bytes32) (signer : Address) (nonce : UInt64) (schemaVersion : UInt16)
      (authoritySig : Bytes)
  | proposePromotion (vaultId : Bytes32) (candidate : Address) (nonce : UInt64)
      (schemaVersion : UInt16) (candidateSig : Bytes)
  | finalizePromotion (vaultId : Bytes32) (schemaVersion : UInt16)
  | cancelPromotion (vaultId : Bytes32) (schemaVersion : UInt16)
  deriving Repr, DecidableEq

def Call.vaultId : Call → Bytes32
  | bootstrapVault vaultId .. => vaultId
  | publishRevision vaultId .. => vaultId
  | addDevice vaultId .. => vaultId
  | removeDevice vaultId .. => vaultId
  | proposePromotion vaultId .. => vaultId
  | finalizePromotion vaultId .. => vaultId
  | cancelPromotion vaultId .. => vaultId

structure Transaction where
  context : Context
  /-- What the recovery contract answers for the call's vault during the call. -/
  authority : Address
  call : Call
  deriving Repr, DecidableEq

def execute (machine : Machine) (storage : Storage) (tx : Transaction) :
    Except Revert (Storage × Event) :=
  match tx.call with
  | .bootstrapVault vaultId firstSigner schemaVersion signature =>
      bootstrapVault machine tx.authority storage vaultId firstSigner schemaVersion signature
  | .publishRevision vaultId accountId parentRevision deviceId schemaVersion encPayload
      signature =>
      publishRevision machine storage vaultId accountId parentRevision deviceId schemaVersion
        encPayload signature
  | .addDevice vaultId newSigner nonce schemaVersion authoritySig =>
      addDevice machine tx.authority storage vaultId newSigner nonce schemaVersion authoritySig
  | .removeDevice vaultId signer nonce schemaVersion authoritySig =>
      removeDevice machine tx.authority storage vaultId signer nonce schemaVersion authoritySig
  | .proposePromotion vaultId candidate nonce schemaVersion candidateSig =>
      proposePromotion machine tx.context storage vaultId candidate nonce schemaVersion
        candidateSig
  | .finalizePromotion vaultId schemaVersion =>
      finalizePromotion tx.context tx.authority storage vaultId schemaVersion
  | .cancelPromotion vaultId schemaVersion =>
      cancelPromotion tx.context tx.authority storage vaultId schemaVersion

end Pangolin.RevisionLogV2
