import Pangolin.Contracts.RecoveryV2

/-!
# RecoveryV1

The first recovery contract, whose authority the revision log reads.  It has the guardian
sets, bounds and errors of its successor; an attempt carries no recipient commitment, and
neither does the message a guardian signs.
-/

namespace Pangolin.RecoveryV1

open Evm
open RecoveryV2 (Status GuardianSet Revert maxKnownSchemaVersion minDelay minThreshold maxThreshold
  minGuardians maxGuardians guardianLeaf)

structure Recovery where
  proposedAuthority : Address
  initiatedAt : UInt64
  attemptNonce : UInt64
  approvals : UInt8
  status : Status
  deriving Repr, DecidableEq

structure Storage where
  guardianSet : Bytes32 → GuardianSet
  vaultAuthority : Bytes32 → Address
  recovery : Bytes32 → Recovery
  hasApproved : Bytes32 → UInt64 → Address → Bool

/-- The storage of a new deployment: every slot zero. -/
def Storage.empty : Storage where
  guardianSet _ := ⟨0, 0, 0, false⟩
  vaultAuthority _ := 0
  recovery _ := ⟨0, 0, 0, 0, .none⟩
  hasApproved _ _ _ := false

inductive Event where
  | guardianSetInitialized (vaultId root : Bytes32) (threshold guardianCount : UInt8)
      (initialAuthority : Address) (schemaVersion : UInt16)
  | recoveryInitiated (vaultId : Bytes32) (attemptNonce : UInt64) (proposedAuthority : Address)
      (initiatedAt : UInt64) (schemaVersion : UInt16)
  | recoveryApproved (vaultId : Bytes32) (attemptNonce : UInt64) (guardian : Address)
      (approvals : UInt8) (schemaVersion : UInt16)
  | recoveryCanceled (vaultId : Bytes32) (attemptNonce : UInt64) (schemaVersion : UInt16)
  | recoveryFinalized (vaultId : Bytes32) (attemptNonce : UInt64)
      (oldAuthority newAuthority : Address) (schemaVersion : UInt16)
  deriving Repr, DecidableEq

/-- The arguments of `setGuardianSet` are within the contract's bounds. -/
def Bounded (root : Bytes32) (threshold guardianCount : UInt8) (schemaVersion : UInt16) : Prop :=
  schemaVersion ≤ maxKnownSchemaVersion ∧ root ≠ 0 ∧ minGuardians ≤ guardianCount ∧
    guardianCount ≤ maxGuardians ∧ minThreshold ≤ threshold ∧ threshold ≤ maxThreshold ∧
    threshold ≤ guardianCount

def setGuardianSet (context : Context) (storage : Storage) (vaultId root : Bytes32)
    (threshold guardianCount : UInt8) (schemaVersion : UInt16) :
    Except Revert (Storage × Event) :=
  if maxKnownSchemaVersion < schemaVersion then
    .error .unsupportedSchemaVersion
  else if (storage.guardianSet vaultId).initialized then
    .error .guardianSetAlreadyInitialized
  else if root = 0 then
    .error .zeroValue
  else if guardianCount < minGuardians ∨ maxGuardians < guardianCount then
    .error .guardianCountOutOfBounds
  else if threshold < minThreshold ∨ maxThreshold < threshold ∨ guardianCount < threshold then
    .error .thresholdOutOfBounds
  else
    .ok ({ storage with
        guardianSet := Function.update storage.guardianSet vaultId
          ⟨root, threshold, guardianCount, true⟩
        vaultAuthority := Function.update storage.vaultAuthority vaultId context.sender },
      .guardianSetInitialized vaultId root threshold guardianCount context.sender schemaVersion)

def initiateRecovery (context : Context) (storage : Storage) (vaultId : Bytes32)
    (proposedAuthority : Address) (schemaVersion : UInt16) : Except Revert (Storage × Event) :=
  let attempt := storage.recovery vaultId
  if maxKnownSchemaVersion < schemaVersion then
    .error .unsupportedSchemaVersion
  else if ¬ (storage.guardianSet vaultId).initialized then
    .error .guardianSetNotInitialized
  else if proposedAuthority = 0 then
    .error .zeroValue
  else if attempt.status = .pending then
    .error .recoveryAlreadyPending
  else
    -- unchecked: both the nonce and the timestamp wrap at 2^64
    let newNonce := attempt.attemptNonce + 1
    let initiatedAt := UInt64.ofNat context.timestamp
    .ok ({ storage with
        recovery := Function.update storage.recovery vaultId
          ⟨proposedAuthority, initiatedAt, newNonce, 0, .pending⟩ },
      .recoveryInitiated vaultId newNonce proposedAuthority initiatedAt schemaVersion)

/-- `_hashApprove`. -/
def hashApprove (machine : Machine) (vaultId : Bytes32) (proposedAuthority : Address)
    (attemptNonce expiresAt : UInt64) (schemaVersion : UInt16) : Bytes32 :=
  let typeHash := machine.keccakString <|
    "Approve(bytes32 vaultId,address proposedAuthority,uint64 attemptNonce," ++
      "uint64 expiresAt,uint16 schemaVersion)"
  let structHash := machine.keccak256 (abiEncode [
    typeHash.toNat, vaultId.toNat, proposedAuthority.toNat, attemptNonce.toNat,
    expiresAt.toNat, schemaVersion.toNat])
  machine.typedDataHash (machine.domainSeparator "Pangolin Recovery" "1") structHash

def approveRecovery (machine : Machine) (context : Context) (storage : Storage)
    (vaultId : Bytes32) (guardian : Address) (proof : List Bytes32) (expiresAt : UInt64)
    (schemaVersion : UInt16) (signature : Bytes) : Except Revert (Storage × Event) :=
  let attempt := storage.recovery vaultId
  if maxKnownSchemaVersion < schemaVersion then
    .error .unsupportedSchemaVersion
  else if attempt.status ≠ .pending then
    .error .noActiveRecovery
  else if expiresAt.toNat < context.timestamp then
    .error .approvalExpired
  else if ¬ machine.verifyMerkleProof proof (storage.guardianSet vaultId).root
      (guardianLeaf machine guardian) then
    .error .invalidMerkleProof
  else
    let signer := machine.recover
      (hashApprove machine vaultId attempt.proposedAuthority attempt.attemptNonce expiresAt
        schemaVersion) signature
    if signer = 0 then
      .error .invalidSignature
    else if signer ≠ guardian then
      .error .invalidSignature
    else if storage.hasApproved vaultId attempt.attemptNonce guardian then
      .error .duplicateApproval
    else
      let approved :=
        Function.update (storage.hasApproved vaultId attempt.attemptNonce) guardian true
      -- unchecked: the counter wraps at 256
      let approvals := attempt.approvals + 1
      .ok ({ storage with
          hasApproved := Function.update storage.hasApproved vaultId
            (Function.update (storage.hasApproved vaultId) attempt.attemptNonce approved)
          recovery := Function.update storage.recovery vaultId { attempt with approvals } },
        .recoveryApproved vaultId attempt.attemptNonce guardian approvals schemaVersion)

def cancelRecovery (context : Context) (storage : Storage) (vaultId : Bytes32)
    (schemaVersion : UInt16) : Except Revert (Storage × Event) :=
  let attempt := storage.recovery vaultId
  if maxKnownSchemaVersion < schemaVersion then
    .error .unsupportedSchemaVersion
  else if attempt.status ≠ .pending then
    .error .noActiveRecovery
  else if context.sender ≠ storage.vaultAuthority vaultId then
    .error .notAuthorizedToCancel
  else
    .ok ({ storage with
        recovery := Function.update storage.recovery vaultId { attempt with status := .canceled } },
      .recoveryCanceled vaultId attempt.attemptNonce schemaVersion)

def finalizeRecovery (context : Context) (storage : Storage) (vaultId : Bytes32)
    (schemaVersion : UInt16) : Except Revert (Storage × Event) :=
  let attempt := storage.recovery vaultId
  if maxKnownSchemaVersion < schemaVersion then
    .error .unsupportedSchemaVersion
  else if attempt.status ≠ .pending then
    .error .noActiveRecovery
  else if attempt.approvals < (storage.guardianSet vaultId).threshold then
    .error .thresholdNotMet
  else if context.timestamp < attempt.initiatedAt.toNat + minDelay then
    .error .delayNotElapsed
  else
    .ok ({ storage with
        recovery := Function.update storage.recovery vaultId { attempt with status := .finalized }
        vaultAuthority :=
          Function.update storage.vaultAuthority vaultId attempt.proposedAuthority },
      .recoveryFinalized vaultId attempt.attemptNonce (storage.vaultAuthority vaultId)
        attempt.proposedAuthority schemaVersion)

/-! ## Transactions -/

/-- An external call with its calldata. -/
inductive Call where
  | setGuardianSet (vaultId root : Bytes32) (threshold guardianCount : UInt8)
      (schemaVersion : UInt16)
  | initiateRecovery (vaultId : Bytes32) (proposedAuthority : Address) (schemaVersion : UInt16)
  | approveRecovery (vaultId : Bytes32) (guardian : Address) (proof : List Bytes32)
      (expiresAt : UInt64) (schemaVersion : UInt16) (signature : Bytes)
  | cancelRecovery (vaultId : Bytes32) (schemaVersion : UInt16)
  | finalizeRecovery (vaultId : Bytes32) (schemaVersion : UInt16)
  deriving Repr, DecidableEq

def execute (machine : Machine) (context : Context) (storage : Storage) (call : Call) :
    Except Revert (Storage × Event) :=
  match call with
  | .setGuardianSet vaultId root threshold guardianCount schemaVersion =>
      setGuardianSet context storage vaultId root threshold guardianCount schemaVersion
  | .initiateRecovery vaultId proposedAuthority schemaVersion =>
      initiateRecovery context storage vaultId proposedAuthority schemaVersion
  | .approveRecovery vaultId guardian proof expiresAt schemaVersion signature =>
      approveRecovery machine context storage vaultId guardian proof expiresAt schemaVersion
        signature
  | .cancelRecovery vaultId schemaVersion =>
      cancelRecovery context storage vaultId schemaVersion
  | .finalizeRecovery vaultId schemaVersion =>
      finalizeRecovery context storage vaultId schemaVersion

/-! ## The authority of a vault -/

section

variable {machine : Machine} {context : Context} {storage storage' : Storage} {call : Call}
variable {event : Event} {vaultId : Bytes32}

/-- A guardian set is accepted only where none is and within the bounds. -/
theorem setGuardianSet_accepted {root : Bytes32} {threshold guardianCount : UInt8}
    {schemaVersion : UInt16} {result : Storage × Event}
    (done : setGuardianSet context storage vaultId root threshold guardianCount schemaVersion =
      .ok result) :
    (storage.guardianSet vaultId).initialized = false ∧
      Bounded root threshold guardianCount schemaVersion := by
  unfold setGuardianSet at done
  split_ifs at done with version fresh root count bounds
  simp only [not_or, UInt8.not_lt] at count bounds
  exact ⟨Bool.not_eq_true _ ▸ fresh, UInt16.not_lt.mp version, root, count.1, count.2, bounds.1,
    bounds.2.1, bounds.2.2⟩

/-- There it is accepted from anyone, and the sender becomes the authority. -/
theorem setGuardianSet_eq {root : Bytes32} {threshold guardianCount : UInt8}
    {schemaVersion : UInt16} (fresh : (storage.guardianSet vaultId).initialized = false)
    (bounded : Bounded root threshold guardianCount schemaVersion) :
    setGuardianSet context storage vaultId root threshold guardianCount schemaVersion =
      .ok ({ storage with
          guardianSet := Function.update storage.guardianSet vaultId
            ⟨root, threshold, guardianCount, true⟩
          vaultAuthority := Function.update storage.vaultAuthority vaultId context.sender },
        .guardianSetInitialized vaultId root threshold guardianCount context.sender
          schemaVersion) := by
  obtain ⟨version, root, low, high, small, large, fits⟩ := bounded
  have count : ¬ (guardianCount < minGuardians ∨ maxGuardians < guardianCount) := by
    simp only [not_or, UInt8.not_lt]
    exact ⟨low, high⟩
  have bounds : ¬ (threshold < minThreshold ∨ maxThreshold < threshold ∨
      guardianCount < threshold) := by
    simp only [not_or, UInt8.not_lt]
    exact ⟨small, large, fits⟩
  unfold setGuardianSet
  rw [if_neg (UInt16.not_lt.mpr version), if_neg (by simp [fresh]), if_neg root, if_neg count,
    if_neg bounds]

/-- What one accepted call does to the authority of a vault. -/
inductive AuthorityStep (context : Context) (storage : Storage) (vaultId : Bytes32) :
    Call → Storage → Prop where
  | kept (call : Call) (storage' : Storage) :
      storage'.vaultAuthority vaultId = storage.vaultAuthority vaultId →
      storage'.guardianSet vaultId = storage.guardianSet vaultId →
      ((storage'.recovery vaultId).status = .pending →
        (storage.recovery vaultId).status = .pending ∨
          (storage.guardianSet vaultId).initialized = true) →
      AuthorityStep context storage vaultId call storage'
  | genesis (root : Bytes32) (threshold guardianCount : UInt8) (schemaVersion : UInt16)
      (storage' : Storage) :
      (storage.guardianSet vaultId).initialized = false →
      Bounded root threshold guardianCount schemaVersion →
      storage'.vaultAuthority vaultId = context.sender →
      (storage'.guardianSet vaultId).initialized = true →
      AuthorityStep context storage vaultId
        (.setGuardianSet vaultId root threshold guardianCount schemaVersion) storage'
  | finalized (schemaVersion : UInt16) (storage' : Storage) :
      (storage.recovery vaultId).status = .pending →
      storage'.guardianSet vaultId = storage.guardianSet vaultId →
      AuthorityStep context storage vaultId (.finalizeRecovery vaultId schemaVersion) storage'

theorem execute_authority (done : execute machine context storage call = .ok (storage', event))
    (vaultId : Bytes32) : AuthorityStep context storage vaultId call storage' := by
  cases call with
  | setGuardianSet target root threshold guardianCount schemaVersion =>
      have accepted := setGuardianSet_accepted done
      simp only [execute, setGuardianSet] at done
      split_ifs at done
      cases done
      by_cases same : vaultId = target
      · subst same
        exact .genesis root threshold guardianCount schemaVersion _ accepted.1 accepted.2
          (by simp) (by simp)
      · exact .kept _ _ (Function.update_of_ne same _ _) (Function.update_of_ne same _ _) .inl
  | initiateRecovery target proposedAuthority schemaVersion =>
      simp only [execute, initiateRecovery] at done
      split_ifs at done with _ initialized
      cases done
      refine .kept _ _ rfl rfl ?_
      by_cases same : vaultId = target
      · subst same
        exact fun _ => .inr initialized
      · simp only [Function.update_of_ne same]
        exact .inl
  | approveRecovery target guardian proof expiresAt schemaVersion signature =>
      simp only [execute, approveRecovery] at done
      split_ifs at done with _ pending
      cases done
      refine .kept _ _ rfl rfl ?_
      by_cases same : vaultId = target
      · subst same
        simp only [Function.update_self]
        exact .inl
      · simp only [Function.update_of_ne same]
        exact .inl
  | cancelRecovery target schemaVersion =>
      simp only [execute, cancelRecovery] at done
      split_ifs at done
      cases done
      refine .kept _ _ rfl rfl ?_
      by_cases same : vaultId = target
      · subst same
        simp
      · simp only [Function.update_of_ne same]
        exact .inl
  | finalizeRecovery target schemaVersion =>
      simp only [execute, finalizeRecovery] at done
      split_ifs at done with _ pending
      cases done
      by_cases same : vaultId = target
      · subst same
        exact .finalized schemaVersion _ (not_not.mp pending) rfl
      · refine .kept _ _ (Function.update_of_ne same _ _) rfl ?_
        simp only [Function.update_of_ne same]
        exact .inl

/-- A vault without guardians has no authority and no attempt. -/
structure Untouched (storage : Storage) (vaultId : Bytes32) : Prop where
  authority : (storage.guardianSet vaultId).initialized = false →
    storage.vaultAuthority vaultId = 0
  idle : (storage.guardianSet vaultId).initialized = false →
    (storage.recovery vaultId).status ≠ .pending

theorem Untouched.step (inv : Untouched storage vaultId)
    (step : AuthorityStep context storage vaultId call storage') : Untouched storage' vaultId := by
  cases step with
  | kept _ _ authority guardians pending =>
      constructor
      · intro fresh
        rw [guardians] at fresh
        rw [authority]
        exact inv.authority fresh
      · intro fresh active
        rw [guardians] at fresh
        rcases pending active with before | initialized
        · exact inv.idle fresh before
        · rw [fresh] at initialized
          cases initialized
  | genesis _ _ _ _ _ _ _ _ initialized =>
      constructor
      all_goals
        intro fresh
        rw [initialized] at fresh
        cases fresh
  | finalized _ _ pending guardians =>
      constructor
      all_goals
        intro fresh
        rw [guardians] at fresh
        exact absurd pending (inv.idle fresh)

end

end Pangolin.RecoveryV1
