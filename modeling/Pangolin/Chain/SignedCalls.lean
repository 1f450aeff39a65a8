import Pangolin.Chain.TypedDigests
import Pangolin.Lib.Fallible

/-!
# Signed calls

What the contracts accept of the client's signatures: a call with one succeeds exactly when the
state permits it to the wallet, and what succeeds the wallet signed for this contract.
-/

namespace Pangolin.RevisionLogV2

open Evm Pangolin.Chain

/-! ## Calls of the log -/

/-- The message a call carries a signature of, and the signature. -/
def Call.carried? (keccak256 : Bytes → Bytes32) : Call → Option (Chain.Message × Bytes)
  | .bootstrapVault vaultId firstSigner schemaVersion signature =>
      some (.deviceAuth ⟨.addDevice, vaultId, firstSigner, 0, schemaVersion⟩, signature)
  | .publishRevision vaultId accountId parentRevision deviceId schemaVersion encPayload
      signature =>
      some (.revision ⟨vaultId, accountId, parentRevision, deviceId, schemaVersion,
        keccak256 encPayload⟩, signature)
  | .addDevice vaultId newSigner nonce schemaVersion authoritySig =>
      some (.deviceAuth ⟨.addDevice, vaultId, newSigner, nonce, schemaVersion⟩, authoritySig)
  | .removeDevice vaultId signer nonce schemaVersion authoritySig =>
      some (.deviceAuth ⟨.removeDevice, vaultId, signer, nonce, schemaVersion⟩, authoritySig)
  | .proposePromotion vaultId candidate nonce schemaVersion candidateSig =>
      some (.deviceAuth ⟨.promote, vaultId, candidate, nonce, schemaVersion⟩, candidateSig)
  | .finalizePromotion .. | .cancelPromotion .. => none

/-- What the state asks of a call that `signer` signed. -/
def Permits (authority : Address) (storage : Storage) (signer : Address) : Call → Prop
  | .bootstrapVault vaultId firstSigner schemaVersion _ =>
      schemaVersion ≤ maxKnownSchemaVersion ∧ storage.bootstrapped vaultId = false ∧
        firstSigner ≠ 0 ∧ signer = firstSigner
  | .publishRevision vaultId _ _ _ schemaVersion _ _ =>
      schemaVersion ≤ maxKnownSchemaVersion ∧ storage.bootstrapped vaultId = true ∧
        storage.authorizedDevice vaultId signer = true
  | .addDevice vaultId newSigner nonce schemaVersion _ =>
      schemaVersion ≤ maxKnownSchemaVersion ∧ storage.bootstrapped vaultId = true ∧
        newSigner ≠ 0 ∧ nonce = storage.deviceNonce vaultId ∧
        storage.authorizedDeviceCount vaultId < maxDevices ∧
        storage.authorizedDevice vaultId newSigner = false ∧
        signer = currentManager authority storage vaultId
  | .removeDevice vaultId device nonce schemaVersion _ =>
      schemaVersion ≤ maxKnownSchemaVersion ∧ storage.bootstrapped vaultId = true ∧
        nonce = storage.deviceNonce vaultId ∧ storage.authorizedDevice vaultId device = true ∧
        device ≠ currentManager authority storage vaultId ∧
        1 < storage.authorizedDeviceCount vaultId ∧
        signer = currentManager authority storage vaultId
  | .proposePromotion vaultId candidate nonce schemaVersion _ =>
      schemaVersion ≤ maxKnownSchemaVersion ∧ storage.bootstrapped vaultId = true ∧
        candidate ≠ 0 ∧ nonce = storage.deviceNonce vaultId ∧
        (storage.pendingPromotion vaultId).readyAt = 0 ∧
        storage.authorizedDevice vaultId candidate = true ∧ signer = candidate
  | .finalizePromotion .. | .cancelPromotion .. => False

section

variable {machine : Machine} {storage : Storage} {authority : Address} {context : Context}

theorem requireManagerSig_ok_iff {vaultId digest : Bytes32} {authoritySig : Bytes} :
    (∃ manager, requireManagerSig machine authority storage vaultId digest authoritySig =
        .ok manager) ↔
      machine.recover digest authoritySig ≠ 0 ∧
        machine.recover digest authoritySig = currentManager authority storage vaultId := by
  simp only [requireManagerSig, Fallible.guard_ok_iff, Fallible.exists_ok_eq, ne_eq, not_not,
    and_true]

theorem verifyAndGate_ok_iff {vaultId accountId parentRevision deviceId : Bytes32}
    {schemaVersion : UInt16} {encPayload signature : Bytes} :
    (∃ signer, verifyAndGate machine storage vaultId accountId parentRevision deviceId
        schemaVersion encPayload signature = .ok signer) ↔
      machine.recover (hashRevision machine vaultId accountId parentRevision deviceId schemaVersion
          (machine.keccak256 encPayload)) signature ≠ 0 ∧
        storage.bootstrapped vaultId = true ∧
        storage.authorizedDevice vaultId (machine.recover (hashRevision machine vaultId accountId
          parentRevision deviceId schemaVersion (machine.keccak256 encPayload)) signature) =
            true := by
  simp only [verifyAndGate, Fallible.guard_ok_iff, Fallible.exists_ok_eq, ne_eq, not_not,
    and_true]
  exact and_left_comm

/-- A call with a signature succeeds exactly when the signer recovered may make it. -/
theorem execute_ok_iff {call : Call} {message : Chain.Message} {signature : Bytes}
    (signs : call.carried? machine.keccak256 = some (message, signature)) :
    (∃ result, execute machine storage ⟨context, authority, call⟩ = .ok result) ↔
      machine.recover (message.contractDigest machine) signature ≠ 0 ∧
        Permits authority storage (machine.recover (message.contractDigest machine) signature)
          call := by
  cases call with
  | bootstrapVault vaultId firstSigner schemaVersion signature =>
      cases signs
      simp only [execute, bootstrapVault, Fallible.guard_ok_iff, Fallible.exists_ok_eq, Permits,
        Chain.Message.contractDigest, UInt16.not_lt, Bool.not_eq_true, ne_eq, not_not, and_true]
      constructor
      · rintro ⟨known, fresh, named, recovered, signed⟩
        exact ⟨recovered, known, fresh, named, signed⟩
      · rintro ⟨recovered, known, fresh, named, signed⟩
        exact ⟨known, fresh, named, recovered, signed⟩
  | publishRevision vaultId accountId parentRevision deviceId schemaVersion encPayload signature =>
      cases signs
      have gate : (∃ signer, verifyAndGate machine storage vaultId accountId parentRevision deviceId
          schemaVersion encPayload signature = .ok signer) ↔ _ := verifyAndGate_ok_iff
      simp only [execute, publishRevision, Fallible.guard_ok_iff, Permits,
        Chain.Message.contractDigest, UInt16.not_lt]
      cases passed : verifyAndGate machine storage vaultId accountId parentRevision deviceId
          schemaVersion encPayload signature with
      | error revert =>
          rw [passed] at gate
          have refused := mt gate.mpr Fallible.not_exists_ok
          apply iff_of_false
          · rintro ⟨-, -, ⟨⟩⟩
          · rintro ⟨recovered, -, permitted⟩
            exact refused ⟨recovered, permitted⟩
      | ok signer =>
          obtain ⟨recovered, permitted⟩ := gate.mp ⟨signer, passed⟩
          exact ⟨fun both => ⟨recovered, both.1, permitted⟩, fun both => ⟨both.2.1, _, rfl⟩⟩
  | addDevice vaultId newSigner nonce schemaVersion signature =>
      cases signs
      have gate : (∃ manager, requireManagerSig machine authority storage vaultId
          (hashAddDevice machine vaultId newSigner nonce schemaVersion) signature =
            .ok manager) ↔ _ := requireManagerSig_ok_iff
      simp only [execute, addDevice, Fallible.guard_ok_iff, Permits, Chain.Message.contractDigest,
        UInt16.not_lt, UInt32.not_le, Bool.not_eq_true, Bool.not_eq_false, not_not, ne_eq]
      cases passed : requireManagerSig machine authority storage vaultId
          (hashAddDevice machine vaultId newSigner nonce schemaVersion) signature with
      | error revert =>
          rw [passed] at gate
          have refused := mt gate.mpr Fallible.not_exists_ok
          apply iff_of_false
          · rintro ⟨-, -, -, -, -, -, -, ⟨⟩⟩
          · rintro ⟨recovered, -, -, -, -, -, -, manager⟩
            exact refused ⟨recovered, manager⟩
      | ok manager =>
          obtain ⟨recovered, signer⟩ := gate.mp ⟨manager, passed⟩
          constructor
          · rintro ⟨known, bootstrapped, named, current, small, fresh, -⟩
            exact ⟨recovered, known, bootstrapped, named, current, small, fresh, signer⟩
          · rintro ⟨-, known, bootstrapped, named, current, small, fresh, -⟩
            exact ⟨known, bootstrapped, named, current, small, fresh, _, rfl⟩
  | removeDevice vaultId device nonce schemaVersion signature =>
      cases signs
      have gate : (∃ manager, requireManagerSig machine authority storage vaultId
          (hashRemoveDevice machine vaultId device nonce schemaVersion) signature =
            .ok manager) ↔ _ := requireManagerSig_ok_iff
      simp only [execute, removeDevice, Fallible.guard_ok_iff, Permits,
        Chain.Message.contractDigest, UInt16.not_lt, UInt32.not_le, Bool.not_eq_true,
        Bool.not_eq_false, not_not, ne_eq, not_or]
      cases passed : requireManagerSig machine authority storage vaultId
          (hashRemoveDevice machine vaultId device nonce schemaVersion) signature with
      | error revert =>
          rw [passed] at gate
          have refused := mt gate.mpr Fallible.not_exists_ok
          apply iff_of_false
          · rintro ⟨-, -, -, -, -, -, ⟨⟩⟩
          · rintro ⟨recovered, -, -, -, -, -, -, manager⟩
            exact refused ⟨recovered, manager⟩
      | ok manager =>
          obtain ⟨recovered, signer⟩ := gate.mp ⟨manager, passed⟩
          constructor
          · rintro ⟨known, bootstrapped, current, member, ⟨other, several⟩, -⟩
            exact ⟨recovered, known, bootstrapped, current, member, other, several, signer⟩
          · rintro ⟨-, known, bootstrapped, current, member, other, several, -⟩
            exact ⟨known, bootstrapped, current, member, ⟨other, several⟩, _, rfl⟩
  | proposePromotion vaultId candidate nonce schemaVersion signature =>
      cases signs
      simp only [execute, proposePromotion, Fallible.guard_ok_iff, Fallible.exists_ok_eq, Permits,
        Chain.Message.contractDigest, UInt16.not_lt, Bool.not_eq_true, Bool.not_eq_false, ne_eq,
        not_not, not_or, and_true]
      constructor
      · rintro ⟨known, bootstrapped, named, current, idle, member, recovered, signed⟩
        exact ⟨recovered, known, bootstrapped, named, current, idle, member, signed⟩
      · rintro ⟨recovered, known, bootstrapped, named, current, idle, member, signed⟩
        exact ⟨known, bootstrapped, named, current, idle, member, recovered, signed⟩
  | finalizePromotion vaultId schemaVersion => cases signs
  | cancelPromotion vaultId schemaVersion => cases signs

variable {alloy : Alloy} {contract : Address} {chainId : UInt64}

/-- With a signature the client made, a call succeeds exactly when the state permits it to the
wallet. -/
theorem signed_call_accepted_iff (documented : alloy.Documented machine) (pinned : Pinned machine)
    {wallet : Wallet} (sound : wallet.Sound alloy) {call : Call} {message : Chain.Message}
    {signature : Vector UInt8 65}
    (signs : call.carried? machine.keccak256 = some (message, signature.toList))
    (built : message.build alloy machine.keccak256 wallet contract chainId = .ok signature) :
    (∃ result, execute (deployedAt machine chainId contract) storage ⟨context, authority, call⟩ =
        .ok result) ↔ Permits authority storage wallet.address call := by
  obtain ⟨recovered, named⟩ := build_recovers documented pinned sound built
  have accepted : (∃ result, execute (deployedAt machine chainId contract) storage
      ⟨context, authority, call⟩ = .ok result) ↔ _ := execute_ok_iff signs
  rw [accepted, recovered]
  exact and_iff_right named

/-- The first device of a vault, added by its own wallet. -/
theorem bootstrap_accepted :
    ∃ result, execute (deployedAt SigningSample.machine 84532 5) .empty ⟨⟨3, 9⟩, 0,
      .bootstrapVault 1 7 1 (SigningSample.signature (deviceAuthDigest SigningSample.alloy
        SigningSample.machine.keccak256 5 84532 SigningSample.addition)).toList⟩ = .ok result := by
  have signs : (Call.bootstrapVault 1 7 1 (SigningSample.signature (deviceAuthDigest
      SigningSample.alloy SigningSample.machine.keccak256 5 84532
        SigningSample.addition)).toList).carried? SigningSample.machine.keccak256 =
      some (.deviceAuth SigningSample.addition, (SigningSample.signature (deviceAuthDigest
        SigningSample.alloy SigningSample.machine.keccak256 5 84532
          SigningSample.addition)).toList) := rfl
  apply (signed_call_accepted_iff SigningSample.documented SigningSample.pinned SigningSample.sound
    signs rfl).mpr
  exact ⟨by decide, rfl, by decide, rfl⟩

/-- A call that succeeds was permitted to the signer of its signature; and a wallet's signature
makes no call but those it signed, for this contract, chain, nonce and arguments. -/
theorem accepted_call_signed (documented : alloy.Documented machine) (pinned : Pinned machine)
    {call : Call} {message : Chain.Message} {signature : Bytes}
    (signs : call.carried? machine.keccak256 = some (message, signature)) {result : Storage × Event}
    (accepted : execute (deployedAt machine chainId contract) storage ⟨context, authority, call⟩ =
      .ok result) :
    ∃ signer, signer ≠ 0 ∧ Permits authority storage signer call ∧
      ∀ messages, Unforged alloy machine signer messages signature →
        SignedFor machine messages ⟨.revisionLogV2, contract, chainId, message⟩ := by
  have gate : (∃ result, execute (deployedAt machine chainId contract) storage
      ⟨context, authority, call⟩ = .ok result) ↔ _ := execute_ok_iff signs
  obtain ⟨named, permitted⟩ := gate.mp ⟨result, accepted⟩
  refine ⟨_, named, permitted, ?_⟩
  intro messages unforged
  have log : message.deployment = .revisionLogV2 := by
    cases call with
    | finalizePromotion vaultId schemaVersion => cases signs
    | cancelPromotion vaultId schemaVersion => cases signs
    | _ =>
        cases signs
        rfl
  rw [← log]
  exact signed_of_recover documented pinned unforged rfl

end

namespace SigningSample

open Pangolin.Chain.SigningSample

/-- A vault with the device 7. -/
def oneDevice : Storage :=
  { Storage.empty with
    bootstrapped := fun _ => true
    authorizedDevice := fun _ device => device == 7 }

def publication : Call :=
  .publishRevision 1 2 0 9 1 [4, 5]
    (signature (revisionV2Digest alloy machine.keccak256 5 84532 revision)).toList

theorem publication_signed :
    ∃ result, execute (deployedAt machine 84532 5) oneDevice ⟨⟨3, 9⟩, 0, publication⟩ =
        .ok result ∧
      ∃ signer, signer ≠ 0 ∧ Permits 0 oneDevice signer publication ∧
        SignedFor machine [⟨.revisionLogV2, 5, 84532, .revision revision⟩]
          ⟨.revisionLogV2, 5, 84532, .revision revision⟩ := by
  have signs : publication.carried? machine.keccak256 = some (.revision revision,
      (signature (revisionV2Digest alloy machine.keccak256 5 84532 revision)).toList) := rfl
  have built : (Chain.Message.revision revision).build alloy machine.keccak256 wallet 5 84532 =
      .ok (signature (revisionV2Digest alloy machine.keccak256 5 84532 revision)) := rfl
  obtain ⟨recovered, named⟩ := build_recovers documented pinned sound built
  have gate : (∃ result, execute (deployedAt machine 84532 5) oneDevice
      ⟨⟨3, 9⟩, 0, publication⟩ = .ok result) ↔ _ := execute_ok_iff signs
  rw [recovered] at gate
  obtain ⟨result, accepted⟩ := gate.mpr ⟨named, by decide, rfl, rfl⟩
  obtain ⟨signer, other, permitted, origin⟩ :=
    accepted_call_signed documented pinned signs accepted
  have device : signer = 7 := eq_of_beq permitted.2.2
  refine ⟨result, accepted, signer, other, permitted, origin _ ?_⟩
  intro digest found
  rw [device] at found
  exact ⟨_, List.mem_singleton_self _, recover_signature found⟩

end SigningSample

end Pangolin.RevisionLogV2

namespace Pangolin.RecoveryV2

open Evm Pangolin.Chain

/-! ## Approvals of the guardians -/

/-- What the state asks of an approval that `signer` signed. -/
def PermitsApproval (machine : Machine) (context : Context) (storage : Storage) (vaultId : Bytes32)
    (guardian : Address) (proof : List Bytes32) (expiresAt : UInt64) (schemaVersion : UInt16)
    (signer : Address) : Prop :=
  schemaVersion ≤ maxKnownSchemaVersion ∧ (storage.recovery vaultId).status = .pending ∧
    context.timestamp ≤ expiresAt.toNat ∧
    machine.verifyMerkleProof proof (storage.guardianSet vaultId).root
      (guardianLeaf machine guardian) = true ∧
    signer = guardian ∧
    storage.hasApproved vaultId (storage.recovery vaultId).attemptNonce guardian = false

/-- The message a guardian signs to approve the pending attempt. -/
def approvalFor (storage : Storage) (vaultId : Bytes32) (expiresAt : UInt64)
    (schemaVersion : UInt16) : ApproveFieldsV2 :=
  let attempt := storage.recovery vaultId
  ⟨vaultId, attempt.proposedAuthority, attempt.attemptNonce, expiresAt,
    attempt.recipientCommitment, schemaVersion⟩

section

variable {machine : Machine} {storage : Storage} {context : Context} {vaultId : Bytes32}
variable {guardian : Address} {proof : List Bytes32} {expiresAt : UInt64} {schemaVersion : UInt16}

theorem approveRecovery_ok_iff {signature : Bytes} :
    (∃ result, approveRecovery machine context storage vaultId guardian proof expiresAt
        schemaVersion signature = .ok result) ↔
      machine.recover ((Chain.Message.approveV2 (approvalFor storage vaultId expiresAt
        schemaVersion)).contractDigest machine) signature ≠ 0 ∧
      PermitsApproval machine context storage vaultId guardian proof expiresAt schemaVersion
        (machine.recover ((Chain.Message.approveV2 (approvalFor storage vaultId expiresAt
          schemaVersion)).contractDigest machine) signature) := by
  simp only [approveRecovery, Fallible.guard_ok_iff, Fallible.exists_ok_eq, PermitsApproval,
    approvalFor, Chain.Message.contractDigest, UInt16.not_lt, Nat.not_lt, Bool.not_eq_true, ne_eq,
    not_not, and_true]
  constructor
  · rintro ⟨known, pending, current, proved, recovered, signed, first⟩
    exact ⟨recovered, known, pending, current, by simpa using proved, signed, first⟩
  · rintro ⟨recovered, known, pending, current, proved, signed, first⟩
    exact ⟨known, pending, current, by simpa using proved, recovered, signed, first⟩

variable {alloy : Alloy} {contract : Address} {chainId : UInt64}

/-- A guardian's approval of the pending attempt counts exactly when the state permits it; and a
guardian's signature approves no attempt, target and recipient but those it was made for. -/
theorem approvals_count_as_signed (documented : alloy.Documented machine)
    (pinned : Pinned machine) :
    (∀ wallet : Wallet, wallet.Sound alloy → ∀ signature : Vector UInt8 65,
      buildSignedApprovalV2 alloy machine.keccak256 wallet
          (approvalFor storage vaultId expiresAt schemaVersion) contract chainId = .ok signature →
        ((∃ result, approveRecovery (deployedAt machine chainId contract) context storage vaultId
            guardian proof expiresAt schemaVersion signature.toList = .ok result) ↔
          PermitsApproval machine context storage vaultId guardian proof expiresAt schemaVersion
            wallet.address)) ∧
      ∀ signature result messages,
        approveRecovery (deployedAt machine chainId contract) context storage vaultId guardian proof
            expiresAt schemaVersion signature = .ok result →
          Unforged alloy machine guardian messages signature →
            SignedFor machine messages ⟨.recovery, contract, chainId,
              .approveV2 (approvalFor storage vaultId expiresAt schemaVersion)⟩ := by
  have gate (signature : Bytes) : (∃ result, approveRecovery (deployedAt machine chainId contract)
      context storage vaultId guardian proof expiresAt schemaVersion signature = .ok result) ↔ _ :=
    approveRecovery_ok_iff
  constructor
  · intro wallet sound signature built
    obtain ⟨recovered, named⟩ := build_recovers documented pinned sound (show
      (Chain.Message.approveV2 (approvalFor storage vaultId expiresAt schemaVersion)).build alloy
        machine.keccak256 wallet contract chainId = .ok signature from built)
    rw [gate, recovered]
    exact and_iff_right named
  · intro signature result messages accepted unforged
    obtain ⟨-, permitted⟩ := (gate signature).mp ⟨result, accepted⟩
    have signer := permitted.2.2.2.2.1
    exact signed_of_recover documented pinned unforged signer

end

namespace SigningSample

open Pangolin.Chain.SigningSample

/-- A pending attempt of a vault whose only guardian is 7. -/
def oneGuardian : Storage :=
  { Storage.empty with
    guardianSet := fun _ => ⟨guardianLeaf machine 7, 1, 1, true⟩
    recovery := fun _ => ⟨8, 1000, 1, 0, .pending, 12⟩ }

theorem approval_counts :
    ∃ result, approveRecovery (deployedAt machine 84532 5) ⟨3, 2000⟩ oneGuardian 1 7 [] 3000 1
      (signature (approveDigestV2 alloy machine.keccak256 5 84532
        (approvalFor oneGuardian 1 3000 1))).toList = .ok result := by
  refine ((approvals_count_as_signed documented pinned).1 wallet sound _ rfl).mpr ?_
  exact ⟨by decide, rfl, by decide, by simp [Machine.verifyMerkleProof, oneGuardian], rfl, rfl⟩

end SigningSample

end Pangolin.RecoveryV2
