import Pangolin.Contracts.RecoveryV2
import Pangolin.Lib.Reaches

/-!
# Who can move a vault's authority

A finalized recovery is traced back through the receipts.  While an attempt is pending,
the receipts since its initiation contain one successful approval for every counted
guardian and nothing that ends the attempt; the unchecked counters can only make the
contract count too few.
-/

namespace Pangolin.RecoveryV2

open Evm Transition

/-! ## What a successful transaction does -/

/-- Every way a transaction can succeed, with the checks it passed. -/
inductive Effect (machine : Machine) (storage : Storage) (context : Context) :
    Call → Storage → Event → Prop where
  | guardianSet (vaultId root : Bytes32) (threshold guardianCount : UInt8)
      (schemaVersion : UInt16) :
      (storage.guardianSet vaultId).initialized = false → minThreshold ≤ threshold →
      Effect machine storage context
        (.setGuardianSet vaultId root threshold guardianCount schemaVersion)
        { storage with
          guardianSet := Function.update storage.guardianSet vaultId
            ⟨root, threshold, guardianCount, true⟩
          vaultAuthority := Function.update storage.vaultAuthority vaultId context.sender }
        (.guardianSetInitialized vaultId root threshold guardianCount context.sender
          schemaVersion)
  | initiated (vaultId : Bytes32) (proposedAuthority : Address) (recipientCommitment : Bytes32)
      (schemaVersion : UInt16) :
      (storage.guardianSet vaultId).initialized = true →
      (storage.recovery vaultId).status ≠ .pending →
      Effect machine storage context
        (.initiateRecovery vaultId proposedAuthority recipientCommitment schemaVersion)
        { storage with
          recovery := Function.update storage.recovery vaultId
            ⟨proposedAuthority, UInt64.ofNat context.timestamp,
              (storage.recovery vaultId).attemptNonce + 1, 0, .pending, recipientCommitment⟩ }
        (.recoveryInitiated vaultId ((storage.recovery vaultId).attemptNonce + 1)
          proposedAuthority (UInt64.ofNat context.timestamp) recipientCommitment schemaVersion)
  | approved (vaultId : Bytes32) (guardian : Address) (proof : List Bytes32) (expiresAt : UInt64)
      (schemaVersion : UInt16) (signature : Bytes) :
      (storage.recovery vaultId).status = .pending →
      machine.verifyMerkleProof proof (storage.guardianSet vaultId).root
        (guardianLeaf machine guardian) = true →
      machine.recover
        (hashApprove machine vaultId (storage.recovery vaultId).proposedAuthority
          (storage.recovery vaultId).attemptNonce expiresAt
          (storage.recovery vaultId).recipientCommitment schemaVersion) signature = guardian →
      storage.hasApproved vaultId (storage.recovery vaultId).attemptNonce guardian = false →
      Effect machine storage context
        (.approveRecovery vaultId guardian proof expiresAt schemaVersion signature)
        { storage with
          hasApproved := Function.update storage.hasApproved vaultId
            (Function.update (storage.hasApproved vaultId)
              (storage.recovery vaultId).attemptNonce
              (Function.update
                (storage.hasApproved vaultId (storage.recovery vaultId).attemptNonce)
                guardian true))
          recovery := Function.update storage.recovery vaultId
            { storage.recovery vaultId with
              approvals := (storage.recovery vaultId).approvals + 1 } }
        (.recoveryApproved vaultId (storage.recovery vaultId).attemptNonce guardian
          ((storage.recovery vaultId).approvals + 1) schemaVersion)
  | canceled (vaultId : Bytes32) (schemaVersion : UInt16) :
      (storage.recovery vaultId).status = .pending →
      context.sender = storage.vaultAuthority vaultId →
      Effect machine storage context (.cancelRecovery vaultId schemaVersion)
        { storage with
          recovery := Function.update storage.recovery vaultId
            { storage.recovery vaultId with status := .canceled } }
        (.recoveryCanceled vaultId (storage.recovery vaultId).attemptNonce schemaVersion)
  | finalized (vaultId : Bytes32) (schemaVersion : UInt16) :
      (storage.recovery vaultId).status = .pending →
      (storage.guardianSet vaultId).threshold ≤ (storage.recovery vaultId).approvals →
      (storage.recovery vaultId).initiatedAt.toNat + minDelay ≤ context.timestamp →
      Effect machine storage context (.finalizeRecovery vaultId schemaVersion)
        { storage with
          recovery := Function.update storage.recovery vaultId
            { storage.recovery vaultId with status := .finalized }
          vaultAuthority := Function.update storage.vaultAuthority vaultId
            (storage.recovery vaultId).proposedAuthority }
        (.recoveryFinalized vaultId (storage.recovery vaultId).attemptNonce
          (storage.vaultAuthority vaultId) (storage.recovery vaultId).proposedAuthority
          schemaVersion)

section

variable {machine : Machine} {storage storage' : Storage} {tx : Transaction} {event : Event}

/-- A transaction succeeds only in one of these ways. -/
theorem execute_effect (done : execute machine storage tx = .ok (storage', event)) :
    Effect machine storage tx.context tx.call storage' event := by
  obtain ⟨context, call⟩ := tx
  cases call with
  | setGuardianSet vaultId root threshold guardianCount schemaVersion =>
      simp only [execute, setGuardianSet] at done
      split_ifs at done with _ fresh _ _ bounds
      simp only [not_or, UInt8.not_lt] at bounds
      cases done
      exact .guardianSet vaultId root threshold guardianCount schemaVersion (by simpa using fresh)
        bounds.1
  | initiateRecovery vaultId proposedAuthority recipientCommitment schemaVersion =>
      simp only [execute, initiateRecovery] at done
      split_ifs at done with _ initialized _ _ idle
      cases done
      exact .initiated vaultId proposedAuthority recipientCommitment schemaVersion
        (by simpa using initialized) idle
  | approveRecovery vaultId guardian proof expiresAt schemaVersion signature =>
      simp only [execute, approveRecovery] at done
      split_ifs at done with _ pending _ proved _ signer fresh
      cases done
      exact .approved vaultId guardian proof expiresAt schemaVersion signature
        (by simpa using pending) (by simpa using proved) (by simpa using signer)
        (by simpa using fresh)
  | cancelRecovery vaultId schemaVersion =>
      simp only [execute, cancelRecovery] at done
      split_ifs at done with _ pending sender
      cases done
      exact .canceled vaultId schemaVersion (by simpa using pending) (by simpa using sender)
  | finalizeRecovery vaultId schemaVersion =>
      simp only [execute, finalizeRecovery] at done
      split_ifs at done with _ pending enough elapsed
      cases done
      exact .finalized vaultId schemaVersion (by simpa using pending) (by simpa using enough)
        (by simpa using elapsed)

/-- A guardian set is never written twice, and each has a threshold of at least two. -/
theorem Effect.guardianSet_kept {context : Context} {call : Call} {vaultId : Bytes32}
    (effect : Effect machine storage context call storage' event)
    (initialized : (storage.guardianSet vaultId).initialized = true) :
    storage'.guardianSet vaultId = storage.guardianSet vaultId := by
  cases effect with
  | guardianSet changed _ _ _ _ fresh =>
      have other : vaultId ≠ changed := by
        rintro rfl
        rw [fresh] at initialized
        cases initialized
      exact Function.update_of_ne other _ _
  | initiated => rfl
  | approved => rfl
  | canceled => rfl
  | finalized => rfl

end

/-- Only a finalization and the genesis write change a vault's authority. -/
theorem Effect.authority_changed {machine : Machine} {storage storage' : Storage}
    {context : Context} {call : Call} {event : Event} {vaultId : Bytes32}
    (effect : Effect machine storage context call storage' event)
    (changed : storage'.vaultAuthority vaultId ≠ storage.vaultAuthority vaultId) :
    (∃ schemaVersion, call = .finalizeRecovery vaultId schemaVersion) ∨
      ((storage.guardianSet vaultId).initialized = false ∧
        ∃ root threshold guardianCount schemaVersion,
          call = .setGuardianSet vaultId root threshold guardianCount schemaVersion) := by
  cases effect with
  | guardianSet target root threshold guardianCount schemaVersion fresh =>
      by_cases same : vaultId = target
      · subst same
        exact .inr ⟨fresh, root, threshold, guardianCount, schemaVersion, rfl⟩
      · exact absurd (Function.update_of_ne same _ _) changed
  | initiated => exact absurd rfl changed
  | approved => exact absurd rfl changed
  | canceled => exact absurd rfl changed
  | finalized target schemaVersion =>
      by_cases same : vaultId = target
      · exact .inl ⟨schemaVersion, by rw [same]⟩
      · exact absurd (Function.update_of_ne same _ _) changed

/-! ## Reading the receipts -/

/-- The guardian a successful approval for the vault was for. -/
def Receipt.approver? (vaultId : Bytes32) (receipt : Receipt) : Option Address :=
  match receipt.tx.call, receipt.outcome with
  | .approveRecovery approved guardian _ _ _ _, .ok _ =>
      if approved = vaultId then some guardian else none
  | _, _ => none

/-- The guardians whose approvals for the vault succeeded, oldest first. -/
def approvers (vaultId : Bytes32) (receipts : List Receipt) : List Address :=
  receipts.filterMap (Receipt.approver? vaultId)

/-- A successful call that starts, cancels or finalizes an attempt of the vault. -/
def Receipt.changesAttempt (vaultId : Bytes32) (receipt : Receipt) : Prop :=
  (∃ event, receipt.outcome = .ok event) ∧
    ((∃ proposedAuthority recipientCommitment schemaVersion, receipt.tx.call =
        .initiateRecovery vaultId proposedAuthority recipientCommitment schemaVersion) ∨
      (∃ schemaVersion, receipt.tx.call = .cancelRecovery vaultId schemaVersion) ∨
      ∃ schemaVersion, receipt.tx.call = .finalizeRecovery vaultId schemaVersion)

/-- The receipt of an approval that names a committed guardian and carries that
guardian's signature over the attempt. -/
def Receipt.Approves (machine : Machine) (vaultId root : Bytes32) (authority : Address)
    (attemptNonce : UInt64) (recipientCommitment : Bytes32) (guardian : Address)
    (receipt : Receipt) : Prop :=
  ∃ proof expiresAt schemaVersion signature event,
    receipt.tx.call =
        .approveRecovery vaultId guardian proof expiresAt schemaVersion signature ∧
      receipt.outcome = .ok event ∧
      machine.verifyMerkleProof proof root (guardianLeaf machine guardian) = true ∧
      machine.recover
        (hashApprove machine vaultId authority attemptNonce expiresAt recipientCommitment
          schemaVersion) signature = guardian

/-- A pending attempt as the receipts tell it: where it was initiated, and the approvals
since. -/
structure Attempt (machine : Machine) (vaultId : Bytes32) (chain : Chain)
    (before : List Receipt) (initiated : Receipt) (after : List Receipt) : Prop where
  split : chain.receipts = before ++ initiated :: after
  opened : ∃ schemaVersion,
    initiated.tx.call =
        .initiateRecovery vaultId (chain.storage.recovery vaultId).proposedAuthority
          (chain.storage.recovery vaultId).recipientCommitment schemaVersion ∧
      initiated.outcome =
        .ok (.recoveryInitiated vaultId (chain.storage.recovery vaultId).attemptNonce
          (chain.storage.recovery vaultId).proposedAuthority
          (chain.storage.recovery vaultId).initiatedAt
          (chain.storage.recovery vaultId).recipientCommitment schemaVersion)
  time : initiated.tx.context.timestamp = (chain.storage.recovery vaultId).initiatedAt.toNat
  unchanged : ∀ receipt ∈ after, ¬ receipt.changesAttempt vaultId
  signed : ∀ guardian ∈ approvers vaultId after, ∃ receipt ∈ after,
    receipt.Approves machine vaultId (chain.storage.guardianSet vaultId).root
      (chain.storage.recovery vaultId).proposedAuthority
      (chain.storage.recovery vaultId).attemptNonce
      (chain.storage.recovery vaultId).recipientCommitment guardian
  distinct : (approvers vaultId after).Nodup
  counted : (chain.storage.recovery vaultId).approvals.toNat =
    (approvers vaultId after).length % 256
  recorded : ∀ guardian ∈ approvers vaultId after,
    chain.storage.hasApproved vaultId (chain.storage.recovery vaultId).attemptNonce guardian = true

/-- Every guardian set has a threshold of at least two, and every pending attempt is
accounted for by the receipts. -/
structure SafetyInv (machine : Machine) (chain : Chain) : Prop where
  threshold : ∀ vaultId, (chain.storage.guardianSet vaultId).initialized = true →
    minThreshold ≤ (chain.storage.guardianSet vaultId).threshold
  initialized : ∀ vaultId, (chain.storage.recovery vaultId).status = .pending →
    (chain.storage.guardianSet vaultId).initialized = true
  pending : ∀ vaultId, (chain.storage.recovery vaultId).status = .pending →
    ∃ before initiated after, Attempt machine vaultId chain before initiated after

/-! ## One transaction -/

section

variable {machine : Machine} {vaultId : Bytes32} {chain chain' : Chain} {receipt : Receipt}
variable {before after : List Receipt} {initiated : Receipt}

theorem approvers_append (receipts : List Receipt) :
    approvers vaultId (receipts ++ [receipt]) =
      approvers vaultId receipts ++ (receipt.approver? vaultId).toList := by
  unfold approvers
  rw [List.filterMap_append]
  cases found : receipt.approver? vaultId <;> simp [found]

/-- An attempt survives a receipt that neither changes it nor approves it. -/
theorem Attempt.skip (attempt : Attempt machine vaultId chain before initiated after)
    (receipts : chain'.receipts = chain.receipts ++ [receipt])
    (sameSet : chain'.storage.guardianSet vaultId = chain.storage.guardianSet vaultId)
    (sameAttempt : chain'.storage.recovery vaultId = chain.storage.recovery vaultId)
    (sameApproved : chain'.storage.hasApproved vaultId = chain.storage.hasApproved vaultId)
    (quiet : ¬ receipt.changesAttempt vaultId) (silent : receipt.approver? vaultId = none) :
    Attempt machine vaultId chain' before initiated (after ++ [receipt]) := by
  have sameApprovers : approvers vaultId (after ++ [receipt]) = approvers vaultId after := by
    rw [approvers_append, silent]
    exact List.append_nil _
  constructor
  · rw [receipts, attempt.split]
    simp
  · rw [sameAttempt]
    exact attempt.opened
  · rw [sameAttempt]
    exact attempt.time
  · intro other member
    rcases List.mem_append.mp member with old | new
    · exact attempt.unchanged other old
    · exact List.mem_singleton.mp new ▸ quiet
  · intro guardian member
    rw [sameApprovers] at member
    obtain ⟨approval, listed, approves⟩ := attempt.signed guardian member
    rw [sameSet, sameAttempt]
    exact ⟨approval, List.mem_append_left _ listed, approves⟩
  · rw [sameApprovers]
    exact attempt.distinct
  · rw [sameApprovers, sameAttempt]
    exact attempt.counted
  · intro guardian member
    rw [sameApprovers] at member
    rw [sameApproved, sameAttempt]
    exact attempt.recorded guardian member

/-- A successful approval of the attempt adds its guardian, who was not counted yet. -/
theorem Attempt.approve {guardian : Address}
    (attempt : Attempt machine vaultId chain before initiated after)
    (receipts : chain'.receipts = chain.receipts ++ [receipt])
    (sameSet : chain'.storage.guardianSet vaultId = chain.storage.guardianSet vaultId)
    (counted : chain'.storage.recovery vaultId =
      { chain.storage.recovery vaultId with
        approvals := (chain.storage.recovery vaultId).approvals + 1 })
    (recorded : chain'.storage.hasApproved vaultId (chain.storage.recovery vaultId).attemptNonce =
      Function.update
        (chain.storage.hasApproved vaultId (chain.storage.recovery vaultId).attemptNonce)
        guardian true)
    (fresh : chain.storage.hasApproved vaultId (chain.storage.recovery vaultId).attemptNonce
      guardian = false)
    (approver : receipt.approver? vaultId = some guardian)
    (quiet : ¬ receipt.changesAttempt vaultId)
    (approves : receipt.Approves machine vaultId (chain.storage.guardianSet vaultId).root
      (chain.storage.recovery vaultId).proposedAuthority
      (chain.storage.recovery vaultId).attemptNonce
      (chain.storage.recovery vaultId).recipientCommitment guardian) :
    Attempt machine vaultId chain' before initiated (after ++ [receipt]) := by
  have allApprovers : approvers vaultId (after ++ [receipt]) =
      approvers vaultId after ++ [guardian] := by
    rw [approvers_append, approver]
    rfl
  have uncounted : guardian ∉ approvers vaultId after := by
    intro member
    rw [attempt.recorded guardian member] at fresh
    cases fresh
  constructor
  · rw [receipts, attempt.split]
    simp
  · rw [counted]
    exact attempt.opened
  · rw [counted]
    exact attempt.time
  · intro other member
    rcases List.mem_append.mp member with old | new
    · exact attempt.unchanged other old
    · exact List.mem_singleton.mp new ▸ quiet
  · intro other member
    rw [sameSet, counted]
    rw [allApprovers] at member
    rcases List.mem_append.mp member with old | new
    · obtain ⟨approval, listed, signed⟩ := attempt.signed other old
      exact ⟨approval, List.mem_append_left _ listed, signed⟩
    · rw [List.mem_singleton.mp new]
      exact ⟨receipt, List.mem_append_right _ (List.mem_singleton.mpr rfl), approves⟩
  · rw [allApprovers]
    exact List.nodup_append.mpr ⟨attempt.distinct, List.pairwise_singleton _ _, by
      intro other old same new
      rw [List.mem_singleton.mp new]
      rintro rfl
      exact uncounted old⟩
  · have before := attempt.counted
    rw [allApprovers, counted, List.length_append, List.length_singleton]
    simp only [UInt8.toNat_add, UInt8.reduceToNat]
    omega
  · intro other member
    rw [counted]
    simp only [recorded]
    rw [allApprovers] at member
    by_cases same : other = guardian
    · rw [same, Function.update_self]
    · rw [Function.update_of_ne same]
      rcases List.mem_append.mp member with old | new
      · exact attempt.recorded other old
      · exact absurd (List.mem_singleton.mp new) same

end

/-- The vault a call is about. -/
def Call.vaultId : Call → Bytes32
  | .setGuardianSet vaultId _ _ _ _ => vaultId
  | .initiateRecovery vaultId _ _ _ => vaultId
  | .approveRecovery vaultId _ _ _ _ _ => vaultId
  | .cancelRecovery vaultId _ => vaultId
  | .finalizeRecovery vaultId _ => vaultId

section

variable {machine : Machine} {vaultId : Bytes32} {chain : Chain} {tx : Transaction}

/-- A call for another vault, or one that reverted, changes no attempt of this vault. -/
theorem Receipt.not_changesAttempt {receipt : Receipt}
    (elsewhere : receipt.tx.call.vaultId ≠ vaultId ∨ ∃ revert, receipt.outcome = .error revert) :
    ¬ receipt.changesAttempt vaultId := by
  rintro ⟨⟨event, succeeded⟩, calls⟩
  rcases elsewhere with other | ⟨revert, failed⟩
  · rcases calls with ⟨_, _, _, call⟩ | ⟨_, call⟩ | ⟨_, call⟩
    all_goals
      rw [call] at other
      exact other rfl
  · rw [failed] at succeeded
    cases succeeded

theorem Receipt.approver?_eq_none {receipt : Receipt}
    (elsewhere : receipt.tx.call.vaultId ≠ vaultId ∨ ∃ revert, receipt.outcome = .error revert) :
    receipt.approver? vaultId = none := by
  unfold Receipt.approver?
  split
  · next call succeeded =>
      rcases elsewhere with other | ⟨revert, failed⟩
      · rw [call] at other
        exact if_neg other
      · rw [failed] at succeeded
        cases succeeded
  · rfl

/-- A set that this call initialized has a threshold of at least two. -/
theorem Effect.threshold {storage storage' : Storage} {context : Context} {call : Call}
    {event : Event} (effect : Effect machine storage context call storage' event)
    (fresh : ¬ (storage.guardianSet vaultId).initialized = true)
    (initialized : (storage'.guardianSet vaultId).initialized = true) :
    minThreshold ≤ (storage'.guardianSet vaultId).threshold := by
  cases effect with
  | guardianSet changed root threshold guardianCount _ _ enough =>
      by_cases same : vaultId = changed
      · subst same
        simpa using enough
      · simp only [Function.update_of_ne same] at initialized
        exact absurd initialized fresh
  | initiated => exact absurd initialized fresh
  | approved => exact absurd initialized fresh
  | canceled => exact absurd initialized fresh
  | finalized => exact absurd initialized fresh

/-- An attempt of the called vault is pending afterwards only with a guardian set. -/
theorem Effect.pending_initialized {storage storage' : Storage} {context : Context} {call : Call}
    {event : Event} (effect : Effect machine storage context call storage' event)
    (known : (storage.recovery vaultId).status = .pending →
      (storage.guardianSet vaultId).initialized = true)
    (same : call.vaultId = vaultId) (pending : (storage'.recovery vaultId).status = .pending) :
    (storage'.guardianSet vaultId).initialized = true := by
  subst same
  cases effect with
  | guardianSet => simp [Call.vaultId]
  | initiated _ _ _ _ initialized => exact initialized
  | approved _ _ _ _ _ _ active => exact known active
  | canceled => simp [Call.vaultId] at pending
  | finalized => simp [Call.vaultId] at pending

theorem Effect.frame {storage storage' : Storage} {context : Context} {call : Call}
    {event : Event} (effect : Effect machine storage context call storage' event)
    (other : call.vaultId ≠ vaultId) :
    storage'.guardianSet vaultId = storage.guardianSet vaultId ∧
      storage'.vaultAuthority vaultId = storage.vaultAuthority vaultId ∧
      storage'.recovery vaultId = storage.recovery vaultId ∧
      storage'.hasApproved vaultId = storage.hasApproved vaultId := by
  have apart : vaultId ≠ call.vaultId := fun same => other same.symm
  cases effect with
  | guardianSet =>
      exact ⟨Function.update_of_ne apart _ _, Function.update_of_ne apart _ _, rfl, rfl⟩
  | initiated => exact ⟨rfl, rfl, Function.update_of_ne apart _ _, rfl⟩
  | approved =>
      exact ⟨rfl, rfl, Function.update_of_ne apart _ _, Function.update_of_ne apart _ _⟩
  | canceled => exact ⟨rfl, rfl, Function.update_of_ne apart _ _, rfl⟩
  | finalized =>
      exact ⟨rfl, Function.update_of_ne apart _ _, Function.update_of_ne apart _ _, rfl⟩

/-- What a transaction does to the attempt of its own vault. -/
theorem Attempt.ofEffect {storage' : Storage} {context : Context} {call : Call} {event : Event}
    (effect : Effect machine chain.storage context call storage' event)
    (fits : context.timestamp < 2 ^ 64)
    (attempts : (chain.storage.recovery call.vaultId).status = .pending →
      ∃ before initiated after, Attempt machine call.vaultId chain before initiated after)
    (initialized : (chain.storage.recovery call.vaultId).status = .pending →
      (chain.storage.guardianSet call.vaultId).initialized = true)
    (pending : (storage'.recovery call.vaultId).status = .pending) :
    ∃ before initiated after, Attempt machine call.vaultId
      ⟨storage', context.timestamp, chain.receipts ++ [⟨⟨context, call⟩, .ok event⟩]⟩
      before initiated after := by
  cases effect with
  | guardianSet target root threshold guardianCount schemaVersion fresh =>
      -- a pending attempt has a guardian set, so this call would have reverted
      exfalso
      have old := initialized pending
      simp only [Call.vaultId] at old
      rw [fresh] at old
      cases old
  | initiated target proposedAuthority recipientCommitment schemaVersion =>
      have stamped : (UInt64.ofNat context.timestamp).toNat = context.timestamp :=
        UInt64.toNat_ofNat_of_lt fits
      refine ⟨chain.receipts, _, [], rfl, ?_, ?_, ?_, ?_, ?_, ?_, ?_⟩
      all_goals simp [Call.vaultId, approvers, stamped]
  | approved target guardian proof expiresAt schemaVersion signature active proved signer fresh =>
      obtain ⟨before, initiated, after, attempt⟩ := attempts active
      refine ⟨before, initiated, after ++ [_], attempt.approve rfl rfl ?_ ?_ fresh ?_ ?_ ?_⟩
      · simp [Call.vaultId]
      · simp [Call.vaultId]
      · simp [Receipt.approver?, Call.vaultId]
      · rintro ⟨-, ⟨_, _, _, same⟩ | ⟨_, same⟩ | ⟨_, same⟩⟩
        all_goals cases same
      · exact ⟨proof, expiresAt, schemaVersion, signature, _, rfl, rfl, proved, signer⟩
  | canceled target => simp [Call.vaultId] at pending
  | finalized target => simp [Call.vaultId] at pending

/-- A reverted transaction keeps the invariant. -/
theorem SafetyInv.revert (inv : SafetyInv machine chain) (reason : Revert) :
    SafetyInv machine ⟨chain.storage, tx.context.timestamp,
      chain.receipts ++ [⟨tx, .error reason⟩]⟩ := by
  refine ⟨inv.threshold, inv.initialized, ?_⟩
  intro vaultId pending
  obtain ⟨before, initiated, after, attempt⟩ := inv.pending vaultId pending
  refine ⟨before, initiated, after ++ [⟨tx, .error reason⟩], ?_⟩
  have failed : (∃ again, (⟨tx, .error reason⟩ : Receipt).outcome = .error again) :=
    ⟨reason, rfl⟩
  refine attempt.skip rfl ?_ ?_ ?_ ?_ ?_
  · rfl
  · rfl
  · rfl
  · exact Receipt.not_changesAttempt (.inr failed)
  · exact Receipt.approver?_eq_none (.inr failed)

/-- So does a successful one. -/
theorem SafetyInv.effect {storage' : Storage} {context : Context} {call : Call} {event : Event}
    (inv : SafetyInv machine chain)
    (effect : Effect machine chain.storage context call storage' event)
    (fits : context.timestamp < 2 ^ 64) :
    SafetyInv machine ⟨storage', context.timestamp,
      chain.receipts ++ [⟨⟨context, call⟩, .ok event⟩]⟩ := by
  constructor
  · intro vaultId initialized
    by_cases known : (chain.storage.guardianSet vaultId).initialized = true
    · simp only [effect.guardianSet_kept known]
      exact inv.threshold vaultId known
    · exact effect.threshold known initialized
  · intro vaultId pending
    by_cases same : call.vaultId = vaultId
    · exact effect.pending_initialized (inv.initialized vaultId) same pending
    · obtain ⟨sameSet, -, sameAttempt, -⟩ := effect.frame same
      simp only [sameAttempt] at pending
      simp only [sameSet]
      exact inv.initialized vaultId pending
  · intro vaultId pending
    by_cases same : call.vaultId = vaultId
    · subst same
      exact Attempt.ofEffect effect fits (inv.pending _) (inv.initialized _) pending
    · obtain ⟨sameSet, -, sameAttempt, sameApproved⟩ := effect.frame same
      simp only [sameAttempt] at pending
      obtain ⟨before, initiated, after, attempt⟩ := inv.pending vaultId pending
      refine ⟨before, initiated, after ++ [⟨⟨context, call⟩, .ok event⟩], ?_⟩
      apply attempt.skip rfl sameSet sameAttempt sameApproved
      · exact Receipt.not_changesAttempt (.inl same)
      · exact Receipt.approver?_eq_none (.inl same)

theorem SafetyInv.submit (inv : SafetyInv machine chain) (fits : tx.context.timestamp < 2 ^ 64) :
    SafetyInv machine (chain.submit machine tx) := by
  unfold Chain.submit
  split
  · next done => exact inv.effect (execute_effect done) fits
  · next reason _ => exact inv.revert reason

/-- Nothing is pending in a new deployment. -/
theorem SafetyInv.deployed (machine : Machine) : SafetyInv machine .deployed := by
  constructor
  all_goals
    intro vaultId holds
    cases holds

end

/-! ## Runs -/

/-- Every state a deployment can get to. -/
abbrev Reachable (machine : Machine) (chain : Chain) : Prop :=
  Reaches (Chain.submit machine) Chain.InOrder .deployed chain

theorem Reachable.inv {machine : Machine} {chain : Chain} (run : Reachable machine chain) :
    SafetyInv machine chain := by
  apply run.invariant (SafetyInv machine)
  · intro state tx inv order
    exact inv.submit order.2
  · exact .deployed machine

/-- The receipts back a change of authority to `authority` at time `now`: a last
initiation at least the delay ago that nothing ended, and since then enough distinct
guardians of the committed set who signed exactly this attempt. -/
def Backed (machine : Machine) (chain : Chain) (vaultId : Bytes32) (authority : Address)
    (now : Nat) : Prop :=
  ∃ before initiated after recipientCommitment attemptNonce initiatedAt schemaVersion,
    chain.receipts = before ++ initiated :: after ∧
      initiated.tx.call =
        .initiateRecovery vaultId authority recipientCommitment schemaVersion ∧
      initiated.outcome = .ok (.recoveryInitiated vaultId attemptNonce authority initiatedAt
        recipientCommitment schemaVersion) ∧
      initiated.tx.context.timestamp + minDelay ≤ now ∧
      (∀ receipt ∈ after, ¬ receipt.changesAttempt vaultId) ∧
      ∃ guardians : List Address, guardians.Nodup ∧
        2 ≤ (chain.storage.guardianSet vaultId).threshold.toNat ∧
        (chain.storage.guardianSet vaultId).threshold.toNat ≤ guardians.length ∧
        ∀ guardian ∈ guardians, ∃ receipt ∈ after,
          receipt.Approves machine vaultId (chain.storage.guardianSet vaultId).root authority
            attemptNonce recipientCommitment guardian

/-- In every reachable state, a recovery that finalizes is backed by the receipts, no
other successful call but the one that fixes the guardian set changes an authority, and
a guardian set, once fixed, is never written again. -/
theorem authority_moves_backed {machine : Machine} {chain : Chain}
    (run : Reachable machine chain) (tx : Transaction) (vaultId : Bytes32) :
    (∀ schemaVersion storage' event, tx.call = .finalizeRecovery vaultId schemaVersion →
      execute machine chain.storage tx = .ok (storage', event) →
        Backed machine chain vaultId (storage'.vaultAuthority vaultId) tx.context.timestamp) ∧
    ((chain.submit machine tx).storage.vaultAuthority vaultId ≠
        chain.storage.vaultAuthority vaultId →
      (∃ schemaVersion, tx.call = .finalizeRecovery vaultId schemaVersion) ∨
        ((chain.storage.guardianSet vaultId).initialized = false ∧
          ∃ root threshold guardianCount schemaVersion, tx.call =
            .setGuardianSet vaultId root threshold guardianCount schemaVersion)) ∧
    ((chain.storage.guardianSet vaultId).initialized = true →
      (chain.submit machine tx).storage.guardianSet vaultId =
        chain.storage.guardianSet vaultId) := by
  refine ⟨?_, ?_, ?_⟩
  · intro schemaVersion storage' event call done
    have effect := execute_effect done
    rw [call] at effect
    cases effect with
    | finalized _ _ pending enough elapsed =>
        simp only [Function.update_self]
        obtain ⟨before, initiated, after, attempt⟩ := run.inv.pending vaultId pending
        obtain ⟨openedVersion, opened, emitted⟩ := attempt.opened
        have twoOrMore := run.inv.threshold vaultId (run.inv.initialized vaultId pending)
        refine ⟨before, initiated, after, _, _, _, openedVersion, attempt.split, opened, emitted,
          ?_, attempt.unchanged, approvers vaultId after, attempt.distinct, twoOrMore, ?_,
          attempt.signed⟩
        · rw [attempt.time]
          exact elapsed
        · -- the counter is the number of approvers modulo 256
          calc (chain.storage.guardianSet vaultId).threshold.toNat
              ≤ (chain.storage.recovery vaultId).approvals.toNat := enough
            _ = (approvers vaultId after).length % 256 := attempt.counted
            _ ≤ (approvers vaultId after).length := Nat.mod_le _ _
  · intro changed
    unfold Chain.submit at changed
    split at changed
    · next storage' event done =>
        exact (execute_effect done).authority_changed changed
    · exact absurd rfl changed
  · intro initialized
    unfold Chain.submit
    split
    · next storage' event done => exact (execute_effect done).guardianSet_kept initialized
    · rfl

namespace Sample

/-- A machine whose signatures are the signer's address in the first word. -/
def machine : Machine where
  keccak256 _ := 1
  ecrecover _ _ r _ := r.setWidth 160
  chainid := 0
  self := 0

def sign (guardian : Nat) : Bytes := abiWord guardian ++ abiWord 0 ++ [27]

def mined (timestamp : Nat) (call : Call) : Transaction := ⟨⟨5, timestamp⟩, call⟩

/-- A guardian set, an attempt for authority 9 and two approvals. -/
def approved : List Transaction :=
  [mined 10 (.setGuardianSet 7 1 2 3 1), mined 20 (.initiateRecovery 7 9 8 1),
    mined 30 (.approveRecovery 7 21 [] 100 1 (sign 21)),
    mined 40 (.approveRecovery 7 22 [] 100 1 (sign 22))]

def chain : Chain := approved.foldl (Chain.submit machine) .deployed

def finalize : Transaction := mined 260000 (.finalizeRecovery 7 1)

end Sample

/-- Three days after the initiation the authority moves to 9. -/
theorem authority_moves_backed_two_guardians :
    ∃ storage' event,
      execute Sample.machine Sample.chain.storage Sample.finalize = .ok (storage', event) ∧
        storage'.vaultAuthority 7 = 9 ∧ Backed Sample.machine Sample.chain 7 9 260000 := by
  have run : Reachable Sample.machine Sample.chain := by
    apply Reaches.foldl
    exact ⟨by decide, by decide, by decide, by decide, trivial⟩
  have moved : (execute Sample.machine Sample.chain.storage Sample.finalize).toOption.map
      (fun result => result.1.vaultAuthority 7) = some 9 := by decide +kernel
  obtain ⟨⟨storage', event⟩, succeeded, authority⟩ := Option.map_eq_some_iff.mp moved
  have done : execute Sample.machine Sample.chain.storage Sample.finalize =
      .ok (storage', event) := by
    cases result : execute Sample.machine Sample.chain.storage Sample.finalize with
    | error => simp [result, Except.toOption] at succeeded
    | ok pair => simpa [result, Except.toOption] using succeeded
  have backed := (authority_moves_backed run Sample.finalize 7).1 1 storage' event rfl done
  rw [authority] at backed
  exact ⟨storage', event, done, authority, backed⟩

end Pangolin.RecoveryV2
