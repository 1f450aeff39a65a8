import Pangolin.Contracts.ApprovalCount

/-!
# When guardians can still recover a vault

A threshold of guardians wants to move a vault's authority and signs nothing else, and the
current authority does nothing.  Whether they can depends on the attempt they find: a
pending attempt never expires, nobody but the authority can cancel it, and while it lacks
its approvals no other can be started.
-/

namespace Pangolin.RecoveryV2

open Evm Transition

/-- Distinct guardians of the vault who can sign approvals of `authority` and `commitment`,
at least as many as the threshold. -/
structure Willing (machine : Machine) (storage : Storage) (vaultId : Bytes32)
    (authority : Address) (commitment : Bytes32) (guardians : List Address) : Prop where
  distinct : guardians.Nodup
  nonzero : ∀ guardian ∈ guardians, guardian ≠ 0
  members : ∀ guardian ∈ guardians, ∃ proof,
    machine.verifyMerkleProof proof (storage.guardianSet vaultId).root
      (guardianLeaf machine guardian) = true
  signs : ∀ guardian ∈ guardians, ∀ attemptNonce expiresAt, ∃ signature,
    machine.recover (hashApprove machine vaultId authority attemptNonce expiresAt commitment
      maxKnownSchemaVersion) signature = guardian
  quorum : (storage.guardianSet vaultId).threshold.toNat ≤ guardians.length

/-- A call of the continuation: time does not run backwards, the current authority sends
nothing, and approvals of the vault are those the willing guardians sign. -/
def Continues (vaultId : Bytes32) (authority : Address) (commitment : Bytes32)
    (guardians : List Address) (chain : Chain) (tx : Transaction) : Prop :=
  chain.timestamp ≤ tx.context.timestamp ∧
    tx.context.sender ≠ chain.storage.vaultAuthority vaultId ∧
    ∀ guardian proof expiresAt schemaVersion signature,
      tx.call = .approveRecovery vaultId guardian proof expiresAt schemaVersion signature →
        guardian ∈ guardians ∧ (chain.storage.recovery vaultId).proposedAuthority = authority ∧
          (chain.storage.recovery vaultId).recipientCommitment = commitment

/-- Some continuation makes `authority` the vault's authority. -/
def CanRecover (machine : Machine) (chain : Chain) (vaultId : Bytes32) (authority : Address)
    (commitment : Bytes32) (guardians : List Address) : Prop :=
  ∃ txs, Allowed (Chain.submit machine) (Continues vaultId authority commitment guardians) chain
      txs ∧
    (txs.foldl (Chain.submit machine) chain).storage.vaultAuthority vaultId = authority

/-- How many of the guardians have not approved. -/
def fresh (approved : Address → Bool) (guardians : List Address) : Nat :=
  guardians.countP fun guardian => !approved guardian

/-- The slots of a vault that decide whether its guardians get anywhere. -/
structure Situation where
  current : Address
  threshold : Nat
  attempt : Recovery
  approved : UInt64 → Address → Bool
  timestamp : Nat

def Chain.situation (chain : Chain) (vaultId : Bytes32) : Situation where
  current := chain.storage.vaultAuthority vaultId
  threshold := (chain.storage.guardianSet vaultId).threshold.toNat
  attempt := chain.storage.recovery vaultId
  approved := chain.storage.hasApproved vaultId
  timestamp := chain.timestamp

/-- The vault already has the authority; or a pending attempt is for it and has its
approvals, or lacks no more than the guardians can still give; or any other pending attempt
has its approvals, so that it can be finalized and a new one started; or none is pending.
Approvals expire, so they need a clock below `2^64`. -/
inductive Recoverable (authority : Address) (commitment : Bytes32) (guardians : List Address)
    (situation : Situation) : Prop where
  | held (isCurrent : situation.current = authority)
  | approved (pending : situation.attempt.status = .pending)
      (proposed : situation.attempt.proposedAuthority = authority)
      (quorum : situation.threshold ≤ situation.attempt.approvals.toNat)
  | approvable (pending : situation.attempt.status = .pending)
      (proposed : situation.attempt.proposedAuthority = authority)
      (committed : situation.attempt.recipientCommitment = commitment)
      (quorum : situation.threshold ≤ situation.attempt.approvals.toNat +
        fresh (situation.approved situation.attempt.attemptNonce) guardians)
      (clock : situation.timestamp < 2 ^ 64)
  | replaceable (pending : situation.attempt.status = .pending)
      (other : situation.threshold ≤ situation.attempt.approvals.toNat)
      (quorum : situation.threshold ≤
        fresh (situation.approved (situation.attempt.attemptNonce + 1)) guardians)
      (clock : situation.timestamp < 2 ^ 64)
      (delay : situation.attempt.initiatedAt.toNat + minDelay < 2 ^ 64)
  | idle (idle : situation.attempt.status ≠ .pending)
      (quorum : situation.threshold ≤
        fresh (situation.approved (situation.attempt.attemptNonce + 1)) guardians)
      (clock : situation.timestamp < 2 ^ 64)

/-! ## Nothing else helps -/

section

variable {machine : Machine} {chain : Chain} {tx : Transaction} {vaultId : Bytes32}
variable {authority : Address} {commitment : Bytes32} {guardians : List Address}
variable {situation : Situation}

/-- An approval by a listed guardian uses up one that was fresh. -/
theorem fresh_update {approved : Address → Bool} {guardian : Address}
    (listed : guardian ∈ guardians) (distinct : guardians.Nodup)
    (unused : approved guardian = false) :
    fresh (Function.update approved guardian true) guardians + 1 = fresh approved guardians := by
  induction guardians with
  | nil => cases listed
  | cons head tail ih =>
      obtain ⟨apart, distinct⟩ := List.nodup_cons.mp distinct
      unfold fresh at ih ⊢
      rw [List.countP_cons, List.countP_cons]
      by_cases same : guardian = head
      · subst same
        have rest : tail.countP (fun other => !Function.update approved guardian true other) =
            tail.countP fun other => !approved other := by
          apply List.countP_congr
          intro other member
          have different : other ≠ guardian := by
            rintro rfl
            exact apart member
          rw [Function.update_of_ne different]
        simp [rest, unused]
      · have tailListed := (List.mem_cons.mp listed).resolve_left same
        have different : head ≠ guardian := fun equal => same equal.symm
        have later := ih tailListed distinct
        rw [Function.update_of_ne different]
        omega

/-- Time alone brings no vault closer to its recovery. -/
theorem Recoverable.earlier (timestamp : Nat)
    (recoverable : Recoverable authority commitment guardians { situation with timestamp })
    (order : situation.timestamp ≤ timestamp) :
    Recoverable authority commitment guardians situation := by
  cases recoverable with
  | held isCurrent => exact .held isCurrent
  | approved pending proposed quorum => exact .approved pending proposed quorum
  | approvable pending proposed committed quorum clock =>
      exact .approvable pending proposed committed quorum (lt_of_le_of_lt order clock)
  | replaceable pending other quorum clock delay =>
      exact .replaceable pending other quorum (lt_of_le_of_lt order clock) delay
  | idle idle quorum clock => exact .idle idle quorum (lt_of_le_of_lt order clock)

/-- A new attempt is of use only for the authority itself, and only with enough fresh
guardians. -/
theorem Recoverable.before_initiation (proposedAuthority : Address) (recipientCommitment : Bytes32)
    (initiatedAt : UInt64) (two : 2 ≤ situation.threshold)
    (idle : situation.attempt.status ≠ .pending)
    (recoverable : Recoverable authority commitment guardians
      { situation with
        attempt := ⟨proposedAuthority, initiatedAt, situation.attempt.attemptNonce + 1, 0,
          .pending, recipientCommitment⟩ }) :
    Recoverable authority commitment guardians situation := by
  cases recoverable with
  | held isCurrent => exact .held isCurrent
  | approved _ _ quorum =>
      simp only [UInt8.toNat_zero] at quorum
      omega
  | approvable _ _ _ quorum clock =>
      simp only [UInt8.toNat_zero, Nat.zero_add] at quorum
      exact .idle idle quorum clock
  | replaceable _ other =>
      simp only [UInt8.toNat_zero] at other
      omega
  | idle notPending => exact absurd rfl notPending

/-- An approval of the willing guardians is one they could still give. -/
theorem Recoverable.before_approval {guardian : Address} (listed : guardian ∈ guardians)
    (distinct : guardians.Nodup) (pending : situation.attempt.status = .pending)
    (proposed : situation.attempt.proposedAuthority = authority)
    (committed : situation.attempt.recipientCommitment = commitment)
    (unused : situation.approved situation.attempt.attemptNonce guardian = false)
    (clock : situation.timestamp < 2 ^ 64)
    (recoverable : Recoverable authority commitment guardians
      { situation with
        attempt := { situation.attempt with approvals := situation.attempt.approvals + 1 }
        approved := Function.update situation.approved situation.attempt.attemptNonce
          (Function.update (situation.approved situation.attempt.attemptNonce) guardian true) }) :
    Recoverable authority commitment guardians situation := by
  have spent := fresh_update listed distinct unused
  have counted : (situation.attempt.approvals + 1).toNat ≤
      situation.attempt.approvals.toNat + 1 := by
    rw [UInt8.toNat_add]
    exact Nat.mod_le _ _
  cases recoverable with
  | held isCurrent => exact .held isCurrent
  | approved _ _ quorum =>
      apply Recoverable.approvable pending proposed committed _ clock
      simp only at quorum
      omega
  | approvable _ _ _ quorum _ =>
      apply Recoverable.approvable pending proposed committed _ clock
      simp only [Function.update_self] at quorum
      omega
  | replaceable _ other _ _ _ =>
      apply Recoverable.approvable pending proposed committed _ clock
      simp only at other
      omega
  | idle notPending => exact absurd pending notPending

/-- What is recoverable after a finalization was so before it. -/
theorem Recoverable.before_finalization (pending : situation.attempt.status = .pending)
    (quorum : situation.threshold ≤ situation.attempt.approvals.toNat)
    (elapsed : situation.attempt.initiatedAt.toNat + minDelay ≤ situation.timestamp)
    (recoverable : Recoverable authority commitment guardians
      { situation with
        current := situation.attempt.proposedAuthority
        attempt := { situation.attempt with status := .finalized } }) :
    Recoverable authority commitment guardians situation := by
  cases recoverable with
  | held isCurrent => exact .approved pending isCurrent quorum
  | approved impossible => cases impossible
  | approvable impossible => cases impossible
  | replaceable impossible => cases impossible
  | idle _ enough clock =>
      exact .replaceable pending quorum enough clock (lt_of_le_of_lt elapsed clock)

/-- An accepted approval was submitted before it expired. -/
theorem execute_expiry {storage storage' : Storage} {event : Event} {guardian : Address}
    {proof : List Bytes32} {expiresAt : UInt64} {schemaVersion : UInt16} {signature : Bytes}
    {context : Context}
    (done : execute machine storage
      ⟨context, .approveRecovery vaultId guardian proof expiresAt schemaVersion signature⟩ =
        .ok (storage', event)) :
    context.timestamp < 2 ^ 64 := by
  simp only [execute, approveRecovery] at done
  split_ifs at done with _ _ expired
  have word := expiresAt.toNat_lt
  omega

/-- No allowed call makes a vault recoverable. -/
theorem Recoverable.before_call (distinct : guardians.Nodup)
    (initialized : (chain.storage.guardianSet vaultId).initialized = true)
    (two : 2 ≤ (chain.storage.guardianSet vaultId).threshold.toNat)
    (continues : Continues vaultId authority commitment guardians chain tx)
    (recoverable : Recoverable authority commitment guardians
      ((chain.submit machine tx).situation vaultId)) :
    Recoverable authority commitment guardians (chain.situation vaultId) := by
  obtain ⟨order, sender, willing⟩ := continues
  obtain ⟨context, call⟩ := tx
  unfold Chain.submit at recoverable
  split at recoverable
  · next storage' event done =>
      have effect := execute_effect done
      by_cases own : call.vaultId = vaultId
      · subst own
        cases effect with
        | guardianSet target root threshold guardianCount schemaVersion unset =>
            simp only [Call.vaultId, unset] at initialized
            cases initialized
        | initiated target proposedAuthority recipientCommitment schemaVersion _ idle =>
            apply Recoverable.before_initiation proposedAuthority recipientCommitment
              (UInt64.ofNat context.timestamp) two idle
            apply Recoverable.earlier context.timestamp _ order
            simpa only [Chain.situation, Call.vaultId, Function.update_self] using recoverable
        | approved target guardian proof expiresAt schemaVersion signature pending _ _ unused =>
            obtain ⟨listed, proposed, committed⟩ :=
              willing guardian proof expiresAt schemaVersion signature rfl
            have clock : chain.timestamp < 2 ^ 64 := lt_of_le_of_lt order (execute_expiry done)
            apply Recoverable.before_approval listed distinct pending proposed committed unused
              clock
            apply Recoverable.earlier context.timestamp _ order
            simpa only [Chain.situation, Call.vaultId, Function.update_self] using recoverable
        | canceled target schemaVersion _ bySender => exact absurd bySender sender
        | finalized target schemaVersion pending quorum elapsed =>
            have quorum : (chain.storage.guardianSet target).threshold.toNat ≤
              (chain.storage.recovery target).approvals.toNat := quorum
            apply Recoverable.earlier context.timestamp _ order
            apply Recoverable.before_finalization pending quorum elapsed
            simpa only [Chain.situation, Call.vaultId, Function.update_self] using recoverable
      · obtain ⟨sameSet, sameAuthority, sameAttempt, sameApproved⟩ := effect.frame own
        apply Recoverable.earlier context.timestamp _ order
        simpa only [Chain.situation, sameSet, sameAuthority, sameAttempt, sameApproved] using
          recoverable
  · exact Recoverable.earlier context.timestamp recoverable order

/-- A guardian set stays, over a whole continuation, and so does what it was at its start. -/
theorem recoverable_of_canRecover (distinct : guardians.Nodup)
    (initialized : (chain.storage.guardianSet vaultId).initialized = true)
    (two : 2 ≤ (chain.storage.guardianSet vaultId).threshold.toNat)
    (can : CanRecover machine chain vaultId authority commitment guardians) :
    Recoverable authority commitment guardians (chain.situation vaultId) := by
  obtain ⟨txs, allowed, reached⟩ := can
  induction txs generalizing chain with
  | nil => exact .held reached
  | cons tx txs ih =>
      have kept : (chain.submit machine tx).storage.guardianSet vaultId =
          chain.storage.guardianSet vaultId := by
        unfold Chain.submit
        split
        · next storage' event done => exact (execute_effect done).guardianSet_kept initialized
        · rfl
      apply Recoverable.before_call distinct initialized two allowed.1
      apply ih _ _ allowed.2 reached
      · rw [kept]
        exact initialized
      · rw [kept]
        exact two

end

/-! ## The continuations -/

/-- Somebody who is not the authority. -/
def stranger (authority : Address) : Address := if authority = 1 then 2 else 1

theorem stranger_ne (authority : Address) : stranger authority ≠ authority := by
  unfold stranger
  split
  · next isOne =>
      rw [isOne]
      decide
  · next notOne => exact fun same => notOne same.symm

section

variable {machine : Machine} {chain : Chain} {vaultId : Bytes32}
variable {authority : Address} {commitment : Bytes32} {guardians : List Address}

theorem CanRecover.cons {tx : Transaction}
    (continues : Continues vaultId authority commitment guardians chain tx)
    (later : CanRecover machine (chain.submit machine tx) vaultId authority commitment guardians) :
    CanRecover machine chain vaultId authority commitment guardians := by
  obtain ⟨txs, allowed, reached⟩ := later
  exact ⟨tx :: txs, ⟨continues, allowed⟩, reached⟩

/-- Finalize the pending attempt as soon as its delay is over. -/
def finalization (chain : Chain) (vaultId : Bytes32) : Transaction where
  context := ⟨stranger (chain.storage.vaultAuthority vaultId),
    max chain.timestamp ((chain.storage.recovery vaultId).initiatedAt.toNat + minDelay)⟩
  call := .finalizeRecovery vaultId maxKnownSchemaVersion

theorem finalization_continues (chain : Chain) :
    Continues vaultId authority commitment guardians chain (finalization chain vaultId) := by
  refine ⟨le_max_left _ _, stranger_ne _, ?_⟩
  intro guardian proof expiresAt schemaVersion signature call
  cases call

theorem submit_finalization (pending : (chain.storage.recovery vaultId).status = .pending)
    (quorum : (chain.storage.guardianSet vaultId).threshold.toNat ≤
      (chain.storage.recovery vaultId).approvals.toNat) :
    (chain.submit machine (finalization chain vaultId)).storage =
      { chain.storage with
        recovery := Function.update chain.storage.recovery vaultId
          { chain.storage.recovery vaultId with status := .finalized }
        vaultAuthority := Function.update chain.storage.vaultAuthority vaultId
          (chain.storage.recovery vaultId).proposedAuthority } := by
  have version : ¬ maxKnownSchemaVersion < maxKnownSchemaVersion := by decide
  have enough : ¬ (chain.storage.recovery vaultId).approvals <
    (chain.storage.guardianSet vaultId).threshold := UInt8.not_lt.mpr quorum
  have elapsed : ¬ max chain.timestamp
      ((chain.storage.recovery vaultId).initiatedAt.toNat + minDelay) <
        (chain.storage.recovery vaultId).initiatedAt.toNat + minDelay := by
    exact Nat.not_lt.mpr (le_max_right _ _)
  simp only [Chain.submit, execute, finalization, finalizeRecovery, version, pending, enough,
    elapsed, if_false, ne_eq, not_true_eq_false]

/-- An attempt for the authority that has its approvals can be finalized. -/
theorem canRecover_of_approved (pending : (chain.storage.recovery vaultId).status = .pending)
    (proposed : (chain.storage.recovery vaultId).proposedAuthority = authority)
    (quorum : (chain.storage.guardianSet vaultId).threshold.toNat ≤
      (chain.storage.recovery vaultId).approvals.toNat) :
    CanRecover machine chain vaultId authority commitment guardians := by
  apply CanRecover.cons (finalization_continues chain)
  refine ⟨[], trivial, ?_⟩
  rw [List.foldl_nil, submit_finalization pending quorum]
  simpa only [Function.update_self] using proposed

/-- One guardian's approval of the pending attempt. -/
def approval (chain : Chain) (vaultId : Bytes32) (guardian : Address) (proof : List Bytes32)
    (signature : Bytes) : Transaction where
  context := ⟨stranger (chain.storage.vaultAuthority vaultId), chain.timestamp⟩
  call := .approveRecovery vaultId guardian proof (UInt64.ofNat (2 ^ 64 - 1)) maxKnownSchemaVersion
    signature

theorem submit_approval {guardian : Address} {proof : List Bytes32} {signature : Bytes}
    (nonzero : guardian ≠ 0) (pending : (chain.storage.recovery vaultId).status = .pending)
    (clock : chain.timestamp < 2 ^ 64)
    (proved : machine.verifyMerkleProof proof (chain.storage.guardianSet vaultId).root
      (guardianLeaf machine guardian) = true)
    (signed : machine.recover
      (hashApprove machine vaultId (chain.storage.recovery vaultId).proposedAuthority
        (chain.storage.recovery vaultId).attemptNonce (UInt64.ofNat (2 ^ 64 - 1))
        (chain.storage.recovery vaultId).recipientCommitment maxKnownSchemaVersion) signature =
      guardian)
    (unused : chain.storage.hasApproved vaultId (chain.storage.recovery vaultId).attemptNonce
      guardian = false) :
    chain.submit machine (approval chain vaultId guardian proof signature) =
      ⟨{ chain.storage with
          hasApproved := Function.update chain.storage.hasApproved vaultId
            (Function.update (chain.storage.hasApproved vaultId)
              (chain.storage.recovery vaultId).attemptNonce
              (Function.update
                (chain.storage.hasApproved vaultId (chain.storage.recovery vaultId).attemptNonce)
                guardian true))
          recovery := Function.update chain.storage.recovery vaultId
            { chain.storage.recovery vaultId with
              approvals := (chain.storage.recovery vaultId).approvals + 1 } },
        chain.timestamp,
        chain.receipts ++ [⟨approval chain vaultId guardian proof signature,
          .ok (.recoveryApproved vaultId (chain.storage.recovery vaultId).attemptNonce guardian
            ((chain.storage.recovery vaultId).approvals + 1) maxKnownSchemaVersion)⟩]⟩ := by
  have version : ¬ maxKnownSchemaVersion < maxKnownSchemaVersion := by decide
  have unexpired : ¬ (UInt64.ofNat (2 ^ 64 - 1)).toNat < chain.timestamp := by
    have last : (UInt64.ofNat (2 ^ 64 - 1)).toNat = 2 ^ 64 - 1 := by decide
    omega
  simp only [Chain.submit, execute, approval, approveRecovery, version, pending, unexpired, proved,
    signed, nonzero, unused, if_false, ne_eq, not_true_eq_false, Bool.false_eq_true]

/-- An attempt for the authority and commitment that lacks no more approvals than there are
fresh guardians: they approve one by one, and it is finalized. -/
theorem canRecover_of_approvable
    (willing : Willing machine chain.storage vaultId authority commitment guardians)
    (pending : (chain.storage.recovery vaultId).status = .pending)
    (proposed : (chain.storage.recovery vaultId).proposedAuthority = authority)
    (committed : (chain.storage.recovery vaultId).recipientCommitment = commitment)
    (clock : chain.timestamp < 2 ^ 64) (missing : Nat)
    (lacks : (chain.storage.guardianSet vaultId).threshold.toNat ≤
      (chain.storage.recovery vaultId).approvals.toNat + missing)
    (available : missing ≤ fresh
      (chain.storage.hasApproved vaultId (chain.storage.recovery vaultId).attemptNonce)
      guardians) :
    CanRecover machine chain vaultId authority commitment guardians := by
  induction missing generalizing chain with
  | zero => exact canRecover_of_approved pending proposed lacks
  | succ missing ih =>
      by_cases quorum : (chain.storage.guardianSet vaultId).threshold.toNat ≤
          (chain.storage.recovery vaultId).approvals.toNat
      · exact canRecover_of_approved pending proposed quorum
      · obtain ⟨guardian, listed, isFresh⟩ := List.countP_pos_iff.mp
          (lt_of_lt_of_le (Nat.succ_pos missing) available)
        have unused : chain.storage.hasApproved vaultId
            (chain.storage.recovery vaultId).attemptNonce guardian = false := by
          simpa using isFresh
        obtain ⟨proof, proved⟩ := willing.members guardian listed
        obtain ⟨signature, signed⟩ := willing.signs guardian listed
          (chain.storage.recovery vaultId).attemptNonce (UInt64.ofNat (2 ^ 64 - 1))
        have spent := fresh_update listed willing.distinct unused
        have counted : ((chain.storage.recovery vaultId).approvals + 1).toNat =
            (chain.storage.recovery vaultId).approvals.toNat + 1 := by
          have word := (chain.storage.guardianSet vaultId).threshold.toNat_lt
          rw [UInt8.toNat_add]
          apply Nat.mod_eq_of_lt
          change (chain.storage.recovery vaultId).approvals.toNat + 1 < 2 ^ 8
          omega
        apply @CanRecover.cons machine chain vaultId authority commitment guardians
          (approval chain vaultId guardian proof signature)
        · refine ⟨le_rfl, stranger_ne _, ?_⟩
          intro other otherProof expiresAt schemaVersion otherSignature call
          cases call
          exact ⟨listed, proposed, committed⟩
        · rw [submit_approval (willing.nonzero guardian listed) pending clock proved
            (by rw [proposed, committed]; exact signed) unused]
          apply ih
          · exact ⟨willing.distinct, willing.nonzero, willing.members, willing.signs,
              willing.quorum⟩
          · simpa only [Function.update_self] using pending
          · simpa only [Function.update_self] using proposed
          · simpa only [Function.update_self] using committed
          · exact clock
          · simp only [Function.update_self, counted]
            omega
          · simp only [Function.update_self]
            omega

/-- A new attempt by somebody else. -/
def initiation (chain : Chain) (vaultId : Bytes32) (authority : Address) (commitment : Bytes32) :
    Transaction where
  context := ⟨stranger (chain.storage.vaultAuthority vaultId), chain.timestamp⟩
  call := .initiateRecovery vaultId authority commitment maxKnownSchemaVersion

theorem submit_initiation
    (initialized : (chain.storage.guardianSet vaultId).initialized = true)
    (nonzero : authority ≠ 0) (nonempty : commitment ≠ 0)
    (idle : (chain.storage.recovery vaultId).status ≠ .pending) :
    chain.submit machine (initiation chain vaultId authority commitment) =
      ⟨{ chain.storage with
          recovery := Function.update chain.storage.recovery vaultId
            ⟨authority, UInt64.ofNat chain.timestamp,
              (chain.storage.recovery vaultId).attemptNonce + 1, 0, .pending, commitment⟩ },
        chain.timestamp,
        chain.receipts ++ [⟨initiation chain vaultId authority commitment,
          .ok (.recoveryInitiated vaultId ((chain.storage.recovery vaultId).attemptNonce + 1)
            authority (UInt64.ofNat chain.timestamp) commitment maxKnownSchemaVersion)⟩]⟩ := by
  have version : ¬ maxKnownSchemaVersion < maxKnownSchemaVersion := by decide
  simp only [Chain.submit, execute, initiation, initiateRecovery, version, initialized, nonzero,
    nonempty, idle, if_false, not_true_eq_false]

/-- Where no attempt is pending, a new one can be started and approved. -/
theorem canRecover_of_idle
    (willing : Willing machine chain.storage vaultId authority commitment guardians)
    (initialized : (chain.storage.guardianSet vaultId).initialized = true)
    (nonzero : authority ≠ 0) (nonempty : commitment ≠ 0)
    (idle : (chain.storage.recovery vaultId).status ≠ .pending)
    (quorum : (chain.storage.guardianSet vaultId).threshold.toNat ≤ fresh
      (chain.storage.hasApproved vaultId ((chain.storage.recovery vaultId).attemptNonce + 1))
      guardians)
    (clock : chain.timestamp < 2 ^ 64) :
    CanRecover machine chain vaultId authority commitment guardians := by
  apply @CanRecover.cons machine chain vaultId authority commitment guardians
    (initiation chain vaultId authority commitment)
  · refine ⟨le_rfl, stranger_ne _, ?_⟩
    intro guardian proof expiresAt schemaVersion signature call
    cases call
  · rw [submit_initiation initialized nonzero nonempty idle]
    apply canRecover_of_approvable
    · exact ⟨willing.distinct, willing.nonzero, willing.members, willing.signs, willing.quorum⟩
    · simp
    · simp
    · simp
    · exact clock
    · simp only [Function.update_self, UInt8.toNat_zero, Nat.zero_add]
      exact le_rfl
    · simpa only [Function.update_self] using quorum

/-- Any pending attempt that has its approvals can be finalized to make room. -/
theorem canRecover_of_replaceable
    (willing : Willing machine chain.storage vaultId authority commitment guardians)
    (initialized : (chain.storage.guardianSet vaultId).initialized = true)
    (nonzero : authority ≠ 0) (nonempty : commitment ≠ 0)
    (pending : (chain.storage.recovery vaultId).status = .pending)
    (other : (chain.storage.guardianSet vaultId).threshold.toNat ≤
      (chain.storage.recovery vaultId).approvals.toNat)
    (quorum : (chain.storage.guardianSet vaultId).threshold.toNat ≤ fresh
      (chain.storage.hasApproved vaultId ((chain.storage.recovery vaultId).attemptNonce + 1))
      guardians)
    (clock : chain.timestamp < 2 ^ 64)
    (delay : (chain.storage.recovery vaultId).initiatedAt.toNat + minDelay < 2 ^ 64) :
    CanRecover machine chain vaultId authority commitment guardians := by
  have storage := @submit_finalization machine chain vaultId pending other
  apply CanRecover.cons (finalization_continues chain)
  apply canRecover_of_idle _ _ nonzero nonempty
  · rw [storage]
    simp
  · rw [storage]
    simpa only [Function.update_self] using quorum
  · have timestamp : (chain.submit machine (finalization chain vaultId)).timestamp =
        max chain.timestamp
          ((chain.storage.recovery vaultId).initiatedAt.toNat + minDelay) := by
      unfold Chain.submit
      split <;> rfl
    rw [timestamp]
    exact max_lt clock delay
  · rw [storage]
    exact ⟨willing.distinct, willing.nonzero, willing.members, willing.signs, willing.quorum⟩
  · rw [storage]
    exact initialized

end

/-- From every reachable state of a vault with guardians, a threshold of guardians who sign
only for `authority` and `commitment` can make it the vault's authority without the current
one exactly if the vault is recoverable: a stranger's pending attempt for anything else that
lacks its approvals blocks them for good. -/
theorem recovery_possible_iff {machine : Machine} {chain : Chain} {vaultId : Bytes32}
    {authority : Address} {commitment : Bytes32} {guardians : List Address}
    (run : Reachable machine chain)
    (initialized : (chain.storage.guardianSet vaultId).initialized = true)
    (nonzero : authority ≠ 0) (nonempty : commitment ≠ 0)
    (willing : Willing machine chain.storage vaultId authority commitment guardians) :
    CanRecover machine chain vaultId authority commitment guardians ↔
      Recoverable authority commitment guardians (chain.situation vaultId) := by
  constructor
  · exact recoverable_of_canRecover willing.distinct initialized
      (run.inv.threshold vaultId initialized)
  · intro recoverable
    cases recoverable with
    | held isCurrent => exact ⟨[], trivial, isCurrent⟩
    | approved pending proposed quorum => exact canRecover_of_approved pending proposed quorum
    | approvable pending proposed committed quorum clock =>
        exact canRecover_of_approvable willing pending proposed committed clock _ quorum le_rfl
    | replaceable pending other quorum clock delay =>
        exact canRecover_of_replaceable willing initialized nonzero nonempty pending other quorum
          clock delay
    | idle idle quorum clock =>
        exact canRecover_of_idle willing initialized nonzero nonempty idle quorum clock

namespace Sample

/-- The owner, address 5, sets two of four guardians. -/
def guarded : Chain :=
  Chain.submit rollingMachine .deployed (mined 10 (.setGuardianSet 7 fourRoot 2 4 1))

/-- A stranger starts an attempt for itself. -/
def blocked : Chain :=
  Chain.submit rollingMachine guarded ⟨⟨66, 20⟩, .initiateRecovery 7 66 1 1⟩

theorem recover_sign (digest : Bytes32) :
    rollingMachine.recover digest (sign 21) = 21 ∧
      rollingMachine.recover digest (sign 22) = 22 ∧
      rollingMachine.recover digest (sign 23) = 23 := ⟨rfl, rfl, rfl⟩

theorem willing {storage : Storage} (root : (storage.guardianSet 7).root = fourRoot)
    (threshold : (storage.guardianSet 7).threshold = 2) :
    Willing rollingMachine storage 7 9 8 [21, 22, 23] := by
  constructor
  · decide
  · intro guardian listed
    simp only [List.mem_cons, List.not_mem_nil, or_false] at listed
    rcases listed with rfl | rfl | rfl
    all_goals decide
  · rw [root]
    intro guardian listed
    simp only [List.mem_cons, List.not_mem_nil, or_false] at listed
    rcases listed with rfl | rfl | rfl
    · exact ⟨[leaf 22, node (leaf 23) (leaf 24)], by decide +kernel⟩
    · exact ⟨[leaf 21, node (leaf 23) (leaf 24)], by decide +kernel⟩
    · exact ⟨[leaf 24, node (leaf 21) (leaf 22)], by decide +kernel⟩
  · intro guardian listed attemptNonce expiresAt
    simp only [List.mem_cons, List.not_mem_nil, or_false] at listed
    rcases listed with rfl | rfl | rfl
    · exact ⟨sign 21, (recover_sign _).1⟩
    · exact ⟨sign 22, (recover_sign _).2.1⟩
    · exact ⟨sign 23, (recover_sign _).2.2⟩
  · rw [threshold]
    decide

theorem reachable_guarded : Reachable rollingMachine guarded :=
  .tail _ .refl (by decide +kernel)

theorem reachable_blocked : Reachable rollingMachine blocked :=
  .tail _ reachable_guarded (by decide +kernel)

end Sample

/-- Before anyone starts an attempt the three guardians can move the authority to 9. -/
theorem recovery_possible_untouched :
    CanRecover Sample.rollingMachine Sample.guarded 7 9 8 [21, 22, 23] := by
  apply (recovery_possible_iff Sample.reachable_guarded (by decide +kernel) (by decide) (by decide)
    (Sample.willing (by decide +kernel) (by decide +kernel))).mpr
  exact .idle (by decide +kernel) (by decide +kernel) (by decide +kernel)

/-- After a stranger's attempt they cannot, whatever anybody but the owner does. -/
theorem stranger_blocks_recovery :
    Reachable Sample.rollingMachine Sample.blocked ∧
      (Sample.blocked.storage.guardianSet 7).initialized = true ∧
      Willing Sample.rollingMachine Sample.blocked.storage 7 9 8 [21, 22, 23] ∧
      ¬ CanRecover Sample.rollingMachine Sample.blocked 7 9 8 [21, 22, 23] := by
  have initialized : (Sample.blocked.storage.guardianSet 7).initialized = true := by decide +kernel
  refine ⟨Sample.reachable_blocked, initialized,
    Sample.willing (by decide +kernel) (by decide +kernel), ?_⟩
  intro can
  cases recoverable_of_canRecover (by decide) initialized (by decide +kernel) can with
  | held isCurrent => exact absurd isCurrent (by decide +kernel)
  | approved _ proposed => exact absurd proposed (by decide +kernel)
  | approvable _ proposed => exact absurd proposed (by decide +kernel)
  | replaceable _ other => exact absurd other (by decide +kernel)
  | idle idle => exact absurd idle (by decide +kernel)

end Pangolin.RecoveryV2
