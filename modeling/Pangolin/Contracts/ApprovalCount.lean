import Pangolin.Contracts.RecoverySafety
import Mathlib.Data.Set.Card

/-!
# Counting approvals

The counter of a pending attempt against the set of guardians who approved it.  The
committed root and the declared number of guardians are independent arguments, and an
attempt starts from whatever approvals its nonce already has; where the root commits to no
more addresses than declared and the nonce is unused, the counter is the size of the set
and never passes the number of guardians.
-/

namespace Pangolin.RecoveryV2

open Evm Transition

/-- The addresses with a proof under a root. -/
def committed (machine : Machine) (root : Bytes32) : Set Address :=
  {guardian | ∃ proof, machine.verifyMerkleProof proof root (guardianLeaf machine guardian) = true}

/-- The guardians who approved the vault's current attempt. -/
def approvedBy (storage : Storage) (vaultId : Bytes32) : Set Address :=
  {guardian | storage.hasApproved vaultId (storage.recovery vaultId).attemptNonce guardian = true}

/-- A guardian set commits to no more addresses than it declares, and an attempt takes a
nonce under which nobody has approved. -/
def CountsApprovals (machine : Machine) (storage : Storage) (call : Call) : Prop :=
  (∀ vaultId root threshold guardianCount schemaVersion,
    call = .setGuardianSet vaultId root threshold guardianCount schemaVersion →
      (committed machine root).encard ≤ guardianCount.toNat) ∧
  ∀ vaultId proposedAuthority recipientCommitment schemaVersion,
    call = .initiateRecovery vaultId proposedAuthority recipientCommitment schemaVersion →
      ∀ guardian, storage.hasApproved vaultId
        ((storage.recovery vaultId).attemptNonce + 1) guardian = false

/-- The slots of one vault agree on who approved. -/
structure ApprovalInv (machine : Machine) (storage : Storage) (vaultId : Bytes32) : Prop where
  declared : (storage.guardianSet vaultId).initialized = true →
    (committed machine (storage.guardianSet vaultId).root).encard ≤
      (storage.guardianSet vaultId).guardianCount.toNat
  initialized : (storage.recovery vaultId).status = .pending →
    (storage.guardianSet vaultId).initialized = true
  counted : (storage.recovery vaultId).status = .pending →
    (approvedBy storage vaultId).encard = (storage.recovery vaultId).approvals.toNat
  members : (storage.recovery vaultId).status = .pending →
    approvedBy storage vaultId ⊆ committed machine (storage.guardianSet vaultId).root

section

variable {machine : Machine} {storage storage' : Storage} {context : Context} {call : Call}
variable {event : Event} {vaultId : Bytes32}

/-- The size of a subset of the committed addresses fits the counter. -/
theorem ApprovalInv.fits (inv : ApprovalInv machine storage vaultId)
    (pending : (storage.recovery vaultId).status = .pending) {guardians : Set Address}
    (members : guardians ⊆ committed machine (storage.guardianSet vaultId).root) :
    guardians.encard ≤ (storage.guardianSet vaultId).guardianCount.toNat :=
  (Set.encard_le_encard members).trans (inv.declared (inv.initialized pending))

/-- One more approval is counted without a wrap. -/
theorem ApprovalInv.approve (inv : ApprovalInv machine storage vaultId) {guardian : Address}
    (pending : (storage.recovery vaultId).status = .pending)
    (proved : guardian ∈ committed machine (storage.guardianSet vaultId).root)
    (fresh : guardian ∉ approvedBy storage vaultId) :
    (insert guardian (approvedBy storage vaultId)).encard =
      ((storage.recovery vaultId).approvals + 1).toNat := by
  have size : (insert guardian (approvedBy storage vaultId)).encard =
      ((storage.recovery vaultId).approvals.toNat + 1 : Nat) := by
    rw [Set.encard_insert_of_notMem fresh, inv.counted pending]
    rfl
  have bound := inv.fits pending (Set.insert_subset proved (inv.members pending))
  rw [size] at bound
  have below : (storage.recovery vaultId).approvals.toNat + 1 ≤
      (storage.guardianSet vaultId).guardianCount.toNat := by exact_mod_cast bound
  have word := (storage.guardianSet vaultId).guardianCount.toNat_lt
  rw [size, UInt8.toNat_add, Nat.mod_eq_of_lt]
  · rfl
  · change (storage.recovery vaultId).approvals.toNat + 1 < 2 ^ 8
    omega

/-- One call keeps the slots of its vault in agreement. -/
theorem ApprovalInv.effect (inv : ApprovalInv machine storage call.vaultId)
    (counts : CountsApprovals machine storage call)
    (effect : Effect machine storage context call storage' event) :
    ApprovalInv machine storage' call.vaultId := by
  cases effect with
  | guardianSet target root threshold guardianCount schemaVersion unset =>
      have idle : (storage.recovery target).status ≠ .pending := by
        intro pending
        have known := inv.initialized pending
        simp only [Call.vaultId, unset] at known
        cases known
      refine ⟨?_, ?_, ?_, ?_⟩
      · intro _
        simp only [Call.vaultId, Function.update_self]
        exact counts.1 target root threshold guardianCount schemaVersion rfl
      all_goals
        intro pending
        exact absurd pending idle
  | initiated target proposedAuthority recipientCommitment schemaVersion known =>
      have unused := counts.2 target proposedAuthority recipientCommitment schemaVersion rfl
      have none : approvedBy { storage with
          recovery := Function.update storage.recovery target
            ⟨proposedAuthority, UInt64.ofNat context.timestamp,
              (storage.recovery target).attemptNonce + 1, 0, .pending, recipientCommitment⟩ }
          target = ∅ := by
        ext guardian
        simp [approvedBy, unused]
      refine ⟨inv.declared, fun _ => known, ?_, ?_⟩
      · intro _
        simp only [Call.vaultId]
        rw [none, Set.encard_empty]
        simp
      · intro _
        simp only [Call.vaultId]
        rw [none]
        exact Set.empty_subset _
  | approved target guardian proof expiresAt schemaVersion signature pending proved signed fresh =>
      have member : guardian ∈ committed machine (storage.guardianSet target).root :=
        ⟨proof, proved⟩
      have absent : guardian ∉ approvedBy storage target := by
        simp [approvedBy, fresh]
      have inserted : approvedBy { storage with
          hasApproved := Function.update storage.hasApproved target
            (Function.update (storage.hasApproved target)
              (storage.recovery target).attemptNonce
              (Function.update
                (storage.hasApproved target (storage.recovery target).attemptNonce)
                guardian true))
          recovery := Function.update storage.recovery target
            { storage.recovery target with
              approvals := (storage.recovery target).approvals + 1 } }
          target = insert guardian (approvedBy storage target) := by
        ext other
        by_cases same : other = guardian
        · simp [approvedBy, same]
        · simp [approvedBy, same]
      refine ⟨inv.declared, fun _ => inv.initialized pending, ?_, ?_⟩
      · intro _
        simp only [Call.vaultId]
        rw [inserted]
        simp only [Function.update_self]
        exact inv.approve pending member absent
      · intro _
        simp only [Call.vaultId]
        rw [inserted]
        exact Set.insert_subset member (inv.members pending)
  | canceled target =>
      refine ⟨inv.declared, ?_, ?_, ?_⟩
      all_goals simp [Call.vaultId]
  | finalized target =>
      refine ⟨inv.declared, ?_, ?_, ?_⟩
      all_goals simp [Call.vaultId]

theorem ApprovalInv.frame (inv : ApprovalInv machine storage vaultId)
    (effect : Effect machine storage context call storage' event)
    (other : call.vaultId ≠ vaultId) : ApprovalInv machine storage' vaultId := by
  obtain ⟨sameSet, -, sameAttempt, sameApproved⟩ := effect.frame other
  have sameApprovers : approvedBy storage' vaultId = approvedBy storage vaultId := by
    simp only [approvedBy, sameAttempt, sameApproved]
  constructor
  · rw [sameSet]
    exact inv.declared
  · rw [sameSet, sameAttempt]
    exact inv.initialized
  · rw [sameApprovers, sameAttempt]
    exact inv.counted
  · rw [sameApprovers, sameAttempt, sameSet]
    exact inv.members

end

/-- In every state reached through calls that meet the condition, the counter of a pending
attempt is the number of guardians who approved it and at most the declared number. -/
theorem approvals_counted {machine : Machine} {chain : Chain}
    (run : Reaches (Chain.submit machine)
      (fun chain tx => CountsApprovals machine chain.storage tx.call) .deployed chain)
    (vaultId : Bytes32) (pending : (chain.storage.recovery vaultId).status = .pending) :
    (approvedBy chain.storage vaultId).encard =
        (chain.storage.recovery vaultId).approvals.toNat ∧
      (chain.storage.recovery vaultId).approvals ≤
        (chain.storage.guardianSet vaultId).guardianCount := by
  have inv : ApprovalInv machine chain.storage vaultId := by
    apply run.invariant fun chain => ApprovalInv machine chain.storage vaultId
    · intro state tx inv counts
      unfold Chain.submit
      split
      · next storage' event done =>
          have effect := execute_effect done
          by_cases own : tx.call.vaultId = vaultId
          · subst own
            exact inv.effect counts effect
          · exact inv.frame effect own
      · exact inv
    · constructor
      all_goals
        intro impossible
        cases impossible
  refine ⟨inv.counted pending, ?_⟩
  have bound := inv.fits pending (inv.members pending)
  rw [inv.counted pending] at bound
  exact_mod_cast bound

namespace Sample

/-- The digests of a tree of two guardians. -/
def tableHash (bytes : Bytes) : Bytes32 :=
  if bytes = abiWord 21 then
    101
  else if bytes = abiWord 22 then
    102
  else if bytes = abiWord 101 ++ abiWord 102 then
    200
  else
    0

def tableMachine : Machine := { machine with keccak256 := tableHash }

/-- A digest of two words is the root, of exactly the two leaves, or nothing. -/
theorem tableHash_pair (left right : Bytes32) :
    tableHash (abiWord left.toNat ++ abiWord right.toNat) = 0 ∨
      (tableHash (abiWord left.toNat ++ abiWord right.toNat) = 200 ∧ left = 101 ∧ right = 102) := by
  have long : (abiWord left.toNat ++ abiWord right.toNat).length = 64 := by
    rw [List.length_append, length_abiWord, length_abiWord]
  unfold tableHash
  rw [if_neg (by rintro same; rw [same, length_abiWord] at long; cases long),
    if_neg (by rintro same; rw [same, length_abiWord] at long; cases long)]
  split
  · next same =>
      obtain ⟨first, second⟩ := List.append_inj same (by rw [length_abiWord, length_abiWord])
      right
      refine ⟨rfl, ?_, ?_⟩
      · exact BitVec.eq_of_toNat_eq (abiWord_inj left.isLt (by decide) first)
      · exact BitVec.eq_of_toNat_eq (abiWord_inj right.isLt (by decide) second)
  · exact .inl rfl

/-- Only the two leaves and the root itself fold up to the root. -/
theorem table_fold (proof : List Bytes32) (start : Bytes32)
    (proved : tableMachine.verifyMerkleProof proof 200 start = true) :
    start = 101 ∨ start = 102 ∨ start = 200 := by
  induction proof generalizing start with
  | nil =>
      right
      right
      simpa [Machine.verifyMerkleProof] using proved
  | cons sibling proof ih =>
      have next := ih _ proved
      by_cases order : start.toNat ≤ sibling.toNat
      · simp only [order, if_true] at next
        rcases tableHash_pair start sibling with zero | ⟨-, first, -⟩
        · simp only [tableMachine, zero] at next
          exact absurd next (by decide)
        · exact .inl first
      · simp only [order, if_false] at next
        rcases tableHash_pair sibling start with zero | ⟨-, -, second⟩
        · simp only [tableMachine, zero] at next
          exact absurd next (by decide)
        · exact .inr (.inl second)

theorem leaf_table (guardian : Address) :
    guardianLeaf tableMachine guardian = tableHash (abiWord guardian.toNat) := by
  simp only [guardianLeaf, abiEncode, List.flatMap_singleton, tableMachine]

theorem committed_table : committed tableMachine 200 ⊆ {21, 22} := by
  rintro guardian ⟨proof, proved⟩
  have leaf := table_fold proof _ proved
  have word : guardian.toNat < 2 ^ 256 := lt_of_lt_of_le guardian.isLt (by decide)
  rw [leaf_table] at leaf
  unfold tableHash at leaf
  split_ifs at leaf with first second both
  · left
    exact BitVec.eq_of_toNat_eq (abiWord_inj word (by decide) first)
  · right
    exact BitVec.eq_of_toNat_eq (abiWord_inj word (by decide) second)
  · have length := congrArg List.length both
    rw [List.length_append, length_abiWord, length_abiWord, length_abiWord] at length
    cases length
  · exact absurd leaf (by decide)

/-- Three guardians declared, two committed, and both approve. -/
def bothApproved : List Transaction :=
  [mined 10 (.setGuardianSet 7 200 2 3 1), mined 20 (.initiateRecovery 7 9 8 1),
    mined 30 (.approveRecovery 7 21 [102] 100 1 (sign 21)),
    mined 40 (.approveRecovery 7 22 [101] 100 1 (sign 22))]

def counted : Chain := bothApproved.foldl (Chain.submit tableMachine) .deployed

end Sample

/-- Two approvals are counted as two. -/
theorem approvals_counted_two :
    (Sample.counted.storage.recovery 7).approvals = 2 ∧
      (approvedBy Sample.counted.storage 7).encard =
        (Sample.counted.storage.recovery 7).approvals.toNat := by
  have run : Reaches (Chain.submit Sample.tableMachine)
      (fun chain tx => CountsApprovals Sample.tableMachine chain.storage tx.call) .deployed
      Sample.counted := by
    apply Reaches.foldl
    refine ⟨⟨?_, ?_⟩, ⟨?_, ?_⟩, ⟨?_, ?_⟩, ⟨?_, ?_⟩, trivial⟩
    · intro vaultId root threshold guardianCount schemaVersion call
      cases call
      apply (Set.encard_le_encard Sample.committed_table).trans
      rw [Set.encard_pair (by decide)]
      decide
    · intro vaultId proposedAuthority recipientCommitment schemaVersion call
      cases call
    · intro vaultId root threshold guardianCount schemaVersion call
      cases call
    · intro vaultId proposedAuthority recipientCommitment schemaVersion call guardian
      cases call
      rfl
    · intro vaultId root threshold guardianCount schemaVersion call
      cases call
    · intro vaultId proposedAuthority recipientCommitment schemaVersion call
      cases call
    · intro vaultId root threshold guardianCount schemaVersion call
      cases call
    · intro vaultId proposedAuthority recipientCommitment schemaVersion call
      cases call
  exact ⟨by decide +kernel, (approvals_counted run 7 (by decide +kernel)).1⟩

namespace Sample

/-- A rolling hash: no two of the inputs below collide. -/
def rollingHash (bytes : Bytes) : Bytes32 :=
  BitVec.ofNat 256 (bytes.foldl (fun hash byte => (hash * 1000003 + byte.toNat + 1) % 2 ^ 256) 7)

def rollingMachine : Machine := { machine with keccak256 := rollingHash }

/-- The hash of two siblings. -/
def node (left right : Bytes32) : Bytes32 :=
  if left.toNat ≤ right.toNat then
    rollingHash (abiWord left.toNat ++ abiWord right.toNat)
  else
    rollingHash (abiWord right.toNat ++ abiWord left.toNat)

def leaf (guardian : Address) : Bytes32 := guardianLeaf rollingMachine guardian

/-- The root of a tree of four guardians. -/
def fourRoot : Bytes32 := node (node (leaf 21) (leaf 22)) (node (leaf 23) (leaf 24))

/-- Three guardians declared, four of the tree approve. -/
def overApproved : List Transaction :=
  [mined 10 (.setGuardianSet 7 fourRoot 2 3 1), mined 20 (.initiateRecovery 7 9 8 1),
    mined 30 (.approveRecovery 7 21 [leaf 22, node (leaf 23) (leaf 24)] 100 1 (sign 21)),
    mined 40 (.approveRecovery 7 22 [leaf 21, node (leaf 23) (leaf 24)] 100 1 (sign 22)),
    mined 50 (.approveRecovery 7 23 [leaf 24, node (leaf 21) (leaf 22)] 100 1 (sign 23)),
    mined 60 (.approveRecovery 7 24 [leaf 23, node (leaf 21) (leaf 22)] 100 1 (sign 24))]

end Sample

/-- A set declared with three guardians whose root commits to four: all four approvals are
counted. -/
theorem approvals_exceed_guardians :
    Reachable Sample.rollingMachine
        (Sample.overApproved.foldl (Chain.submit Sample.rollingMachine) .deployed) ∧
      ((Sample.overApproved.foldl (Chain.submit Sample.rollingMachine)
        .deployed).storage.recovery 7).status = .pending ∧
      ¬ ((Sample.overApproved.foldl (Chain.submit Sample.rollingMachine)
          .deployed).storage.recovery 7).approvals ≤
        ((Sample.overApproved.foldl (Chain.submit Sample.rollingMachine)
          .deployed).storage.guardianSet 7).guardianCount := by
  refine ⟨?_, by decide +kernel, by decide +kernel⟩
  apply Reaches.foldl
  decide +kernel

end Pangolin.RecoveryV2
