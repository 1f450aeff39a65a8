import Pangolin.Store.MultiDevice
import Pangolin.Runs.KeyInvariant

/-!
# Removed devices and the rotations they owe

The device set lives on chain; a removal is observed through the trigger and owes a
rotation until one completes without the removed signer.  A row that a rotation resolved
stays in the table under the signer's key, so a second removal of the same signer finds
it and queues nothing.
-/

namespace Pangolin

open Crypto Store Pangolin.Core Transition

/-- Calls that write the pending table, which the steps below make themselves. -/
def Op.TouchesPending : Op → Prop
  | .queueRotationPending _ | .completeRotation _ _ _ => True
  | _ => False

/-- The vault, the on-chain set, and the signers whose removal owes a rotation. -/
structure DeviceWorld where
  vault : Vault
  onchain : List EvmAddress
  owed : List EvmAddress

def DeviceWorld.rows (world : DeviceWorld) : List RotationPending :=
  world.vault.disk.deviceSet.rotationPending

inductive DeviceOp where
  /-- A signer joins the on-chain set. -/
  | added (signer : EvmAddress)
  /-- A signer leaves the set and the removal is observed. -/
  | removed (signer : EvmAddress) (known : List EvmAddress) (observedEpoch : Nat) (nowMs : Int)
  /-- `complete_rotation` against the live set. -/
  | rotate (password : Password) (draw : RotationDraw)
  | call (op : Op) (apart : ¬ op.TouchesPending)

def withRows (vault : Vault) (rotationPending : List RotationPending) : Vault :=
  { vault with disk := { vault.disk with
    deviceSet := { vault.disk.deviceSet with rotationPending } } }

section

variable (scheme : ShareScheme) (hash : CanonicalHash)

def DeviceWorld.step (world : DeviceWorld) : DeviceOp → DeviceWorld
  | .added signer => { world with onchain := world.onchain ++ [signer] }
  | .removed signer known observedEpoch nowMs =>
      let onchain := world.onchain.filter fun other => other ≠ signer
      let vault :=
        match processDeviceRemovedTrigger onchain observedEpoch nowMs world.rows known with
        | .ok (rows, _) => withRows world.vault rows
        | .error _ => world.vault
      { vault
        onchain
        owed := if signer ∈ world.onchain then world.owed ++ [signer] else world.owed }
  | .rotate password draw =>
      match completeRotation scheme world.vault password world.onchain draw with
      | (vault, .error _) => { world with vault }
      | (vault, .ok _) =>
          { world with
            vault
            owed := world.owed.filter fun signer => signer ∈ world.onchain }
  | .call op _ => { world with vault := Pangolin.step scheme hash world.vault op }

/-- The removed signer is among the known ones, the epoch fits its column, and no earlier
removal of the signer has been resolved. -/
def DeviceWorld.Fresh (world : DeviceWorld) : DeviceOp → Prop
  | .removed signer known observedEpoch _ =>
      signer ∈ known ∧ fitsI64 observedEpoch = true ∧
        ∀ row ∈ world.rows, row.removedSigner = signer → row.resolved = false
  | _ => True

instance (world : DeviceWorld) : (op : DeviceOp) → Decidable (world.Fresh op)
  | .removed _ _ _ _ => inferInstanceAs (Decidable (_ ∧ _ ∧ _))
  | .added _ | .rotate _ _ | .call _ _ => isTrue trivial

/-- Every signer that owes a rotation has a row that `read_pending_rotations` returns. -/
def DeviceWorld.Tracked (world : DeviceWorld) : Prop :=
  ∀ signer ∈ world.owed, ∃ row ∈ readPendingRotations world.rows, row.removedSigner = signer

end

/-! ## One step -/

/-- A rotation commit leaves the device tables alone. -/
theorem commitVdkRotation_deviceSet (vault : Vault) (commit : RotationCommit) :
    (commitVdkRotationFromActive vault commit).1.disk.deviceSet = vault.disk.deviceSet := by
  cases committed : commitVdkRotationFromActive vault commit with
  | mk vault' result =>
      cases result with
      | error error =>
          rcases commitVdkRotationFromActive_error committed with rfl | rfl
          · rfl
          · rfl
      | ok value =>
          obtain ⟨active, disk, -, transacted, rfl⟩ :=
            commitVdkRotationFromActive_eq_ok_iff.mp committed
          obtain ⟨-, -, escrow, -, rfl⟩ := rotationTx_eq_ok_iff.mp transacted
          rfl

/-- The other calls leave the pending table alone. -/
theorem step_rotationPending (scheme : ShareScheme) (hash : CanonicalHash) (vault : Vault)
    {op : Op} (apart : ¬ op.TouchesPending) :
    (step scheme hash vault op).disk.deviceSet.rotationPending =
      vault.disk.deviceSet.rotationPending := by
  have ofWrite : ∀ {vault' : Vault} {drawn : RevisionId}, WriteCall vault vault' drawn →
      vault'.disk.deviceSet.rotationPending = vault.disk.deviceSet.rotationPending := by
    intro vault' drawn call
    obtain ⟨log, written⟩ := call.disk
    rw [written]
  cases op with
  | unlock input =>
      obtain ⟨keys, written⟩ := unlock_disk vault input
      rw [step, written]
  | accountAdd validated accountId draw =>
      exact ofWrite (accountAdd_writes vault validated accountId draw)
  | accountUpdate accountId patch draw =>
      exact ofWrite (accountUpdate_writes vault accountId patch draw)
  | deleteAccount accountId draw => exact ofWrite (deleteAccount_writes vault accountId draw)
  | resolveFork accountId keep draw => exact ofWrite (resolveFork_writes vault accountId keep draw)
  | stashPendingMerge merge now => simp [step, stashPendingMerge]
  | onboardGuardians threshold pubs signers draw =>
      obtain ⟨escrow, result⟩ := onboardGuardians_frame scheme vault threshold pubs signers draw
      rw [step, result]
  | persistRecoveryRecipient target attemptNonce secret pub nowUnix =>
      obtain ⟨recipients, result⟩ :=
        persistRecoveryRecipient_frame vault target attemptNonce secret pub nowUnix
      rw [step, result]
  | commitRecoveryRekey recovered password salt reSplit =>
      rcases commitRecoveryRekey_cases vault recovered password salt reSplit with
        ⟨error, failed⟩ | ⟨escrow, -, result⟩
      · rw [step, failed]
      · rw [step, result]
        rfl
  | recoverFromShares input =>
      rcases recoverFromShares_cases scheme vault input with
        unchanged | ⟨recovered, escrow, result⟩
      · rw [step, unchanged]
      · rw [step, result]
        rfl
  | commitVdkRotationFromActive commit => rw [step, commitVdkRotation_deviceSet]
  | installPairedVdk received vaultId password salt =>
      rcases withActive_cases vault _ with
        ⟨error, failed⟩ | ⟨active, vault', value, -, done, result⟩
      · rw [step, installPairedVdk, failed]
      · rw [step, installPairedVdk, result]
        obtain ⟨rfl, -⟩ := Prod.mk.inj (Except.ok.inj done)
        rfl
  | markPublished revisionId anchor now =>
      rw [step, (markPublished_logOnly vault revisionId anchor now).deviceSet]
  | ingestPending event observedAtBlock observedBlockHash nowMs now =>
      rw [step, (ingestPending_logOnly hash vault event observedAtBlock observedBlockHash nowMs
        now).deviceSet]
  | promoteFinalized head => rw [step, (promoteFinalized_logOnly vault head).deviceSet]
  | rollbackPending low high => rw [step, (rollbackPending_logOnly vault low high).deviceSet]
  | queueRotationPending pending => exact absurd trivial apart
  | completeRotation password onchain draw => exact absurd trivial apart
  | lock | reopen _ _ | clearRecoveryRecipient _ | upsertDirectory _
  | recoverWithNewPassword _ _ _ => rfl

section

variable {scheme : ShareScheme} {hash : CanonicalHash} {world : DeviceWorld}

theorem tracked_iff :
    world.Tracked ↔ ∀ signer ∈ world.owed, Outstanding world.rows signer := by
  unfold DeviceWorld.Tracked Outstanding
  simp only [mem_readPendingRotations]
  constructor
  · intro tracked signer owed
    obtain ⟨row, ⟨member, unresolved⟩, same⟩ := tracked signer owed
    exact ⟨row, member, same, unresolved⟩
  · intro tracked signer owed
    obtain ⟨row, member, same, unresolved⟩ := tracked signer owed
    exact ⟨row, ⟨member, unresolved⟩, same⟩

/-- A rotation resolves only the rows of signers outside the set. -/
theorem outstanding_resolvePending {rows : List RotationPending} {onchain : List EvmAddress}
    {signer : EvmAddress} (outstanding : Outstanding rows signer) (member : signer ∈ onchain) :
    Outstanding (resolvePending onchain rows) signer := by
  obtain ⟨row, listed, same, unresolved⟩ := outstanding
  refine ⟨row, ?_, same, unresolved⟩
  refine List.mem_map.mpr ⟨row, listed, ?_⟩
  rw [same, if_pos member]

/-- What a completed rotation does to the table. -/
theorem completeRotation_rows {vault vault' : Vault} {password : Password}
    {onchain : List EvmAddress} {draw : RotationDraw} {outcome : RotationOutcome}
    (rotated : completeRotation scheme vault password onchain draw = (vault', .ok outcome)) :
    vault'.disk.deviceSet.rotationPending =
      resolvePending onchain vault.disk.deviceSet.rotationPending := by
  obtain ⟨artifacts, commit, committed, -, done, rfl, -⟩ := completeRotation_eq_ok_iff.mp rotated
  have same : committed.disk.deviceSet = vault.disk.deviceSet := by
    rw [← commitVdkRotation_deviceSet vault commit, done]
  simp only [same]

/-- A fresh step keeps every owed signer tracked. -/
theorem DeviceWorld.Tracked.step {op : DeviceOp} (tracked : world.Tracked)
    (fresh : world.Fresh op) : (world.step scheme hash op).Tracked := by
  rw [tracked_iff] at tracked ⊢
  cases op with
  | added signer => exact tracked
  | removed signer known observedEpoch nowMs =>
      obtain ⟨listed, fits, unresolved⟩ := fresh
      obtain ⟨rows, queued, processed⟩ := processDeviceRemovedTrigger_ok
        (world.onchain.filter fun other => other ≠ signer) nowMs world.rows known fits
      have rows' : (world.step scheme hash (.removed signer known observedEpoch nowMs)).rows =
          rows := by
        simp only [DeviceWorld.step, processed]
        rfl
      rw [rows']
      intro other owed
      apply outstanding_trigger processed
      by_cases before : other ∈ world.owed
      · exact .inl (tracked other before)
      · -- the only new debt is the removed signer's
        have removed : other = signer := by
          simp only [DeviceWorld.step] at owed
          split at owed
          · rcases List.mem_append.mp owed with old | new
            · exact absurd old before
            · exact List.mem_singleton.mp new
          · exact absurd owed before
        subst removed
        by_cases known : Outstanding world.rows other
        · exact .inl known
        · refine .inr ⟨listed, by simp, ?_⟩
          intro row member same
          exact known ⟨row, member, same, unresolved row member same⟩
  | rotate password draw =>
      simp only [DeviceWorld.step]
      split
      · next vault' error rotated =>
          have rows : { world with vault := vault' }.rows = world.rows := by
            simp only [DeviceWorld.rows, (completeRotation_error rotated).1]
          intro signer owed
          rw [rows]
          exact tracked signer owed
      · next vault' outcome rotated =>
          intro signer owed
          obtain ⟨before, member⟩ := List.mem_filter.mp owed
          simp only [DeviceWorld.rows, completeRotation_rows rotated]
          exact outstanding_resolvePending (tracked signer before) (by simpa using member)
  | call op apart =>
      intro signer owed
      have rows : (world.step scheme hash (.call op apart)).rows = world.rows :=
        step_rotationPending scheme hash world.vault apart
      rw [rows]
      exact tracked signer owed

end

/-! ## Runs -/

/-- A new vault in front of any device set; nothing is owed yet. -/
def DeviceWorld.initial (password : Password) (draw : CreateDraw) (onchain : List EvmAddress) :
    DeviceWorld :=
  ⟨create password draw, onchain, []⟩

/-- As long as no removal is of a signer whose earlier removal a rotation has resolved,
every signer that owes a rotation is read back as pending, in every state of the run. -/
theorem removals_stay_pending {scheme : ShareScheme} {hash : CanonicalHash}
    {password : Password} {draw : CreateDraw} {onchain : List EvmAddress} {world : DeviceWorld}
    (run : Reaches (DeviceWorld.step scheme hash) DeviceWorld.Fresh
      (.initial password draw onchain) world) : world.Tracked := by
  apply run.invariant DeviceWorld.Tracked
  · intro state op tracked fresh
    exact tracked.step fresh
  · intro signer owed
    cases owed

namespace Sample

/-- Signer 42 is removed and rotated away. -/
def rotatedAway : List DeviceOp :=
  [.call (unlock ⟨[1]⟩) id, .call onboard id, .call directory id,
    .removed ⟨42⟩ [⟨41⟩, ⟨42⟩] 0 0, .rotate ⟨[1]⟩ ⟨⟨50⟩, ⟨60⟩, ⟨⟨6⟩, 0⟩⟩]

def deviceWorld (ops : List DeviceOp) : DeviceWorld :=
  ops.foldl (DeviceWorld.step countingScheme hash)
    (.initial ⟨[1]⟩ ⟨⟨7⟩, ⟨1⟩, ⟨2⟩, ⟨3⟩, 0⟩ [⟨41⟩, ⟨42⟩, ⟨43⟩])

end Sample

/-- Signer 43 is removed after the rotation: it owes one and is pending. -/
theorem removals_stay_pending_second :
    (Sample.deviceWorld (Sample.rotatedAway ++ [.removed ⟨43⟩ [⟨43⟩] 1 0])).owed = [⟨43⟩] ∧
      (Sample.deviceWorld (Sample.rotatedAway ++ [.removed ⟨43⟩ [⟨43⟩] 1 0])).Tracked := by
  refine ⟨by decide +kernel, ?_⟩
  apply removals_stay_pending
  apply Reaches.foldl
  exact ⟨trivial, trivial, trivial, by decide +kernel, trivial, by decide +kernel, trivial⟩

/-- Signer 42 is removed, rotated away, added again and removed again: the second removal
owes a rotation that nothing reports. -/
theorem second_removal_forgotten :
    ¬ ∀ ops : List DeviceOp, (Sample.deviceWorld ops).Tracked := by
  intro always
  have tracked := always (Sample.rotatedAway ++ [.added ⟨42⟩, .removed ⟨42⟩ [⟨42⟩] 1 0])
  have owed : ⟨42⟩ ∈ (Sample.deviceWorld (Sample.rotatedAway ++
      [.added ⟨42⟩, .removed ⟨42⟩ [⟨42⟩] 1 0])).owed := by decide +kernel
  obtain ⟨row, member, -⟩ := tracked ⟨42⟩ owed
  have none : readPendingRotations (Sample.deviceWorld (Sample.rotatedAway ++
      [.added ⟨42⟩, .removed ⟨42⟩ [⟨42⟩] 1 0])).rows = [] := by decide +kernel
  rw [none] at member
  cases member

end Pangolin
