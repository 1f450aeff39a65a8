import Pangolin.Runs.ReadPaths
import Pangolin.Runs.Backups

/-!
# Sealed rows across rotations

A rotation re-seals the device seed, keeps the old VDK in the chain for whatever stays
sealed under it, and replaces the escrow by a re-split of the new VDK among the same
guardians.  So a session after any number of rotations holds every key an earlier
session held; the device seed and the stashed merges still open to what they opened to,
and the escrow, whose contents are new by design, still reads back with its roster.

A recovery-recipient row also stays within reach of the session's keys, but the one call
that reads it tries the current VDK only.
-/

namespace Pangolin

open Symbolic Crypto Store Pangolin.Core Transition

/-- Rotations and what a session needs around them. -/
def IsRotationCall (_ : Vault) : Op → Prop
  | .completeRotation .. | .unlock _ | .lock | .reopen _ _ | .upsertDirectory _
  | .queueRotationPending _ => True
  | _ => False

/-- Two escrows with the same guardians in the same slots. -/
structure SameRoster (before after : StoredRecoveryEscrow) : Prop where
  threshold : after.threshold = before.threshold
  guardianCount : after.guardianCount = before.guardianCount
  guardianPubs : after.guardians.map StoredGuardian.guardianPub =
    before.guardians.map StoredGuardian.guardianPub
  signers : after.guardians.map StoredGuardian.signer =
    before.guardians.map StoredGuardian.signer

theorem SameRoster.refl (stored : StoredRecoveryEscrow) : SameRoster stored stored :=
  ⟨rfl, rfl, rfl, rfl⟩

theorem SameRoster.trans {first second third : StoredRecoveryEscrow}
    (before : SameRoster first second) (after : SameRoster second third) :
    SameRoster first third :=
  ⟨after.threshold.trans before.threshold, after.guardianCount.trans before.guardianCount,
    after.guardianPubs.trans before.guardianPubs, after.signers.trans before.signers⟩

/-- The escrow of a file as the current VDK reads it. -/
def escrowOf (vault : Vault) : Except StoreError (Option StoredRecoveryEscrow) :=
  readRecoveryEscrow vault.disk.escrow vault.vaultMeta.vaultId
    vault.disk.keys.vaultMeta.wrapped.msg

/-- The escrow a file still has after rotations: the one it had, or a re-split of the
current VDK among the same guardians. -/
def EscrowKept (start vault : Vault) : Prop :=
  ∀ stored, escrowOf start = .ok (some stored) →
    ∃ stored', escrowOf vault = .ok (some stored') ∧ SameRoster stored stored' ∧
      (stored' = stored ∨
        stored'.wrappedRecovery.msg = vault.disk.keys.vaultMeta.wrapped.msg ∧
          stored'.wrappedRecovery.context = .new vault.vaultMeta.vaultId)

/-- What rotations keep of a file. -/
structure Kept (start vault : Vault) : Prop where
  vaultId : vault.vaultMeta.vaultId = start.vaultMeta.vaultId
  keyring : ∀ epoch key, keyring start.disk.keys epoch = some key →
    keyring vault.disk.keys epoch = some key
  device : ∀ key, start.disk.keys.deviceKey.map Sealed.msg = some key →
    vault.disk.keys.deviceKey.map Sealed.msg = some key
  pendingMerges : vault.disk.log.pendingMerges = start.disk.log.pendingMerges
  recipients : vault.disk.recipients = start.disk.recipients
  escrow : EscrowKept start vault

theorem Kept.refl (vault : Vault) : Kept vault vault where
  vaultId := rfl
  keyring := fun _ _ held => held
  device := fun _ held => held
  pendingMerges := rfl
  recipients := rfl
  escrow := fun stored read => ⟨stored, read, .refl stored, .inl rfl⟩

/-! ## One call -/

/-- A call that leaves the other sealed tables alone and moves no key. -/
theorem Kept.same {start vault vault' : Vault} (kept : Kept start vault)
    (sameId : vault'.vaultMeta.vaultId = vault.vaultMeta.vaultId) (same : SameKeys vault vault')
    (device : ∀ key, vault.disk.keys.deviceKey.map Sealed.msg = some key →
      vault'.disk.keys.deviceKey.map Sealed.msg = some key)
    (pendingMerges : vault'.disk.log.pendingMerges = vault.disk.log.pendingMerges)
    (recipients : vault'.disk.recipients = vault.disk.recipients)
    (escrow : vault'.disk.escrow = vault.disk.escrow) : Kept start vault' := by
  constructor
  · exact sameId.trans kept.vaultId
  · rw [same.keyring]
    exact kept.keyring
  · intro key held
    exact device key (kept.device key held)
  · exact pendingMerges.trans kept.pendingMerges
  · exact recipients.trans kept.recipients
  · intro stored read
    have unread : escrowOf vault' = escrowOf vault := by
      unfold escrowOf
      rw [escrow, sameId, same.vaultMeta]
    rw [unread, same.vaultMeta, sameId]
    exact kept.escrow stored read

/-- An unlock opens the registered seed and writes no other. -/
theorem unlock_keeps_device {vault : Vault} (inv : KeyInv vault) (input : UnlockInput)
    (key : DeviceKey) (held : vault.disk.keys.deviceKey.map Sealed.msg = some key) :
    (unlock vault input).1.disk.keys.deviceKey.map Sealed.msg = some key := by
  cases unlocked : unlock vault input with
  | mk vault' result =>
      cases result with
      | error error =>
          rw [unlock_error unlocked]
          exact held
      | ok value =>
          obtain ⟨vdk, chain, data, deviceKey, keys, found⟩ := unlock_eq_ok_iff.mp unlocked
          obtain ⟨-, -, -, -, -, same⟩ := loadOrRegisterDevice_eq_ok found.device
          obtain rfl := found.result
          cases same with
          | inl same =>
              rw [← held]
              exact congrArg _ same
          | inr none =>
              cases inv.devices with
              | unregistered devices deviceKey =>
                  rw [deviceKey] at held
                  cases held
              | registered key row devices sameId address deviceKey =>
                  rw [none] at devices
                  cases devices

/-- What a committed rotation keeps. -/
theorem Kept.rotated {scheme : ShareScheme} {start vault vault' : Vault} {password : Password}
    {onchain : List EvmAddress} {draw : RotationDraw} {outcome : RotationOutcome}
    (inv : RotatingInv vault) (kept : Kept start vault)
    (rotated : completeRotation scheme vault password onchain draw = (vault', .ok outcome)) :
    Kept start vault' := by
  obtain ⟨artifacts, commit, committed, planned, done, rfl, -⟩ :=
    completeRotation_eq_ok_iff.mp rotated
  obtain ⟨params, reSplit, read, -, onboarded, -, rfl⟩ := planRotation_eq_ok planned
  obtain ⟨active, disk, session, transacted, rfl⟩ :=
    commitVdkRotationFromActive_eq_ok_iff.mp done
  obtain ⟨-, fits, escrow, written, rfl⟩ := rotationTx_eq_ok_iff.mp transacted
  have held := inv.keys.session active session
  constructor
  · rw [← kept.vaultId]
    simp [lockedWith, rotatedKeys, freshMeta]
  · intro epoch key available
    have known := kept.keyring epoch key available
    have past := inv.epoch_le known
    simp only [lockedWith, keyring_rotatedKeys held.vdk]
    rw [if_neg]
    · exact known
    · rw [nextEpoch_of_fits fits, recoveryEscrowParams_currentEpoch read]
      omega
  · intro key stored
    have same := kept.device key stored
    rw [held.deviceKey] at same
    obtain rfl := Option.some.inj same
    simp [lockedWith, rotatedKeys, resealDeviceKey, held.deviceKey, sealDeviceKey]
  · exact kept.pendingMerges
  · exact kept.recipients
  · intro stored opened
    obtain ⟨stored', reread, roster, -⟩ := kept.escrow stored opened
    simp only [recoveryEscrowParams, session] at read
    rw [escrowOf, ← held.vdk] at reread
    rw [reread] at read
    obtain rfl := Option.some.inj (Except.ok.inj read)
    have nonzero : ∀ signer ∈ stored'.guardians.map StoredGuardian.signer, signer ≠ ⟨0⟩ := by
      intro signer member
      obtain ⟨guardian, listed, rfl⟩ := List.mem_map.mp member
      exact storedSigner_ne_zero reread listed
    obtain ⟨again, readAgain, wrapped, threshold, guardianCount, pubs, signers⟩ :=
      readRecoveryEscrow_reSplit onboarded written (by simp) nonzero
    refine ⟨again, ?_, roster.trans ⟨threshold, guardianCount, pubs, signers⟩, .inr ?_⟩
    · simpa [escrowOf, lockedWith, rotatedKeys, freshMeta, VdkKey.wrap] using readAgain
    · rw [wrapped]
      simp [lockedWith, rotatedKeys, freshMeta, VdkKey.wrap, wrapVdkUnderRwk]

theorem Kept.step {scheme : ShareScheme} {hash : CanonicalHash} {start vault : Vault} {op : Op}
    (inv : RotatingInv vault) (call : IsRotationCall vault op) (kept : Kept start vault) :
    Kept start (step scheme hash vault op) := by
  cases op with
  | completeRotation password onchain draw =>
      rw [Pangolin.step]
      cases rotated : completeRotation scheme vault password onchain draw with
      | mk vault' result =>
          cases result with
          | error error =>
              obtain ⟨disk, vaultMeta, -⟩ := completeRotation_error rotated
              apply kept.same
              · rw [vaultMeta]
              · exact .of_disk (by rw [disk]) (by rw [disk])
              · intro key held
                rw [disk]
                exact held
              · rw [disk]
              · rw [disk]
              · rw [disk]
          | ok outcome => exact kept.rotated inv rotated
  | unlock input =>
      obtain ⟨keys, written⟩ := unlock_disk vault input
      have ordinary : (Op.unlock input).Ordinary := trivial
      obtain ⟨inv', same⟩ := inv.keys.ordinary scheme hash ordinary
      apply kept.same
      · rw [inv'.metaSynced, same.vaultMeta, inv.keys.metaSynced]
      · exact same
      · exact unlock_keeps_device inv.keys input
      · rw [Pangolin.step, written]
      · rw [Pangolin.step, written]
      · rw [Pangolin.step, written]
  | lock => exact kept.same rfl (.of_disk rfl rfl) (fun _ held => held) rfl rfl rfl
  | reopen placeholder sessionIdle =>
      apply kept.same
      · rw [inv.keys.metaSynced]
        rfl
      · exact .of_disk rfl rfl
      · exact fun _ held => held
      · rfl
      · rfl
      · rfl
  | upsertDirectory entry =>
      exact kept.same rfl (.of_disk rfl rfl) (fun _ held => held) rfl rfl rfl
  | queueRotationPending pending =>
      exact kept.same rfl (.of_disk rfl rfl) (fun _ held => held) rfl rfl rfl
  | _ => exact absurd call id

end Pangolin
