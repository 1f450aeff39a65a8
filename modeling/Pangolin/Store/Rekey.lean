import Pangolin.Store.Accounts

/-!
# Re-keying calls

Three calls replace the VDK the meta row wraps: recovery (with and without an escrow
re-split), rotation, and installing a paired VDK.  Each draws a fresh salt and leaves
the vault locked.  They differ in which of the other VDK-sealed rows they re-seal.

The escrow calls around them are here too: onboarding, the parameters a rotation
reads, backups, and the recovery-recipient rows.
-/

namespace Pangolin.Store

open Crypto

/-- The handle after a re-key: new meta row in memory, no session. -/
def lockedWith (vault : Vault) (disk : Disk) : Vault :=
  { vault with
    disk
    vaultMeta := disk.keys.vaultMeta
    session := .locked
    active := none }

/-! ## Recovery -/

/-- `build_recovery_meta`: the recovered VDK under the new password, same vault. -/
def buildRecoveryMeta (vault : Vault) (recovered : VdkKey) (password : Password)
    (salt : KdfSalt) : VaultMeta :=
  freshMeta vault.vaultMeta.vaultId vault.vaultMeta.createdAt recovered password salt

/-- `recover_with_new_password`. -/
def recoverWithNewPassword (vault : Vault) (recovered : VdkKey) (password : Password)
    (salt : KdfSalt) : Call Unit :=
  let vaultMeta := buildRecoveryMeta vault recovered password salt
  (lockedWith vault { vault.disk with keys := writeMeta vault.disk.keys vaultMeta }, .ok ())

/-- `commit_recovery_rekey`: the meta row and the re-split escrow in one
transaction. -/
def commitRecoveryRekey (vault : Vault) (recovered : VdkKey) (password : Password)
    (salt : KdfSalt) (reSplit : EscrowGeneration) : Call Unit :=
  atomically vault do
    let escrow ← writeRecoveryEscrow vault.vaultMeta.vaultId recovered reSplit
    let vaultMeta := buildRecoveryMeta vault recovered password salt
    return (lockedWith vault { vault.disk with
      keys := writeMeta vault.disk.keys vaultMeta
      escrow }, ())

/-- The file after a recovery. -/
def recoveredDisk (vault : Vault) (recovered : VdkKey) (password : Password) (salt : KdfSalt)
    (escrow : EscrowTables) : Disk :=
  let vaultMeta := buildRecoveryMeta vault recovered password salt
  { vault.disk with keys := writeMeta vault.disk.keys vaultMeta, escrow }

/-- A recovery re-key fails without a trace or replaces the meta row and the escrow. -/
theorem commitRecoveryRekey_cases (vault : Vault) (recovered : VdkKey) (password : Password)
    (salt : KdfSalt) (reSplit : EscrowGeneration) :
    (∃ error, commitRecoveryRekey vault recovered password salt reSplit =
        (vault, .error error)) ∨
      ∃ escrow, writeRecoveryEscrow vault.vaultMeta.vaultId recovered reSplit = .ok escrow ∧
        commitRecoveryRekey vault recovered password salt reSplit =
          (lockedWith vault (recoveredDisk vault recovered password salt escrow), .ok ()) := by
  unfold commitRecoveryRekey atomically
  cases writeRecoveryEscrow vault.vaultMeta.vaultId recovered reSplit with
  | error error => exact .inl ⟨error, rfl⟩
  | ok escrow => exact .inr ⟨escrow, rfl, rfl⟩

/-! ## Rotation -/

/-- What a rotation commits. -/
structure RotationCommit where
  newVdk : VdkKey
  password : Password
  salt : KdfSalt
  newEpoch : Nat
  reSplit : EscrowGeneration
  deriving Repr, DecidableEq

/-- The four writes of the rotation transaction: the meta row, the demoted epoch with
the advanced pointer, the re-pointed escrow, the re-sealed device seed. -/
def rotationTx (disk : Disk) (vaultMeta : VaultMeta) (oldVdk : VdkKey)
    (localDevice : DeviceKey) (commit : RotationCommit) : Except StoreError Disk := do
  let vaultId := vaultMeta.vaultId
  let authority : AuthorityKey := ⟨commit.password, commit.salt, .recommended⟩
  let newMeta := freshMeta vaultId vaultMeta.createdAt commit.newVdk commit.password commit.salt
  let keys ← appendRetainedAndAdvance (writeMeta disk.keys newMeta)
    (readCurrentEpoch disk.keys) (oldVdk.wrap authority (.new vaultId))
    (WrapContext.new vaultId).schemaVersion
    (wrapVdkForDevice oldVdk localDevice (.new vaultId)) commit.newEpoch
  let escrow ← writeRecoveryEscrow vaultId commit.newVdk commit.reSplit
  return { disk with
    keys := resealDeviceKey keys vaultId commit.newVdk localDevice
    escrow }

/-- The key tables a rotation leaves behind. -/
def rotatedKeys (keys : KeyTables) (vaultMeta : VaultMeta) (oldVdk : VdkKey)
    (localDevice : DeviceKey) (commit : RotationCommit) : KeyTables :=
  let vaultId := vaultMeta.vaultId
  let retained : RetainedEpoch :=
    { epoch := readCurrentEpoch keys
      anchor := oldVdk.wrap ⟨commit.password, commit.salt, .recommended⟩ (.new vaultId)
      anchorWrapSchema := (WrapContext.new vaultId).schemaVersion
      deviceWrapped := wrapVdkForDevice oldVdk localDevice (.new vaultId) }
  let newMeta := freshMeta vaultId vaultMeta.createdAt commit.newVdk commit.password commit.salt
  resealDeviceKey
    { writeMeta keys newMeta with
      vdkChain := Table.upsert RetainedEpoch.epoch keys.vdkChain retained
      vdkChainState := some commit.newEpoch }
    vaultId commit.newVdk localDevice

/-- The transaction goes through exactly when the epochs fit their columns and the
escrow can be written. -/
theorem rotationTx_eq_ok_iff {disk disk' : Disk} {vaultMeta : VaultMeta} {oldVdk : VdkKey}
    {localDevice : DeviceKey} {commit : RotationCommit} :
    rotationTx disk vaultMeta oldVdk localDevice commit = .ok disk' ↔
      fitsI64 (readCurrentEpoch disk.keys) = true ∧ fitsI64 commit.newEpoch = true ∧
        ∃ escrow, writeRecoveryEscrow vaultMeta.vaultId commit.newVdk commit.reSplit =
            .ok escrow ∧
          disk' = { disk with
            keys := rotatedKeys disk.keys vaultMeta oldVdk localDevice commit
            escrow } := by
  unfold rotationTx
  simp only [Fallible.bind_eq_ok_iff, appendRetainedAndAdvance]
  by_cases oldFits : fitsI64 (readCurrentEpoch disk.keys) = true
  · by_cases newFits : fitsI64 commit.newEpoch = true
    · constructor
      · rintro ⟨keys, appended, escrow, written, equal⟩
        simp only [oldFits, newFits, not_true_eq_false, if_false] at appended
        obtain rfl := Except.ok.inj appended
        exact ⟨oldFits, newFits, escrow, written, (Except.ok.inj equal).symm⟩
      · rintro ⟨-, -, escrow, written, rfl⟩
        refine ⟨_, ?_, escrow, written, rfl⟩
        simp only [oldFits, newFits, not_true_eq_false, if_false]
    · simp [oldFits, newFits]
  · simp [oldFits]

/-- `commit_vdk_rotation`, given the VDK it demotes and the local device. -/
def commitVdkRotation (vault : Vault) (oldVdk : VdkKey) (localDevice : DeviceKey)
    (commit : RotationCommit) : Call Unit :=
  atomically vault do
    let disk ← rotationTx vault.disk vault.vaultMeta oldVdk localDevice commit
    return (lockedWith vault disk, ())

/-- `commit_vdk_rotation_from_active`: the session is taken before the commit, so a
failed commit loses it while the file stays as it was. -/
def commitVdkRotationFromActive (vault : Vault) (commit : RotationCommit) : Call Unit :=
  match vault.active with
  | none => (vault, .error .notUnlocked)
  | some active =>
      match rotationTx vault.disk vault.vaultMeta active.vdk active.deviceKey commit with
      | .error error => ({ vault with active := none }, .error error)
      | .ok disk => (lockedWith vault disk, .ok ())

/-- A rotation commits exactly in a session whose transaction goes through. -/
theorem commitVdkRotationFromActive_eq_ok_iff {vault vault' : Vault} {commit : RotationCommit} :
    commitVdkRotationFromActive vault commit = (vault', .ok ()) ↔
      ∃ active disk, vault.active = some active ∧
        rotationTx vault.disk vault.vaultMeta active.vdk active.deviceKey commit = .ok disk ∧
        vault' = lockedWith vault disk := by
  unfold commitVdkRotationFromActive
  cases session : vault.active with
  | none => simp
  | some active =>
      cases committed :
          rotationTx vault.disk vault.vaultMeta active.vdk active.deviceKey commit with
      | error error => simp [committed]
      | ok disk => simp [committed, eq_comm]

/-- A refused rotation leaves the file alone. -/
theorem commitVdkRotationFromActive_error {vault vault' : Vault} {commit : RotationCommit}
    {error : StoreError}
    (refused : commitVdkRotationFromActive vault commit = (vault', .error error)) :
    vault' = vault ∨ vault' = { vault with active := none } := by
  unfold commitVdkRotationFromActive at refused
  split at refused
  · exact .inl (Prod.mk.inj refused).1.symm
  · split at refused
    · exact .inr (Prod.mk.inj refused).1.symm
    · cases (Prod.mk.inj refused).2

/-! ## Installing a paired VDK -/

/-- `install_paired_vdk`: adopt another device's VDK and vault id. -/
def installPairedVdk (vault : Vault) (received : VdkKey) (vaultId : VaultId)
    (password : Password) (salt : KdfSalt) : Call Unit :=
  withActive vault fun active =>
    let vaultMeta := freshMeta vaultId vault.vaultMeta.createdAt received password salt
    let keys := resealDeviceKey (writeMeta vault.disk.keys vaultMeta) vaultId received
      active.deviceKey
    .ok ({ lockedWith vault { vault.disk with keys } with
      deviceId := active.deviceKey.deviceId }, ())

/-! ## Guardian escrow -/

/-- The generation an onboarding writes. -/
def EscrowGeneration.ofOnboarding (onboarding : EscrowOnboarding) (threshold guardianCount : Nat)
    (epoch : Nat) (signers : List EvmAddress) : EscrowGeneration :=
  ⟨onboarding.wrappedRecovery, threshold, guardianCount, epoch,
    guardianRecords onboarding.assignments signers⟩

/-- `onboard_guardians`: always at the genesis epoch 0, also when re-onboarding. -/
def onboardGuardians (scheme : ShareScheme) (vault : Vault) (threshold : Nat)
    (pubs : List X25519Pub) (signers : List EvmAddress) (draw : EscrowDraw) : Call Nat :=
  if pubs.length ≠ signers.length then
    (vault, .error (.corrupted
      "onboard_guardians: guardian_x25519_pubs.len() ≠ guardian_signers.len()"))
  else
    withActive vault fun active =>
      if 255 < pubs.length then
        .error (.corrupted "guardian count overflows u8")
      else
        match onboardEscrow scheme active.vdk vault.vaultMeta.vaultId threshold pubs.length
            pubs 0 draw with
        | none => .error .authenticationFailed
        | some onboarding => do
            let escrow ← writeRecoveryEscrow vault.vaultMeta.vaultId active.vdk
              (.ofOnboarding onboarding threshold pubs.length 0 signers)
            return ({ vault with disk := { vault.disk with escrow } }, 0)

/-- Onboarding leaves the vault alone or writes a generation of the session's VDK at
epoch 0. -/
theorem onboardGuardians_cases (scheme : ShareScheme) (vault : Vault) (threshold : Nat)
    (pubs : List X25519Pub) (signers : List EvmAddress) (draw : EscrowDraw) :
    (onboardGuardians scheme vault threshold pubs signers draw).1 = vault ∨
      ∃ active onboarding escrow, vault.active = some active ∧
        onboardEscrow scheme active.vdk vault.vaultMeta.vaultId threshold pubs.length pubs 0
          draw = some onboarding ∧
        writeRecoveryEscrow vault.vaultMeta.vaultId active.vdk
          (.ofOnboarding onboarding threshold pubs.length 0 signers) = .ok escrow ∧
        (onboardGuardians scheme vault threshold pubs signers draw).1 =
          { vault with disk := { vault.disk with escrow } } := by
  unfold onboardGuardians
  split
  · exact .inl rfl
  · rcases withActive_cases vault _ with
      ⟨error, failed⟩ | ⟨active, vault', epoch, session, done, result⟩
    · rw [failed]
      exact .inl rfl
    · rw [result]
      simp only at done
      split at done
      · cases done
      · split at done
        · cases done
        · next onboarding onboarded =>
            obtain ⟨escrow, written, equal⟩ := Fallible.bind_eq_ok_iff.mp done
            obtain ⟨rfl, -⟩ := Prod.mk.inj (Except.ok.inj equal)
            exact .inr ⟨active, onboarding, escrow, session, onboarded, written, rfl⟩

structure RecoveryEscrowParams where
  threshold : Nat
  guardianCount : Nat
  guardianPubs : List X25519Pub
  guardianSigners : List EvmAddress
  currentEpoch : Nat
  deriving Repr, DecidableEq

/-- `recovery_escrow_params`: the epoch reported is the VDK chain's, not the escrow
row's. -/
def recoveryEscrowParams (vault : Vault) :
    Except StoreError (Option RecoveryEscrowParams) :=
  match vault.active with
  | none => .error .notUnlocked
  | some active => do
      let stored ← readRecoveryEscrow vault.disk.escrow vault.vaultMeta.vaultId active.vdk
      return stored.map fun escrow =>
        ⟨escrow.threshold, escrow.guardianCount, escrow.guardians.map StoredGuardian.guardianPub,
          escrow.guardians.map StoredGuardian.signer, readCurrentEpoch vault.disk.keys⟩

/-- The plaintext of a recovery backup. -/
structure BackupContents where
  wrappedRecovery : WrappedVdkRecovery
  wrapSchemaVersion : Nat
  vaultId : VaultId
  epoch : Nat
  threshold : Nat
  guardianCount : Nat
  guardianPubs : List X25519Pub
  sealedShares : List SealedBox
  guardianEvmAddrs : List EvmAddress
  deriving Repr, DecidableEq

/-- `create_recovery_backup`, up to the seal under the seed phrase. -/
def createRecoveryBackup (vault : Vault) : Except StoreError (Option BackupContents) :=
  match vault.active with
  | none => .error .notUnlocked
  | some active => do
      let stored ← readRecoveryEscrow vault.disk.escrow vault.vaultMeta.vaultId active.vdk
      return stored.map fun escrow =>
        { wrappedRecovery := escrow.wrappedRecovery
          wrapSchemaVersion := escrow.wrapContext.schemaVersion
          vaultId := vault.vaultMeta.vaultId
          epoch := readCurrentEpoch vault.disk.keys
          threshold := escrow.threshold
          guardianCount := escrow.guardianCount
          guardianPubs := escrow.guardians.map StoredGuardian.guardianPub
          sealedShares := escrow.guardians.map StoredGuardian.sealedShare
          guardianEvmAddrs := escrow.guardians.map StoredGuardian.signer }

/-- `guardian_open_sealed_share`, on the guardian's own unlocked vault. -/
def guardianOpenSealedShare (guardian : Vault) (sealedShare : SealedBox) (vaultId : VaultId)
    (epoch : Nat) : Except StoreError Share :=
  match guardian.active with
  | none => .error .notUnlocked
  | some active =>
      match openSealedShare sealedShare active.deviceKey.sealing vaultId epoch with
      | none => .error .authenticationFailed
      | some share => .ok share

/-! ## Recovery recipients -/

/-- `persist_recovery_recipient`. -/
def persistRecoveryRecipient (vault : Vault) (target : VaultId) (attemptNonce : Nat)
    (secret : X25519Secret) (pub : X25519Pub) (nowUnix : Int) : Call Unit :=
  withActive vault fun active => do
    let recipients ← writeRecipient vault.disk.recipients active.vdk target attemptNonce
      secret pub nowUnix
    return ({ vault with disk := { vault.disk with recipients } }, ())

/-- `peek_recovery_recipient_secret`. -/
def peekRecoveryRecipientSecret (vault : Vault) (target : VaultId) :
    Except StoreError (Option (Nat × X25519Secret × X25519Pub)) :=
  match vault.active with
  | none => .error .notUnlocked
  | some active => peekRecipientSecret vault.disk.recipients active.vdk target

/-- `clear_recovery_recipient`. -/
def clearRecoveryRecipient (vault : Vault) (target : VaultId) : Call Unit :=
  ({ vault with disk := { vault.disk with
      recipients := clearRecipient vault.disk.recipients target } }, .ok ())

/-! ## Stashed merges -/

/-- `maybe_expire_active_session`: the soft check of the metadata-only calls. -/
def maybeExpireActiveSession (vault : Vault) (now : Nat) : Vault :=
  match vault.session with
  | .active expiresAt _ _ =>
      if expiresAt < now then { vault with active := none, session := .expired } else vault
  | _ => vault

@[simp] theorem maybeExpireActiveSession_disk (vault : Vault) (now : Nat) :
    (maybeExpireActiveSession vault now).disk = vault.disk := by
  unfold maybeExpireActiveSession
  split
  · split <;> rfl
  · rfl

/-- `stash_pending_merge`: the caller hands in an already sealed merge revision. -/
def stashPendingMerge (vault : Vault) (merge : PendingMergeRow) (now : Nat) : Call Unit :=
  let vault := maybeExpireActiveSession vault now
  let log := { vault.disk.log with
    pendingMerges := Table.upsert (fun row => (row.accountId, row.targetHeadId))
      vault.disk.log.pendingMerges merge }
  (touchSession { vault with disk := { vault.disk with log } } now, .ok ())

end Pangolin.Store
