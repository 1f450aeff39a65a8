import Pangolin.Store.Keyring
import Pangolin.System

/-!
# Unlocking after a recovery

`recover_from_shares` wraps the recovered VDK under the new password and stores a new
escrow.  It leaves the device seed, the recovery recipients and the retained anchors
sealed as they were.  Whether the recovered file opens is therefore decided by what the
file held before: the conditions are collected in `RecoverySafe`, and they are exact.
-/

namespace Pangolin.Core

open Symbolic Crypto Store

/-- The chain that unlock rebuilds from a file, once every retained anchor opens. -/
def storedChain (keys : KeyTables) : VdkChain :=
  ⟨(keys.vdkChain.filter fun row => row.epoch ≠ readCurrentEpoch keys).map
    fun row => (row.epoch, row.anchor.msg), readCurrentEpoch keys⟩

/-- What the file and the inputs of a recovery have to satisfy.  The recovered VDK is
the one inside the supplied blob. -/
structure RecoverySafe (vault : Vault) (input : RecoveryInput) : Prop where
  password : input.password.bytes ≠ []
  /-- No retained epoch is sealed under another authority. -/
  anchors : ∀ row ∈ vault.disk.keys.vdkChain, row.epoch ≠ readCurrentEpoch vault.disk.keys →
    row.OpensUnder vault.vaultMeta.vaultId ⟨input.password, input.salt, .recommended⟩
  /-- The live accounts decode under the recovered VDK and the retained ones. -/
  accounts : ∃ data, buildActiveStateData vault.disk.log vault.vaultMeta.vaultId
    input.wrappedRecovery.msg (storedChain vault.disk.keys) = .ok data
  /-- No device is registered, or its seed is sealed under the recovered VDK. -/
  device : SeedOpens vault.disk.keys vault.vaultMeta.vaultId input.wrappedRecovery.msg
  /-- So is every recovery recipient. -/
  recipients : ∀ target, ∃ found,
    peekRecipientSecret vault.disk.recipients input.wrappedRecovery.msg target = .ok found
  signers : ∀ signer ∈ input.roster.evmAddrs, signer ≠ ⟨0⟩

/-- The file reopens and unlocks to a session on the recovered VDK, under which the
device seed, every recovery recipient and the escrow open. -/
def OpensRecovered (disk : Disk) (placeholder : DeviceId) (sessionIdle : SessionDuration)
    (unlockInput : UnlockInput) (recovered : VdkKey) : Prop :=
  ∃ unlocked active, unlock (openVault disk placeholder sessionIdle) unlockInput =
      (unlocked, .ok ()) ∧
    unlocked.active = some active ∧ active.vdk = recovered ∧
    (∃ enc, unlocked.disk.keys.deviceKey = some enc ∧
      enc.open? active.vdk (unlocked.vaultMeta.vaultId, unlocked.deviceId) =
        some active.deviceKey) ∧
    (∀ target, ∃ found, peekRecoveryRecipientSecret unlocked target = .ok found) ∧
    ∃ stored, readRecoveryEscrow unlocked.disk.escrow unlocked.vaultMeta.vaultId active.vdk =
      .ok (some stored)

section

variable {scheme : ShareScheme} {vault vault' : Vault} {input : RecoveryInput} {epoch : Nat}

/-- The escrow a recovery stores, and whose signers it carries. -/
theorem recovered_escrow {reSplit : OnboardingArtifacts} {escrow : EscrowTables}
    (pubs : input.roster.x25519Pubs.length = input.roster.guardianCount)
    (addrs : input.roster.evmAddrs.length = input.roster.guardianCount)
    (onboarded : onboardGuardianEscrow scheme input.wrappedRecovery.msg input.vaultId
      ⟨input.roster.threshold, input.roster.guardianCount⟩ input.roster.x25519Pubs
      (nextEpoch input.currentEpoch) input.escrow = some reSplit)
    (written : writeRecoveryEscrow vault.vaultMeta.vaultId input.wrappedRecovery.msg
      (reSplit.generation input.roster.evmAddrs) = .ok escrow) :
    escrow = (reSplit.generation input.roster.evmAddrs).tables vault.vaultMeta.vaultId
        input.wrappedRecovery.msg ∧
      (reSplit.generation input.roster.evmAddrs).guardians.map GuardianRecord.signer =
        input.roster.evmAddrs := by
  have ordered := generation_numbered onboarded input.roster.evmAddrs
  obtain ⟨-, stored⟩ := (writeRecoveryEscrow_eq_ok_iff (ordered.imp ne_of_lt)).mp written
  refine ⟨stored, ?_⟩
  obtain ⟨shares, -, -, split, rfl⟩ := onboardGuardianEscrow_eq_some onboarded
  apply guardianRecords_map_signer
  rw [sealAssignments_map_index, List.length_zip, scheme.length_split split, pubs, addrs,
    Nat.min_self]

/-- The recovered escrow reads back exactly when the roster has no all-zero signer. -/
theorem readRecoveryEscrow_recovered_iff {reSplit : OnboardingArtifacts}
    {escrow : EscrowTables}
    (pubs : input.roster.x25519Pubs.length = input.roster.guardianCount)
    (addrs : input.roster.evmAddrs.length = input.roster.guardianCount)
    (onboarded : onboardGuardianEscrow scheme input.wrappedRecovery.msg input.vaultId
      ⟨input.roster.threshold, input.roster.guardianCount⟩ input.roster.x25519Pubs
      (nextEpoch input.currentEpoch) input.escrow = some reSplit)
    (written : writeRecoveryEscrow vault.vaultMeta.vaultId input.wrappedRecovery.msg
      (reSplit.generation input.roster.evmAddrs) = .ok escrow) :
    (∃ stored, readRecoveryEscrow escrow vault.vaultMeta.vaultId input.wrappedRecovery.msg =
        .ok (some stored)) ↔
      ∀ signer ∈ input.roster.evmAddrs, signer ≠ ⟨0⟩ := by
  obtain ⟨rfl, signers⟩ := recovered_escrow pubs addrs onboarded written
  constructor
  · rintro ⟨stored, read⟩ signer member
    rw [← signers] at member
    obtain ⟨record, recordMember, rfl⟩ := List.mem_map.mp member
    exact signer_ne_zero_of_read read (List.mem_map_of_mem recordMember)
  · intro nonzero
    refine ⟨_, readRecoveryEscrow_tables ?_ ?_⟩
    · exact (generation_numbered onboarded input.roster.evmAddrs).imp le_of_lt
    · intro record member
      apply nonzero
      rw [← signers]
      exact List.mem_map_of_mem member

end

/-- After a recovery that returned, closing, reopening and unlocking with the new
password yields a working session on the recovered VDK exactly when the file was safe
to recover into. -/
theorem recovery_opens_iff {scheme : ShareScheme} {vault vault' : Vault} {input : RecoveryInput}
    {epoch : Nat} (recovered : recoverFromShares scheme vault input = (vault', .ok epoch))
    (placeholder : DeviceId) (sessionIdle : SessionDuration) (generated : DeviceKey)
    (now : Nat) :
    OpensRecovered vault'.disk placeholder sessionIdle ⟨true, input.password, generated, now⟩
        input.wrappedRecovery.msg ↔
      RecoverySafe vault input := by
  obtain ⟨reSplit, escrow, pubs, addrs, onboarded, written, rfl⟩ :=
    recoverFromShares_eq_ok recovered
  have reads := readRecoveryEscrow_recovered_iff pubs addrs onboarded written
  constructor
  · rintro ⟨unlocked, active, opened, session, sameVdk, -, recipients, readable⟩
    obtain ⟨vdk, chain, data, deviceKey, keys, found⟩ := unlock_eq_ok_iff.mp opened
    obtain ⟨nonempty, -, -, -, msg, built⟩ := openKeys_eq_ok_iff.mp found.opened
    obtain ⟨anchors, chainIs⟩ := (buildOnUnlock_eq_ok_iff _ _).mp built
    obtain rfl : input.wrappedRecovery.msg = vdk := msg
    obtain rfl := found.result
    obtain rfl := Option.some.inj session
    constructor
    · exact nonempty
    · exact anchors
    · refine ⟨data, ?_⟩
      rw [← found.hydrated, chainIs]
      rfl
    · have seed := (loadOrRegisterDevice_succeeds_iff _ _ _ _ _).mp ⟨_, found.device⟩
      exact seed
    · exact recipients
    · exact reads.mp readable
  · intro safe
    obtain ⟨data, hydrated⟩ := safe.accounts
    have seed : SeedOpens (recoveredDisk vault input.wrappedRecovery.msg input.password
        input.salt escrow).keys vault.vaultMeta.vaultId input.wrappedRecovery.msg := safe.device
    obtain ⟨⟨deviceKey, keys⟩, device⟩ :=
      (loadOrRegisterDevice_succeeds_iff _ _ _ generated now).mpr seed
    obtain ⟨-, -, -, stored, -, -⟩ := loadOrRegisterDevice_eq_ok device
    have opens : openKeys (recoveredDisk vault input.wrappedRecovery.msg input.password
        input.salt escrow).keys (buildRecoveryMeta vault input.wrappedRecovery.msg
          input.password input.salt) input.password =
        .ok (input.wrappedRecovery.msg, storedChain vault.disk.keys) := by
      apply openKeys_eq_ok_iff.mpr
      refine ⟨safe.password, rfl, rfl, rfl, rfl, ?_⟩
      apply (buildOnUnlock_eq_ok_iff _ _).mpr
      exact ⟨safe.anchors, rfl⟩
    refine ⟨_, _, unlock_eq_ok_iff.mpr ⟨_, _, data, deviceKey, keys,
      ⟨rfl, opens, hydrated, device, rfl⟩⟩, rfl, rfl, ?_, safe.recipients, reads.mpr safe.signers⟩
    exact ⟨_, stored, Sealed.open?_self _⟩

/-! ## Recovering on a device in use -/

/-- A recovery of VDK 50 of vault 70 from two of its three shares. -/
def sampleRecovery : RecoveryInput where
  wrappedRecovery := ⟨⟨5⟩, .new ⟨70⟩, ⟨50⟩⟩
  wrapContext := .new ⟨70⟩
  openedShares := [⟨(5 * 256 + 0) * 256 + 2⟩, ⟨(5 * 256 + 2) * 256 + 2⟩]
  roster := ⟨2, 3, [⟨21⟩, ⟨22⟩, ⟨23⟩], [⟨31⟩, ⟨32⟩, ⟨33⟩]⟩
  password := ⟨[2]⟩
  currentEpoch := 0
  vaultId := ⟨70⟩
  salt := ⟨4⟩
  escrow := ⟨⟨6⟩, 0⟩

/-- Into a freshly created file the recovery opens. -/
theorem recovery_opens_fresh :
    OpensRecovered (recoverFromShares countingScheme Sample.vault sampleRecovery).1.disk ⟨0⟩
      .min15 ⟨true, ⟨[2]⟩, Sample.device, 0⟩ ⟨50⟩ := by
  have recovered : recoverFromShares countingScheme Sample.vault sampleRecovery =
      ((recoverFromShares countingScheme Sample.vault sampleRecovery).1, .ok 1) := by decide
  apply (recovery_opens_iff recovered ⟨0⟩ .min15 Sample.device 0).mpr
  constructor
  · decide
  · decide
  · exact ⟨_, rfl⟩
  · exact .inl rfl
  · intro target
    exact ⟨none, rfl⟩
  · decide

/-- Into a file that was unlocked once it returns as well, and the file never opens
again: the device seed is still sealed under the old VDK. -/
theorem recovery_after_unlock_locks_out :
    let used := Sample.run Sample.vault [Sample.unlock ⟨[1]⟩]
    let recovered := recoverFromShares countingScheme used sampleRecovery
    recovered.2 = .ok 1 ∧
      (unlock (openVault recovered.1.disk ⟨0⟩ .min15) (Sample.unlockInput ⟨[2]⟩)).2 =
        .error .authenticationFailed := by
  decide

end Pangolin.Core
