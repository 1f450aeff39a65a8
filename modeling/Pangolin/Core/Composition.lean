import Pangolin.Store.Rekey

/-!
# Rotation and recovery as the core composes them

`complete_rotation` resolves the surviving devices, mints a VDK for the next epoch,
seals it to each survivor, re-splits the escrow and commits.  `recover_from_shares`
recombines guardian shares, re-splits at the next epoch after the one the host
supplies and commits the recovery.
-/

namespace Pangolin.Core

open Crypto Store

/-- `RecoveryEpoch::next`: saturating `u64` addition. -/
def nextEpoch (epoch : Nat) : Nat := min (epoch + 1) (2 ^ 64 - 1)

/-- A next epoch that fits its column is the next number. -/
theorem nextEpoch_of_fits {epoch : Nat} (fits : fitsI64 (nextEpoch epoch) = true) :
    nextEpoch epoch = epoch + 1 := by
  have small : min (epoch + 1) (2 ^ 64 - 1) < 2 ^ 63 := of_decide_eq_true fits
  unfold nextEpoch
  omega

structure GuardianSetConfig where
  threshold : Nat
  guardianCount : Nat
  deriving Repr, DecidableEq

/-- `GuardianSetConfig::validate`; the contract's bounds. -/
def GuardianSetConfig.validate (config : GuardianSetConfig) : Bool :=
  decide (3 ≤ config.guardianCount ∧ config.guardianCount ≤ 15) &&
    decide (2 ≤ config.threshold ∧ config.threshold ≤ 9 ∧
      config.threshold ≤ config.guardianCount)

/-- The error classes of the composition layer. -/
inductive CompositionError where
  | store (error : StoreError)
  | noRecoveryEscrow
  | noSurvivors
  | escrowRePoint
  | recovery
  deriving Repr, DecidableEq

abbrev CoreCall (α : Type) := Vault × Except CompositionError α

structure OnboardingArtifacts where
  wrappedRecovery : WrappedVdkRecovery
  config : GuardianSetConfig
  epoch : Nat
  assignments : List EscrowAssignment
  deriving Repr, DecidableEq

/-- `onboard_guardian_escrow`. -/
def onboardGuardianEscrow (scheme : ShareScheme) (vdk : VdkKey) (vaultId : VaultId)
    (config : GuardianSetConfig) (pubs : List X25519Pub) (epoch : Nat) (draw : EscrowDraw) :
    Option OnboardingArtifacts :=
  if ¬ config.validate then
    none
  else if pubs.length ≠ config.guardianCount then
    none
  else do
    let onboarding ← onboardEscrow scheme vdk vaultId config.threshold config.guardianCount
      pubs epoch draw
    return ⟨onboarding.wrappedRecovery, config, epoch, onboarding.assignments⟩

/-- The generation a re-split hands to the store. -/
def OnboardingArtifacts.generation (artifacts : OnboardingArtifacts)
    (signers : List EvmAddress) : EscrowGeneration :=
  ⟨artifacts.wrappedRecovery, artifacts.config.threshold, artifacts.config.guardianCount,
    artifacts.epoch, guardianRecords artifacts.assignments signers⟩

/-- Everything a successful onboarding of a validated guardian set produced. -/
theorem onboardGuardianEscrow_eq_some {scheme : ShareScheme} {vdk : VdkKey}
    {vaultId : VaultId} {config : GuardianSetConfig} {pubs : List X25519Pub} {epoch : Nat}
    {draw : EscrowDraw} {artifacts : OnboardingArtifacts}
    (onboarded : onboardGuardianEscrow scheme vdk vaultId config pubs epoch draw =
      some artifacts) :
    ∃ shares, config.validate = true ∧ pubs.length = config.guardianCount ∧
      scheme.split config.threshold config.guardianCount draw.rwk draw.coins = some shares ∧
      artifacts = ⟨wrapVdkUnderRwk vdk draw.rwk (.new vaultId), config, epoch,
        sealAssignments vaultId epoch shares pubs⟩ := by
  unfold onboardGuardianEscrow at onboarded
  split at onboarded
  · cases onboarded
  · next valid =>
      split at onboarded
      · cases onboarded
      · next sameLength =>
          obtain ⟨onboarding, escrowed, equal⟩ := Option.bind_eq_some_iff.mp onboarded
          obtain ⟨shares, -, split, wrapped, assignments⟩ :=
            onboardEscrow_eq_some scheme escrowed
          refine ⟨shares, by simpa using valid, by simpa using sameLength, split, ?_⟩
          rw [← Option.some.inj equal, wrapped, assignments]

/-- The slots of a re-split are numbered in increasing order. -/
theorem generation_numbered {scheme : ShareScheme} {vdk : VdkKey} {vaultId : VaultId}
    {config : GuardianSetConfig} {pubs : List X25519Pub} {epoch : Nat} {draw : EscrowDraw}
    {artifacts : OnboardingArtifacts}
    (onboarded : onboardGuardianEscrow scheme vdk vaultId config pubs epoch draw =
      some artifacts) (signers : List EvmAddress) :
    ((artifacts.generation signers).guardians.map GuardianRecord.index).Pairwise (· < ·) := by
  obtain ⟨shares, -, -, -, rfl⟩ := onboardGuardianEscrow_eq_some onboarded
  simp only [OnboardingArtifacts.generation, guardianRecords_map_index,
    sealAssignments_map_index]
  exact List.pairwise_lt_range'

/-- A stored re-split reads back under its VDK: it wraps that VDK for the vault and names
the guardians it was made for. -/
theorem readRecoveryEscrow_reSplit {scheme : ShareScheme} {vdk : VdkKey} {vaultId : VaultId}
    {config : GuardianSetConfig} {pubs : List X25519Pub} {epoch : Nat} {draw : EscrowDraw}
    {artifacts : OnboardingArtifacts} {signers : List EvmAddress} {escrow : EscrowTables}
    (onboarded : onboardGuardianEscrow scheme vdk vaultId config pubs epoch draw =
      some artifacts)
    (written : writeRecoveryEscrow vaultId vdk (artifacts.generation signers) = .ok escrow)
    (sameCount : signers.length = pubs.length) (nonzero : ∀ signer ∈ signers, signer ≠ ⟨0⟩) :
    ∃ stored, readRecoveryEscrow escrow vaultId vdk = .ok (some stored) ∧
      stored.wrappedRecovery = wrapVdkUnderRwk vdk draw.rwk (.new vaultId) ∧
      stored.threshold = config.threshold ∧ stored.guardianCount = config.guardianCount ∧
      stored.guardians.map StoredGuardian.guardianPub = pubs ∧
      stored.guardians.map StoredGuardian.signer = signers := by
  have numbered := generation_numbered onboarded signers
  obtain ⟨-, rfl⟩ := (writeRecoveryEscrow_eq_ok_iff (numbered.imp ne_of_lt)).mp written
  obtain ⟨shares, -, pubCount, splits, rfl⟩ := onboardGuardianEscrow_eq_some onboarded
  have shareCount : shares.length = pubs.length := by
    rw [scheme.length_split splits, pubCount]
  have named : (guardianRecords (sealAssignments vaultId epoch shares pubs) signers).map
      GuardianRecord.signer = signers := by
    apply guardianRecords_map_signer
    rw [sealAssignments_map_index, List.length_zip, shareCount, sameCount, Nat.min_self]
  have signed : ∀ record ∈ guardianRecords (sealAssignments vaultId epoch shares pubs) signers,
      record.signer ≠ ⟨0⟩ := by
    intro record member
    apply nonzero
    rw [← named]
    exact List.mem_map_of_mem member
  refine ⟨_, readRecoveryEscrow_tables (numbered.imp le_of_lt) signed, rfl, rfl, rfl, ?_, ?_⟩
  · rw [List.map_map]
    calc (guardianRecords (sealAssignments vaultId epoch shares pubs) signers).map
          GuardianRecord.guardianPub
        = (shares.zip pubs).map Prod.snd :=
          guardianRecords_map_guardianPub vaultId epoch shares pubs signers
      _ = pubs := List.map_snd_zip shareCount.ge
  · rw [List.map_map]
    exact named

/-! ## Rotation -/

structure SurvivingDevice where
  deviceId : DeviceId
  pairingPub : X25519Pub
  deriving Repr, DecidableEq

/-- `resolve_survivors`: the directory entries of the on-chain set, and the signers
the directory does not know. -/
def resolveSurvivors (onchain : List EvmAddress) (directory : List DirectoryEntry) :
    List SurvivingDevice × List EvmAddress :=
  (onchain.filterMap fun signer =>
      (Table.lookup DirectoryEntry.signer directory signer).map fun entry =>
        ⟨entry.deviceId, entry.pairingPub⟩,
    onchain.filter fun signer =>
      (Table.lookup DirectoryEntry.signer directory signer).isNone)

structure SurvivorSeal where
  deviceId : DeviceId
  sealedVdk : SealedBox
  deriving Repr, DecidableEq

structure RotationArtifacts where
  newVdk : VdkKey
  survivorSeals : List SurvivorSeal
  reSplit : OnboardingArtifacts
  newEpoch : Nat
  deriving Repr, DecidableEq

/-- What one rotation draws. -/
structure RotationDraw where
  newVdk : VdkKey
  salt : KdfSalt
  escrow : EscrowDraw
  deriving Repr, DecidableEq

/-- `rotate_vdk_for_survivors`. -/
def rotateVdkForSurvivors (scheme : ShareScheme) (survivors : List SurvivingDevice)
    (vaultId : VaultId) (config : GuardianSetConfig) (pubs : List X25519Pub)
    (currentEpoch : Nat) (draw : RotationDraw) : Except CompositionError RotationArtifacts :=
  if survivors.isEmpty then
    .error .noSurvivors
  else
    let newEpoch := nextEpoch currentEpoch
    let seals := survivors.map fun survivor =>
      ⟨survivor.deviceId,
        sealVdkToDevice draw.newVdk survivor.pairingPub vaultId survivor.deviceId newEpoch⟩
    match onboardGuardianEscrow scheme draw.newVdk vaultId config pubs newEpoch draw.escrow with
    | none => .error .escrowRePoint
    | some reSplit => .ok ⟨draw.newVdk, seals, reSplit, newEpoch⟩

/-- The result `complete_rotation` hands to its caller. -/
structure RotationOutcome where
  newEpoch : Nat
  unknownSurvivors : List EvmAddress
  deriving Repr, DecidableEq

/-- Retire the pending rows whose removed signer has left the on-chain set. -/
def resolvePending (onchain : List EvmAddress) (pending : List RotationPending) :
    List RotationPending :=
  pending.map fun row =>
    if row.removedSigner ∈ onchain then row else { row with resolved := true }

/-- The first three steps of `complete_rotation`: resolve, read the escrow
parameters, mint and re-split.  Nothing is written. -/
def planRotation (scheme : ShareScheme) (vault : Vault) (password : Password)
    (onchain : List EvmAddress) (draw : RotationDraw) :
    Except CompositionError (RotationArtifacts × RotationCommit) :=
  match recoveryEscrowParams vault with
  | .error error => .error (.store error)
  | .ok none => .error .noRecoveryEscrow
  | .ok (some params) => do
      let survivors := (resolveSurvivors onchain vault.disk.deviceSet.directory).1
      let artifacts ← rotateVdkForSurvivors scheme survivors vault.vaultMeta.vaultId
        ⟨params.threshold, params.guardianCount⟩ params.guardianPubs params.currentEpoch draw
      return (artifacts, ⟨artifacts.newVdk, password, draw.salt, artifacts.newEpoch,
        artifacts.reSplit.generation params.guardianSigners⟩)

/-- `complete_rotation`.  The survivor seals of the artifacts are bound by `..` in the
source: they are neither stored nor returned. -/
def completeRotation (scheme : ShareScheme) (vault : Vault) (password : Password)
    (onchain : List EvmAddress) (draw : RotationDraw) : CoreCall RotationOutcome :=
  match planRotation scheme vault password onchain draw with
  | .error error => (vault, .error error)
  | .ok (artifacts, commit) =>
      match commitVdkRotationFromActive vault commit with
      | (vault', .error error) => (vault', .error (.store error))
      | (vault', .ok ()) =>
          let deviceSet := { vault'.disk.deviceSet with
            rotationPending := resolvePending onchain vault'.disk.deviceSet.rotationPending }
          ({ vault' with disk := { vault'.disk with deviceSet } },
            .ok ⟨artifacts.newEpoch,
              (resolveSurvivors onchain vault.disk.deviceSet.directory).2⟩)

/-- What a plan consists of: a roster read back from the escrow, at least one survivor,
and a re-split of the drawn VDK at the next epoch. -/
theorem planRotation_eq_ok {scheme : ShareScheme} {vault : Vault} {password : Password}
    {onchain : List EvmAddress} {draw : RotationDraw} {artifacts : RotationArtifacts}
    {commit : RotationCommit}
    (planned : planRotation scheme vault password onchain draw = .ok (artifacts, commit)) :
    ∃ params reSplit, recoveryEscrowParams vault = .ok (some params) ∧
      (resolveSurvivors onchain vault.disk.deviceSet.directory).1 ≠ [] ∧
      onboardGuardianEscrow scheme draw.newVdk vault.vaultMeta.vaultId
        ⟨params.threshold, params.guardianCount⟩ params.guardianPubs
        (nextEpoch params.currentEpoch) draw.escrow = some reSplit ∧
      artifacts.newEpoch = nextEpoch params.currentEpoch ∧
      commit = ⟨draw.newVdk, password, draw.salt, nextEpoch params.currentEpoch,
        reSplit.generation params.guardianSigners⟩ := by
  unfold planRotation at planned
  split at planned
  · cases planned
  · cases planned
  · next params read =>
      simp only [Fallible.bind_eq_ok_iff, rotateVdkForSurvivors] at planned
      obtain ⟨made, rotated, equal⟩ := planned
      split at rotated
      · cases rotated
      · next survivors =>
          split at rotated
          · cases rotated
          · next reSplit onboarded =>
              obtain rfl := Except.ok.inj rotated
              obtain ⟨rfl, rfl⟩ := Prod.mk.inj (Except.ok.inj equal)
              refine ⟨params, reSplit, read, ?_, onboarded, rfl, rfl⟩
              simpa using survivors

/-- Those conditions suffice for a plan. -/
theorem planRotation_ok {scheme : ShareScheme} {vault : Vault} (password : Password)
    {onchain : List EvmAddress} {draw : RotationDraw} {params : RecoveryEscrowParams}
    {reSplit : OnboardingArtifacts} (read : recoveryEscrowParams vault = .ok (some params))
    (survivors : (resolveSurvivors onchain vault.disk.deviceSet.directory).1 ≠ [])
    (onboarded : onboardGuardianEscrow scheme draw.newVdk vault.vaultMeta.vaultId
      ⟨params.threshold, params.guardianCount⟩ params.guardianPubs
      (nextEpoch params.currentEpoch) draw.escrow = some reSplit) :
    ∃ artifacts, planRotation scheme vault password onchain draw = .ok (artifacts,
      ⟨draw.newVdk, password, draw.salt, nextEpoch params.currentEpoch,
        reSplit.generation params.guardianSigners⟩) := by
  have resolved : (resolveSurvivors onchain vault.disk.deviceSet.directory).1.isEmpty = false := by
    simpa using survivors
  simp only [planRotation, read, rotateVdkForSurvivors, resolved, onboarded]
  exact ⟨_, rfl⟩

/-- The epoch a plan works from is the chain's. -/
theorem recoveryEscrowParams_currentEpoch {vault : Vault} {params : RecoveryEscrowParams}
    (read : recoveryEscrowParams vault = .ok (some params)) :
    params.currentEpoch = readCurrentEpoch vault.disk.keys := by
  unfold recoveryEscrowParams at read
  split at read
  · cases read
  · obtain ⟨stored, -, equal⟩ := Fallible.bind_eq_ok_iff.mp read
    obtain ⟨escrow, -, rfl⟩ := Option.map_eq_some_iff.mp (Except.ok.inj equal)
    rfl

/-- A rotation goes through exactly when its plan and the commit of it do; it resolves
the pending rows and returns the epoch and the unknown signers. -/
theorem completeRotation_eq_ok_iff {scheme : ShareScheme} {vault vault' : Vault}
    {password : Password} {onchain : List EvmAddress} {draw : RotationDraw}
    {outcome : RotationOutcome} :
    completeRotation scheme vault password onchain draw = (vault', .ok outcome) ↔
      ∃ artifacts commit committed,
        planRotation scheme vault password onchain draw = .ok (artifacts, commit) ∧
        commitVdkRotationFromActive vault commit = (committed, .ok ()) ∧
        vault' = { committed with disk := { committed.disk with
          deviceSet := { committed.disk.deviceSet with
            rotationPending :=
              resolvePending onchain committed.disk.deviceSet.rotationPending } } } ∧
        outcome = ⟨artifacts.newEpoch,
          (resolveSurvivors onchain vault.disk.deviceSet.directory).2⟩ := by
  constructor
  · intro succeeded
    unfold completeRotation at succeeded
    split at succeeded
    · cases (Prod.mk.inj succeeded).2
    · next artifacts commit planned =>
        split at succeeded
        · cases (Prod.mk.inj succeeded).2
        · next committed done =>
            obtain ⟨rfl, returned⟩ := Prod.mk.inj succeeded
            exact ⟨artifacts, commit, committed, planned, done, rfl,
              (Except.ok.inj returned).symm⟩
  · rintro ⟨artifacts, commit, committed, planned, done, rfl, rfl⟩
    simp only [completeRotation, planned, done]

/-- A failed rotation leaves the file and the meta row alone. -/
theorem completeRotation_error {scheme : ShareScheme} {vault vault' : Vault}
    {password : Password} {onchain : List EvmAddress} {draw : RotationDraw}
    {error : CompositionError}
    (failed : completeRotation scheme vault password onchain draw = (vault', .error error)) :
    vault'.disk = vault.disk ∧ vault'.vaultMeta = vault.vaultMeta ∧
      (vault'.active = vault.active ∨ vault'.active = none) := by
  unfold completeRotation at failed
  split at failed
  · obtain ⟨rfl, -⟩ := Prod.mk.inj failed
    exact ⟨rfl, rfl, .inl rfl⟩
  · split at failed
    · next refused =>
        obtain ⟨rfl, -⟩ := Prod.mk.inj failed
        rcases commitVdkRotationFromActive_error refused with rfl | rfl
        · exact ⟨rfl, rfl, .inl rfl⟩
        · exact ⟨rfl, rfl, .inr rfl⟩
    · cases (Prod.mk.inj failed).2

/-- The two ways a rotation ends.  A committed one moves to the next epoch with the
drawn VDK and salt and the given password, and stores a re-split for the new epoch. -/
theorem completeRotation_cases (scheme : ShareScheme) (vault : Vault) (password : Password)
    (onchain : List EvmAddress) (draw : RotationDraw) :
    (((completeRotation scheme vault password onchain draw).1.disk = vault.disk ∧
        (completeRotation scheme vault password onchain draw).1.vaultMeta = vault.vaultMeta ∧
        ((completeRotation scheme vault password onchain draw).1.active = vault.active ∨
          (completeRotation scheme vault password onchain draw).1.active = none)) ∧
      ∃ error, (completeRotation scheme vault password onchain draw).2 = .error error) ∨
    ∃ active commit escrow deviceSet, vault.active = some active ∧
      fitsI64 commit.newEpoch = true ∧
      commit.newEpoch = readCurrentEpoch vault.disk.keys + 1 ∧
      (commit.newVdk = draw.newVdk ∧ commit.password = password ∧ commit.salt = draw.salt ∧
        commit.reSplit.epoch = commit.newEpoch) ∧
      (completeRotation scheme vault password onchain draw).1 = lockedWith vault { vault.disk with
        keys := rotatedKeys vault.disk.keys vault.vaultMeta active.vdk active.deviceKey commit
        escrow
        deviceSet } := by
  cases rotated : completeRotation scheme vault password onchain draw with
  | mk vault' result =>
      cases result with
      | error error => exact .inl ⟨completeRotation_error rotated, error, rfl⟩
      | ok outcome =>
          obtain ⟨artifacts, commit, committed, planned, done, rfl, -⟩ :=
            completeRotation_eq_ok_iff.mp rotated
          obtain ⟨params, reSplit, read, -, onboarded, -, rfl⟩ := planRotation_eq_ok planned
          obtain ⟨active, disk, session, transacted, rfl⟩ :=
            commitVdkRotationFromActive_eq_ok_iff.mp done
          obtain ⟨-, fits, escrow, -, rfl⟩ := rotationTx_eq_ok_iff.mp transacted
          refine .inr ⟨active, _, escrow, _, session, fits, ?_, ⟨rfl, rfl, rfl, ?_⟩, rfl⟩
          · rw [nextEpoch_of_fits fits, recoveryEscrowParams_currentEpoch read]
          · obtain ⟨shares, -, -, -, rfl⟩ := onboardGuardianEscrow_eq_some onboarded
            rfl

/-- `consume_survivor_seal`: open a survivor seal and wrap the VDK for this device. -/
def consumeSurvivorSeal (sealedVdk : SealedBox) (localDevice : DeviceKey)
    (vaultId : VaultId) (deviceId : DeviceId) (newEpoch : Nat) :
    Except StoreError (VdkKey × DeviceWrappedVdk) :=
  match openVdkFromPairing sealedVdk localDevice.pairing vaultId deviceId newEpoch with
  | none => .error .authenticationFailed
  | some vdk => .ok (vdk, wrapVdkForDevice vdk localDevice (.new vaultId))

/-! ## Recovery from shares -/

/-- The host-supplied guardian roster. -/
structure GuardianRoster where
  threshold : Nat
  guardianCount : Nat
  x25519Pubs : List X25519Pub
  evmAddrs : List EvmAddress
  deriving Repr, DecidableEq

/-- Everything `recover_from_shares` is called with. -/
structure RecoveryInput where
  wrappedRecovery : WrappedVdkRecovery
  wrapContext : WrapContext
  openedShares : List Share
  roster : GuardianRoster
  password : Password
  currentEpoch : Nat
  vaultId : VaultId
  salt : KdfSalt
  escrow : EscrowDraw
  deriving Repr, DecidableEq

/-- `recover_vdk_from_shares`: recombine, unwrap, re-split at the next epoch. -/
def recoverVdkFromShares (scheme : ShareScheme) (input : RecoveryInput) :
    Option (VdkKey × OnboardingArtifacts) :=
  if input.openedShares.length < input.roster.threshold then
    none
  else do
    let rwk ← scheme.combine input.openedShares
    let vdk ← unwrapVdkUnderRwk input.wrappedRecovery input.wrapContext rwk
    let reSplit ← onboardGuardianEscrow scheme vdk input.vaultId
      ⟨input.roster.threshold, input.roster.guardianCount⟩ input.roster.x25519Pubs
      (nextEpoch input.currentEpoch) input.escrow
    return (vdk, reSplit)

/-- `recover_from_shares`. -/
def recoverFromShares (scheme : ShareScheme) (vault : Vault) (input : RecoveryInput) :
    CoreCall Nat :=
  if input.roster.x25519Pubs.length ≠ input.roster.guardianCount ∨
      input.roster.evmAddrs.length ≠ input.roster.guardianCount then
    (vault, .error (.store (.corrupted
      "recover_from_shares: guardian_count does not match the roster")))
  else
    match recoverVdkFromShares scheme input with
    | none => (vault, .error .recovery)
    | some (vdk, reSplit) =>
        match commitRecoveryRekey vault vdk input.password input.salt
            (reSplit.generation input.roster.evmAddrs) with
        | (vault', .error error) => (vault', .error (.store error))
        | (vault', .ok ()) => (vault', .ok reSplit.epoch)

/-- A recovery from shares leaves the vault alone or commits a recovery. -/
theorem recoverFromShares_cases (scheme : ShareScheme) (vault : Vault) (input : RecoveryInput) :
    (recoverFromShares scheme vault input).1 = vault ∨
      ∃ recovered escrow, (recoverFromShares scheme vault input).1 =
        lockedWith vault
          (recoveredDisk vault recovered input.password input.salt escrow) := by
  unfold recoverFromShares
  split
  · exact .inl rfl
  · split
    · exact .inl rfl
    · next vdk reSplit _ =>
        rcases commitRecoveryRekey_cases vault vdk input.password input.salt
            (reSplit.generation input.roster.evmAddrs) with ⟨error, failed⟩ | ⟨escrow, -, result⟩
        · rw [failed]
          exact .inl rfl
        · rw [result]
          exact .inr ⟨vdk, escrow, rfl⟩

/-- A failed recovery from shares leaves the vault as it was. -/
theorem recoverFromShares_error {scheme : ShareScheme} {vault vault' : Vault}
    {input : RecoveryInput} {error : CompositionError}
    (failed : recoverFromShares scheme vault input = (vault', .error error)) : vault' = vault := by
  unfold recoverFromShares at failed
  split at failed
  · exact (Prod.mk.inj failed).1.symm
  · split at failed
    · exact (Prod.mk.inj failed).1.symm
    · next vdk reSplit _ =>
        rcases commitRecoveryRekey_cases vault vdk input.password input.salt
            (reSplit.generation input.roster.evmAddrs) with ⟨refusal, refused⟩ | ⟨escrow, -, result⟩
        · rw [refused] at failed
          exact (Prod.mk.inj failed).1.symm
        · rw [result] at failed
          cases (Prod.mk.inj failed).2

/-- Everything a successful recovery from shares did: it re-split the VDK inside the
supplied blob at the epoch after the supplied one, and committed both. -/
theorem recoverFromShares_eq_ok {scheme : ShareScheme} {vault vault' : Vault}
    {input : RecoveryInput} {epoch : Nat}
    (recovered : recoverFromShares scheme vault input = (vault', .ok epoch)) :
    ∃ reSplit escrow, input.roster.x25519Pubs.length = input.roster.guardianCount ∧
      input.roster.evmAddrs.length = input.roster.guardianCount ∧
      onboardGuardianEscrow scheme input.wrappedRecovery.msg input.vaultId
        ⟨input.roster.threshold, input.roster.guardianCount⟩ input.roster.x25519Pubs
        (nextEpoch input.currentEpoch) input.escrow = some reSplit ∧
      writeRecoveryEscrow vault.vaultMeta.vaultId input.wrappedRecovery.msg
        (reSplit.generation input.roster.evmAddrs) = .ok escrow ∧
      vault' = lockedWith vault (recoveredDisk vault input.wrappedRecovery.msg input.password
        input.salt escrow) := by
  unfold recoverFromShares at recovered
  split at recovered
  · cases (Prod.mk.inj recovered).2
  next lengths =>
  split at recovered
  · cases (Prod.mk.inj recovered).2
  next vdk reSplit opened =>
  unfold recoverVdkFromShares at opened
  split at opened
  · cases opened
  simp only [bind, Option.bind_eq_some_iff, pure, Option.some.injEq, Prod.mk.injEq] at opened
  obtain ⟨rwk, -, opened', unwrapped, reSplit', onboarded, rfl, rfl⟩ := opened
  obtain ⟨-, -, rfl⟩ := (Symbolic.Sealed.open?_eq_some_iff _ _ _ _).mp unwrapped
  rcases commitRecoveryRekey_cases vault input.wrappedRecovery.msg input.password input.salt
      (reSplit'.generation input.roster.evmAddrs) with ⟨error, failed⟩ | ⟨escrow, written, result⟩
  · rw [failed] at recovered
    cases (Prod.mk.inj recovered).2
  · rw [result] at recovered
    refine ⟨reSplit', escrow, ?_, ?_, onboarded, written, (Prod.mk.inj recovered).1.symm⟩
    · exact not_not.mp fun different => lengths (.inl different)
    · exact not_not.mp fun different => lengths (.inr different)

end Pangolin.Core
