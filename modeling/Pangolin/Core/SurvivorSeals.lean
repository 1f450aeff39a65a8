import Pangolin.System

/-!
# Who receives the new VDK

A rotation seals the new VDK to every surviving device.  A survivor can use its seal
only if the caller is handed it or the file keeps it.  The outcome of
`complete_rotation` carries neither, and the boxes the file keeps are the guardians'
shares.  So a rotation that commits delivers the new VDK to no survivor.
-/

namespace Pangolin.Core

open Crypto Store

/-- The anonymous sealed boxes of a file.  The guardian rows are the only columns that
hold one; their outer seal is ignored here. -/
def fileBoxes (disk : Disk) : List SealedBox :=
  disk.escrow.guardians.map fun row => row.encSealedShare.msg

/-- The anonymous sealed boxes among the fields of an outcome: it has an epoch and a
list of addresses. -/
def RotationOutcome.boxes (_ : RotationOutcome) : List SealedBox := []

/-- What a committed rotation owes the devices, given the boxes left behind. -/
structure Delivers (survivors : List SurvivingDevice) (vaultId : VaultId) (newVdk : VdkKey)
    (newEpoch : Nat) (boxes : List SealedBox) : Prop where
  /-- Each survivor opens some box to the new VDK. -/
  survivor : ∀ survivor ∈ survivors, ∀ device : DeviceKey,
    device.pairing.publicKey = survivor.pairingPub →
      ∃ box ∈ boxes, ∃ wrapped,
        consumeSurvivorSeal box device vaultId survivor.deviceId newEpoch =
          .ok (newVdk, wrapped)
  /-- A device that is no survivor opens none. -/
  removed : ∀ device : DeviceKey,
    (∀ survivor ∈ survivors, survivor.pairingPub ≠ device.pairing.publicKey) →
      ∀ box ∈ boxes, ∀ deviceId,
        consumeSurvivorSeal box device vaultId deviceId newEpoch =
          .error .authenticationFailed

/-- The contract of one `complete_rotation`: delivery when it succeeds, an untouched
file and meta row when it does not. -/
def RotationDelivers (scheme : ShareScheme) (vault : Vault) (password : Password)
    (onchain : List EvmAddress) (draw : RotationDraw) : Prop :=
  match completeRotation scheme vault password onchain draw with
  | (vault', .ok outcome) =>
      Delivers (resolveSurvivors onchain vault.disk.deviceSet.directory).1
        vault.vaultMeta.vaultId draw.newVdk outcome.newEpoch
        (outcome.boxes ++ fileBoxes vault'.disk)
  | (vault', .error _) => vault'.disk = vault.disk ∧ vault'.vaultMeta = vault.vaultMeta

/-- The conditions under which a rotation gets as far as its commit: a session that can
read the escrow, a survivor the directory knows, a re-split that is not refused, and
epochs that fit their columns. -/
def RotationCommits (scheme : ShareScheme) (vault : Vault) (onchain : List EvmAddress)
    (draw : RotationDraw) : Prop :=
  ∃ params, recoveryEscrowParams vault = .ok (some params) ∧
    (resolveSurvivors onchain vault.disk.deviceSet.directory).1 ≠ [] ∧
    (onboardGuardianEscrow scheme draw.newVdk vault.vaultMeta.vaultId
      ⟨params.threshold, params.guardianCount⟩ params.guardianPubs
      (nextEpoch params.currentEpoch) draw.escrow).isSome = true ∧
    fitsI64 params.currentEpoch = true ∧ fitsI64 (nextEpoch params.currentEpoch) = true

section

variable {scheme : ShareScheme} {vault vault' : Vault}
variable {onchain : List EvmAddress} {draw : RotationDraw} {outcome : RotationOutcome}

/-- The boxes of a re-split generation carry shares. -/
theorem fileBoxes_generation {vdk : VdkKey} {vaultId : VaultId} {config : GuardianSetConfig}
    {pubs : List X25519Pub} {epoch : Nat} {draw : EscrowDraw} {reSplit : OnboardingArtifacts}
    (onboarded : onboardGuardianEscrow scheme vdk vaultId config pubs epoch draw = some reSplit)
    {signers : List EvmAddress} {disk : Disk}
    (stored : disk.escrow = (reSplit.generation signers).tables vaultId vdk) :
    ∀ box ∈ fileBoxes disk, ∃ share pub, box = sealShare share pub vaultId epoch := by
  obtain ⟨shares, -, -, -, rfl⟩ := onboardGuardianEscrow_eq_some onboarded
  intro box member
  simp only [fileBoxes, stored, EscrowGeneration.tables, OnboardingArtifacts.generation,
    guardianRecords, sealAssignments, List.map_map, List.mem_map] at member
  obtain ⟨entry, -, rfl⟩ := member
  exact ⟨entry.1.1, entry.1.2, rfl⟩

/-- What a committed rotation leaves in the file. -/
theorem completeRotation_boxes {password : Password}
    (succeeded : completeRotation scheme vault password onchain draw = (vault', .ok outcome)) :
    (resolveSurvivors onchain vault.disk.deviceSet.directory).1 ≠ [] ∧
      ∀ box ∈ fileBoxes vault'.disk, ∃ share pub epoch,
        box = sealShare share pub vault.vaultMeta.vaultId epoch := by
  obtain ⟨artifacts, commit, committed, planned, done, rfl, -⟩ :=
    completeRotation_eq_ok_iff.mp succeeded
  obtain ⟨params, reSplit, -, survivors, onboarded, -, rfl⟩ := planRotation_eq_ok planned
  obtain ⟨active, disk, -, transacted, rfl⟩ := commitVdkRotationFromActive_eq_ok_iff.mp done
  obtain ⟨-, -, escrow, written, rfl⟩ := rotationTx_eq_ok_iff.mp transacted
  have numbered := (generation_numbered onboarded params.guardianSigners).imp ne_of_lt
  obtain ⟨-, rfl⟩ := (writeRecoveryEscrow_eq_ok_iff numbered).mp written
  refine ⟨survivors, ?_⟩
  intro box member
  obtain ⟨share, pub, rfl⟩ := fileBoxes_generation onboarded (by rfl) box member
  exact ⟨share, pub, _, rfl⟩

/-- The commit conditions are exactly when a rotation succeeds. -/
theorem completeRotation_succeeds_iff (password : Password) :
    (∃ vault' outcome, completeRotation scheme vault password onchain draw =
        (vault', .ok outcome)) ↔
      RotationCommits scheme vault onchain draw := by
  constructor
  · rintro ⟨vault', outcome, succeeded⟩
    obtain ⟨artifacts, commit, committed, planned, done, -, -⟩ :=
      completeRotation_eq_ok_iff.mp succeeded
    obtain ⟨params, reSplit, read, survivors, onboarded, -, rfl⟩ := planRotation_eq_ok planned
    obtain ⟨active, disk, -, transacted, -⟩ := commitVdkRotationFromActive_eq_ok_iff.mp done
    obtain ⟨oldFits, newFits, -⟩ := rotationTx_eq_ok_iff.mp transacted
    rw [← recoveryEscrowParams_currentEpoch read] at oldFits
    exact ⟨params, read, survivors, by rw [onboarded]; rfl, oldFits, newFits⟩
  · rintro ⟨params, read, survivors, refused, oldFits, newFits⟩
    obtain ⟨reSplit, onboarded⟩ := Option.isSome_iff_exists.mp refused
    obtain ⟨artifacts, planned⟩ := planRotation_ok password read survivors onboarded
    have numbered := (generation_numbered onboarded params.guardianSigners).imp ne_of_lt
    have epoch : reSplit.epoch = nextEpoch params.currentEpoch := by
      obtain ⟨shares, -, -, -, rfl⟩ := onboardGuardianEscrow_eq_some onboarded
      rfl
    have written : writeRecoveryEscrow vault.vaultMeta.vaultId draw.newVdk
        (reSplit.generation params.guardianSigners) = .ok _ :=
      (writeRecoveryEscrow_eq_ok_iff numbered).mpr
        ⟨by simpa only [OnboardingArtifacts.generation, epoch] using newFits, rfl⟩
    cases session : vault.active with
    | none => simp [recoveryEscrowParams, session] at read
    | some active =>
        rw [recoveryEscrowParams_currentEpoch read] at oldFits
        have transacted : rotationTx vault.disk vault.vaultMeta active.vdk active.deviceKey
            ⟨draw.newVdk, password, draw.salt, nextEpoch params.currentEpoch,
              reSplit.generation params.guardianSigners⟩ = .ok _ :=
          rotationTx_eq_ok_iff.mpr ⟨oldFits, newFits, _, written, rfl⟩
        have done := commitVdkRotationFromActive_eq_ok_iff.mpr
          ⟨active, _, session, transacted, rfl⟩
        exact ⟨_, _, completeRotation_eq_ok_iff.mpr
          ⟨artifacts, _, _, planned, done, rfl, rfl⟩⟩

end

/-- No device opens a guardian's share box as a survivor seal. -/
theorem consumeSurvivorSeal_sealShare (share : Share) (guardian : X25519Pub)
    (headerVault vaultId : VaultId) (headerEpoch newEpoch : Nat) (device : DeviceKey)
    (deviceId : DeviceId) :
    consumeSurvivorSeal (sealShare share guardian headerVault headerEpoch) device vaultId
      deviceId newEpoch = .error .authenticationFailed := by
  simp only [consumeSurvivorSeal, openVdkFromPairing_sealShare]

/-- A rotation that succeeds breaks its contract. -/
theorem completeRotation_not_delivers {scheme : ShareScheme} {vault vault' : Vault}
    {password : Password} {onchain : List EvmAddress} {draw : RotationDraw}
    {outcome : RotationOutcome}
    (succeeded : completeRotation scheme vault password onchain draw = (vault', .ok outcome)) :
    ¬ RotationDelivers scheme vault password onchain draw := by
  obtain ⟨survivors, shares⟩ := completeRotation_boxes succeeded
  unfold RotationDelivers
  rw [succeeded]
  intro delivers
  obtain ⟨survivor, member⟩ := List.exists_mem_of_ne_nil _ survivors
  -- Some device holds the survivor's pairing key; it opens nothing.
  obtain ⟨box, boxMember, wrapped, opened⟩ := delivers.survivor survivor member
    ⟨0, ⟨0⟩, ⟨0⟩, ⟨0⟩, ⟨survivor.pairingPub.raw⟩⟩ rfl
  obtain ⟨share, pub, epoch, rfl⟩ := shares box boxMember
  rw [consumeSurvivorSeal_sealShare] at opened
  cases opened

/-- A rotation keeps its contract exactly when it does not commit: every committed one
leaves each survivor without a seal. -/
theorem rotationDelivers_iff (scheme : ShareScheme) (vault : Vault) (password : Password)
    (onchain : List EvmAddress) (draw : RotationDraw) :
    RotationDelivers scheme vault password onchain draw ↔
      ¬ RotationCommits scheme vault onchain draw := by
  rw [← completeRotation_succeeds_iff password]
  constructor
  · rintro delivers ⟨vault', outcome, succeeded⟩
    exact completeRotation_not_delivers succeeded delivers
  · intro refused
    unfold RotationDelivers
    split
    · next vault' outcome succeeded => exact absurd ⟨vault', outcome, succeeded⟩ refused
    · next vault' error failed =>
        obtain ⟨sameDisk, sameMeta, -⟩ := completeRotation_error failed
        exact ⟨sameDisk, sameMeta⟩

/-! ## A committed rotation -/

/-- A vault with an active session, three guardians, and one other device in its
directory. -/
def guardedVault : Vault :=
  Sample.run Sample.vault [Sample.unlock ⟨[1]⟩, Sample.onboard, Sample.directory,
    .queueRotationPending ⟨⟨99⟩, 0, 0, false⟩]

/-- A rotation of that vault for its one survivor commits and hands the survivor
nothing. -/
theorem guardedVault_rotation_delivers_nothing :
    (completeRotation countingScheme guardedVault ⟨[1]⟩ [⟨41⟩] ⟨⟨8⟩, ⟨9⟩, ⟨6⟩, 0⟩).2 =
        .ok ⟨1, []⟩ ∧
      ¬ RotationDelivers countingScheme guardedVault ⟨[1]⟩ [⟨41⟩] ⟨⟨8⟩, ⟨9⟩, ⟨6⟩, 0⟩ := by
  have succeeds : (completeRotation countingScheme guardedVault ⟨[1]⟩ [⟨41⟩]
      ⟨⟨8⟩, ⟨9⟩, ⟨6⟩, 0⟩).2 = .ok ⟨1, []⟩ := by decide
  exact ⟨succeeds, completeRotation_not_delivers (Prod.ext rfl succeeds)⟩

end Pangolin.Core
