import Pangolin.Ffi.PairingCode
import Pangolin.Runs.EpochAliasing

/-!
# Reading on a paired device

`vault_add_device` seals the VDK at epoch 0 whatever the vault's epoch is.  The new device
opens the seal with the epoch it was given, and keeps the chain of its own, never rotated
vault.  So a manager that never rotated gets a device that reads all it reads; the seal of
any other manager does not open.
-/

namespace Pangolin

open Symbolic Crypto Store Pangolin.Core Ffi Transition

/-! ## The two devices -/

/-- Calls of a manager: sessions, edits, onboardings and rotations. -/
def Manages (_ : Vault) : Op → Prop
  | .completeRotation .. => True
  | op => op.Ordinary

/-- Calls on a vault that was created to be paired. -/
def AwaitsPairing (_ : Vault) : Op → Prop
  | .unlock _ | .lock | .reopen _ _ => True
  | _ => False

theorem Manages.cases {vault : Vault} {op : Op} (manages : Manages vault op) :
    op.Ordinary ∨ ∃ password onchain draw, op = .completeRotation password onchain draw := by
  cases op with
  | completeRotation password onchain draw => exact .inr ⟨password, onchain, draw, rfl⟩
  | _ => exact .inl manages

structure ManagerInv (vault : Vault) : Prop where
  core : KeyCore vault
  epochs : AliasInv vault

theorem ManagerInv.step {scheme : ShareScheme} {hash : CanonicalHash} {vault : Vault} {op : Op}
    (inv : ManagerInv vault) (manages : Manages vault op) :
    ManagerInv (step scheme hash vault op) := by
  rcases manages.cases with ordinary | ⟨password, onchain, draw, rfl⟩
  · have effect := ordinary_effect scheme hash vault ordinary
    exact ⟨(inv.core.effect effect).1, inv.epochs.effect effect⟩
  · refine ⟨?_, inv.epochs.step trivial⟩
    rcases completeRotation_cases scheme vault password onchain draw with
      ⟨⟨disk, vaultMeta, active⟩, -⟩ |
        ⟨active, commit, escrow, deviceSet, session, fits, next, -, rotated⟩
    · exact inv.core.frame vaultMeta (congrArg Disk.keys disk) active
    · rw [Pangolin.step, rotated]
      refine inv.core.rotated session commit fits (by omega) ?_ escrow deviceSet
      intro row member
      have earlier := inv.epochs.retained_lt row member
      omega

/-- A vault without rows or retained epochs. -/
structure UnusedVault (vault : Vault) : Prop where
  core : KeyCore vault
  vdkChain : vault.disk.keys.vdkChain = []
  vdkChainState : vault.disk.keys.vdkChainState = none
  accounts : vault.disk.log.accounts = []

theorem UnusedVault.create (password : Password) (draw : CreateDraw) :
    UnusedVault (create password draw) :=
  ⟨.create password draw, rfl, rfl, rfl⟩

theorem UnusedVault.step {scheme : ShareScheme} {hash : CanonicalHash} {vault : Vault} {op : Op}
    (unused : UnusedVault vault) (awaits : AwaitsPairing vault op) :
    UnusedVault (step scheme hash vault op) := by
  cases op with
  | unlock input =>
      cases unlocked : unlock vault input with
      | mk vault' result =>
          rw [Pangolin.step, unlocked]
          cases result with
          | error error =>
              obtain rfl := unlock_error unlocked
              exact unused
          | ok value =>
              obtain ⟨vdk, chain, data, deviceKey, keys, found⟩ := unlock_eq_ok_iff.mp unlocked
              obtain ⟨core, same⟩ := unused.core.unlocks found
              obtain rfl := found.result
              exact ⟨core, same.vdkChain.trans unused.vdkChain,
                same.vdkChainState.trans unused.vdkChainState, unused.accounts⟩
  | lock =>
      exact ⟨unused.core.frame rfl rfl (.inr rfl), unused.vdkChain, unused.vdkChainState,
        unused.accounts⟩
  | reopen placeholder sessionIdle =>
      exact ⟨unused.core.frame unused.core.metaSynced.symm rfl (.inr rfl), unused.vdkChain,
        unused.vdkChainState, unused.accounts⟩
  | _ => exact absurd awaits id

/-! ## Joining -/

section

variable (newDevice : Session) (received : VdkKey) (vaultId : VaultId) (password : Password)
  (salt : KdfSalt)

/-- The key tables a join writes. -/
def pairedKeys : KeyTables :=
  resealDeviceKey
    (writeMeta newDevice.vault.disk.keys
      (freshMeta vaultId newDevice.vault.vaultMeta.createdAt received password salt))
    vaultId received newDevice.deviceKey

/-- The vault a join leaves behind. -/
def pairedVault : Vault :=
  { lockedWith newDevice.vault { newDevice.vault.disk with
      keys := pairedKeys newDevice received vaultId password salt } with
    deviceId := newDevice.deviceKey.deviceId }

theorem installPairedVdk_eq :
    installPairedVdk newDevice.vault received vaultId password salt =
      (pairedVault newDevice received vaultId password salt, .ok ()) := by
  simp only [installPairedVdk, withActive, newDevice.holds, atomically]
  rfl

@[simp] theorem pairedKeys_vaultMeta :
    (pairedKeys newDevice received vaultId password salt).vaultMeta =
      freshMeta vaultId newDevice.vault.vaultMeta.createdAt received password salt := by
  simp [pairedKeys]

@[simp] theorem pairedKeys_vdkChain :
    (pairedKeys newDevice received vaultId password salt).vdkChain =
      newDevice.vault.disk.keys.vdkChain := by
  simp [pairedKeys]

@[simp] theorem pairedKeys_vdkChainState :
    (pairedKeys newDevice received vaultId password salt).vdkChainState =
      newDevice.vault.disk.keys.vdkChainState := by
  simp [pairedKeys]

variable {newDevice}

/-- The registered device's row stays, its seed is re-sealed under the received VDK. -/
theorem pairedKeys_devices (unused : UnusedVault newDevice.vault) :
    DeviceTables (pairedKeys newDevice received vaultId password salt) vaultId received := by
  have held := unused.core.session newDevice.active newDevice.holds
  cases unused.core.devices with
  | unregistered devices deviceKey =>
      rw [held.deviceKey] at deviceKey
      cases deviceKey
  | registered key row devices sameId address deviceKey =>
      obtain rfl : key = newDevice.active.deviceKey := by
        rw [held.deviceKey, held.vdk] at deviceKey
        exact (sealDeviceKey_inj (Option.some.inj deviceKey)).symm
      refine .registered newDevice.active.deviceKey row ?_ sameId address ?_
      · simpa [pairedKeys] using devices
      · simp [pairedKeys, resealDeviceKey, held.deviceKey, Session.deviceKey]

/-- Joining makes an unused vault of another one. -/
theorem UnusedVault.joined (unused : UnusedVault newDevice.vault) :
    UnusedVault (pairedVault newDevice received vaultId password salt) := by
  refine ⟨⟨rfl, ?_, ?_, ?_, ?_, ?_⟩, ?_, ?_, unused.accounts⟩
  · simp [pairedVault, lockedWith, freshMeta]
  · exact ⟨by simp [pairedVault, lockedWith, unused.vdkChain],
      by simp [pairedVault, lockedWith, unused.vdkChain]⟩
  · simp [pairedVault, lockedWith, readCurrentEpoch, unused.vdkChainState, fitsI64]
  · simpa [pairedVault, lockedWith, freshMeta, VdkKey.wrap] using
      pairedKeys_devices received vaultId password salt unused
  · simp [pairedVault, lockedWith]
  · simp [pairedVault, lockedWith, unused.vdkChain]
  · simp [pairedVault, lockedWith, unused.vdkChainState]

/-- The keyring of a vault that never rotated: one VDK, at epoch 0. -/
def singleKeyring (vdk : VdkKey) (epoch : Nat) : Option VdkKey :=
  if epoch = 0 then some vdk else none

variable {received vaultId password salt}

/-- The joined vault unlocks under every password but the empty one, and then holds the
received VDK. -/
theorem UnusedVault.unlock_joined (unused : UnusedVault newDevice.vault)
    (nonempty : password.bytes ≠ []) {input : UnlockInput} (presence : input.presence = true)
    (samePassword : input.password = password) :
    ∃ unlocked active,
      unlock (pairedVault newDevice received vaultId password salt) input =
        (unlocked, .ok ()) ∧ unlocked.active = some active ∧
      HoldsRing unlocked vaultId (singleKeyring received) := by
  have joined := unused.joined received vaultId password salt
  have sameMeta : (pairedVault newDevice received vaultId password salt).disk.keys.vaultMeta =
      freshMeta vaultId newDevice.vault.vaultMeta.createdAt received password salt := by
    simp [pairedVault, lockedWith]
  have openable : Openable (pairedVault newDevice received vaultId password salt).disk.keys
      input.password := by
    rw [samePassword]
    refine .fresh nonempty sameMeta ?_
    simp [joined.vdkChain]
  obtain ⟨unlocked, active, unlocks, session, -, unlockedMeta, -⟩ :=
    joined.core.unlock_ok openable presence fun chain _ =>
      ⟨⟨[], []⟩, by simp [buildActiveStateData, joined.accounts, hydrateAll]⟩
  obtain ⟨_, _, _, _, _, found⟩ := unlock_eq_ok_iff.mp unlocks
  obtain ⟨core, same⟩ := joined.core.unlocks found
  refine ⟨unlocked, active, unlocks, session, core, ?_, ?_⟩
  · rw [unlockedMeta, joined.core.metaSynced, sameMeta]
    rfl
  · rw [same.keyring]
    funext epoch
    rw [keyring, readCurrentEpoch, joined.vdkChainState, joined.vdkChain, sameMeta]
    rfl

end

/-- A manager that never rotated holds one VDK, at epoch 0. -/
theorem ManagerInv.holdsRing {manager : Session} (inv : ManagerInv manager.vault)
    (neverRotated : readCurrentEpoch manager.vault.disk.keys = 0) :
    HoldsRing manager.vault manager.vault.vaultMeta.vaultId
      (singleKeyring manager.active.vdk) := by
  have held := inv.core.session manager.active manager.holds
  have nothingRetained : manager.vault.disk.keys.vdkChain = [] := by
    apply List.eq_nil_iff_forall_not_mem.mpr
    intro row member
    have earlier := inv.epochs.retained_lt row member
    omega
  refine ⟨inv.core, rfl, ?_⟩
  funext epoch
  rw [keyring, neverRotated, nothingRetained, ← held.vdk]
  rfl

theorem decodeRow_congr {vaultId : VaultId} {vdk vdk' : VdkKey} {chain chain' : VdkChain}
    (same : entryKey vdk chain = entryKey vdk' chain') (row : RevisionRow) :
    decodeRow vaultId vdk chain row = decodeRow vaultId vdk' chain' row := by
  rw [decodeRow, same, ← decodeRow]

/-! ## What the new device reads -/

section

variable (scheme : ShareScheme) (hash : CanonicalHash)

/-- The new device joins with the manager's vault id and current epoch and unlocks; it
decodes every row the manager decodes, to the same content; and the manager holds, at the
epoch tagged, the key of every row the new device seals afterwards. -/
def ReadsAlike (manager newDevice : Session) (envelope : SealedBox) (password : Password)
    (salt : KdfSalt) : Prop :=
  ∃ joined, pairingOpenAndJoin newDevice.vault (.sealedBox envelope)
      ⟨32, manager.vault.vaultMeta.vaultId.raw⟩ (readCurrentEpoch manager.vault.disk.keys)
      password salt = (joined, .ok ()) ∧
    ∀ input : UnlockInput, input.presence = true → input.password = password →
      ∃ unlocked active, unlock joined input = (unlocked, .ok ()) ∧
        unlocked.active = some active ∧
        (∀ row outcome, outcome ≠ .placeholderNonce →
          decodeRow manager.vault.vaultMeta.vaultId manager.active.vdk manager.active.chain row =
            .ok outcome →
          decodeRow unlocked.vaultMeta.vaultId active.vdk active.chain row = .ok outcome) ∧
        ∀ later later' session row payload,
          Reaches (step scheme hash) (fun _ op => op.Ordinary) unlocked later →
          LocalWrite later later' session row payload →
            SealedRow (entryKey manager.active.vdk manager.active.chain)
              manager.vault.vaultMeta.vaultId row session.vdk payload

variable {scheme hash}

/-- The envelope of an honest pairing carries epoch 0. -/
theorem envelope_of_added {manager newDevice : Session} {chain : Chain} {nonce : FreshnessNonce}
    {envelope : SealedBox}
    (added : (vaultAddDevice manager.vault chain
      (.fromPayload (newDevice.payload nonce))).result = .ok envelope) :
    envelope = sealVdkToDevice manager.active.vdk newDevice.pairingPub
      manager.vault.vaultMeta.vaultId newDevice.deviceKey.deviceId 0 := by
  have accepted : acceptPayload (.fromPayload (newDevice.payload nonce)) =
      .ok (newDevice.payload nonce) :=
    acceptPayload_eq_ok_iff.mpr ⟨newDevice.toPayload_payload nonce, rfl⟩
  cases vaultAddDevice_adds manager.holds accepted chain with
  | stopped error outcome | refused nonce outcome =>
      rw [outcome] at added
      cases added
  | added nonce outcome =>
      rw [outcome] at added
      exact (Except.ok.inj added).symm

/-- The join goes through exactly at epoch 0. -/
theorem pairingOpenAndJoin_eq (newDevice : Session) (vdk : VdkKey) (vaultId : VaultId)
    (epoch : Nat) (password : Password) (salt : KdfSalt) :
    pairingOpenAndJoin newDevice.vault
        (.sealedBox (sealVdkToDevice vdk newDevice.pairingPub vaultId
          newDevice.deviceKey.deviceId 0)) ⟨32, vaultId.raw⟩ epoch password salt =
      if epoch = 0 then (pairedVault newDevice vdk vaultId password salt, .ok ())
      else (newDevice.vault, .error (.store .authenticationFailed)) := by
  by_cases genesis : epoch = 0
  · simp [pairingOpenAndJoin, fixedBytes, newDevice.isActive, openPairedVdkSeal, newDevice.holds,
      openVdkFromPairing, sealVdkToDevice, SealedBox.unseal, Session.pairingPub,
      Session.deviceKey, genesis, installPairedVdk_eq]
  · have differs : ¬ 0 = epoch := fun same => genesis same.symm
    simp [pairingOpenAndJoin, fixedBytes, newDevice.isActive, openPairedVdkSeal, newDevice.holds,
      openVdkFromPairing, sealVdkToDevice, SealedBox.unseal, Session.pairingPub,
      Session.deviceKey, genesis, differs]

/-- For every manager reached by edits, onboardings and rotations and every new device
with an unused vault: the new device reads what the manager reads exactly when the manager
never rotated and the password chosen on the new device is not empty. -/
theorem paired_device_reads_iff {managerPassword newPassword : Password}
    {managerDraw newDraw : CreateDraw} {manager newDevice : Session}
    (managed : Reaches (step scheme hash) Manages (create managerPassword managerDraw)
      manager.vault)
    (unused : Reaches (step scheme hash) AwaitsPairing (create newPassword newDraw)
      newDevice.vault)
    {chain : Chain} {nonce : FreshnessNonce} {envelope : SealedBox}
    (added : (vaultAddDevice manager.vault chain
      (.fromPayload (newDevice.payload nonce))).result = .ok envelope)
    (password : Password) (salt : KdfSalt) :
    ReadsAlike scheme hash manager newDevice envelope password salt ↔
      readCurrentEpoch manager.vault.disk.keys = 0 ∧ password.bytes ≠ [] := by
  have inv := managed.invariant ManagerInv (fun _ _ inv manages => inv.step manages)
    ⟨.create managerPassword managerDraw, .create managerPassword managerDraw⟩
  have fresh := unused.invariant UnusedVault (fun _ _ unused awaits => unused.step awaits)
    (.create newPassword newDraw)
  obtain rfl := envelope_of_added added
  unfold ReadsAlike
  rw [pairingOpenAndJoin_eq]
  constructor
  · rintro ⟨joined, joins, reads⟩
    split at joins
    · next neverRotated =>
        refine ⟨neverRotated, ?_⟩
        intro empty
        -- Nothing opens under an empty password.
        obtain ⟨unlocked, active, unlocks, -⟩ :=
          reads ⟨true, password, newDevice.deviceKey, 0⟩ rfl rfl
        obtain ⟨_, _, _, _, _, found⟩ := unlock_eq_ok_iff.mp unlocks
        obtain ⟨nonempty, -⟩ := openKeys_eq_ok_iff.mp found.opened
        exact nonempty empty
    · cases joins
  · rintro ⟨neverRotated, nonempty⟩
    rw [if_pos neverRotated]
    have managerHolds := inv.holdsRing neverRotated
    refine ⟨_, rfl, ?_⟩
    intro input presence samePassword
    obtain ⟨unlocked, active, unlocks, session, holds⟩ :=
      fresh.unlock_joined nonempty presence samePassword
    refine ⟨unlocked, active, unlocks, session, ?_, ?_⟩
    · intro row outcome _ decoded
      have sameKeys := (holds.selects session).trans (managerHolds.selects manager.holds).symm
      rw [holds.vaultId, decodeRow_congr sameKeys]
      exact decoded
    · intro later later' writer row payload run wrote
      have laterHolds := run.invariant
        (fun vault => HoldsRing vault manager.vault.vaultMeta.vaultId
          (singleKeyring manager.active.vdk))
        (fun _ _ holds ordinary => holds.effect (ordinary_effect scheme hash _ ordinary)) holds
      rw [managerHolds.selects manager.holds]
      exact laterHolds.write wrote

end

/-! ## Before and after a rotation -/

namespace PairingSample

/-- An account and a guardian set, before any rotation. -/
def managerOps : List Op :=
  [Sample.unlock ⟨[1]⟩, Sample.add 1 1, Sample.onboard]

/-- Then a rotation, and the session after it. -/
def rotatedOps : List Op :=
  managerOps ++ [Sample.directory, Sample.rotate 8 9 ⟨[2]⟩, Sample.unlock ⟨[2]⟩]

def manager : Session where
  vault := Sample.run Sample.vault managerOps
  active := ⟨⟨2⟩, ⟨[], 0⟩, [(⟨1⟩, Sample.identity)], Sample.device, []⟩
  isActive := by decide
  holds := by decide

def rotated : Session where
  vault := Sample.run Sample.vault rotatedOps
  active := ⟨⟨8⟩, ⟨[(0, ⟨2⟩)], 1⟩, [(⟨1⟩, Sample.identity)], Sample.device, []⟩
  isActive := by decide
  holds := by decide

def newDeviceOps : List Op :=
  [.unlock ⟨true, ⟨[3]⟩, Ffi.Sample.newDeviceKey, 0⟩]

/-- The second device of the pairing samples. -/
def newDevice : Session where
  vault := Sample.run (create ⟨[3]⟩ ⟨⟨8⟩, ⟨4⟩, ⟨5⟩, ⟨6⟩, 0⟩) newDeviceOps
  active := ⟨⟨5⟩, ⟨[], 0⟩, [], Ffi.Sample.newDeviceKey, []⟩
  isActive := by decide
  holds := by decide

/-- A chain on which every transaction lands. -/
def chain : Chain := ⟨true, fun _ => some 1, fun _ => true⟩

/-- The envelope for the new device. -/
def envelope (vdk : VdkKey) : SealedBox :=
  sealVdkToDevice vdk newDevice.pairingPub ⟨7⟩ newDevice.deviceKey.deviceId 0

end PairingSample

/-- A manager that never rotated. -/
theorem paired_device_reads_unrotated :
    ReadsAlike countingScheme Sample.hash PairingSample.manager PairingSample.newDevice
      (PairingSample.envelope ⟨2⟩) ⟨[4]⟩ ⟨60⟩ := by
  have managed : Reaches (step countingScheme Sample.hash) Manages Sample.vault
      PairingSample.manager.vault :=
    .foldl PairingSample.managerOps ⟨trivial, trivial, trivial, trivial⟩
  have unused : Reaches (step countingScheme Sample.hash) AwaitsPairing
      (create ⟨[3]⟩ ⟨⟨8⟩, ⟨4⟩, ⟨5⟩, ⟨6⟩, 0⟩) PairingSample.newDevice.vault :=
    .foldl PairingSample.newDeviceOps ⟨trivial, trivial⟩
  have added : (vaultAddDevice PairingSample.manager.vault PairingSample.chain
      (.fromPayload (PairingSample.newDevice.payload ⟨7⟩))).result =
        .ok (PairingSample.envelope ⟨2⟩) := rfl
  exact (paired_device_reads_iff managed unused added ⟨[4]⟩ ⟨60⟩).mpr (by decide)

/-- After one rotation the new device cannot join with the current epoch, while the
manager still adds it and reads its own rows. -/
theorem rotated_manager_pairs_in_vain :
    Reaches (step countingScheme Sample.hash) Manages Sample.vault PairingSample.rotated.vault ∧
      (vaultAddDevice PairingSample.rotated.vault PairingSample.chain
        (.fromPayload (PairingSample.newDevice.payload ⟨7⟩))).result =
          .ok (PairingSample.envelope ⟨8⟩) ∧
      ¬ ReadsAlike countingScheme Sample.hash PairingSample.rotated PairingSample.newDevice
        (PairingSample.envelope ⟨8⟩) ⟨[4]⟩ ⟨60⟩ := by
  refine ⟨.foldl PairingSample.rotatedOps ?_, rfl, ?_⟩
  · exact ⟨trivial, trivial, trivial, trivial, trivial, trivial, trivial⟩
  · rintro ⟨joined, joins, -⟩
    have failed : (pairingOpenAndJoin PairingSample.newDevice.vault
        (.sealedBox (PairingSample.envelope ⟨8⟩))
        ⟨32, PairingSample.rotated.vault.vaultMeta.vaultId.raw⟩
        (readCurrentEpoch PairingSample.rotated.vault.disk.keys) ⟨[4]⟩ ⟨60⟩).2 =
          .error (.store .authenticationFailed) := by decide
    rw [joins] at failed
    cases failed

end Pangolin
