import Pangolin.Runs.KeyInvariant

/-!
# Which device a file belongs to

Unlock takes the oldest row of the device table for the local device, and opens the
sealed seed under that row's id.  Chain sync inserts rows into the same table, stamped
with the wall clock.  The election finds the local device as long as every such row comes
after the local one in the order of the table; a clock that stands still or goes back
lets a peer in front of it.
-/

namespace Pangolin

open Symbolic Crypto Store Pangolin.Core Transition

/-- A call on the vault, or a signer discovered by chain sync. -/
inductive ElectionOp where
  | call (op : Op)
  | discovered (signer : EvmAddress) (block : Nat) (nowMs : Int)

section

variable (scheme : ShareScheme) (hash : CanonicalHash)

def electionStep (vault : Vault) : ElectionOp → Vault
  | .call op => step scheme hash vault op
  | .discovered signer block nowMs =>
      match autoRegisterDeviceFromChainSync vault.disk.keys signer block nowMs with
      | .ok (keys, _) => { vault with disk := { vault.disk with keys } }
      | .error _ => vault

end

/-- The local device is registered, and a discovered row either comes after it or has an
id that is already there. -/
def LocalFirst (vault : Vault) : ElectionOp → Prop
  | .call _ => True
  | .discovered signer _ nowMs => ∃ row ∈ electDevice vault.disk.keys.devices,
      row.before (discoveredRow signer nowMs) = true ∨
        ∃ old ∈ vault.disk.keys.devices, old.deviceId = ⟨signer.raw⟩

/-- The elected device is the one whose seed is sealed, and the seed loads under the key
and the vault it was sealed for. -/
def ElectionStable (keys : KeyTables) : Prop :=
  readRegisteredDeviceId keys = keys.deviceKey.map (fun enc => enc.context.2) ∧
    ∀ enc, keys.deviceKey = some enc → ∀ generated nowMs, ∃ loaded,
      loadOrRegisterDevice keys enc.context.1 enc.key generated nowMs = .ok loaded

/-! ## The invariant -/

structure ElectInv (vault : Vault) : Prop where
  unique : (vault.disk.keys.devices.map DeviceRow.deviceId).Nodup
  unregistered : vault.disk.keys.deviceKey = none → vault.disk.keys.devices = []
  registered : ∀ enc, vault.disk.keys.deviceKey = some enc →
    enc.context.2 = enc.msg.deviceId ∧
      ∃ row, electDevice vault.disk.keys.devices = some row ∧
        row.deviceId = enc.msg.deviceId ∧ row.evmAddress = some enc.msg.evmAddress
  session : ∀ active, vault.active = some active →
    ∃ enc, vault.disk.keys.deviceKey = some enc ∧ enc.msg = active.deviceKey

section

variable {vault vault' : Vault}

theorem ElectInv.create (password : Password) (draw : CreateDraw) :
    ElectInv (create password draw) where
  unique := List.nodup_nil
  unregistered := fun _ => rfl
  registered := by simp [Store.create]
  session := by simp [Store.create]

/-- A call that leaves the device tables alone and opens no session. -/
theorem ElectInv.frame (inv : ElectInv vault)
    (devices : vault'.disk.keys.devices = vault.disk.keys.devices)
    (deviceKey : vault'.disk.keys.deviceKey = vault.disk.keys.deviceKey)
    (active : ∀ session, vault'.active = some session →
      ∃ before, vault.active = some before ∧ session.deviceKey = before.deviceKey) :
    ElectInv vault' := by
  constructor
  · rw [devices]
    exact inv.unique
  · rw [devices, deviceKey]
    exact inv.unregistered
  · rw [devices, deviceKey]
    exact inv.registered
  · intro session opened
    obtain ⟨before, was, same⟩ := active session opened
    rw [deviceKey, same]
    exact inv.session before was

theorem ElectInv.locked (inv : ElectInv vault)
    (devices : vault'.disk.keys.devices = vault.disk.keys.devices)
    (deviceKey : vault'.disk.keys.deviceKey = vault.disk.keys.deviceKey)
    (locked : vault'.active = none) : ElectInv vault' := by
  apply inv.frame devices deviceKey
  intro session opened
  rw [locked] at opened
  cases opened

/-- Re-sealing the session's own seed. -/
theorem ElectInv.reseal {active : ActiveState} {vaultId : VaultId} {vdk : VdkKey}
    {keys : KeyTables} (inv : ElectInv vault) (session : vault.active = some active)
    (resealed : vault'.disk.keys = resealDeviceKey keys vaultId vdk active.deviceKey)
    (devices : keys.devices = vault.disk.keys.devices)
    (deviceKey : keys.deviceKey = vault.disk.keys.deviceKey)
    (locked : vault'.active = none) : ElectInv vault' := by
  obtain ⟨enc, stored, same⟩ := inv.session active session
  have keys' : vault'.disk.keys =
      { keys with deviceKey := some (sealDeviceKey vaultId vdk active.deviceKey) } := by
    rw [resealed, resealDeviceKey, deviceKey, stored]
  rw [← same] at keys'
  constructor
  · rw [keys', devices]
    exact inv.unique
  · rw [keys']
    simp
  · rw [keys', devices]
    intro stored' equal
    obtain rfl := Option.some.inj equal
    exact ⟨rfl, (inv.registered enc stored).2⟩
  · rw [locked]
    simp

/-- Loading a device whose address is on file changes no table. -/
theorem loadOrRegisterDevice_elected {keys keys' : KeyTables} {vaultId : VaultId} {vdk : VdkKey}
    {generated key : DeviceKey} {nowMs : Int} {row : DeviceRow}
    (unique : (keys.devices.map DeviceRow.deviceId).Nodup)
    (elected : electDevice keys.devices = some row) (address : row.evmAddress.isSome = true)
    (loaded : loadOrRegisterDevice keys vaultId vdk generated nowMs = .ok (key, keys')) :
    keys' = keys ∧ keys.deviceKey = some (sealDeviceKey vaultId vdk key) := by
  simp only [loadOrRegisterDevice, readRegisteredDeviceId, elected, Option.map_some] at loaded
  obtain ⟨found, opened, equal⟩ := Fallible.bind_eq_ok_iff.mp loaded
  cases found with
  | none => cases equal
  | some result =>
      obtain rfl := Except.ok.inj equal
      obtain ⟨-, stored, backfilled⟩ := loadDeviceKeyWithId_eq_ok_iff.mp opened
      refine ⟨?_, stored⟩
      have listed := Table.lookup_eq_some_of_mem DeviceRow.deviceId unique (electDevice_mem elected)
      obtain ⟨cached, isCached⟩ := Option.isSome_iff_exists.mp address
      simp only [backfillEvmAddress, listed, Option.bind_some, isCached] at backfilled
      split at backfilled
      · exact (Except.ok.inj backfilled).symm
      · cases backfilled

/-- An unlock loads the seed it finds, or registers the first device. -/
theorem ElectInv.unlocks {input : UnlockInput} {vdk : VdkKey} {chain : VdkChain}
    {data : ActiveStateData} {deviceKey : DeviceKey} {keys : KeyTables} (inv : ElectInv vault)
    (found : Unlocks vault input vault' vdk chain data deviceKey keys) : ElectInv vault' := by
  obtain ⟨-, -, -, device, rfl⟩ := found
  cases sealed : vault.disk.keys.deviceKey with
  | none =>
      have empty := inv.unregistered sealed
      simp only [loadOrRegisterDevice, readRegisteredDeviceId, empty, electDevice,
        Option.map_none] at device
      obtain ⟨rfl, rfl⟩ := Prod.mk.inj (Except.ok.inj device)
      have devices : (registerDevice vault.disk.keys vault.vaultMeta.vaultId vdk input.generated
          "This device" input.now).devices =
          [⟨input.generated.deviceId, "This device", input.now, some input.generated.evmAddress,
            false⟩] := by
        simp [registerDevice, empty, Table.upsert]
      constructor
      · simp only [devices]
        exact List.nodup_singleton _
      · intro none
        cases none
      · intro enc stored
        obtain rfl := Option.some.inj stored
        simp only [devices]
        exact ⟨rfl, _, rfl, rfl, rfl⟩
      · intro active opened
        obtain rfl := Option.some.inj opened
        exact ⟨_, rfl, rfl⟩
  | some enc =>
      obtain ⟨-, row, elected, -, address⟩ := inv.registered enc sealed
      obtain ⟨rfl, stored⟩ := loadOrRegisterDevice_elected inv.unique elected
        (by rw [address]; rfl) device
      exact ⟨inv.unique, inv.unregistered, inv.registered, by
        intro active opened
        obtain rfl := Option.some.inj opened
        exact ⟨_, stored, rfl⟩⟩

/-- Inserting a row that comes after the elected one keeps the election and the unique
ids. -/
theorem electDevice_insertIgnore {rows : List DeviceRow} {row peer : DeviceRow}
    (unique : (rows.map DeviceRow.deviceId).Nodup) (elected : electDevice rows = some row)
    (order : row.before peer = true ∨ ∃ old ∈ rows, old.deviceId = peer.deviceId) :
    ((Table.insertIgnore DeviceRow.deviceId rows peer).map DeviceRow.deviceId).Nodup ∧
      electDevice (Table.insertIgnore DeviceRow.deviceId rows peer) = some row := by
  unfold Table.insertIgnore
  split
  · exact ⟨unique, elected⟩
  · next absent =>
      have fresh : ∀ old ∈ rows, old.deviceId ≠ peer.deviceId := by
        intro old member same
        exact absent (List.any_eq_true.mpr ⟨old, member, by simpa using same⟩)
      have unique' : ((rows ++ [peer]).map DeviceRow.deviceId).Nodup := by
        rw [List.map_append, List.map_singleton]
        refine unique.append (List.nodup_singleton _) ?_
        intro deviceId inOld inNew
        obtain ⟨old, member, rfl⟩ := List.mem_map.mp inOld
        exact fresh old member (List.mem_singleton.mp inNew)
      refine ⟨unique', electDevice_eq_some unique' ?_ ?_⟩
      · exact List.mem_append_left _ (electDevice_mem elected)
      · intro other member
        rcases List.mem_append.mp member with old | new
        · exact electDevice_before elected old
        · rw [List.mem_singleton.mp new]
          rcases order with after | ⟨old, listed, same⟩
          · exact after
          · exact absurd same (fresh old listed)

/-- A discovered peer that comes after the local device. -/
theorem ElectInv.discovered {scheme : ShareScheme} {hash : CanonicalHash} {signer : EvmAddress}
    {block : Nat} {nowMs : Int} (inv : ElectInv vault)
    (first : LocalFirst vault (.discovered signer block nowMs)) :
    ElectInv (electionStep scheme hash vault (.discovered signer block nowMs)) := by
  obtain ⟨row, elected, order⟩ := first
  simp only [Option.mem_def] at elected
  simp only [electionStep, autoRegisterDeviceFromChainSync]
  split
  · next done =>
      split at done
      · cases done
      · obtain ⟨rfl, -⟩ := Prod.mk.inj (Except.ok.inj done)
        obtain ⟨unique, stays⟩ := electDevice_insertIgnore inv.unique elected order
        refine ⟨unique, ?_, ?_, inv.session⟩
        · intro none
          rw [electDevice_eq_none_iff.mpr (inv.unregistered none)] at elected
          cases elected
        · intro enc stored
          obtain ⟨context, winner, won, sameId, address⟩ := inv.registered enc stored
          rw [elected] at won
          obtain rfl := Option.some.inj won
          exact ⟨context, row, stays, sameId, address⟩
  · exact inv

theorem ElectInv.effect (inv : ElectInv vault) (effect : Effect vault vault') :
    ElectInv vault' := by
  cases effect with
  | rest vaultMeta keys accounts revisions active =>
      apply inv.frame (by rw [keys]) (by rw [keys])
      intro session opened
      rcases active with same | locked
      · exact ⟨session, same ▸ opened, rfl⟩
      · rw [locked] at opened
        cases opened
  | wrote active row payload wrote =>
      apply inv.frame (by rw [wrote.disk]) (by rw [wrote.disk])
      intro session opened
      obtain ⟨after, is, -, -, same⟩ := wrote.active'
      rw [is] at opened
      obtain rfl := Option.some.inj opened
      exact ⟨active, wrote.session, same⟩
  | unlocked input vdk chain data deviceKey keys found => exact inv.unlocks found

theorem ElectInv.logOnly (inv : ElectInv vault) (call : LogOnly vault vault') :
    ElectInv vault' := by
  apply inv.frame (by rw [call.keys]) (by rw [call.keys])
  intro session opened
  rcases call.active with same | locked
  · exact ⟨session, same ▸ opened, rfl⟩
  · rw [locked] at opened
    cases opened

/-- A recovery leaves the device tables alone and locks the vault. -/
theorem ElectInv.recovered (inv : ElectInv vault) (recovered : VdkKey) (password : Password)
    (salt : KdfSalt) (escrow : EscrowTables) :
    ElectInv (lockedWith vault (recoveredDisk vault recovered password salt escrow)) :=
  inv.locked rfl rfl rfl

theorem ElectInv.rotated {commit : RotationCommit} (inv : ElectInv vault) :
    ElectInv (commitVdkRotationFromActive vault commit).1 := by
  cases committed : commitVdkRotationFromActive vault commit with
  | mk vault' result =>
      cases result with
      | error error =>
          rcases commitVdkRotationFromActive_error committed with rfl | rfl
          · exact inv
          · exact inv.locked rfl rfl rfl
      | ok value =>
          obtain ⟨active, disk, session, transacted, rfl⟩ :=
            commitVdkRotationFromActive_eq_ok_iff.mp committed
          obtain ⟨-, -, escrow, -, rfl⟩ := rotationTx_eq_ok_iff.mp transacted
          exact inv.reseal session rfl rfl rfl rfl

/-- Every call keeps the invariant. -/
theorem ElectInv.step {scheme : ShareScheme} {hash : CanonicalHash} (inv : ElectInv vault)
    (op : Op) : ElectInv (step scheme hash vault op) := by
  have ordinary := fun holds : op.Ordinary => inv.effect (ordinary_effect scheme hash vault holds)
  cases op with
  | recoverWithNewPassword recovered password salt =>
      exact inv.recovered recovered password salt vault.disk.escrow
  | commitRecoveryRekey recovered password salt reSplit =>
      rcases commitRecoveryRekey_cases vault recovered password salt reSplit with
        ⟨error, failed⟩ | ⟨escrow, -, result⟩
      · rw [Pangolin.step, failed]
        exact inv
      · rw [Pangolin.step, result]
        exact inv.recovered recovered password salt escrow
  | recoverFromShares input =>
      rcases recoverFromShares_cases scheme vault input with
        unchanged | ⟨recovered, escrow, result⟩
      · rw [Pangolin.step, unchanged]
        exact inv
      · rw [Pangolin.step, result]
        exact inv.recovered recovered input.password input.salt escrow
  | commitVdkRotationFromActive commit => exact inv.rotated
  | completeRotation password onchain draw =>
      rcases completeRotation_cases scheme vault password onchain draw with
        ⟨⟨disk, -, active⟩, -⟩ | ⟨active, commit, escrow, deviceSet, session, -, -, -, result⟩
      · apply inv.frame (by rw [Pangolin.step, disk]) (by rw [Pangolin.step, disk])
        intro session opened
        rcases active with same | locked
        · exact ⟨session, same ▸ opened, rfl⟩
        · rw [Pangolin.step, locked] at opened
          cases opened
      · rw [Pangolin.step, result]
        exact inv.reseal session rfl rfl rfl rfl
  | installPairedVdk received vaultId password salt =>
      rcases withActive_cases vault _ with
        ⟨error, failed⟩ | ⟨active, vault', value, session, done, result⟩
      · rw [Pangolin.step, installPairedVdk, failed]
        exact inv
      · rw [Pangolin.step, installPairedVdk, result]
        obtain ⟨rfl, -⟩ := Prod.mk.inj (Except.ok.inj done)
        exact inv.reseal session rfl rfl rfl rfl
  | markPublished revisionId anchor now =>
      exact inv.logOnly (markPublished_logOnly vault revisionId anchor now)
  | ingestPending event observedAtBlock observedBlockHash nowMs now =>
      exact inv.logOnly (ingestPending_logOnly hash vault event observedAtBlock observedBlockHash
        nowMs now)
  | promoteFinalized head => exact inv.logOnly (promoteFinalized_logOnly vault head)
  | rollbackPending low high => exact inv.logOnly (rollbackPending_logOnly vault low high)
  | _ => exact ordinary trivial

/-- The invariant makes the election right. -/
theorem ElectInv.stable (inv : ElectInv vault) : ElectionStable vault.disk.keys := by
  constructor
  · cases sealed : vault.disk.keys.deviceKey with
    | none =>
        rw [readRegisteredDeviceId, electDevice_eq_none_iff.mpr (inv.unregistered sealed)]
        rfl
    | some enc =>
        obtain ⟨context, row, elected, sameId, -⟩ := inv.registered enc sealed
        rw [readRegisteredDeviceId, elected, Option.map_some, Option.map_some, sameId, context]
  · intro enc stored generated nowMs
    obtain ⟨context, row, elected, sameId, address⟩ := inv.registered enc stored
    apply (loadOrRegisterDevice_succeeds_iff _ _ _ generated nowMs).mpr
    refine .inr ⟨row, enc.msg, elected, sameId.symm, ?_, ?_⟩
    · rw [stored, sealDeviceKey, ← context]
    · intro cached found
      rw [Table.lookup_eq_some_of_mem DeviceRow.deviceId inv.unique (electDevice_mem elected),
        Option.bind_some, address] at found
      exact (Option.some.inj found).symm


end

/-- In every run in which chain sync registers peers only behind the local device, the
election returns the device whose seed is sealed, and its seed loads. -/
theorem election_stable {scheme : ShareScheme} {hash : CanonicalHash} {password : Password}
    {draw : CreateDraw} {vault : Vault}
    (run : Reaches (electionStep scheme hash) LocalFirst (create password draw) vault) :
    ElectionStable vault.disk.keys := by
  apply ElectInv.stable
  apply run.invariant ElectInv
  · intro state op inv first
    cases op with
    | call op => exact inv.step op
    | discovered signer block nowMs => exact inv.discovered first
  · exact .create password draw

namespace Sample

def election (ops : List ElectionOp) : Vault := ops.foldl (electionStep countingScheme hash) vault

end Sample

/-- A peer discovered a millisecond after the registration. -/
theorem election_stable_later :
    ElectionStable (Sample.election [.call (Sample.unlock ⟨[1]⟩),
      .discovered ⟨5⟩ 100 1]).disk.keys := by
  apply election_stable
  apply Reaches.foldl
  refine ⟨trivial, ?_, trivial⟩
  exact ⟨⟨⟨11⟩, "This device", 0, some ⟨12⟩, false⟩, by decide +kernel, .inl (by decide)⟩

/-- A peer discovered in the millisecond of the registration comes first: its padded
address is the smaller id. -/
theorem peer_elected :
    ¬ ∀ ops : List ElectionOp, ElectionStable (Sample.election ops).disk.keys := by
  intro always
  have elected := (always [.call (Sample.unlock ⟨[1]⟩), .discovered ⟨5⟩ 100 0]).1
  exact absurd elected (by decide +kernel)

end Pangolin
