import Pangolin.Store.Rekey

/-!
# The keyring of a file

Abstractly, a vault file holds one VDK per epoch.  The current epoch's is the one the
meta row wraps, a retained epoch's the one its chain row wraps.  The keyring is that
map, read off the stored wrappers without any password.

An unlocked session refines it: the key the session selects for an epoch is the
keyring's.  A rotation extends it at the new epoch and changes no other entry.
-/

namespace Pangolin.Store

open Symbolic Crypto

/-- The VDK a file holds for an epoch. -/
def keyring (keys : KeyTables) (epoch : Nat) : Option VdkKey :=
  if epoch = readCurrentEpoch keys then
    some keys.vaultMeta.wrapped.msg
  else
    (Table.lookup RetainedEpoch.epoch keys.vdkChain epoch).map fun row => row.anchor.msg

@[simp] theorem keyring_current (keys : KeyTables) :
    keyring keys (readCurrentEpoch keys) = some keys.vaultMeta.wrapped.msg :=
  if_pos rfl

/-- A chain as the rotations build it: one row per epoch, never the current one. -/
structure ChainShape (keys : KeyTables) : Prop where
  unique : (keys.vdkChain.map RetainedEpoch.epoch).Nodup
  retired : ∀ row ∈ keys.vdkChain, row.epoch ≠ readCurrentEpoch keys

/-- The keyring depends on the meta row, the chain and the pointer only. -/
theorem keyring_congr {keys keys' : KeyTables} (sameMeta : keys'.vaultMeta = keys.vaultMeta)
    (sameChain : keys'.vdkChain = keys.vdkChain)
    (sameState : keys'.vdkChainState = keys.vdkChainState) : keyring keys' = keyring keys := by
  funext epoch
  unfold keyring readCurrentEpoch
  rw [sameMeta, sameChain, sameState]

/-! ## What an unlock derives -/

/-- A password opens the keys exactly when it is not empty, it unwraps the meta row,
and the authority it derives opens every retained anchor. -/
theorem openKeys_eq_ok_iff {keys : KeyTables} {vaultMeta : VaultMeta} {password : Password}
    {vdk : VdkKey} {chain : VdkChain} :
    openKeys keys vaultMeta password = .ok (vdk, chain) ↔
      password.bytes ≠ [] ∧ vaultMeta.kdfParams.validate = true ∧
        vaultMeta.wrapped.key = ⟨password, vaultMeta.kdfSalt, vaultMeta.kdfParams⟩ ∧
        vaultMeta.wrapped.context = vaultMeta.wrapContext ∧ vaultMeta.wrapped.msg = vdk ∧
        buildOnUnlock keys vaultMeta.vaultId
          ⟨password, vaultMeta.kdfSalt, vaultMeta.kdfParams⟩ = .ok chain := by
  unfold openKeys deriveAuthority
  by_cases empty : password.bytes = []
  · simp [empty]
  · by_cases valid : vaultMeta.kdfParams.validate = true
    · simp only [List.isEmpty_iff, empty, valid, if_false, if_true, ne_eq, not_false_eq_true,
        true_and]
      cases opened : unwrapWith vaultMeta.wrapped vaultMeta.wrapContext
          ⟨password, vaultMeta.kdfSalt, vaultMeta.kdfParams⟩ with
      | none =>
          simp only [reduceCtorEq, false_iff]
          rintro ⟨sameKey, sameContext, sameMsg, -⟩
          rw [(unwrapWith_eq_some_iff _ _ _ _).mpr ⟨sameKey, sameContext, sameMsg⟩] at opened
          cases opened
      | some opened' =>
          obtain ⟨sameKey, sameContext, sameMsg⟩ := (unwrapWith_eq_some_iff _ _ _ _).mp opened
          simp only [Fallible.bind_eq_ok_iff, sameKey, sameContext, sameMsg, true_and]
          constructor
          · rintro ⟨chain', built, equal⟩
            obtain ⟨rfl, rfl⟩ := Prod.mk.inj (Except.ok.inj equal)
            exact ⟨rfl, built⟩
          · rintro ⟨rfl, built⟩
            exact ⟨chain, built, rfl⟩
    · simp [empty, valid]

/-- A rebuilt chain points at the stored epoch. -/
theorem currentEpoch_of_buildOnUnlock {keys : KeyTables} {vaultId : VaultId}
    {authority : AuthorityKey} {chain : VdkChain}
    (built : buildOnUnlock keys vaultId authority = .ok chain) :
    chain.currentEpoch = readCurrentEpoch keys := by
  obtain ⟨-, rfl⟩ := (buildOnUnlock_eq_ok_iff keys chain).mp built
  rfl

/-- The session's key selection refines the keyring. -/
theorem entryKey_eq_keyring {keys : KeyTables} (shape : ChainShape keys)
    {password : Password} {vdk : VdkKey} {chain : VdkChain}
    (opened : openKeys keys keys.vaultMeta password = .ok (vdk, chain)) (epoch : Nat) :
    entryKey vdk chain epoch = keyring keys epoch := by
  obtain ⟨-, -, -, -, rfl, built⟩ := openKeys_eq_ok_iff.mp opened
  unfold entryKey keyring
  rw [currentEpoch_of_buildOnUnlock built]
  by_cases current : epoch = readCurrentEpoch keys
  · rw [if_pos current, if_pos current]
  · rw [if_neg current, if_neg current]
    cases found : Table.lookup RetainedEpoch.epoch keys.vdkChain epoch with
    | some row =>
        obtain rfl := Table.key_of_lookup found
        exact aeadForEpoch_of_buildOnUnlock built shape.unique (Table.mem_of_lookup found) current
    | none =>
        obtain ⟨-, rfl⟩ := (buildOnUnlock_eq_ok_iff keys chain).mp built
        have absent := Table.lookup_eq_none_iff.mp found
        simp only [VdkChain.aeadForEpoch, Option.map_none, Option.map_eq_none_iff,
          List.find?_eq_none, List.mem_map, List.mem_filter, decide_eq_true_eq]
        rintro entry ⟨row, ⟨member, -⟩, rfl⟩
        exact absent row member

/-! ## Passwords that open -/

/-- The password derives the authority of the meta row and of every retained anchor. -/
structure Openable (keys : KeyTables) (password : Password) : Prop where
  nonempty : password.bytes ≠ []
  params : keys.vaultMeta.kdfParams = .recommended
  context : keys.vaultMeta.wrapped.context = keys.vaultMeta.wrapContext
  wrapped : keys.vaultMeta.wrapped.key = ⟨password, keys.vaultMeta.kdfSalt, .recommended⟩
  anchors : ∀ row ∈ keys.vdkChain, row.OpensUnder keys.vaultMeta.vaultId
    ⟨password, keys.vaultMeta.kdfSalt, .recommended⟩

theorem Openable.congr {keys keys' : KeyTables} {password : Password}
    (openable : Openable keys password) (sameMeta : keys'.vaultMeta = keys.vaultMeta)
    (sameChain : keys'.vdkChain = keys.vdkChain) : Openable keys' password where
  nonempty := openable.nonempty
  params := by rw [sameMeta]; exact openable.params
  context := by rw [sameMeta]; exact openable.context
  wrapped := by rw [sameMeta]; exact openable.wrapped
  anchors := by rw [sameMeta, sameChain]; exact openable.anchors

/-- A fresh meta row opens under its password when there is nothing retained. -/
theorem Openable.fresh {keys : KeyTables} {vaultId : VaultId} {createdAt : Int} {vdk : VdkKey}
    {password : Password} {salt : KdfSalt} (nonempty : password.bytes ≠ [])
    (sameMeta : keys.vaultMeta = freshMeta vaultId createdAt vdk password salt)
    (anchors : ∀ row ∈ keys.vdkChain, row.OpensUnder vaultId ⟨password, salt, .recommended⟩) :
    Openable keys password where
  nonempty
  params := by rw [sameMeta]; rfl
  context := by rw [sameMeta]; rfl
  wrapped := by rw [sameMeta]; rfl
  anchors := by rw [sameMeta]; exact anchors

theorem Openable.openKeys {keys : KeyTables} {password : Password}
    (openable : Openable keys password) :
    ∃ chain, openKeys keys keys.vaultMeta password =
      .ok (keys.vaultMeta.wrapped.msg, chain) := by
  refine ⟨⟨_, _⟩, openKeys_eq_ok_iff.mpr ⟨openable.nonempty, ?_, ?_, openable.context, rfl,
    (buildOnUnlock_eq_ok_iff keys _).mpr ⟨?_, rfl⟩⟩⟩
  · rw [openable.params]
    rfl
  · rw [openable.params]
    exact openable.wrapped
  · rw [openable.params]
    exact fun row member _ => openable.anchors row member

/-! ## Unlock, taken apart -/

/-- Everything a successful unlock found and wrote. -/
structure Unlocks (vault : Vault) (input : UnlockInput) (vault' : Vault) (vdk : VdkKey)
    (chain : VdkChain) (data : ActiveStateData) (deviceKey : DeviceKey) (keys : KeyTables) :
    Prop where
  presence : input.presence = true
  opened : openKeys vault.disk.keys vault.vaultMeta input.password = .ok (vdk, chain)
  hydrated : buildActiveStateData vault.disk.log vault.vaultMeta.vaultId vdk chain = .ok data
  device : loadOrRegisterDevice vault.disk.keys vault.vaultMeta.vaultId vdk input.generated
    input.now = .ok (deviceKey, keys)
  result : vault' = { vault with
    disk := { vault.disk with keys }
    deviceId := deviceKey.deviceId
    session := .active (nextIdleDeadline input.now input.now vault.sessionIdle)
      input.now input.now
    active := some ⟨vdk, chain, data.cache, deviceKey, data.requiresUpgrade⟩ }

theorem unlock_eq_ok_iff {vault vault' : Vault} {input : UnlockInput} :
    unlock vault input = (vault', .ok ()) ↔
      ∃ vdk chain data deviceKey keys,
        Unlocks vault input vault' vdk chain data deviceKey keys := by
  constructor
  · intro unlocked
    unfold unlock atomically at unlocked
    split at unlocked
    · next after value tried =>
        obtain ⟨rfl, -⟩ := Prod.mk.inj unlocked
        unfold tryUnlock at tried
        split at tried
        · cases tried
        · next presence =>
            obtain ⟨⟨vdk, chain⟩, opened, rest⟩ := Fallible.bind_eq_ok_iff.mp tried
            obtain ⟨data, hydrated, rest⟩ := Fallible.bind_eq_ok_iff.mp rest
            obtain ⟨⟨deviceKey, keys⟩, device, equal⟩ := Fallible.bind_eq_ok_iff.mp rest
            exact ⟨vdk, chain, data, deviceKey, keys, by simpa using presence, opened, hydrated,
              device, (Prod.mk.inj (Except.ok.inj equal)).1.symm⟩
    · cases (Prod.mk.inj unlocked).2
  · rintro ⟨vdk, chain, data, deviceKey, keys, found⟩
    have tried : tryUnlock vault input = .ok (vault', ()) := by
      simp only [tryUnlock, found.presence, found.opened, found.hydrated, found.device,
        not_true_eq_false, if_false, bind, Except.bind, pure, Except.pure, ← found.result]
    simp only [unlock, atomically, tried]

/-- A failed unlock changes nothing. -/
theorem unlock_error {vault vault' : Vault} {input : UnlockInput} {error : StoreError}
    (failed : unlock vault input = (vault', .error error)) : vault' = vault := by
  unfold unlock atomically at failed
  split at failed
  · cases (Prod.mk.inj failed).2
  · exact (Prod.mk.inj failed).1.symm

/-- An unlock writes the key tables and no other. -/
theorem unlock_disk (vault : Vault) (input : UnlockInput) :
    ∃ keys, (unlock vault input).1.disk = { vault.disk with keys } := by
  cases unlocked : unlock vault input with
  | mk vault' result =>
      cases result with
      | error error =>
          rw [unlock_error unlocked]
          exact ⟨vault.disk.keys, rfl⟩
      | ok value =>
          obtain ⟨vdk, chain, data, deviceKey, keys, found⟩ := unlock_eq_ok_iff.mp unlocked
          rw [found.result]
          exact ⟨keys, rfl⟩

/-! ## Rotation -/

section

variable {keys : KeyTables} {vaultMeta : VaultMeta} {oldVdk : VdkKey}
variable {localDevice : DeviceKey} {commit : RotationCommit}

@[simp] theorem resealDeviceKey_vaultMeta (keys : KeyTables) (vaultId : VaultId)
    (vdk : VdkKey) (key : DeviceKey) :
    (resealDeviceKey keys vaultId vdk key).vaultMeta = keys.vaultMeta := by
  unfold resealDeviceKey
  split <;> rfl

@[simp] theorem resealDeviceKey_vdkChain (keys : KeyTables) (vaultId : VaultId)
    (vdk : VdkKey) (key : DeviceKey) :
    (resealDeviceKey keys vaultId vdk key).vdkChain = keys.vdkChain := by
  unfold resealDeviceKey
  split <;> rfl

@[simp] theorem resealDeviceKey_vdkChainState (keys : KeyTables) (vaultId : VaultId)
    (vdk : VdkKey) (key : DeviceKey) :
    (resealDeviceKey keys vaultId vdk key).vdkChainState = keys.vdkChainState := by
  unfold resealDeviceKey
  split <;> rfl

@[simp] theorem resealDeviceKey_devices (keys : KeyTables) (vaultId : VaultId)
    (vdk : VdkKey) (key : DeviceKey) :
    (resealDeviceKey keys vaultId vdk key).devices = keys.devices := by
  unfold resealDeviceKey
  split <;> rfl

@[simp] theorem readCurrentEpoch_rotatedKeys :
    readCurrentEpoch (rotatedKeys keys vaultMeta oldVdk localDevice commit) =
      commit.newEpoch := by
  simp [rotatedKeys, readCurrentEpoch]

/-- The chain keeps its shape as long as the new epoch is neither current nor retained. -/
theorem ChainShape.rotated (shape : ChainShape keys)
    (advances : commit.newEpoch ≠ readCurrentEpoch keys)
    (unused : ∀ row ∈ keys.vdkChain, row.epoch ≠ commit.newEpoch) :
    ChainShape (rotatedKeys keys vaultMeta oldVdk localDevice commit) where
  unique := by
    simp only [rotatedKeys, resealDeviceKey_vdkChain]
    exact Table.nodup_upsert shape.unique
  retired := by
    intro row member
    rw [readCurrentEpoch_rotatedKeys]
    simp only [rotatedKeys, resealDeviceKey_vdkChain, Table.mem_upsert] at member
    rcases member with ⟨old, -⟩ | rfl
    · exact unused row old
    · exact advances.symm

/-- A rotation adds the new VDK at the new epoch and keeps every other epoch's key.
The demoted key is the one the session holds, which must be the one the meta row
wraps. -/
theorem keyring_rotatedKeys (held : oldVdk = keys.vaultMeta.wrapped.msg) (epoch : Nat) :
    keyring (rotatedKeys keys vaultMeta oldVdk localDevice commit) epoch =
      if epoch = commit.newEpoch then some commit.newVdk else keyring keys epoch := by
  unfold keyring
  rw [readCurrentEpoch_rotatedKeys]
  by_cases isNew : epoch = commit.newEpoch
  · rw [if_pos isNew, if_pos isNew]
    simp [rotatedKeys, freshMeta, VdkKey.wrap]
  · rw [if_neg isNew, if_neg isNew]
    simp only [rotatedKeys, resealDeviceKey_vdkChain, Table.lookup_upsert]
    by_cases demoted : epoch = readCurrentEpoch keys
    · rw [if_pos demoted, if_pos demoted, held]
      rfl
    · rw [if_neg demoted, if_neg demoted]

end

end Pangolin.Store
