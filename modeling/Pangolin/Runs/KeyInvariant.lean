import Pangolin.Store.ChainCalls
import Pangolin.Store.Lineage
import Pangolin.System

/-!
# The keys of a running vault

The invariant that ties the tables to each other: the handle's meta row is the stored
one, every revision is sealed under the keyring's key for its epoch, the device seed
under the current one, and an open session selects keys as the keyring does.

The ordinary calls (everything but re-keys and chain ingest) keep it without touching
the keyring.  A recovery of the same VDK and a rotation to an unused epoch keep it too.
-/

namespace Pangolin

open Symbolic Crypto Store Pangolin.Core Transition

/-- What an open session knows about the file. -/
structure SessionInv (keys : KeyTables) (vaultId : VaultId) (active : ActiveState) : Prop where
  vdk : active.vdk = keys.vaultMeta.wrapped.msg
  currentEpoch : active.chain.currentEpoch = readCurrentEpoch keys
  selects : ∀ epoch, entryKey active.vdk active.chain epoch = keyring keys epoch
  deviceKey : keys.deviceKey = some (sealDeviceKey vaultId active.vdk active.deviceKey)

/-- The key tables and the session fit each other. -/
structure KeyCore (vault : Vault) : Prop where
  metaSynced : vault.vaultMeta = vault.disk.keys.vaultMeta
  context : vault.vaultMeta.wrapContext = .new vault.vaultMeta.vaultId
  shape : ChainShape vault.disk.keys
  epochFits : fitsI64 (readCurrentEpoch vault.disk.keys) = true
  devices : DeviceTables vault.disk.keys vault.vaultMeta.vaultId
    vault.disk.keys.vaultMeta.wrapped.msg
  session : ∀ active, vault.active = some active →
    SessionInv vault.disk.keys vault.vaultMeta.vaultId active

structure KeyInv (vault : Vault) : Prop extends KeyCore vault where
  rows : ∀ row ∈ vault.disk.log.revisions, ∃ key payload,
    SealedRow (keyring vault.disk.keys) vault.vaultMeta.vaultId row key payload
  linear : LinearLog vault.disk.log

/-- A step that moves no key: the keyring is the same table for table. -/
structure SameRing (before after : Vault) : Prop where
  vaultMeta : after.disk.keys.vaultMeta = before.disk.keys.vaultMeta
  vdkChain : after.disk.keys.vdkChain = before.disk.keys.vdkChain
  vdkChainState : after.disk.keys.vdkChainState = before.disk.keys.vdkChainState

/-- It loses and alters no row either. -/
structure SameKeys (before after : Vault) : Prop extends SameRing before after where
  rows : ∀ row ∈ before.disk.log.revisions, row ∈ after.disk.log.revisions

namespace SameRing

variable {before after : Vault}

theorem of_keys (keys : after.disk.keys = before.disk.keys) : SameRing before after :=
  ⟨by rw [keys], by rw [keys], by rw [keys]⟩

theorem currentEpoch (same : SameRing before after) :
    readCurrentEpoch after.disk.keys = readCurrentEpoch before.disk.keys := by
  rw [readCurrentEpoch, readCurrentEpoch, same.vdkChainState]

theorem keyring (same : SameRing before after) :
    keyring after.disk.keys = keyring before.disk.keys :=
  keyring_congr same.vaultMeta same.vdkChain same.vdkChainState

end SameRing

theorem SameKeys.of_disk {before after : Vault} (keys : after.disk.keys = before.disk.keys)
    (revisions : after.disk.log.revisions = before.disk.log.revisions) :
    SameKeys before after :=
  ⟨.of_keys keys, fun _ member => revisions ▸ member⟩

/-! ## The initial state -/

theorem KeyCore.create (password : Password) (draw : CreateDraw) :
    KeyCore (create password draw) where
  metaSynced := rfl
  context := rfl
  shape := ⟨List.nodup_nil, by simp [Store.create]⟩
  epochFits := rfl
  devices := .unregistered rfl rfl
  session := by simp [Store.create]

theorem KeyInv.create (password : Password) (draw : CreateDraw) :
    KeyInv (create password draw) where
  toKeyCore := .create password draw
  rows := by simp [Store.create]
  linear := .empty _ _

/-! ## Frames -/

/-- The core reads the meta row, the key tables and the session. -/
theorem KeyCore.frame {vault vault' : Vault} (inv : KeyCore vault)
    (vaultMeta : vault'.vaultMeta = vault.vaultMeta)
    (keys : vault'.disk.keys = vault.disk.keys)
    (active : vault'.active = vault.active ∨ vault'.active = none) : KeyCore vault' where
  metaSynced := by rw [vaultMeta, keys]; exact inv.metaSynced
  context := by rw [vaultMeta]; exact inv.context
  shape := by rw [keys]; exact inv.shape
  epochFits := by rw [keys]; exact inv.epochFits
  devices := by rw [vaultMeta, keys]; exact inv.devices
  session := by
    intro session opened
    rw [vaultMeta, keys]
    rcases active with same | dropped
    · exact inv.session session (same ▸ opened)
    · rw [dropped] at opened
      cases opened

/-- The rest of the invariant also reads the accounts and the revisions. -/
theorem KeyInv.frame {vault vault' : Vault} (inv : KeyInv vault)
    (vaultMeta : vault'.vaultMeta = vault.vaultMeta)
    (keys : vault'.disk.keys = vault.disk.keys)
    (accounts : vault'.disk.log.accounts = vault.disk.log.accounts)
    (revisions : vault'.disk.log.revisions = vault.disk.log.revisions)
    (active : vault'.active = vault.active ∨ vault'.active = none) : KeyInv vault' where
  toKeyCore := inv.toKeyCore.frame vaultMeta keys active
  rows := by rw [vaultMeta, keys, revisions]; exact inv.rows
  linear := by
    obtain ⟨uniqueAccounts, uniqueRows, headStored, covered⟩ := inv.linear
    constructor
    · rw [accounts]; exact uniqueAccounts
    · rw [revisions]; exact uniqueRows
    · rw [accounts, revisions]; exact headStored
    · rw [accounts, revisions]; exact covered

/-! ## Local edits -/

theorem stampEpoch_of_fits {epoch : Nat} (fits : fitsI64 epoch = true) :
    stampEpoch epoch = epoch := by
  rw [stampEpoch, if_pos fits]

/-- The row a local edit appends is sealed under the current key. -/
theorem KeyCore.sealedRow_of_write {vault vault' : Vault} (inv : KeyCore vault)
    {active : ActiveState} {row : RevisionRow} {payload : IdentityPayload}
    (wrote : LocalWrite vault vault' active row payload) :
    row.vdkEpoch = readCurrentEpoch vault.disk.keys ∧
      SealedRow (keyring vault.disk.keys) vault.vaultMeta.vaultId row active.vdk payload := by
  have session := inv.session active wrote.session
  have epoch : row.vdkEpoch = readCurrentEpoch vault.disk.keys := by
    rw [wrote.epoch, session.currentEpoch, stampEpoch_of_fits inv.epochFits]
  refine ⟨epoch, ?_, wrote.nonce, wrote.encPayload, wrote.payloadLocal, ?_⟩
  · rw [epoch, keyring_current, session.vdk]
  · rcases wrote.version with current | known
    · rw [current, inv.context]
      simp [WrapContext.new]
    · exact known

/-- On a linear log a local edit appends its row and changes no other. -/
theorem KeyInv.revisions_of_write {vault vault' : Vault} (inv : KeyInv vault)
    {active : ActiveState} {row : RevisionRow} {payload : IdentityPayload}
    (wrote : LocalWrite vault vault' active row payload) :
    vault'.disk.log.revisions = vault.disk.log.revisions ++ [row] := by
  cases wrote.log with
  | added _ _ _ _ _ _ revisions _ => exact revisions
  | extended _ _ _ _ _ _ _ revisions _ => exact revisions
  | resolved _ forked _ _ _ _ _ _ =>
      have single := inv.linear.heads_le_one row.accountId
      omega

theorem KeyCore.write {vault vault' : Vault} (inv : KeyCore vault) {active : ActiveState}
    {row : RevisionRow} {payload : IdentityPayload}
    (wrote : LocalWrite vault vault' active row payload) : KeyCore vault' := by
  have keys : vault'.disk.keys = vault.disk.keys := by rw [wrote.disk]
  obtain ⟨active', session', sameVdk, sameChain, sameDevice⟩ := wrote.active'
  constructor
  · rw [wrote.vaultMeta, keys]; exact inv.metaSynced
  · rw [wrote.vaultMeta]; exact inv.context
  · rw [keys]; exact inv.shape
  · rw [keys]; exact inv.epochFits
  · rw [wrote.vaultMeta, keys]; exact inv.devices
  · intro session opened
    obtain rfl : session = active' := Option.some.inj (opened.symm.trans session')
    have old := inv.session active wrote.session
    rw [wrote.vaultMeta, keys]
    exact ⟨sameVdk ▸ old.vdk, sameChain ▸ old.currentEpoch,
      by rw [sameVdk, sameChain]; exact old.selects,
      by rw [sameVdk, sameDevice]; exact old.deviceKey⟩

theorem KeyInv.write {vault vault' : Vault} (inv : KeyInv vault) {active : ActiveState}
    {row : RevisionRow} {payload : IdentityPayload}
    (wrote : LocalWrite vault vault' active row payload) : KeyInv vault' := by
  have keys : vault'.disk.keys = vault.disk.keys := by rw [wrote.disk]
  obtain ⟨-, newRow⟩ := inv.sealedRow_of_write wrote
  constructor
  · exact inv.toKeyCore.write wrote
  · rw [wrote.vaultMeta, keys, inv.revisions_of_write wrote]
    intro candidate member
    rcases List.mem_append.mp member with old | new
    · exact inv.rows candidate old
    · obtain rfl := List.mem_singleton.mp new
      exact ⟨active.vdk, payload, newRow⟩
  · exact inv.linear.write wrote.fresh wrote.unpublished.2.2.1 wrote.log

/-! ## Unlock -/

/-- The key tables stay in shape under a successful unlock. -/
theorem KeyCore.unlocks {vault vault' : Vault} (inv : KeyCore vault) {input : UnlockInput}
    {vdk : VdkKey} {chain : VdkChain} {data : ActiveStateData} {deviceKey : DeviceKey}
    {keys : KeyTables} (found : Unlocks vault input vault' vdk chain data deviceKey keys) :
    KeyCore vault' ∧ SameRing vault vault' := by
  have opened := found.opened
  rw [inv.metaSynced] at opened
  obtain ⟨-, -, -, -, sameVdk, built⟩ := openKeys_eq_ok_iff.mp opened
  obtain ⟨sameMeta, sameChain, sameState, storedSeed, -, -⟩ :=
    loadOrRegisterDevice_eq_ok found.device
  have devices : DeviceTables keys vault.vaultMeta.vaultId vdk := by
    obtain ⟨key, keys', loaded, -, tables, -⟩ :=
      loadOrRegisterDevice_ok inv.devices input.generated input.now
    rw [sameVdk, found.device] at loaded
    obtain ⟨rfl, rfl⟩ := Prod.mk.inj (Except.ok.inj loaded)
    exact sameVdk ▸ tables
  have ring : keyring keys = keyring vault.disk.keys :=
    keyring_congr sameMeta sameChain sameState
  have epoch : readCurrentEpoch keys = readCurrentEpoch vault.disk.keys := by
    rw [readCurrentEpoch, sameState]
    rfl
  obtain rfl := found.result
  refine ⟨⟨?_, inv.context, ?_, ?_, ?_, ?_⟩, ⟨sameMeta, sameChain, sameState⟩⟩
  · exact inv.metaSynced.trans sameMeta.symm
  · exact ⟨sameChain ▸ inv.shape.unique, by rw [sameChain, epoch]; exact inv.shape.retired⟩
  · exact epoch ▸ inv.epochFits
  · rw [sameMeta, sameVdk]
    exact devices
  · intro active session
    obtain rfl := Option.some.inj session
    refine ⟨?_, ?_, ?_, storedSeed⟩
    · rw [sameMeta]
      exact sameVdk.symm
    · exact (currentEpoch_of_buildOnUnlock built).trans epoch.symm
    · rw [ring]
      exact entryKey_eq_keyring inv.shape opened

/-- So does the rest of the invariant: an unlock writes no revision. -/
theorem KeyInv.unlocks {vault vault' : Vault} (inv : KeyInv vault) {input : UnlockInput}
    {vdk : VdkKey} {chain : VdkChain} {data : ActiveStateData} {deviceKey : DeviceKey}
    {keys : KeyTables} (found : Unlocks vault input vault' vdk chain data deviceKey keys) :
    KeyInv vault' ∧ SameKeys vault vault' := by
  obtain ⟨core, same⟩ := inv.toKeyCore.unlocks found
  have rows := inv.rows
  rw [← same.keyring] at rows
  obtain rfl := found.result
  exact ⟨⟨core, rows, inv.linear⟩, ⟨same, fun _ member => member⟩⟩

/-- A password that opens the key tables unlocks the vault when the log hydrates under
the keyring's keys. -/
theorem KeyCore.unlock_ok {vault : Vault} (inv : KeyCore vault) {input : UnlockInput}
    (openable : Openable vault.disk.keys input.password) (presence : input.presence = true)
    (hydrates : ∀ chain : VdkChain, (∀ epoch,
        entryKey vault.disk.keys.vaultMeta.wrapped.msg chain epoch =
          keyring vault.disk.keys epoch) →
      ∃ data, buildActiveStateData vault.disk.log vault.vaultMeta.vaultId
        vault.disk.keys.vaultMeta.wrapped.msg chain = .ok data) :
    ∃ unlocked active, unlock vault input = (unlocked, .ok ()) ∧
      unlocked.active = some active ∧ unlocked.disk.log = vault.disk.log ∧
      unlocked.vaultMeta = vault.vaultMeta ∧
      ∀ epoch, entryKey active.vdk active.chain epoch = keyring vault.disk.keys epoch := by
  obtain ⟨chain, opened⟩ := openable.openKeys
  have selects := entryKey_eq_keyring inv.shape opened
  obtain ⟨data, hydrated⟩ := hydrates chain selects
  obtain ⟨deviceKey, keys, device, -⟩ :=
    loadOrRegisterDevice_ok inv.devices input.generated input.now
  have found := unlock_eq_ok_iff.mpr ⟨_, chain, data, deviceKey, keys,
    ⟨presence, inv.metaSynced ▸ opened, hydrated, device, rfl⟩⟩
  exact ⟨_, _, found, rfl, rfl, rfl, selects⟩

/-! ## The ordinary calls -/

/-- Calls that neither re-key the vault nor ingest from the chain. -/
def Op.Ordinary : Op → Prop
  | .unlock _ | .lock | .reopen _ _ | .accountAdd _ _ _ | .accountUpdate _ _ _
  | .deleteAccount _ _ | .resolveFork _ _ _ | .stashPendingMerge _ _
  | .onboardGuardians _ _ _ _ | .persistRecoveryRecipient _ _ _ _ _
  | .clearRecoveryRecipient _ | .upsertDirectory _ | .queueRotationPending _ => True
  | _ => False

/-- Onboarding writes the escrow tables and nothing else. -/
theorem onboardGuardians_frame (scheme : ShareScheme) (vault : Vault) (threshold : Nat)
    (pubs : List X25519Pub) (signers : List EvmAddress) (draw : EscrowDraw) :
    ∃ escrow, (onboardGuardians scheme vault threshold pubs signers draw).1 =
      { vault with disk := { vault.disk with escrow } } := by
  rcases onboardGuardians_cases scheme vault threshold pubs signers draw with
    unchanged | ⟨active, onboarding, escrow, -, -, -, result⟩
  · exact ⟨vault.disk.escrow, unchanged⟩
  · exact ⟨escrow, result⟩

/-- Persisting a recipient writes the recipient table and nothing else. -/
theorem persistRecoveryRecipient_frame (vault : Vault) (target : VaultId) (attemptNonce : Nat)
    (secret : X25519Secret) (pub : X25519Pub) (nowUnix : Int) :
    ∃ recipients, (persistRecoveryRecipient vault target attemptNonce secret pub nowUnix).1 =
      { vault with disk := { vault.disk with recipients } } := by
  unfold persistRecoveryRecipient
  rcases withActive_cases vault _ with ⟨error, failed⟩ | ⟨active, vault', value, -, done, result⟩
  · rw [failed]
    exact ⟨vault.disk.recipients, rfl⟩
  · rw [result]
    obtain ⟨recipients, -, equal⟩ := Fallible.bind_eq_ok_iff.mp done
    obtain ⟨rfl, -⟩ := Prod.mk.inj (Except.ok.inj equal)
    exact ⟨recipients, rfl⟩

/-- What an ordinary call can do. -/
inductive Effect (vault vault' : Vault) : Prop where
  /-- It leaves keys, accounts and revisions alone.  Reopening reloads the meta row. -/
  | rest : (vault'.vaultMeta = vault.vaultMeta ∨ vault'.vaultMeta = vault.disk.keys.vaultMeta) →
      vault'.disk.keys = vault.disk.keys →
      vault'.disk.log.accounts = vault.disk.log.accounts →
      vault'.disk.log.revisions = vault.disk.log.revisions →
      (vault'.active = vault.active ∨ vault'.active = none) → Effect vault vault'
  | wrote (active : ActiveState) (row : RevisionRow) (payload : IdentityPayload) :
      LocalWrite vault vault' active row payload → Effect vault vault'
  | unlocked (input : UnlockInput) (vdk : VdkKey) (chain : VdkChain) (data : ActiveStateData)
      (deviceKey : DeviceKey) (keys : KeyTables) :
      Unlocks vault input vault' vdk chain data deviceKey keys → Effect vault vault'

theorem Effect.of_idle {vault vault' : Vault} (idle : Idle vault vault') :
    Effect vault vault' :=
  .rest (.inl idle.vaultMeta) (by rw [idle.disk]) (by rw [idle.disk]) (by rw [idle.disk])
    idle.active

theorem Effect.of_writeCall {vault vault' : Vault} {drawn : RevisionId}
    (call : WriteCall vault vault' drawn) : Effect vault vault' := by
  rcases call with idle | ⟨active, row, payload, wrote, -⟩
  · exact .of_idle idle
  · exact .wrote active row payload wrote

theorem unlock_effect (vault : Vault) (input : UnlockInput) :
    Effect vault (unlock vault input).1 := by
  cases unlocked : unlock vault input with
  | mk vault' result =>
      cases result with
      | error error =>
          obtain rfl := unlock_error unlocked
          exact .of_idle (.refl _)
      | ok value =>
          obtain ⟨vdk, chain, data, deviceKey, keys, found⟩ := unlock_eq_ok_iff.mp unlocked
          exact .unlocked input vdk chain data deviceKey keys found

theorem ordinary_effect (scheme : ShareScheme) (hash : CanonicalHash) (vault : Vault) {op : Op}
    (ordinary : op.Ordinary) : Effect vault (step scheme hash vault op) := by
  cases op with
  | unlock input => exact unlock_effect vault input
  | lock => exact .rest (.inl rfl) rfl rfl rfl (.inr rfl)
  | reopen placeholder sessionIdle => exact .rest (.inr rfl) rfl rfl rfl (.inr rfl)
  | accountAdd validated accountId draw =>
      exact .of_writeCall (accountAdd_writes vault validated accountId draw)
  | accountUpdate accountId patch draw =>
      exact .of_writeCall (accountUpdate_writes vault accountId patch draw)
  | deleteAccount accountId draw =>
      exact .of_writeCall (deleteAccount_writes vault accountId draw)
  | resolveFork accountId keep draw =>
      exact .of_writeCall (resolveFork_writes vault accountId keep draw)
  | stashPendingMerge merge now =>
      have idle := maybeExpireActiveSession_idle vault now
      refine .rest (.inl ?_) ?_ ?_ ?_ ?_
      · simp [step, stashPendingMerge, idle.vaultMeta]
      · simp [step, stashPendingMerge]
      · simp [step, stashPendingMerge]
      · simp [step, stashPendingMerge]
      · simpa [step, stashPendingMerge] using idle.active
  | onboardGuardians threshold pubs signers draw =>
      obtain ⟨escrow, result⟩ :=
        onboardGuardians_frame scheme vault threshold pubs signers draw
      rw [step, result]
      exact .rest (.inl rfl) rfl rfl rfl (.inl rfl)
  | persistRecoveryRecipient target attemptNonce secret pub nowUnix =>
      obtain ⟨recipients, result⟩ :=
        persistRecoveryRecipient_frame vault target attemptNonce secret pub nowUnix
      rw [step, result]
      exact .rest (.inl rfl) rfl rfl rfl (.inl rfl)
  | clearRecoveryRecipient target => exact .rest (.inl rfl) rfl rfl rfl (.inl rfl)
  | upsertDirectory entry => exact .rest (.inl rfl) rfl rfl rfl (.inl rfl)
  | queueRotationPending pending => exact .rest (.inl rfl) rfl rfl rfl (.inl rfl)
  | _ => exact absurd ordinary id

/-- Reopening reloads the meta row the handle already had. -/
theorem KeyCore.sameMeta {vault vault' : Vault} (inv : KeyCore vault)
    (vaultMeta : vault'.vaultMeta = vault.vaultMeta ∨
      vault'.vaultMeta = vault.disk.keys.vaultMeta) : vault'.vaultMeta = vault.vaultMeta :=
  vaultMeta.elim id fun reloaded => reloaded.trans inv.metaSynced.symm

/-- An ordinary call keeps the core and moves no key. -/
theorem KeyCore.effect {vault vault' : Vault} (inv : KeyCore vault)
    (effect : Effect vault vault') : KeyCore vault' ∧ SameRing vault vault' := by
  cases effect with
  | rest vaultMeta keys accounts revisions active =>
      exact ⟨inv.frame (inv.sameMeta vaultMeta) keys active, .of_keys keys⟩
  | wrote active row payload wrote =>
      exact ⟨inv.write wrote, .of_keys (by rw [wrote.disk])⟩
  | unlocked input vdk chain data deviceKey keys found => exact inv.unlocks found

/-- On a linear log it loses no row either. -/
theorem KeyInv.effect {vault vault' : Vault} (inv : KeyInv vault)
    (effect : Effect vault vault') : KeyInv vault' ∧ SameKeys vault vault' := by
  cases effect with
  | rest vaultMeta keys accounts revisions active =>
      exact ⟨inv.frame (inv.sameMeta vaultMeta) keys accounts revisions active,
        .of_disk keys revisions⟩
  | wrote active row payload wrote =>
      refine ⟨inv.write wrote, .of_keys (by rw [wrote.disk]), ?_⟩
      rw [inv.revisions_of_write wrote]
      exact fun candidate member => List.mem_append_left _ member
  | unlocked input vdk chain data deviceKey keys found => exact inv.unlocks found

theorem KeyInv.ordinary {vault : Vault} {op : Op} (inv : KeyInv vault) (scheme : ShareScheme)
    (hash : CanonicalHash) (ordinary : op.Ordinary) :
    KeyInv (step scheme hash vault op) ∧ SameKeys vault (step scheme hash vault op) :=
  inv.effect (ordinary_effect scheme hash vault ordinary)

/-- A vault of the given id whose keys are the given ones. -/
structure HoldsRing (vault : Vault) (vaultId : VaultId) (ring : Nat → Option VdkKey) : Prop where
  core : KeyCore vault
  vaultId : vault.vaultMeta.vaultId = vaultId
  keys : keyring vault.disk.keys = ring

namespace HoldsRing

variable {vault vault' : Vault} {vaultId : VaultId} {ring : Nat → Option VdkKey}

theorem effect (holds : HoldsRing vault vaultId ring) (effect : Effect vault vault') :
    HoldsRing vault' vaultId ring := by
  obtain ⟨core, same⟩ := holds.core.effect effect
  refine ⟨core, ?_, same.keyring.trans holds.keys⟩
  rw [core.metaSynced, same.vaultMeta, ← holds.core.metaSynced]
  exact holds.vaultId

/-- Its session selects them. -/
theorem selects (holds : HoldsRing vault vaultId ring) {active : ActiveState}
    (session : vault.active = some active) : entryKey active.vdk active.chain = ring := by
  funext epoch
  rw [(holds.core.session active session).selects, holds.keys]

/-- Its writes are sealed with them. -/
theorem write (holds : HoldsRing vault vaultId ring) {active : ActiveState} {row : RevisionRow}
    {payload : IdentityPayload} (wrote : LocalWrite vault vault' active row payload) :
    SealedRow ring vaultId row active.vdk payload := by
  obtain ⟨-, sealedRow⟩ := holds.core.sealedRow_of_write wrote
  rw [holds.keys, holds.vaultId] at sealedRow
  exact sealedRow

/-- Chain calls leave the keys alone. -/
theorem logOnly (holds : HoldsRing vault vaultId ring) (call : LogOnly vault vault') :
    HoldsRing vault' vaultId ring := by
  refine ⟨holds.core.frame call.vaultMeta call.keys call.active, ?_, ?_⟩
  · rw [call.vaultMeta]
    exact holds.vaultId
  · rw [call.keys]
    exact holds.keys

end HoldsRing

/-! ## Re-keys -/

/-- Recovering the VDK the vault already has changes the password and nothing the
invariant reads. -/
theorem KeyInv.recovered {vault : Vault} (inv : KeyInv vault) (password : Password)
    (salt : KdfSalt) (escrow : EscrowTables) :
    KeyInv (lockedWith vault
      (recoveredDisk vault vault.disk.keys.vaultMeta.wrapped.msg password salt escrow)) := by
  refine ⟨⟨rfl, rfl, ⟨inv.shape.unique, inv.shape.retired⟩, inv.epochFits, ?_, ?_⟩, inv.rows,
    inv.linear⟩
  · cases inv.devices with
    | unregistered devices deviceKey => exact .unregistered devices deviceKey
    | registered key row devices sameId address deviceKey =>
        exact .registered key row devices sameId address deviceKey
  · simp [lockedWith]

theorem sealDeviceKey_inj {vaultId : VaultId} {vdk : VdkKey} {key other : DeviceKey}
    (same : sealDeviceKey vaultId vdk key = sealDeviceKey vaultId vdk other) : key = other := by
  simpa [sealDeviceKey] using congrArg Sealed.msg same

section

variable {vault : Vault} {active : ActiveState}

/-- A rotation to an epoch that is neither current nor retained keeps the core. -/
theorem KeyCore.rotated (inv : KeyCore vault) (session : vault.active = some active)
    (commit : RotationCommit) (fits : fitsI64 commit.newEpoch = true)
    (advances : commit.newEpoch ≠ readCurrentEpoch vault.disk.keys)
    (unused : ∀ row ∈ vault.disk.keys.vdkChain, row.epoch ≠ commit.newEpoch)
    (escrow : EscrowTables) (deviceSet : DeviceSetTables) :
    KeyCore (lockedWith vault { vault.disk with
      keys := rotatedKeys vault.disk.keys vault.vaultMeta active.vdk active.deviceKey commit
      escrow
      deviceSet }) := by
  have held := inv.session active session
  refine ⟨rfl, ?_, inv.shape.rotated advances unused, ?_, ?_, ?_⟩
  · simp [lockedWith, rotatedKeys, freshMeta]
  · simpa [lockedWith] using fits
  · cases inv.devices with
    | unregistered devices deviceKey =>
        rw [held.deviceKey] at deviceKey
        cases deviceKey
    | registered key row devices sameId address deviceKey =>
        obtain rfl : key = active.deviceKey := by
          rw [held.deviceKey, held.vdk] at deviceKey
          exact (sealDeviceKey_inj (Option.some.inj deviceKey)).symm
        refine .registered active.deviceKey row ?_ sameId address ?_
        · simpa [lockedWith, rotatedKeys] using devices
        · simp [lockedWith, rotatedKeys, resealDeviceKey, held.deviceKey, freshMeta, VdkKey.wrap]
  · simp [lockedWith]

/-- The rows keep their keys: the new epoch was nobody's. -/
theorem KeyCore.sealedRow_rotated (inv : KeyCore vault) (session : vault.active = some active)
    (commit : RotationCommit) (escrow : EscrowTables) (deviceSet : DeviceSetTables)
    {row : RevisionRow} {key : VdkKey} {payload : IdentityPayload}
    (unstamped : row.vdkEpoch ≠ commit.newEpoch)
    (sealedRow : SealedRow (keyring vault.disk.keys) vault.vaultMeta.vaultId row key payload) :
    let vault' := lockedWith vault { vault.disk with
      keys := rotatedKeys vault.disk.keys vault.vaultMeta active.vdk active.deviceKey commit
      escrow
      deviceSet }
    SealedRow (keyring vault'.disk.keys) vault'.vaultMeta.vaultId row key payload := by
  have held := inv.session active session
  have sameVault : (lockedWith vault { vault.disk with
      keys := rotatedKeys vault.disk.keys vault.vaultMeta active.vdk active.deviceKey commit
      escrow
      deviceSet }).vaultMeta.vaultId = vault.vaultMeta.vaultId := by
    simp [lockedWith, rotatedKeys, freshMeta]
  intro vault'
  rw [sameVault]
  apply sealedRow.congr
  simp only [vault', lockedWith, keyring_rotatedKeys held.vdk]
  rw [if_neg unstamped]

/-- So does the rest of the invariant. -/
theorem KeyInv.rotated (inv : KeyInv vault) (session : vault.active = some active)
    (commit : RotationCommit) (fits : fitsI64 commit.newEpoch = true)
    (advances : commit.newEpoch ≠ readCurrentEpoch vault.disk.keys)
    (unused : ∀ row ∈ vault.disk.keys.vdkChain, row.epoch ≠ commit.newEpoch)
    (unstamped : ∀ row ∈ vault.disk.log.revisions, row.vdkEpoch ≠ commit.newEpoch)
    (escrow : EscrowTables) (deviceSet : DeviceSetTables) :
    KeyInv (lockedWith vault { vault.disk with
      keys := rotatedKeys vault.disk.keys vault.vaultMeta active.vdk active.deviceKey commit
      escrow
      deviceSet }) := by
  refine ⟨inv.toKeyCore.rotated session commit fits advances unused escrow deviceSet, ?_,
    inv.linear⟩
  intro row member
  obtain ⟨key, payload, sealedRow⟩ := inv.rows row member
  exact ⟨key, payload, inv.sealedRow_rotated session commit escrow deviceSet
    (unstamped row member) sealedRow⟩

end

end Pangolin
