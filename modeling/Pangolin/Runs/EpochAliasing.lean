import Pangolin.Runs.KeyInvariant

/-!
# One key per epoch

Rows are tagged with the epoch they were sealed in.  The tag identifies the key as long
as the key of the current epoch does not change under the rows that carry it.  A
rotation moves to a new epoch first.  A recovery of another VDK leaves a device seed it
cannot open, so no session ever writes with it.  Installing a paired VDK re-seals the
seed and keeps the epoch: it is harmless only for the VDK in use, or while no row
carries the current epoch.
-/

namespace Pangolin

open Symbolic Crypto Store Pangolin.Core Transition

/-- The key a row's payload was sealed with. -/
def sealingKey (row : RevisionRow) : Option VdkKey :=
  match row.encPayload with
  | .sealedPayload box => some box.key
  | .bytes _ => none

/-- No two VDKs share an epoch tag. -/
structure NoAliasing (vault : Vault) : Prop where
  /-- The current epoch is not a retained one. -/
  retired : ∀ retained ∈ vault.disk.keys.vdkChain,
    retained.epoch ≠ readCurrentEpoch vault.disk.keys
  /-- All rows of an epoch were sealed with one key. -/
  oneKey : ∀ epoch, ∃ key, ∀ row ∈ vault.disk.log.revisions, row.vdkEpoch = epoch →
    sealingKey row = some key
  /-- A retained epoch's row holds the key of its rows. -/
  anchored : ∀ retained ∈ vault.disk.keys.vdkChain, ∀ row ∈ vault.disk.log.revisions,
    row.vdkEpoch = retained.epoch → sealingKey row = some retained.anchor.msg

/-- The invariant behind it.  The device seed is sealed with the key that rows of the
current epoch carry, and every session holds that key. -/
structure AliasInv (vault : Vault) : Prop extends NoAliasing vault where
  epochFits : fitsI64 (readCurrentEpoch vault.disk.keys) = true
  retained_lt : ∀ retained ∈ vault.disk.keys.vdkChain,
    retained.epoch < readCurrentEpoch vault.disk.keys
  rows_le : ∀ row ∈ vault.disk.log.revisions,
    row.vdkEpoch ≤ readCurrentEpoch vault.disk.keys
  registered : vault.disk.keys.devices = [] → vault.disk.keys.deviceKey = none
  current : ∀ row ∈ vault.disk.log.revisions,
    row.vdkEpoch = readCurrentEpoch vault.disk.keys →
      sealingKey row = vault.disk.keys.deviceKey.map Sealed.key
  session : ∀ active, vault.active = some active →
    active.chain.currentEpoch = readCurrentEpoch vault.disk.keys ∧
      vault.disk.keys.deviceKey.map Sealed.key = some active.vdk

theorem AliasInv.create (password : Password) (draw : CreateDraw) :
    AliasInv (create password draw) where
  retired := by simp [Store.create]
  oneKey := fun _ => ⟨draw.vdk, by simp [Store.create]⟩
  anchored := by simp [Store.create]
  epochFits := rfl
  retained_lt := by simp [Store.create]
  rows_le := by simp [Store.create]
  registered := fun _ => rfl
  current := by simp [Store.create]
  session := by simp [Store.create]

/-- The invariant reads the chain, the epoch, the device tables, the rows and the
session, not the meta row. -/
theorem AliasInv.frame {vault vault' : Vault} (inv : AliasInv vault)
    (vdkChain : vault'.disk.keys.vdkChain = vault.disk.keys.vdkChain)
    (vdkChainState : vault'.disk.keys.vdkChainState = vault.disk.keys.vdkChainState)
    (devices : vault'.disk.keys.devices = vault.disk.keys.devices)
    (deviceKey : vault'.disk.keys.deviceKey = vault.disk.keys.deviceKey)
    (revisions : vault'.disk.log.revisions = vault.disk.log.revisions)
    (active : vault'.active = vault.active ∨ vault'.active = none) : AliasInv vault' := by
  have epoch : readCurrentEpoch vault'.disk.keys = readCurrentEpoch vault.disk.keys := by
    rw [readCurrentEpoch, vdkChainState]
    rfl
  refine ⟨⟨?_, ?_, ?_⟩, ?_, ?_, ?_, ?_, ?_, ?_⟩
  · rw [vdkChain, epoch]; exact inv.retired
  · rw [revisions]; exact inv.oneKey
  · rw [vdkChain, revisions]; exact inv.anchored
  · rw [epoch]; exact inv.epochFits
  · rw [vdkChain, epoch]; exact inv.retained_lt
  · rw [revisions, epoch]; exact inv.rows_le
  · rw [devices, deviceKey]; exact inv.registered
  · rw [revisions, epoch, deviceKey]; exact inv.current
  · intro session opened
    rw [epoch, deviceKey]
    rcases active with same | dropped
    · exact inv.session session (same ▸ opened)
    · rw [dropped] at opened
      cases opened

/-! ## Local edits -/

/-- The rows after a local edit: the new one, and the old ones up to their
supersession marks. -/
theorem mem_revisions_of_logWrite {log log' : RevisionTables} {row : RevisionRow}
    (wrote : LogWrite log row log') {candidate : RevisionRow}
    (member : candidate ∈ log'.revisions) :
    candidate = row ∨ ∃ old ∈ log.revisions, candidate.vdkEpoch = old.vdkEpoch ∧
      sealingKey candidate = sealingKey old := by
  have plain : candidate ∈ log.revisions ++ [row] →
      candidate = row ∨ ∃ old ∈ log.revisions, candidate.vdkEpoch = old.vdkEpoch ∧
        sealingKey candidate = sealingKey old := by
    intro appended
    rcases List.mem_append.mp appended with old | new
    · exact .inr ⟨candidate, old, rfl, rfl⟩
    · exact .inl (List.mem_singleton.mp new)
  cases wrote with
  | added _ _ _ _ _ _ revisions _ => exact plain (revisions ▸ member)
  | extended _ _ _ _ _ _ _ revisions _ => exact plain (revisions ▸ member)
  | resolved _ _ _ _ _ _ revisions _ =>
      rcases List.mem_append.mp (revisions ▸ member) with marked | new
      · obtain ⟨old, oldMember, rfl⟩ := List.mem_map.mp marked
        refine .inr ⟨old, oldMember, ?_⟩
        split
        · exact ⟨rfl, rfl⟩
        · exact ⟨rfl, rfl⟩
      · exact .inl (List.mem_singleton.mp new)

theorem AliasInv.write {vault vault' : Vault} (inv : AliasInv vault) {active : ActiveState}
    {row : RevisionRow} {payload : IdentityPayload}
    (wrote : LocalWrite vault vault' active row payload) : AliasInv vault' := by
  have keys : vault'.disk.keys = vault.disk.keys := by rw [wrote.disk]
  obtain ⟨sessionEpoch, seed⟩ := inv.session active wrote.session
  have epoch : row.vdkEpoch = readCurrentEpoch vault.disk.keys := by
    rw [wrote.epoch, sessionEpoch, stampEpoch_of_fits inv.epochFits]
  have newKey : sealingKey row = some active.vdk := by
    rw [sealingKey, wrote.encPayload]
    rfl
  -- Each row of the new log stands for one the invariant already speaks about, or is the
  -- new row, which carries the current epoch and the seed's key.
  have each : ∀ candidate ∈ vault'.disk.log.revisions,
      candidate.vdkEpoch = readCurrentEpoch vault.disk.keys ∧
          sealingKey candidate = some active.vdk ∨
        ∃ old ∈ vault.disk.log.revisions, candidate.vdkEpoch = old.vdkEpoch ∧
          sealingKey candidate = sealingKey old := by
    intro candidate member
    rcases mem_revisions_of_logWrite wrote.log member with rfl | old
    · exact .inl ⟨epoch, newKey⟩
    · exact .inr old
  refine ⟨⟨?_, ?_, ?_⟩, ?_, ?_, ?_, ?_, ?_, ?_⟩
  · rw [keys]; exact inv.retired
  · intro epoch'
    by_cases atCurrent : epoch' = readCurrentEpoch vault.disk.keys
    · refine ⟨active.vdk, ?_⟩
      intro candidate member sameEpoch
      rcases each candidate member with ⟨-, key⟩ | ⟨old, oldMember, oldEpoch, oldKey⟩
      · exact key
      · rw [oldKey, inv.current old oldMember (by rw [← oldEpoch, sameEpoch, atCurrent]), seed]
    · obtain ⟨key, sealedWith⟩ := inv.oneKey epoch'
      refine ⟨key, ?_⟩
      intro candidate member sameEpoch
      rcases each candidate member with ⟨candidateEpoch, -⟩ | ⟨old, oldMember, oldEpoch, oldKey⟩
      · exact absurd (sameEpoch.symm.trans candidateEpoch) atCurrent
      · rw [oldKey]
        exact sealedWith old oldMember (oldEpoch ▸ sameEpoch)
  · rw [keys]
    intro retained retainedMember candidate member sameEpoch
    rcases each candidate member with ⟨atCurrent, -⟩ | ⟨old, oldMember, oldEpoch, oldKey⟩
    · exact absurd (sameEpoch.symm.trans atCurrent) (inv.retired retained retainedMember)
    · rw [oldKey]
      exact inv.anchored retained retainedMember old oldMember (oldEpoch ▸ sameEpoch)
  · rw [keys]; exact inv.epochFits
  · rw [keys]; exact inv.retained_lt
  · rw [keys]
    intro candidate member
    rcases each candidate member with ⟨atCurrent, -⟩ | ⟨old, oldMember, oldEpoch, -⟩
    · exact atCurrent.le
    · exact oldEpoch ▸ inv.rows_le old oldMember
  · rw [keys]; exact inv.registered
  · rw [keys]
    intro candidate member atCurrent
    rcases each candidate member with ⟨-, key⟩ | ⟨old, oldMember, oldEpoch, oldKey⟩
    · rw [key, seed]
    · rw [oldKey]
      exact inv.current old oldMember (oldEpoch ▸ atCurrent)
  · intro session opened
    obtain ⟨active', session', sameVdk, sameChain, -⟩ := wrote.active'
    obtain rfl := Option.some.inj (opened.symm.trans session')
    rw [keys, sameVdk, sameChain]
    exact ⟨sessionEpoch, seed⟩

/-! ## Ordinary calls -/

/-- A session opened by an unlock holds the key its device seed is sealed with. -/
theorem AliasInv.unlocks {vault vault' : Vault} (inv : AliasInv vault) {input : UnlockInput}
    {vdk : VdkKey} {chain : VdkChain} {data : ActiveStateData} {deviceKey : DeviceKey}
    {keys : KeyTables} (found : Unlocks vault input vault' vdk chain data deviceKey keys) :
    AliasInv vault' := by
  obtain ⟨-, -, -, -, -, built⟩ := openKeys_eq_ok_iff.mp found.opened
  obtain ⟨-, sameChain, sameState, seed, devices, kept⟩ :=
    loadOrRegisterDevice_eq_ok found.device
  have epoch : readCurrentEpoch keys = readCurrentEpoch vault.disk.keys := by
    rw [readCurrentEpoch, sameState]
    rfl
  obtain rfl := found.result
  refine ⟨⟨?_, inv.oneKey, ?_⟩, epoch ▸ inv.epochFits, ?_, ?_, ?_, ?_, ?_⟩
  · rw [sameChain, epoch]; exact inv.retired
  · rw [sameChain]; exact inv.anchored
  · rw [sameChain, epoch]; exact inv.retained_lt
  · rw [epoch]; exact inv.rows_le
  · exact fun empty => absurd empty devices
  · intro row member atCurrent
    rw [epoch] at atCurrent
    have before := inv.current row member atCurrent
    rcases kept with same | unregistered
    · rw [same]
      exact before
    · -- A file without devices has no seed and so no rows of the current epoch.
      rw [inv.registered unregistered] at before
      obtain ⟨key, sealedWith⟩ := inv.oneKey (readCurrentEpoch vault.disk.keys)
      rw [sealedWith row member atCurrent] at before
      cases before
  · intro active session
    obtain rfl := Option.some.inj session
    refine ⟨(currentEpoch_of_buildOnUnlock built).trans epoch.symm, ?_⟩
    rw [seed]
    rfl

theorem AliasInv.effect {vault vault' : Vault} (inv : AliasInv vault)
    (effect : Effect vault vault') : AliasInv vault' := by
  cases effect with
  | rest _ keys _ revisions active =>
      exact inv.frame (by rw [keys]) (by rw [keys]) (by rw [keys]) (by rw [keys]) revisions active
  | wrote active row payload wrote => exact inv.write wrote
  | unlocked input vdk chain data deviceKey keys found => exact inv.unlocks found

/-! ## Re-keys -/

theorem AliasInv.recovered {vault : Vault} (inv : AliasInv vault) (recovered : VdkKey)
    (password : Password) (salt : KdfSalt) (escrow : EscrowTables) :
    AliasInv (lockedWith vault (recoveredDisk vault recovered password salt escrow)) :=
  inv.frame rfl rfl rfl rfl rfl (.inr rfl)

/-- A rotation to the next epoch: its rows are yet to be written, and the demoted
epoch's anchor holds the key its rows were sealed with. -/
theorem AliasInv.rotated {vault : Vault} (inv : AliasInv vault) {active : ActiveState}
    (session : vault.active = some active) {commit : RotationCommit}
    (fits : fitsI64 commit.newEpoch = true)
    (next : commit.newEpoch = readCurrentEpoch vault.disk.keys + 1) (escrow : EscrowTables)
    (deviceSet : DeviceSetTables) :
    AliasInv (lockedWith vault { vault.disk with
      keys := rotatedKeys vault.disk.keys vault.vaultMeta active.vdk active.deviceKey commit
      escrow
      deviceSet }) := by
  obtain ⟨-, seed⟩ := inv.session active session
  have chain : ∀ retained ∈ (rotatedKeys vault.disk.keys vault.vaultMeta active.vdk
      active.deviceKey commit).vdkChain, retained ∈ vault.disk.keys.vdkChain ∨
        retained.epoch = readCurrentEpoch vault.disk.keys ∧ retained.anchor.msg = active.vdk := by
    intro retained member
    simp only [rotatedKeys, resealDeviceKey_vdkChain, Table.mem_upsert] at member
    rcases member with ⟨old, -⟩ | rfl
    · exact .inl old
    · exact .inr ⟨rfl, rfl⟩
  have below : ∀ retained ∈ (rotatedKeys vault.disk.keys vault.vaultMeta active.vdk
      active.deviceKey commit).vdkChain, retained.epoch < commit.newEpoch := by
    intro retained member
    rcases chain retained member with old | ⟨demoted, -⟩
    · have := inv.retained_lt retained old
      omega
    · omega
  refine ⟨⟨?_, inv.oneKey, ?_⟩, ?_, ?_, ?_, ?_, ?_, ?_⟩
  · intro retained member
    simpa [lockedWith] using (below retained member).ne
  · intro retained member row rowMember sameEpoch
    rcases chain retained member with old | ⟨demoted, anchor⟩
    · exact inv.anchored retained old row rowMember sameEpoch
    · rw [inv.current row rowMember (sameEpoch.trans demoted), seed, anchor]
  · simpa [lockedWith] using fits
  · intro retained member
    simpa [lockedWith] using below retained member
  · intro row member
    have atMost := inv.rows_le row member
    simp only [lockedWith, readCurrentEpoch_rotatedKeys, next]
    omega
  · intro empty
    have unregistered := inv.registered (by simpa [lockedWith, rotatedKeys] using empty)
    rw [unregistered] at seed
    cases seed
  · intro row member atCurrent
    have atMost := inv.rows_le row member
    simp only [lockedWith, readCurrentEpoch_rotatedKeys, next] at atCurrent
    omega
  · simp [lockedWith]

/-- Installing a VDK re-seals the device seed and keeps the epoch. -/
theorem AliasInv.installed {vault : Vault} (inv : AliasInv vault) {received : VdkKey}
    (vaultId : VaultId) (password : Password) (salt : KdfSalt)
    (harmless : ∀ active, vault.active = some active → received = active.vdk ∨
      ∀ row ∈ vault.disk.log.revisions, row.vdkEpoch ≠ readCurrentEpoch vault.disk.keys) :
    AliasInv (installPairedVdk vault received vaultId password salt).1 := by
  unfold installPairedVdk
  rcases withActive_cases vault _ with
    ⟨error, failed⟩ | ⟨active, vault', value, session, done, result⟩
  · rw [failed]
    exact inv
  · rw [result]
    obtain ⟨rfl, -⟩ := Prod.mk.inj (Except.ok.inj done)
    obtain ⟨-, seed⟩ := inv.session active session
    obtain ⟨enc, stored, sameKey⟩ := Option.map_eq_some_iff.mp seed
    refine ⟨⟨?_, inv.oneKey, ?_⟩, ?_, ?_, ?_, ?_, ?_, ?_⟩
    · simpa [lockedWith, readCurrentEpoch] using inv.retired
    · simpa [lockedWith] using inv.anchored
    · simpa [lockedWith, readCurrentEpoch] using inv.epochFits
    · simpa [lockedWith, readCurrentEpoch] using inv.retained_lt
    · simpa [lockedWith, readCurrentEpoch] using inv.rows_le
    · intro empty
      have unregistered := inv.registered (by simpa [lockedWith] using empty)
      rw [unregistered] at stored
      cases stored
    · intro row member atCurrent
      have epoch : row.vdkEpoch = readCurrentEpoch vault.disk.keys := by
        simpa [lockedWith, readCurrentEpoch] using atCurrent
      rcases harmless active session with rfl | unused
      · rw [inv.current row member epoch, seed]
        simp [lockedWith, resealDeviceKey, stored, sealDeviceKey]
      · exact absurd epoch (unused row member)
    · simp [lockedWith]

/-! ## Runs -/

/-- Any call of these runs; a paired VDK is installed only when it is the session's, or
while no row carries the current epoch. -/
def AliasSafe (vault : Vault) : Op → Prop
  | .installPairedVdk received _ _ _ =>
      ∀ active, vault.active = some active → received = active.vdk ∨
        ∀ row ∈ vault.disk.log.revisions, row.vdkEpoch ≠ readCurrentEpoch vault.disk.keys
  | .completeRotation .. | .recoverWithNewPassword .. | .commitRecoveryRekey ..
  | .recoverFromShares _ => True
  | op => op.Ordinary

theorem AliasInv.step {scheme : ShareScheme} {hash : CanonicalHash} {vault : Vault} {op : Op}
    (inv : AliasInv vault) (safe : AliasSafe vault op) :
    AliasInv (step scheme hash vault op) := by
  cases op with
  | installPairedVdk received vaultId password salt =>
      exact inv.installed vaultId password salt safe
  | completeRotation password onchain draw =>
      rcases completeRotation_cases scheme vault password onchain draw with
        ⟨dropped, -⟩ | ⟨active, commit, escrow, deviceSet, session, fits, next, -, rotated⟩
      · exact inv.frame (by rw [Pangolin.step, dropped.1]) (by rw [Pangolin.step, dropped.1])
          (by rw [Pangolin.step, dropped.1]) (by rw [Pangolin.step, dropped.1])
          (by rw [Pangolin.step, dropped.1]) dropped.2.2
      · rw [Pangolin.step, rotated]
        exact inv.rotated session fits next escrow deviceSet
  | recoverWithNewPassword recovered password salt =>
      exact inv.recovered recovered password salt vault.disk.escrow
  | commitRecoveryRekey recovered password salt reSplit =>
      rcases commitRecoveryRekey_cases vault recovered password salt reSplit with
        ⟨error, failed⟩ | ⟨escrow, -, result⟩
      · rw [Pangolin.step, failed]
        exact inv
      · rw [Pangolin.step, result]
        exact inv.recovered recovered password salt escrow
  | recoverFromShares input =>
      rcases recoverFromShares_cases scheme vault input with
        unchanged | ⟨recovered, escrow, result⟩
      · rw [Pangolin.step, unchanged]
        exact inv
      · rw [Pangolin.step, result]
        exact inv.recovered recovered input.password input.salt escrow
  | unlock _ | lock | reopen _ _ | accountAdd _ _ _ | accountUpdate _ _ _ | deleteAccount _ _
  | resolveFork _ _ _ | stashPendingMerge _ _ | onboardGuardians _ _ _ _
  | persistRecoveryRecipient _ _ _ _ _ | clearRecoveryRecipient _ | upsertDirectory _
  | queueRotationPending _ => exact inv.effect (ordinary_effect scheme hash vault trivial)
  | _ => exact absurd safe id

/-- In every run from `create` that installs a foreign VDK only while no row carries the
current epoch, no epoch tag is shared by two keys, and every rotation that commits
strictly advances the current epoch. -/
theorem epochs_not_aliased {scheme : ShareScheme} {hash : CanonicalHash} {password : Password}
    {draw : CreateDraw} {vault : Vault}
    (run : Reaches (step scheme hash) AliasSafe (create password draw) vault) :
    NoAliasing vault ∧
      ∀ newPassword onchain rotationDraw vault' outcome,
        completeRotation scheme vault newPassword onchain rotationDraw = (vault', .ok outcome) →
          readCurrentEpoch vault.disk.keys < readCurrentEpoch vault'.disk.keys := by
  have inv := run.invariant AliasInv (fun _ _ inv safe => inv.step safe) (.create password draw)
  refine ⟨inv.toNoAliasing, ?_⟩
  intro newPassword onchain rotationDraw vault' outcome succeeded
  rcases completeRotation_cases scheme vault newPassword onchain rotationDraw with
    ⟨-, error, failed⟩ | ⟨active, commit, escrow, deviceSet, -, -, next, -, rotated⟩
  · rw [succeeded] at failed
    cases failed
  · rw [succeeded] at rotated
    subst rotated
    simp only [lockedWith, readCurrentEpoch_rotatedKeys, next]
    omega

/-! ## Installing over a used epoch -/

/-- A paired VDK installed before any row is written, then a rotation between two
accounts. -/
theorem epochs_not_aliased_fresh_install :
    NoAliasing (Sample.run Sample.vault [Sample.unlock ⟨[1]⟩,
      .installPairedVdk ⟨50⟩ ⟨7⟩ ⟨[2]⟩ ⟨60⟩, Sample.unlock ⟨[2]⟩, Sample.add 1 1, Sample.onboard,
      Sample.directory, Sample.rotate 8 9 ⟨[3]⟩, Sample.unlock ⟨[3]⟩, Sample.add 2 2]) :=
  (epochs_not_aliased (.foldl _ (by
    refine ⟨trivial, ?_, trivial, trivial, trivial, trivial, trivial, trivial, trivial, trivial⟩
    intro active _
    exact .inr (by decide)))).1

/-- Delete the only account, join another vault, write again. -/
def joinedVault : Vault :=
  Sample.run Sample.vault [Sample.unlock ⟨[1]⟩, Sample.add 1 1,
    .deleteAccount ⟨1⟩ (Sample.draw 2), .installPairedVdk ⟨50⟩ ⟨7⟩ ⟨[2]⟩ ⟨60⟩,
    Sample.unlock ⟨[2]⟩, Sample.add 2 3]

/-- The rows of epoch 0 now carry two keys. -/
theorem joinedVault_aliases_epoch :
    joinedVault.disk.log.revisions.map (fun row => (row.vdkEpoch, sealingKey row)) =
        [(0, some ⟨2⟩), (0, some ⟨2⟩), (0, some ⟨50⟩)] ∧
      ¬ NoAliasing joinedVault := by
  have rows : joinedVault.disk.log.revisions.map (fun row => (row.vdkEpoch, sealingKey row)) =
      [(0, some ⟨2⟩), (0, some ⟨2⟩), (0, some ⟨50⟩)] := by decide
  refine ⟨rows, ?_⟩
  intro unaliased
  obtain ⟨key, sealedWith⟩ := unaliased.oneKey 0
  have each : ∀ entry ∈ joinedVault.disk.log.revisions.map
      (fun row => (row.vdkEpoch, sealingKey row)), entry.1 = 0 → entry.2 = some key := by
    intro entry member
    obtain ⟨row, rowMember, rfl⟩ := List.mem_map.mp member
    exact sealedWith row rowMember
  rw [rows] at each
  have first := each (0, some ⟨2⟩) (by simp) rfl
  have last := each (0, some ⟨50⟩) (by simp) rfl
  rw [← first] at last
  simp at last

end Pangolin
