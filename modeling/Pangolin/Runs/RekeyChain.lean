import Pangolin.Runs.KeyInvariant

/-!
# Re-keys and the retained epochs

A re-key draws a fresh salt, so it changes the one authority that unlock opens every
wrapper with: the meta row and all retained anchors.  It rewrites the meta row and, for
a rotation, the anchor of the epoch it demotes.  Anchors stored earlier keep the old
authority.

So re-keys keep the vault openable as long as no epoch is retained yet when they run:
any number of recoveries, then at most one rotation.  Over such runs the keyring only
grows, and every row ever written decodes.  One retained anchor of another authority
locks the vault for good.
-/

namespace Pangolin

open Symbolic Crypto Store Pangolin.Core Transition

/-! ## Unlocking a linear vault -/

/-- Under the key invariant an openable vault unlocks, and the session selects keys as
the keyring does. -/
theorem KeyInv.unlock_ok {vault : Vault} (inv : KeyInv vault) {input : UnlockInput}
    (openable : Openable vault.disk.keys input.password) (presence : input.presence = true) :
    ∃ unlocked active, unlock vault input = (unlocked, .ok ()) ∧
      unlocked.active = some active ∧ unlocked.disk.log = vault.disk.log ∧
      unlocked.vaultMeta = vault.vaultMeta ∧
      ∀ epoch, entryKey active.vdk active.chain epoch = keyring vault.disk.keys epoch := by
  apply inv.toKeyCore.unlock_ok openable presence
  intro chain selects
  apply buildActiveStateData_ok inv.linear
  intro row member
  obtain ⟨key, payload, sealedRow⟩ := inv.rows row member
  exact ⟨key, payload, sealedRow.congr (selects _)⟩

/-! ## Runs of re-keys -/

/-- A vault together with the password given to its last re-key. -/
structure Keyed where
  vault : Vault
  password : Password

/-- The password a re-key sets, if the call is one and succeeds. -/
def rekeyPassword (vault : Vault) : Op → Option Password
  | .recoverWithNewPassword _ password _ => some password
  | .commitRecoveryRekey recovered password salt reSplit =>
      match (commitRecoveryRekey vault recovered password salt reSplit).2 with
      | .ok _ => some password
      | .error _ => none
  | .commitVdkRotationFromActive commit =>
      match (commitVdkRotationFromActive vault commit).2 with
      | .ok _ => some commit.password
      | .error _ => none
  | _ => none

def keyedStep (scheme : ShareScheme) (hash : CanonicalHash) (keyed : Keyed) (op : Op) : Keyed :=
  ⟨step scheme hash keyed.vault op, (rekeyPassword keyed.vault op).getD keyed.password⟩

/-- The condition on a re-key: nothing is retained yet, the password is not empty, a
recovery brings back the VDK the vault has, a rotation moves to another epoch. -/
def RekeySafe (keyed : Keyed) : Op → Prop
  | .recoverWithNewPassword recovered password _
  | .commitRecoveryRekey recovered password _ _ =>
      keyed.vault.disk.keys.vdkChain = [] ∧ password.bytes ≠ [] ∧
        recovered = keyed.vault.disk.keys.vaultMeta.wrapped.msg
  | .commitVdkRotationFromActive commit =>
      keyed.vault.disk.keys.vdkChain = [] ∧ commit.password.bytes ≠ [] ∧
        commit.newEpoch ≠ readCurrentEpoch keyed.vault.disk.keys
  | op => op.Ordinary

structure RekeyInv (keyed : Keyed) : Prop where
  keys : KeyInv keyed.vault
  openable : Openable keyed.vault.disk.keys keyed.password

/-- Keys and rows are only ever added. -/
structure Grows (before after : Vault) : Prop where
  keyring : ∀ epoch key, keyring before.disk.keys epoch = some key →
    keyring after.disk.keys epoch = some key
  rows : ∀ row ∈ before.disk.log.revisions, row ∈ after.disk.log.revisions

theorem Grows.refl (vault : Vault) : Grows vault vault :=
  ⟨fun _ _ held => held, fun _ member => member⟩

theorem Grows.trans {first second third : Vault} (one : Grows first second)
    (two : Grows second third) : Grows first third :=
  ⟨fun epoch key held => two.keyring epoch key (one.keyring epoch key held),
    fun row member => two.rows row (one.rows row member)⟩

theorem Grows.of_sameKeys {before after : Vault} (same : SameKeys before after) :
    Grows before after :=
  ⟨fun epoch key held => by rw [same.keyring]; exact held, same.rows⟩

/-- With nothing retained, the keyring holds the current epoch alone. -/
theorem keyring_of_empty {keys : KeyTables} (empty : keys.vdkChain = []) {epoch : Nat}
    {key : VdkKey} (held : keyring keys epoch = some key) : epoch = readCurrentEpoch keys := by
  unfold keyring at held
  split at held
  · next current => exact current
  · simp [empty, Table.lookup] at held

/-- A safe recovery keeps the invariant under its password. -/
theorem RekeyInv.recovered {keyed : Keyed} (inv : RekeyInv keyed) {password : Password}
    (salt : KdfSalt) (empty : keyed.vault.disk.keys.vdkChain = [])
    (nonempty : password.bytes ≠ []) (escrow : EscrowTables) :
    let vault := lockedWith keyed.vault (recoveredDisk keyed.vault
      keyed.vault.disk.keys.vaultMeta.wrapped.msg password salt escrow)
    RekeyInv ⟨vault, password⟩ ∧ Grows keyed.vault vault := by
  refine ⟨⟨inv.keys.recovered password salt escrow, ?_⟩, ?_⟩
  · refine .fresh nonempty rfl ?_
    simp [lockedWith, recoveredDisk, empty]
  · exact ⟨fun _ _ held => held, fun _ member => member⟩

/-- A safe rotation keeps the invariant under its password and adds one key. -/
theorem RekeyInv.rotated {keyed : Keyed} (inv : RekeyInv keyed) {active : ActiveState}
    (session : keyed.vault.active = some active) {commit : RotationCommit} {disk : Disk}
    (transacted : rotationTx keyed.vault.disk keyed.vault.vaultMeta active.vdk active.deviceKey
      commit = .ok disk) (empty : keyed.vault.disk.keys.vdkChain = [])
    (nonempty : commit.password.bytes ≠ [])
    (advances : commit.newEpoch ≠ readCurrentEpoch keyed.vault.disk.keys) :
    RekeyInv ⟨lockedWith keyed.vault disk, commit.password⟩ ∧
      Grows keyed.vault (lockedWith keyed.vault disk) := by
  obtain ⟨-, fits, escrow, -, rfl⟩ := rotationTx_eq_ok_iff.mp transacted
  have held := inv.keys.session active session
  have unstamped : ∀ row ∈ keyed.vault.disk.log.revisions, row.vdkEpoch ≠ commit.newEpoch := by
    intro row member sameEpoch
    obtain ⟨key, payload, sealedRow⟩ := inv.keys.rows row member
    exact advances (sameEpoch ▸ keyring_of_empty empty sealedRow.selected)
  refine ⟨⟨inv.keys.rotated session commit fits advances (by simp [empty]) unstamped escrow
    keyed.vault.disk.deviceSet, ?_⟩, ?_, fun _ member => member⟩
  · refine .fresh nonempty (by simp [lockedWith, rotatedKeys]; rfl) ?_
    intro row member
    simp only [lockedWith, rotatedKeys, resealDeviceKey_vdkChain, empty, Table.upsert,
      List.filter_nil, List.nil_append, List.mem_singleton] at member
    subst member
    exact ⟨rfl, rfl⟩
  · intro epoch key known
    simp only [lockedWith, keyring_rotatedKeys held.vdk]
    rw [if_neg, known]
    rintro rfl
    exact advances (keyring_of_empty empty known)

/-- An ordinary call keeps the invariant under the same password. -/
theorem RekeyInv.ordinary {scheme : ShareScheme} {hash : CanonicalHash} {keyed : Keyed}
    {op : Op} (inv : RekeyInv keyed) (ordinary : op.Ordinary) :
    RekeyInv ⟨Pangolin.step scheme hash keyed.vault op, keyed.password⟩ ∧
      Grows keyed.vault (Pangolin.step scheme hash keyed.vault op) := by
  obtain ⟨keys, same⟩ := inv.keys.ordinary scheme hash ordinary
  exact ⟨⟨keys, inv.openable.congr same.vaultMeta same.vdkChain⟩, .of_sameKeys same⟩

/-- One safe step. -/
theorem RekeyInv.step {scheme : ShareScheme} {hash : CanonicalHash} {keyed : Keyed} {op : Op}
    (inv : RekeyInv keyed) (safe : RekeySafe keyed op) :
    RekeyInv (keyedStep scheme hash keyed op) ∧
      Grows keyed.vault (keyedStep scheme hash keyed op).vault := by
  cases op with
  | recoverWithNewPassword recovered password salt =>
      obtain ⟨empty, nonempty, rfl⟩ := safe
      exact inv.recovered salt empty nonempty keyed.vault.disk.escrow
  | commitRecoveryRekey recovered password salt reSplit =>
      obtain ⟨empty, nonempty, rfl⟩ := safe
      rcases commitRecoveryRekey_cases keyed.vault keyed.vault.disk.keys.vaultMeta.wrapped.msg
          password salt reSplit with ⟨error, failed⟩ | ⟨escrow, -, result⟩
      · simp only [keyedStep, rekeyPassword, Pangolin.step, failed]
        exact ⟨inv, .refl _⟩
      · simp only [keyedStep, rekeyPassword, Pangolin.step, result]
        exact inv.recovered salt empty nonempty escrow
  | commitVdkRotationFromActive commit =>
      obtain ⟨empty, nonempty, advances⟩ := safe
      cases committed : commitVdkRotationFromActive keyed.vault commit with
      | mk vault result =>
          simp only [keyedStep, rekeyPassword, Pangolin.step, committed]
          cases result with
          | error error =>
              rcases commitVdkRotationFromActive_error committed with rfl | rfl
              · exact ⟨inv, .refl _⟩
              · exact ⟨⟨inv.keys.frame rfl rfl rfl rfl (.inr rfl), inv.openable.congr rfl rfl⟩,
                  .of_sameKeys (.of_disk rfl rfl)⟩
          | ok value =>
              obtain ⟨active, disk, session, transacted, rfl⟩ :=
                commitVdkRotationFromActive_eq_ok_iff.mp committed
              exact inv.rotated session transacted empty nonempty advances
  | unlock _ | lock | reopen _ _ | accountAdd _ _ _ | accountUpdate _ _ _ | deleteAccount _ _
  | resolveFork _ _ _ | stashPendingMerge _ _ | onboardGuardians _ _ _ _
  | persistRecoveryRecipient _ _ _ _ _ | clearRecoveryRecipient _ | upsertDirectory _
  | queueRotationPending _ => exact inv.ordinary trivial
  | _ => exact absurd safe id

theorem RekeyInv.create {password : Password} (nonempty : password.bytes ≠ [])
    (draw : CreateDraw) : RekeyInv ⟨Store.create password draw, password⟩ where
  keys := .create password draw
  openable := .fresh nonempty rfl (by simp [Store.create])

/-- In every run from `create` whose re-keys find nothing retained, unlock with the last
re-key's password succeeds at the end; the session holds, for the epoch that was
current at any earlier point, the VDK that was current there; and every row of that
earlier point decodes to what it was sealed from. -/
theorem rekeyed_vault_opens {scheme : ShareScheme} {hash : CanonicalHash} {password : Password}
    {draw : CreateDraw} (nonempty : password.bytes ≠ []) {earlier later : Keyed}
    (before : Reaches (keyedStep scheme hash) RekeySafe ⟨create password draw, password⟩ earlier)
    (after : Reaches (keyedStep scheme hash) RekeySafe earlier later) (input : UnlockInput)
    (presence : input.presence = true) (samePassword : input.password = later.password) :
    ∃ unlocked active, unlock later.vault input = (unlocked, .ok ()) ∧
      unlocked.active = some active ∧
      entryKey active.vdk active.chain (readCurrentEpoch earlier.vault.disk.keys) =
        some earlier.vault.disk.keys.vaultMeta.wrapped.msg ∧
      ∀ row ∈ earlier.vault.disk.log.revisions, ∃ payload,
        row.encPayload.plaintext = some payload ∧
        decodeHeadRow unlocked.disk.log.revisions unlocked.vaultMeta.vaultId active.vdk
          active.chain row.accountId row.revisionId = .ok (.ofPayload payload) := by
  have earlierInv := before.invariant RekeyInv
    (fun _ _ inv safe => (inv.step safe).1) (.create nonempty draw)
  have laterInv := after.invariant RekeyInv (fun _ _ inv safe => (inv.step safe).1) earlierInv
  have grows := after.relates RekeyInv (fun first second => Grows first.vault second.vault)
    (fun _ _ inv safe => (inv.step safe).1)
    (fun _ _ _ inv safe grown => grown.trans (inv.step safe).2) earlierInv (.refl _)
  obtain ⟨unlocked, active, opened, session, log, vaultMeta, selects⟩ :=
    laterInv.keys.unlock_ok (samePassword ▸ laterInv.openable) presence
  refine ⟨unlocked, active, opened, session, ?_, ?_⟩
  · rw [selects]
    exact grows.keyring _ _ (keyring_current _)
  · intro row member
    obtain ⟨key, payload, sealedRow⟩ := laterInv.keys.rows row (grows.rows row member)
    refine ⟨payload, by rw [sealedRow.encPayload]; rfl, ?_⟩
    rw [decodeHeadRow, log, vaultMeta,
      findRevision_of_mem laterInv.keys.linear.uniqueRows (grows.rows row member)]
    exact decodeRow_sealedRow (sealedRow.congr (selects _))

/-! ## Lock-out -/

/-- One retained anchor sealed with another salt fails every unlock. -/
theorem unlock_fails_of_stale_anchor {vault : Vault} {row : RetainedEpoch}
    (member : row ∈ vault.disk.keys.vdkChain)
    (retained : row.epoch ≠ readCurrentEpoch vault.disk.keys)
    (stale : row.anchor.key.salt ≠ vault.vaultMeta.kdfSalt) (input : UnlockInput) :
    ∃ error, unlock vault input = (vault, .error error) := by
  cases unlocked : unlock vault input with
  | mk vault' result =>
      cases result with
      | error error => exact ⟨error, by rw [unlock_error unlocked]⟩
      | ok value =>
          obtain ⟨vdk, chain, data, deviceKey, keys, found⟩ := unlock_eq_ok_iff.mp unlocked
          obtain ⟨-, -, -, -, -, built⟩ := openKeys_eq_ok_iff.mp found.opened
          obtain ⟨opens, -⟩ := (buildOnUnlock_eq_ok_iff _ _).mp built
          exact absurd (by rw [(opens row member retained).1]) stale

/-- A rotation with a fresh salt locks out a vault that retains an epoch already. -/
theorem rotation_locks_out {vault vault' : Vault} {commit : RotationCommit}
    {row : RetainedEpoch}
    (committed : commitVdkRotationFromActive vault commit = (vault', .ok ()))
    (member : row ∈ vault.disk.keys.vdkChain)
    (retained : row.epoch ≠ readCurrentEpoch vault.disk.keys)
    (advances : row.epoch ≠ commit.newEpoch) (freshSalt : row.anchor.key.salt ≠ commit.salt)
    (input : UnlockInput) : ∃ error, unlock vault' input = (vault', .error error) := by
  obtain ⟨active, disk, -, transacted, rfl⟩ := commitVdkRotationFromActive_eq_ok_iff.mp committed
  obtain ⟨-, -, escrow, -, rfl⟩ := rotationTx_eq_ok_iff.mp transacted
  have kept : row ∈ (rotatedKeys vault.disk.keys vault.vaultMeta active.vdk active.deviceKey
      commit).vdkChain := by
    simp only [rotatedKeys, resealDeviceKey_vdkChain, Table.mem_upsert]
    exact .inl ⟨member, retained⟩
  refine unlock_fails_of_stale_anchor kept ?_ ?_ input
  · simpa [lockedWith] using advances
  · simpa [lockedWith, rotatedKeys, freshMeta] using freshSalt

/-! ## Two rotations -/

/-- The calls of such runs, with no condition on the re-keys. -/
def IsRekeyRunCall (_ : Keyed) : Op → Prop
  | .recoverWithNewPassword .. | .commitRecoveryRekey .. | .commitVdkRotationFromActive _ => True
  | op => op.Ordinary

def rotateTo (vdk salt epoch : Nat) (password : Password) : Op :=
  .commitVdkRotationFromActive ⟨⟨vdk⟩, password, ⟨salt⟩, epoch,
    ⟨⟨⟨5⟩, .new ⟨7⟩, ⟨vdk⟩⟩, 2, 3, epoch, []⟩⟩

def newVault : Keyed := ⟨Sample.vault, ⟨[1]⟩⟩

def runKeyed (start : Keyed) (ops : List Op) : Keyed :=
  ops.foldl (keyedStep countingScheme Sample.hash) start

/-- A recovery and one rotation, with an account written before them. -/
theorem rekeyed_vault_opens_once :
    let earlier := runKeyed newVault [Sample.unlock ⟨[1]⟩, Sample.add 1 1]
    let later := runKeyed earlier [.recoverWithNewPassword ⟨2⟩ ⟨[2]⟩ ⟨4⟩, Sample.unlock ⟨[2]⟩,
      rotateTo 8 9 1 ⟨[3]⟩]
    ∃ unlocked active, unlock later.vault (Sample.unlockInput ⟨[3]⟩) = (unlocked, .ok ()) ∧
      unlocked.active = some active ∧
      entryKey active.vdk active.chain (readCurrentEpoch earlier.vault.disk.keys) =
        some earlier.vault.disk.keys.vaultMeta.wrapped.msg ∧
      ∀ row ∈ earlier.vault.disk.log.revisions, ∃ payload,
        row.encPayload.plaintext = some payload ∧
        decodeHeadRow unlocked.disk.log.revisions unlocked.vaultMeta.vaultId active.vdk
          active.chain row.accountId row.revisionId = .ok (.ofPayload payload) :=
  rekeyed_vault_opens (by decide) (.foldl _ (by exact ⟨trivial, trivial, trivial⟩))
    (.foldl _ (by
      exact ⟨⟨rfl, by decide, rfl⟩, trivial, ⟨by decide, by decide, by decide⟩, trivial⟩))
    _ rfl rfl

/-- Two rotations with an unlock before each, every salt drawn once. -/
def twiceRotated : Keyed :=
  runKeyed newVault [Sample.unlock ⟨[1]⟩, rotateTo 8 9 1 ⟨[2]⟩, Sample.unlock ⟨[2]⟩,
    rotateTo 18 19 2 ⟨[3]⟩]

/-- After the second rotation its password no longer opens the vault. -/
theorem second_rotation_locks_out :
    Reaches (keyedStep countingScheme Sample.hash) IsRekeyRunCall newVault twiceRotated ∧
      twiceRotated.password = ⟨[3]⟩ ∧
      (unlock twiceRotated.vault (Sample.unlockInput twiceRotated.password)).2 =
        .error .authenticationFailed :=
  ⟨.foldl _ (by exact ⟨trivial, trivial, trivial, trivial, trivial⟩), by decide, by decide⟩

end Pangolin
