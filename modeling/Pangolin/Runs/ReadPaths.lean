import Pangolin.Runs.KeyInvariant

/-!
# The two readers of a revision

Unlock decodes a row with the key of the row's epoch.  `read_identity_at`, behind
`account_get`, `account_update`, the search, `resolve_fork` and the exports, opens it
with the session's current VDK whatever the epoch.  The two agree exactly on the rows
whose epoch key is the session's: after a rotation, no earlier row reads back.
-/

namespace Pangolin

open Symbolic Crypto Store Pangolin.Core Transition

/-! ## Runs with rotations -/

/-- The key invariant together with the order of the epochs, which a rotation to the
next epoch relies on. -/
structure RotatingInv (vault : Vault) : Prop where
  keys : KeyInv vault
  below : ∀ retained ∈ vault.disk.keys.vdkChain,
    retained.epoch < readCurrentEpoch vault.disk.keys

/-- No key is held for an epoch that is yet to come. -/
theorem epoch_le_of_keyring {keys : KeyTables}
    (below : ∀ retained ∈ keys.vdkChain, retained.epoch < readCurrentEpoch keys) {epoch : Nat}
    {key : VdkKey} (held : keyring keys epoch = some key) : epoch ≤ readCurrentEpoch keys := by
  unfold keyring at held
  split at held
  · next current => exact current.le
  · obtain ⟨retained, found, -⟩ := Option.map_eq_some_iff.mp held
    have lower := below retained (Table.mem_of_lookup found)
    rw [Table.key_of_lookup found] at lower
    exact lower.le

theorem RotatingInv.epoch_le {vault : Vault} (inv : RotatingInv vault) {epoch : Nat}
    {key : VdkKey} (held : keyring vault.disk.keys epoch = some key) :
    epoch ≤ readCurrentEpoch vault.disk.keys :=
  epoch_le_of_keyring inv.below held

/-- A rotation to the next epoch retains the one it demotes below it. -/
theorem below_rotated {keys : KeyTables} {vaultMeta : VaultMeta} {vdk : VdkKey}
    {device : DeviceKey} {commit : RotationCommit}
    (below : ∀ retained ∈ keys.vdkChain, retained.epoch < readCurrentEpoch keys)
    (next : commit.newEpoch = readCurrentEpoch keys + 1) :
    ∀ retained ∈ (rotatedKeys keys vaultMeta vdk device commit).vdkChain,
      retained.epoch < readCurrentEpoch (rotatedKeys keys vaultMeta vdk device commit) := by
  intro retained member
  rw [readCurrentEpoch_rotatedKeys, next]
  simp only [rotatedKeys, resealDeviceKey_vdkChain, Table.mem_upsert] at member
  rcases member with ⟨old, -⟩ | rfl
  · have lower := below retained old
    omega
  · exact Nat.lt_succ_self _

/-- The calls of these runs: the ordinary ones and rotations. -/
def IsRotationRunCall (_ : Vault) : Op → Prop
  | .completeRotation .. => True
  | op => op.Ordinary

theorem RotatingInv.ordinary {vault : Vault} {op : Op} (inv : RotatingInv vault)
    (scheme : ShareScheme) (hash : CanonicalHash) (ordinary : op.Ordinary) :
    RotatingInv (step scheme hash vault op) := by
  obtain ⟨keys, same⟩ := inv.keys.ordinary scheme hash ordinary
  refine ⟨keys, ?_⟩
  rw [same.vdkChain, same.currentEpoch]
  exact inv.below

/-- A rotation to the next epoch. -/
theorem RotatingInv.rotated {vault : Vault} (inv : RotatingInv vault) {active : ActiveState}
    (session : vault.active = some active) {commit : RotationCommit}
    (fits : fitsI64 commit.newEpoch = true)
    (next : commit.newEpoch = readCurrentEpoch vault.disk.keys + 1) (escrow : EscrowTables)
    (deviceSet : DeviceSetTables) :
    RotatingInv (lockedWith vault { vault.disk with
      keys := rotatedKeys vault.disk.keys vault.vaultMeta active.vdk active.deviceKey commit
      escrow
      deviceSet }) := by
  have unused : ∀ retained ∈ vault.disk.keys.vdkChain, retained.epoch ≠ commit.newEpoch := by
    intro retained member
    have lower := inv.below retained member
    omega
  have unstamped : ∀ row ∈ vault.disk.log.revisions, row.vdkEpoch ≠ commit.newEpoch := by
    intro row member
    obtain ⟨key, payload, sealedRow⟩ := inv.keys.rows row member
    have atMost := inv.epoch_le sealedRow.selected
    omega
  exact ⟨inv.keys.rotated session commit fits (by omega) unused unstamped escrow deviceSet,
    below_rotated inv.below next⟩

theorem RotatingInv.step {scheme : ShareScheme} {hash : CanonicalHash} {vault : Vault} {op : Op}
    (inv : RotatingInv vault) (call : IsRotationRunCall vault op) :
    RotatingInv (step scheme hash vault op) := by
  cases op with
  | completeRotation password onchain draw =>
      rcases completeRotation_cases scheme vault password onchain draw with
        ⟨⟨sameDisk, sameMeta, session⟩, -⟩ |
        ⟨active, commit, escrow, deviceSet, session, fits, next, -, rotated⟩
      · rw [Pangolin.step]
        exact ⟨inv.keys.frame sameMeta (by rw [sameDisk]) (by rw [sameDisk]) (by rw [sameDisk])
          session, by rw [sameDisk]; exact inv.below⟩
      · rw [Pangolin.step, rotated]
        exact inv.rotated session fits next escrow deviceSet
  | unlock _ | lock | reopen _ _ | accountAdd _ _ _ | accountUpdate _ _ _ | deleteAccount _ _
  | resolveFork _ _ _ | stashPendingMerge _ _ | onboardGuardians _ _ _ _
  | persistRecoveryRecipient _ _ _ _ _ | clearRecoveryRecipient _ | upsertDirectory _
  | queueRotationPending _ => exact inv.ordinary scheme hash trivial
  | _ => exact absurd call id

theorem RotatingInv.create (password : Password) (draw : CreateDraw) :
    RotatingInv (create password draw) :=
  ⟨.create password draw, by simp [Store.create]⟩

/-! ## The readers -/

/-- What reading a payload of a known version returns: its identity, or that the account
is deleted. -/
def readPayload : IdentityPayload → Except StoreError AccountIdentity
  | .live identity => .ok identity
  | _ => .error .accountTombstoned

/-- `read_identity_at` on a sealed row: the payload when the key is the sealing one, an
authentication failure otherwise. -/
theorem readRow_sealedRow {ring : Nat → Option VdkKey} {vaultId : VaultId} {row : RevisionRow}
    {key : VdkKey} {payload : IdentityPayload}
    (sealedRow : SealedRow ring vaultId row key payload) (vdk : VdkKey) :
    readRow vaultId vdk row =
      if key = vdk then readPayload payload else .error .authenticationFailed := by
  have version : ¬ revisionSchemaVersionMax < row.schemaVersion :=
    Nat.not_lt.mpr sealedRow.version
  have payloadLocal := sealedRow.payloadLocal
  unfold readRow
  rw [sealedRow.encPayload]
  by_cases same : key = vdk
  · subst same
    rw [open?_sealPayload]
    cases payload with
    | live identity => simp [version, readPayload]
    | tombstone accountId tombstonedAtMs => simp [version, readPayload]
    | future payloadVersion => exact absurd payloadLocal id
  · have refused : (sealPayload key row.encNonce (row.aad vaultId) payload).open? vdk
        row.encNonce (row.aad vaultId) = none :=
      Sealed.open?_eq_none_of_key_ne same _
    simp [refused, same]

/-- Both readers return what the row was sealed from; so does reading the account whose
head the row is. -/
structure ReadersAgree (vault : Vault) (active : ActiveState) (row : RevisionRow)
    (payload : IdentityPayload) : Prop where
  sealedFrom : row.encPayload.plaintext = some payload
  decoded : decodeHeadRow vault.disk.log.revisions vault.vaultMeta.vaultId active.vdk
    active.chain row.accountId row.revisionId = .ok (.ofPayload payload)
  read : readIdentityAt vault active row.accountId row.revisionId = readPayload payload
  readHead : ∀ account, liveAccount vault.disk.log row.accountId = .ok account →
    account.headRevisionId = row.revisionId →
      readHeadIdentity vault active row.accountId = readPayload payload

/-- In every Active state of a run of edits, rotations and unlocks, and for every row,
the readers agree on the sealed payload exactly when the key of the row's epoch is the
session's current VDK. -/
theorem readers_agree_iff {scheme : ShareScheme} {hash : CanonicalHash} {password : Password}
    {draw : CreateDraw} {vault : Vault} {active : ActiveState} {row : RevisionRow}
    (run : Reaches (step scheme hash) IsRotationRunCall (create password draw) vault)
    (session : vault.active = some active) (member : row ∈ vault.disk.log.revisions) :
    (∃ payload, ReadersAgree vault active row payload) ↔
      keyring vault.disk.keys row.vdkEpoch = some active.vdk := by
  have inv := run.invariant RotatingInv (fun _ _ inv call => inv.step call)
    (.create password draw)
  obtain ⟨key, payload, sealedRow⟩ := inv.keys.rows row member
  have found := findRevision_of_mem inv.keys.linear.uniqueRows member
  have read : readIdentityAt vault active row.accountId row.revisionId =
      if key = active.vdk then readPayload payload else .error .authenticationFailed := by
    simp only [readIdentityAt, found]
    exact readRow_sealedRow sealedRow active.vdk
  have sealedFrom : row.encPayload.plaintext = some payload := by
    rw [sealedRow.encPayload]
    rfl
  rw [sealedRow.selected, Option.some.injEq]
  constructor
  · rintro ⟨payload', agree⟩
    obtain rfl := Option.some.inj (sealedFrom.symm.trans agree.sealedFrom)
    by_contra different
    have refused := agree.read
    rw [read, if_neg different] at refused
    cases payload <;> cases refused
  · intro same
    rw [if_pos same] at read
    refine ⟨payload, sealedFrom, ?_, read, ?_⟩
    · simp only [decodeHeadRow, found]
      exact decodeRow_sealedRow
        (sealedRow.congr ((inv.keys.session active session).selects row.vdkEpoch))
    · intro account live head
      rw [readHeadIdentity, live]
      simp only [bind, Except.bind, head]
      exact read

/-! ## An earlier row after one rotation -/

/-- An account written, then a rotation, then a new session. -/
def rotatedVault : Vault :=
  Sample.run Sample.vault [Sample.unlock ⟨[1]⟩, Sample.add 1 1, Sample.onboard,
    Sample.directory, Sample.rotate 8 9 ⟨[2]⟩, Sample.unlock ⟨[2]⟩, Sample.add 2 2]

/-- Its session: the new VDK, and the old one retained for epoch 0. -/
def rotatedSession : ActiveState :=
  ⟨⟨8⟩, ⟨[(0, ⟨2⟩)], 1⟩, [(⟨1⟩, Sample.identity), (⟨2⟩, Sample.identity)], Sample.device, []⟩

/-- The row of an account added in an epoch. -/
def addedRow (account epoch : Nat) (key : VdkKey) : RevisionRow :=
  { revisionId := ⟨account⟩
    accountId := ⟨account⟩
    parent := .genesisParent
    deviceId := ⟨11⟩
    schemaVersion := 0
    createdAt := 0
    encPayload := sealPayload key ⟨account + 1⟩ ⟨⟨7⟩, ⟨account⟩, .genesisParent, 0⟩
      (.live Sample.identity)
    encNonce := ⟨account + 1⟩
    isTombstone := false
    vdkEpoch := epoch }

/-- The row written after the rotation reads back on both paths. -/
theorem readers_agree_current_epoch :
    ∃ payload, ReadersAgree rotatedVault rotatedSession (addedRow 2 1 ⟨8⟩) payload := by
  have run : Reaches (step countingScheme Sample.hash) IsRotationRunCall
      (create ⟨[1]⟩ ⟨⟨7⟩, ⟨1⟩, ⟨2⟩, ⟨3⟩, 0⟩) rotatedVault :=
    .foldl _ (by exact ⟨trivial, trivial, trivial, trivial, trivial, trivial, trivial, trivial⟩)
  exact (readers_agree_iff run (by decide) (by decide)).mpr (by decide)

/-- Unlock decodes the row written before it; `read_identity_at` and `account_get`
refuse it. -/
theorem earlier_row_unreadable :
    Reaches (step countingScheme Sample.hash) IsRotationRunCall Sample.vault rotatedVault ∧
      rotatedVault.active = some rotatedSession ∧
      addedRow 1 0 ⟨2⟩ ∈ rotatedVault.disk.log.revisions ∧
      decodeHeadRow rotatedVault.disk.log.revisions ⟨7⟩ rotatedSession.vdk rotatedSession.chain
        ⟨1⟩ ⟨1⟩ = .ok (.live Sample.identity) ∧
      readIdentityAt rotatedVault rotatedSession ⟨1⟩ ⟨1⟩ = .error .authenticationFailed ∧
      (accountGet rotatedVault ⟨1⟩ 0).2 = .error .authenticationFailed :=
  ⟨.foldl _ (by exact ⟨trivial, trivial, trivial, trivial, trivial, trivial, trivial, trivial⟩),
    by decide, by decide, by decide, by decide, by decide⟩

end Pangolin
