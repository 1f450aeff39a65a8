import Pangolin.Runs.ReadPaths
import Pangolin.Runs.Restores
import Pangolin.Store.RowChanges

/-!
# Export, then restore

A run of account writes, ingests, rotations and unlocks whose texts pass the validators a
second time, that ingests no foreign account and rotates only an empty vault.  In every
state of such a run each live account has a head sealed under the current VDK, so an export
reads them all, and what it seals is decoded and restored to the same contents.

Outside of that an export can fail or a restore can bring back less: `read_identity_at`
opens every head with the current VDK, whatever its epoch.
-/

namespace Pangolin

open Symbolic Crypto Store Pangolin.Core Transition Utf8

/-! ## The machine -/

/-- The calls that make up a vault's contents, with the inputs as they come in. -/
inductive ArchiveOp where
  | call (op : Op)
  | accountAdd (draft : AccountIdentityDraft) (accountId : AccountId) (draw : WriteDraw)
  | accountUpdate (accountId : AccountId) (patch : AccountIdentityPatch) (draw : WriteDraw)
  | addAccount (snapshot : AccountSnapshot) (accountId : AccountId) (draw : WriteDraw)
  | updateAccount (accountId : AccountId) (snapshot : AccountSnapshot) (draw : WriteDraw)
  | ingest (event : RevisionEvent) (nowMs : Int) (now : Nat)

section

variable (tools : TextTools) (scheme : ShareScheme) (hash : CanonicalHash)

def archiveStep (vault : Vault) : ArchiveOp → Vault
  | .call op => step scheme hash vault op
  | .accountAdd draft accountId draw =>
      (accountAdd vault (draft.validateIntoIdentity tools draw.nowMs vault.deviceId) accountId
        draw).1
  | .accountUpdate accountId patch draw =>
      (accountUpdate vault accountId (patch.apply tools draw.nowMs vault.deviceId) draw).1
  | .addAccount snapshot accountId draw => (addAccount vault snapshot accountId draw).1
  | .updateAccount accountId snapshot draw => (updateAccount vault accountId snapshot draw).1
  | .ingest event nowMs now => (ingestChainRevision hash vault event nowMs now).1

/-- The event is about an account that is there, or creates one that is deleted. -/
def KnownEvent (vault : Vault) (event : RevisionEvent) (now : Nat) : Prop :=
  (∃ account ∈ vault.disk.log.accounts, account.accountId = event.content.accountId) ∨
    detectTombstoneBit (maybeExpireActiveSession vault now) event.content = true

/-- The condition on a call: texts that come through a second validation, events of known
accounts, rotations of a vault without live accounts. -/
def ArchiveSafe (vault : Vault) : ArchiveOp → Prop
  | .call (.unlock _) | .call .lock | .call (.reopen _ _) | .call (.deleteAccount _ _)
  | .call (.onboardGuardians _ _ _ _) | .call (.upsertDirectory _)
  | .call (.queueRotationPending _) => True
  | .call (.completeRotation _ _ _) =>
      ∀ account ∈ vault.disk.log.accounts, account.tombstoned = true
  | .call (.ingestPending event _ _ _ now) => KnownEvent vault event now
  | .call _ => False
  | .accountAdd draft _ _ => draft.Stable tools
  | .accountUpdate _ patch _ => patch.Stable tools
  | .addAccount snapshot _ _ | .updateAccount _ snapshot _ =>
      Restorable tools (hydrateV0ToV1 snapshot)
  | .ingest event _ now => KnownEvent vault event now

end

/-! ## The invariant -/

/-- The account's head is sealed under the current VDK from an identity that a restore
brings back. -/
def Exportable (tools : TextTools) (vault : Vault) (account : AccountRow) : Prop :=
  ∃ row ∈ vault.disk.log.revisions, row.accountId = account.accountId ∧
    row.revisionId = account.headRevisionId ∧
    ∃ identity, SealedRow (keyring vault.disk.keys) vault.vaultMeta.vaultId row
        vault.disk.keys.vaultMeta.wrapped.msg (.live identity) ∧ Restorable tools identity

structure ArchiveInv (tools : TextTools) (vault : Vault) : Prop where
  keys : KeyCore vault
  below : ∀ retained ∈ vault.disk.keys.vdkChain,
    retained.epoch < readCurrentEpoch vault.disk.keys
  accounts : (vault.disk.log.accounts.map AccountRow.accountId).Nodup
  revisions : (vault.disk.log.revisions.map RevisionRow.revisionId).Nodup
  readable : ∀ row ∈ vault.disk.log.revisions,
    Readable (keyring vault.disk.keys) vault.vaultMeta.vaultId row
  heads : ∀ account ∈ vault.disk.log.accounts, account.tombstoned = false →
    Exportable tools vault account
  upToDate : ∀ active, vault.active = some active → active.requiresUpgrade = []

theorem ArchiveInv.create (tools : TextTools) (password : Password) (draw : CreateDraw) :
    ArchiveInv tools (create password draw) where
  keys := .create password draw
  below := by simp [Store.create]
  accounts := List.nodup_nil
  revisions := List.nodup_nil
  readable := by simp [Store.create]
  heads := by simp [Store.create]
  upToDate := by simp [Store.create]

section

variable {tools : TextTools} {vault vault' : Vault}

/-- An account with the same head stays exportable while its rows are kept. -/
theorem Exportable.mono {account account' : AccountRow}
    (exportable : Exportable tools vault account)
    (vaultMeta : vault'.vaultMeta = vault.vaultMeta) (ring : SameRing vault vault')
    (kept : ∀ row ∈ vault.disk.log.revisions,
      ∃ row' ∈ vault'.disk.log.revisions, SameContent row row')
    (sameId : account'.accountId = account.accountId)
    (sameHead : account'.headRevisionId = account.headRevisionId) :
    Exportable tools vault' account' := by
  obtain ⟨row, stored, owner, head, identity, sealedRow, restorable⟩ := exportable
  obtain ⟨row', stored', same⟩ := kept row stored
  refine ⟨row', stored', ?_, ?_, identity, ?_, restorable⟩
  · rw [same.accountId, owner, sameId]
  · rw [same.revisionId, head, sameHead]
  · rw [vaultMeta, ring.keyring, ring.vaultMeta]
    exact same.sealedRow sealedRow

theorem ArchiveInv.rest (inv : ArchiveInv tools vault)
    (vaultMeta : vault'.vaultMeta = vault.vaultMeta) (keys : vault'.disk.keys = vault.disk.keys)
    (accounts : vault'.disk.log.accounts = vault.disk.log.accounts)
    (revisions : vault'.disk.log.revisions = vault.disk.log.revisions)
    (active : vault'.active = vault.active ∨ vault'.active = none) :
    ArchiveInv tools vault' := by
  constructor
  · exact inv.keys.frame vaultMeta keys active
  · rw [keys]
    exact inv.below
  · rw [accounts]
    exact inv.accounts
  · rw [revisions]
    exact inv.revisions
  · rw [revisions, keys, vaultMeta]
    exact inv.readable
  · intro account member live
    apply (inv.heads account (accounts ▸ member) live).mono vaultMeta (.of_keys keys) _ rfl rfl
    intro row stored
    exact ⟨row, revisions ▸ stored, .refl row⟩
  · intro session opened
    rcases active with same | dropped
    · exact inv.upToDate session (same ▸ opened)
    · rw [dropped] at opened
      cases opened

/-- A local edit that seals a restorable identity or a tombstone. -/
theorem ArchiveInv.write {active : ActiveState} {row : RevisionRow} {payload : IdentityPayload}
    (inv : ArchiveInv tools vault) (wrote : HeadWrite vault vault' active row payload)
    (restorable : ∀ identity, payload = .live identity → Restorable tools identity) :
    ArchiveInv tools vault' := by
  have keys : vault'.disk.keys = vault.disk.keys := by rw [wrote.disk]
  obtain ⟨change, rows⟩ := LogWrite.rowsAfter wrote.log
  have held := inv.keys.session active wrote.session
  obtain ⟨-, sealedRow⟩ := inv.keys.sealedRow_of_write wrote.toLocalWrite
  have stored : row ∈ vault'.disk.log.revisions := by
    rw [rows.revisions]
    exact List.mem_append_right _ (List.mem_singleton.mpr rfl)
  have kept : ∀ old ∈ vault.disk.log.revisions,
      ∃ new ∈ vault'.disk.log.revisions, SameContent old new := by
    intro old member
    refine ⟨change old, ?_, (rows.same old member).toSameContent⟩
    rw [rows.revisions]
    exact List.mem_append_left _ (List.mem_map_of_mem member)
  have uniqueAccounts := wrote.log.nodup_accounts inv.accounts
  constructor
  · exact inv.keys.write wrote.toLocalWrite
  · rw [keys]
    exact inv.below
  · exact uniqueAccounts
  · exact rows.nodup_revisions inv.revisions wrote.fresh
  · rw [keys, wrote.vaultMeta, rows.revisions]
    intro candidate member
    rcases List.mem_append.mp member with mapped | new
    · obtain ⟨old, oldStored, rfl⟩ := List.mem_map.mp mapped
      exact (rows.same old oldStored).toSameContent.readable (inv.readable old oldStored)
    · obtain rfl := List.mem_singleton.mp new
      exact .inr ⟨_, _, sealedRow⟩
  · intro account member live
    have found : findAccount vault'.disk.log account.accountId = some account :=
      Table.lookup_eq_some_of_mem AccountRow.accountId uniqueAccounts member
    by_cases written : account.accountId = row.accountId
    · -- The account written: its head is the new row, which is live.
      obtain ⟨other, atRow, isHead, -, flag⟩ := wrote.accountAt
      rw [← written] at atRow
      obtain rfl : other = account := Option.some.inj (atRow.symm.trans found)
      rw [flag, wrote.kind] at live
      cases payload with
      | live identity =>
          refine ⟨row, stored, written.symm, isHead.symm, identity, ?_, restorable identity rfl⟩
          rw [keys, wrote.vaultMeta, ← held.vdk]
          exact sealedRow
      | tombstone _ _ => cases live
      | future _ => cases live
    · rw [wrote.others _ written] at found
      exact (inv.heads account (Table.mem_of_lookup found) live).mono wrote.vaultMeta
        (.of_keys keys) kept rfl rfl
  · intro session opened
    obtain rfl := Option.some.inj (wrote.cached.symm.trans opened)
    rw [syncCache_requiresUpgrade]
    exact inv.upToDate active wrote.session

/-- So does a call that fails or makes such an edit. -/
theorem ArchiveInv.payloadCall {α : Type} {accountId : AccountId} {drawn : RevisionId}
    {written : ActiveState → IdentityPayload → Prop} {call : Call α}
    (inv : ArchiveInv tools vault) (known : PayloadCall vault accountId drawn written call)
    (restorable : ∀ active identity, vault.active = some active →
      written active (.live identity) → Restorable tools identity) :
    ArchiveInv tools call.1 := by
  cases known with
  | failed vault' error idle =>
      exact inv.rest idle.vaultMeta (by rw [idle.disk]) (by rw [idle.disk]) (by rw [idle.disk])
        idle.active
  | wrote vault' value active row payload wrote sameId drawnId sealedAs =>
      apply inv.write wrote
      rintro identity rfl
      exact restorable active identity wrote.session sealedAs

/-! ## Ingests and rotations -/

/-- What an ingest can do to the log: bookkeeping columns change, and a foreign row with
the placeholder nonce may come and freeze its account. -/
inductive IngestsInto (log : RevisionTables) (accountId : AccountId) (isTombstone : Bool)
    (log' : RevisionTables) : Prop where
  | kept (change : RevisionRow → RevisionRow) :
      (∀ row, SameContent row (change row)) → log'.revisions = log.revisions.map change →
      log'.accounts = log.accounts → IngestsInto log accountId isTombstone log'
  | inserted (change : RevisionRow → RevisionRow) (row : RevisionRow) (nowMs : Int) :
      (∀ row, SameContent row (change row)) → row.encNonce = .placeholder →
      (∀ old ∈ log.revisions, old.revisionId ≠ row.revisionId) →
      log'.revisions = (log.revisions ++ [row]).map change →
      log'.accounts = freezeAccount log.accounts accountId row.revisionId isTombstone nowMs →
      IngestsInto log accountId isTombstone log'

theorem ingestsInto_of_ingestLog {hash : CanonicalHash} {log log' : RevisionTables}
    {event : RevisionEvent} {isTombstone : Bool} {nowMs : Int} {outcome : IngestOutcome}
    (ingested : ingestLog hash log event isTombstone nowMs = .ok (log', outcome))
    {change : RevisionRow → RevisionRow} (same : ∀ row, SameContent row (change row)) :
    IngestsInto log event.content.accountId isTombstone
      { log' with revisions := log'.revisions.map change } := by
  rcases ingestLog_cases ingested with ⟨rfl, -, -⟩ | ⟨fresh, -, -, -, stamped | inserted⟩
  · exact .kept change same rfl rfl
  · obtain ⟨twin, -, rfl, -⟩ := stamped
    have stampedSame : ∀ row : RevisionRow, SameContent row
        (if row.revisionId = twin.revisionId then { row with chainAnchor := some event.anchor }
          else row) := by
      intro row
      split
      · exact ⟨rfl, rfl, rfl, rfl, rfl, rfl, rfl⟩
      · exact .refl row
    exact .kept _ (fun row => (stampedSame row).trans (same _)) (List.map_map) rfl
  · obtain ⟨-, rfl, -⟩ := inserted
    exact .inserted change _ nowMs same rfl fresh rfl rfl

theorem ingestChainRevision_ingestsInto (hash : CanonicalHash) (vault : Vault)
    (event : RevisionEvent) (nowMs : Int) (now : Nat) :
    IngestsInto vault.disk.log event.content.accountId
      (detectTombstoneBit (maybeExpireActiveSession vault now) event.content)
      (ingestChainRevision hash vault event nowMs now).1.disk.log := by
  unfold ingestChainRevision
  simp only [maybeExpireActiveSession_disk]
  split
  · exact .kept id .refl (by simp) (by simp)
  · next log outcome ingested =>
      rw [touchSession_disk, withLog_log]
      simpa using ingestsInto_of_ingestLog ingested SameContent.refl

theorem ingestPending_ingestsInto (hash : CanonicalHash) (vault : Vault) (event : RevisionEvent)
    (observedAtBlock observedBlockHash : Nat) (nowMs : Int) (now : Nat) :
    IngestsInto vault.disk.log event.content.accountId
      (detectTombstoneBit (maybeExpireActiveSession vault now) event.content)
      (ingestPendingChainRevision hash vault event observedAtBlock observedBlockHash nowMs
        now).1.disk.log := by
  rw [ingestPendingChainRevision_log]
  split
  · exact .kept id .refl (by simp) rfl
  · next log outcome ingested =>
      split
      · apply ingestsInto_of_ingestLog ingested
        intro row
        split
        · exact ⟨rfl, rfl, rfl, rfl, rfl, rfl, rfl⟩
        · exact .refl row
      · simpa using ingestsInto_of_ingestLog ingested SameContent.refl

/-- An ingest of a known event. -/
theorem ArchiveInv.ingested {accountId : AccountId} {isTombstone : Bool}
    (inv : ArchiveInv tools vault) (call : LogOnly vault vault')
    (ingests : IngestsInto vault.disk.log accountId isTombstone vault'.disk.log)
    (known : (∃ account ∈ vault.disk.log.accounts, account.accountId = accountId) ∨
      isTombstone = true) : ArchiveInv tools vault' := by
  have ring : SameRing vault vault' := .of_keys call.keys
  have upToDate : ∀ active, vault'.active = some active → active.requiresUpgrade = [] := by
    intro active opened
    rcases call.active with same | dropped
    · exact inv.upToDate active (same ▸ opened)
    · rw [dropped] at opened
      cases opened
  have core := inv.keys.frame call.vaultMeta call.keys call.active
  have below : ∀ retained ∈ vault'.disk.keys.vdkChain,
      retained.epoch < readCurrentEpoch vault'.disk.keys := by
    rw [call.keys]
    exact inv.below
  have readable_map : ∀ {change : RevisionRow → RevisionRow} {row : RevisionRow},
      SameContent row (change row) →
      Readable (keyring vault.disk.keys) vault.vaultMeta.vaultId row →
      Readable (keyring vault'.disk.keys) vault'.vaultMeta.vaultId (change row) := by
    intro change row same readable
    rw [ring.keyring, call.vaultMeta]
    exact same.readable readable
  have ids : ∀ {change : RevisionRow → RevisionRow}, (∀ row, SameContent row (change row)) →
      ∀ rows : List RevisionRow, (rows.map change).map RevisionRow.revisionId =
        rows.map RevisionRow.revisionId := by
    intro change same rows
    rw [List.map_map]
    apply List.map_congr_left
    intro row _
    exact (same row).revisionId
  cases ingests with
  | kept change same revisions accounts =>
      refine ⟨core, below, accounts ▸ inv.accounts, ?_, ?_, ?_, upToDate⟩
      · rw [revisions, ids same]
        exact inv.revisions
      · intro row member
        rw [revisions] at member
        obtain ⟨old, stored, rfl⟩ := List.mem_map.mp member
        exact readable_map (same old) (inv.readable old stored)
      · intro account member live
        apply (inv.heads account (accounts ▸ member) live).mono call.vaultMeta ring _ rfl rfl
        intro row stored
        exact ⟨change row, revisions ▸ List.mem_map_of_mem stored, same row⟩
  | inserted change row nowMs same placeholder fresh revisions accounts =>
      have kept : ∀ old ∈ vault.disk.log.revisions,
          ∃ new ∈ vault'.disk.log.revisions, SameContent old new := by
        intro old stored
        refine ⟨change old, ?_, same old⟩
        rw [revisions]
        exact List.mem_map_of_mem (List.mem_append_left _ stored)
      refine ⟨core, below, ?_, ?_, ?_, ?_, upToDate⟩
      · rw [accounts]
        exact nodup_freezeAccount inv.accounts _ _ _ _
      · rw [revisions, ids same]
        exact nodup_append_fresh inv.revisions fresh
      · intro candidate member
        rw [revisions] at member
        obtain ⟨old, stored, rfl⟩ := List.mem_map.mp member
        rcases List.mem_append.mp stored with earlier | new
        · exact readable_map (same old) (inv.readable old earlier)
        · obtain rfl := List.mem_singleton.mp new
          exact readable_map (same old) (.inl placeholder)
      · intro account member live
        rw [accounts, freezeAccount] at member
        split at member
        · -- A known account is frozen with its head where it was.
          obtain ⟨old, stored, rfl⟩ := List.mem_map.mp member
          split at live
          · next target =>
              rw [if_pos target]
              have wasLive : old.tombstoned = false := (Bool.or_eq_false_iff.mp live).1
              exact (inv.heads old stored wasLive).mono call.vaultMeta ring kept rfl rfl
          · next other =>
              rw [if_neg other]
              exact (inv.heads old stored live).mono call.vaultMeta ring kept rfl rfl
        · next unknown =>
            rcases List.mem_append.mp member with old | new
            · exact (inv.heads account old live).mono call.vaultMeta ring kept rfl rfl
            · -- A new account is a deleted one.
              obtain rfl := List.mem_singleton.mp new
              rcases known with ⟨existing, stored, sameId⟩ | deleted
              · exact absurd (List.any_eq_true.mpr ⟨existing, stored, by simpa using sameId⟩)
                  unknown
              · rw [deleted] at live
                cases live

/-- A rotation of a vault without live accounts. -/
theorem ArchiveInv.rotated {active : ActiveState} (inv : ArchiveInv tools vault)
    (session : vault.active = some active) {commit : RotationCommit}
    (fits : fitsI64 commit.newEpoch = true)
    (next : commit.newEpoch = readCurrentEpoch vault.disk.keys + 1)
    (deleted : ∀ account ∈ vault.disk.log.accounts, account.tombstoned = true)
    (escrow : EscrowTables) (deviceSet : DeviceSetTables) :
    ArchiveInv tools (lockedWith vault { vault.disk with
      keys := rotatedKeys vault.disk.keys vault.vaultMeta active.vdk active.deviceKey commit
      escrow
      deviceSet }) := by
  have unused : ∀ retained ∈ vault.disk.keys.vdkChain, retained.epoch ≠ commit.newEpoch := by
    intro retained member
    have lower := inv.below retained member
    omega
  constructor
  · exact inv.keys.rotated session commit fits (by omega) unused escrow deviceSet
  · exact below_rotated inv.below next
  · exact inv.accounts
  · exact inv.revisions
  · intro row member
    rcases inv.readable row member with placeholder | ⟨key, payload, sealedRow⟩
    · exact .inl placeholder
    · have atMost := epoch_le_of_keyring inv.below sealedRow.selected
      exact .inr ⟨key, payload, inv.keys.sealedRow_rotated session commit escrow deviceSet
        (by omega) sealedRow⟩
  · intro account member live
    rw [deleted account member] at live
    cases live
  · simp [lockedWith]

theorem ArchiveInv.unlocks {input : UnlockInput} {vdk : VdkKey} {chain : VdkChain}
    {data : ActiveStateData} {deviceKey : DeviceKey} {keys : KeyTables}
    (inv : ArchiveInv tools vault)
    (found : Unlocks vault input vault' vdk chain data deviceKey keys) :
    ArchiveInv tools vault' := by
  obtain ⟨core, ring⟩ := inv.keys.unlocks found
  have log : vault'.disk.log = vault.disk.log := by rw [found.result]
  have vaultMeta : vault'.vaultMeta = vault.vaultMeta := by rw [found.result]
  have readable : ∀ row ∈ vault'.disk.log.revisions,
      Readable (keyring vault'.disk.keys) vault'.vaultMeta.vaultId row := by
    rw [log, vaultMeta, ring.keyring]
    exact inv.readable
  constructor
  · exact core
  · rw [ring.vdkChain, ring.currentEpoch]
    exact inv.below
  · rw [log]
    exact inv.accounts
  · rw [log]
    exact inv.revisions
  · exact readable
  · intro account member live
    apply (inv.heads account (log ▸ member) live).mono vaultMeta ring _ rfl rfl
    intro row stored
    exact ⟨row, log ▸ stored, .refl row⟩
  · intro active opened
    have selects := (core.session active opened).selects
    have session : vault'.active =
        some ⟨vdk, chain, data.cache, deviceKey, data.requiresUpgrade⟩ := by
      rw [found.result]
    obtain rfl := Option.some.inj (session.symm.trans opened)
    apply hydrateAll_upToDate _ found.hydrated
    intro row stored
    rw [show entryKey vdk chain = keyring vault'.disk.keys from funext selects, ← vaultMeta]
    exact readable row (log ▸ stored)

/-! ## One step -/

/-- The identity the current VDK reads at the head of an exportable account. -/
theorem Exportable.read {active : ActiveState} {account : AccountRow}
    (exportable : Exportable tools vault account)
    (unique : (vault.disk.log.revisions.map RevisionRow.revisionId).Nodup)
    (current : active.vdk = vault.disk.keys.vaultMeta.wrapped.msg) :
    ∃ row identity, findRevision vault.disk.log.revisions account.accountId
        account.headRevisionId = some row ∧ row.encPayload.plaintext = some (.live identity) ∧
      readIdentityAt vault active account.accountId account.headRevisionId = .ok identity ∧
      Restorable tools identity := by
  obtain ⟨row, stored, owner, head, identity, sealedRow, restorable⟩ := exportable
  have found := findRevision_of_mem unique stored
  rw [owner, head] at found
  refine ⟨row, identity, found, ?_, ?_, restorable⟩
  · rw [sealedRow.encPayload]
    rfl
  · simp only [readIdentityAt, found]
    rw [readRow_sealedRow sealedRow, if_pos current.symm]
    rfl

/-- A patch is applied to a restorable identity. -/
theorem ArchiveInv.current_restorable {active : ActiveState} {accountId : AccountId}
    {account : AccountRow} {current : AccountIdentity} (inv : ArchiveInv tools vault)
    (opened : vault.active = some active)
    (live : liveAccount vault.disk.log accountId = .ok account)
    (read : readIdentityAt vault active accountId account.headRevisionId = .ok current) :
    Restorable tools current := by
  obtain ⟨found, alive⟩ := liveAccount_eq_ok live
  obtain rfl := Table.key_of_lookup found
  obtain ⟨-, identity, -, -, readAgain, restorable⟩ :=
    (inv.heads account (Table.mem_of_lookup found) alive).read inv.revisions
      (inv.keys.session active opened).vdk
  obtain rfl := Except.ok.inj (readAgain.symm.trans read)
  exact restorable

theorem updateAccount_payloadCall (vault : Vault) (accountId : AccountId)
    (snapshot : AccountSnapshot) (draw : WriteDraw) :
    PayloadCall vault accountId draw.revisionId
      (fun _ payload => payload = .live (hydrateV0ToV1 snapshot))
      (updateAccount vault accountId snapshot draw) := by
  unfold updateAccount
  rcases withFreshSession_outcome vault draw.now _ with
    ⟨vault', error, result, idle⟩ | ⟨active, vault', id, session, done, result⟩
  · rw [result]
    exact .failed vault' error idle
  rw [result]
  obtain ⟨_, editable, rest⟩ := Fallible.bind_eq_ok_iff.mp done
  obtain ⟨account, live, rest⟩ := Fallible.bind_eq_ok_iff.mp rest
  obtain ⟨log, appended, equal⟩ := Fallible.bind_eq_ok_iff.mp rest
  obtain ⟨rfl, -⟩ := Prod.mk.inj (Except.ok.inj equal)
  have found := (liveAccount_eq_ok live).1
  obtain ⟨accountAt, others, revisions⟩ :=
    appendToAccount_accounts found (refuseUneditable_eq_ok editable found) appended
  refine payloadCall_of_log _ (.live (hydrateV0ToV1 snapshot)) (localWrite_localRow draw.now
    session (appendToAccount_eq_ok found rfl appended) trivial (.inl rfl)) accountAt others
    (.inl ⟨?_, revisions⟩) rfl
  intro other same
  obtain rfl : account = other := Option.some.inj (found.symm.trans same)
  exact ⟨refuseUneditable_eq_ok editable same, rfl⟩

theorem ArchiveInv.call {scheme : ShareScheme} {hash : CanonicalHash} {op : Op}
    (inv : ArchiveInv tools vault) (safe : ArchiveSafe tools vault (.call op)) :
    ArchiveInv tools (step scheme hash vault op) := by
  cases op with
  | unlock input =>
      rw [step]
      cases unlocked : unlock vault input with
      | mk vault' result =>
          cases result with
          | error error =>
              obtain rfl := unlock_error unlocked
              exact inv
          | ok value =>
              obtain ⟨vdk, chain, data, deviceKey, keys, found⟩ := unlock_eq_ok_iff.mp unlocked
              exact inv.unlocks found
  | lock => exact inv.rest rfl rfl rfl rfl (.inr rfl)
  | reopen placeholder sessionIdle =>
      exact inv.rest inv.keys.metaSynced.symm rfl rfl rfl (.inr rfl)
  | deleteAccount accountId draw =>
      apply inv.payloadCall (deleteAccount_payloadCall vault accountId draw)
      intro active identity _ none
      cases none
  | onboardGuardians threshold pubs signers draw =>
      obtain ⟨escrow, result⟩ := onboardGuardians_frame scheme vault threshold pubs signers draw
      rw [step, result]
      exact inv.rest rfl rfl rfl rfl (.inl rfl)
  | upsertDirectory entry => exact inv.rest rfl rfl rfl rfl (.inl rfl)
  | queueRotationPending pending => exact inv.rest rfl rfl rfl rfl (.inl rfl)
  | completeRotation password onchain draw =>
      rw [step]
      rcases completeRotation_cases scheme vault password onchain draw with
        ⟨⟨sameDisk, sameMeta, session⟩, -⟩ |
        ⟨active, commit, escrow, deviceSet, session, fits, next, -, rotated⟩
      · exact inv.rest sameMeta (by rw [sameDisk]) (by rw [sameDisk]) (by rw [sameDisk]) session
      · rw [rotated]
        exact inv.rotated session fits next safe escrow deviceSet
  | ingestPending event observedAtBlock observedBlockHash nowMs now =>
      exact inv.ingested
        (ingestPending_logOnly hash vault event observedAtBlock observedBlockHash nowMs now)
        (ingestPending_ingestsInto hash vault event observedAtBlock observedBlockHash nowMs now)
        safe
  | _ => exact absurd safe id

theorem ArchiveInv.step {scheme : ShareScheme} {hash : CanonicalHash} {op : ArchiveOp}
    (inv : ArchiveInv tools vault) (safe : ArchiveSafe tools vault op) :
    ArchiveInv tools (archiveStep tools scheme hash vault op) := by
  cases op with
  | call op => exact inv.call safe
  | accountAdd draft accountId draw =>
      apply inv.payloadCall (accountAdd_payloadCall vault _ accountId draw)
      rintro active identity - ⟨written, valid, same⟩
      obtain rfl := IdentityPayload.live.inj same
      exact safe.restorable valid
  | accountUpdate accountId patch draw =>
      apply inv.payloadCall (accountUpdate_payloadCall vault accountId _ draw)
      rintro active identity opened ⟨account, current, written, live, read, applied, same⟩
      obtain rfl := IdentityPayload.live.inj same
      exact safe.restorable (inv.current_restorable opened live read) applied
  | addAccount snapshot accountId draw =>
      apply inv.payloadCall (accountAdd_payloadCall vault _ accountId draw)
      rintro active identity - ⟨written, valid, same⟩
      obtain rfl := IdentityPayload.live.inj same
      obtain rfl := Except.ok.inj valid
      exact safe
  | updateAccount accountId snapshot draw =>
      apply inv.payloadCall (updateAccount_payloadCall vault accountId snapshot draw)
      rintro active identity - same
      obtain rfl := IdentityPayload.live.inj same
      exact safe
  | ingest event nowMs now =>
      exact inv.ingested (ingestChainRevision_logOnly hash vault event nowMs now)
        (ingestChainRevision_ingestsInto hash vault event nowMs now) safe

end

/-! ## The export -/

/-- The identity sealed in the row an account's head names. -/
def headIdentity? (vault : Vault) (account : AccountRow) : Option AccountIdentity :=
  (findRevision vault.disk.log.revisions account.accountId account.headRevisionId).bind
    fun row => row.encPayload.plaintext.bind IdentityPayload.identity?

/-- What a vault holds, laid out as an archive: every account that is not deleted with the
identity sealed in its head. -/
def liveSnapshot (vault : Vault) (input : ExportInput) : ArchiveSnapshot :=
  { schemaVersion := archiveSnapshotSchemaVersion
    exportedAt := input.exportedAt
    sourceDeviceId := vault.deviceId
    vaultId := vault.vaultMeta.vaultId
    sessionIdleSecs := vault.disk.keys.settings.sessionIdleSecs
    accounts := (exportedRows vault.disk.log .all).filterMap fun account =>
      (headIdentity? vault account).map (archiveAccount account)
    devices := (vault.disk.keys.devices.insertionSort
      fun first second => first.before second = true).map
        fun row => ⟨row.deviceId, row.label, row.addedAt⟩
    captureAuthorities := input.captureAuthorities }

theorem mem_exportedRows {log : RevisionTables} {account : AccountRow} :
    account ∈ exportedRows log .all ↔ account ∈ log.accounts ∧ account.tombstoned = false := by
  simp [exportedRows, AccountSelection.includes]

section

variable {tools : TextTools} {vault : Vault} {active : ActiveState}

/-- What each reader finds at the head of a live account. -/
theorem ArchiveInv.readHead (inv : ArchiveInv tools vault) (opened : vault.active = some active)
    {account : AccountRow} (listed : account ∈ vault.disk.log.accounts)
    (live : account.tombstoned = false) :
    ∃ identity, readHeadIdentity vault active account.accountId = .ok identity ∧
      headIdentity? vault account = some identity ∧ Restorable tools identity := by
  obtain ⟨row, identity, found, plaintext, read, restorable⟩ :=
    (inv.heads account listed live).read inv.revisions (inv.keys.session active opened).vdk
  have stored : findAccount vault.disk.log account.accountId = some account :=
    Table.lookup_eq_some_of_mem AccountRow.accountId inv.accounts listed
  refine ⟨identity, ?_, ?_, restorable⟩
  · simp only [readHeadIdentity, liveAccount, stored, live, Bool.false_eq_true, if_false, bind,
      Except.bind]
    exact read
  · simp only [headIdentity?, found, Option.bind_some, plaintext]
    rfl

theorem ArchiveInv.gatherAccounts (inv : ArchiveInv tools vault)
    (opened : vault.active = some active) {accounts : List AccountRow}
    (listed : ∀ account ∈ accounts, account ∈ vault.disk.log.accounts ∧
      account.tombstoned = false) :
    gatherAccounts vault active accounts = .ok (accounts.filterMap fun account =>
      (headIdentity? vault account).map (archiveAccount account)) := by
  induction accounts with
  | nil => rfl
  | cons account accounts ih =>
      obtain ⟨stored, live⟩ := listed account List.mem_cons_self
      obtain ⟨identity, read, laidOut, -⟩ := inv.readHead opened stored live
      have rest := ih fun later member => listed later (List.mem_cons_of_mem _ member)
      simp [Store.gatherAccounts, inv.upToDate active opened, read, rest, laidOut, bind,
        Except.bind, pure, Except.pure]

theorem ArchiveInv.gather (inv : ArchiveInv tools vault) (opened : vault.active = some active)
    (input : ExportInput) :
    gatherArchiveSnapshot vault active .all input = .ok (liveSnapshot vault input) := by
  have gathered := inv.gatherAccounts opened fun account member =>
    mem_exportedRows.mp member
  simp only [gatherArchiveSnapshot, gathered, bind, Except.bind]
  rfl

/-- The contents of a vault that its session reads. -/
theorem ArchiveInv.liveContents (inv : ArchiveInv tools vault)
    (opened : vault.active = some active) (input : ExportInput) :
    ∃ contents, liveContents vault active = .ok contents ∧
      ((liveSnapshot vault input).accounts.map fun account =>
        account.identity.content).Perm contents := by
  refine ⟨(vault.disk.log.accounts.filter fun account => !account.tombstoned).filterMap
    fun account => (headIdentity? vault account).map AccountIdentity.content, ?_, ?_⟩
  · apply Fallible.mapM_eq_ok_filterMap
    intro account member
    obtain ⟨listed, alive⟩ := List.mem_filter.mp member
    obtain ⟨identity, read, laidOut, -⟩ := inv.readHead opened listed (by simpa using alive)
    refine ⟨identity.content, ?_, by rw [laidOut]; rfl⟩
    rw [read]
    rfl
  · have laidOut : ∀ account : AccountRow,
        ((headIdentity? vault account).map (archiveAccount account)).map
            (fun archived => archived.identity.content) =
          (headIdentity? vault account).map AccountIdentity.content := by
      intro account
      rw [Option.map_map]
      rfl
    have sorted : (exportedRows vault.disk.log .all).Perm
        (vault.disk.log.accounts.filter fun account => !account.tombstoned) := by
      have all : exportedRows vault.disk.log .all =
          (vault.disk.log.accounts.filter fun account => !account.tombstoned).insertionSort
            fun first second => first.accountId.raw ≤ second.accountId.raw := by
        simp [exportedRows, AccountSelection.includes]
      rw [all]
      exact List.perm_insertionSort _ _
    rw [liveSnapshot, List.map_filterMap]
    simp only [laidOut]
    exact sorted.filterMap _

end

/-- In every unlocked state of a run whose calls meet the condition, and while what the
vault holds is within the limits of the archive: the export succeeds, the archive decodes
with the same passphrase, the restore of what it decodes to succeeds, and the restored
vault, opened with its password, has the same contents. -/
theorem archive_round_trip {tools : TextTools} {scheme : ShareScheme} {hash : CanonicalHash}
    {codec : Cbor.HeaderCodec} {password : Password} {created : CreateDraw} {vault : Vault}
    {active : ActiveState} {expires last started now : Nat} {presence : PresenceCheck}
    {input : ExportInput} {newPassword : Password} {restoring : RestoreDraw}
    (run : Reaches (archiveStep tools scheme hash) (ArchiveSafe tools)
      (create password created) vault)
    (opened : vault.active = some active)
    (session : vault.session = .active expires last started) (inTime : now ≤ expires)
    (present : presence.verify = .ok ()) (fits : (liveSnapshot vault input).Fits)
    (within : (encodeSnapshot codec (liveSnapshot vault input)).length + tagLen ≤
      maxCiphertextLen)
    (nonempty : newPassword.bytes ≠ []) (timely : RestoreDraw.Timely restoring)
    (passphrase : Password) (draw : ArchiveDraw) :
    ∃ after archive snapshot disk contents restored,
      exportEncrypted codec vault passphrase .all presence input draw now =
        (after, .ok archive) ∧
      decodeArchive codec archive passphrase = .ok snapshot ∧
      restoreToNewVault tools restoring snapshot newPassword = .ok disk ∧
      liveContents vault active = .ok contents ∧ Reopens disk newPassword restored ∧
      restored.Perm contents := by
  have inv : ArchiveInv tools vault :=
    run.invariant (ArchiveInv tools) (fun _ _ inv safe => inv.step safe)
      (.create tools password created)
  obtain ⟨archive, sealedArchive, opens⟩ := sealArchive_opens passphrase within draw
  obtain ⟨contents, read, same⟩ := inv.liveContents opened input
  have restorable : ∀ account ∈ (liveSnapshot vault input).accounts,
      Restorable tools account.identity := by
    intro archived member
    obtain ⟨account, exported, laidOut⟩ := List.mem_filterMap.mp member
    obtain ⟨listed, live⟩ := mem_exportedRows.mp exported
    obtain ⟨identity, -, found, restorable⟩ := inv.readHead opened listed live
    rw [found] at laidOut
    obtain rfl := Option.some.inj laidOut
    exact restorable
  obtain ⟨disk, restored, reopens⟩ := restoreToNewVault_ok timely nonempty restorable
  have fresh : ¬ expires < now := Nat.not_lt.mpr inTime
  refine ⟨touchSession vault now, archive, _, disk, contents, _, ?_, ?_, restored, read,
    reopens, same⟩
  · simp only [exportEncrypted, withFreshSession, session, fresh, if_false, opened, present,
      inv.gather opened input, sealedArchive, bind, Except.bind]
    rfl
  · rw [opens codec]
    exact decodeSnapshot_encodeSnapshot codec fits

/-! ## Two small vaults -/

namespace ArchiveSample

theorem nfc_nfc (text : Text) : id (id text) = id text := rfl

theorem nfc_trim_nfc (text : Text) : id (trim (id text)) = trim (id text) := rfl

/-- The Unicode tables and the URL parser on the texts below. -/
def tools : TextTools where
  nfc := id
  lowercaseMapping char := [char.toLower]
  cased := Char.isAlpha
  caseIgnorable char := char = '.'
  parseUrl text := if text = "https://example.com/".toList then some text else none
  nfc_nfc := nfc_nfc
  nfc_trim_nfc := nfc_trim_nfc
  trim_nfc_trim := trim_trim
  nfc_ne_nil _ nonempty := nonempty
  parseUrl_parseUrl := by
    intro text url parsed
    split at parsed
    · next known =>
        obtain rfl := Option.some.inj parsed
        exact if_pos known
    · cases parsed

def draft : AccountIdentityDraft :=
  { displayName := "Mail".toList
    tags := ["Work".toList]
    usernames := ["ann".toList]
    urls := ["https://example.com/".toList]
    notes := []
    password := [1]
    totpSecret := [7]
    totpParams := .default }

def step : Vault → ArchiveOp → Vault := archiveStep tools countingScheme Sample.hash

/-- An account and a change of its password. -/
def changing : List ArchiveOp :=
  [.call (Sample.unlock ⟨[1]⟩), .accountAdd draft ⟨1⟩ (Sample.draw 1),
    .accountUpdate ⟨1⟩ { password := some [2] } (Sample.draw 2)]

def vault : Vault := changing.foldl step Sample.vault

/-- An account that is there when the vault rotates. -/
def rotating : List ArchiveOp :=
  [.call (Sample.unlock ⟨[1]⟩), .accountAdd draft ⟨1⟩ (Sample.draw 1), .call Sample.onboard,
    .call Sample.directory, .call (Sample.rotate 8 9 ⟨[2]⟩), .call (Sample.unlock ⟨[2]⟩)]

def rotated : Vault := rotating.foldl step Sample.vault

/-- The draws of a restore at one instant. -/
def restoring : RestoreDraw where
  created := ⟨⟨70⟩, ⟨71⟩, ⟨72⟩, ⟨73⟩, 0⟩
  placeholder := ⟨74⟩
  generated := Sample.device
  started := 0
  accountId index := ⟨index⟩
  write := Sample.draw
  accountIds_injective := by
    intro first second same
    exact AccountId.mk.inj same
  revisionIds_injective := by
    intro first second same
    exact RevisionId.mk.inj same

theorem changing_safe : Allowed step (ArchiveSafe tools) Sample.vault changing := by
  refine ⟨trivial, ⟨by decide +kernel, by decide +kernel⟩, ⟨?_, ?_⟩, trivial⟩
  · intro tags set
    cases set
  · intro urls set
    cases set

end ArchiveSample

open ArchiveSample in
/-- The account comes back with both passwords, the later one first. -/
theorem archive_round_trip_password_change :
    ∃ (active : ActiveState) (after : Vault) (archive : ArchiveFile)
      (snapshot : ArchiveSnapshot) (disk : Disk) (contents restored : List AccountContent),
      exportEncrypted .shortest vault ⟨[5]⟩ .all .fresh ⟨0, []⟩ ⟨⟨1⟩, ⟨2⟩⟩ 0 =
        (after, .ok archive) ∧
      decodeArchive .shortest archive ⟨[5]⟩ = .ok snapshot ∧
      restoreToNewVault tools restoring snapshot ⟨[3]⟩ = .ok disk ∧
      liveContents vault active = .ok contents ∧ Reopens disk ⟨[3]⟩ restored ∧
      restored.Perm contents := by
  obtain ⟨active, opened⟩ := Option.isSome_iff_exists.mp (by decide +kernel :
    vault.active.isSome)
  have run : Reaches (archiveStep tools countingScheme Sample.hash) (ArchiveSafe tools)
      (create ⟨[1]⟩ ⟨⟨7⟩, ⟨1⟩, ⟨2⟩, ⟨3⟩, 0⟩) vault :=
    .foldl changing changing_safe
  have session : vault.session = .active 900000 0 0 := by decide +kernel
  have fits : (liveSnapshot vault ⟨0, []⟩).Fits := by
    constructor
    all_goals decide +kernel
  have timely : RestoreDraw.Timely restoring := by
    intro turn
    cases turn with
    | zero => decide
    | succ turn => exact Nat.zero_le _
  exact ⟨active, archive_round_trip run opened session (Nat.zero_le _) rfl fits
    (by decide +kernel) (by decide) timely ⟨[5]⟩ ⟨⟨1⟩, ⟨2⟩⟩⟩

/-- After a rotation the account written before it fails the export. -/
theorem export_fails_after_rotation :
    Reaches ArchiveSample.step (fun _ _ => True) Sample.vault ArchiveSample.rotated ∧
      ArchiveSample.rotated.active.isSome ∧
      ArchiveSample.rotated.session = .active 900000 0 0 ∧
      (exportEncrypted .shortest ArchiveSample.rotated ⟨[5]⟩ .all .fresh ⟨0, []⟩
        ⟨⟨1⟩, ⟨2⟩⟩ 0).2 = .error .authenticationFailed := by
  refine ⟨.foldl _ ?_, ?_, ?_, ?_⟩
  · exact ⟨trivial, trivial, trivial, trivial, trivial, trivial, trivial⟩
  · decide +kernel
  · decide +kernel
  · decide +kernel

end Pangolin
