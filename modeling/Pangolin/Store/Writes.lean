import Pangolin.Store.Keyring

/-!
# What an account call can do

Every account call either leaves the file alone, or appends one row sealed in the
session and moves one head pointer.  The specifications here say so once; the
invariants of runs are proved from them without looking at the calls again.
-/

namespace Pangolin.Store

open Symbolic Crypto

/-- A call that wrote nothing.  At most it dropped an expired session. -/
structure Idle (vault vault' : Vault) : Prop where
  disk : vault'.disk = vault.disk
  vaultMeta : vault'.vaultMeta = vault.vaultMeta
  deviceId : vault'.deviceId = vault.deviceId
  active : vault'.active = vault.active ∨ vault'.active = none

theorem Idle.refl (vault : Vault) : Idle vault vault :=
  ⟨rfl, rfl, rfl, .inl rfl⟩

/-- How a local edit changes the log with the row it seals. -/
inductive LogWrite (log : RevisionTables) (row : RevisionRow) (log' : RevisionTables) : Prop where
  /-- A new account whose head is the row. -/
  | added (account : AccountRow) :
      row.parent = .genesisParent →
      (∀ old ∈ log.accounts, old.accountId ≠ row.accountId) →
      account.accountId = row.accountId → account.headRevisionId = row.revisionId →
      log'.accounts = log.accounts ++ [account] → log'.revisions = log.revisions ++ [row] →
      log'.pendingMerges = log.pendingMerges → LogWrite log row log'
  /-- The next revision of a live account. -/
  | extended (account : AccountRow) (change : AccountRow → AccountRow) :
      findAccount log row.accountId = some account → row.parent = account.headRevisionId →
      (∀ old, (change old).accountId = old.accountId) →
      (∀ old, (change old).headRevisionId = row.revisionId) →
      log'.accounts = updateAccountRow log.accounts row.accountId change →
      log'.revisions = log.revisions ++ [row] →
      log'.pendingMerges = log.pendingMerges → LogWrite log row log'
  /-- The merge of a forked account. -/
  | resolved (change : AccountRow → AccountRow) :
      1 < (accountHeadRows log.revisions row.accountId).length →
      row.parent ∈ (accountHeadRows log.revisions row.accountId).map RevisionRow.revisionId →
      (∀ old, (change old).accountId = old.accountId) →
      (∀ old, (change old).headRevisionId = row.revisionId) →
      log'.accounts = updateAccountRow log.accounts row.accountId change →
      log'.revisions =
        supersedeLosers log.revisions row.accountId row.parent row.revisionId ++ [row] →
      (∀ merge ∈ log'.pendingMerges, merge ∈ log.pendingMerges) → LogWrite log row log'

/-- The payload kinds a local edit seals. -/
def IdentityPayload.Local : IdentityPayload → Prop
  | .future _ => False
  | _ => True

/-- The dirty table after a row was stamped. -/
def stampDirty (markers : List DirtyMarker) (row : RevisionRow) : List DirtyMarker :=
  Table.insertIgnore (fun marker => (marker.accountId, marker.revisionId)) markers
    ⟨row.accountId, row.revisionId, row.createdAt⟩

/-- A local edit that went through: in session `active` it sealed `payload` into
`row`. -/
structure LocalWrite (vault vault' : Vault) (active : ActiveState) (row : RevisionRow)
    (payload : IdentityPayload) : Prop where
  session : vault.active = some active
  encPayload : row.encPayload =
    sealPayload active.vdk row.encNonce (row.aad vault.vaultMeta.vaultId) payload
  nonce : row.encNonce ≠ .placeholder
  epoch : row.vdkEpoch = stampEpoch active.chain.currentEpoch
  payloadLocal : payload.Local
  version : row.schemaVersion = vault.vaultMeta.wrapContext.schemaVersion ∨
    row.schemaVersion ≤ revisionSchemaVersionMax
  unpublished : row.chainAnchor = none ∧ row.supersededBy = none ∧ row.revoked = false ∧
    row.status = .finalized ∧ row.deviceId = vault.deviceId
  fresh : ∀ old ∈ vault.disk.log.revisions, old.revisionId ≠ row.revisionId
  log : LogWrite vault.disk.log row vault'.disk.log
  dirty : vault'.disk.log.dirtyAccounts = stampDirty vault.disk.log.dirtyAccounts row
  disk : vault'.disk = { vault.disk with log := vault'.disk.log }
  vaultMeta : vault'.vaultMeta = vault.vaultMeta
  deviceId : vault'.deviceId = vault.deviceId
  active' : ∃ active', vault'.active = some active' ∧ active'.vdk = active.vdk ∧
    active'.chain = active.chain ∧ active'.deviceKey = active.deviceKey

/-- The effect of an account call that drew the given revision id. -/
def WriteCall (vault vault' : Vault) (drawn : RevisionId) : Prop :=
  Idle vault vault' ∨
    ∃ active row payload, LocalWrite vault vault' active row payload ∧ row.revisionId = drawn

/-- An account call writes the log and no other table. -/
theorem WriteCall.disk {vault vault' : Vault} {drawn : RevisionId}
    (call : WriteCall vault vault' drawn) : ∃ log, vault'.disk = { vault.disk with log } := by
  rcases call with idle | ⟨active, row, payload, wrote, -⟩
  · exact ⟨vault.disk.log, idle.disk⟩
  · exact ⟨vault'.disk.log, wrote.disk⟩

/-! ## Shared steps -/

/-- A session-class call fails and is idle, or its body succeeded in the session. -/
theorem withFreshSession_outcome {α : Type} (vault : Vault) (now : Nat)
    (body : ActiveState → Except StoreError (Vault × α)) :
    (∃ vault' error, withFreshSession vault now body = (vault', .error error) ∧
        Idle vault vault') ∨
      ∃ active after value, vault.active = some active ∧ body active = .ok (after, value) ∧
        withFreshSession vault now body = (touchSession after now, .ok value) := by
  unfold withFreshSession
  split
  · exact .inl ⟨_, _, rfl, .refl vault⟩
  · exact .inl ⟨_, _, rfl, .refl vault⟩
  · exact .inl ⟨_, _, rfl, .refl vault⟩
  · split
    · exact .inl ⟨_, _, rfl, rfl, rfl, rfl, .inr rfl⟩
    · split
      · exact .inl ⟨_, _, rfl, .refl vault⟩
      · next active session =>
          split
          · exact .inl ⟨_, _, rfl, .refl vault⟩
          · next after value done => exact .inr ⟨active, after, value, session, done, rfl⟩

/-- What such a call leaves behind. -/
theorem withFreshSession_cases {α : Type} (vault : Vault) (now : Nat)
    (body : ActiveState → Except StoreError (Vault × α)) :
    Idle vault (withFreshSession vault now body).1 ∨
      ∃ active vault' value, vault.active = some active ∧ body active = .ok (vault', value) ∧
        (withFreshSession vault now body).1 = touchSession vault' now := by
  rcases withFreshSession_outcome vault now body with
    ⟨vault', error, result, idle⟩ | ⟨active, after, value, session, done, result⟩
  · rw [result]
    exact .inl idle
  · rw [result]
    exact .inr ⟨active, after, value, session, done, rfl⟩

/-- A session-class call that returned a value ran its body in the session. -/
theorem withFreshSession_eq_ok {α : Type} {vault vault' : Vault} {now : Nat}
    {body : ActiveState → Except StoreError (Vault × α)} {value : α}
    (returned : withFreshSession vault now body = (vault', .ok value)) :
    ∃ active after, vault.active = some active ∧ body active = .ok (after, value) ∧
      vault' = touchSession after now := by
  rcases withFreshSession_outcome vault now body with
    ⟨other, error, result, -⟩ | ⟨active, after, found, session, done, result⟩
  · rw [returned] at result
    cases (Prod.mk.inj result).2
  · rw [returned] at result
    obtain ⟨rfl, equal⟩ := Prod.mk.inj result
    obtain rfl := Except.ok.inj equal
    exact ⟨active, after, session, done, rfl⟩

theorem insertRevision_eq_ok {log log' : RevisionTables} {row : RevisionRow}
    (inserted : insertRevision log row = .ok log') :
    (∀ old ∈ log.revisions, old.revisionId ≠ row.revisionId) ∧
      log'.revisions = log.revisions ++ [row] ∧ log'.accounts = log.accounts ∧
      log'.pendingMerges = log.pendingMerges ∧
      log'.dirtyAccounts = stampDirty log.dirtyAccounts row := by
  unfold insertRevision at inserted
  split at inserted
  · cases inserted
  · next revisions stored =>
      obtain ⟨fresh, rfl⟩ := Table.insert?_eq_some stored
      obtain rfl := Except.ok.inj inserted
      exact ⟨fresh, rfl, rfl, rfl, rfl⟩

theorem liveAccount_eq_ok {log : RevisionTables} {accountId : AccountId} {account : AccountRow}
    (live : liveAccount log accountId = .ok account) :
    findAccount log accountId = some account ∧ account.tombstoned = false := by
  unfold liveAccount at live
  split at live
  · cases live
  · next found stored =>
      split at live
      · cases live
      · next alive =>
          obtain rfl := Except.ok.inj live
          exact ⟨stored, by simpa using alive⟩

/-- The log after appending the next revision of an account. -/
theorem appendToAccount_eq_ok {log log' : RevisionTables} {row : RevisionRow}
    {tombstoned : Bool} {account : AccountRow}
    (found : findAccount log row.accountId = some account)
    (next : row.parent = account.headRevisionId)
    (appended : appendToAccount log row tombstoned = .ok log') :
    (∀ old ∈ log.revisions, old.revisionId ≠ row.revisionId) ∧ LogWrite log row log' ∧
      log'.dirtyAccounts = stampDirty log.dirtyAccounts row := by
  obtain ⟨inserted, stored, equal⟩ := Fallible.bind_eq_ok_iff.mp appended
  obtain ⟨fresh, revisions, accounts, merges, dirty⟩ := insertRevision_eq_ok stored
  obtain rfl := Except.ok.inj equal
  refine ⟨fresh, .extended account
    (fun old => { old with
      headRevisionId := row.revisionId, lastModifiedAt := row.createdAt, tombstoned })
    found next (fun _ => rfl) (fun _ => rfl) ?_ revisions merges, dirty⟩
  rw [← accounts]

@[simp] theorem syncCache_vdk (active : ActiveState) (accountId : AccountId)
    (identity : Option AccountIdentity) :
    (syncCache active accountId identity).vdk = active.vdk := by
  cases identity <;> rfl

@[simp] theorem syncCache_chain (active : ActiveState) (accountId : AccountId)
    (identity : Option AccountIdentity) :
    (syncCache active accountId identity).chain = active.chain := by
  cases identity <;> rfl

@[simp] theorem syncCache_deviceKey (active : ActiveState) (accountId : AccountId)
    (identity : Option AccountIdentity) :
    (syncCache active accountId identity).deviceKey = active.deviceKey := by
  cases identity <;> rfl

@[simp] theorem syncCache_requiresUpgrade (active : ActiveState) (accountId : AccountId)
    (identity : Option AccountIdentity) :
    (syncCache active accountId identity).requiresUpgrade = active.requiresUpgrade := by
  cases identity <;> rfl

section

variable {vault : Vault} {active : ActiveState} {accountId : AccountId} {parent : RevisionId}
  {schemaVersion : Nat} {payload : IdentityPayload} {isTombstone : Bool} {draw : WriteDraw}
  {log' : RevisionTables} {identity : Option AccountIdentity}

/-- A local edit from its log effect: the row is `localRow`, the handle keeps its keys. -/
theorem localWrite_localRow (now : Nat) (session : vault.active = some active)
    (wrote : (∀ old ∈ vault.disk.log.revisions, old.revisionId ≠ draw.revisionId) ∧
      LogWrite vault.disk.log
        (localRow vault active accountId parent schemaVersion payload isTombstone draw) log' ∧
      log'.dirtyAccounts = stampDirty vault.disk.log.dirtyAccounts
        (localRow vault active accountId parent schemaVersion payload isTombstone draw))
    (payloadLocal : payload.Local)
    (version : schemaVersion = vault.vaultMeta.wrapContext.schemaVersion ∨
      schemaVersion ≤ revisionSchemaVersionMax) :
    LocalWrite vault (touchSession { vault with
      disk := { vault.disk with log := log' }
      active := some (syncCache active accountId identity) } now) active
      (localRow vault active accountId parent schemaVersion payload isTombstone draw)
      payload where
  session
  encPayload := rfl
  nonce := draw.nonce.notPlaceholder
  epoch := rfl
  payloadLocal
  version
  unpublished := ⟨rfl, rfl, rfl, rfl, rfl⟩
  fresh := wrote.1
  log := by simpa using wrote.2.1
  dirty := by simpa using wrote.2.2
  disk := by simp
  vaultMeta := by simp
  deviceId := by simp
  active' := ⟨_, touchSession_active _ _, by simp, by simp, by simp⟩

theorem localWrite_of_log (now : Nat) (session : vault.active = some active)
    (wrote : (∀ old ∈ vault.disk.log.revisions, old.revisionId ≠ draw.revisionId) ∧
      LogWrite vault.disk.log
        (localRow vault active accountId parent schemaVersion payload isTombstone draw) log' ∧
      log'.dirtyAccounts = stampDirty vault.disk.log.dirtyAccounts
        (localRow vault active accountId parent schemaVersion payload isTombstone draw))
    (payloadLocal : payload.Local)
    (version : schemaVersion = vault.vaultMeta.wrapContext.schemaVersion ∨
      schemaVersion ≤ revisionSchemaVersionMax) :
    WriteCall vault (touchSession { vault with
      disk := { vault.disk with log := log' }
      active := some (syncCache active accountId identity) } now) draw.revisionId :=
  .inr ⟨active, _, payload, localWrite_localRow now session wrote payloadLocal version, rfl⟩

end

/-! ## The calls -/

theorem accountAdd_writes (vault : Vault) (validated : Except StoreError AccountIdentity)
    (accountId : AccountId) (draw : WriteDraw) :
    WriteCall vault (accountAdd vault validated accountId draw).1 draw.revisionId := by
  unfold accountAdd
  rcases withFreshSession_cases vault draw.now _ with
    idle | ⟨active, vault', id, session, done, result⟩
  · exact .inl idle
  rw [result]
  obtain ⟨identity, -, rest⟩ := Fallible.bind_eq_ok_iff.mp done
  split at rest
  · cases rest
  · next accounts stored =>
      obtain ⟨log, inserted, equal⟩ := Fallible.bind_eq_ok_iff.mp rest
      obtain ⟨rfl, -⟩ := Prod.mk.inj (Except.ok.inj equal)
      obtain ⟨newAccount, rfl⟩ := Table.insert?_eq_some stored
      obtain ⟨fresh, revisions, sameAccounts, merges, dirty⟩ := insertRevision_eq_ok inserted
      exact localWrite_of_log draw.now session
        ⟨fresh, .added _ rfl newAccount rfl rfl sameAccounts revisions merges, dirty⟩ trivial
        (.inl rfl)

theorem accountUpdate_writes (vault : Vault) (accountId : AccountId)
    (patch : AccountIdentity → Except StoreError AccountIdentity) (draw : WriteDraw) :
    WriteCall vault (accountUpdate vault accountId patch draw).1 draw.revisionId := by
  unfold accountUpdate
  rcases withFreshSession_cases vault draw.now _ with
    idle | ⟨active, vault', id, session, done, result⟩
  · exact .inl idle
  rw [result]
  obtain ⟨-, -, rest⟩ := Fallible.bind_eq_ok_iff.mp done
  obtain ⟨account, live, rest⟩ := Fallible.bind_eq_ok_iff.mp rest
  obtain ⟨current, -, rest⟩ := Fallible.bind_eq_ok_iff.mp rest
  obtain ⟨identity, -, rest⟩ := Fallible.bind_eq_ok_iff.mp rest
  obtain ⟨log, appended, equal⟩ := Fallible.bind_eq_ok_iff.mp rest
  obtain ⟨rfl, -⟩ := Prod.mk.inj (Except.ok.inj equal)
  exact localWrite_of_log draw.now session
    (appendToAccount_eq_ok (liveAccount_eq_ok live).1 rfl appended) trivial (.inl rfl)

theorem deleteAccount_writes (vault : Vault) (accountId : AccountId) (draw : WriteDraw) :
    WriteCall vault (deleteAccount vault accountId draw).1 draw.revisionId := by
  unfold deleteAccount
  rcases withFreshSession_cases vault draw.now _ with
    idle | ⟨active, vault', id, session, done, result⟩
  · exact .inl idle
  rw [result]
  obtain ⟨-, -, rest⟩ := Fallible.bind_eq_ok_iff.mp done
  obtain ⟨account, live, rest⟩ := Fallible.bind_eq_ok_iff.mp rest
  obtain ⟨log, appended, equal⟩ := Fallible.bind_eq_ok_iff.mp rest
  obtain ⟨rfl, -⟩ := Prod.mk.inj (Except.ok.inj equal)
  exact localWrite_of_log draw.now session
    (appendToAccount_eq_ok (liveAccount_eq_ok live).1 rfl appended) trivial (.inl rfl)

/-! ### Resolving a fork -/

/-- The head list of `account_heads` names exactly the head rows. -/
theorem accountHeads_eq_ok {log : RevisionTables} {accountId : AccountId}
    {heads : List RevisionId} (listed : accountHeads log accountId = .ok heads) :
    heads.Perm ((accountHeadRows log.revisions accountId).map RevisionRow.revisionId) := by
  unfold accountHeads at listed
  split at listed
  · obtain rfl := Except.ok.inj listed
    exact (List.perm_insertionSort _ _).map _
  · cases listed

theorem resolveForkValidate_eq_ok {log : RevisionTables} {accountId : AccountId}
    {keep : RevisionId} {chosen : RevisionRow}
    (validated : resolveForkValidate log accountId keep = .ok chosen) :
    findRevision log.revisions accountId keep = some chosen ∧
      1 < (accountHeadRows log.revisions accountId).length ∧
      keep ∈ (accountHeadRows log.revisions accountId).map RevisionRow.revisionId := by
  obtain ⟨account, -, rest⟩ := Fallible.bind_eq_ok_iff.mp validated
  split at rest
  · cases rest
  · next found stored =>
      obtain ⟨heads, listed, rest⟩ := Fallible.bind_eq_ok_iff.mp rest
      have named := accountHeads_eq_ok listed
      split at rest
      · cases rest
      · next forked =>
          split at rest
          · cases rest
          · next member =>
              obtain rfl := Except.ok.inj rest
              refine ⟨stored, ?_, named.mem_iff.mp (not_not.mp member)⟩
              have sameLength := named.length_eq
              rw [List.length_map] at sameLength
              omega

/-- A row that reads back as an identity or as a tombstone is of a known version. -/
theorem version_of_readRow {vaultId : VaultId} {vdk : VdkKey} {row : RevisionRow}
    (read : (∃ identity, readRow vaultId vdk row = .ok identity) ∨
      readRow vaultId vdk row = .error .accountTombstoned) :
    row.schemaVersion ≤ revisionSchemaVersionMax := by
  unfold readRow at read
  by_contra newer
  split at read
  · simp at read
  · simp at read
  · rw [if_pos (by omega)] at read
    simp at read

theorem mergePayload_eq_ok {vault : Vault} {active : ActiveState} {chosen : RevisionRow}
    {nowMs : Int} {payload : IdentityPayload}
    (merged : mergePayload vault active chosen nowMs = .ok payload)
    (found : findRevision vault.disk.log.revisions chosen.accountId chosen.revisionId =
      some chosen) :
    payload.Local ∧ chosen.schemaVersion ≤ revisionSchemaVersionMax := by
  have read : readIdentityAt vault active chosen.accountId chosen.revisionId =
      readRow vault.vaultMeta.vaultId active.vdk chosen := by
    simp only [readIdentityAt, found]
  unfold mergePayload at merged
  rw [read] at merged
  split at merged
  · next _ tombstoned =>
      obtain rfl := Except.ok.inj merged
      exact ⟨trivial, version_of_readRow (.inr tombstoned)⟩
  · cases merged
  · cases merged
  · next identity _ opened =>
      obtain rfl := Except.ok.inj merged
      exact ⟨trivial, version_of_readRow (.inl ⟨identity, opened⟩)⟩
  · cases merged

theorem findRevision_eq_some {revisions : List RevisionRow} {accountId : AccountId}
    {revisionId : RevisionId} {row : RevisionRow}
    (found : findRevision revisions accountId revisionId = some row) :
    row ∈ revisions ∧ row.accountId = accountId ∧ row.revisionId = revisionId := by
  refine ⟨List.mem_of_find?_eq_some found, ?_⟩
  simpa using List.find?_some found

theorem mem_supersedeLosers_id {revisions : List RevisionRow} {accountId : AccountId}
    {keep merge : RevisionId} {row : RevisionRow}
    (member : row ∈ revisions) :
    ∃ marked ∈ supersedeLosers revisions accountId keep merge,
      marked.revisionId = row.revisionId := by
  refine ⟨_, List.mem_map_of_mem member, ?_⟩
  split <;> rfl

theorem resolveFork_writes (vault : Vault) (accountId : AccountId) (keep : RevisionId)
    (draw : WriteDraw) :
    WriteCall vault (resolveFork vault accountId keep draw).1 draw.revisionId := by
  unfold resolveFork
  rcases withFreshSession_cases vault draw.now _ with
    idle | ⟨active, vault', id, session, done, result⟩
  · exact .inl idle
  rw [result]
  obtain ⟨chosen, validated, rest⟩ := Fallible.bind_eq_ok_iff.mp done
  obtain ⟨payload, merged, rest⟩ := Fallible.bind_eq_ok_iff.mp rest
  obtain ⟨log, committed, equal⟩ := Fallible.bind_eq_ok_iff.mp rest
  obtain ⟨rfl, -⟩ := Prod.mk.inj (Except.ok.inj equal)
  obtain ⟨found, forked, head⟩ := resolveForkValidate_eq_ok validated
  obtain ⟨-, rfl, rfl⟩ := findRevision_eq_some found
  obtain ⟨payloadLocal, version⟩ := mergePayload_eq_ok merged found
  obtain ⟨inserted, stored, equal⟩ := Fallible.bind_eq_ok_iff.mp committed
  obtain ⟨fresh, revisions, accounts, merges, dirty⟩ := insertRevision_eq_ok stored
  obtain rfl := Except.ok.inj equal
  have freshId : ∀ old ∈ vault.disk.log.revisions, old.revisionId ≠ draw.revisionId := by
    intro old member
    obtain ⟨marked, markedMember, sameId⟩ := mem_supersedeLosers_id member
    exact sameId ▸ fresh marked markedMember
  refine localWrite_of_log draw.now session ⟨freshId, .resolved
    (fun old => { old with
      headRevisionId := draw.revisionId, lastModifiedAt := draw.nowMs
      frozenPendingResolve := false, tombstoned := chosen.isTombstone })
    forked head (fun _ => rfl) (fun _ => rfl) ?_ revisions ?_, dirty⟩ payloadLocal
    (.inr version)
  · rw [← accounts]
    rfl
  · intro merge member
    exact merges ▸ (List.mem_filter.mp member).1

end Pangolin.Store
