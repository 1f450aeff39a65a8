import Pangolin.Store.Vault

/-!
# Account calls

Every local edit seals a payload under the session VDK, stamps the session's current
epoch on the row, appends it to the revision log and moves the account's head
pointer to it.  Reading an account back goes through `readIdentityAt`.
-/

namespace Pangolin.Store

open Crypto

/-- The randomness and clocks of one write. -/
structure WriteDraw where
  revisionId : RevisionId
  nonce : DrawnNonce
  nowMs : Int
  /-- The session clock. -/
  now : Nat
  deriving Repr, DecidableEq

/-- `i64::try_from(epoch).unwrap_or(i64::MAX)`. -/
def stampEpoch (epoch : Nat) : Nat :=
  if fitsI64 epoch then epoch else 2 ^ 63 - 1

/-- The row a local write seals under the session VDK. -/
def localRow (vault : Vault) (active : ActiveState) (accountId : AccountId)
    (parent : RevisionId) (schemaVersion : Nat) (payload : IdentityPayload)
    (isTombstone : Bool) (draw : WriteDraw) : RevisionRow :=
  { revisionId := draw.revisionId
    accountId
    parent
    deviceId := vault.deviceId
    schemaVersion
    createdAt := draw.nowMs
    encPayload := sealPayload active.vdk draw.nonce.value
      ⟨vault.vaultMeta.vaultId, accountId, parent, schemaVersion⟩ payload
    encNonce := draw.nonce.value
    isTombstone
    vdkEpoch := stampEpoch active.chain.currentEpoch }

def findAccount (log : RevisionTables) (accountId : AccountId) : Option AccountRow :=
  Table.lookup AccountRow.accountId log.accounts accountId

/-- `UPDATE account_identities SET … WHERE account_id = ?`. -/
def updateAccountRow (accounts : List AccountRow) (accountId : AccountId)
    (change : AccountRow → AccountRow) : List AccountRow :=
  accounts.map fun row => if row.accountId = accountId then change row else row

/-- Append a row and stamp its dirty marker; a taken revision id is refused. -/
def insertRevision (log : RevisionTables) (row : RevisionRow) :
    Except StoreError RevisionTables :=
  match Table.insert? RevisionRow.revisionId log.revisions row with
  | none => .error .sqlite
  | some revisions =>
      .ok { log with
        revisions
        dirtyAccounts := Table.insertIgnore (fun marker => (marker.accountId, marker.revisionId))
          log.dirtyAccounts ⟨row.accountId, row.revisionId, row.createdAt⟩ }

/-- Put an identity into the session cache, or drop the account from it. -/
def syncCache (active : ActiveState) (accountId : AccountId)
    (identity : Option AccountIdentity) : ActiveState :=
  let others := active.cache.filter fun entry => entry.1 ≠ accountId
  match identity with
  | some identity => { active with cache := others ++ [(accountId, identity)] }
  | none => { active with cache := others }

/-- `account_add`; `validated` is the outcome of `draft.validate_into_identity`. -/
def accountAdd (vault : Vault) (validated : Except StoreError AccountIdentity)
    (accountId : AccountId) (draw : WriteDraw) : Call AccountId :=
  withFreshSession vault draw.now fun active => do
    let identity ← validated
    let row := localRow vault active accountId .genesisParent
      vault.vaultMeta.wrapContext.schemaVersion (.live identity) false draw
    match Table.insert? AccountRow.accountId vault.disk.log.accounts
        ⟨accountId, draw.nowMs, draw.nowMs, false, draw.revisionId, false⟩ with
    | none => .error .sqlite
    | some accounts => do
        let log ← insertRevision { vault.disk.log with accounts } row
        return ({ vault with
          disk := { vault.disk with log }
          active := some (syncCache active accountId (some identity)) }, accountId)

/-! ## Reading a revision -/

/-- Open a stored row under a given key, as `read_identity_at` does. -/
def readRow (vaultId : VaultId) (vdk : VdkKey) (row : RevisionRow) :
    Except StoreError AccountIdentity :=
  match row.encPayload.open? vdk row.encNonce (row.aad vaultId) with
  | none => .error .authenticationFailed
  | some (.future version) =>
      .error (.unsupportedRevisionSchemaVersion row.accountId row.revisionId version
        revisionSchemaVersionMax)
  | some payload =>
      if revisionSchemaVersionMax < row.schemaVersion then
        .error (.unsupportedRevisionSchemaVersion row.accountId row.revisionId
          row.schemaVersion revisionSchemaVersionMax)
      else
        match payload with
        | .live identity => .ok identity
        | _ => .error .accountTombstoned

/-- `read_identity_at`: the row is opened with the session VDK, whatever its epoch. -/
def readIdentityAt (vault : Vault) (active : ActiveState) (accountId : AccountId)
    (revisionId : RevisionId) : Except StoreError AccountIdentity :=
  match findRevision vault.disk.log.revisions accountId revisionId with
  | none => .error .revisionNotFound
  | some row => readRow vault.vaultMeta.vaultId active.vdk row

/-- The account row an edit works on: present and not tombstoned. -/
def liveAccount (log : RevisionTables) (accountId : AccountId) :
    Except StoreError AccountRow :=
  match findAccount log accountId with
  | none => .error .accountNotFound
  | some account => if account.tombstoned then .error .accountTombstoned else .ok account

/-- `read_head_identity`. -/
def readHeadIdentity (vault : Vault) (active : ActiveState) (accountId : AccountId) :
    Except StoreError AccountIdentity := do
  let account ← liveAccount vault.disk.log accountId
  readIdentityAt vault active accountId account.headRevisionId

/-- `refuse_if_frozen` and `refuse_if_requires_upgrade`. -/
def refuseUneditable (vault : Vault) (active : ActiveState) (accountId : AccountId) :
    Except StoreError Unit :=
  let account := findAccount vault.disk.log accountId
  if (account.map AccountRow.frozenPendingResolve).getD false then
    .error (.accountFrozenPendingResolve accountId)
  else if active.requiresUpgrade.any fun id => id = accountId then
    .error (.unsupportedRevisionSchemaVersion accountId
      ((account.map AccountRow.headRevisionId).getD .genesisParent)
      (revisionSchemaVersionMax + 1) revisionSchemaVersionMax)
  else
    .ok ()

/-- The head `account_get` reads: a forked account's canonical head, otherwise the
stored pointer. -/
def readableHead (log : RevisionTables) (account : AccountRow) :
    Except StoreError RevisionId := do
  let heads ← accountHeads log account.accountId
  if 1 < heads.length then
    let graph ← RevisionGraph.build (readRevisionRows log.revisions account.accountId)
    match graph.canonicalHead with
    | some head => .ok head
    | none => .error (.corrupted "account has no revisions")
  else
    .ok account.headRevisionId

/-- `account_get`, up to the summary projection of the identity it reads. -/
def accountGet (vault : Vault) (accountId : AccountId) (now : Nat) :
    Call (RevisionId × AccountIdentity) :=
  withFreshSession vault now fun active => do
    refuseUneditable vault active accountId
    let account ← liveAccount vault.disk.log accountId
    let head ← readableHead vault.disk.log account
    let identity ← readIdentityAt vault active accountId head
    return (vault, (head, identity))

/-! ## Editing an account -/

/-- Append a row to an account and move its head pointer, keeping or setting the
tombstone flag. -/
def appendToAccount (log : RevisionTables) (row : RevisionRow) (tombstoned : Bool) :
    Except StoreError RevisionTables := do
  let log ← insertRevision log row
  return { log with
    accounts := updateAccountRow log.accounts row.accountId fun account =>
      { account with
        headRevisionId := row.revisionId
        lastModifiedAt := row.createdAt
        tombstoned } }

/-- `account_update`; `patch` is `AccountIdentityPatch::apply`. -/
def accountUpdate (vault : Vault) (accountId : AccountId)
    (patch : AccountIdentity → Except StoreError AccountIdentity) (draw : WriteDraw) :
    Call RevisionId :=
  withFreshSession vault draw.now fun active => do
    refuseUneditable vault active accountId
    let account ← liveAccount vault.disk.log accountId
    let current ← readIdentityAt vault active accountId account.headRevisionId
    let identity ← patch current
    let row := localRow vault active accountId account.headRevisionId
      vault.vaultMeta.wrapContext.schemaVersion (.live identity) false draw
    let log ← appendToAccount vault.disk.log row false
    return ({ vault with
      disk := { vault.disk with log }
      active := some (syncCache active accountId (some identity)) }, draw.revisionId)

/-- `delete_account`: a tombstone revision; the payload is never read. -/
def deleteAccount (vault : Vault) (accountId : AccountId) (draw : WriteDraw) : Call Unit :=
  withFreshSession vault draw.now fun active => do
    refuseUneditable vault active accountId
    let account ← liveAccount vault.disk.log accountId
    let row := localRow vault active accountId account.headRevisionId
      vault.vaultMeta.wrapContext.schemaVersion
      (.tombstone accountId draw.nowMs.toNat) true draw
    let log ← appendToAccount vault.disk.log row true
    return ({ vault with
      disk := { vault.disk with log }
      active := some (syncCache active accountId none) }, ())

/-! ## Resolving a fork -/

/-- `resolve_fork_validate`: the kept row and its account must exist, the account be
forked and the row a head. -/
def resolveForkValidate (log : RevisionTables) (accountId : AccountId)
    (keep : RevisionId) : Except StoreError RevisionRow := do
  let _ ← liveAccount log accountId
  match findRevision log.revisions accountId keep with
  | none => .error .accountNotFound
  | some chosen => do
      let heads ← accountHeads log accountId
      if heads.length ≤ 1 then
        .error (.validation "not-forked" "account is not forked; nothing to resolve")
      else if ¬ keep ∈ heads then
        .error (.notAHead accountId keep heads)
      else
        .ok chosen

/-- Mark every head of the account other than `keep` as superseded by the merge. -/
def supersedeLosers (revisions : List RevisionRow) (accountId : AccountId)
    (keep merge : RevisionId) : List RevisionRow :=
  let losers := (accountHeadRows revisions accountId).map RevisionRow.revisionId
  revisions.map fun row =>
    if row.accountId = accountId ∧ row.revisionId ∈ losers ∧ row.revisionId ≠ keep then
      { row with supersededBy := some merge }
    else
      row

/-- `prune_orphan_pending_merges`: stashes whose target is no longer a head go. -/
def pruneOrphanPendingMerges (log : RevisionTables) (accountId : AccountId) :
    RevisionTables :=
  let heads := (accountHeadRows log.revisions accountId).map RevisionRow.revisionId
  { log with pendingMerges := log.pendingMerges.filter fun merge =>
      merge.accountId ≠ accountId || merge.targetHeadId ∈ heads }

/-- `resolve_fork_commit` and the pruning after it. -/
def resolveForkCommit (log : RevisionTables) (keep : RevisionId) (row : RevisionRow) :
    Except StoreError RevisionTables := do
  let revisions := supersedeLosers log.revisions row.accountId keep row.revisionId
  let log ← insertRevision { log with revisions } row
  return pruneOrphanPendingMerges { log with
    accounts := updateAccountRow log.accounts row.accountId fun account =>
      { account with
        headRevisionId := row.revisionId
        lastModifiedAt := row.createdAt
        frozenPendingResolve := false
        tombstoned := row.isTombstone } } row.accountId

/-- What a resolution re-seals: the kept identity, or a fresh tombstone when the kept
row is one.  Either way the kept row must open first. -/
def mergePayload (vault : Vault) (active : ActiveState) (chosen : RevisionRow)
    (nowMs : Int) : Except StoreError IdentityPayload :=
  match chosen.isTombstone, readIdentityAt vault active chosen.accountId chosen.revisionId with
  | true, .error .accountTombstoned => .ok (.tombstone chosen.accountId nowMs.toNat)
  | true, .error error => .error error
  | true, .ok _ => .error .authenticationFailed
  | false, .ok identity => .ok (.live identity)
  | false, .error error => .error error

/-- `resolve_fork`. -/
def resolveFork (vault : Vault) (accountId : AccountId) (keep : RevisionId)
    (draw : WriteDraw) : Call RevisionId :=
  withFreshSession vault draw.now fun active => do
    let chosen ← resolveForkValidate vault.disk.log accountId keep
    let payload ← mergePayload vault active chosen draw.nowMs
    let row := localRow vault active accountId keep chosen.schemaVersion payload
      chosen.isTombstone draw
    let log ← resolveForkCommit vault.disk.log keep row
    let identity := match payload with
      | .live identity => some identity
      | _ => none
    return ({ vault with
      disk := { vault.disk with log }
      active := some (syncCache active accountId identity) }, draw.revisionId)

end Pangolin.Store
