import Pangolin.Runs.KeyInvariant
import Pangolin.Store.RowChanges

/-!
# Heads, flags, cache and index over runs

A run of local edits, chain ingests, resolutions and unlocks.  Whatever the run does, the
head pointer of an account that is not frozen names a row without an unrevoked child, and
the search index mirrors the cache.  For an account that `clear_frozen` never touched and
that is not frozen, the head is the only one, its row was sealed on this device, the
tombstone flag says what that row is, and the session caches the identity sealed in it, or
nothing if it is a tombstone.

A frozen account is outside of that: an ingested event leaves its head and its cache entry
as they were, and only the search filters it out.
-/

namespace Pangolin

open Symbolic Crypto Store Transition

/-! ## The machine -/

/-- A vault with the search index of its session. -/
structure IndexedVault (Projection : Type) where
  vault : Vault
  index : List (IndexEntry Projection)

inductive HeadOp where
  | unlock (input : UnlockInput)
  | lock
  | reopen (placeholder : DeviceId) (sessionIdle : SessionDuration)
  | accountAdd (validated : Except StoreError AccountIdentity) (accountId : AccountId)
      (draw : WriteDraw)
  | accountUpdate (accountId : AccountId)
      (patch : AccountIdentity → Except StoreError AccountIdentity) (draw : WriteDraw)
  | deleteAccount (accountId : AccountId) (draw : WriteDraw)
  | resolveFork (accountId : AccountId) (keep : RevisionId) (draw : WriteDraw)
  | clearFrozen (accountId : AccountId) (chosen : RevisionId) (nowMs : Int) (now : Nat)
  | ingest (event : RevisionEvent) (nowMs : Int) (now : Nat)

section

variable {Projection : Type} (project : AccountIdentity → Projection) (hash : CanonicalHash)

/-- A call that wrote an account syncs the index with what it cached. -/
def indexWrite {α : Type} (world : IndexedVault Projection) (accountId : AccountId)
    (draw : WriteDraw) : Call α → IndexedVault Projection
  | (vault, .error _) => ⟨vault, world.index⟩
  | (vault, .ok _) =>
      ⟨vault, indexSync project world.index accountId draw.nowMs
        (cachedIdentity vault accountId)⟩

/-- An unlock builds the index anew. -/
def indexUnlock (world : IndexedVault Projection) : Call Unit → IndexedVault Projection
  | (vault, .error _) => ⟨vault, world.index⟩
  | (vault, .ok ()) => ⟨vault, indexOfCache project vault⟩

def headStep (world : IndexedVault Projection) : HeadOp → IndexedVault Projection
  | .unlock input => indexUnlock project world (unlock world.vault input)
  | .lock => { world with vault := lock world.vault }
  | .reopen placeholder sessionIdle =>
      { world with vault := openVault world.vault.disk placeholder sessionIdle }
  | .accountAdd validated accountId draw =>
      indexWrite project world accountId draw (accountAdd world.vault validated accountId draw)
  | .accountUpdate accountId patch draw =>
      indexWrite project world accountId draw (accountUpdate world.vault accountId patch draw)
  | .deleteAccount accountId draw =>
      indexWrite project world accountId draw (deleteAccount world.vault accountId draw)
  | .resolveFork accountId keep draw =>
      indexWrite project world accountId draw (resolveFork world.vault accountId keep draw)
  | .clearFrozen accountId chosen nowMs now =>
      { world with vault := (clearFrozen world.vault accountId chosen nowMs now).1 }
  | .ingest event nowMs now =>
      { world with vault := (ingestChainRevision hash world.vault event nowMs now).1 }

end

/-- A drawn revision id is not zero and no stored row has it as its parent. -/
def FreshDraw (log : RevisionTables) (drawn : RevisionId) : Prop :=
  drawn ≠ .genesisParent ∧ ∀ row ∈ log.revisions, row.parent ≠ drawn

instance FreshDraw.decidable (log : RevisionTables) (drawn : RevisionId) :
    Decidable (FreshDraw log drawn) :=
  inferInstanceAs (Decidable (_ ∧ _))

/-- The ids the calls draw at random are fresh. -/
def HeadOp.Fresh {Projection : Type} (world : IndexedVault Projection) : HeadOp → Prop
  | .accountAdd _ _ draw | .accountUpdate _ _ draw | .deleteAccount _ draw
  | .resolveFork _ _ draw => FreshDraw world.vault.disk.log draw.revisionId
  | _ => True

instance HeadOp.decidableFresh {Projection : Type} (world : IndexedVault Projection)
    (op : HeadOp) :
    Decidable (op.Fresh world) :=
  match op with
  | .accountAdd _ _ draw | .accountUpdate _ _ draw | .deleteAccount _ draw
  | .resolveFork _ _ draw =>
      inferInstanceAs (Decidable (FreshDraw world.vault.disk.log draw.revisionId))
  | .unlock _ | .lock | .reopen _ _ | .clearFrozen _ _ _ _ | .ingest _ _ _ => .isTrue trivial

/-- The call is a `clear_frozen` of the account. -/
def HeadOp.Unfreezes (accountId : AccountId) : HeadOp → Prop
  | .clearFrozen target _ _ _ => target = accountId
  | _ => False

instance HeadOp.decidableUnfreezes (accountId : AccountId) (op : HeadOp) :
    Decidable (op.Unfreezes accountId) :=
  match op with
  | .clearFrozen target _ _ _ => inferInstanceAs (Decidable (target = accountId))
  | .unlock _ | .lock | .reopen _ _ | .accountAdd _ _ _ | .accountUpdate _ _ _
  | .deleteAccount _ _ | .resolveFork _ _ _ | .ingest _ _ _ => .isFalse id

/-! ## The invariants -/

/-- The account's head pointer names one of its rows, which has no unrevoked child. -/
def HeadLeaf (log : RevisionTables) (account : AccountRow) : Prop :=
  ∃ row ∈ log.revisions, row.accountId = account.accountId ∧
    row.revisionId = account.headRevisionId ∧ hasUnrevokedChild log.revisions row = false

structure TablesInv (log : RevisionTables) : Prop where
  accounts : (log.accounts.map AccountRow.accountId).Nodup
  revisions : (log.revisions.map RevisionRow.revisionId).Nodup
  headsStored : HeadsStored log.accounts log.revisions
  owned : ∀ row ∈ log.revisions, ∃ account, findAccount log row.accountId = some account
  heads : ∀ accountId account, findAccount log accountId = some account →
    account.frozenPendingResolve = true ∨ HeadLeaf log account

/-- The account's head is its only one, sealed here, of the kind the flag says. -/
structure SoleHead (ring : Nat → Option VdkKey) (vaultId : VaultId) (log : RevisionTables)
    (account : AccountRow) (row : RevisionRow) (key : VdkKey) (payload : IdentityPayload) :
    Prop where
  stored : row ∈ log.revisions
  sameAccount : row.accountId = account.accountId
  head : row.revisionId = account.headRevisionId
  sealedRow : SealedRow ring vaultId row key payload
  kind : row.isTombstone = payload.identity?.isNone
  flag : account.tombstoned = row.isTombstone
  only : ∀ other ∈ accountHeadRows log.revisions account.accountId,
    other.revisionId = account.headRevisionId

/-- Unless it is frozen, the account has such a head, and an open session caches it. -/
def Settled (vault : Vault) (accountId : AccountId) : Prop :=
  ∀ account, findAccount vault.disk.log accountId = some account →
    account.frozenPendingResolve = true ∨
      ∃ row key payload, SoleHead (keyring vault.disk.keys) vault.vaultMeta.vaultId
        vault.disk.log account row key payload ∧
        ∀ active, vault.active = some active → ∀ identity,
          (accountId, identity) ∈ active.cache ↔ payload = .live identity

/-- What holds of every account in every run. -/
structure WorldInv {Projection : Type} (project : AccountIdentity → Projection)
    (world : IndexedVault Projection) : Prop where
  keys : KeyCore world.vault
  tables : TablesInv world.vault.disk.log
  index : ∀ active, world.vault.active = some active →
    Mirrors project active.cache world.index

/-! ## Frames for one account -/

section

variable {log log' : RevisionTables} {account : AccountRow}
  {change : RevisionRow → RevisionRow} {more : List RevisionRow}

theorem HeadLeaf.kept (leaf : HeadLeaf log account)
    (kept : KeptFor account.accountId log.revisions log'.revisions change more) :
    HeadLeaf log' account := by
  obtain ⟨row, stored, sameAccount, isHead, childless⟩ := leaf
  have same := kept.same row stored sameAccount
  refine ⟨change row, kept.mem_after stored, ?_, ?_, ?_⟩
  · rw [same.accountId, sameAccount]
  · rw [same.revisionId, isHead]
  · rw [kept.hasUnrevokedChild stored sameAccount]
    exact childless

theorem SoleHead.kept {ring : Nat → Option VdkKey} {vaultId : VaultId} {row : RevisionRow}
    {key : VdkKey} {payload : IdentityPayload}
    (sole : SoleHead ring vaultId log account row key payload)
    (kept : KeptFor account.accountId log.revisions log'.revisions change more) :
    SoleHead ring vaultId log' account (change row) key payload := by
  have same := kept.same row sole.stored sole.sameAccount
  constructor
  · exact kept.mem_after sole.stored
  · rw [same.accountId, sole.sameAccount]
  · rw [same.revisionId, sole.head]
  · exact SameContent.sealedRow same.toSameContent sole.sealedRow
  · rw [same.isTombstone, sole.kind]
  · rw [same.isTombstone, sole.flag]
  · intro other isHead
    obtain ⟨old, oldHead, rfl⟩ := kept.accountHeadRows isHead
    simp only [accountHeadRows, List.mem_filter, Bool.and_eq_true, decide_eq_true_eq] at oldHead
    rw [(kept.same old oldHead.1 oldHead.2.1).revisionId]
    refine sole.only old ?_
    simp only [accountHeadRows, List.mem_filter, Bool.and_eq_true, decide_eq_true_eq]
    exact oldHead

end

/-- The parent of a written row is genesis or stored. -/
theorem LogWrite.parent_ne {log log' : RevisionTables} {row : RevisionRow}
    (wrote : LogWrite log row log') (stored : HeadsStored log.accounts log.revisions)
    (fresh : ∀ old ∈ log.revisions, old.revisionId ≠ row.revisionId)
    (drawn : FreshDraw log row.revisionId) : row.parent ≠ row.revisionId := by
  intro same
  cases wrote with
  | added account genesis _ _ _ _ _ _ => exact drawn.1 (same.symm.trans genesis)
  | extended account change found next _ _ _ _ _ =>
      obtain ⟨head, headStored, -, isHead⟩ := stored account (Table.mem_of_lookup found)
      exact fresh head headStored (isHead.trans (next.symm.trans same))
  | resolved change _ parent _ _ _ _ _ =>
      obtain ⟨kept, isHead, isParent⟩ := List.mem_map.mp parent
      exact fresh kept (List.mem_filter.mp isHead).1 (isParent.trans same)

/-- Nothing has the new row as its parent. -/
theorem RowsAfter.childless {log log' : RevisionTables} {row : RevisionRow}
    {change : RevisionRow → RevisionRow} (rows : RowsAfter log log' row change)
    (drawn : FreshDraw log row.revisionId) (notSelf : row.parent ≠ row.revisionId) :
    hasUnrevokedChild log'.revisions row = false := by
  rw [Bool.eq_false_iff]
  intro child
  simp only [hasUnrevokedChild, List.any_eq_true, Bool.and_eq_true, decide_eq_true_eq] at child
  obtain ⟨child, stored, ⟨isChild, -⟩, -⟩ := child
  rw [rows.revisions] at stored
  rcases List.mem_append.mp stored with mapped | new
  · obtain ⟨old, oldStored, rfl⟩ := List.mem_map.mp mapped
    rw [(rows.same old oldStored).parent] at isChild
    exact drawn.2 old oldStored isChild
  · obtain rfl := List.mem_singleton.mp new
    exact notSelf isChild

section

variable {vault vault' : Vault} {active : ActiveState} {row : RevisionRow}
  {payload : IdentityPayload}

/-- The tables after a local edit. -/
theorem TablesInv.write (inv : TablesInv vault.disk.log)
    (wrote : HeadWrite vault vault' active row payload)
    (drawn : FreshDraw vault.disk.log row.revisionId) : TablesInv vault'.disk.log := by
  obtain ⟨change, rows⟩ := LogWrite.rowsAfter wrote.log
  have notSelf := LogWrite.parent_ne wrote.log inv.headsStored wrote.fresh drawn
  obtain ⟨account, found, isHead, -, -⟩ := wrote.accountAt
  have newStored : row ∈ vault'.disk.log.revisions := by
    rw [rows.revisions]
    exact List.mem_append_right _ (List.mem_singleton.mpr rfl)
  constructor
  · exact wrote.log.nodup_accounts inv.accounts
  · exact rows.nodup_revisions inv.revisions wrote.fresh
  · cases wrote.log with
    | added fresh _ newAccount sameId isFreshHead accounts _ _ =>
        rw [accounts]
        refine HeadsStored.addAccount ?_ newStored sameId isFreshHead
        apply inv.headsStored.mono
        intro old stored
        refine ⟨change old, ?_, (rows.same old stored).toSameContent⟩
        rw [rows.revisions]
        exact List.mem_append_left _ (List.mem_map_of_mem stored)
    | extended _ _ _ _ sameId newHead accounts _ _ | resolved _ _ _ sameId newHead accounts _ _ =>
        rw [accounts]
        refine HeadsStored.moveHead ?_ newStored sameId newHead
        apply inv.headsStored.mono
        intro old stored
        refine ⟨change old, ?_, (rows.same old stored).toSameContent⟩
        rw [rows.revisions]
        exact List.mem_append_left _ (List.mem_map_of_mem stored)
  · intro candidate stored
    rw [rows.revisions] at stored
    rcases List.mem_append.mp stored with mapped | new
    · obtain ⟨old, oldStored, rfl⟩ := List.mem_map.mp mapped
      rw [(rows.same old oldStored).accountId]
      by_cases same : old.accountId = row.accountId
      · rw [same]
        exact ⟨account, found⟩
      · rw [wrote.others old.accountId same]
        exact inv.owned old oldStored
    · obtain rfl := List.mem_singleton.mp new
      exact ⟨account, found⟩
  · intro accountId other otherFound
    by_cases same : accountId = row.accountId
    · subst same
      obtain rfl : account = other := Option.some.inj (found.symm.trans otherFound)
      exact .inr ⟨row, newStored, (Table.key_of_lookup found).symm, isHead.symm,
        RowsAfter.childless rows drawn notSelf⟩
    · rw [wrote.others accountId same] at otherFound
      rcases inv.heads accountId other otherFound with frozen | leaf
      · exact .inl frozen
      · obtain rfl := Table.key_of_lookup otherFound
        exact .inr (leaf.kept (rows.keptFor same))

end

section

variable {vault vault' : Vault} {active : ActiveState} {row : RevisionRow}
  {payload : IdentityPayload}

/-- The written row is the only head of its account. -/
theorem HeadWrite.only (inv : TablesInv vault.disk.log)
    (wrote : HeadWrite vault vault' active row payload)
    (settled : Settled vault row.accountId) :
    ∀ other ∈ accountHeadRows vault'.disk.log.revisions row.accountId,
      other.revisionId = row.revisionId := by
  have unrevoked := wrote.unpublished.2.2.1
  intro other isHead
  have stored := (mem_accountHeadRows.mp isHead).1
  rcases wrote.extendsOrMerges with ⟨extended, revisions⟩ | ⟨-, revisions⟩
  · have rows : RowsAfter vault.disk.log vault'.disk.log row id :=
      ⟨by rw [List.map_id, revisions], fun old _ => .refl old, fun _ _ _ => rfl⟩
    rw [revisions] at stored
    rcases List.mem_append.mp stored with old | new
    · -- The account was there, and its only head is the new row's parent.
      obtain ⟨head, notParent⟩ := rows.head_before unrevoked old isHead
      obtain ⟨account, found⟩ := inv.owned other old
      rw [(mem_accountHeadRows.mp head).2.1] at found
      obtain ⟨unfrozen, next⟩ := extended account found
      rcases settled account found with frozen | ⟨_, _, _, sole, -⟩
      · rw [unfrozen] at frozen
        cases frozen
      · rw [← Table.key_of_lookup found] at head
        exact absurd ((sole.only other head).trans next.symm) notParent
    · rw [List.mem_singleton.mp new]
  · -- Every other head was superseded by the merge.
    obtain ⟨change, rows, superseded⟩ := rowsAfter_of_merge revisions
    rw [rows.revisions] at stored
    rcases List.mem_append.mp stored with mapped | new
    · obtain ⟨old, oldStored, rfl⟩ := List.mem_map.mp mapped
      obtain ⟨head, notParent⟩ := rows.head_before unrevoked oldStored isHead
      exact absurd (mem_accountHeadRows.mp isHead).2.2.1 (superseded old head notParent)
    · rw [List.mem_singleton.mp new]

/-- A local edit keeps an account settled, whether it is the one written or not. -/
theorem Settled.write {accountId : AccountId} (settled : Settled vault accountId)
    (keys : KeyCore vault) (inv : TablesInv vault.disk.log)
    (wrote : HeadWrite vault vault' active row payload) : Settled vault' accountId := by
  have sameKeys : vault'.disk.keys = vault.disk.keys := by rw [wrote.disk]
  intro account found
  rw [sameKeys, wrote.vaultMeta]
  by_cases same : accountId = row.accountId
  · subst same
    obtain ⟨written, atRow, isHead, -, flag⟩ := wrote.accountAt
    obtain rfl : written = account := Option.some.inj (atRow.symm.trans found)
    have sameId := Table.key_of_lookup found
    obtain ⟨change, rows⟩ := LogWrite.rowsAfter wrote.log
    refine .inr ⟨row, active.vdk, payload, ?_, ?_⟩
    · constructor
      · rw [rows.revisions]
        exact List.mem_append_right _ (List.mem_singleton.mpr rfl)
      · exact sameId.symm
      · exact isHead.symm
      · exact (keys.sealedRow_of_write wrote.toLocalWrite).2
      · exact wrote.kind
      · exact flag
      · rw [sameId, isHead]
        exact HeadWrite.only inv wrote settled
    · intro opened session identity
      obtain rfl := Option.some.inj (wrote.cached.symm.trans session)
      rw [mem_syncCache, if_pos rfl]
      cases payload <;> simp [IdentityPayload.identity?]
  · rw [wrote.others accountId same] at found
    rcases settled account found with frozen | ⟨old, key, oldPayload, sole, held⟩
    · exact .inl frozen
    · obtain ⟨change, rows⟩ := LogWrite.rowsAfter wrote.log
      obtain rfl := Table.key_of_lookup found
      refine .inr ⟨change old, key, oldPayload, sole.kept (rows.keptFor same), ?_⟩
      intro opened session identity
      obtain rfl := Option.some.inj (wrote.cached.symm.trans session)
      rw [mem_syncCache, if_neg same]
      exact held active wrote.session identity

end

/-! ## Ingests, cleared freezes and unlocks -/

theorem TablesInv.ingested {log log' : RevisionTables} {target : AccountId}
    (inv : TablesInv log) (ingested : Ingested log target log') : TablesInv log' := by
  have view := ingested.view
  have owned : ∀ row ∈ log'.revisions,
      ∃ account, findAccount log' row.accountId = some account := by
    intro row stored
    rcases view row.accountId with ⟨account, found, -⟩ | ⟨sameLookup, change, more, kept⟩
    · exact ⟨account, found⟩
    · obtain ⟨old, oldStored, sameAccount, -⟩ := kept.mem_before stored rfl
      rw [sameLookup, ← sameAccount]
      exact inv.owned old oldStored
  have heads : ∀ accountId account, findAccount log' accountId = some account →
      account.frozenPendingResolve = true ∨ HeadLeaf log' account := by
    intro accountId account found
    rcases view accountId with ⟨other, same, frozen⟩ | ⟨sameLookup, change, more, kept⟩
    · obtain rfl : other = account := Option.some.inj (same.symm.trans found)
      exact .inl frozen
    · rw [sameLookup] at found
      obtain rfl := Table.key_of_lookup found
      rcases inv.heads account.accountId account found with frozen | leaf
      · exact .inl frozen
      · exact .inr (leaf.kept kept)
  cases ingested with
  | kept change same revisions accounts =>
      refine ⟨accounts ▸ inv.accounts, ?_, ?_, owned, heads⟩
      · rw [revisions, List.map_map]
        have ids : RevisionRow.revisionId ∘ change = RevisionRow.revisionId := by
          funext row
          exact (same row).revisionId
        rw [ids]
        exact inv.revisions
      · rw [accounts, revisions]
        exact inv.headsStored.map fun row => (same row).toSameContent
  | inserted row isTombstone nowMs sameAccount fresh revisions accounts =>
      refine ⟨?_, ?_, ?_, owned, heads⟩
      · rw [accounts]
        exact nodup_freezeAccount inv.accounts _ _ _ _
      · rw [revisions]
        exact nodup_append_fresh inv.revisions fresh
      · rw [accounts, revisions]
        unfold freezeAccount
        split
        · exact (inv.headsStored.append row).keepHead _ (fun _ => rfl) (fun _ => rfl)
        · refine (inv.headsStored.append row).addAccount
            (List.mem_append_right _ (List.mem_singleton.mpr rfl)) ?_ rfl
          exact sameAccount.symm

section

variable {vault vault' : Vault} {accountId target : AccountId}

/-- A call that leaves the keys alone and the account's view of the log keeps it settled. -/
theorem Settled.logOnly (settled : Settled vault accountId) (call : LogOnly vault vault')
    (view : (∃ account, findAccount vault'.disk.log accountId = some account ∧
        account.frozenPendingResolve = true) ∨
      (findAccount vault'.disk.log accountId = findAccount vault.disk.log accountId ∧
        ∃ change more, KeptFor accountId vault.disk.log.revisions
          vault'.disk.log.revisions change more)) : Settled vault' accountId := by
  intro account found
  rw [call.keys, call.vaultMeta]
  rcases view with ⟨other, same, frozen⟩ | ⟨sameLookup, change, more, kept⟩
  · obtain rfl : other = account := Option.some.inj (same.symm.trans found)
    exact .inl frozen
  · rw [sameLookup] at found
    rcases settled account found with frozen | ⟨row, key, payload, sole, held⟩
    · exact .inl frozen
    · obtain rfl := Table.key_of_lookup found
      refine .inr ⟨change row, key, payload, sole.kept kept, ?_⟩
      intro active session identity
      rcases call.active with sameSession | dropped
      · exact held active (sameSession ▸ session) identity
      · rw [dropped] at session
        cases session

/-- The tables after a cleared freeze. -/
theorem TablesInv.cleared (inv : TablesInv vault.disk.log) {chosen : RevisionRow}
    (clears : Clears vault vault' target chosen) : TablesInv vault'.disk.log := by
  obtain ⟨stored, sameAccount, -, -, childless⟩ := mem_accountHeadRows.mp clears.head
  obtain ⟨cleared, atTarget, isHead⟩ := clears.accountAt
  have uniqueAccounts : (vault'.disk.log.accounts.map AccountRow.accountId).Nodup := by
    rw [clears.accounts]
    exact inv.accounts
  refine ⟨uniqueAccounts, clears.revisions ▸ inv.revisions, ?_, ?_, ?_⟩
  · intro account member
    rw [clears.revisions]
    have found : findAccount vault'.disk.log account.accountId = some account :=
      Table.lookup_eq_some_of_mem AccountRow.accountId uniqueAccounts member
    by_cases same : account.accountId = target
    · rw [same, atTarget] at found
      obtain rfl := Option.some.inj found
      exact ⟨chosen, stored, sameAccount.trans same.symm, isHead.symm⟩
    · rw [clears.others _ same] at found
      exact inv.headsStored account (Table.mem_of_lookup found)
  · intro row rowStored
    by_cases same : row.accountId = target
    · rw [same]
      exact ⟨cleared, atTarget⟩
    · rw [clears.others _ same]
      exact inv.owned row (clears.revisions ▸ rowStored)
  · intro accountId account found
    unfold HeadLeaf
    rw [clears.revisions]
    by_cases same : accountId = target
    · subst same
      obtain rfl : cleared = account := Option.some.inj (atTarget.symm.trans found)
      refine .inr ⟨chosen, stored, ?_, isHead.symm, childless⟩
      rw [sameAccount, Table.key_of_lookup found]
    · rw [clears.others accountId same] at found
      exact inv.heads accountId account found

/-- Such an account has at most one head. -/
theorem SoleHead.single {ring : Nat → Option VdkKey} {vaultId : VaultId} {log : RevisionTables}
    {account : AccountRow} {row : RevisionRow} {key : VdkKey} {payload : IdentityPayload}
    (sole : SoleHead ring vaultId log account row key payload)
    (unique : (log.revisions.map RevisionRow.revisionId).Nodup) :
    (accountHeadRows log.revisions account.accountId).length ≤ 1 := by
  have nodup : ((accountHeadRows log.revisions account.accountId).map
      RevisionRow.revisionId).Nodup := unique.sublist (List.filter_sublist.map _)
  match rows : accountHeadRows log.revisions account.accountId with
  | [] => simp
  | [_] => simp
  | first :: second :: rest =>
      have firstId := sole.only first (rows ▸ List.mem_cons_self)
      have secondId := sole.only second (rows ▸ List.mem_cons_of_mem _ List.mem_cons_self)
      rw [rows] at nodup
      simp [firstId, secondId] at nodup

/-- An unlock caches a settled account as its head row seals it. -/
theorem Settled.unlocks {input : UnlockInput} {vdk : VdkKey} {chain : VdkChain}
    {data : ActiveStateData} {deviceKey : DeviceKey} {keys : KeyTables}
    (settled : Settled vault accountId) (core : KeyCore vault) (inv : TablesInv vault.disk.log)
    (found : Unlocks vault input vault' vdk chain data deviceKey keys) :
    Settled vault' accountId := by
  obtain ⟨core', ring⟩ := core.unlocks found
  have selects : ∀ epoch, entryKey vdk chain epoch = keyring vault.disk.keys epoch := by
    have session := core'.session ⟨vdk, chain, data.cache, deviceKey, data.requiresUpgrade⟩
      (by rw [found.result])
    intro epoch
    rw [← ring.keyring]
    exact session.selects epoch
  have hydrated := found.hydrated
  have sameRing := ring.keyring
  obtain rfl := found.result
  intro account lookup
  rcases settled account lookup with frozen | ⟨row, key, payload, sole, -⟩
  · exact .inl frozen
  have single := sole.single inv.revisions
  have member : account ∈ vault.disk.log.accounts := Table.mem_of_lookup lookup
  have sameId : account.accountId = accountId := Table.key_of_lookup lookup
  have decoded : decodeHeadRow vault.disk.log.revisions vault.vaultMeta.vaultId vdk chain
      account.accountId account.headRevisionId = .ok (.ofPayload payload) := by
    rw [decodeHeadRow, ← sole.head, ← sole.sameAccount,
      findRevision_of_mem inv.revisions sole.stored]
    exact decodeRow_sealedRow (sole.sealedRow.congr (selects _))
  refine .inr ⟨row, key, payload, sameRing ▸ sole, ?_⟩
  intro active session identity
  obtain rfl := Option.some.inj session
  constructor
  · intro cached
    obtain ⟨source, listed, sourceId, id, headSource, opened⟩ :=
      hydrateAll_source hydrated cached
    obtain rfl : source = account :=
      List.inj_on_of_nodup_map inv.accounts (List.mem_filter.mp listed).1 member
        (sourceId.trans sameId.symm)
    cases headSource with
    | stored =>
        rw [← sourceId, decoded] at opened
        cases payload with
        | live held =>
            obtain rfl := HeadDecodeOutcome.live.inj (Except.ok.inj opened)
            rfl
        | tombstone _ _ => cases opened
        | future _ => cases opened
    | canonical graph head forked built canonical => omega
  · rintro rfl
    have live : account ∈ vault.disk.log.accounts.filter fun account => !account.tombstoned := by
      rw [List.mem_filter]
      refine ⟨member, ?_⟩
      rw [sole.flag, sole.kind]
      rfl
    rw [← sameId]
    exact mem_hydrateAll hydrated live (hydrateAccount_live single decoded) rfl

end

/-! ## One step -/

section

variable {Projection : Type} {project : AccountIdentity → Projection} {hash : CanonicalHash}

/-- What a call can do. -/
inductive HeadEffect (project : AccountIdentity → Projection) (op : HeadOp)
    (world world' : IndexedVault Projection) : Prop where
  | rest : world'.vault.disk = world.vault.disk →
      (world'.vault.vaultMeta = world.vault.vaultMeta ∨
        world'.vault.vaultMeta = world.vault.disk.keys.vaultMeta) →
      (world'.vault.active = world.vault.active ∨ world'.vault.active = none) →
      world'.index = world.index → HeadEffect project op world world'
  | unlocked (input : UnlockInput) (vdk : VdkKey) (chain : VdkChain) (data : ActiveStateData)
      (deviceKey : DeviceKey) (keys : KeyTables) :
      Unlocks world.vault input world'.vault vdk chain data deviceKey keys →
      world'.index = indexOfCache project world'.vault → HeadEffect project op world world'
  | wrote (active : ActiveState) (row : RevisionRow) (payload : IdentityPayload)
      (nowMs : Int) :
      HeadWrite world.vault world'.vault active row payload →
      FreshDraw world.vault.disk.log row.revisionId →
      world'.index = indexSync project world.index row.accountId nowMs payload.identity? →
      HeadEffect project op world world'
  | ingested (target : AccountId) :
      LogOnly world.vault world'.vault →
      Ingested world.vault.disk.log target world'.vault.disk.log →
      world'.index = world.index → HeadEffect project op world world'
  | cleared (target : AccountId) (chosen : RevisionRow) :
      op.Unfreezes target → LogOnly world.vault world'.vault →
      Clears world.vault world'.vault target chosen → world'.index = world.index →
      HeadEffect project op world world'

theorem HeadEffect.of_headCall {α : Type} {op : HeadOp} {world : IndexedVault Projection}
    {accountId : AccountId} {draw : WriteDraw} {call : Call α}
    (effect : HeadCall world.vault accountId draw.revisionId call)
    (fresh : FreshDraw world.vault.disk.log draw.revisionId) :
    HeadEffect project op world (indexWrite project world accountId draw call) := by
  cases effect with
  | failed vault' error idle => exact .rest idle.disk (.inl idle.vaultMeta) idle.active rfl
  | wrote vault' value active row payload wrote sameAccount sameId =>
      subst sameAccount
      rw [← sameId] at fresh
      refine .wrote active row payload draw.nowMs wrote fresh ?_
      unfold indexWrite
      simp only
      rw [cachedIdentity_syncCache wrote.cached]

theorem headStep_effect (project : AccountIdentity → Projection) (hash : CanonicalHash)
    (world : IndexedVault Projection) (op : HeadOp)
    (fresh : op.Fresh world) :
    HeadEffect project op world (headStep project hash world op) := by
  cases op with
  | unlock input =>
      change HeadEffect project _ world (indexUnlock project world (unlock world.vault input))
      cases result : unlock world.vault input with
      | mk vault' outcome =>
          cases outcome with
          | error error =>
              obtain rfl := unlock_error result
              exact .rest rfl (.inl rfl) (.inl rfl) rfl
          | ok _ =>
              obtain ⟨vdk, chain, data, deviceKey, keys, found⟩ := unlock_eq_ok_iff.mp result
              exact .unlocked input vdk chain data deviceKey keys found rfl
  | lock => exact .rest rfl (.inl rfl) (.inr rfl) rfl
  | reopen placeholder sessionIdle => exact .rest rfl (.inr rfl) (.inr rfl) rfl
  | accountAdd validated accountId draw =>
      exact .of_headCall (accountAdd_headCall world.vault validated accountId draw) fresh
  | accountUpdate accountId patch draw =>
      exact .of_headCall (accountUpdate_headCall world.vault accountId patch draw) fresh
  | deleteAccount accountId draw =>
      exact .of_headCall (deleteAccount_headCall world.vault accountId draw) fresh
  | resolveFork accountId keep draw =>
      exact .of_headCall (resolveFork_headCall world.vault accountId keep draw) fresh
  | clearFrozen accountId chosen nowMs now =>
      have logOnly := clearFrozen_logOnly world.vault accountId chosen nowMs now
      rcases clearFrozen_cases world.vault accountId chosen nowMs now with same | ⟨row, clears⟩
      · refine .rest ?_ (.inl logOnly.vaultMeta) logOnly.active rfl
        exact logOnly.disk.trans (by rw [same])
      · exact .cleared accountId row rfl logOnly clears rfl
  | ingest event nowMs now =>
      exact .ingested event.content.accountId
        (ingestChainRevision_logOnly hash world.vault event nowMs now)
        (ingestChainRevision_ingested hash world.vault event nowMs now) rfl

/-- A call that writes at most the log keeps the rest of the invariant. -/
theorem WorldInv.logOnly {world world' : IndexedVault Projection}
    (inv : WorldInv project world) (logOnly : LogOnly world.vault world'.vault)
    (tables : TablesInv world'.vault.disk.log) (index : world'.index = world.index) :
    WorldInv project world' := by
  refine ⟨inv.keys.frame logOnly.vaultMeta logOnly.keys logOnly.active, tables, ?_⟩
  intro active session
  rw [index]
  rcases logOnly.active with same | dropped
  · exact inv.index active (same ▸ session)
  · rw [dropped] at session
    cases session

theorem WorldInv.step {world world' : IndexedVault Projection} {op : HeadOp}
    (inv : WorldInv project world) (effect : HeadEffect project op world world') :
    WorldInv project world' := by
  cases effect with
  | rest disk vaultMeta active index =>
      have sameMeta : world'.vault.vaultMeta = world.vault.vaultMeta := by
        rcases vaultMeta with same | reloaded
        · exact same
        · exact reloaded.trans inv.keys.metaSynced.symm
      refine inv.logOnly ⟨sameMeta, by rw [disk], active⟩ ?_ index
      rw [disk]
      exact inv.tables
  | unlocked input vdk chain data deviceKey keys found index =>
      refine ⟨(inv.keys.unlocks found).1, ?_, ?_⟩
      · rw [found.result]
        exact inv.tables
      · intro active session
        rw [index]
        exact .ofCache session
  | wrote active row payload nowMs wrote drawn index =>
      refine ⟨inv.keys.write wrote.toLocalWrite, inv.tables.write wrote drawn, ?_⟩
      intro opened session
      obtain rfl := Option.some.inj (wrote.cached.symm.trans session)
      rw [index]
      exact (inv.index active wrote.session).sync row.accountId nowMs payload.identity?
  | ingested target logOnly ingested index =>
      exact inv.logOnly logOnly (inv.tables.ingested ingested) index
  | cleared target chosen _ logOnly clears index =>
      exact inv.logOnly logOnly (inv.tables.cleared clears) index

theorem Settled.step {world world' : IndexedVault Projection} {op : HeadOp}
    {accountId : AccountId} (settled : Settled world.vault accountId)
    (inv : WorldInv project world) (effect : HeadEffect project op world world')
    (other : ¬ op.Unfreezes accountId) : Settled world'.vault accountId := by
  have frame : ∀ log log' : RevisionTables, log'.revisions = log.revisions →
      ∃ change more, KeptFor accountId log.revisions log'.revisions change more := by
    intro log log' same
    refine ⟨id, [], ?_, fun row _ _ => .refl row, fun _ _ => ⟨rfl, rfl, rfl⟩, by simp⟩
    rw [same, List.map_id, List.append_nil]
  cases effect with
  | rest disk vaultMeta active index =>
      have sameMeta : world'.vault.vaultMeta = world.vault.vaultMeta := by
        rcases vaultMeta with same | reloaded
        · exact same
        · exact reloaded.trans inv.keys.metaSynced.symm
      refine settled.logOnly ⟨sameMeta, by rw [disk], active⟩ (.inr ⟨by rw [disk], ?_⟩)
      exact frame _ _ (by rw [disk])
  | unlocked input vdk chain data deviceKey keys found index =>
      exact settled.unlocks inv.keys inv.tables found
  | wrote active row payload nowMs wrote drawn index =>
      exact settled.write inv.keys inv.tables wrote
  | ingested target logOnly ingested index =>
      exact settled.logOnly logOnly (ingested.view accountId)
  | cleared target chosen unfreezes logOnly clears index =>
      have different : accountId ≠ target := by
        rintro rfl
        exact other unfreezes
      exact settled.logOnly logOnly
        (.inr ⟨clears.others accountId different, frame _ _ clears.revisions⟩)

/-! ## Runs -/

/-- A new vault. -/
def IndexedVault.create (password : Password) (draw : CreateDraw) : IndexedVault Projection :=
  ⟨Store.create password draw, []⟩

theorem WorldInv.create (password : Password) (draw : CreateDraw) :
    WorldInv project (IndexedVault.create password draw) where
  keys := .create password draw
  tables := by
    refine ⟨List.nodup_nil, List.nodup_nil, ?_, ?_, ?_⟩
    · intro account member
      cases member
    · intro row stored
      cases stored
    · intro accountId account found
      cases found
  index := by
    intro active session
    cases session

end

/-! ## Concrete runs -/

namespace Sample

def heads : IndexedVault (List UInt8) → HeadOp → IndexedVault (List UInt8) :=
  headStep AccountIdentity.displayName hash

def headVault : IndexedVault (List UInt8) := .create ⟨[1]⟩ ⟨⟨7⟩, ⟨1⟩, ⟨2⟩, ⟨3⟩, 0⟩

/-- A foreign event on account 1 that forks it after revision 51. -/
def foreign : RevisionEvent := ⟨⟨⟨7⟩, ⟨1⟩, ⟨51⟩, ⟨99⟩, 2, .bytes [1]⟩, ⟨1, 1, 0⟩⟩

end Sample

end Pangolin
