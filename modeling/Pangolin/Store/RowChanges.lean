import Pangolin.Store.ForkedLog
import Pangolin.Store.HeadWrites

/-!
# What calls do to the rows

Seen from one account, most calls change bookkeeping columns only, and the rows that come
are of other accounts.  A local edit appends one row and may supersede others; an ingest
stamps an anchor or appends a foreign row and freezes its account.
-/

namespace Pangolin.Store

open Symbolic Crypto

/-! ## Rows seen from an account -/

/-- Two rows that differ in anchor, supersession and finality only. -/
structure SameLineage (old new : RevisionRow) : Prop extends SameContent old new where
  revoked : new.revoked = old.revoked
  isTombstone : new.isTombstone = old.isTombstone
  superseded : new.supersededBy = none → old.supersededBy = none

theorem SameLineage.refl (row : RevisionRow) : SameLineage row row :=
  ⟨.refl row, rfl, rfl, id⟩

/-- Seen from an account, a table changed in such columns only: rows that came are of other
accounts. -/
structure KeptFor (accountId : AccountId) (before after : List RevisionRow)
    (change : RevisionRow → RevisionRow) (more : List RevisionRow) : Prop where
  after : after = before.map change ++ more
  same : ∀ row ∈ before, row.accountId = accountId → SameLineage row (change row)
  parents : ∀ row ∈ before, (change row).parent = row.parent ∧
    (change row).accountId = row.accountId ∧ (change row).revoked = row.revoked
  foreign : ∀ row ∈ more, row.accountId ≠ accountId

namespace KeptFor

variable {accountId : AccountId} {before after more : List RevisionRow}
  {change : RevisionRow → RevisionRow}

theorem mem_after (kept : KeptFor accountId before after change more) {row : RevisionRow}
    (stored : row ∈ before) : change row ∈ after := by
  rw [kept.after]
  exact List.mem_append_left _ (List.mem_map_of_mem stored)

/-- Every row of the account was there before. -/
theorem mem_before (kept : KeptFor accountId before after change more) {row : RevisionRow}
    (stored : row ∈ after) (sameAccount : row.accountId = accountId) :
    ∃ old ∈ before, old.accountId = accountId ∧ row = change old := by
  rw [kept.after] at stored
  rcases List.mem_append.mp stored with mapped | new
  · obtain ⟨old, member, rfl⟩ := List.mem_map.mp mapped
    exact ⟨old, member, (kept.parents old member).2.1 ▸ sameAccount, rfl⟩
  · exact absurd sameAccount (kept.foreign row new)

/-- So are its children. -/
theorem hasUnrevokedChild (kept : KeptFor accountId before after change more)
    {row : RevisionRow} (stored : row ∈ before) (sameAccount : row.accountId = accountId) :
    hasUnrevokedChild after (change row) = hasUnrevokedChild before row := by
  have same := kept.same row stored sameAccount
  rw [Bool.eq_iff_iff]
  simp only [Store.hasUnrevokedChild, List.any_eq_true, Bool.and_eq_true, decide_eq_true_eq,
    Bool.not_eq_true']
  constructor
  · rintro ⟨child, childStored, ⟨isChild, childAccount⟩, unrevoked⟩
    rw [same.accountId, sameAccount] at childAccount
    obtain ⟨old, oldStored, oldAccount, rfl⟩ := kept.mem_before childStored childAccount
    obtain ⟨sameParent, -, sameRevoked⟩ := kept.parents old oldStored
    refine ⟨old, oldStored, ⟨?_, oldAccount.trans sameAccount.symm⟩, sameRevoked ▸ unrevoked⟩
    rw [← sameParent, isChild, same.revisionId]
  · rintro ⟨child, childStored, ⟨isChild, childAccount⟩, unrevoked⟩
    obtain ⟨sameParent, sameChild, sameRevoked⟩ := kept.parents child childStored
    refine ⟨change child, kept.mem_after childStored, ⟨?_, ?_⟩, sameRevoked ▸ unrevoked⟩
    · rw [sameParent, isChild, same.revisionId]
    · rw [sameChild, childAccount, same.accountId]

/-- And its heads. -/
theorem accountHeadRows (kept : KeptFor accountId before after change more)
    {row : RevisionRow} (head : row ∈ accountHeadRows after accountId) :
    ∃ old ∈ accountHeadRows before accountId, row = change old := by
  simp only [Store.accountHeadRows, isHeadRow, List.mem_filter, Bool.and_eq_true,
    decide_eq_true_eq, Bool.not_eq_true', Option.isNone_iff_eq_none] at head ⊢
  obtain ⟨stored, sameAccount, ⟨unsuperseded, unrevoked⟩, childless⟩ := head
  obtain ⟨old, oldStored, oldAccount, rfl⟩ := kept.mem_before stored sameAccount
  have same := kept.same old oldStored oldAccount
  rw [kept.hasUnrevokedChild oldStored oldAccount] at childless
  exact ⟨old, ⟨oldStored, oldAccount, ⟨same.superseded unsuperseded, same.revoked ▸ unrevoked⟩,
    childless⟩, rfl⟩

end KeptFor

theorem SameContent.sealedRow {ring : Nat → Option VdkKey} {vaultId : VaultId}
    {old new : RevisionRow} {key : VdkKey} {payload : IdentityPayload}
    (same : SameContent old new) (sealedRow : SealedRow ring vaultId old key payload) :
    SealedRow ring vaultId new key payload := by
  have aad : new.aad vaultId = old.aad vaultId := by
    rw [RevisionRow.aad, same.accountId, same.parent, same.schemaVersion]
    rfl
  refine ⟨?_, ?_, ?_, sealedRow.payloadLocal, ?_⟩
  · rw [same.vdkEpoch]
    exact sealedRow.selected
  · rw [same.encNonce]
    exact sealedRow.nonce
  · rw [same.encPayload, same.encNonce, aad]
    exact sealedRow.encPayload
  · rw [same.schemaVersion]
    exact sealedRow.version

theorem mem_accountHeadRows {revisions : List RevisionRow} {accountId : AccountId}
    {row : RevisionRow} :
    row ∈ accountHeadRows revisions accountId ↔ row ∈ revisions ∧ row.accountId = accountId ∧
      row.supersededBy = none ∧ row.revoked = false ∧ hasUnrevokedChild revisions row = false := by
  simp only [accountHeadRows, isHeadRow, List.mem_filter, Bool.and_eq_true, decide_eq_true_eq,
    Bool.not_eq_true', Option.isNone_iff_eq_none, and_assoc]

/-! ## What a local edit does to the rows -/

/-- The rows after a local edit: the old ones with their columns kept, and the new one. -/
structure RowsAfter (log log' : RevisionTables) (row : RevisionRow)
    (change : RevisionRow → RevisionRow) : Prop where
  revisions : log'.revisions = log.revisions.map change ++ [row]
  same : ∀ old ∈ log.revisions, SameLineage old (change old)
  others : ∀ old ∈ log.revisions, old.accountId ≠ row.accountId → change old = old

/-- A merge supersedes every head but the one it keeps. -/
theorem rowsAfter_of_merge {log log' : RevisionTables} {row : RevisionRow}
    (revisions : log'.revisions =
      supersedeLosers log.revisions row.accountId row.parent row.revisionId ++ [row]) :
    ∃ change, RowsAfter log log' row change ∧
      ∀ old ∈ accountHeadRows log.revisions row.accountId, old.revisionId ≠ row.parent →
        (change old).supersededBy ≠ none := by
  refine ⟨_, ⟨revisions, ?_, ?_⟩, ?_⟩
  · intro old stored
    split
    · exact ⟨⟨rfl, rfl, rfl, rfl, rfl, rfl, rfl⟩, rfl, rfl, fun absent => by cases absent⟩
    · exact .refl old
  · intro old stored different
    exact if_neg fun isLoser => different isLoser.1
  · intro old head notKept
    have sameAccount := (mem_accountHeadRows.mp head).2.1
    have loser : old.accountId = row.accountId ∧ old.revisionId ∈
        (accountHeadRows log.revisions row.accountId).map RevisionRow.revisionId ∧
        old.revisionId ≠ row.parent :=
      ⟨sameAccount, List.mem_map_of_mem head, notKept⟩
    rw [if_pos loser]
    simp

theorem LogWrite.rowsAfter {log log' : RevisionTables} {row : RevisionRow}
    (wrote : LogWrite log row log') : ∃ change, RowsAfter log log' row change := by
  cases wrote with
  | added account _ _ _ _ _ revisions _ =>
      refine ⟨id, ?_, fun old _ => .refl old, fun _ _ _ => rfl⟩
      rw [List.map_id, revisions]
  | extended account change _ _ _ _ _ revisions _ =>
      refine ⟨id, ?_, fun old _ => .refl old, fun _ _ _ => rfl⟩
      rw [List.map_id, revisions]
  | resolved _ _ _ _ _ _ revisions _ =>
      obtain ⟨change, rows, -⟩ := rowsAfter_of_merge revisions
      exact ⟨change, rows⟩

/-- Accounts stay unique. -/
theorem LogWrite.nodup_accounts {log log' : RevisionTables} {row : RevisionRow}
    (wrote : LogWrite log row log') (unique : (log.accounts.map AccountRow.accountId).Nodup) :
    (log'.accounts.map AccountRow.accountId).Nodup := by
  cases wrote with
  | added fresh _ newAccount sameId _ accounts _ _ =>
      rw [accounts, List.map_append, List.map_singleton]
      apply unique.append (List.nodup_singleton _)
      intro id inOld inNew
      obtain ⟨old, member, rfl⟩ := List.mem_map.mp inOld
      exact newAccount old member ((List.mem_singleton.mp inNew).trans sameId)
  | extended _ _ _ _ sameId _ accounts _ _ | resolved _ _ _ sameId _ accounts _ _ =>
      rw [accounts, updateAccountRow_map_accountId sameId]
      exact unique

/-- So do revisions. -/
theorem RowsAfter.nodup_revisions {log log' : RevisionTables} {row : RevisionRow}
    {change : RevisionRow → RevisionRow} (rows : RowsAfter log log' row change)
    (unique : (log.revisions.map RevisionRow.revisionId).Nodup)
    (fresh : ∀ old ∈ log.revisions, old.revisionId ≠ row.revisionId) :
    (log'.revisions.map RevisionRow.revisionId).Nodup := by
  rw [rows.revisions, List.map_append, List.map_map]
  have ids : log.revisions.map (RevisionRow.revisionId ∘ change) =
      log.revisions.map RevisionRow.revisionId := by
    apply List.map_congr_left
    intro old stored
    exact (rows.same old stored).revisionId
  rw [ids, ← List.map_append]
  exact nodup_append_fresh unique fresh

theorem RowsAfter.keptFor {log log' : RevisionTables} {row : RevisionRow}
    {change : RevisionRow → RevisionRow} (rows : RowsAfter log log' row change)
    {accountId : AccountId} (different : accountId ≠ row.accountId) :
    KeptFor accountId log.revisions log'.revisions change [row] where
  after := rows.revisions
  same := fun old stored _ => rows.same old stored
  parents := by
    intro old stored
    have same := rows.same old stored
    exact ⟨same.parent, same.accountId, same.revoked⟩
  foreign := by
    intro new member
    obtain rfl := List.mem_singleton.mp member
    exact different.symm

/-- An old row that is a head after the edit was one before, and not the new row's parent. -/
theorem RowsAfter.head_before {log log' : RevisionTables} {row old : RevisionRow}
    {change : RevisionRow → RevisionRow} (rows : RowsAfter log log' row change)
    (unrevoked : row.revoked = false) (stored : old ∈ log.revisions)
    (head : change old ∈ accountHeadRows log'.revisions row.accountId) :
    old ∈ accountHeadRows log.revisions row.accountId ∧ old.revisionId ≠ row.parent := by
  have same := rows.same old stored
  obtain ⟨-, sameAccount, unsuperseded, notRevoked, childless⟩ := mem_accountHeadRows.mp head
  rw [same.accountId] at sameAccount
  constructor
  · refine mem_accountHeadRows.mpr ⟨stored, sameAccount, same.superseded unsuperseded,
      same.revoked ▸ notRevoked, ?_⟩
    rw [Bool.eq_false_iff] at childless ⊢
    intro hasChild
    apply childless
    simp only [hasUnrevokedChild, List.any_eq_true, Bool.and_eq_true, decide_eq_true_eq,
      Bool.not_eq_true'] at hasChild ⊢
    obtain ⟨child, childStored, ⟨isChild, childAccount⟩, childUnrevoked⟩ := hasChild
    have sameChild := rows.same child childStored
    refine ⟨change child, ?_, ⟨?_, ?_⟩, ?_⟩
    · rw [rows.revisions]
      exact List.mem_append_left _ (List.mem_map_of_mem childStored)
    · rw [sameChild.parent, same.revisionId, isChild]
    · rw [sameChild.accountId, same.accountId, childAccount]
    · rw [sameChild.revoked, childUnrevoked]
  · intro isParent
    rw [Bool.eq_false_iff] at childless
    apply childless
    simp only [hasUnrevokedChild, List.any_eq_true, Bool.and_eq_true, decide_eq_true_eq,
      Bool.not_eq_true']
    refine ⟨row, ?_, ⟨?_, ?_⟩, unrevoked⟩
    · rw [rows.revisions]
      exact List.mem_append_right _ (List.mem_singleton.mpr rfl)
    · rw [same.revisionId, isParent]
    · rw [same.accountId, sameAccount]

/-! ## What an ingest does -/

/-- What an ingest can do to the log. -/
inductive Ingested (log : RevisionTables) (accountId : AccountId) (log' : RevisionTables) :
    Prop where
  /-- Nothing, or an anchor on a row. -/
  | kept (change : RevisionRow → RevisionRow) :
      (∀ row, SameLineage row (change row)) → log'.revisions = log.revisions.map change →
      log'.accounts = log.accounts → Ingested log accountId log'
  /-- A foreign row on a frozen account. -/
  | inserted (row : RevisionRow) (isTombstone : Bool) (nowMs : Int) :
      row.accountId = accountId → (∀ old ∈ log.revisions, old.revisionId ≠ row.revisionId) →
      log'.revisions = log.revisions ++ [row] →
      log'.accounts = freezeAccount log.accounts accountId row.revisionId isTombstone nowMs →
      Ingested log accountId log'

theorem ingestChainRevision_ingested (hash : CanonicalHash) (vault : Vault)
    (event : RevisionEvent) (nowMs : Int) (now : Nat) :
    Ingested vault.disk.log event.content.accountId
      (ingestChainRevision hash vault event nowMs now).1.disk.log := by
  unfold ingestChainRevision
  simp only [maybeExpireActiveSession_disk]
  split
  · exact .kept id .refl (by simp) (by simp)
  · next log outcome ingested =>
      rw [touchSession_disk, withLog_log]
      rcases ingestLog_cases ingested with ⟨rfl, -, -⟩ | ⟨fresh, -, -, -, stamped | inserted⟩
      · exact .kept id .refl (by simp) rfl
      · obtain ⟨twin, -, rfl, -⟩ := stamped
        refine .kept _ ?_ rfl rfl
        intro row
        split
        · exact ⟨⟨rfl, rfl, rfl, rfl, rfl, rfl, rfl⟩, rfl, rfl, id⟩
        · exact .refl row
      · obtain ⟨-, rfl, -⟩ := inserted
        exact .inserted _ _ nowMs rfl fresh rfl rfl

/-- The frozen account and the others after a foreign event. -/
theorem findAccount_freezeAccount (accounts : List AccountRow) (target accountId : AccountId)
    (revisionId : RevisionId) (isTombstone : Bool) (nowMs : Int) :
    (accountId = target → ∃ account,
      Table.lookup AccountRow.accountId (freezeAccount accounts target revisionId isTombstone
        nowMs) accountId = some account ∧ account.frozenPendingResolve = true) ∧
    (accountId ≠ target →
      Table.lookup AccountRow.accountId (freezeAccount accounts target revisionId isTombstone
        nowMs) accountId = Table.lookup AccountRow.accountId accounts accountId) := by
  unfold freezeAccount
  split
  · next known =>
      obtain ⟨account, member, sameId⟩ : ∃ account ∈ accounts, account.accountId = target := by
        simpa using known
      constructor
      · rintro rfl
        rw [findAccount_update, if_pos rfl]
        · cases found : Table.lookup AccountRow.accountId accounts accountId with
          | none => exact absurd sameId (Table.lookup_eq_none_iff.mp found account member)
          | some account => exact ⟨_, rfl, rfl⟩
        · exact fun _ => rfl
      · intro different
        rw [findAccount_update, if_neg different]
        exact fun _ => rfl
  · next unknown =>
      have fresh : ∀ old ∈ accounts, old.accountId ≠ target := by simpa using unknown
      constructor
      · rintro rfl
        rw [Table.lookup_append_singleton _ _ _ fresh, if_pos rfl]
        exact ⟨_, rfl, rfl⟩
      · intro different
        rw [Table.lookup_append_singleton _ _ _ fresh, if_neg different]

/-- Seen from an account, an ingest froze it or changed bookkeeping columns only. -/
theorem Ingested.view {log log' : RevisionTables} {target : AccountId}
    (ingested : Ingested log target log') (accountId : AccountId) :
    (∃ account, findAccount log' accountId = some account ∧
        account.frozenPendingResolve = true) ∨
      (findAccount log' accountId = findAccount log accountId ∧
        ∃ change more, KeptFor accountId log.revisions log'.revisions change more) := by
  cases ingested with
  | kept change same revisions accounts =>
      refine .inr ⟨by rw [findAccount, findAccount, accounts], change, [], ?_, ?_, ?_, by simp⟩
      · rw [revisions, List.append_nil]
      · exact fun row _ _ => same row
      · exact fun row _ => ⟨(same row).parent, (same row).accountId, (same row).revoked⟩
  | inserted row isTombstone nowMs sameAccount fresh revisions accounts =>
      have lookup := findAccount_freezeAccount log.accounts target accountId row.revisionId
        isTombstone nowMs
      rw [← accounts] at lookup
      by_cases same : accountId = target
      · exact .inl (lookup.1 same)
      · refine .inr ⟨lookup.2 same, id, [row], ?_, ?_, ?_, ?_⟩
        · rw [revisions, List.map_id]
        · exact fun old _ _ => .refl old
        · exact fun _ _ => ⟨rfl, rfl, rfl⟩
        · intro new member
          obtain rfl := List.mem_singleton.mp member
          rw [sameAccount]
          exact fun equal => same equal.symm

theorem nodup_freezeAccount {accounts : List AccountRow}
    (unique : (accounts.map AccountRow.accountId).Nodup) (target : AccountId)
    (revisionId : RevisionId) (isTombstone : Bool) (nowMs : Int) :
    ((freezeAccount accounts target revisionId isTombstone nowMs).map
      AccountRow.accountId).Nodup := by
  unfold freezeAccount
  split
  · rw [updateAccountRow_map_accountId]
    · exact unique
    · exact fun _ => rfl
  · next unknown =>
      rw [List.map_append, List.map_singleton]
      refine unique.append (List.nodup_singleton _) ?_
      intro id inOld inNew
      obtain ⟨old, member, rfl⟩ := List.mem_map.mp inOld
      exact unknown (List.any_eq_true.mpr ⟨old, member, by simpa using inNew⟩)

end Pangolin.Store
