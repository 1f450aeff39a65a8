import Pangolin.Store.Writes
import Mathlib.Data.List.Nodup

/-!
# Linear histories and their hydration

Without foreign revisions every account is a single line: each row is its account's
head or has a child.  Local edits keep it so, which leaves `resolve_fork` nothing to
resolve and lets unlock decode the stored heads alone.

A row sealed under the key of its epoch decodes in every session that selects that
key, to the payload it was sealed from.
-/

namespace Pangolin.Store

open Symbolic Crypto

/-! ## Sealed rows -/

/-- The payload a ciphertext was sealed from. -/
def Ciphertext.plaintext : Ciphertext → Option IdentityPayload
  | .sealedPayload box => some box.msg
  | .bytes _ => none

/-- What decoding reports for a payload of a known version. -/
def HeadDecodeOutcome.ofPayload : IdentityPayload → HeadDecodeOutcome
  | .live identity => .live identity
  | .tombstone _ _ => .tombstone
  | .future _ => .futureVersion

/-- The row was sealed here, under the key `ring` gives for its epoch. -/
structure SealedRow (ring : Nat → Option VdkKey) (vaultId : VaultId) (row : RevisionRow)
    (key : VdkKey) (payload : IdentityPayload) : Prop where
  selected : ring row.vdkEpoch = some key
  nonce : row.encNonce ≠ .placeholder
  encPayload : row.encPayload = sealPayload key row.encNonce (row.aad vaultId) payload
  payloadLocal : payload.Local
  version : row.schemaVersion ≤ revisionSchemaVersionMax

theorem SealedRow.congr {ring ring' : Nat → Option VdkKey} {vaultId : VaultId}
    {row : RevisionRow} {key : VdkKey} {payload : IdentityPayload}
    (sealedRow : SealedRow ring vaultId row key payload)
    (same : ring' row.vdkEpoch = ring row.vdkEpoch) :
    SealedRow ring' vaultId row key payload :=
  { sealedRow with selected := same.trans sealedRow.selected }

/-- The unlock decoder returns the sealed payload of such a row. -/
theorem decodeRow_sealedRow {vaultId : VaultId} {vdk : VdkKey} {chain : VdkChain}
    {row : RevisionRow} {key : VdkKey} {payload : IdentityPayload}
    (sealedRow : SealedRow (entryKey vdk chain) vaultId row key payload) :
    decodeRow vaultId vdk chain row = .ok (.ofPayload payload) := by
  have version : ¬ revisionSchemaVersionMax < row.schemaVersion :=
    Nat.not_lt.mpr sealedRow.version
  have payloadLocal := sealedRow.payloadLocal
  simp only [decodeRow, sealedRow.selected, sealedRow.nonce, if_false, sealedRow.encPayload,
    open?_sealPayload, version]
  cases payload with
  | live identity => rfl
  | tombstone accountId tombstonedAtMs => rfl
  | future payloadVersion => exact absurd payloadLocal id

/-! ## Linear logs -/

/-- Every row is its account's head or has an unrevoked child; every head is stored. -/
structure LinearLog (log : RevisionTables) : Prop where
  uniqueAccounts : (log.accounts.map AccountRow.accountId).Nodup
  uniqueRows : (log.revisions.map RevisionRow.revisionId).Nodup
  headStored : ∀ account ∈ log.accounts, ∃ row ∈ log.revisions,
    row.accountId = account.accountId ∧ row.revisionId = account.headRevisionId
  covered : ∀ row ∈ log.revisions, hasUnrevokedChild log.revisions row = true ∨
    ∃ account ∈ log.accounts,
      account.accountId = row.accountId ∧ account.headRevisionId = row.revisionId

theorem LinearLog.empty (dirty : List DirtyMarker) (merges : List PendingMergeRow) :
    LinearLog ⟨[], [], dirty, merges⟩ :=
  ⟨List.nodup_nil, List.nodup_nil, by simp, by simp⟩

/-- Only the stored head can be a head row. -/
theorem LinearLog.heads_le_one {log : RevisionTables} (linear : LinearLog log)
    (accountId : AccountId) : (accountHeadRows log.revisions accountId).length ≤ 1 := by
  have nodup : (accountHeadRows log.revisions accountId).Nodup :=
    linear.uniqueRows.of_map.filter _
  have same : ∀ first ∈ accountHeadRows log.revisions accountId,
      ∀ second ∈ accountHeadRows log.revisions accountId, first = second := by
    have headOf : ∀ row ∈ accountHeadRows log.revisions accountId, row ∈ log.revisions ∧
        ∃ account ∈ log.accounts,
          account.accountId = accountId ∧ account.headRevisionId = row.revisionId := by
      intro row member
      simp only [accountHeadRows, isHeadRow, List.mem_filter, Bool.and_eq_true,
        decide_eq_true_eq, Bool.not_eq_true'] at member
      obtain ⟨stored, rfl, -, childless⟩ := member
      rcases linear.covered row stored with child | head
      · rw [childless] at child
        cases child
      · exact ⟨stored, head⟩
    intro first firstMember second secondMember
    obtain ⟨firstStored, account, accountMember, sameId, head⟩ := headOf first firstMember
    obtain ⟨secondStored, other, otherMember, otherId, otherHead⟩ := headOf second secondMember
    obtain rfl : account = other :=
      List.inj_on_of_nodup_map linear.uniqueAccounts accountMember otherMember
        (sameId.trans otherId.symm)
    exact List.inj_on_of_nodup_map linear.uniqueRows firstStored secondStored
      (head.symm.trans otherHead)
  match rows : accountHeadRows log.revisions accountId with
  | [] => simp
  | [_] => simp
  | first :: second :: rest =>
      rw [rows] at nodup same
      have equal := same first List.mem_cons_self second
        (List.mem_cons_of_mem _ List.mem_cons_self)
      subst equal
      simp at nodup

theorem hasUnrevokedChild_append {revisions : List RevisionRow} {row : RevisionRow}
    (more : List RevisionRow) (child : hasUnrevokedChild revisions row = true) :
    hasUnrevokedChild (revisions ++ more) row = true := by
  simp only [hasUnrevokedChild, List.any_append, Bool.or_eq_true] at child ⊢
  exact .inl child

@[simp] theorem updateAccountRow_map_accountId {accounts : List AccountRow}
    {accountId : AccountId} {change : AccountRow → AccountRow}
    (sameId : ∀ old, (change old).accountId = old.accountId) :
    (updateAccountRow accounts accountId change).map AccountRow.accountId =
      accounts.map AccountRow.accountId := by
  rw [updateAccountRow, List.map_map]
  refine List.map_congr_left ?_
  intro account _
  simp only [Function.comp]
  split
  · exact sameId account
  · rfl

theorem nodup_append_fresh {rows : List RevisionRow} {row : RevisionRow}
    (unique : (rows.map RevisionRow.revisionId).Nodup)
    (fresh : ∀ old ∈ rows, old.revisionId ≠ row.revisionId) :
    ((rows ++ [row]).map RevisionRow.revisionId).Nodup := by
  rw [List.map_append, List.map_singleton]
  refine unique.append (List.nodup_singleton _) ?_
  intro id inOld inNew
  obtain ⟨old, member, rfl⟩ := List.mem_map.mp inOld
  exact fresh old member (List.mem_singleton.mp inNew)

/-- A local edit keeps the log linear. -/
theorem LinearLog.write {log log' : RevisionTables} {row : RevisionRow}
    (linear : LinearLog log) (fresh : ∀ old ∈ log.revisions, old.revisionId ≠ row.revisionId)
    (unrevoked : row.revoked = false) (wrote : LogWrite log row log') : LinearLog log' := by
  cases wrote with
  | added account _ newAccount sameId head accounts revisions merges =>
      refine ⟨?_, ?_, ?_, ?_⟩
      · rw [accounts, List.map_append, List.map_singleton]
        refine linear.uniqueAccounts.append (List.nodup_singleton _) ?_
        intro id inOld inNew
        obtain ⟨old, member, rfl⟩ := List.mem_map.mp inOld
        exact newAccount old member ((List.mem_singleton.mp inNew).trans sameId)
      · rw [revisions]
        exact nodup_append_fresh linear.uniqueRows fresh
      · intro candidate member
        rw [revisions]
        rcases List.mem_append.mp (accounts ▸ member) with old | new
        · obtain ⟨stored, storedMember, same, sameHead⟩ := linear.headStored candidate old
          exact ⟨stored, List.mem_append_left _ storedMember, same, sameHead⟩
        · obtain rfl := List.mem_singleton.mp new
          exact ⟨row, by simp, sameId.symm, head.symm⟩
      · intro candidate member
        rw [accounts, revisions]
        rcases List.mem_append.mp (revisions ▸ member) with old | new
        · rcases linear.covered candidate old with child | ⟨covering, coveringMember, covers⟩
          · exact .inl (hasUnrevokedChild_append _ child)
          · exact .inr ⟨covering, List.mem_append_left _ coveringMember, covers⟩
        · obtain rfl := List.mem_singleton.mp new
          exact .inr ⟨account, by simp, sameId, head⟩
  | extended account change found next sameId newHead accounts revisions merges =>
      refine ⟨?_, ?_, ?_, ?_⟩
      · rw [accounts, updateAccountRow_map_accountId sameId]
        exact linear.uniqueAccounts
      · rw [revisions]
        exact nodup_append_fresh linear.uniqueRows fresh
      · intro candidate member
        rw [revisions]
        obtain ⟨old, oldMember, rfl⟩ := List.mem_map.mp (accounts ▸ member)
        split
        · next isThis => exact ⟨row, by simp, by rw [sameId, isThis], (newHead old).symm⟩
        · obtain ⟨stored, storedMember, same, sameHead⟩ := linear.headStored old oldMember
          exact ⟨stored, List.mem_append_left _ storedMember, same, sameHead⟩
      · have stored : account ∈ log.accounts := Table.mem_of_lookup found
        have accountId : account.accountId = row.accountId := Table.key_of_lookup found
        intro candidate member
        rw [accounts, revisions]
        rcases List.mem_append.mp (revisions ▸ member) with old | new
        · rcases linear.covered candidate old with child | ⟨covering, coveringMember, covers⟩
          · exact .inl (hasUnrevokedChild_append _ child)
          · by_cases isThis : covering.accountId = row.accountId
            · -- The old head of the account becomes the parent of the new row.
              obtain rfl : covering = account :=
                List.inj_on_of_nodup_map linear.uniqueAccounts coveringMember stored
                  (isThis.trans accountId.symm)
              refine .inl ?_
              simp [hasUnrevokedChild, next, covers.2, ← covers.1, accountId, unrevoked]
            · refine .inr ⟨covering, List.mem_map.mpr ⟨covering, coveringMember, ?_⟩, covers⟩
              rw [if_neg isThis]
        · obtain rfl := List.mem_singleton.mp new
          refine .inr ⟨change account, List.mem_map.mpr ⟨account, stored, ?_⟩, ?_, newHead _⟩
          · rw [if_pos accountId]
          · rw [sameId, accountId]
  | resolved change forked head sameId newHead accounts revisions merges =>
      have single := linear.heads_le_one row.accountId
      omega

/-! ## Hydrating the stored heads -/

section

variable {revisions : List RevisionRow} {vaultId : VaultId} {vdk : VdkKey} {chain : VdkChain}

/-- An unforked account hydrates as soon as its stored head decodes. -/
theorem hydrateAccount_single {account : AccountRow} {outcome : HeadDecodeOutcome}
    (single : (accountHeadRows revisions account.accountId).length ≤ 1)
    (decoded : decodeHeadRow revisions vaultId vdk chain account.accountId
      account.headRevisionId = .ok outcome) :
    ∃ hydrated, hydrateAccount revisions vaultId vdk chain account = .ok hydrated := by
  have heads : headsToDecode revisions account =
      .ok (account.headRevisionId, [account.headRevisionId]) := by
    rw [headsToDecode, if_neg (by omega)]
  cases outcome <;>
    simp [hydrateAccount, heads, decodeLeaves, decoded, bind, Except.bind, pure, Except.pure]

theorem hydrateAll_ok {accounts : List AccountRow}
    (each : ∀ account ∈ accounts,
      ∃ hydrated, hydrateAccount revisions vaultId vdk chain account = .ok hydrated) :
    ∃ data, hydrateAll revisions vaultId vdk chain accounts = .ok data := by
  induction accounts with
  | nil => exact ⟨_, rfl⟩
  | cons account accounts ih =>
      obtain ⟨hydrated, first⟩ := each account List.mem_cons_self
      obtain ⟨data, rest⟩ := ih fun later member => each later (List.mem_cons_of_mem _ member)
      refine ⟨_, Fallible.bind_eq_ok_iff.mpr ⟨hydrated, first,
        Fallible.bind_eq_ok_iff.mpr ⟨data, rest, rfl⟩⟩⟩

end

/-- With unique ids, looking a stored row up finds it. -/
theorem findRevision_of_mem {revisions : List RevisionRow} {row : RevisionRow}
    (unique : (revisions.map RevisionRow.revisionId).Nodup) (member : row ∈ revisions) :
    findRevision revisions row.accountId row.revisionId = some row := by
  unfold findRevision
  cases found : revisions.find? fun other =>
      decide (other.accountId = row.accountId) && decide (other.revisionId = row.revisionId) with
  | none =>
      have absent := List.find?_eq_none.mp found row member
      simp at absent
  | some other =>
      obtain ⟨otherMember, -, sameId⟩ := findRevision_eq_some found
      rw [List.inj_on_of_nodup_map unique otherMember member sameId]

/-- A linear log whose rows are all sealed under the session's keys hydrates. -/
theorem buildActiveStateData_ok {log : RevisionTables} {vaultId : VaultId} {vdk : VdkKey}
    {chain : VdkChain} (linear : LinearLog log)
    (rows : ∀ row ∈ log.revisions,
      ∃ key payload, SealedRow (entryKey vdk chain) vaultId row key payload) :
    ∃ data, buildActiveStateData log vaultId vdk chain = .ok data := by
  refine hydrateAll_ok ?_
  intro account member
  obtain ⟨row, stored, sameId, head⟩ :=
    linear.headStored account (List.mem_filter.mp member).1
  obtain ⟨key, payload, sealedRow⟩ := rows row stored
  have decoded : decodeHeadRow log.revisions vaultId vdk chain account.accountId
      account.headRevisionId = .ok (.ofPayload payload) := by
    rw [decodeHeadRow, ← sameId, ← head, findRevision_of_mem linear.uniqueRows stored]
    exact decodeRow_sealedRow sealedRow
  exact hydrateAccount_single (linear.heads_le_one account.accountId) decoded

end Pangolin.Store
