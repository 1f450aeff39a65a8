import Pangolin.System
import Pangolin.Store.Cached
import Pangolin.Store.Revocation

/-!
# Reads after a re-evaluation

The head queries skip revoked rows, so what a forked account shows is never revoked.  An
account that is not forked is read at its stored head pointer, which the re-evaluation
leaves where it is, and a reveal reads the session's cache, which it does not touch
either.  As long as the pointer names an unrevoked row, the calls that read an account, in
the same session or after the next unlock, stand on unrevoked rows.
-/

namespace Pangolin

open Crypto Store

/-- Account and revision ids are primary keys. -/
structure PrimaryKeys (log : RevisionTables) : Prop where
  accounts : (log.accounts.map AccountRow.accountId).Nodup
  revisions : (log.revisions.map RevisionRow.revisionId).Nodup

/-- An unrevoked row of the account. -/
structure Unrevoked (log : RevisionTables) (accountId : AccountId) (row : RevisionRow) :
    Prop where
  stored : row ∈ log.revisions
  account : row.accountId = accountId
  unrevoked : row.revoked = false

/-- The account's stored head pointer names an unrevoked row. -/
def HeadUnrevoked (log : RevisionTables) (accountId : AccountId) : Prop :=
  ∃ account ∈ log.accounts, account.accountId = accountId ∧
    ∃ row ∈ log.revisions, row.accountId = accountId ∧ row.revoked = false ∧
      row.revisionId = account.headRevisionId

theorem HeadUnrevoked.row {log : RevisionTables} {accountId : AccountId}
    (headUnrevoked : HeadUnrevoked log accountId) (keys : PrimaryKeys log)
    {account : AccountRow} (member : account ∈ log.accounts)
    (sameId : account.accountId = accountId) :
    ∃ row, Unrevoked log accountId row ∧ row.revisionId = account.headRevisionId := by
  obtain ⟨other, otherMember, otherId, row, stored, sameAccount, unrevoked, isHead⟩ :=
    headUnrevoked
  obtain rfl : account = other :=
    List.inj_on_of_nodup_map keys.accounts member otherMember (sameId.trans otherId.symm)
  exact ⟨row, ⟨stored, sameAccount, unrevoked⟩, isHead⟩

/-- The account has several heads. -/
def Forked (log : RevisionTables) (accountId : AccountId) : Prop :=
  1 < (accountHeadRows log.revisions accountId).length

/-! ## What the calls serve -/

/-- `account_get` and `account_search` show the account from unrevoked rows. -/
structure ShowsUnrevoked (vault : Vault) (accountId : AccountId) : Prop where
  get : ∀ {now : Nat} {vault' : Vault} {head : RevisionId} {identity : AccountIdentity},
    accountGet vault accountId now = (vault', .ok (head, identity)) →
    ∃ row, Unrevoked vault.disk.log accountId row ∧ row.revisionId = head ∧ row.Seals identity
  search : ∀ {candidates : List AccountId} {now : Nat} {vault' : Vault}
    {hits : List (AccountId × RevisionId × AccountIdentity)},
    accountSearch vault candidates now = (vault', .ok hits) →
    ∀ head identity, (accountId, head, identity) ∈ hits →
    ∃ row, Unrevoked vault.disk.log accountId row ∧ row.revisionId = head ∧ row.Seals identity

/-- `account_update` and the export work on unrevoked rows. -/
structure BuildsUnrevoked (vault : Vault) (accountId : AccountId) : Prop where
  update : ∀ {patch : AccountIdentity → Except StoreError AccountIdentity} {draw : WriteDraw}
    {vault' : Vault} {id : RevisionId},
    accountUpdate vault accountId patch draw = (vault', .ok id) →
    ∃ row parent, row ∈ vault'.disk.log.revisions ∧ row.revisionId = id ∧
      row.parent = parent.revisionId ∧ Unrevoked vault.disk.log accountId parent
  exports : ∀ {selection : AccountSelection} {presence : PresenceCheck} {input : ExportInput}
    {now : Nat} {vault' : Vault} {snapshot : ArchiveSnapshot},
    exportSnapshot vault selection presence input now = (vault', .ok snapshot) →
    ∀ archived ∈ snapshot.accounts, archived.accountId = accountId →
    ∃ row identity account, Unrevoked vault.disk.log accountId row ∧ row.Seals identity ∧
      account ∈ vault.disk.log.accounts ∧ row.revisionId = account.headRevisionId ∧
      archived = archiveAccount account identity

/-- So does a reveal, which reads the session's cache. -/
def RevealsUnrevoked (vault : Vault) (accountId : AccountId) : Prop :=
  ∀ {presence : PresenceCheck} {extract : AccountIdentity → List UInt8} {now : Nat}
    {vault' : Vault} {field : List UInt8},
    revealSecretField vault accountId presence extract now = (vault', .ok field) →
    ∃ row identity, Unrevoked vault.disk.log accountId row ∧ row.Seals identity ∧
      field = extract identity

/-- The session caches the account as its stored head seals it. -/
def CachedAtHead (vault : Vault) (accountId : AccountId) : Prop :=
  ∀ active, vault.active = some active → ∀ identity, (accountId, identity) ∈ active.cache →
    ∀ account ∈ vault.disk.log.accounts, account.accountId = accountId →
    ∀ row ∈ vault.disk.log.revisions, row.revisionId = account.headRevisionId →
      row.Seals identity

/-! ## Reading at a head -/

section

variable {log : RevisionTables} {accountId : AccountId}

/-- The canonical head of a fork is an unrevoked row. -/
theorem unrevoked_of_canonicalHead {graph : RevisionGraph} {head : RevisionId}
    (built : RevisionGraph.build (readRevisionRows log.revisions accountId) = .ok graph)
    (canonical : graph.canonicalHead = some head) :
    ∃ row, Unrevoked log accountId row ∧ row.revisionId = head := by
  obtain ⟨row, listed, isHead⟩ :=
    RevisionGraph.mem_of_build built (RevisionGraph.canonicalHead_mem canonical)
  unfold readRevisionRows at listed
  rw [List.mem_insertionSort, List.mem_filter] at listed
  obtain ⟨stored, sameAccount, unrevoked⟩ : row ∈ log.revisions ∧ row.accountId = accountId ∧
      row.revoked = false := by
    simpa using listed
  exact ⟨row, ⟨stored, sameAccount, unrevoked⟩, isHead⟩

/-- The head the read calls choose is unrevoked. -/
theorem unrevoked_of_readableHead (keys : PrimaryKeys log) {account : AccountRow}
    {head : RevisionId}
    (headUnrevoked : HeadUnrevoked log account.accountId ∨ Forked log account.accountId)
    (member : account ∈ log.accounts) (readable : readableHead log account = .ok head) :
    ∃ row, Unrevoked log account.accountId row ∧ row.revisionId = head := by
  obtain ⟨heads, listed, rest⟩ := Fallible.bind_eq_ok_iff.mp readable
  split at rest
  · obtain ⟨graph, built, rest⟩ := Fallible.bind_eq_ok_iff.mp rest
    split at rest
    · next canonical =>
        obtain rfl := Except.ok.inj rest
        exact unrevoked_of_canonicalHead built canonical
    · cases rest
  · next single =>
      obtain rfl := Except.ok.inj rest
      rcases headUnrevoked with atHead | forked
      · exact atHead.row keys member rfl
      · have sameLength := (accountHeads_eq_ok listed).length_eq
        rw [List.length_map] at sameLength
        unfold Forked at forked
        omega

/-- Looking an id up that an unrevoked row carries finds that row. -/
theorem unrevoked_of_findRevision (keys : PrimaryKeys log) {row found : RevisionRow}
    (unrevoked : Unrevoked log accountId row)
    (lookup : findRevision log.revisions accountId row.revisionId = some found) :
    found = row := by
  have stored := findRevision_of_mem keys.revisions unrevoked.stored
  rw [unrevoked.account, lookup] at stored
  exact Option.some.inj stored

/-- An identity read at an unrevoked row is the one it seals. -/
theorem seals_of_readIdentityAt {vault : Vault} (keys : PrimaryKeys vault.disk.log)
    {active : ActiveState} {row : RevisionRow} {identity : AccountIdentity}
    (unrevoked : Unrevoked vault.disk.log accountId row)
    (read : readIdentityAt vault active accountId row.revisionId = .ok identity) :
    row.Seals identity := by
  unfold readIdentityAt at read
  split at read
  · cases read
  · next found lookup =>
      rw [unrevoked_of_findRevision keys unrevoked lookup] at read
      exact seals_of_readRow read

end

/-! ## The calls -/

section

variable {vault : Vault} {accountId : AccountId} (keys : PrimaryKeys vault.disk.log)

section

variable (headUnrevoked : HeadUnrevoked vault.disk.log accountId ∨
  Forked vault.disk.log accountId)
include keys headUnrevoked

theorem get_unrevoked {now : Nat} {vault' : Vault} {head : RevisionId}
    {identity : AccountIdentity}
    (got : accountGet vault accountId now = (vault', .ok (head, identity))) :
    ∃ row, Unrevoked vault.disk.log accountId row ∧ row.revisionId = head ∧
      row.Seals identity := by
  obtain ⟨active, after, -, done, -⟩ := withFreshSession_eq_ok got
  obtain ⟨-, -, rest⟩ := Fallible.bind_eq_ok_iff.mp done
  obtain ⟨account, live, rest⟩ := Fallible.bind_eq_ok_iff.mp rest
  obtain ⟨chosen, readable, rest⟩ := Fallible.bind_eq_ok_iff.mp rest
  obtain ⟨opened, read, equal⟩ := Fallible.bind_eq_ok_iff.mp rest
  obtain ⟨-, equal⟩ := Prod.mk.inj (Except.ok.inj equal)
  obtain ⟨rfl, rfl⟩ := Prod.mk.inj equal
  have found := (liveAccount_eq_ok live).1
  obtain rfl := Table.key_of_lookup found
  obtain ⟨row, unrevoked, rfl⟩ :=
    unrevoked_of_readableHead keys headUnrevoked (Table.mem_of_lookup found) readable
  exact ⟨row, unrevoked, rfl, seals_of_readIdentityAt keys unrevoked read⟩

theorem searchHits_unrevoked {active : ActiveState} {candidates : List AccountId}
    {hits : List (AccountId × RevisionId × AccountIdentity)}
    (searched : searchHits vault active candidates = .ok hits) {head : RevisionId}
    {identity : AccountIdentity} (hit : (accountId, head, identity) ∈ hits) :
    ∃ row, Unrevoked vault.disk.log accountId row ∧ row.revisionId = head ∧
      row.Seals identity := by
  induction candidates generalizing hits with
  | nil =>
      obtain rfl := Except.ok.inj searched
      cases hit
  | cons candidate candidates ih =>
      unfold searchHits at searched
      split at searched
      · exact ih searched hit
      · next account found =>
          split at searched
          · exact ih searched hit
          · obtain ⟨chosen, readable, rest⟩ := Fallible.bind_eq_ok_iff.mp searched
            obtain ⟨opened, read, rest⟩ := Fallible.bind_eq_ok_iff.mp rest
            obtain ⟨later, others, equal⟩ := Fallible.bind_eq_ok_iff.mp rest
            obtain rfl := Except.ok.inj equal
            rcases List.mem_cons.mp hit with here | there
            · obtain ⟨rfl, rfl, rfl⟩ : accountId = candidate ∧ head = chosen ∧
                  identity = opened := by
                simpa using here
              obtain rfl := Table.key_of_lookup found
              obtain ⟨row, unrevoked, rfl⟩ :=
                unrevoked_of_readableHead keys headUnrevoked (Table.mem_of_lookup found) readable
              exact ⟨row, unrevoked, rfl, seals_of_readIdentityAt keys unrevoked read⟩
            · exact ih others there

/-- What a session shows of an account whose stored head is unrevoked, or of a fork, is
unrevoked. -/
theorem showsUnrevoked : ShowsUnrevoked vault accountId where
  get := get_unrevoked keys headUnrevoked
  search := by
    intro candidates now vault' hits searched head identity hit
    obtain ⟨active, after, -, done, -⟩ := withFreshSession_eq_ok searched
    obtain ⟨found, collected, equal⟩ := Fallible.bind_eq_ok_iff.mp done
    obtain ⟨-, rfl⟩ := Prod.mk.inj (Except.ok.inj equal)
    exact searchHits_unrevoked keys headUnrevoked collected hit

end

section

variable (headUnrevoked : HeadUnrevoked vault.disk.log accountId)
include keys headUnrevoked

theorem update_unrevoked {patch : AccountIdentity → Except StoreError AccountIdentity}
    {draw : WriteDraw} {vault' : Vault} {id : RevisionId}
    (updated : accountUpdate vault accountId patch draw = (vault', .ok id)) :
    ∃ row parent, row ∈ vault'.disk.log.revisions ∧ row.revisionId = id ∧
      row.parent = parent.revisionId ∧ Unrevoked vault.disk.log accountId parent := by
  obtain ⟨active, after, -, done, rfl⟩ := withFreshSession_eq_ok updated
  obtain ⟨-, -, rest⟩ := Fallible.bind_eq_ok_iff.mp done
  obtain ⟨account, live, rest⟩ := Fallible.bind_eq_ok_iff.mp rest
  obtain ⟨current, -, rest⟩ := Fallible.bind_eq_ok_iff.mp rest
  obtain ⟨identity, -, rest⟩ := Fallible.bind_eq_ok_iff.mp rest
  obtain ⟨log, appended, equal⟩ := Fallible.bind_eq_ok_iff.mp rest
  obtain ⟨rfl, rfl⟩ := Prod.mk.inj (Except.ok.inj equal)
  have found := (liveAccount_eq_ok live).1
  obtain ⟨parent, unrevoked, isHead⟩ :=
    headUnrevoked.row keys (Table.mem_of_lookup found) (Table.key_of_lookup found)
  obtain ⟨inserted, stored, equal⟩ := Fallible.bind_eq_ok_iff.mp appended
  obtain ⟨-, revisions, -⟩ := insertRevision_eq_ok stored
  obtain rfl := Except.ok.inj equal
  refine ⟨localRow vault active accountId account.headRevisionId
    vault.vaultMeta.wrapContext.schemaVersion (.live identity) false draw, parent, ?_, rfl,
    isHead.symm, unrevoked⟩
  rw [touchSession_disk]
  change _ ∈ inserted.revisions
  rw [revisions]
  exact List.mem_append_right _ (List.mem_singleton.mpr rfl)

theorem gatherAccounts_unrevoked {active : ActiveState} {accounts : List AccountRow}
    {archive : List ArchivedAccount}
    (listed : ∀ account ∈ accounts, account ∈ vault.disk.log.accounts)
    (gathered : gatherAccounts vault active accounts = .ok archive) {archived : ArchivedAccount}
    (member : archived ∈ archive) (sameId : archived.accountId = accountId) :
    ∃ row identity account, Unrevoked vault.disk.log accountId row ∧ row.Seals identity ∧
      account ∈ vault.disk.log.accounts ∧ row.revisionId = account.headRevisionId ∧
      archived = archiveAccount account identity := by
  induction accounts generalizing archive with
  | nil =>
      obtain rfl := Except.ok.inj gathered
      cases member
  | cons account accounts ih =>
      have others : ∀ other ∈ accounts, other ∈ vault.disk.log.accounts :=
        fun other later => listed other (List.mem_cons_of_mem _ later)
      unfold gatherAccounts at gathered
      split at gathered
      · exact ih others gathered member
      · split at gathered
        · exact ih others gathered member
        · cases gathered
        · next identity read =>
            obtain ⟨later, rest, equal⟩ := Fallible.bind_eq_ok_iff.mp gathered
            obtain rfl := Except.ok.inj equal
            rcases List.mem_cons.mp member with rfl | there
            · obtain rfl : account.accountId = accountId := sameId
              obtain ⟨found, live, opened⟩ := Fallible.bind_eq_ok_iff.mp read
              have lookup := (liveAccount_eq_ok live).1
              obtain rfl : found = account :=
                List.inj_on_of_nodup_map keys.accounts (Table.mem_of_lookup lookup)
                  (listed account List.mem_cons_self) (Table.key_of_lookup lookup)
              obtain ⟨row, unrevoked, isHead⟩ :=
                headUnrevoked.row keys (listed found List.mem_cons_self) rfl
              rw [← isHead] at opened
              exact ⟨row, identity, found, unrevoked,
                seals_of_readIdentityAt keys unrevoked opened,
                listed found List.mem_cons_self, isHead, rfl⟩
            · exact ih others rest there

theorem export_unrevoked {selection : AccountSelection} {presence : PresenceCheck}
    {input : ExportInput} {now : Nat} {vault' : Vault} {snapshot : ArchiveSnapshot}
    (exported : exportSnapshot vault selection presence input now = (vault', .ok snapshot))
    {archived : ArchivedAccount} (member : archived ∈ snapshot.accounts)
    (sameId : archived.accountId = accountId) :
    ∃ row identity account, Unrevoked vault.disk.log accountId row ∧ row.Seals identity ∧
      account ∈ vault.disk.log.accounts ∧ row.revisionId = account.headRevisionId ∧
      archived = archiveAccount account identity := by
  obtain ⟨active, after, -, done, -⟩ := withFreshSession_eq_ok exported
  obtain ⟨-, -, rest⟩ := Fallible.bind_eq_ok_iff.mp done
  obtain ⟨gathered, collected, equal⟩ := Fallible.bind_eq_ok_iff.mp rest
  obtain ⟨-, rfl⟩ := Prod.mk.inj (Except.ok.inj equal)
  obtain ⟨archive, accounts, equal⟩ := Fallible.bind_eq_ok_iff.mp collected
  obtain rfl := Except.ok.inj equal
  refine gatherAccounts_unrevoked keys headUnrevoked ?_ accounts member sameId
  intro account visited
  unfold exportedRows at visited
  rw [List.mem_filter, List.mem_insertionSort, List.mem_filter] at visited
  exact visited.1.1

/-- What a session writes and exports of such an account stands on unrevoked rows. -/
theorem buildsUnrevoked : BuildsUnrevoked vault accountId where
  update := update_unrevoked keys headUnrevoked
  exports := export_unrevoked keys headUnrevoked

end

end

/-! ## Reveals -/

/-- A reveal returns a field of the cached identity. -/
theorem reveal_cached {vault vault' : Vault} {accountId : AccountId} {presence : PresenceCheck}
    {extract : AccountIdentity → List UInt8} {now : Nat} {field : List UInt8}
    (revealed : revealSecretField vault accountId presence extract now = (vault', .ok field)) :
    ∃ active identity, vault.active = some active ∧ (accountId, identity) ∈ active.cache ∧
      field = extract identity := by
  obtain ⟨active, after, session, done, -⟩ := withFreshSession_eq_ok revealed
  obtain ⟨-, -, rest⟩ := Fallible.bind_eq_ok_iff.mp done
  obtain ⟨-, -, rest⟩ := Fallible.bind_eq_ok_iff.mp rest
  split at rest
  · cases rest
  · next id identity found =>
      obtain ⟨-, rfl⟩ := Prod.mk.inj (Except.ok.inj rest)
      have sameId : id = accountId := by simpa using List.find?_some found
      exact ⟨active, identity, session, sameId ▸ List.mem_of_find?_eq_some found, rfl⟩

/-- What the cache holds is sealed in an unrevoked row. -/
theorem revealsUnrevoked {vault : Vault} {accountId : AccountId}
    (cached : ∀ active, vault.active = some active → ∀ identity,
      (accountId, identity) ∈ active.cache →
      ∃ row, Unrevoked vault.disk.log accountId row ∧ row.Seals identity) :
    RevealsUnrevoked vault accountId := by
  intro presence extract now vault' field revealed
  obtain ⟨active, identity, session, held, rfl⟩ := reveal_cached revealed
  obtain ⟨row, unrevoked, sealsIt⟩ := cached active session identity held
  exact ⟨row, identity, unrevoked, sealsIt, rfl⟩

/-- The session after an unlock serves the account from unrevoked rows. -/
theorem unlock_revealsUnrevoked {vault vault' : Vault} {input : UnlockInput}
    {accountId : AccountId} (keys : PrimaryKeys vault.disk.log)
    (headUnrevoked : HeadUnrevoked vault.disk.log accountId)
    (unlocked : unlock vault input = (vault', .ok ())) : RevealsUnrevoked vault' accountId := by
  obtain ⟨vdk, chain, data, deviceKey, tables, found⟩ := unlock_eq_ok_iff.mp unlocked
  obtain rfl := found.result
  apply revealsUnrevoked
  intro active session identity held
  obtain rfl := Option.some.inj session
  obtain ⟨account, member, rfl, id, source, decoded⟩ := hydrateAll_source found.hydrated held
  have listed := (List.mem_filter.mp member).1
  have atHead : ∃ row, Unrevoked vault.disk.log account.accountId row ∧ row.revisionId = id := by
    cases source with
    | stored => exact headUnrevoked.row keys listed rfl
    | canonical graph head forked built canonical =>
        exact unrevoked_of_canonicalHead built canonical
  obtain ⟨row, unrevoked, rfl⟩ := atHead
  refine ⟨row, unrevoked, ?_⟩
  unfold decodeHeadRow at decoded
  split at decoded
  · cases decoded
  · next stored lookup =>
      rw [unrevoked_of_findRevision keys unrevoked lookup] at decoded
      exact seals_of_decodeRow decoded

/-! ## The re-evaluation -/

/-- The vault after `reevaluate_revocation_against_set`. -/
def reevaluated (vault : Vault) (set : List EvmAddress) : Vault :=
  (reevaluateRevocationAgainstSet vault set).1

theorem reevaluated_keys {vault : Vault} (keys : PrimaryKeys vault.disk.log)
    (set : List EvmAddress) : PrimaryKeys (reevaluated vault set).disk.log := by
  refine ⟨keys.accounts, ?_⟩
  change ((vault.disk.log.revisions.map _).map _).Nodup
  rw [List.map_map]
  have same : RevisionRow.revisionId ∘ reevaluateRow set = RevisionRow.revisionId := by
    funext row
    exact reevaluateRow_revisionId set row
  rw [same]
  exact keys.revisions

/-- A reveal of an account the session caches at its head. -/
theorem reevaluated_revealsUnrevoked {vault : Vault} {set : List EvmAddress}
    {accountId : AccountId}
    (headUnrevoked : HeadUnrevoked (reevaluated vault set).disk.log accountId)
    (atHead : CachedAtHead vault accountId) :
    RevealsUnrevoked (reevaluated vault set) accountId := by
  apply revealsUnrevoked
  intro active session identity held
  obtain ⟨account, member, sameId, row, stored, sameAccount, unrevoked, isHead⟩ := headUnrevoked
  obtain ⟨old, oldStored, rfl⟩ := List.mem_map.mp stored
  rw [reevaluateRow_revisionId] at isHead
  have sealsIt := atHead active session identity held account member sameId old oldStored isHead
  refine ⟨_, ⟨stored, sameAccount, unrevoked⟩, ?_⟩
  unfold RevisionRow.Seals
  rw [reevaluateRow_encPayload]
  exact sealsIt

/-- A sequence of re-evaluations leaves the vault its last one alone leaves. -/
theorem foldl_reevaluated (sets : List (List EvmAddress)) (last : List EvmAddress)
    (vault : Vault) :
    (sets ++ [last]).foldl reevaluated vault = reevaluated vault last := by
  induction sets generalizing vault with
  | nil => rfl
  | cons set sets ih =>
      rw [List.cons_append, List.foldl_cons, ih]
      unfold reevaluated reevaluateRevocationAgainstSet withLog
      simp only [reevaluateLog_reevaluateLog]

/-- After a re-evaluation, in the same session and after locking and unlocking again: an
account whose stored head is unrevoked is shown, edited, exported and revealed from
unrevoked rows only, a forked one is shown from them; an anchored row is revoked exactly
when it has no recovered signer in the set, other rows keep their flag, and of a sequence
of sets only the last counts. -/
theorem revoked_rows_not_served (vault : Vault) (earlier : List (List EvmAddress))
    (set : List EvmAddress) (keys : PrimaryKeys vault.disk.log) :
    (∀ accountId, HeadUnrevoked (reevaluated vault set).disk.log accountId ∨
        Forked (reevaluated vault set).disk.log accountId →
      ShowsUnrevoked (reevaluated vault set) accountId ∧
        ∀ input vault', unlock (lock (reevaluated vault set)) input = (vault', .ok ()) →
          ShowsUnrevoked vault' accountId) ∧
    (∀ accountId, HeadUnrevoked (reevaluated vault set).disk.log accountId →
      BuildsUnrevoked (reevaluated vault set) accountId ∧
        (CachedAtHead vault accountId → RevealsUnrevoked (reevaluated vault set) accountId) ∧
        ∀ input vault', unlock (lock (reevaluated vault set)) input = (vault', .ok ()) →
          BuildsUnrevoked vault' accountId ∧ RevealsUnrevoked vault' accountId) ∧
    (∀ row ∈ (reevaluated vault set).disk.log.revisions, row.chainAnchor.isSome →
      (row.revoked = true ↔ ∀ signer, row.recoveredSigner = some signer → signer ∉ set)) ∧
    (∀ row ∈ vault.disk.log.revisions, row.chainAnchor = none →
      row ∈ (reevaluated vault set).disk.log.revisions) ∧
    (earlier ++ [set]).foldl reevaluated vault = reevaluated vault set := by
  have after := reevaluated_keys keys set
  -- An unlock leaves the log as it is.
  have sameLog : ∀ input vault', unlock (lock (reevaluated vault set)) input = (vault', .ok ()) →
      vault'.disk.log = (reevaluated vault set).disk.log := by
    intro input vault' unlocked
    obtain ⟨tables, disk⟩ := unlock_disk (lock (reevaluated vault set)) input
    rw [unlocked] at disk
    have logs := congrArg Disk.log disk
    exact logs
  refine ⟨?_, ?_, ?_, ?_, foldl_reevaluated earlier set vault⟩
  · intro accountId shown
    refine ⟨showsUnrevoked after shown, ?_⟩
    intro input vault' unlocked
    rw [← sameLog input vault' unlocked] at after shown
    exact showsUnrevoked after shown
  · intro accountId headUnrevoked
    refine ⟨buildsUnrevoked after headUnrevoked, reevaluated_revealsUnrevoked headUnrevoked, ?_⟩
    intro input vault' unlocked
    have locked : PrimaryKeys (lock (reevaluated vault set)).disk.log := after
    refine ⟨?_, unlock_revealsUnrevoked locked headUnrevoked unlocked⟩
    rw [← sameLog input vault' unlocked] at after headUnrevoked
    exact buildsUnrevoked after headUnrevoked
  · intro row stored anchored
    obtain ⟨old, oldStored, rfl⟩ := List.mem_map.mp stored
    rw [reevaluateRow_chainAnchor] at anchored
    rw [reevaluateRow_recoveredSigner]
    exact revoked_reevaluateRow anchored
  · intro row stored unanchored
    refine List.mem_map.mpr ⟨row, stored, ?_⟩
    unfold reevaluateRow
    rw [unanchored]
    rfl

namespace Sample

/-- A session whose one account is published, its signer read back from the chain, and a
re-evaluation with that signer in the set. -/
def honoured : Vault :=
  let vault := run vault [unlock ⟨[1]⟩, add 1 51, .markPublished ⟨51⟩ ⟨1, 1, 0⟩ 0]
  let revisions := vault.disk.log.revisions.map fun row =>
    { row with recoveredSigner := some ⟨12⟩ }
  withLog vault { vault.disk.log with revisions }

/-- A session in which an update of an account was published and not read back. -/
def published : Vault :=
  run vault [unlock ⟨[1]⟩, add 1 51, .accountUpdate ⟨1⟩ .ok (draw 52),
    .markPublished ⟨52⟩ ⟨1, 1, 0⟩ 0]

end Sample

theorem revoked_rows_not_served_honoured :
    (∃ vault' head identity,
      accountGet (reevaluated Sample.honoured [⟨12⟩]) ⟨1⟩ 0 = (vault', .ok (head, identity)) ∧
        ∃ row, Unrevoked (reevaluated Sample.honoured [⟨12⟩]).disk.log ⟨1⟩ row ∧
          row.revisionId = head ∧ row.Seals identity) ∧
      RevealsUnrevoked (reevaluated Sample.honoured [⟨12⟩]) ⟨1⟩ := by
  have keys : PrimaryKeys Sample.honoured.disk.log :=
    ⟨by decide +kernel, by decide +kernel⟩
  have atHead : HeadUnrevoked (reevaluated Sample.honoured [⟨12⟩]).disk.log ⟨1⟩ := by
    unfold HeadUnrevoked
    decide +kernel
  have cached : CachedAtHead Sample.honoured ⟨1⟩ := by
    have sealed : ∀ active ∈ Sample.honoured.active, ∀ entry ∈ active.cache,
        ∀ row ∈ Sample.honoured.disk.log.revisions,
          row.encPayload.plaintext = some (.live entry.2) := by
      decide +kernel
    intro active session identity held account member sameId row stored isHead
    exact sealed active session _ held row stored
  have got : accountGet (reevaluated Sample.honoured [⟨12⟩]) ⟨1⟩ 0 =
      ((accountGet (reevaluated Sample.honoured [⟨12⟩]) ⟨1⟩ 0).1,
        .ok (⟨51⟩, Sample.identity)) := by
    decide +kernel
  obtain ⟨shown, built, -⟩ := revoked_rows_not_served Sample.honoured [[]] [⟨12⟩] keys
  exact ⟨⟨_, _, _, got, (shown ⟨1⟩ (.inl atHead)).1.get got⟩, (built ⟨1⟩ atHead).2.1 cached⟩

/-- This device is in the set and published the revoked row, which `account_get` returns,
also after an unlock, while the account has an unrevoked one. -/
theorem published_row_revoked_and_served :
    (Sample.published.active.map fun active => active.deviceKey.evmAddress) = some ⟨12⟩ ∧
      ((reevaluated Sample.published [⟨12⟩]).disk.log.revisions.map fun row =>
        (row.revisionId.raw, row.revoked)) = [(51, false), (52, true)] ∧
      (accountGet (reevaluated Sample.published [⟨12⟩]) ⟨1⟩ 0).2 =
        .ok (⟨52⟩, Sample.identity) ∧
      (accountGet (unlock (lock (reevaluated Sample.published [⟨12⟩]))
        (Sample.unlockInput ⟨[1]⟩)).1 ⟨1⟩ 0).2 = .ok (⟨52⟩, Sample.identity) := by
  decide +kernel

end Pangolin
