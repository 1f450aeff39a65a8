import Pangolin.Store.ChainCalls
import Pangolin.Store.Cached

/-!
# Heads, flags and memory

What a local edit leaves of the account it wrote: its head pointer names the new row, it
is not frozen, its tombstone flag says whether that row is a tombstone, and the session
caches the identity sealed in it or nothing.  Other accounts keep all of that.

The search index lives beside the cache.  Every call that changes the cache entry of an
account puts the projection of the same identity into the index, or takes it out.
-/

namespace Pangolin.Store

open Symbolic Crypto

/-- The identity of a live payload. -/
def IdentityPayload.identity? : IdentityPayload → Option AccountIdentity
  | .live identity => some identity
  | _ => none

/-! ## The search index -/

/-- An indexed account: when it was last modified and what of its identity is searched. -/
structure IndexEntry (Projection : Type) where
  accountId : AccountId
  updatedAt : Int
  projection : Projection
  deriving Repr, DecidableEq

section

variable {Projection : Type} (project : AccountIdentity → Projection)

/-- `SearchIndex::update`, which inserts an account it does not know, and
`SearchIndex::remove`. -/
def indexSync (index : List (IndexEntry Projection)) (accountId : AccountId) (updatedAt : Int)
    (identity : Option AccountIdentity) : List (IndexEntry Projection) :=
  let others := index.filter fun entry => entry.accountId ≠ accountId
  match identity with
  | some identity => others ++ [⟨accountId, updatedAt, project identity⟩]
  | none => others

/-- What the session caches of an account. -/
def cachedIdentity (vault : Vault) (accountId : AccountId) : Option AccountIdentity :=
  (vault.active.bind fun active => active.cache.find? fun entry => entry.1 = accountId).map
    Prod.snd

/-- The index an unlock builds beside the cache. -/
def indexOfCache (vault : Vault) : List (IndexEntry Projection) :=
  match vault.active with
  | none => []
  | some active => active.cache.map fun entry =>
      ⟨entry.1, ((findAccount vault.disk.log entry.1).map AccountRow.lastModifiedAt).getD 0,
        project entry.2⟩

/-- The index holds the accounts of the cache, with the projections of their identities. -/
def Mirrors (cache : List (AccountId × AccountIdentity)) (index : List (IndexEntry Projection)) :
    Prop :=
  ∀ accountId projection,
    (∃ updatedAt, ⟨accountId, updatedAt, projection⟩ ∈ index) ↔
      ∃ identity, (accountId, identity) ∈ cache ∧ project identity = projection

variable {project}

theorem mem_syncCache {active : ActiveState} {accountId other : AccountId}
    {identity : Option AccountIdentity} {held : AccountIdentity} :
    (other, held) ∈ (syncCache active accountId identity).cache ↔
      if other = accountId then identity = some held else (other, held) ∈ active.cache := by
  cases identity with
  | none =>
      by_cases same : other = accountId
      · simp [syncCache, same]
      · simp [syncCache, same]
  | some identity =>
      by_cases same : other = accountId
      · simp [syncCache, same, eq_comm]
      · simp [syncCache, same]

/-- What the cache holds of the synced account. -/
theorem cachedIdentity_syncCache {vault : Vault} {active : ActiveState} {accountId : AccountId}
    {identity : Option AccountIdentity}
    (session : vault.active = some (syncCache active accountId identity)) :
    cachedIdentity vault accountId = identity := by
  unfold cachedIdentity
  rw [session]
  cases identity with
  | none => simp [syncCache]
  | some identity =>
      have absent : active.cache.find? (fun _ => false) = none := by simp
      simp [syncCache, List.find?_append, absent]

theorem Mirrors.sync {active : ActiveState} {index : List (IndexEntry Projection)}
    (mirrors : Mirrors project active.cache index) (accountId : AccountId) (updatedAt : Int)
    (identity : Option AccountIdentity) :
    Mirrors project (syncCache active accountId identity).cache
      (indexSync project index accountId updatedAt identity) := by
  intro other projection
  simp only [mem_syncCache]
  by_cases same : other = accountId
  · subst same
    cases identity with
    | none => simp [indexSync]
    | some identity => simp [indexSync, eq_comm]
  · simp only [same, if_false, ← mirrors other projection]
    cases identity with
    | none => simp [indexSync, same]
    | some identity => simp [indexSync, same]

theorem Mirrors.ofCache {vault : Vault} {active : ActiveState}
    (session : vault.active = some active) :
    Mirrors project active.cache (indexOfCache project vault) := by
  intro accountId projection
  unfold indexOfCache
  rw [session]
  simp only [List.mem_map, IndexEntry.mk.injEq, Prod.exists]
  constructor
  · rintro ⟨updatedAt, id, identity, held, rfl, -, rfl⟩
    exact ⟨identity, held, rfl⟩
  · rintro ⟨identity, held, rfl⟩
    exact ⟨_, accountId, identity, held, rfl, rfl, rfl⟩

end

/-! ## Account lookups -/

theorem findAccount_update (accounts : List AccountRow) (target accountId : AccountId)
    {change : AccountRow → AccountRow} (sameId : ∀ old, (change old).accountId = old.accountId) :
    Table.lookup AccountRow.accountId (updateAccountRow accounts target change) accountId =
      if accountId = target then
        (Table.lookup AccountRow.accountId accounts accountId).map change
      else
        Table.lookup AccountRow.accountId accounts accountId := by
  unfold updateAccountRow
  rw [Table.lookup_map accounts accountId]
  · cases found : Table.lookup AccountRow.accountId accounts accountId with
    | none => simp
    | some account =>
        have key := Table.key_of_lookup found
        simp only [Option.map_some, key]
        split <;> rfl
  · intro row
    split
    · exact sameId row
    · rfl

/-! ## Local edits -/

/-- The row is the first of its account or follows the head of an account that is not
frozen. -/
def Extends (log : RevisionTables) (row : RevisionRow) (log' : RevisionTables) : Prop :=
  (∀ account, findAccount log row.accountId = some account →
    account.frozenPendingResolve = false ∧ row.parent = account.headRevisionId) ∧
  log'.revisions = log.revisions ++ [row]

/-- The row merges the heads of its account. -/
def Merges (log : RevisionTables) (row : RevisionRow) (log' : RevisionTables) : Prop :=
  row.parent ∈ (accountHeadRows log.revisions row.accountId).map RevisionRow.revisionId ∧
  log'.revisions =
    supersedeLosers log.revisions row.accountId row.parent row.revisionId ++ [row]

/-- A local edit and what it leaves of heads, flags and the cache. -/
structure HeadWrite (vault vault' : Vault) (active : ActiveState) (row : RevisionRow)
    (payload : IdentityPayload) : Prop extends LocalWrite vault vault' active row payload where
  kind : row.isTombstone = payload.identity?.isNone
  cached : vault'.active = some (syncCache active row.accountId payload.identity?)
  accountAt : ∃ account, findAccount vault'.disk.log row.accountId = some account ∧
    account.headRevisionId = row.revisionId ∧ account.frozenPendingResolve = false ∧
    account.tombstoned = row.isTombstone
  others : ∀ accountId, accountId ≠ row.accountId →
    findAccount vault'.disk.log accountId = findAccount vault.disk.log accountId
  extendsOrMerges : Extends vault.disk.log row vault'.disk.log ∨
    Merges vault.disk.log row vault'.disk.log

theorem refuseUneditable_eq_ok {vault : Vault} {active : ActiveState} {accountId : AccountId}
    (editable : refuseUneditable vault active accountId = .ok ()) {account : AccountRow}
    (found : findAccount vault.disk.log accountId = some account) :
    account.frozenPendingResolve = false := by
  unfold refuseUneditable at editable
  simp only [found, Option.map_some, Option.getD_some] at editable
  split at editable
  · cases editable
  · next unfrozen => simpa using unfrozen

/-- The effect of an account call on an account that drew the given revision id. -/
inductive HeadCall {α : Type} (vault : Vault) (accountId : AccountId) (drawn : RevisionId) :
    Call α → Prop where
  | failed (vault' : Vault) (error : StoreError) :
      Idle vault vault' → HeadCall vault accountId drawn (vault', .error error)
  | wrote (vault' : Vault) (value : α) (active : ActiveState) (row : RevisionRow)
      (payload : IdentityPayload) :
      HeadWrite vault vault' active row payload → row.accountId = accountId →
      row.revisionId = drawn → HeadCall vault accountId drawn (vault', .ok value)

/-- The same together with what is known of the payload it sealed. -/
inductive PayloadCall {α : Type} (vault : Vault) (accountId : AccountId) (drawn : RevisionId)
    (written : ActiveState → IdentityPayload → Prop) : Call α → Prop where
  | failed (vault' : Vault) (error : StoreError) :
      Idle vault vault' → PayloadCall vault accountId drawn written (vault', .error error)
  | wrote (vault' : Vault) (value : α) (active : ActiveState) (row : RevisionRow)
      (payload : IdentityPayload) :
      HeadWrite vault vault' active row payload → row.accountId = accountId →
      row.revisionId = drawn → written active payload →
      PayloadCall vault accountId drawn written (vault', .ok value)

theorem PayloadCall.headCall {α : Type} {vault : Vault} {accountId : AccountId}
    {drawn : RevisionId} {written : ActiveState → IdentityPayload → Prop} {call : Call α}
    (known : PayloadCall vault accountId drawn written call) :
    HeadCall vault accountId drawn call := by
  cases known with
  | failed vault' error idle => exact .failed vault' error idle
  | wrote vault' value active row payload write sameId drawnId _ =>
      exact .wrote vault' value active row payload write sameId drawnId

section

variable {vault : Vault} {active : ActiveState} {accountId : AccountId} {parent : RevisionId}
  {schemaVersion : Nat} {draw : WriteDraw} {log' : RevisionTables}

/-- Such an edit from what it did to the tables. -/
theorem payloadCall_of_log {α : Type} (value : α) (payload : IdentityPayload)
    {written : ActiveState → IdentityPayload → Prop}
    (write : LocalWrite vault (touchSession { vault with
        disk := { vault.disk with log := log' }
        active := some (syncCache active accountId payload.identity?) } draw.now) active
      (localRow vault active accountId parent schemaVersion payload payload.identity?.isNone
        draw) payload)
    (accountAt : ∃ account, findAccount log' accountId = some account ∧
      account.headRevisionId = draw.revisionId ∧ account.frozenPendingResolve = false ∧
      account.tombstoned = payload.identity?.isNone)
    (others : ∀ other, other ≠ accountId →
      findAccount log' other = findAccount vault.disk.log other)
    (rows : Extends vault.disk.log
        (localRow vault active accountId parent schemaVersion payload payload.identity?.isNone
          draw) log' ∨
      Merges vault.disk.log
        (localRow vault active accountId parent schemaVersion payload payload.identity?.isNone
          draw) log')
    (sealedAs : written active payload) :
    PayloadCall vault accountId draw.revisionId written (touchSession { vault with
      disk := { vault.disk with log := log' }
      active := some (syncCache active accountId payload.identity?) } draw.now, .ok value) := by
  refine .wrote _ value active _ payload ⟨write, rfl, touchSession_active _ _, ?_, ?_, ?_⟩
    rfl rfl sealedAs
  · rw [touchSession_disk]
    exact accountAt
  · rw [touchSession_disk]
    exact others
  · rw [touchSession_disk]
    exact rows

end

/-- The account table after the next revision of an account. -/
theorem appendToAccount_accounts {log log' : RevisionTables} {row : RevisionRow}
    {tombstoned : Bool} {account : AccountRow}
    (found : findAccount log row.accountId = some account)
    (unfrozen : account.frozenPendingResolve = false)
    (appended : appendToAccount log row tombstoned = .ok log') :
    (∃ account', findAccount log' row.accountId = some account' ∧
      account'.headRevisionId = row.revisionId ∧ account'.frozenPendingResolve = false ∧
      account'.tombstoned = tombstoned) ∧
    (∀ other, other ≠ row.accountId → findAccount log' other = findAccount log other) ∧
    log'.revisions = log.revisions ++ [row] := by
  obtain ⟨inserted, stored, equal⟩ := Fallible.bind_eq_ok_iff.mp appended
  obtain ⟨-, revisions, accounts, -, -⟩ := insertRevision_eq_ok stored
  obtain rfl := Except.ok.inj equal
  unfold findAccount at found ⊢
  refine ⟨?_, ?_, revisions⟩
  · refine ⟨{ account with
      headRevisionId := row.revisionId, lastModifiedAt := row.createdAt, tombstoned }, ?_, rfl,
      unfrozen, rfl⟩
    rw [findAccount_update, if_pos rfl, accounts, found]
    · rfl
    · exact fun _ => rfl
  · intro other different
    rw [findAccount_update, if_neg different, accounts]
    exact fun _ => rfl

theorem accountAdd_payloadCall (vault : Vault) (validated : Except StoreError AccountIdentity)
    (accountId : AccountId) (draw : WriteDraw) :
    PayloadCall vault accountId draw.revisionId
      (fun _ payload => ∃ identity, validated = .ok identity ∧ payload = .live identity)
      (accountAdd vault validated accountId draw) := by
  unfold accountAdd
  rcases withFreshSession_outcome vault draw.now _ with
    ⟨vault', error, result, idle⟩ | ⟨active, vault', id, session, done, result⟩
  · rw [result]
    exact .failed vault' error idle
  rw [result]
  obtain ⟨identity, valid, rest⟩ := Fallible.bind_eq_ok_iff.mp done
  split at rest
  · cases rest
  · next accounts stored =>
      obtain ⟨log, inserted, equal⟩ := Fallible.bind_eq_ok_iff.mp rest
      obtain ⟨rfl, -⟩ := Prod.mk.inj (Except.ok.inj equal)
      obtain ⟨newAccount, rfl⟩ := Table.insert?_eq_some stored
      obtain ⟨fresh, revisions, sameAccounts, merges, dirty⟩ := insertRevision_eq_ok inserted
      have lookup := @Table.lookup_append_singleton _ _ _ AccountRow.accountId
        vault.disk.log.accounts
        ⟨accountId, draw.nowMs, draw.nowMs, false, draw.revisionId, false⟩
      refine payloadCall_of_log _ (.live identity) (localWrite_localRow draw.now session
        ⟨fresh, .added _ rfl newAccount rfl rfl sameAccounts revisions merges, dirty⟩ trivial
        (.inl rfl)) ?_ ?_ (.inl ⟨?_, revisions⟩) ⟨identity, valid, rfl⟩
      · refine ⟨⟨accountId, draw.nowMs, draw.nowMs, false, draw.revisionId, false⟩, ?_, rfl, rfl,
          rfl⟩
        rw [findAccount, sameAccounts, lookup accountId newAccount, if_pos rfl]
      · intro other different
        rw [findAccount, sameAccounts, lookup other newAccount, if_neg different]
        rfl
      · intro account found
        exact absurd (Table.key_of_lookup found) (newAccount account (Table.mem_of_lookup found))

theorem accountAdd_headCall (vault : Vault) (validated : Except StoreError AccountIdentity)
    (accountId : AccountId) (draw : WriteDraw) :
    HeadCall vault accountId draw.revisionId (accountAdd vault validated accountId draw) :=
  (accountAdd_payloadCall vault validated accountId draw).headCall

theorem accountUpdate_payloadCall (vault : Vault) (accountId : AccountId)
    (patch : AccountIdentity → Except StoreError AccountIdentity) (draw : WriteDraw) :
    PayloadCall vault accountId draw.revisionId
      (fun active payload => ∃ account current identity,
        liveAccount vault.disk.log accountId = .ok account ∧
        readIdentityAt vault active accountId account.headRevisionId = .ok current ∧
        patch current = .ok identity ∧ payload = .live identity)
      (accountUpdate vault accountId patch draw) := by
  unfold accountUpdate
  rcases withFreshSession_outcome vault draw.now _ with
    ⟨vault', error, result, idle⟩ | ⟨active, vault', id, session, done, result⟩
  · rw [result]
    exact .failed vault' error idle
  rw [result]
  obtain ⟨_, editable, rest⟩ := Fallible.bind_eq_ok_iff.mp done
  obtain ⟨account, live, rest⟩ := Fallible.bind_eq_ok_iff.mp rest
  obtain ⟨current, read, rest⟩ := Fallible.bind_eq_ok_iff.mp rest
  obtain ⟨identity, patched, rest⟩ := Fallible.bind_eq_ok_iff.mp rest
  obtain ⟨log, appended, equal⟩ := Fallible.bind_eq_ok_iff.mp rest
  obtain ⟨rfl, -⟩ := Prod.mk.inj (Except.ok.inj equal)
  have found := (liveAccount_eq_ok live).1
  obtain ⟨accountAt, others, revisions⟩ :=
    appendToAccount_accounts found (refuseUneditable_eq_ok editable found) appended
  refine payloadCall_of_log _ (.live identity) (localWrite_localRow draw.now session
    (appendToAccount_eq_ok found rfl appended) trivial (.inl rfl)) accountAt others
    (.inl ⟨?_, revisions⟩) ⟨account, current, identity, live, read, patched, rfl⟩
  intro other same
  obtain rfl : account = other := Option.some.inj (found.symm.trans same)
  exact ⟨refuseUneditable_eq_ok editable same, rfl⟩

theorem accountUpdate_headCall (vault : Vault) (accountId : AccountId)
    (patch : AccountIdentity → Except StoreError AccountIdentity) (draw : WriteDraw) :
    HeadCall vault accountId draw.revisionId (accountUpdate vault accountId patch draw) :=
  (accountUpdate_payloadCall vault accountId patch draw).headCall

theorem deleteAccount_payloadCall (vault : Vault) (accountId : AccountId) (draw : WriteDraw) :
    PayloadCall vault accountId draw.revisionId (fun _ payload => payload.identity? = none)
      (deleteAccount vault accountId draw) := by
  unfold deleteAccount
  rcases withFreshSession_outcome vault draw.now _ with
    ⟨vault', error, result, idle⟩ | ⟨active, vault', id, session, done, result⟩
  · rw [result]
    exact .failed vault' error idle
  rw [result]
  obtain ⟨_, editable, rest⟩ := Fallible.bind_eq_ok_iff.mp done
  obtain ⟨account, live, rest⟩ := Fallible.bind_eq_ok_iff.mp rest
  obtain ⟨log, appended, equal⟩ := Fallible.bind_eq_ok_iff.mp rest
  obtain ⟨rfl, -⟩ := Prod.mk.inj (Except.ok.inj equal)
  have found := (liveAccount_eq_ok live).1
  obtain ⟨accountAt, others, revisions⟩ :=
    appendToAccount_accounts found (refuseUneditable_eq_ok editable found) appended
  refine payloadCall_of_log _ (.tombstone accountId draw.nowMs.toNat)
    (localWrite_localRow draw.now session (appendToAccount_eq_ok found rfl appended) trivial
      (.inl rfl)) accountAt others (.inl ⟨?_, revisions⟩) rfl
  intro other same
  obtain rfl : account = other := Option.some.inj (found.symm.trans same)
  exact ⟨refuseUneditable_eq_ok editable same, rfl⟩

theorem deleteAccount_headCall (vault : Vault) (accountId : AccountId) (draw : WriteDraw) :
    HeadCall vault accountId draw.revisionId (deleteAccount vault accountId draw) :=
  (deleteAccount_payloadCall vault accountId draw).headCall

/-- A merge keeps the kind of the row it keeps. -/
theorem mergePayload_kind {vault : Vault} {active : ActiveState} {chosen : RevisionRow}
    {nowMs : Int} {payload : IdentityPayload}
    (merged : mergePayload vault active chosen nowMs = .ok payload) :
    chosen.isTombstone = payload.identity?.isNone := by
  unfold mergePayload at merged
  split at merged
  · next isTombstone _ =>
      obtain rfl := Except.ok.inj merged
      exact isTombstone
  · cases merged
  · cases merged
  · next isLive _ =>
      obtain rfl := Except.ok.inj merged
      exact isLive
  · cases merged

theorem resolveFork_payloadCall (vault : Vault) (accountId : AccountId) (keep : RevisionId)
    (draw : WriteDraw) :
    PayloadCall vault accountId draw.revisionId
      (fun active payload => ∃ chosen,
        findRevision vault.disk.log.revisions accountId keep = some chosen ∧
        mergePayload vault active chosen draw.nowMs = .ok payload)
      (resolveFork vault accountId keep draw) := by
  unfold resolveFork
  rcases withFreshSession_outcome vault draw.now _ with
    ⟨vault', error, result, idle⟩ | ⟨active, vault', id, session, done, result⟩
  · rw [result]
    exact .failed vault' error idle
  rw [result]
  obtain ⟨chosen, validated, rest⟩ := Fallible.bind_eq_ok_iff.mp done
  obtain ⟨payload, merged, rest⟩ := Fallible.bind_eq_ok_iff.mp rest
  obtain ⟨log, committed, equal⟩ := Fallible.bind_eq_ok_iff.mp rest
  obtain ⟨rfl, -⟩ := Prod.mk.inj (Except.ok.inj equal)
  obtain ⟨account, live, -⟩ := Fallible.bind_eq_ok_iff.mp validated
  obtain ⟨found, forked, head⟩ := resolveForkValidate_eq_ok validated
  obtain ⟨-, rfl, rfl⟩ := findRevision_eq_some found
  obtain ⟨payloadLocal, version⟩ := mergePayload_eq_ok merged found
  rw [mergePayload_kind merged] at committed
  obtain ⟨inserted, stored, equal⟩ := Fallible.bind_eq_ok_iff.mp committed
  obtain ⟨fresh, revisions, accounts, merges, dirty⟩ := insertRevision_eq_ok stored
  obtain rfl := Except.ok.inj equal
  have freshId : ∀ old ∈ vault.disk.log.revisions, old.revisionId ≠ draw.revisionId := by
    intro old member
    obtain ⟨marked, markedMember, sameId⟩ := mem_supersedeLosers_id member
    exact sameId ▸ fresh marked markedMember
  have stored : findAccount vault.disk.log chosen.accountId = some account :=
    (liveAccount_eq_ok live).1
  refine payloadCall_of_log _ payload (localWrite_localRow draw.now session ⟨freshId, .resolved
    (fun old => { old with
      headRevisionId := draw.revisionId, lastModifiedAt := draw.nowMs
      frozenPendingResolve := false, tombstoned := payload.identity?.isNone })
    forked head (fun _ => rfl) (fun _ => rfl) ?_ revisions ?_, dirty⟩ payloadLocal
    (.inr version)) ?_ ?_ (.inr ⟨head, revisions⟩) ⟨chosen, found, merged⟩
  · rw [← accounts]
    rfl
  · intro merge member
    exact merges ▸ (List.mem_filter.mp member).1
  · refine ⟨{ account with
      headRevisionId := draw.revisionId, lastModifiedAt := draw.nowMs
      frozenPendingResolve := false, tombstoned := payload.identity?.isNone }, ?_, rfl, rfl, rfl⟩
    change Table.lookup AccountRow.accountId
      (updateAccountRow inserted.accounts chosen.accountId _) _ = _
    rw [findAccount_update, if_pos rfl, accounts]
    · change (findAccount vault.disk.log chosen.accountId).map _ = _
      rw [stored]
      rfl
    · exact fun _ => rfl
  · intro other different
    change Table.lookup AccountRow.accountId
      (updateAccountRow inserted.accounts chosen.accountId _) _ = _
    rw [findAccount_update, if_neg different, accounts]
    · rfl
    · exact fun _ => rfl

theorem resolveFork_headCall (vault : Vault) (accountId : AccountId) (keep : RevisionId)
    (draw : WriteDraw) :
    HeadCall vault accountId draw.revisionId (resolveFork vault accountId keep draw) :=
  (resolveFork_payloadCall vault accountId keep draw).headCall

/-! ## Clearing a freeze -/

/-- What a successful `clear_frozen` did: the head pointer of one account moved to a head
row. -/
structure Clears (vault vault' : Vault) (accountId : AccountId) (chosen : RevisionRow) :
    Prop where
  head : chosen ∈ accountHeadRows vault.disk.log.revisions accountId
  accountAt : ∃ account, findAccount vault'.disk.log accountId = some account ∧
    account.headRevisionId = chosen.revisionId
  others : ∀ other, other ≠ accountId →
    findAccount vault'.disk.log other = findAccount vault.disk.log other
  accounts : vault'.disk.log.accounts.map AccountRow.accountId =
    vault.disk.log.accounts.map AccountRow.accountId
  revisions : vault'.disk.log.revisions = vault.disk.log.revisions

theorem clearFrozen_logOnly (vault : Vault) (accountId : AccountId) (chosen : RevisionId)
    (nowMs : Int) (now : Nat) :
    LogOnly vault (clearFrozen vault accountId chosen nowMs now).1 := by
  have expired := maybeExpire_logOnly vault now
  unfold clearFrozen
  simp only
  split
  · exact expired
  split
  · exact expired
  split
  · exact expired
  · exact (expired.withLog _).touchSession now

theorem clearFrozen_cases (vault : Vault) (accountId : AccountId) (chosen : RevisionId)
    (nowMs : Int) (now : Nat) :
    (clearFrozen vault accountId chosen nowMs now).1.disk.log = vault.disk.log ∨
      ∃ row, Clears vault (clearFrozen vault accountId chosen nowMs now).1 accountId row := by
  unfold clearFrozen
  simp only [maybeExpireActiveSession_disk]
  split
  · simp
  next known =>
  split
  · simp
  split
  · simp
  · next member =>
      obtain ⟨row, isHead, rfl⟩ := List.mem_map.mp (not_not.mp member)
      obtain ⟨account, found⟩ : ∃ account, findAccount vault.disk.log accountId = some account := by
        exact Option.ne_none_iff_exists'.mp (by simpa using known)
      unfold findAccount at found
      refine .inr ⟨row, isHead, ?_, ?_, ?_, ?_⟩
      · simp only [touchSession_disk, withLog_log, findAccount]
        rw [findAccount_update, if_pos rfl, found]
        · exact ⟨_, rfl, rfl⟩
        · exact fun _ => rfl
      · intro other different
        simp only [touchSession_disk, withLog_log, findAccount]
        rw [findAccount_update, if_neg different]
        exact fun _ => rfl
      · simp only [touchSession_disk, withLog_log]
        exact updateAccountRow_map_accountId fun _ => rfl
      · simp

end Pangolin.Store
