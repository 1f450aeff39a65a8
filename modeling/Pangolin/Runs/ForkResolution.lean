import Pangolin.Runs.Coherence
import Pangolin.Runs.ReadPaths
import Pangolin.Store.Conflicts
import Pangolin.Store.Session

/-!
# Resolving a fork

A resolution seals what the kept head holds into a merge row below it and supersedes the other
heads.  It opens the kept head with the session's VDK, whatever epoch the row is of, while an
unlock opens it with the key of its epoch.  So it succeeds on the heads whose epoch key is the
session's, and does on these all it is meant to do.
-/

namespace Pangolin

open Symbolic Crypto Store Transition

/-! ## The rows of one account -/

/-- What an account's heads, graph and payloads are read from. -/
def ownRows (revisions : List RevisionRow) (accountId : AccountId) : List RevisionRow :=
  revisions.filter fun row => row.accountId = accountId

section OwnRows

variable {revisions revisions' : List RevisionRow}

theorem hasUnrevokedChild_ownRows (revisions : List RevisionRow) (row : RevisionRow) :
    hasUnrevokedChild revisions row = hasUnrevokedChild (ownRows revisions row.accountId) row := by
  rw [Bool.eq_iff_iff]
  simp only [hasUnrevokedChild, ownRows, List.any_eq_true, Bool.and_eq_true, decide_eq_true_eq,
    Bool.not_eq_true', List.mem_filter]
  constructor
  · rintro ⟨child, stored, ⟨isChild, same⟩, unrevoked⟩
    exact ⟨child, ⟨stored, same⟩, ⟨isChild, same⟩, unrevoked⟩
  · rintro ⟨child, ⟨stored, -⟩, facts⟩
    exact ⟨child, stored, facts⟩

theorem accountHeadRows_ownRows (revisions : List RevisionRow) (accountId : AccountId) :
    accountHeadRows revisions accountId =
      (ownRows revisions accountId).filter (isHeadRow (ownRows revisions accountId)) := by
  rw [accountHeadRows, ownRows, List.filter_filter]
  apply List.filter_congr
  intro row _
  by_cases same : row.accountId = accountId
  · have children := hasUnrevokedChild_ownRows revisions row
    rw [same] at children
    simp only [ownRows] at children
    simp only [same, decide_true, Bool.true_and, Bool.and_true, isHeadRow, children]
  · simp [same]

theorem readRevisionRows_ownRows (revisions : List RevisionRow) (accountId : AccountId) :
    readRevisionRows revisions accountId =
      ((ownRows revisions accountId).filter fun row => !row.revoked).insertionSort
        RevisionRow.before := by
  rw [readRevisionRows, ownRows, List.filter_filter]
  congr 1
  apply List.filter_congr
  intro row _
  exact Bool.and_comm _ _

theorem findRevision_ownRows (revisions : List RevisionRow) (accountId : AccountId)
    (revisionId : RevisionId) :
    findRevision revisions accountId revisionId =
      (ownRows revisions accountId).find? fun row => row.revisionId = revisionId := by
  rw [findRevision, ownRows, List.find?_filter]
  congr 1
  funext row
  simp

/-- Hydrating an account reads its own rows only. -/
theorem hydrateAccount_congr {vaultId : VaultId} {vdk : VdkKey} {chain : VdkChain}
    {account : AccountRow}
    (same : ownRows revisions account.accountId = ownRows revisions' account.accountId) :
    hydrateAccount revisions vaultId vdk chain account =
      hydrateAccount revisions' vaultId vdk chain account := by
  have heads : headsToDecode revisions account = headsToDecode revisions' account := by
    simp only [headsToDecode, accountHeadRows_ownRows, readRevisionRows_ownRows, same]
  have decodes : decodeHeadRow revisions vaultId vdk chain account.accountId =
      decodeHeadRow revisions' vaultId vdk chain account.accountId := by
    funext id
    simp only [decodeHeadRow, findRevision_ownRows, same]
  simp only [hydrateAccount, heads, decodes]

end OwnRows

/-! ## The situation -/

/-- A fresh session on a fork, with a head it can decrypt and a revision id drawn at random.
The `is_tombstone` column of the head says what its payload is. -/
structure ForkAt (vault : Vault) (active : ActiveState) (accountId : AccountId)
    (kept : RevisionRow) (outcome : HeadDecodeOutcome) (draw : WriteDraw) : Prop where
  core : KeyCore vault
  accounts : (vault.disk.log.accounts.map AccountRow.accountId).Nodup
  revisions : (vault.disk.log.revisions.map RevisionRow.revisionId).Nodup
  session : vault.active = some active
  fresh : checkSessionFreshness vault draw.now = (vault, .ok ())
  live : ∃ account, findAccount vault.disk.log accountId = some account ∧
    account.tombstoned = false
  forked : 1 < (accountHeadRows vault.disk.log.revisions accountId).length
  head : kept ∈ accountHeadRows vault.disk.log.revisions accountId
  decrypts : decodeRow vault.vaultMeta.vaultId active.vdk active.chain kept = .ok outcome
  kind : (kept.isTombstone = true ∧ outcome = .tombstone) ∨
    (kept.isTombstone = false ∧ ∃ identity, outcome = .live identity)
  drawn : FreshDraw vault.disk.log draw.revisionId
  unused : ∀ row ∈ vault.disk.log.revisions, row.revisionId ≠ draw.revisionId

/-- What `account_get` answers on an account whose head decodes so. -/
def Store.HeadDecodeOutcome.answer (head : RevisionId) :
    HeadDecodeOutcome → Except StoreError (RevisionId × AccountIdentity)
  | .live identity => .ok (head, identity)
  | _ => .error .accountTombstoned

/-- The fork is resolved towards the kept head by the merge. -/
structure ResolvedTo (vault vault' : Vault) (accountId : AccountId) (kept : RevisionRow)
    (outcome : HeadDecodeOutcome) (merge : RevisionId) : Prop where
  unused : ∀ row ∈ vault.disk.log.revisions, row.revisionId ≠ merge
  heads : accountHeads vault'.disk.log accountId = .ok [merge]
  sealedAgain : ∃ row ∈ vault'.disk.log.revisions, row.revisionId = merge ∧
    row.accountId = accountId ∧ row.parent = kept.revisionId ∧
    ∃ active, vault'.active = some active ∧
      decodeRow vault'.vaultMeta.vaultId active.vdk active.chain row = .ok outcome
  unfrozen : ¬ Frozen vault'.disk.log accountId
  unreported : accountId ∉ allForkedAccounts vault'.disk.log ∧
    ∀ reports, listConflicts vault'.disk.log = .ok reports →
      accountId ∉ reports.map ConflictReport.accountId
  rows : ∀ row ∈ vault.disk.log.revisions, ∃ row' ∈ vault'.disk.log.revisions,
    { row' with supersededBy := row.supersededBy } = row
  dirty : ∃ marker ∈ vault'.disk.log.dirtyAccounts,
    marker.accountId = accountId ∧ marker.revisionId = merge
  unlocks : ∀ input before, unlock (lock vault) input = (before, .ok ()) →
    ∃ after, unlock (lock vault') input = (after, .ok ())
  read : ∀ input after now, unlock (lock vault') input = (after, .ok ()) →
    checkSessionFreshness after now = (after, .ok ()) →
    (accountGet after accountId now).2 = outcome.answer merge

/-- A session-class call in a fresh session runs its body. -/
theorem withFreshSession_of_fresh {α : Type} {vault : Vault} {active : ActiveState} {now : Nat}
    (fresh : checkSessionFreshness vault now = (vault, .ok ()))
    (session : vault.active = some active)
    (body : ActiveState → Except StoreError (Vault × α)) :
    (∀ error, body active = .error error → withFreshSession vault now body =
        (vault, .error error)) ∧
      ∀ after value, body active = .ok (after, value) → withFreshSession vault now body =
        (touchSession after now, .ok value) := by
  unfold checkSessionFreshness at fresh
  unfold withFreshSession
  split at fresh
  · cases (Prod.mk.inj fresh).2
  · cases (Prod.mk.inj fresh).2
  · cases (Prod.mk.inj fresh).2
  next expiresAt _ _ running =>
  split at fresh
  · cases (Prod.mk.inj fresh).2
  next inTime =>
  simp only [running, inTime, if_false, session]
  constructor
  · intro error failed
    rw [failed]
  · intro after value done
    rw [done]

/-- `account_get` on an unfrozen account with one head reads that head. -/
theorem accountGet_single {vault : Vault} {active : ActiveState} {account : AccountRow}
    {row : RevisionRow} {now : Nat}
    (fresh : checkSessionFreshness vault now = (vault, .ok ()))
    (session : vault.active = some active) (upToDate : row.accountId ∉ active.requiresUpgrade)
    (found : findAccount vault.disk.log row.accountId = some account)
    (unfrozen : account.frozenPendingResolve = false)
    (pointer : account.headRevisionId = row.revisionId)
    (heads : accountHeadRows vault.disk.log.revisions row.accountId = [row])
    (unique : (vault.disk.log.revisions.map RevisionRow.revisionId).Nodup) :
    (accountGet vault row.accountId now).2 =
      if account.tombstoned then .error .accountTombstoned
      else (readRow vault.vaultMeta.vaultId active.vdk row).map fun identity =>
        (row.revisionId, identity) := by
  have run := withFreshSession_of_fresh (α := RevisionId × AccountIdentity) fresh session
  have editable : refuseUneditable vault active row.accountId = .ok () := by
    have unflagged : (active.requiresUpgrade.any fun id => id = row.accountId) = false := by
      rw [List.any_eq_false]
      intro id member same
      exact upToDate (of_decide_eq_true same ▸ member)
    simp [refuseUneditable, found, unfrozen, unflagged]
  have sameId : account.accountId = row.accountId := Table.key_of_lookup found
  have listed : accountHeads vault.disk.log row.accountId = .ok [row.revisionId] := by
    rw [accountHeads, heads, if_pos]
    · rfl
    · rw [List.any_eq_true]
      exact ⟨account, Table.mem_of_lookup found, decide_eq_true sameId⟩
  have head : readableHead vault.disk.log account = .ok row.revisionId := by
    simp [readableHead, sameId, listed, pointer, bind, Except.bind]
  have stored : row ∈ vault.disk.log.revisions :=
    (mem_accountHeadRows.mp (heads ▸ List.mem_singleton.mpr rfl)).1
  have read : readIdentityAt vault active row.accountId row.revisionId =
      readRow vault.vaultMeta.vaultId active.vdk row := by
    simp only [readIdentityAt, findRevision_of_mem unique stored]
  rw [Store.accountGet]
  by_cases tombstoned : account.tombstoned = true
  · rw [if_pos tombstoned, (run _).1 .accountTombstoned]
    simp [editable, liveAccount, found, tombstoned, bind, Except.bind]
  · have live : liveAccount vault.disk.log row.accountId = .ok account := by
      simp [liveAccount, found, tombstoned]
    rw [if_neg tombstoned]
    cases opened : readRow vault.vaultMeta.vaultId active.vdk row with
    | error error =>
        rw [(run _).1 error]
        · rfl
        · simp [editable, live, head, read, opened, bind, Except.bind]
    | ok identity =>
        rw [(run _).2 vault (row.revisionId, identity)]
        · rfl
        · simp [editable, live, head, read, opened, bind, Except.bind, pure, Except.pure]

/-! ## Reading an account after an unlock -/

/-- An account is flagged because one of that id hydrated so. -/
theorem hydrated_of_mem_requiresUpgrade {revisions : List RevisionRow} {vaultId : VaultId}
    {vdk : VdkKey} {chain : VdkChain} {accounts : List AccountRow} {data : ActiveStateData}
    (done : hydrateAll revisions vaultId vdk chain accounts = .ok data) {accountId : AccountId}
    (flagged : accountId ∈ data.requiresUpgrade) :
    ∃ account ∈ accounts, account.accountId = accountId ∧
      ∃ hydrated, hydrateAccount revisions vaultId vdk chain account = .ok hydrated ∧
        hydrated.requiresUpgrade = true := by
  induction accounts generalizing data with
  | nil =>
      obtain rfl := Except.ok.inj done
      cases flagged
  | cons account accounts ih =>
      obtain ⟨hydrated, first, rest⟩ := Fallible.bind_eq_ok_iff.mp done
      obtain ⟨later, others, equal⟩ := Fallible.bind_eq_ok_iff.mp rest
      obtain rfl := Except.ok.inj equal
      rcases List.mem_append.mp flagged with here | there
      · split at here
        · next upgrade =>
            exact ⟨account, List.mem_cons_self, (List.mem_singleton.mp here).symm, hydrated, first,
              upgrade⟩
        · cases here
      · obtain ⟨source, member, facts⟩ := ih others there
        exact ⟨source, List.mem_cons_of_mem _ member, facts⟩

/-- Every account of a loop that succeeds hydrates. -/
theorem hydrated_of_hydrateAll {revisions : List RevisionRow} {vaultId : VaultId}
    {vdk : VdkKey} {chain : VdkChain} {accounts : List AccountRow} {data : ActiveStateData}
    (done : hydrateAll revisions vaultId vdk chain accounts = .ok data) {account : AccountRow}
    (member : account ∈ accounts) :
    ∃ hydrated, hydrateAccount revisions vaultId vdk chain account = .ok hydrated := by
  induction accounts generalizing data with
  | nil => cases member
  | cons head accounts ih =>
      obtain ⟨hydrated, first, rest⟩ := Fallible.bind_eq_ok_iff.mp done
      obtain ⟨later, others, -⟩ := Fallible.bind_eq_ok_iff.mp rest
      rcases List.mem_cons.mp member with rfl | there
      · exact ⟨hydrated, first⟩
      · exact ih others there

/-- An unfrozen account with one head, sealed in the current epoch. -/
structure SingleHead (vault : Vault) (account : AccountRow) (row : RevisionRow)
    (payload : IdentityPayload) : Prop where
  found : findAccount vault.disk.log row.accountId = some account
  unfrozen : account.frozenPendingResolve = false
  pointer : account.headRevisionId = row.revisionId
  flag : account.tombstoned = payload.identity?.isNone
  heads : accountHeadRows vault.disk.log.revisions row.accountId = [row]
  sealedRow : ∃ key, SealedRow (keyring vault.disk.keys) vault.vaultMeta.vaultId row key payload
  current : row.vdkEpoch = readCurrentEpoch vault.disk.keys

namespace SingleHead

variable {vault after : Vault} {account : AccountRow} {row : RevisionRow}
  {payload : IdentityPayload}

theorem decoded (single : SingleHead vault account row payload)
    (unique : (vault.disk.log.revisions.map RevisionRow.revisionId).Nodup) {vdk : VdkKey}
    {chain : VdkChain}
    (selects : ∀ epoch, entryKey vdk chain epoch = keyring vault.disk.keys epoch) :
    decodeHeadRow vault.disk.log.revisions vault.vaultMeta.vaultId vdk chain account.accountId
      account.headRevisionId = .ok (.ofPayload payload) := by
  have stored : row ∈ vault.disk.log.revisions :=
    (mem_accountHeadRows.mp (single.heads ▸ List.mem_singleton.mpr rfl)).1
  obtain ⟨key, sealedRow⟩ := single.sealedRow
  have sameId : account.accountId = row.accountId := Table.key_of_lookup single.found
  rw [decodeHeadRow, sameId, single.pointer, findRevision_of_mem unique stored]
  exact decodeRow_sealedRow (sealedRow.congr (selects _))

theorem hydrated (single : SingleHead vault account row payload)
    (unique : (vault.disk.log.revisions.map RevisionRow.revisionId).Nodup) {vdk : VdkKey}
    {chain : VdkChain}
    (selects : ∀ epoch, entryKey vdk chain epoch = keyring vault.disk.keys epoch) :
    hydrateAccount vault.disk.log.revisions vault.vaultMeta.vaultId vdk chain account =
      .ok ⟨false, payload.identity?⟩ := by
  have sameId : account.accountId = row.accountId := Table.key_of_lookup single.found
  have heads : headsToDecode vault.disk.log.revisions account =
      .ok (account.headRevisionId, [account.headRevisionId]) := by
    rw [headsToDecode, sameId, single.heads, if_neg (by simp)]
  obtain ⟨key, sealedRow⟩ := single.sealedRow
  have payloadLocal := sealedRow.payloadLocal
  have decoded := single.decoded unique selects
  cases payload with
  | live identity =>
      simp [hydrateAccount, heads, decodeLeaves, decoded, HeadDecodeOutcome.ofPayload,
        IdentityPayload.identity?, bind, Except.bind, pure, Except.pure]
  | tombstone accountId tombstonedAtMs =>
      simp [hydrateAccount, heads, decodeLeaves, decoded, HeadDecodeOutcome.ofPayload,
        IdentityPayload.identity?, bind, Except.bind, pure, Except.pure]
  | future payloadVersion => exact absurd payloadLocal id

/-- An unlock leaves it unflagged. -/
theorem upToDate (single : SingleHead vault account row payload)
    (accounts : (vault.disk.log.accounts.map AccountRow.accountId).Nodup)
    (unique : (vault.disk.log.revisions.map RevisionRow.revisionId).Nodup) {vdk : VdkKey}
    {chain : VdkChain} {data : ActiveStateData}
    (selects : ∀ epoch, entryKey vdk chain epoch = keyring vault.disk.keys epoch)
    (done : buildActiveStateData vault.disk.log vault.vaultMeta.vaultId vdk chain = .ok data) :
    row.accountId ∉ data.requiresUpgrade := by
  intro flagged
  obtain ⟨source, listed, sameId, hydrated, made, upgrade⟩ :=
    hydrated_of_mem_requiresUpgrade done flagged
  obtain rfl : source = account :=
    List.inj_on_of_nodup_map accounts (List.mem_filter.mp listed).1
      (Table.mem_of_lookup single.found) (sameId.trans (Table.key_of_lookup single.found).symm)
  obtain rfl := Except.ok.inj (made.symm.trans (single.hydrated unique selects))
  cases upgrade

/-- `account_get` after an unlock returns what the head seals. -/
theorem accountGet (single : SingleHead vault account row payload) (core : KeyCore vault)
    (accounts : (vault.disk.log.accounts.map AccountRow.accountId).Nodup)
    (unique : (vault.disk.log.revisions.map RevisionRow.revisionId).Nodup) {input : UnlockInput}
    (unlocked : unlock vault input = (after, .ok ())) {now : Nat}
    (fresh : checkSessionFreshness after now = (after, .ok ())) :
    (Store.accountGet after row.accountId now).2 =
      (HeadDecodeOutcome.ofPayload payload).answer row.revisionId := by
  obtain ⟨vdk, chain, data, deviceKey, keys, found⟩ := unlock_eq_ok_iff.mp unlocked
  obtain ⟨core', ring⟩ := core.unlocks found
  have result := found.result
  have session := core'.session ⟨vdk, chain, data.cache, deviceKey, data.requiresUpgrade⟩
    (by rw [result])
  have selects : ∀ epoch, entryKey vdk chain epoch = keyring vault.disk.keys epoch := by
    intro epoch
    rw [← ring.keyring]
    exact session.selects epoch
  have sameLog : after.disk.log = vault.disk.log := by rw [result]
  have sameMeta : after.vaultMeta = vault.vaultMeta := by rw [result]
  have upToDate := single.upToDate accounts unique selects found.hydrated
  obtain ⟨key, sealedRow⟩ := single.sealedRow
  have sameKey : key = vdk := by
    have current := sealedRow.selected
    rw [single.current, ← selects, entryKey, if_pos] at current
    · exact (Option.some.inj current).symm
    · rw [← ring.currentEpoch]
      exact session.currentEpoch.symm
  have answer := accountGet_single fresh (by rw [result]) upToDate (by rw [sameLog]; exact single.found)
    single.unfrozen single.pointer (by rw [sameLog]; exact single.heads)
    (by rw [sameLog]; exact unique)
  rw [answer, single.flag, sameMeta, readRow_sealedRow sealedRow, if_pos sameKey]
  have payloadLocal := sealedRow.payloadLocal
  cases payload with
  | live identity => rfl
  | tombstone accountId tombstonedAtMs => rfl
  | future payloadVersion => exact absurd payloadLocal id

end SingleHead

/-! ## Opening the kept head -/

/-- A row that decodes to an identity or a tombstone was sealed under the key of its epoch. -/
theorem sealedRow_of_decodeRow {vaultId : VaultId} {vdk : VdkKey} {chain : VdkChain}
    {row : RevisionRow} {outcome : HeadDecodeOutcome}
    (decoded : decodeRow vaultId vdk chain row = .ok outcome)
    (known : outcome = .tombstone ∨ ∃ identity, outcome = .live identity) :
    ∃ key payload, SealedRow (entryKey vdk chain) vaultId row key payload ∧
      outcome = .ofPayload payload := by
  unfold decodeRow at decoded
  split at decoded
  · obtain rfl := Except.ok.inj decoded
    simp at known
  next key selected =>
  split at decoded
  · obtain rfl := Except.ok.inj decoded
    simp at known
  next nonce =>
  split at decoded
  · cases decoded
  · obtain rfl := Except.ok.inj decoded
    simp at known
  next payload notFuture opened =>
  split at decoded
  · obtain rfl := Except.ok.inj decoded
    simp at known
  next version =>
  have sealedAs : row.encPayload = sealPayload key row.encNonce (row.aad vaultId) payload := by
    cases boxed : row.encPayload with
    | sealedPayload box =>
        rw [boxed] at opened
        obtain ⟨rfl, context, rfl⟩ := (Sealed.open?_eq_some_iff _ _ _ _).mp opened
        rw [sealPayload, ← context]
    | bytes raw =>
        rw [boxed] at opened
        cases opened
  cases payload with
  | live identity =>
      exact ⟨key, _, ⟨selected, nonce, sealedAs, trivial, Nat.not_lt.mp version⟩,
        (Except.ok.inj decoded).symm⟩
  | tombstone accountId tombstonedAtMs =>
      exact ⟨key, _, ⟨selected, nonce, sealedAs, trivial, Nat.not_lt.mp version⟩,
        (Except.ok.inj decoded).symm⟩
  | future payloadVersion => exact absurd rfl (notFuture payloadVersion)

/-- The keys an unlock finds are the file's. -/
theorem selects_of_unlocks {vault after : Vault} {input : UnlockInput} {vdk : VdkKey}
    {chain : VdkChain} {data : ActiveStateData} {deviceKey : DeviceKey} {keys : KeyTables}
    (core : KeyCore vault)
    (found : Unlocks vault input after vdk chain data deviceKey keys) (epoch : Nat) :
    entryKey vdk chain epoch = keyring vault.disk.keys epoch := by
  obtain ⟨core', ring⟩ := core.unlocks found
  have session := core'.session ⟨vdk, chain, data.cache, deviceKey, data.requiresUpgrade⟩
    (by rw [found.result])
  rw [← ring.keyring]
  exact session.selects epoch

/-- What a commit leaves of the tables. -/
structure Resolved (log log' : RevisionTables) (keep : RevisionId) (row : RevisionRow) :
    Prop where
  revisions : log'.revisions =
    supersedeLosers log.revisions row.accountId keep row.revisionId ++ [row]
  accounts : log'.accounts = updateAccountRow log.accounts row.accountId fun account =>
    { account with
      headRevisionId := row.revisionId
      lastModifiedAt := row.createdAt
      frozenPendingResolve := false
      tombstoned := row.isTombstone }
  dirty : log'.dirtyAccounts = stampDirty log.dirtyAccounts row

/-- A commit under an unused id goes through. -/
theorem resolveForkCommit_ok {log : RevisionTables} (keep : RevisionId) (row : RevisionRow)
    (unused : ∀ old ∈ log.revisions, old.revisionId ≠ row.revisionId) :
    ∃ log', resolveForkCommit log keep row = .ok log' ∧ Resolved log log' keep row := by
  have absent : ¬ (supersedeLosers log.revisions row.accountId keep row.revisionId).any
      fun old => old.revisionId = row.revisionId := by
    rw [List.any_eq_true]
    rintro ⟨old, member, same⟩
    obtain ⟨before, stored, rfl⟩ := List.mem_map.mp member
    apply unused before stored
    rw [decide_eq_true_eq] at same
    split at same <;> exact same
  simp only [resolveForkCommit, insertRevision, Table.insert?, if_neg absent, bind, Except.bind,
    pure, Except.pure]
  exact ⟨_, rfl, rfl, rfl, rfl⟩

namespace Resolved

variable {log log' : RevisionTables} {keep : RevisionId} {row : RevisionRow}

/-- The merge row is the only head. -/
theorem heads (done : Resolved log log' keep row) (parent : row.parent = keep)
    (unrevoked : row.revoked = false) (unsuperseded : row.supersededBy = none)
    (drawn : FreshDraw log row.revisionId) (apart : keep ≠ row.revisionId) :
    accountHeadRows log'.revisions row.accountId = [row] := by
  obtain ⟨change, rows, losers⟩ := rowsAfter_of_merge (parent ▸ done.revisions)
  have childless : hasUnrevokedChild log'.revisions row = false := by
    rw [hasUnrevokedChild, List.any_eq_false]
    intro child stored isChild
    simp only [Bool.and_eq_true, decide_eq_true_eq] at isChild
    rw [rows.revisions] at stored
    rcases List.mem_append.mp stored with mapped | new
    · obtain ⟨old, member, rfl⟩ := List.mem_map.mp mapped
      apply drawn.2 old member
      rw [← (rows.same old member).parent]
      exact isChild.1.1
    · obtain rfl := List.mem_singleton.mp new
      exact apart (parent ▸ isChild.1.1)
  have isHead : isHeadRow log'.revisions row = true := by
    simp [isHeadRow, unrevoked, unsuperseded, childless]
  have none : (log.revisions.map change).filter
      (fun old => old.accountId = row.accountId && isHeadRow log'.revisions old) = [] := by
    rw [List.filter_eq_nil_iff]
    intro changed mapped head
    obtain ⟨old, member, rfl⟩ := List.mem_map.mp mapped
    have stays : change old ∈ accountHeadRows log'.revisions row.accountId := by
      rw [accountHeadRows, List.mem_filter]
      refine ⟨?_, head⟩
      rw [rows.revisions]
      exact List.mem_append_left _ mapped
    obtain ⟨wasHead, notKept⟩ := rows.head_before unrevoked member stays
    exact losers old wasHead notKept (mem_accountHeadRows.mp stays).2.2.1
  rw [accountHeadRows]
  nth_rewrite 2 [rows.revisions]
  rw [List.filter_append, none, List.nil_append]
  simp [isHead]

theorem findAccount (done : Resolved log log' keep row) {account : AccountRow}
    (found : Store.findAccount log row.accountId = some account) :
    Store.findAccount log' row.accountId = some { account with
      headRevisionId := row.revisionId
      lastModifiedAt := row.createdAt
      frozenPendingResolve := false
      tombstoned := row.isTombstone } := by
  rw [Store.findAccount, done.accounts, findAccount_update, if_pos rfl]
  · rw [Store.findAccount] at found
    rw [found]
    rfl
  · exact fun _ => rfl

theorem unfrozen (done : Resolved log log' keep row) : ¬ Frozen log' row.accountId := by
  rintro ⟨account, member, frozen, same⟩
  rw [done.accounts, updateAccountRow] at member
  obtain ⟨old, -, rfl⟩ := List.mem_map.mp member
  split at frozen
  · cases frozen
  · next different =>
      rw [if_neg different] at same
      exact different same

theorem nodup_accounts (done : Resolved log log' keep row)
    (unique : (log.accounts.map AccountRow.accountId).Nodup) :
    (log'.accounts.map AccountRow.accountId).Nodup := by
  rw [done.accounts, updateAccountRow_map_accountId]
  · exact unique
  · exact fun _ => rfl

theorem nodup_revisions (done : Resolved log log' keep row) (parent : row.parent = keep)
    (unique : (log.revisions.map RevisionRow.revisionId).Nodup)
    (unused : ∀ old ∈ log.revisions, old.revisionId ≠ row.revisionId) :
    (log'.revisions.map RevisionRow.revisionId).Nodup := by
  obtain ⟨change, rows, -⟩ := rowsAfter_of_merge (parent ▸ done.revisions)
  exact rows.nodup_revisions unique unused

/-- Old rows change in the supersession column only. -/
theorem rows (done : Resolved log log' keep row) {old : RevisionRow}
    (stored : old ∈ log.revisions) :
    ∃ new ∈ log'.revisions, { new with supersededBy := old.supersededBy } = old := by
  rw [done.revisions]
  refine ⟨_, List.mem_append_left _ (List.mem_map_of_mem stored), ?_⟩
  split <;> rfl

theorem dirty_mem (done : Resolved log log' keep row) :
    ∃ marker ∈ log'.dirtyAccounts,
      marker.accountId = row.accountId ∧ marker.revisionId = row.revisionId := by
  rw [done.dirty, stampDirty, Table.insertIgnore]
  split
  · next taken =>
      obtain ⟨marker, member, same⟩ := List.any_eq_true.mp taken
      obtain ⟨sameAccount, sameId⟩ := Prod.mk.inj (of_decide_eq_true same)
      exact ⟨marker, member, sameAccount, sameId⟩
  · exact ⟨_, List.mem_append_right _ List.mem_cons_self, rfl, rfl⟩

/-- The rows of the other accounts are the same. -/
theorem ownRows_other (done : Resolved log log' keep row) (parent : row.parent = keep)
    {other : AccountId} (different : other ≠ row.accountId) :
    ownRows log'.revisions other = ownRows log.revisions other := by
  obtain ⟨change, rows, -⟩ := rowsAfter_of_merge (parent ▸ done.revisions)
  rw [rows.revisions, ownRows, ownRows, List.filter_append, List.filter_map]
  have new : [row].filter (fun old => old.accountId = other) = [] := by
    simp [different.symm]
  have owned : log.revisions.filter ((fun old => decide (old.accountId = other)) ∘ change) =
      log.revisions.filter fun old => old.accountId = other := by
    apply List.filter_congr
    intro old stored
    simp only [Function.comp_apply, (rows.same old stored).accountId]
  rw [new, List.append_nil, owned]
  calc (log.revisions.filter fun old => old.accountId = other).map change
      = (log.revisions.filter fun old => old.accountId = other).map id := by
        apply List.map_congr_left
        intro old member
        obtain ⟨stored, same⟩ := List.mem_filter.mp member
        apply rows.others old stored
        rw [of_decide_eq_true same]
        exact different
    _ = log.revisions.filter fun old => old.accountId = other := List.map_id _

end Resolved

/-- What is sealed into the merge: the identity again, or a tombstone of its own. -/
def mergedPayload (accountId : AccountId) (nowMs : Int) : HeadDecodeOutcome → IdentityPayload
  | .live identity => .live identity
  | _ => .tombstone accountId nowMs.toNat

/-- A validated resolution whose kept head opens commits its row. -/
theorem resolveFork_committed {vault : Vault} {active : ActiveState} {accountId : AccountId}
    {keep : RevisionId} {chosen : RevisionRow} {payload : IdentityPayload} {draw : WriteDraw}
    (fresh : checkSessionFreshness vault draw.now = (vault, .ok ()))
    (session : vault.active = some active)
    (validated : resolveForkValidate vault.disk.log accountId keep = .ok chosen)
    (merged : mergePayload vault active chosen draw.nowMs = .ok payload)
    (unused : ∀ row ∈ vault.disk.log.revisions, row.revisionId ≠ draw.revisionId) :
    ∃ log, Resolved vault.disk.log log keep
        (localRow vault active accountId keep chosen.schemaVersion payload chosen.isTombstone
          draw) ∧
      resolveFork vault accountId keep draw =
        (touchSession { vault with
          disk := { vault.disk with log }
          active := some (syncCache active accountId payload.identity?) } draw.now,
          .ok draw.revisionId) := by
  have run := withFreshSession_of_fresh (α := RevisionId) fresh session
  obtain ⟨log, committed, facts⟩ := resolveForkCommit_ok keep
    (localRow vault active accountId keep chosen.schemaVersion payload chosen.isTombstone draw)
    unused
  refine ⟨log, facts, ?_⟩
  apply (run _).2
  simp only [validated, merged, bind, Except.bind, committed]
  cases payload <;> rfl

namespace ForkAt

variable {vault vault' : Vault} {active : ActiveState} {accountId : AccountId}
  {kept : RevisionRow} {outcome : HeadDecodeOutcome} {draw : WriteDraw}

theorem stored (fork : ForkAt vault active accountId kept outcome draw) :
    findRevision vault.disk.log.revisions accountId kept.revisionId = some kept := by
  obtain ⟨stored, sameAccount, -⟩ := mem_accountHeadRows.mp fork.head
  rw [← sameAccount]
  exact findRevision_of_mem fork.revisions stored

theorem known (fork : ForkAt vault active accountId kept outcome draw) :
    outcome = .tombstone ∨ ∃ identity, outcome = .live identity :=
  fork.kind.imp And.right And.right

/-- Opening the kept head with the session's VDK. -/
theorem read (fork : ForkAt vault active accountId kept outcome draw) :
    ∃ key payload, entryKey active.vdk active.chain kept.vdkEpoch = some key ∧
      outcome = .ofPayload payload ∧
      readIdentityAt vault active kept.accountId kept.revisionId =
        if key = active.vdk then readPayload payload else .error .authenticationFailed := by
  obtain ⟨key, payload, sealedRow, decoded⟩ := sealedRow_of_decodeRow fork.decrypts fork.known
  obtain ⟨-, sameAccount, -⟩ := mem_accountHeadRows.mp fork.head
  refine ⟨key, payload, sealedRow.selected, decoded, ?_⟩
  simp only [readIdentityAt, sameAccount, fork.stored]
  exact readRow_sealedRow sealedRow active.vdk

/-- A head of another key is refused. -/
theorem selects_of_mergePayload (fork : ForkAt vault active accountId kept outcome draw)
    {merged : IdentityPayload} (made : mergePayload vault active kept draw.nowMs = .ok merged) :
    entryKey active.vdk active.chain kept.vdkEpoch = some active.vdk := by
  obtain ⟨key, payload, selected, -, read⟩ := fork.read
  rw [selected, Option.some.injEq]
  by_contra different
  rw [mergePayload, read, if_neg different] at made
  cases kind : kept.isTombstone <;> simp [kind] at made

/-- A head of the session's key is read back. -/
theorem mergePayload_eq (fork : ForkAt vault active accountId kept outcome draw)
    (selects : entryKey active.vdk active.chain kept.vdkEpoch = some active.vdk) :
    mergePayload vault active kept draw.nowMs =
      .ok (mergedPayload accountId draw.nowMs outcome) := by
  obtain ⟨key, payload, selected, decoded, read⟩ := fork.read
  obtain ⟨-, sameAccount, -⟩ := mem_accountHeadRows.mp fork.head
  rw [mergePayload, read, if_pos (Option.some.inj (selected.symm.trans selects))]
  rcases fork.kind with ⟨isTombstone, rfl⟩ | ⟨isLive, identity, rfl⟩
  · rw [isTombstone, sameAccount]
    cases payload with
    | tombstone _ _ => rfl
    | live _ => cases decoded
    | future _ => cases decoded
  · rw [isLive]
    cases payload with
    | live _ =>
        obtain rfl := HeadDecodeOutcome.live.inj decoded
        rfl
    | tombstone _ _ => cases decoded
    | future _ => cases decoded

/-! ## The call -/

theorem validates (fork : ForkAt vault active accountId kept outcome draw) :
    resolveForkValidate vault.disk.log accountId kept.revisionId = .ok kept := by
  obtain ⟨account, found, live⟩ := fork.live
  have heads : ∃ heads, accountHeads vault.disk.log accountId = .ok heads := by
    rw [accountHeads, if_pos]
    · exact ⟨_, rfl⟩
    · rw [List.any_eq_true]
      exact ⟨account, Table.mem_of_lookup found, decide_eq_true (Table.key_of_lookup found)⟩
  obtain ⟨heads, listed⟩ := heads
  have named := accountHeads_eq_ok listed
  have several : 1 < heads.length := by
    rw [named.length_eq, List.length_map]
    exact fork.forked
  have isHead : kept.revisionId ∈ heads := named.mem_iff.mpr (List.mem_map_of_mem fork.head)
  simp [resolveForkValidate, liveAccount, found, live, fork.stored, listed, isHead,
    Nat.not_le.mpr several, bind, Except.bind]

/-- The row a resolution adds. -/
def mergeRow (vault : Vault) (active : ActiveState) (accountId : AccountId) (kept : RevisionRow)
    (outcome : HeadDecodeOutcome) (draw : WriteDraw) : RevisionRow :=
  localRow vault active accountId kept.revisionId kept.schemaVersion
    (mergedPayload accountId draw.nowMs outcome) kept.isTombstone draw

/-- The call fails before it writes, or commits the merge row. -/
theorem resolveFork_cases (fork : ForkAt vault active accountId kept outcome draw) :
    (∃ error, resolveFork vault accountId kept.revisionId draw = (vault, .error error) ∧
        entryKey active.vdk active.chain kept.vdkEpoch ≠ some active.vdk) ∨
      ∃ log, entryKey active.vdk active.chain kept.vdkEpoch = some active.vdk ∧
        Resolved vault.disk.log log kept.revisionId
          (mergeRow vault active accountId kept outcome draw) ∧
        resolveFork vault accountId kept.revisionId draw =
          (touchSession { vault with
            disk := { vault.disk with log }
            active := some (syncCache active accountId
              (mergedPayload accountId draw.nowMs outcome).identity?) } draw.now,
            .ok draw.revisionId) := by
  by_cases selects : entryKey active.vdk active.chain kept.vdkEpoch = some active.vdk
  · obtain ⟨log, committed, resolved⟩ := resolveFork_committed fork.fresh fork.session
      fork.validates (fork.mergePayload_eq selects) fork.unused
    exact .inr ⟨log, selects, committed, resolved⟩
  · refine .inl ?_
    have run := withFreshSession_of_fresh (α := RevisionId) fork.fresh fork.session
    cases made : mergePayload vault active kept draw.nowMs with
    | ok merged => exact absurd (fork.selects_of_mergePayload made) selects
    | error error =>
        refine ⟨error, ?_, selects⟩
        apply (run _).1
        simp only [fork.validates, made, bind, Except.bind]

/-! ## What it leaves -/

section Merged

variable {log : RevisionTables}

/-- The merge row is sealed in the session's current epoch. -/
theorem mergeRow_sealed (fork : ForkAt vault active accountId kept outcome draw) :
    (mergeRow vault active accountId kept outcome draw).vdkEpoch =
        readCurrentEpoch vault.disk.keys ∧
      SealedRow (keyring vault.disk.keys) vault.vaultMeta.vaultId
        (mergeRow vault active accountId kept outcome draw) active.vdk
        (mergedPayload accountId draw.nowMs outcome) := by
  obtain ⟨key, payload, sealedRow, -⟩ := sealedRow_of_decodeRow fork.decrypts fork.known
  have session := fork.core.session active fork.session
  have epoch : (mergeRow vault active accountId kept outcome draw).vdkEpoch =
      readCurrentEpoch vault.disk.keys := by
    change stampEpoch active.chain.currentEpoch = _
    rw [session.currentEpoch, stampEpoch_of_fits fork.core.epochFits]
  refine ⟨epoch, ?_, draw.nonce.notPlaceholder, rfl, ?_, sealedRow.version⟩
  · rw [epoch, keyring_current, session.vdk]
  · cases outcome <;> trivial

/-- It decodes to what the kept head decodes to. -/
theorem ofPayload_merged (fork : ForkAt vault active accountId kept outcome draw) :
    HeadDecodeOutcome.ofPayload (mergedPayload accountId draw.nowMs outcome) = outcome := by
  rcases fork.known with rfl | ⟨identity, rfl⟩ <;> rfl

theorem mergeRow_heads (fork : ForkAt vault active accountId kept outcome draw)
    (done : Resolved vault.disk.log log kept.revisionId
      (mergeRow vault active accountId kept outcome draw)) :
    accountHeadRows log.revisions accountId =
      [mergeRow vault active accountId kept outcome draw] :=
  done.heads rfl rfl rfl fork.drawn
    (fork.unused kept (mem_accountHeadRows.mp fork.head).1)

/-- The vault after the commit. -/
structure After (vault vault' : Vault) (active : ActiveState) (log : RevisionTables) : Prop where
  disk : vault'.disk = { vault.disk with log }
  vaultMeta : vault'.vaultMeta = vault.vaultMeta
  session : ∃ active', vault'.active = some active' ∧ active'.vdk = active.vdk ∧
    active'.chain = active.chain

theorem singleHead (fork : ForkAt vault active accountId kept outcome draw)
    (done : Resolved vault.disk.log log kept.revisionId
      (mergeRow vault active accountId kept outcome draw))
    (after : After vault vault' active log) :
    ∃ account, SingleHead (lock vault') account
      (mergeRow vault active accountId kept outcome draw)
      (mergedPayload accountId draw.nowMs outcome) := by
  obtain ⟨account, found, -⟩ := fork.live
  obtain ⟨epoch, sealedRow⟩ := fork.mergeRow_sealed
  have lookup := done.findAccount found
  have flag : kept.isTombstone =
      (mergedPayload accountId draw.nowMs outcome).identity?.isNone := by
    rcases fork.kind with ⟨isTombstone, rfl⟩ | ⟨isLive, identity, rfl⟩
    · exact isTombstone
    · exact isLive
  have heads := fork.mergeRow_heads done
  have locked : (lock vault').disk = { vault.disk with log } := after.disk
  have lockedMeta : (lock vault').vaultMeta = vault.vaultMeta := after.vaultMeta
  refine ⟨_, by rw [locked]; exact lookup, rfl, rfl, flag, ?_, ⟨active.vdk, ?_⟩, ?_⟩
  · rw [locked]
    exact heads
  · rw [locked, lockedMeta]
    exact sealedRow
  · rw [locked]
    exact epoch

theorem unlocks (fork : ForkAt vault active accountId kept outcome draw)
    (done : Resolved vault.disk.log log kept.revisionId
      (mergeRow vault active accountId kept outcome draw))
    (after : After vault vault' active log)
    {input : UnlockInput} {before : Vault}
    (unlocked : unlock (lock vault) input = (before, .ok ())) :
    ∃ reopened, unlock (lock vault') input = (reopened, .ok ()) := by
  obtain ⟨vdk, chain, data, deviceKey, keys, found⟩ := unlock_eq_ok_iff.mp unlocked
  have core : KeyCore (lock vault) := fork.core.frame rfl rfl (.inr rfl)
  have selects := selects_of_unlocks core found
  obtain ⟨account, single⟩ := fork.singleHead done after
  have locked : (lock vault').disk = { vault.disk with log } := after.disk
  have lockedMeta : (lock vault').vaultMeta = vault.vaultMeta := after.vaultMeta
  obtain ⟨data', hydrated⟩ : ∃ data', buildActiveStateData log vault.vaultMeta.vaultId vdk chain =
      .ok data' := by
    apply hydrateAll_ok
    intro listed member
    obtain ⟨stored, isLive⟩ := List.mem_filter.mp member
    by_cases same : listed.accountId = accountId
    · have lookup : findAccount log accountId = some account := by
        have lookup := single.found
        rw [locked] at lookup
        exact lookup
      obtain rfl : listed = account :=
        List.inj_on_of_nodup_map (done.nodup_accounts fork.accounts) stored
          (Table.mem_of_lookup lookup) (same.trans (Table.key_of_lookup lookup).symm)
      have revisions := done.nodup_revisions rfl fork.revisions fork.unused
      have made := single.hydrated (by rw [locked]; exact revisions)
        (by rw [locked]; exact selects)
      rw [locked, lockedMeta] at made
      exact ⟨_, made⟩
    · have kept : listed ∈ vault.disk.log.accounts := by
        rw [done.accounts, updateAccountRow] at stored
        obtain ⟨old, oldStored, rfl⟩ := List.mem_map.mp stored
        split at same
        · next isTarget => exact absurd isTarget same
        · next isOther => rwa [if_neg isOther]
      obtain ⟨hydrated, made⟩ := hydrated_of_hydrateAll found.hydrated
        (List.mem_filter.mpr ⟨kept, isLive⟩)
      refine ⟨hydrated, ?_⟩
      rw [hydrateAccount_congr (done.ownRows_other rfl same)]
      exact made
  have opened : openKeys (lock vault').disk.keys (lock vault').vaultMeta input.password =
      .ok (vdk, chain) := by
    rw [locked, lockedMeta]
    exact found.opened
  have restored : buildActiveStateData (lock vault').disk.log (lock vault').vaultMeta.vaultId vdk
      chain = .ok data' := by
    rw [locked, lockedMeta]
    exact hydrated
  have device : loadOrRegisterDevice (lock vault').disk.keys (lock vault').vaultMeta.vaultId vdk
      input.generated input.now = .ok (deviceKey, keys) := by
    rw [locked, lockedMeta]
    exact found.device
  exact ⟨_, unlock_eq_ok_iff.mpr
    ⟨vdk, chain, data', deviceKey, keys, found.presence, opened, restored, device, rfl⟩⟩

theorem resolvedTo (fork : ForkAt vault active accountId kept outcome draw)
    (done : Resolved vault.disk.log log kept.revisionId
      (mergeRow vault active accountId kept outcome draw))
    (after : After vault vault' active log) :
    ResolvedTo vault vault' accountId kept outcome draw.revisionId := by
  obtain ⟨account, found, -⟩ := fork.live
  have lookup := done.findAccount found
  have heads := fork.mergeRow_heads done
  have unforked : accountId ∉ allForkedAccounts log := by
    rw [mem_allForkedAccounts, heads]
    simp
  constructor
  case unused => exact fork.unused
  case heads =>
      rw [after.disk, accountHeads, if_pos, heads]
      · rfl
      · rw [List.any_eq_true]
        exact ⟨_, Table.mem_of_lookup lookup, decide_eq_true (Table.key_of_lookup lookup)⟩
  case sealedAgain =>
      obtain ⟨active', session, sameVdk, sameChain⟩ := after.session
      obtain ⟨-, sealedRow⟩ := fork.mergeRow_sealed
      have selects := (fork.core.session active fork.session).selects
      refine ⟨mergeRow vault active accountId kept outcome draw, ?_, rfl, rfl, rfl, active',
        session, ?_⟩
      · rw [after.disk, done.revisions]
        exact List.mem_append_right _ List.mem_cons_self
      · rw [after.vaultMeta, sameVdk, sameChain,
          decodeRow_sealedRow (sealedRow.congr (selects _)), fork.ofPayload_merged]
  case unfrozen =>
      rw [after.disk]
      exact done.unfrozen
  case unreported =>
      rw [after.disk]
      refine ⟨unforked, ?_⟩
      intro reports listed reported
      exact (mem_union_of_listConflicts listed reported).elim unforked done.unfrozen
  case rows =>
      rw [after.disk]
      exact fun _ stored => done.rows stored
  case dirty =>
      rw [after.disk]
      exact done.dirty_mem
  case unlocks =>
      intro input before unlocked
      exact fork.unlocks done after unlocked
  case read =>
      intro input reopened now unlocked fresh
      obtain ⟨merged, single⟩ := fork.singleHead done after
      have locked : (lock vault').disk = { vault.disk with log } := after.disk
      have core : KeyCore (lock vault') :=
        fork.core.frame after.vaultMeta (by rw [locked]) (.inr rfl)
      have answer := single.accountGet core
        (by rw [locked]; exact done.nodup_accounts fork.accounts)
        (by rw [locked]; exact done.nodup_revisions rfl fork.revisions fork.unused) unlocked fresh
      rw [fork.ofPayload_merged] at answer
      exact answer

end Merged

end ForkAt

/-- A resolution that fails leaves the file as it was. -/
theorem resolveFork_error {vault vault' : Vault} {accountId : AccountId} {keep : RevisionId}
    {draw : WriteDraw} {error : StoreError}
    (failed : resolveFork vault accountId keep draw = (vault', .error error)) :
    vault'.disk = vault.disk := by
  have call := resolveFork_headCall vault accountId keep draw
  rw [failed] at call
  cases call with
  | failed _ _ idle => exact idle.disk

/-- A resolution towards a head this device can decrypt does what it is meant to do exactly
where the key of that head's epoch is the session's VDK, and one that fails leaves the tables as
they were. -/
theorem fork_resolution_iff {vault : Vault} {active : ActiveState} {accountId : AccountId}
    {kept : RevisionRow} {outcome : HeadDecodeOutcome} {draw : WriteDraw}
    (fork : ForkAt vault active accountId kept outcome draw) :
    ((∃ vault', resolveFork vault accountId kept.revisionId draw =
          (vault', .ok draw.revisionId) ∧
        ResolvedTo vault vault' accountId kept outcome draw.revisionId) ↔
      entryKey active.vdk active.chain kept.vdkEpoch = some active.vdk) ∧
    ∀ other keep draw vault' error, resolveFork vault other keep draw = (vault', .error error) →
      vault'.disk = vault.disk := by
  refine ⟨?_, fun _ _ _ _ _ failed => resolveFork_error failed⟩
  rcases fork.resolveFork_cases with ⟨error, failed, differs⟩ | ⟨log, selects, done, resolved⟩
  · constructor
    · rintro ⟨vault', resolved, -⟩
      rw [failed] at resolved
      cases (Prod.mk.inj resolved).2
    · intro selects
      exact absurd selects differs
  · refine ⟨fun _ => selects, fun _ => ⟨_, resolved, ?_⟩⟩
    apply fork.resolvedTo done
    refine ⟨?_, ?_, _, touchSession_active _ _, ?_, ?_⟩
    · rw [touchSession_disk]
    · rw [touchSession_vaultMeta]
    · simp
    · simp

/-! ## Concrete forks -/

namespace Sample

/-- An account edited once, and forked by a foreign event. -/
def forking : List HeadOp :=
  [.unlock (unlockInput ⟨[1]⟩), .accountAdd (.ok identity) ⟨1⟩ (draw 51),
    .accountUpdate ⟨1⟩ .ok (draw 52), .ingest foreign 0 0]

def forked : Vault := (forking.foldl heads headVault).vault

/-- Its session. -/
def forkedSession : ActiveState := ⟨⟨2⟩, ⟨[], 0⟩, [(⟨1⟩, identity)], device, []⟩

/-- The local head. -/
def editedRow : RevisionRow :=
  { revisionId := ⟨52⟩
    accountId := ⟨1⟩
    parent := ⟨51⟩
    deviceId := ⟨11⟩
    schemaVersion := 0
    createdAt := 0
    encPayload := sealPayload ⟨2⟩ ⟨53⟩ ⟨⟨7⟩, ⟨1⟩, ⟨51⟩, 0⟩ (.live identity)
    encNonce := ⟨53⟩
    isTombstone := false }

/-- A foreign first revision of account 1. -/
def secondGenesis : RevisionEvent :=
  ⟨⟨⟨7⟩, ⟨1⟩, .genesisParent, ⟨99⟩, 2, .bytes [1]⟩, ⟨1, 1, 0⟩⟩

/-- An account written, then a rotation, a new session, and a foreign sibling. -/
def rotatedFork : Vault :=
  run vault [unlock ⟨[1]⟩, add 1 1, onboard, directory, rotate 8 9 ⟨[2]⟩, unlock ⟨[2]⟩,
    .ingestPending secondGenesis 1 1 0 0]

end Sample

/-- The local head of the fork is of the session's epoch, and kept. -/
theorem fork_resolution_local_head :
    ∃ vault', resolveFork Sample.forked ⟨1⟩ ⟨52⟩ (Sample.draw 60) = (vault', .ok ⟨60⟩) ∧
      ResolvedTo Sample.forked vault' ⟨1⟩ Sample.editedRow (.live Sample.identity) ⟨60⟩ := by
  have run : Reaches Sample.heads (fun world op => op.Fresh world) Sample.headVault
      (Sample.forking.foldl Sample.heads Sample.headVault) :=
    .foldl _ (by decide +kernel)
  have inv := run.invariant (WorldInv AccountIdentity.displayName) (fun world op inv fresh =>
    inv.step (headStep_effect AccountIdentity.displayName Sample.hash world op fresh))
    (.create ⟨[1]⟩ ⟨⟨7⟩, ⟨1⟩, ⟨2⟩, ⟨3⟩, 0⟩)
  have fork : ForkAt Sample.forked Sample.forkedSession ⟨1⟩ Sample.editedRow
      (.live Sample.identity) (Sample.draw 60) := by
    refine ⟨inv.keys, inv.tables.accounts, inv.tables.revisions, ?_, ?_, ?_, ?_, ?_, ?_, ?_, ?_, ?_⟩
    · decide +kernel
    · decide +kernel
    · exact ⟨⟨⟨1⟩, 0, 0, false, ⟨52⟩, true⟩, by decide +kernel, rfl⟩
    · decide +kernel
    · decide +kernel
    · decide +kernel
    · exact .inr ⟨rfl, _, rfl⟩
    · decide +kernel
    · decide +kernel
  exact (fork_resolution_iff fork).1.mpr (by decide)

/-- A head of the epoch before a rotation decodes, and cannot be kept. -/
theorem earlier_head_unresolvable :
    Sample.rotatedFork.active.map (fun active => (active.vdk, active.chain)) =
        some (⟨8⟩, ⟨[(0, ⟨2⟩)], 1⟩) ∧
      (findAccount Sample.rotatedFork.disk.log ⟨1⟩).map AccountRow.tombstoned = some false ∧
      accountHeads Sample.rotatedFork.disk.log ⟨1⟩ = .ok [⟨1⟩, ⟨2⟩] ∧
      addedRow 1 0 ⟨2⟩ ∈ accountHeadRows Sample.rotatedFork.disk.log.revisions ⟨1⟩ ∧
      decodeRow ⟨7⟩ ⟨8⟩ ⟨[(0, ⟨2⟩)], 1⟩ (addedRow 1 0 ⟨2⟩) = .ok (.live Sample.identity) ∧
      (resolveFork Sample.rotatedFork ⟨1⟩ ⟨1⟩ (Sample.draw 60)).2 =
        .error .authenticationFailed := by
  decide +kernel

end Pangolin
