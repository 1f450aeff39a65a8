import Pangolin.Runs.ForkResolution
import Pangolin.Runs.SessionExpiry
import Pangolin.Store.ChainSync

/-!
# Ways out of a conflict

A reported account leaves the report through `resolve_fork`, which closes a fork, or through
`clear_frozen`, which ends a freeze.  The one refuses a deleted account and one with a single
head, and has to open the head it keeps; the other leaves a fork a fork, and the account readable
only if its head is.  So there are accounts, with revisions this device can decrypt, that no call
takes out of the report: a deleted one with a second head, and one whose heads are all foreign.
-/

namespace Pangolin

open Symbolic Crypto Store Transition

/-! ## The machine -/

/-- The account calls and ingests, and what a chain sync does to the rows. -/
inductive ExitOp where
  | head (op : HeadOp)
  | stampSigner (event : RevisionEvent) (signer : EvmAddress)
  | reevaluate (set : List EvmAddress)

def exitStep (hash : CanonicalHash) (vault : Vault) : ExitOp → Vault
  | .head op => (headStep (fun _ => ()) hash ⟨vault, []⟩ op).vault
  | .stampSigner event signer => (stampRecoveredSigner vault event signer).1
  | .reevaluate set => (reevaluateRevocationAgainstSet vault set).1

/-! ## The invariant -/

/-- Every row opens here or has no nonce, so no account needs a newer build, and a session ends
at its absolute maximum. -/
structure ExitInv (vault : Vault) : Prop where
  keys : KeyCore vault
  accounts : (vault.disk.log.accounts.map AccountRow.accountId).Nodup
  revisions : (vault.disk.log.revisions.map RevisionRow.revisionId).Nodup
  rows : ∀ row ∈ vault.disk.log.revisions,
    Readable (keyring vault.disk.keys) vault.vaultMeta.vaultId row
  upToDate : ∀ active, vault.active = some active → active.requiresUpgrade = []
  deadline : ∀ expiresAt lastProofAt startedAt,
    vault.session = .active expiresAt lastProofAt startedAt → expiresAt ≤ startedAt + absoluteMax

theorem ExitInv.create (password : Password) (draw : CreateDraw) :
    ExitInv (create password draw) where
  keys := .create password draw
  accounts := List.nodup_nil
  revisions := List.nodup_nil
  rows := by simp [Store.create]
  upToDate := by simp [Store.create]
  deadline := by simp [Store.create]

theorem readable_of_sameContent {ring : Nat → Option VdkKey} {vaultId : VaultId}
    {old new : RevisionRow} (same : SameContent old new)
    (readable : Readable ring vaultId old) : Readable ring vaultId new := by
  rcases readable with placeholder | ⟨key, payload, sealedRow⟩
  · exact .inl (same.encNonce.trans placeholder)
  · exact .inr ⟨key, payload, same.sealedRow sealedRow⟩

/-! ## Steps -/

/-- The rows after a call are rows from before, up to bookkeeping, or came without a nonce. -/
def RowsFrom (before after : List RevisionRow) : Prop :=
  ∀ row ∈ after, row.encNonce = .placeholder ∨ ∃ old ∈ before, SameContent old row

theorem RowsFrom.of_map {before : List RevisionRow} {change : RevisionRow → RevisionRow}
    (same : ∀ row, SameContent row (change row)) : RowsFrom before (before.map change) := by
  intro row member
  obtain ⟨old, stored, rfl⟩ := List.mem_map.mp member
  exact .inr ⟨old, stored, same old⟩

theorem ingestChainRevision_rowsFrom (hash : CanonicalHash) (vault : Vault)
    (event : RevisionEvent) (nowMs : Int) (now : Nat) :
    RowsFrom vault.disk.log.revisions
      (ingestChainRevision hash vault event nowMs now).1.disk.log.revisions := by
  have unchanged : RowsFrom vault.disk.log.revisions vault.disk.log.revisions :=
    fun row stored => .inr ⟨row, stored, .refl row⟩
  unfold ingestChainRevision
  simp only [maybeExpireActiveSession_disk]
  split
  · simpa using unchanged
  · next log outcome ingested =>
      rw [touchSession_disk, withLog_log]
      rcases ingestLog_cases ingested with ⟨rfl, -, -⟩ | ⟨-, -, -, -, stamped | inserted⟩
      · exact unchanged
      · obtain ⟨twin, -, rfl, -⟩ := stamped
        apply RowsFrom.of_map
        intro row
        split
        · exact ⟨rfl, rfl, rfl, rfl, rfl, rfl, rfl⟩
        · exact .refl row
      · obtain ⟨-, rfl, -⟩ := inserted
        intro row member
        rcases List.mem_append.mp member with old | new
        · exact unchanged row old
        · obtain rfl := List.mem_singleton.mp new
          exact .inl rfl

namespace ExitInv

variable {vault vault' : Vault} {hash : CanonicalHash}

/-- A call that writes at most the log, and no row of its own. -/
theorem logOnly (inv : ExitInv vault) (call : LogOnly vault vault')
    (accounts : (vault'.disk.log.accounts.map AccountRow.accountId).Nodup)
    (revisions : (vault'.disk.log.revisions.map RevisionRow.revisionId).Nodup)
    (rows : RowsFrom vault.disk.log.revisions vault'.disk.log.revisions)
    (deadline : ∀ expiresAt lastProofAt startedAt,
      vault'.session = .active expiresAt lastProofAt startedAt →
        expiresAt ≤ startedAt + absoluteMax) : ExitInv vault' where
  keys := inv.keys.frame call.vaultMeta call.keys call.active
  accounts := accounts
  revisions := revisions
  rows := by
    intro row member
    rw [call.keys, call.vaultMeta]
    rcases rows row member with placeholder | ⟨old, stored, same⟩
    · exact .inl placeholder
    · exact readable_of_sameContent same (inv.rows old stored)
  upToDate := by
    intro active session
    rcases call.active with same | dropped
    · exact inv.upToDate active (same ▸ session)
    · rw [dropped] at session
      cases session
  deadline := deadline

/-- What a call does to the session keeps it below its maximum. -/
theorem deadline_of_step (inv : ExitInv vault) {now : Nat}
    (step : SessionStep now vault vault') (expiresAt lastProofAt startedAt : Nat)
    (session : vault'.session = .active expiresAt lastProofAt startedAt) :
    expiresAt ≤ startedAt + absoluteMax := by
  cases step with
  | kept same _ _ => exact inv.deadline _ _ _ (same ▸ session)
  | ended _ lapsed => exact absurd session (lapsed _ _ _)
  | touched _ _ startedAt' _ _ after _ =>
      rw [after] at session
      obtain ⟨rfl, -, rfl⟩ := SessionState.active.inj session
      exact nextIdleDeadline_le _ _ _

end ExitInv

@[simp] theorem indexWrite_vault {α : Type} (world : IndexedVault Unit) (accountId : AccountId)
    (draw : WriteDraw) (call : Call α) :
    (indexWrite (fun _ => ()) world accountId draw call).vault = call.1 := by
  obtain ⟨vault, result⟩ := call
  cases result <;> rfl

@[simp] theorem indexUnlock_vault (world : IndexedVault Unit) (call : Call Unit) :
    (indexUnlock (fun _ => ()) world call).vault = call.1 := by
  obtain ⟨vault, result⟩ := call
  cases result <;> rfl

theorem clearFrozen_sessionStep (vault : Vault) (accountId : AccountId) (chosen : RevisionId)
    (nowMs : Int) (now : Nat) :
    SessionStep now vault (clearFrozen vault accountId chosen nowMs now).1 := by
  have expired := (maybeExpire_sessionStep vault now).1
  unfold clearFrozen
  simp only
  split
  · exact expired
  split
  · exact expired
  split
  · exact expired
  · exact softCall_sessionStep rfl rfl rfl

theorem ingestChainRevision_sessionStep (hash : CanonicalHash) (vault : Vault)
    (event : RevisionEvent) (nowMs : Int) (now : Nat) :
    SessionStep now vault (ingestChainRevision hash vault event nowMs now).1 := by
  have expired := (maybeExpire_sessionStep vault now).1
  unfold ingestChainRevision
  simp only
  split
  · exact expired
  · exact softCall_sessionStep rfl rfl rfl

/-- Every account call and ingest starts, keeps, ends or touches the session. -/
theorem headStep_sessionStep (hash : CanonicalHash) (vault : Vault) (op : HeadOp) :
    (∃ now, SessionStep now vault (exitStep hash vault (.head op))) ∨
      ∃ now idle, (exitStep hash vault (.head op)).session =
        .active (nextIdleDeadline now now idle) now now := by
  cases op with
  | unlock input =>
      simp only [exitStep, headStep, indexUnlock_vault]
      rcases unlock_session vault input with ⟨error, failed⟩ | ⟨vault', unlocked, session, -⟩
      · rw [failed]
        exact .inl ⟨0, .refl 0 vault⟩
      · rw [unlocked]
        exact .inr ⟨_, _, session⟩
  | lock => exact .inl ⟨0, .ended rfl (by simp [exitStep, headStep, lock])⟩
  | reopen placeholder sessionIdle =>
      exact .inl ⟨0, .ended rfl (by simp [exitStep, headStep, openVault])⟩
  | accountAdd validated accountId draw =>
      simp only [exitStep, headStep, indexWrite_vault]
      exact .inl ⟨_, (accountAdd_freshCall vault validated accountId draw).gated.1⟩
  | accountUpdate accountId patch draw =>
      simp only [exitStep, headStep, indexWrite_vault]
      exact .inl ⟨_, (accountUpdate_freshCall vault accountId patch draw).gated.1⟩
  | deleteAccount accountId draw =>
      simp only [exitStep, headStep, indexWrite_vault]
      exact .inl ⟨_, (deleteAccount_freshCall vault accountId draw).gated.1⟩
  | resolveFork accountId keep draw =>
      simp only [exitStep, headStep, indexWrite_vault]
      exact .inl ⟨_, (resolveFork_freshCall vault accountId keep draw).gated.1⟩
  | clearFrozen accountId chosen nowMs now =>
      exact .inl ⟨_, clearFrozen_sessionStep vault accountId chosen nowMs now⟩
  | ingest event nowMs now =>
      exact .inl ⟨_, ingestChainRevision_sessionStep hash vault event nowMs now⟩

namespace ExitInv

variable {vault vault' : Vault} {hash : CanonicalHash}

theorem head_deadline (inv : ExitInv vault) (hash : CanonicalHash) (op : HeadOp)
    (expiresAt lastProofAt startedAt : Nat)
    (session : (exitStep hash vault (.head op)).session =
      .active expiresAt lastProofAt startedAt) : expiresAt ≤ startedAt + absoluteMax := by
  rcases headStep_sessionStep hash vault op with ⟨now, step⟩ | ⟨now, idle, started⟩
  · exact inv.deadline_of_step step _ _ _ session
  · rw [started] at session
    obtain ⟨rfl, -, rfl⟩ := SessionState.active.inj session
    exact nextIdleDeadline_le _ _ _

/-- A local edit adds a row it sealed itself. -/
theorem wrote (inv : ExitInv vault) {active : ActiveState} {row : RevisionRow}
    {payload : IdentityPayload} (write : HeadWrite vault vault' active row payload)
    (deadline : ∀ expiresAt lastProofAt startedAt,
      vault'.session = .active expiresAt lastProofAt startedAt →
        expiresAt ≤ startedAt + absoluteMax) : ExitInv vault' := by
  obtain ⟨change, rows⟩ := write.log.rowsAfter
  have keys : vault'.disk.keys = vault.disk.keys := by rw [write.disk]
  constructor
  case keys => exact inv.keys.write write.toLocalWrite
  case accounts => exact write.log.nodup_accounts inv.accounts
  case revisions => exact rows.nodup_revisions inv.revisions write.fresh
  case rows =>
      intro stored member
      rw [keys, write.vaultMeta]
      rw [rows.revisions] at member
      rcases List.mem_append.mp member with mapped | new
      · obtain ⟨old, oldStored, rfl⟩ := List.mem_map.mp mapped
        exact readable_of_sameContent (rows.same old oldStored).toSameContent
          (inv.rows old oldStored)
      · obtain rfl := List.mem_singleton.mp new
        exact .inr ⟨active.vdk, payload, (inv.keys.sealedRow_of_write write.toLocalWrite).2⟩
  case upToDate =>
      intro opened session
      obtain rfl := Option.some.inj (write.cached.symm.trans session)
      rw [syncCache_requiresUpgrade]
      exact inv.upToDate active write.session
  case deadline => exact deadline

theorem unlocked (inv : ExitInv vault) {input : UnlockInput} {vdk : VdkKey} {chain : VdkChain}
    {data : ActiveStateData} {deviceKey : DeviceKey} {keys : KeyTables}
    (found : Unlocks vault input vault' vdk chain data deviceKey keys) : ExitInv vault' := by
  obtain ⟨core, ring⟩ := inv.keys.unlocks found
  have selects := selects_of_unlocks inv.keys found
  have sameLog : vault'.disk.log = vault.disk.log := by rw [found.result]
  have sameMeta : vault'.vaultMeta = vault.vaultMeta := by rw [found.result]
  have upToDate : data.requiresUpgrade = [] := by
    apply hydrateAll_upToDate _ found.hydrated
    intro row stored
    rcases inv.rows row stored with placeholder | ⟨key, payload, sealedRow⟩
    · exact .inl placeholder
    · exact .inr ⟨key, payload, sealedRow.congr (selects _)⟩
  constructor
  case keys => exact core
  case accounts => rw [sameLog]; exact inv.accounts
  case revisions => rw [sameLog]; exact inv.revisions
  case rows => rw [sameLog, sameMeta, ring.keyring]; exact inv.rows
  case upToDate =>
      intro active session
      rw [found.result] at session
      obtain rfl := Option.some.inj session
      exact upToDate
  case deadline =>
      intro expiresAt lastProofAt startedAt session
      rw [found.result] at session
      obtain ⟨rfl, -, rfl⟩ := SessionState.active.inj session
      exact nextIdleDeadline_le _ _ _

/-- A call that leaves the file alone. -/
theorem idle (inv : ExitInv vault) (disk : vault'.disk = vault.disk)
    (vaultMeta : vault'.vaultMeta = vault.vaultMeta)
    (active : vault'.active = vault.active ∨ vault'.active = none)
    (deadline : ∀ expiresAt lastProofAt startedAt,
      vault'.session = .active expiresAt lastProofAt startedAt →
        expiresAt ≤ startedAt + absoluteMax) : ExitInv vault' := by
  apply inv.logOnly ⟨vaultMeta, by rw [disk], active⟩
  · rw [disk]
    exact inv.accounts
  · rw [disk]
    exact inv.revisions
  · rw [disk]
    exact fun row stored => .inr ⟨row, stored, .refl row⟩
  · exact deadline

theorem headCall {α : Type} {accountId : AccountId} {drawn : RevisionId} {call : Call α}
    (inv : ExitInv vault) (known : HeadCall vault accountId drawn call)
    (deadline : ∀ expiresAt lastProofAt startedAt,
      call.1.session = .active expiresAt lastProofAt startedAt →
        expiresAt ≤ startedAt + absoluteMax) : ExitInv call.1 := by
  cases known with
  | failed vault' error idle => exact inv.idle idle.disk idle.vaultMeta idle.active deadline
  | wrote vault' value active row payload write _ _ => exact inv.wrote write deadline

theorem ingested (inv : ExitInv vault) (event : RevisionEvent) (nowMs : Int) (now : Nat) :
    ExitInv (ingestChainRevision hash vault event nowMs now).1 := by
  have deadline := inv.deadline_of_step
    (ingestChainRevision_sessionStep hash vault event nowMs now)
  have rows := ingestChainRevision_rowsFrom hash vault event nowMs now
  have call := ingestChainRevision_logOnly hash vault event nowMs now
  cases ingestChainRevision_ingested hash vault event nowMs now with
  | kept change same revisions accounts =>
      refine inv.logOnly call (accounts ▸ inv.accounts) ?_ rows deadline
      have ids : (vault.disk.log.revisions.map change).map RevisionRow.revisionId =
          vault.disk.log.revisions.map RevisionRow.revisionId := by
        rw [List.map_map]
        apply List.map_congr_left
        intro row _
        exact (same row).revisionId
      rw [revisions, ids]
      exact inv.revisions
  | inserted row isTombstone storedAt _ fresh revisions accounts =>
      refine inv.logOnly call ?_ ?_ rows deadline
      · rw [accounts]
        exact nodup_freezeAccount inv.accounts _ _ _ _
      · rw [revisions]
        exact nodup_append_fresh inv.revisions fresh

theorem cleared (inv : ExitInv vault) (accountId : AccountId) (chosen : RevisionId)
    (nowMs : Int) (now : Nat) : ExitInv (clearFrozen vault accountId chosen nowMs now).1 := by
  have deadline := inv.deadline_of_step
    (clearFrozen_sessionStep vault accountId chosen nowMs now)
  have call := clearFrozen_logOnly vault accountId chosen nowMs now
  rcases clearFrozen_cases vault accountId chosen nowMs now with same | ⟨row, clears⟩
  · exact inv.idle (call.disk.trans (by rw [same])) call.vaultMeta call.active deadline
  · apply inv.logOnly call
    · rw [clears.accounts]
      exact inv.accounts
    · rw [clears.revisions]
      exact inv.revisions
    · rw [clears.revisions]
      exact fun stored member => .inr ⟨stored, member, .refl stored⟩
    · exact deadline

/-- Rewriting bookkeeping columns. -/
theorem mapped (inv : ExitInv vault) {change : RevisionRow → RevisionRow}
    (same : ∀ row, SameContent row (change row)) :
    ExitInv (withLog vault { vault.disk.log with
      revisions := vault.disk.log.revisions.map change }) := by
  refine inv.logOnly ⟨rfl, rfl, .inl rfl⟩ inv.accounts ?_ (.of_map same) inv.deadline
  rw [withLog_log, List.map_map]
  have ids : RevisionRow.revisionId ∘ change = RevisionRow.revisionId := by
    funext row
    exact (same row).revisionId
  rw [ids]
  exact inv.revisions

theorem step (inv : ExitInv vault) (op : ExitOp) : ExitInv (exitStep hash vault op) := by
  cases op with
  | head op =>
      have deadline := inv.head_deadline hash op
      cases op with
      | unlock input =>
          simp only [exitStep, headStep, indexUnlock_vault] at deadline ⊢
          cases result : unlock vault input with
          | mk vault' outcome =>
              cases outcome with
              | error error =>
                  obtain rfl := unlock_error result
                  exact inv
              | ok _ =>
                  obtain ⟨vdk, chain, data, deviceKey, keys, found⟩ := unlock_eq_ok_iff.mp result
                  exact inv.unlocked found
      | lock => exact inv.idle rfl rfl (.inr rfl) deadline
      | reopen placeholder sessionIdle =>
          exact inv.idle rfl inv.keys.metaSynced.symm (.inr rfl) deadline
      | accountAdd validated accountId draw =>
          simp only [exitStep, headStep, indexWrite_vault] at deadline ⊢
          exact inv.headCall (accountAdd_headCall vault validated accountId draw) deadline
      | accountUpdate accountId patch draw =>
          simp only [exitStep, headStep, indexWrite_vault] at deadline ⊢
          exact inv.headCall (accountUpdate_headCall vault accountId patch draw) deadline
      | deleteAccount accountId draw =>
          simp only [exitStep, headStep, indexWrite_vault] at deadline ⊢
          exact inv.headCall (deleteAccount_headCall vault accountId draw) deadline
      | resolveFork accountId keep draw =>
          simp only [exitStep, headStep, indexWrite_vault] at deadline ⊢
          exact inv.headCall (resolveFork_headCall vault accountId keep draw) deadline
      | clearFrozen accountId chosen nowMs now => exact inv.cleared accountId chosen nowMs now
      | ingest event nowMs now => exact inv.ingested event nowMs now
  | stampSigner event signer =>
      simp only [exitStep, stampRecoveredSigner]
      split
      · exact inv
      split
      · exact inv
      · apply inv.mapped
        intro row
        split
        · exact ⟨rfl, rfl, rfl, rfl, rfl, rfl, rfl⟩
        · exact .refl row
  | reevaluate set =>
      apply inv.mapped
      intro row
      unfold reevaluateRow
      split
      · exact ⟨rfl, rfl, rfl, rfl, rfl, rfl, rfl⟩
      · exact .refl row

end ExitInv

/-! ## Leaving -/

/-- The row opens under the session's VDK, as an identity or as a tombstone. -/
def Opens (vault : Vault) (active : ActiveState) (row : RevisionRow) : Prop :=
  (∃ identity, readRow vault.vaultMeta.vaultId active.vdk row = .ok identity) ∨
    readRow vault.vaultMeta.vaultId active.vdk row = .error .accountTombstoned

/-- It opens as what its column says. -/
def OpensAsFlagged (vault : Vault) (active : ActiveState) (row : RevisionRow) : Prop :=
  (row.isTombstone = true ∧
      readRow vault.vaultMeta.vaultId active.vdk row = .error .accountTombstoned) ∨
    (row.isTombstone = false ∧
      ∃ identity, readRow vault.vaultMeta.vaultId active.vdk row = .ok identity)

/-- The account is out of the report, and reads as deleted or as an unrevoked revision. -/
structure OutOfReport (vault : Vault) (accountId : AccountId) (now : Nat) : Prop where
  unreported : accountId ∉ allForkedAccounts vault.disk.log ∧ ¬ Frozen vault.disk.log accountId
  unlisted : ∀ reports, listConflicts vault.disk.log = .ok reports →
    accountId ∉ reports.map ConflictReport.accountId
  read : (accountGet vault accountId now).2 = .error .accountTombstoned ∨
    ∃ row ∈ vault.disk.log.revisions, row.accountId = accountId ∧ row.revoked = false ∧
      ∃ active identity, vault.active = some active ∧
        readRow vault.vaultMeta.vaultId active.vdk row = .ok identity ∧
        (accountGet vault accountId now).2 = .ok (row.revisionId, identity)

/-- One of the two calls succeeds and takes the account out. -/
def CanLeave (vault : Vault) (accountId : AccountId) (draw : WriteDraw) : Prop :=
  (∃ keep vault', resolveFork vault accountId keep draw = (vault', .ok draw.revisionId) ∧
      OutOfReport vault' accountId draw.now) ∨
    ∃ chosen vault', clearFrozen vault accountId chosen draw.nowMs draw.now = (vault', .ok ()) ∧
      OutOfReport vault' accountId draw.now

/-- The account has one head and is deleted or that head opens, or it has several, is not
deleted, and one of them opens as what it is flagged. -/
def HasExit (vault : Vault) (active : ActiveState) (accountId : AccountId) : Prop :=
  ∃ account, findAccount vault.disk.log accountId = some account ∧
    ((∃ head, accountHeadRows vault.disk.log.revisions accountId = [head] ∧
        (account.tombstoned = true ∨ Opens vault active head)) ∨
      (1 < (accountHeadRows vault.disk.log.revisions accountId).length ∧
        account.tombstoned = false ∧
        ∃ head ∈ accountHeadRows vault.disk.log.revisions accountId,
          OpensAsFlagged vault active head))

theorem checkSessionFreshness_iff {vault : Vault} {now : Nat} :
    checkSessionFreshness vault now = (vault, .ok ()) ↔
      ∃ expiresAt lastProofAt startedAt,
        vault.session = .active expiresAt lastProofAt startedAt ∧ now ≤ expiresAt := by
  constructor
  · intro fresh
    unfold checkSessionFreshness at fresh
    split at fresh
    · cases (Prod.mk.inj fresh).2
    · cases (Prod.mk.inj fresh).2
    · cases (Prod.mk.inj fresh).2
    · next expiresAt lastProofAt startedAt session =>
        split at fresh
        · cases (Prod.mk.inj fresh).2
        · next inTime => exact ⟨_, _, _, session, Nat.not_lt.mp inTime⟩
  · rintro ⟨expiresAt, lastProofAt, startedAt, session, inTime⟩
    simp only [checkSessionFreshness, session, if_neg (Nat.not_lt.mpr inTime)]

/-- A session that was fresh is so after the touch of the call. -/
theorem fresh_touchSession {vault middle : Vault} {now : Nat} (inv : ExitInv vault)
    (fresh : checkSessionFreshness vault now = (vault, .ok ()))
    (session : middle.session = vault.session) :
    checkSessionFreshness (touchSession middle now) now = (touchSession middle now, .ok ()) := by
  obtain ⟨expiresAt, lastProofAt, startedAt, running, inTime⟩ := checkSessionFreshness_iff.mp fresh
  have below := inv.deadline _ _ _ running
  rw [checkSessionFreshness_iff]
  refine ⟨nextIdleDeadline now startedAt middle.sessionIdle, now, startedAt, ?_, ?_⟩
  · simp only [touchSession, session, running]
  · unfold nextIdleDeadline
    split
    · exact inTime.trans below
    · exact le_min (Nat.le_add_right _ _) (inTime.trans below)

theorem maybeExpire_of_fresh {vault : Vault} {now : Nat}
    (fresh : checkSessionFreshness vault now = (vault, .ok ())) :
    maybeExpireActiveSession vault now = vault := by
  obtain ⟨expiresAt, lastProofAt, startedAt, running, inTime⟩ := checkSessionFreshness_iff.mp fresh
  simp only [maybeExpireActiveSession, running, if_neg (Nat.not_lt.mpr inTime)]

/-! ### Clearing a freeze -/

/-- The account table after `clear_frozen`. -/
def clearedAccounts (log : RevisionTables) (accountId : AccountId) (chosen : RevisionId)
    (nowMs : Int) : List AccountRow :=
  updateAccountRow log.accounts accountId fun account =>
    { account with
      frozenPendingResolve := false
      headRevisionId := chosen
      lastModifiedAt := nowMs }

section Clearing

variable {vault : Vault} {active : ActiveState} {accountId : AccountId} {account : AccountRow}
  {nowMs : Int} {now : Nat}

theorem clearFrozen_eq {chosen : RevisionId}
    (fresh : checkSessionFreshness vault now = (vault, .ok ()))
    (found : findAccount vault.disk.log accountId = some account)
    (isHead : chosen ∈ (accountHeadRows vault.disk.log.revisions accountId).map
      RevisionRow.revisionId) :
    clearFrozen vault accountId chosen nowMs now =
      (touchSession (withLog vault { vault.disk.log with
        accounts := clearedAccounts vault.disk.log accountId chosen nowMs }) now, .ok ()) := by
  obtain ⟨row, stored⟩ := Option.isSome_iff_exists.mp (findRevision_isSome_of_head isHead)
  simp only [clearFrozen, maybeExpire_of_fresh fresh, found, stored]
  rw [if_neg (by simp), if_neg (by simp), if_neg (not_not.mpr isHead)]
  rfl

theorem findAccount_cleared {chosen : RevisionId}
    (found : findAccount vault.disk.log accountId = some account) :
    findAccount { vault.disk.log with
        accounts := clearedAccounts vault.disk.log accountId chosen nowMs } accountId =
      some { account with
        frozenPendingResolve := false
        headRevisionId := chosen
        lastModifiedAt := nowMs } := by
  rw [findAccount, clearedAccounts, findAccount_update, if_pos rfl]
  · rw [findAccount] at found
    rw [found]
    rfl
  · exact fun _ => rfl

theorem unfrozen_cleared (chosen : RevisionId) :
    ¬ Frozen { vault.disk.log with
      accounts := clearedAccounts vault.disk.log accountId chosen nowMs } accountId := by
  rintro ⟨row, member, frozen, same⟩
  obtain ⟨old, -, rfl⟩ := List.mem_map.mp member
  split at frozen
  · cases frozen
  · next different =>
      rw [if_neg different] at same
      exact different same

/-- With one head, `account_get` reads it afterwards. -/
theorem accountGet_cleared (inv : ExitInv vault)
    (fresh : checkSessionFreshness vault now = (vault, .ok ()))
    (session : vault.active = some active)
    (found : findAccount vault.disk.log accountId = some account) (nowMs : Int)
    {head : RevisionRow}
    (heads : accountHeadRows vault.disk.log.revisions accountId = [head]) :
    (accountGet (touchSession (withLog vault { vault.disk.log with
        accounts := clearedAccounts vault.disk.log accountId head.revisionId nowMs }) now)
      accountId now).2 =
      if account.tombstoned then .error .accountTombstoned
      else (readRow vault.vaultMeta.vaultId active.vdk head).map fun identity =>
        (head.revisionId, identity) := by
  obtain ⟨-, rfl, -⟩ := mem_accountHeadRows.mp (heads ▸ List.mem_singleton.mpr rfl)
  have stillFresh := fresh_touchSession inv fresh
    (show (withLog vault { vault.disk.log with
      accounts := clearedAccounts vault.disk.log head.accountId head.revisionId nowMs }).session =
        vault.session from rfl)
  have answer := accountGet_single stillFresh
    (by rw [touchSession_active]; exact session)
    (by rw [inv.upToDate active session]; exact List.not_mem_nil)
    (by rw [touchSession_disk, withLog_log]; exact findAccount_cleared found) rfl rfl
    (by rw [touchSession_disk]; exact heads)
    (by rw [touchSession_disk]; exact inv.revisions)
  rw [answer, touchSession_vaultMeta]
  rfl

end Clearing

/-! ### Resolving a fork -/

section Resolving

variable {vault : Vault} {active : ActiveState} {accountId : AccountId} {account : AccountRow}
  {draw : WriteDraw}

theorem validate_of_head (inv : ExitInv vault)
    (found : findAccount vault.disk.log accountId = some account)
    (live : account.tombstoned = false)
    (forked : 1 < (accountHeadRows vault.disk.log.revisions accountId).length)
    {head : RevisionRow} (isHead : head ∈ accountHeadRows vault.disk.log.revisions accountId) :
    resolveForkValidate vault.disk.log accountId head.revisionId = .ok head := by
  obtain ⟨stored, rfl, -⟩ := mem_accountHeadRows.mp isHead
  have lookup := findRevision_of_mem inv.revisions stored
  obtain ⟨heads, listed⟩ : ∃ heads, accountHeads vault.disk.log head.accountId = .ok heads := by
    rw [accountHeads, if_pos]
    · exact ⟨_, rfl⟩
    · rw [List.any_eq_true]
      exact ⟨account, Table.mem_of_lookup found, decide_eq_true (Table.key_of_lookup found)⟩
  have named := accountHeads_eq_ok listed
  have several : 1 < heads.length := by
    rw [named.length_eq, List.length_map]
    exact forked
  have member : head.revisionId ∈ heads := named.mem_iff.mpr (List.mem_map_of_mem isHead)
  simp [resolveForkValidate, liveAccount, found, live, lookup, listed, member,
    Nat.not_le.mpr several, bind, Except.bind]

/-- The kept head is read back exactly if it opens as flagged. -/
theorem mergePayload_ok_iff (inv : ExitInv vault) {head : RevisionRow}
    (isHead : head ∈ accountHeadRows vault.disk.log.revisions accountId) :
    (∃ payload, mergePayload vault active head draw.nowMs = .ok payload) ↔
      OpensAsFlagged vault active head := by
  obtain ⟨stored, -⟩ := mem_accountHeadRows.mp isHead
  have read : readIdentityAt vault active head.accountId head.revisionId =
      readRow vault.vaultMeta.vaultId active.vdk head := by
    simp only [readIdentityAt, findRevision_of_mem inv.revisions stored]
  unfold mergePayload OpensAsFlagged
  rw [read]
  constructor
  · rintro ⟨payload, merged⟩
    split at merged
    · next flagged opened => exact .inl ⟨flagged, opened⟩
    · cases merged
    · cases merged
    · next identity flagged opened => exact .inr ⟨flagged, identity, opened⟩
    · cases merged
  · rintro (⟨flagged, opened⟩ | ⟨flagged, identity, opened⟩)
    · exact ⟨_, by rw [flagged, opened]⟩
    · exact ⟨_, by rw [flagged, opened]⟩

/-- A resolution that commits takes the account out. -/
theorem left_of_committed (inv : ExitInv vault)
    (fresh : checkSessionFreshness vault draw.now = (vault, .ok ()))
    (session : vault.active = some active) (drawn : FreshDraw vault.disk.log draw.revisionId)
    (unused : ∀ row ∈ vault.disk.log.revisions, row.revisionId ≠ draw.revisionId)
    (found : findAccount vault.disk.log accountId = some account) {head : RevisionRow}
    (isHead : head ∈ accountHeadRows vault.disk.log.revisions accountId)
    {payload : IdentityPayload}
    (merged : mergePayload vault active head draw.nowMs = .ok payload) {log : RevisionTables}
    (done : Resolved vault.disk.log log head.revisionId
      (localRow vault active accountId head.revisionId head.schemaVersion payload
        head.isTombstone draw)) :
    OutOfReport (touchSession { vault with
      disk := { vault.disk with log }
      active := some (syncCache active accountId payload.identity?) } draw.now) accountId
      draw.now := by
  obtain ⟨stored, sameAccount, -⟩ := mem_accountHeadRows.mp isHead
  have lookup := findRevision_of_mem inv.revisions stored
  obtain ⟨payloadLocal, version⟩ := mergePayload_eq_ok merged lookup
  have kind := mergePayload_kind merged
  have heads : accountHeadRows log.revisions accountId = [localRow vault active accountId
      head.revisionId head.schemaVersion payload head.isTombstone draw] :=
    done.heads rfl rfl rfl drawn (unused head stored)
  have unforked : accountId ∉ allForkedAccounts log := by
    rw [mem_allForkedAccounts, heads]
    simp
  have sealedRow : SealedRow (fun _ => some active.vdk) vault.vaultMeta.vaultId
      (localRow vault active accountId head.revisionId head.schemaVersion payload
        head.isTombstone draw) active.vdk payload :=
    ⟨rfl, draw.nonce.notPlaceholder, rfl, payloadLocal, version⟩
  have stillFresh := fresh_touchSession inv fresh
    (show ({ vault with
      disk := { vault.disk with log }
      active := some (syncCache active accountId payload.identity?) } : Vault).session =
        vault.session from rfl)
  have answer := accountGet_single stillFresh (touchSession_active _ _)
    (by rw [syncCache_requiresUpgrade, inv.upToDate active session]; exact List.not_mem_nil)
    (by rw [touchSession_disk]; exact done.findAccount found) rfl rfl
    (by rw [touchSession_disk]; exact heads)
    (by rw [touchSession_disk]; exact done.nodup_revisions rfl inv.revisions unused)
  rw [touchSession_vaultMeta, syncCache_vdk, readRow_sealedRow sealedRow, if_pos rfl] at answer
  constructor
  case unreported =>
      rw [touchSession_disk]
      exact ⟨unforked, done.unfrozen⟩
  case unlisted =>
      rw [touchSession_disk]
      intro reports listed reported
      exact (mem_union_of_listConflicts listed reported).elim unforked done.unfrozen
  case read =>
      cases payload with
      | live identity =>
          refine .inr ⟨localRow vault active accountId head.revisionId head.schemaVersion
            (.live identity) head.isTombstone draw, ?_, rfl, rfl, _, identity,
            touchSession_active _ _, ?_, ?_⟩
          · rw [touchSession_disk, done.revisions]
            exact List.mem_append_right _ List.mem_cons_self
          · rw [touchSession_vaultMeta, syncCache_vdk, readRow_sealedRow sealedRow, if_pos rfl]
            rfl
          · refine answer.trans ?_
            rw [if_neg]
            · rfl
            · simp [localRow, kind, IdentityPayload.identity?]
      | tombstone _ _ =>
          refine .inl (answer.trans ?_)
          rw [if_pos]
          simp [localRow, kind, IdentityPayload.identity?]
      | future _ => exact absurd payloadLocal id

end Resolving

/-! ## The exits -/

section Exits

variable {vault : Vault} {active : ActiveState} {accountId : AccountId} {draw : WriteDraw}

theorem canLeave_of_hasExit (inv : ExitInv vault) (session : vault.active = some active)
    (fresh : checkSessionFreshness vault draw.now = (vault, .ok ()))
    (drawn : FreshDraw vault.disk.log draw.revisionId)
    (unused : ∀ row ∈ vault.disk.log.revisions, row.revisionId ≠ draw.revisionId)
    (exit : HasExit vault active accountId) : CanLeave vault accountId draw := by
  obtain ⟨account, found, ⟨head, heads, readable⟩ | ⟨forked, live, head, isHead, opens⟩⟩ := exit
  · obtain ⟨stored, sameAccount, -, unrevoked, -⟩ :=
      mem_accountHeadRows.mp (heads ▸ List.mem_singleton.mpr rfl)
    have isHead : head.revisionId ∈ (accountHeadRows vault.disk.log.revisions accountId).map
        RevisionRow.revisionId := by
      rw [heads]
      exact List.mem_cons_self
    have unforked : accountId ∉ allForkedAccounts { vault.disk.log with
        accounts := clearedAccounts vault.disk.log accountId head.revisionId draw.nowMs } := by
      rw [mem_allForkedAccounts, heads]
      simp
    have answer := accountGet_cleared inv fresh session found draw.nowMs heads
    refine .inr ⟨head.revisionId, _, clearFrozen_eq fresh found isHead, ?_⟩
    constructor
    case unreported =>
        rw [touchSession_disk, withLog_log]
        exact ⟨unforked, unfrozen_cleared _⟩
    case unlisted =>
        rw [touchSession_disk, withLog_log]
        intro reports listed reported
        exact (mem_union_of_listConflicts listed reported).elim unforked (unfrozen_cleared _)
    case read =>
        by_cases tombstoned : account.tombstoned = true
        · rw [if_pos tombstoned] at answer
          exact .inl answer
        rw [if_neg tombstoned] at answer
        rcases readable with deleted | ⟨identity, opened⟩ | opened
        · exact absurd deleted tombstoned
        · rw [opened] at answer
          refine .inr ⟨head, ?_, sameAccount, unrevoked, active, identity, ?_, ?_, answer⟩
          · rw [touchSession_disk]
            exact stored
          · rw [touchSession_active]
            exact session
          · rw [touchSession_vaultMeta]
            exact opened
        · rw [opened] at answer
          exact .inl answer
  · obtain ⟨payload, merged⟩ := (mergePayload_ok_iff inv isHead).mpr opens
    obtain ⟨log, done, resolved⟩ := resolveFork_committed fresh session
      (validate_of_head inv found live forked isHead) merged unused
    exact .inl ⟨head.revisionId, _, resolved,
      left_of_committed inv fresh session drawn unused found isHead merged done⟩

theorem hasExit_of_resolve (inv : ExitInv vault) (session : vault.active = some active)
    {keep : RevisionId} {vault' : Vault}
    (resolved : resolveFork vault accountId keep draw = (vault', .ok draw.revisionId)) :
    HasExit vault active accountId := by
  obtain ⟨opened, after, running, done, -⟩ := withFreshSession_eq_ok resolved
  obtain rfl := Option.some.inj (session.symm.trans running)
  obtain ⟨chosen, validated, rest⟩ := Fallible.bind_eq_ok_iff.mp done
  obtain ⟨payload, merged, -⟩ := Fallible.bind_eq_ok_iff.mp rest
  obtain ⟨account, live, -⟩ := Fallible.bind_eq_ok_iff.mp validated
  obtain ⟨found, alive⟩ := liveAccount_eq_ok live
  obtain ⟨lookup, forked, named⟩ := resolveForkValidate_eq_ok validated
  obtain ⟨stored, -, rfl⟩ := findRevision_eq_some lookup
  obtain ⟨head, isHead, sameId⟩ := List.mem_map.mp named
  obtain rfl : head = chosen :=
    List.inj_on_of_nodup_map inv.revisions (mem_accountHeadRows.mp isHead).1 stored sameId
  exact ⟨account, found, .inr ⟨forked, alive, head, isHead,
    (mergePayload_ok_iff inv isHead).mp ⟨payload, merged⟩⟩⟩

theorem hasExit_of_clear (inv : ExitInv vault) (session : vault.active = some active)
    (fresh : checkSessionFreshness vault draw.now = (vault, .ok ())) {chosen : RevisionId}
    {vault' : Vault}
    (cleared : clearFrozen vault accountId chosen draw.nowMs draw.now = (vault', .ok ()))
    (left : OutOfReport vault' accountId draw.now) : HasExit vault active accountId := by
  obtain ⟨known, named⟩ := (clearFrozen_ok_iff vault accountId chosen draw.nowMs draw.now).mp
    (by rw [cleared])
  obtain ⟨account, found⟩ := Option.isSome_iff_exists.mp known
  rw [clearFrozen_eq fresh found named] at cleared
  obtain ⟨rfl, -⟩ := Prod.mk.inj cleared
  have unforked := left.unreported.1
  rw [touchSession_disk, withLog_log, mem_allForkedAccounts] at unforked
  obtain ⟨head, isHead, rfl⟩ := List.mem_map.mp named
  have heads : accountHeadRows vault.disk.log.revisions accountId = [head] := by
    cases listed : accountHeadRows vault.disk.log.revisions accountId with
    | nil =>
        rw [listed] at isHead
        cases isHead
    | cons first rest =>
        cases rest with
        | nil =>
            rw [listed] at isHead
            rw [List.mem_singleton.mp isHead]
        | cons second rest =>
            rw [listed] at unforked
            simp at unforked
  refine ⟨account, found, .inl ⟨head, heads, ?_⟩⟩
  have answer := accountGet_cleared inv fresh session found draw.nowMs heads
  by_cases tombstoned : account.tombstoned = true
  · exact .inl tombstoned
  rw [if_neg tombstoned] at answer
  right
  rcases left.read with deleted | ⟨row, -, -, -, opened, identity, -, -, read⟩
  · rw [deleted] at answer
    cases opens : readRow vault.vaultMeta.vaultId active.vdk head with
    | ok identity =>
        rw [opens] at answer
        cases answer
    | error error =>
        rw [opens] at answer
        exact .inr (by rw [opens, ← Except.error.inj answer])
  · rw [read] at answer
    cases opens : readRow vault.vaultMeta.vaultId active.vdk head with
    | ok identity => exact .inl ⟨identity, opens⟩
    | error error =>
        rw [opens] at answer
        cases answer

end Exits

/-- In every state of every run of account calls, ingests and re-evaluations, with an open
session: an account can be taken out of the report by a call, and reads afterwards, exactly if
it has an exit. -/
theorem conflict_exit_iff {hash : CanonicalHash} {password : Password} {created : CreateDraw}
    {vault : Vault} {active : ActiveState} {draw : WriteDraw}
    (run : Reaches (exitStep hash) (fun _ _ => True) (create password created) vault)
    (session : vault.active = some active)
    (fresh : checkSessionFreshness vault draw.now = (vault, .ok ()))
    (drawn : FreshDraw vault.disk.log draw.revisionId)
    (unused : ∀ row ∈ vault.disk.log.revisions, row.revisionId ≠ draw.revisionId)
    (accountId : AccountId) :
    CanLeave vault accountId draw ↔ HasExit vault active accountId := by
  have inv := run.invariant ExitInv (fun _ op inv _ => inv.step op) (.create password created)
  constructor
  · rintro (⟨keep, vault', resolved, -⟩ | ⟨chosen, vault', cleared, left⟩)
    · exact hasExit_of_resolve inv session resolved
    · exact hasExit_of_clear inv session fresh cleared left
  · exact canLeave_of_hasExit inv session fresh drawn unused

namespace Sample

def exitRun (ops : List HeadOp) : Vault :=
  (ops.map ExitOp.head).foldl (exitStep hash) vault

/-- An account deleted here and edited elsewhere. -/
def deletedFork : Vault :=
  exitRun [.unlock (unlockInput ⟨[1]⟩), .accountAdd (.ok identity) ⟨1⟩ (draw 51),
    .deleteAccount ⟨1⟩ (draw 52), .ingest foreign 0 0]

/-- Its first row. -/
def firstRow : RevisionRow :=
  { revisionId := ⟨51⟩
    accountId := ⟨1⟩
    parent := .genesisParent
    deviceId := ⟨11⟩
    schemaVersion := 0
    createdAt := 0
    encPayload := sealPayload ⟨2⟩ ⟨52⟩ ⟨⟨7⟩, ⟨1⟩, .genesisParent, 0⟩ (.live identity)
    encNonce := ⟨52⟩
    isTombstone := false }

end Sample

theorem reaches_exitRun (ops : List HeadOp) :
    Reaches (exitStep Sample.hash) (fun _ _ => True) Sample.vault (Sample.exitRun ops) := by
  unfold Sample.exitRun
  generalize Sample.vault = start
  induction ops generalizing start with
  | nil => exact .refl
  | cons op ops ih => exact (Reaches.tail _ .refl trivial).trans (ih _)

/-- A fork with a local head can be left. -/
theorem conflict_exit_local_head :
    CanLeave (Sample.exitRun Sample.forking) ⟨1⟩ (Sample.draw 60) := by
  have exit : HasExit (Sample.exitRun Sample.forking) Sample.forkedSession ⟨1⟩ := by
    refine ⟨⟨⟨1⟩, 0, 0, false, ⟨52⟩, true⟩, by decide +kernel,
      .inr ⟨by decide +kernel, rfl, Sample.editedRow, by decide +kernel,
        .inr ⟨rfl, Sample.identity, by decide +kernel⟩⟩⟩
  exact (conflict_exit_iff (reaches_exitRun Sample.forking) (by decide +kernel)
    (by decide +kernel) (by decide +kernel) (by decide +kernel) ⟨1⟩).mpr exit

/-- No call takes the deleted account with a foreign edit out of the report. -/
theorem deleted_fork_has_no_exit :
    Reaches (exitStep Sample.hash) (fun _ _ => True) Sample.vault Sample.deletedFork ∧
      (listConflicts Sample.deletedFork.disk.log).map
        (fun reports => reports.map ConflictReport.accountId) = .ok [⟨1⟩] ∧
      Sample.firstRow ∈ Sample.deletedFork.disk.log.revisions ∧
      readRow ⟨7⟩ ⟨2⟩ Sample.firstRow = .ok Sample.identity ∧
      (∀ keep draw vault' merge,
        resolveFork Sample.deletedFork ⟨1⟩ keep draw ≠ (vault', .ok merge)) ∧
      ∀ chosen nowMs now, ⟨1⟩ ∈ allForkedAccounts
        (clearFrozen Sample.deletedFork ⟨1⟩ chosen nowMs now).1.disk.log := by
  have deleted : (findAccount Sample.deletedFork.disk.log ⟨1⟩).map AccountRow.tombstoned =
      some true := by decide +kernel
  have forked : ⟨1⟩ ∈ allForkedAccounts Sample.deletedFork.disk.log := by decide +kernel
  refine ⟨reaches_exitRun _, by decide +kernel, by decide +kernel, by decide, ?_, ?_⟩
  · intro keep draw vault' merge resolved
    obtain ⟨active, after, -, done, -⟩ := withFreshSession_eq_ok resolved
    obtain ⟨chosen, validated, -⟩ := Fallible.bind_eq_ok_iff.mp done
    obtain ⟨account, live, -⟩ := Fallible.bind_eq_ok_iff.mp validated
    obtain ⟨found, alive⟩ := liveAccount_eq_ok live
    rw [found, Option.map_some, alive] at deleted
    cases deleted
  · intro chosen nowMs now
    rw [mem_allForkedAccounts] at forked ⊢
    rcases clearFrozen_cases Sample.deletedFork ⟨1⟩ chosen nowMs now with same | ⟨row, clears⟩
    · rw [same]
      exact forked
    · rw [clears.revisions]
      exact forked

end Pangolin
