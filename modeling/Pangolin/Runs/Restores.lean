import Pangolin.Runs.ReadPaths
import Pangolin.Runs.RekeyChain
import Pangolin.Store.HeadWrites
import Pangolin.Store.Restore

/-!
# A restore brings the contents back

Restoring a list of archived accounts whose identities the validators leave alone succeeds,
and the new vault reads back their contents: the draft brings the fields and the oldest
password, and each replayed patch puts the next one in front of it.

The invariant of the loop says which contents the new vault already holds.  Every write
keeps the accounts it is not about.
-/

namespace Pangolin

open Symbolic Crypto Store Pangolin.Core Transition Utf8

/-! ## Calls that succeed -/

theorem insert?_fresh {Row Key : Type} [DecidableEq Key] {keyOf : Row → Key} {rows : List Row}
    {row : Row} (fresh : ∀ old ∈ rows, keyOf old ≠ keyOf row) :
    Table.insert? keyOf rows row = some (rows ++ [row]) := by
  rw [Table.insert?, if_neg]
  simpa using fresh

/-- A row under a new id is inserted. -/
theorem insertRevision_fresh {log : RevisionTables} {row : RevisionRow}
    (fresh : ∀ old ∈ log.revisions, old.revisionId ≠ row.revisionId) :
    insertRevision log row = .ok { log with
      revisions := log.revisions ++ [row]
      dirtyAccounts := stampDirty log.dirtyAccounts row } := by
  rw [insertRevision, insert?_fresh fresh]
  rfl

section

variable {vault : Vault} {active : ActiveState} {accountId : AccountId} {draw : WriteDraw}
variable {expires last started : Nat}

/-- A new account under new ids is written. -/
theorem accountAdd_ok {identity : AccountIdentity}
    (session : vault.session = .active expires last started) (inTime : draw.now ≤ expires)
    (opened : vault.active = some active)
    (newAccount : ∀ old ∈ vault.disk.log.accounts, old.accountId ≠ accountId)
    (newRevision : ∀ old ∈ vault.disk.log.revisions, old.revisionId ≠ draw.revisionId) :
    ∃ log, log.accounts.map AccountRow.accountId =
        vault.disk.log.accounts.map AccountRow.accountId ++ [accountId] ∧
      accountAdd vault (.ok identity) accountId draw =
        (touchSession { vault with
          disk := { vault.disk with log }
          active := some (syncCache active accountId (some identity)) } draw.now,
          .ok accountId) := by
  have inserted : Table.insert? AccountRow.accountId vault.disk.log.accounts
      ⟨accountId, draw.nowMs, draw.nowMs, false, draw.revisionId, false⟩ = _ :=
    insert?_fresh newAccount
  have fresh : ¬ expires < draw.now := Nat.not_lt.mpr inTime
  simp only [accountAdd, withFreshSession, session, fresh, if_false, opened, inserted, bind,
    Except.bind]
  rw [insertRevision_fresh newRevision]
  exact ⟨_, List.map_append, rfl⟩

/-- The next revision of an editable account whose head reads is written. -/
theorem accountUpdate_ok {patch : AccountIdentity → Except StoreError AccountIdentity}
    {account : AccountRow} {current identity : AccountIdentity}
    (session : vault.session = .active expires last started) (inTime : draw.now ≤ expires)
    (opened : vault.active = some active) (upToDate : active.requiresUpgrade = [])
    (found : findAccount vault.disk.log accountId = some account)
    (alive : account.tombstoned = false) (unfrozen : account.frozenPendingResolve = false)
    (read : readIdentityAt vault active accountId account.headRevisionId = .ok current)
    (patched : patch current = .ok identity)
    (newRevision : ∀ old ∈ vault.disk.log.revisions, old.revisionId ≠ draw.revisionId) :
    ∃ log, log.accounts.map AccountRow.accountId =
        vault.disk.log.accounts.map AccountRow.accountId ∧
      accountUpdate vault accountId patch draw =
        (touchSession { vault with
          disk := { vault.disk with log }
          active := some (syncCache active accountId (some identity)) } draw.now,
          .ok draw.revisionId) := by
  have editable : refuseUneditable vault active accountId = .ok () := by
    simp [refuseUneditable, found, unfrozen, upToDate]
  have live : liveAccount vault.disk.log accountId = .ok account := by
    simp [liveAccount, found, alive]
  have fresh : ¬ expires < draw.now := Nat.not_lt.mpr inTime
  simp only [accountUpdate, withFreshSession, session, fresh, if_false, opened, editable, live,
    read, patched, bind, Except.bind, appendToAccount]
  rw [insertRevision_fresh newRevision]
  refine ⟨_, ?_, rfl⟩
  apply updateAccountRow_map_accountId
  intro old
  rfl

end

/-! ## The loop -/

/-- The current VDK reads an account's head to an identity of this content. -/
def Holds (vault : Vault) (accountId : AccountId) (content : AccountContent) : Prop :=
  ∃ account row identity, findAccount vault.disk.log accountId = some account ∧
    account.tombstoned = false ∧ account.frozenPendingResolve = false ∧
    findRevision vault.disk.log.revisions accountId account.headRevisionId = some row ∧
    readRow vault.vaultMeta.vaultId vault.disk.keys.vaultMeta.wrapped.msg row = .ok identity ∧
    identity.content = content

/-- The clock at the unlock and at each write. -/
def RestoreDraw.clock (draw : RestoreDraw) : Nat → Nat
  | 0 => draw.started
  | turn + 1 => (draw.write turn).now

/-- Every write comes before the session of the restore has expired. -/
def RestoreDraw.Timely (draw : RestoreDraw) : Prop :=
  ∀ turn, clock draw (turn + 1) ≤
    nextIdleDeadline (clock draw turn) draw.started .min15

/-- The new vault after a number of writes, with the contents it holds so far. -/
structure Restoring (draw : RestoreDraw) (password : Password) (vault : Vault)
    (done : List (AccountId × AccountContent)) (turn : Nat) : Prop where
  inv : KeyInv vault
  openable : Openable vault.disk.keys password
  session : vault.session = .active
    (nextIdleDeadline (RestoreDraw.clock draw turn) draw.started .min15)
    (RestoreDraw.clock draw turn) draw.started
  sessionIdle : vault.sessionIdle = .min15
  opened : ∃ active, vault.active = some active ∧ active.requiresUpgrade = []
  accounts : vault.disk.log.accounts.map AccountRow.accountId = done.map Prod.fst
  used : ∀ row ∈ vault.disk.log.revisions,
    ∃ index < turn, row.revisionId = (draw.write index).revisionId
  holds : ∀ entry ∈ done, Holds vault entry.1 entry.2

theorem findRevision_append {revisions : List RevisionRow} {accountId : AccountId}
    {revisionId : RevisionId} {row : RevisionRow}
    (found : findRevision revisions accountId revisionId = some row) (later : RevisionRow) :
    findRevision (revisions ++ [later]) accountId revisionId = some row := by
  unfold findRevision at found ⊢
  rw [List.find?_append, found, Option.some_or]

namespace Restoring

variable {tools : TextTools} {draw : RestoreDraw} {vault vault' : Vault}
variable {done done' : List (AccountId × AccountContent)} {turn : Nat} {accountId : AccountId}
variable {content : AccountContent} {password : Password}

/-- The next drawn revision id is new. -/
theorem newRevision (restoring : Restoring draw password vault done turn) :
    ∀ old ∈ vault.disk.log.revisions, old.revisionId ≠ (draw.write turn).revisionId := by
  intro old member same
  obtain ⟨index, earlier, drawn⟩ := restoring.used old member
  have equal := draw.revisionIds_injective (drawn.symm.trans same)
  omega

/-- The session after a write was touched at the time of the write. -/
theorem touched (restoring : Restoring draw password vault done turn) {after : Vault}
    (session : after.session = vault.session)
    (sessionIdle : after.sessionIdle = vault.sessionIdle) :
    (touchSession after (draw.write turn).now).session = .active
        (nextIdleDeadline (RestoreDraw.clock draw (turn + 1)) draw.started .min15)
        (RestoreDraw.clock draw (turn + 1)) draw.started ∧
      (touchSession after (draw.write turn).now).sessionIdle = .min15 := by
  unfold touchSession
  rw [session, restoring.session]
  simp only [sessionIdle, restoring.sessionIdle]
  exact ⟨rfl, trivial⟩

/-- A write keeps what the vault holds of other accounts and adds its own. -/
theorem wrote (restoring : Restoring draw password vault done turn) {active : ActiveState}
    {row : RevisionRow} {identity : AccountIdentity}
    (write : HeadWrite vault vault' active row (.live identity))
    (drawn : row.revisionId = (draw.write turn).revisionId)
    (session : vault'.session = .active
        (nextIdleDeadline (RestoreDraw.clock draw (turn + 1)) draw.started .min15)
        (RestoreDraw.clock draw (turn + 1)) draw.started ∧ vault'.sessionIdle = .min15)
    (accounts : vault'.disk.log.accounts.map AccountRow.accountId = done'.map Prod.fst)
    (entries : ∀ entry ∈ done', entry = (row.accountId, identity.content) ∨
      entry ∈ done ∧ entry.1 ≠ row.accountId) :
    Restoring draw password vault' done' (turn + 1) := by
  have keys : vault'.disk.keys = vault.disk.keys := by rw [write.disk]
  have revisions := restoring.inv.revisions_of_write write.toLocalWrite
  obtain ⟨active', opened, upToDate⟩ := restoring.opened
  obtain rfl : active' = active := Option.some.inj (opened.symm.trans write.session)
  have held := restoring.inv.session active' opened
  refine ⟨restoring.inv.write write.toLocalWrite, keys ▸ restoring.openable, session.1,
    session.2, ⟨_, write.cached, ?_⟩, accounts, ?_, ?_⟩
  · simpa using upToDate
  · intro other member
    rw [revisions] at member
    rcases List.mem_append.mp member with old | new
    · obtain ⟨index, earlier, sameId⟩ := restoring.used other old
      exact ⟨index, by omega, sameId⟩
    · obtain rfl := List.mem_singleton.mp new
      exact ⟨turn, by omega, drawn⟩
  · intro entry member
    rcases entries entry member with rfl | ⟨earlier, different⟩
    · obtain ⟨account, found, head, unfrozen, tombstoned⟩ := write.accountAt
      have sealedRow := (restoring.inv.sealedRow_of_write write.toLocalWrite).2
      have live : account.tombstoned = false := by
        rw [tombstoned, write.kind]
        rfl
      refine ⟨account, row, identity, found, live, unfrozen, ?_, ?_, rfl⟩
      · rw [head, revisions]
        have absent : findRevision vault.disk.log.revisions row.accountId row.revisionId =
            none := by
          apply List.find?_eq_none.mpr
          intro old stored
          have different := write.fresh old stored
          simp [different]
        unfold findRevision at absent ⊢
        rw [List.find?_append, absent]
        simp
      · rw [write.vaultMeta, keys, readRow_sealedRow sealedRow, if_pos held.vdk]
        rfl
    · obtain ⟨account, other, read, found, live, unfrozen, stored, opens, content⟩ :=
        restoring.holds entry earlier
      refine ⟨account, other, read, ?_, live, unfrozen, ?_, ?_, content⟩
      · rw [write.others _ different]
        exact found
      · rw [revisions]
        exact findRevision_append stored row
      · rw [write.vaultMeta, keys]
        exact opens

/-- The next write is in time. -/
theorem inTime (timely : RestoreDraw.Timely draw) :
    (draw.write turn).now ≤ nextIdleDeadline (RestoreDraw.clock draw turn) draw.started .min15 :=
  timely turn

/-- A new account is held from then on. -/
theorem add (restoring : Restoring draw password vault done turn) (timely : RestoreDraw.Timely draw)
    (new : accountId ∉ done.map Prod.fst) (identity : AccountIdentity) :
    ∃ vault', accountAdd vault (.ok identity) accountId (draw.write turn) =
        (vault', .ok accountId) ∧
      Restoring draw password vault' (done ++ [(accountId, identity.content)]) (turn + 1) := by
  obtain ⟨active, opened, -⟩ := restoring.opened
  have newAccount : ∀ old ∈ vault.disk.log.accounts, old.accountId ≠ accountId := by
    rintro old member rfl
    apply new
    rw [← restoring.accounts]
    exact List.mem_map_of_mem member
  obtain ⟨log, accounts, added⟩ := accountAdd_ok restoring.session (inTime timely) opened
    newAccount restoring.newRevision
  have call := accountAdd_payloadCall vault (.ok identity) accountId (draw.write turn)
  rw [added] at call ⊢
  refine ⟨_, rfl, ?_⟩
  cases call with
  | wrote _ _ active' row payload write sameId drawn known =>
      obtain ⟨identity', valid, rfl⟩ := known
      obtain rfl := Except.ok.inj valid
      apply restoring.wrote write drawn (restoring.touched rfl rfl)
      · rw [touchSession_disk, accounts, restoring.accounts, List.map_append]
        rfl
      · intro entry member
        rcases List.mem_append.mp member with old | last
        · right
          refine ⟨old, ?_⟩
          rintro same
          exact new (sameId ▸ same ▸ List.mem_map_of_mem old)
        · left
          rw [List.mem_singleton.mp last, sameId]

/-- A password patch on the account added last puts its password in front. -/
theorem patch (tools : TextTools)
    (restoring : Restoring draw password vault (done ++ [(accountId, content)]) turn)
    (timely : RestoreDraw.Timely draw) (new : accountId ∉ done.map Prod.fst)
    {next : List UInt8} (valid : Validate.password next = .ok ()) (nowMs : Int) :
    ∃ vault', accountUpdate vault accountId
        ((passwordPatch next).apply tools nowMs vault.deviceId) (draw.write turn) =
        (vault', .ok (draw.write turn).revisionId) ∧
      Restoring draw password vault'
        (done ++ [(accountId, { content with passwords := next :: content.passwords })])
        (turn + 1) := by
  obtain ⟨active, opened, upToDate⟩ := restoring.opened
  have held := (restoring.inv.session active opened).vdk
  obtain ⟨account, row, current, found, alive, unfrozen, stored, opens, sameContent⟩ :=
    restoring.holds (accountId, content) (by simp)
  obtain rfl : current.content = content := sameContent
  have read : readIdentityAt vault active accountId account.headRevisionId = .ok current := by
    simp only [readIdentityAt, stored, held]
    exact opens
  have patched : (passwordPatch next).apply tools nowMs vault.deviceId current = _ :=
    passwordPatch_apply valid nowMs vault.deviceId current
  obtain ⟨log, accounts, updated⟩ := accountUpdate_ok restoring.session (inTime timely) opened
    upToDate found alive unfrozen read patched restoring.newRevision
  have call := accountUpdate_payloadCall vault accountId
    ((passwordPatch next).apply tools nowMs vault.deviceId) (draw.write turn)
  rw [updated] at call ⊢
  refine ⟨_, rfl, ?_⟩
  cases call with
  | wrote _ _ active' row' payload write sameId drawn known =>
      obtain ⟨account', current', identity, live, read', patched', rfl⟩ := known
      obtain rfl : active = active' := Option.some.inj (opened.symm.trans write.session)
      obtain rfl : account = account' :=
        Option.some.inj (found.symm.trans (liveAccount_eq_ok live).1)
      obtain rfl : current = current' := Except.ok.inj (read.symm.trans read')
      obtain rfl := Except.ok.inj (patched.symm.trans patched')
      apply restoring.wrote write drawn (restoring.touched rfl rfl)
      · rw [touchSession_disk, accounts, restoring.accounts]
        simp
      · intro entry member
        rcases List.mem_append.mp member with old | last
        · right
          refine ⟨List.mem_append_left _ old, ?_⟩
          rintro same
          exact new (sameId ▸ same ▸ List.mem_map_of_mem old)
        · left
          rw [List.mem_singleton.mp last, sameId]
          rfl

/-- The replay puts the later passwords in front, the last one first. -/
theorem replayHistory_ok (tools : TextTools) (timely : RestoreDraw.Timely draw)
    (new : accountId ∉ done.map Prod.fst) {entries : List PasswordEntry}
    (valid : ∀ entry ∈ entries, Validate.password entry.password = .ok ())
    (restoring : Restoring draw password vault (done ++ [(accountId, content)]) turn) :
    ∃ vault', replayHistory tools draw accountId turn entries vault = (vault', .ok ()) ∧
      Restoring draw password vault' (done ++ [(accountId, { content with
        passwords := (entries.map PasswordEntry.password).reverse ++ content.passwords })])
        (turn + entries.length) := by
  induction entries generalizing vault content turn with
  | nil => exact ⟨vault, rfl, restoring⟩
  | cons entry entries ih =>
      obtain ⟨patched, updated, next⟩ := restoring.patch tools timely new
        (valid entry List.mem_cons_self) (draw.write turn).nowMs
      obtain ⟨vault', replayed, restored⟩ :=
        ih (fun entry member => valid entry (List.mem_cons_of_mem _ member)) next
      refine ⟨vault', ?_, ?_⟩
      · rw [replayHistory]
        simp only [updated]
        exact replayed
      · have length : turn + (entry :: entries).length = turn + 1 + entries.length := by
          simp only [List.length_cons]
          omega
        rw [length]
        simpa using restored

/-- One archived account is written back. -/
theorem restoreWriteAccount_ok (timely : RestoreDraw.Timely draw)
    (new : accountId ∉ done.map Prod.fst) {account : ArchivedAccount}
    (restorable : Restorable tools account.identity)
    (restoring : Restoring draw password vault done turn) :
    ∃ vault', restoreWriteAccount tools draw accountId turn account vault =
        (vault', .ok accountId) ∧
      Restoring draw password vault' (done ++ [(accountId, account.identity.content)])
        (turn + restoreWrites account) := by
  obtain ⟨oldest, later, reversed⟩ := oldest_of_restorable restorable
  obtain ⟨identity, drafted, content⟩ :=
    restoreDraft_valid restorable reversed (draw.write turn).nowMs vault.deviceId
  obtain ⟨added, written, next⟩ := restoring.add timely new identity
  rw [content] at next
  have laterValid : ∀ entry ∈ later, Validate.password entry.password = .ok () := by
    intro entry member
    apply restorable.passwords
    have listed : entry ∈ account.passwordHistory.reverse := by
      rw [reversed]
      exact List.mem_cons_of_mem _ member
    exact List.mem_reverse.mp listed
  obtain ⟨vault', replayed, restored⟩ := replayHistory_ok tools timely new laterValid
    next
  refine ⟨vault', ?_, ?_⟩
  · rw [restoreWriteAccount]
    simp only [drafted, written, reversed, List.drop_one, List.tail_cons, replayed]
  · have history : (later.map PasswordEntry.password).reverse ++ [oldest.password] =
        account.passwordHistory.map PasswordEntry.password := by
      rw [← List.reverse_reverse account.passwordHistory, reversed]
      simp
    have writes : turn + restoreWrites account = turn + 1 + later.length := by
      simp only [restoreWrites, reversed, List.drop_one, List.tail_cons]
      omega
    rw [writes]
    simp only [history] at restored
    exact restored

/-- The loop over the archive. -/
theorem restoreAccounts_ok (timely : RestoreDraw.Timely draw) {accounts : List ArchivedAccount}
    (restorable : ∀ account ∈ accounts, Restorable tools account.identity) {index : Nat}
    (listed : done.map Prod.fst = (List.range index).map draw.accountId)
    (restoring : Restoring draw password vault done turn) :
    ∃ vault' added turn', restoreAccounts tools draw index turn accounts vault =
        (vault', .ok ()) ∧
      added.map Prod.snd = accounts.map (fun account => account.identity.content) ∧
      (done ++ added).map Prod.fst =
        (List.range (index + accounts.length)).map draw.accountId ∧
      Restoring draw password vault' (done ++ added) turn' := by
  induction accounts generalizing vault done turn index with
  | nil => exact ⟨vault, [], turn, rfl, rfl, by simpa using listed, by simpa using restoring⟩
  | cons account accounts ih =>
      have new : draw.accountId index ∉ done.map Prod.fst := by
        rw [listed]
        intro member
        obtain ⟨earlier, inRange, same⟩ := List.mem_map.mp member
        have equal := draw.accountIds_injective same
        have below := List.mem_range.mp inRange
        omega
      obtain ⟨written, wrote, next⟩ := restoreWriteAccount_ok timely new
        (restorable account List.mem_cons_self) restoring
      have listedNext : (done ++ [(draw.accountId index, account.identity.content)]).map Prod.fst =
          (List.range (index + 1)).map draw.accountId := by
        rw [List.map_append, listed, List.range_succ, List.map_append]
        rfl
      obtain ⟨vault', added, turn', done', contents, ids, restored⟩ :=
        ih (fun account member => restorable account (List.mem_cons_of_mem _ member)) listedNext
          next
      rw [List.append_assoc] at ids restored
      refine ⟨vault', _, turn', ?_, ?_, ?_, restored⟩
      · rw [restoreAccounts]
        simp only [wrote]
        exact done'
      · simp [contents]
      · rw [ids, List.length_cons, Nat.add_assoc, Nat.add_comm 1]

/-- The vault the restore starts from: newly created and unlocked. -/
theorem start (nonempty : password.bytes ≠ []) (draw : RestoreDraw) :
    ∃ vault, unlock (openFile (create password draw.created).disk draw.placeholder)
        ⟨true, password, draw.generated, draw.started⟩ = (vault, .ok ()) ∧
      Restoring draw password vault [] 0 := by
  have created : KeyInv (create password draw.created) := .create password draw.created
  have inv : KeyInv (openFile (create password draw.created).disk draw.placeholder) :=
    created.frame rfl rfl rfl rfl (.inr rfl)
  have openable : Openable (create password draw.created).disk.keys password :=
    .fresh nonempty rfl (by simp [create])
  obtain ⟨vault, active, unlocked, -⟩ :=
    @KeyInv.unlock_ok _ inv ⟨true, password, draw.generated, draw.started⟩ openable rfl
  obtain ⟨vdk, chain, data, deviceKey, keys, found⟩ := unlock_eq_ok_iff.mp unlocked
  obtain ⟨inv', same⟩ := inv.unlocks found
  have empty : data = ⟨[], []⟩ := (Except.ok.inj found.hydrated).symm
  have openable' : Openable vault.disk.keys password :=
    openable.congr same.vaultMeta same.vdkChain
  refine ⟨vault, unlocked, ?_⟩
  obtain rfl := found.result
  obtain rfl := empty
  exact ⟨inv', openable', rfl, rfl, ⟨_, rfl, rfl⟩, rfl, by simp [openFile, openVault, create],
    by simp⟩

/-- The idle setting is no part of it. -/
theorem writeSessionIdleSecs (restoring : Restoring draw password vault done turn) (secs : Int) :
    Restoring draw password (writeSessionIdleSecs vault secs) done turn := by
  obtain ⟨⟨⟨metaSynced, context, ⟨unique, retired⟩, epochFits, devices, held⟩, rows, linear⟩,
    openable, session, sessionIdle, opened, accounts, used, holds⟩ := restoring
  refine ⟨⟨⟨metaSynced, context, ⟨unique, retired⟩, epochFits, ?_, ?_⟩, rows, linear⟩, ?_,
    session, sessionIdle, opened, accounts, used, holds⟩
  · cases devices with
    | unregistered none unset => exact .unregistered none unset
    | registered key row listed sameId address stored =>
        exact .registered key row listed sameId address stored
  · intro active opened
    obtain ⟨vdk, currentEpoch, selects, deviceKey⟩ := held active opened
    exact ⟨vdk, currentEpoch, selects, deviceKey⟩
  · exact openable.congr rfl rfl

end Restoring

/-! ## The restored file -/

/-- What the vault holds is a matter of the log, the vault id and the current VDK. -/
theorem Holds.frame {vault vault' : Vault} {accountId : AccountId} {content : AccountContent}
    (holds : Holds vault accountId content) (log : vault'.disk.log = vault.disk.log)
    (vaultMeta : vault'.vaultMeta = vault.vaultMeta)
    (keys : vault'.disk.keys.vaultMeta = vault.disk.keys.vaultMeta) :
    Holds vault' accountId content := by
  unfold Holds
  rw [log, vaultMeta, keys]
  exact holds

/-- A vault that holds a content for each of its accounts reads these contents. -/
theorem liveContents_of_holds {vault : Vault} {active : ActiveState}
    {done : List (AccountId × AccountContent)} (linear : LinearLog vault.disk.log)
    (current : active.vdk = vault.disk.keys.vaultMeta.wrapped.msg)
    (accounts : vault.disk.log.accounts.map AccountRow.accountId = done.map Prod.fst)
    (holds : ∀ entry ∈ done, Holds vault entry.1 entry.2) :
    liveContents vault active = .ok (done.map Prod.snd) := by
  have reads : ∀ entry ∈ done, (do
      let identity ← readHeadIdentity vault active entry.1
      return identity.content : Except StoreError AccountContent) = .ok entry.2 := by
    intro entry member
    obtain ⟨account, row, identity, found, live, -, stored, opens, content⟩ := holds entry member
    simp only [readHeadIdentity, liveAccount, found, live, readIdentityAt, stored, current, opens,
      bind, Except.bind, Bool.false_eq_true, if_false, content]
    rfl
  have alive : (vault.disk.log.accounts.filter fun account => !account.tombstoned) =
      vault.disk.log.accounts := by
    apply List.filter_eq_self.mpr
    intro account member
    have listed : account.accountId ∈ done.map Prod.fst :=
      accounts ▸ List.mem_map_of_mem member
    obtain ⟨entry, inDone, sameId⟩ := List.mem_map.mp listed
    obtain ⟨other, row, identity, found, live, -⟩ := holds entry inDone
    rw [sameId, findAccount, Table.lookup_eq_some_of_mem _ linear.uniqueAccounts member] at found
    obtain rfl := Option.some.inj found
    rw [live]
    rfl
  have byId : ∀ accounts : List AccountRow, (accounts.mapM fun account => do
      let identity ← readHeadIdentity vault active account.accountId
      return identity.content : Except StoreError (List AccountContent)) =
      (accounts.map AccountRow.accountId).mapM fun accountId => do
        let identity ← readHeadIdentity vault active accountId
        return identity.content := by
    intro accounts
    rw [List.mapM_map]
    rfl
  rw [liveContents, alive, byId, accounts, List.mapM_map]
  exact Fallible.mapM_eq_ok_map Prod.snd reads

/-- Whoever opens the file with the password reads these contents and no others. -/
def Reopens (disk : Disk) (password : Password) (contents : List AccountContent) : Prop :=
  ∀ placeholder generated now, ∃ vault active,
    unlock (openFile disk placeholder) ⟨true, password, generated, now⟩ = (vault, .ok ()) ∧
      vault.active = some active ∧ liveContents vault active = .ok contents

theorem Restoring.reopens {draw : RestoreDraw} {password : Password} {vault : Vault}
    {done : List (AccountId × AccountContent)} {turn : Nat}
    (restoring : Restoring draw password vault done turn) :
    Reopens vault.disk password (done.map Prod.snd) := by
  intro placeholder generated now
  have metaSynced := restoring.inv.metaSynced
  have inv : KeyInv (openFile vault.disk placeholder) :=
    restoring.inv.frame metaSynced.symm rfl rfl rfl (.inr rfl)
  obtain ⟨unlocked, active, opened, session, sameLog, sameMeta, -⟩ :=
    @KeyInv.unlock_ok _ inv ⟨true, password, generated, now⟩ restoring.openable rfl
  obtain ⟨vdk, chain, data, deviceKey, keys, found⟩ := unlock_eq_ok_iff.mp opened
  obtain ⟨inv', same⟩ := inv.unlocks found
  refine ⟨unlocked, active, opened, session, ?_⟩
  apply liveContents_of_holds inv'.linear (inv'.session active session).vdk
  · rw [sameLog]
    exact restoring.accounts
  · intro entry member
    apply (restoring.holds entry member).frame sameLog _ same.vaultMeta
    exact sameMeta.trans metaSynced.symm

/-- A restore of restorable accounts succeeds and brings back their contents. -/
theorem restoreToNewVault_ok {tools : TextTools} {draw : RestoreDraw} {password : Password}
    {snapshot : ArchiveSnapshot} (timely : RestoreDraw.Timely draw)
    (nonempty : password.bytes ≠ [])
    (restorable : ∀ account ∈ snapshot.accounts, Restorable tools account.identity) :
    ∃ disk, restoreToNewVault tools draw snapshot password = .ok disk ∧
      Reopens disk password (snapshot.accounts.map fun account => account.identity.content) := by
  obtain ⟨unlocked, opened, started⟩ := Restoring.start nonempty draw
  have writes : ∀ vault, Restoring draw password vault [] 0 →
      ∃ restored, restoreAccounts tools draw 0 0 snapshot.accounts vault = (restored, .ok ()) ∧
        Reopens restored.disk password
          (snapshot.accounts.map fun account => account.identity.content) := by
    intro vault ready
    have listed : ([] : List (AccountId × AccountContent)).map Prod.fst =
        (List.range 0).map draw.accountId := rfl
    obtain ⟨restored, added, turn, wrote, contents, -, restoring⟩ :=
      ready.restoreAccounts_ok timely restorable listed
    rw [← contents]
    exact ⟨restored, wrote, restoring.reopens⟩
  cases idle : snapshot.sessionIdleSecs with
  | none =>
      obtain ⟨restored, wrote, reopens⟩ := writes unlocked started
      refine ⟨restored.disk, ?_, reopens⟩
      simp only [restoreToNewVault, opened, idle, wrote]
  | some secs =>
      obtain ⟨restored, wrote, reopens⟩ := writes _ (started.writeSessionIdleSecs secs)
      refine ⟨restored.disk, ?_, reopens⟩
      simp only [restoreToNewVault, opened, idle, wrote]

end Pangolin
