import Pangolin.Lib.Reaches
import Pangolin.Store.CanonicalHead
import Pangolin.Store.ChainCalls
import Pangolin.Store.Lineage

/-!
# Ingest in any order

An event that is new to a vault either stamps the first unpublished row with its content
or is inserted as a foreign row; every other event is dropped.  Which of these happens to
an event is decided by the vault the ingest started from: the events before it carry other
hashes and other anchors, and stamp other rows.  So the log after a list of events is a
function of the set of its events, up to the order of the rows and the times written.
-/

namespace Pangolin

open Store Transition Crypto

variable {hash : CanonicalHash}

/-! ## One event against one log -/

/-- No row has the event's hash or anchor, and its anchor fits the columns. -/
structure NewTo (hash : CanonicalHash) (log : RevisionTables) (event : RevisionEvent) :
    Prop where
  hash : ∀ row ∈ log.revisions, row.revisionId ≠ hash event.content
  anchor : ∀ row ∈ log.revisions, hasAnchor event.content.accountId event.anchor row = false
  block : fitsI64 event.anchor.blockNumber = true
  index : fitsI64 event.anchor.logIndex = true

/-- The row a new event would stamp. -/
def twinOf (log : RevisionTables) (event : RevisionEvent) : Option RevisionRow :=
  log.revisions.find? (isUnanchoredTwin event.content)

/-- The log after the body of `ingest_chain_revision`, whatever it answers. -/
def logAfter (hash : CanonicalHash) (log : RevisionTables) (event : RevisionEvent)
    (isTombstone : Bool) (nowMs : Int) : RevisionTables :=
  match ingestLog hash log event isTombstone nowMs with
  | .ok (log', _) => log'
  | .error _ => log

theorem twinOf_eq_some {log : RevisionTables} {event : RevisionEvent} {row : RevisionRow}
    (found : twinOf log event = some row) :
    row ∈ log.revisions ∧ isUnanchoredTwin event.content row = true :=
  ⟨List.mem_of_find?_eq_some found, List.find?_some found⟩

theorem isUnanchoredTwin_iff {content : RevisionContent} {row : RevisionRow} :
    isUnanchoredTwin content row = true ↔
      row.accountId = content.accountId ∧ row.parent = content.parent ∧
        row.encPayload = content.encPayload ∧ row.schemaVersion = content.schemaVersion ∧
        row.deviceId = content.deviceId ∧ row.chainAnchor = none := by
  simp [isUnanchoredTwin, and_assoc]

/-- Everything an event can do to the log. -/
theorem logAfter_cases (hash : CanonicalHash) (log : RevisionTables) (event : RevisionEvent)
    (isTombstone : Bool) (nowMs : Int) :
    (¬ NewTo hash log event ∧ logAfter hash log event isTombstone nowMs = log) ∨
    (NewTo hash log event ∧
      ((∃ twin, twinOf log event = some twin ∧
          logAfter hash log event isTombstone nowMs =
            { log with revisions := stampAnchor log.revisions twin.revisionId event.anchor }) ∨
        (twinOf log event = none ∧
          logAfter hash log event isTombstone nowMs =
            { log with
              accounts := freezeAccount log.accounts event.content.accountId
                (hash event.content) isTombstone nowMs
              revisions := log.revisions ++
                [foreignRow (hash event.content) event isTombstone nowMs] }))) := by
  unfold logAfter
  cases ingested : ingestLog hash log event isTombstone nowMs with
  | error error =>
      refine .inl ⟨?_, rfl⟩
      intro new
      have noHash : (log.revisions.any fun row => row.revisionId = hash event.content) = false := by
        simpa using new.hash
      have noAnchor : log.revisions.any (hasAnchor event.content.accountId event.anchor) =
          false := by
        simpa using new.anchor
      rw [ingestLog] at ingested
      simp only [noHash, noAnchor, new.block, new.index, not_true_eq_false, Bool.false_eq_true,
        if_false] at ingested
      split at ingested
      · cases ingested
      · cases ingested
  | ok result =>
      obtain ⟨log', outcome⟩ := result
      rcases ingestLog_cases ingested with
        ⟨rfl, -, present⟩ | ⟨noHash, noAnchor, block, index, rest⟩
      · refine .inl ⟨?_, rfl⟩
        intro new
        rcases present with ⟨row, stored, sameId⟩ | ⟨row, stored, anchored⟩
        · exact new.hash row stored sameId
        · rw [new.anchor row stored] at anchored
          cases anchored
      · refine .inr ⟨⟨noHash, noAnchor, block, index⟩, ?_⟩
        rcases rest with ⟨twin, found, stamped, -⟩ | ⟨missing, inserted, -⟩
        · exact .inl ⟨twin, found, stamped⟩
        · exact .inr ⟨missing, inserted⟩

/-! ## The account table -/

/-- Some row of the account passes a test of its flags. -/
def accountHas (log : RevisionTables) (accountId : AccountId) (test : AccountRow → Bool) : Prop :=
  ∃ account ∈ log.accounts, account.accountId = accountId ∧ test account = true

section

variable (accounts : List AccountRow) (target accountId : AccountId) (revisionId : RevisionId)
variable (isTombstone : Bool) (nowMs : Int)

/-- A freeze is seen by the tests it makes true, on the account it names. -/
theorem mem_freezeAccount {test : AccountRow → Bool} {frozen : Bool}
    (updated : ∀ account, test { account with
      frozenPendingResolve := true
      tombstoned := account.tombstoned || isTombstone
      lastModifiedAt := nowMs } = (test account || frozen))
    (created : test ⟨target, nowMs, nowMs, isTombstone, revisionId, true⟩ = frozen) :
    (∃ account ∈ freezeAccount accounts target revisionId isTombstone nowMs,
        account.accountId = accountId ∧ test account = true) ↔
      (∃ account ∈ accounts, account.accountId = accountId ∧ test account = true) ∨
        (target = accountId ∧ frozen = true) := by
  unfold freezeAccount
  split
  · next present =>
      have stored : ∃ account ∈ accounts, account.accountId = target := by
        simpa using present
      constructor
      · rintro ⟨account, member, sameId, passed⟩
        obtain ⟨old, oldMember, rfl⟩ := List.mem_map.mp member
        by_cases named : old.accountId = target
        · rw [if_pos named] at sameId passed
          rw [updated, Bool.or_eq_true] at passed
          rcases passed with before | now
          · exact .inl ⟨old, oldMember, sameId, before⟩
          · exact .inr ⟨named.symm.trans sameId, now⟩
        · rw [if_neg named] at sameId passed
          exact .inl ⟨old, oldMember, sameId, passed⟩
      · rintro (⟨account, member, sameId, passed⟩ | ⟨rfl, now⟩)
        · refine ⟨_, List.mem_map_of_mem member, ?_⟩
          by_cases named : account.accountId = target
          · rw [if_pos named]
            refine ⟨sameId, ?_⟩
            rw [updated, passed, Bool.true_or]
          · rw [if_neg named]
            exact ⟨sameId, passed⟩
        · obtain ⟨account, member, named⟩ := stored
          refine ⟨_, List.mem_map_of_mem member, ?_⟩
          rw [if_pos named]
          refine ⟨named, ?_⟩
          rw [updated, now, Bool.or_true]
  · constructor
    · rintro ⟨account, member, sameId, passed⟩
      rcases List.mem_append.mp member with old | new
      · exact .inl ⟨account, old, sameId, passed⟩
      · obtain rfl := List.mem_singleton.mp new
        exact .inr ⟨sameId, created.symm.trans passed⟩
    · rintro (⟨account, member, sameId, passed⟩ | ⟨rfl, now⟩)
      · exact ⟨account, List.mem_append_left _ member, sameId, passed⟩
      · exact ⟨_, List.mem_append_right _ List.mem_cons_self, rfl, created.trans now⟩

end

/-! ## What a set of events leaves -/

/-- An event the pull loops can hand over: of this vault, or at least of a device that has
no unpublished row here. -/
def Deliverable (vault : Vault) (event : RevisionEvent) : Prop :=
  event.content.vaultId = vault.vaultMeta.vaultId ∨
    ∀ row ∈ vault.disk.log.revisions, row.chainAnchor = none →
      row.deviceId ≠ event.content.deviceId

/-- Events that can be told apart: no two share a hash, an anchor or a row to stamp. -/
structure Apart (hash : CanonicalHash) (start : RevisionTables) (events : Set RevisionEvent) :
    Prop where
  hash : ∀ first ∈ events, ∀ second ∈ events, first ≠ second →
    hash first.content ≠ hash second.content
  anchor : ∀ first ∈ events, ∀ second ∈ events, first ≠ second → first.anchor ≠ second.anchor
  twin : ∀ first ∈ events, ∀ second ∈ events, first ≠ second → ∀ row ∈ start.revisions,
    isUnanchoredTwin first.content row = true → isUnanchoredTwin second.content row = false

theorem Apart.of_deliverable {vault : Vault} {events : Set RevisionEvent}
    (hashes : ∀ first ∈ events, ∀ second ∈ events, first ≠ second →
      hash first.content ≠ hash second.content)
    (anchors : ∀ first ∈ events, ∀ second ∈ events, first ≠ second →
      first.anchor ≠ second.anchor)
    (deliverable : ∀ event ∈ events, Deliverable vault event) :
    Apart hash vault.disk.log events := by
  refine ⟨hashes, anchors, ?_⟩
  intro first inFirst second inSecond different row stored twin
  rw [Bool.eq_false_iff]
  intro rival
  obtain ⟨account, parent, payload, schema, device, unpublished⟩ := isUnanchoredTwin_iff.mp twin
  obtain ⟨account', parent', payload', schema', device', -⟩ := isUnanchoredTwin_iff.mp rival
  -- both device ids are the unpublished row's, so both events are of this vault
  have firstVault := (deliverable first inFirst).resolve_right fun elsewhere =>
    elsewhere row stored unpublished device
  have secondVault := (deliverable second inSecond).resolve_right fun elsewhere =>
    elsewhere row stored unpublished device'
  apply hashes first inFirst second inSecond different
  congr 1
  cases one : first.content
  cases two : second.content
  simp_all

/-- The row of a new event that has no row to stamp; the time is left out. -/
def insertedRow (hash : CanonicalHash) (tombstone : RevisionContent → Bool)
    (event : RevisionEvent) : RevisionRow :=
  foreignRow (hash event.content) event (tombstone event.content) 0

/-- The rows a set of new events leaves: those of the start, stamped where an event found
its twin, and one for each event without a twin. -/
def Left (hash : CanonicalHash) (tombstone : RevisionContent → Bool) (start : RevisionTables)
    (done : Set RevisionEvent) (row : RevisionRow) : Prop :=
  (∃ old ∈ start.revisions, row = old.undated ∧
    ∀ event ∈ done, twinOf start event ≠ some old) ∨
  (∃ event ∈ done, ∃ twin, twinOf start event = some twin ∧
    row = { twin.undated with chainAnchor := some event.anchor }) ∨
  (∃ event ∈ done, twinOf start event = none ∧ row = insertedRow hash tombstone event)

/-- The log after the events of `done`, each of which is new to the start. -/
structure Absorbed (hash : CanonicalHash) (tombstone : RevisionContent → Bool)
    (events : Set RevisionEvent) (start : RevisionTables) (done : Set RevisionEvent)
    (log : RevisionTables) : Prop where
  new : ∀ event ∈ done, event ∈ events ∧ NewTo hash start event
  unique : (log.revisions.map RevisionRow.revisionId).Nodup
  rows : ∀ row, row ∈ log.revisions.map RevisionRow.undated ↔ Left hash tombstone start done row
  /-- The twins of an event still to come are as they were. -/
  waiting : ∀ event ∈ events, event ∉ done →
    log.revisions.filter (isUnanchoredTwin event.content) =
      start.revisions.filter (isUnanchoredTwin event.content)
  accounts : ∀ accountId, accountHas log accountId (fun _ => true) ↔
    accountHas start accountId (fun _ => true) ∨
      ∃ event ∈ done, twinOf start event = none ∧ event.content.accountId = accountId
  frozen : ∀ accountId, accountHas log accountId AccountRow.frozenPendingResolve ↔
    accountHas start accountId AccountRow.frozenPendingResolve ∨
      ∃ event ∈ done, twinOf start event = none ∧ event.content.accountId = accountId
  tombstoned : ∀ accountId, accountHas log accountId AccountRow.tombstoned ↔
    accountHas start accountId AccountRow.tombstoned ∨
      ∃ event ∈ done, twinOf start event = none ∧ event.content.accountId = accountId ∧
        tombstone event.content = true

section

variable {tombstone : RevisionContent → Bool} {events done : Set RevisionEvent}
variable {start log : RevisionTables} {event : RevisionEvent}

theorem Absorbed.initial (unique : (start.revisions.map RevisionRow.revisionId).Nodup) :
    Absorbed hash tombstone events start ∅ start := by
  constructor
  · simp
  · exact unique
  · intro row
    simp [Left, eq_comm]
  · intro event _ _
    rfl
  all_goals
    intro accountId
    simp

/-- A row of the log, read back from what is left. -/
theorem Absorbed.left (inv : Absorbed hash tombstone events start done log) {row : RevisionRow}
    (stored : row ∈ log.revisions) : Left hash tombstone start done row.undated :=
  (inv.rows _).mp (List.mem_map_of_mem stored)

theorem Absorbed.stored (inv : Absorbed hash tombstone events start done log)
    {row : RevisionRow} (left : Left hash tombstone start done row) :
    ∃ stored ∈ log.revisions, stored.undated = row :=
  List.mem_map.mp ((inv.rows row).mpr left)

/-- Every row of the start is still there, stamped or not. -/
theorem Absorbed.kept (inv : Absorbed hash tombstone events start done log) {old : RevisionRow}
    (stored : old ∈ start.revisions) :
    ∃ row ∈ log.revisions, row.revisionId = old.revisionId ∧ row.accountId = old.accountId ∧
      (old.chainAnchor ≠ none → row.chainAnchor = old.chainAnchor) := by
  by_cases stamped : ∃ event ∈ done, twinOf start event = some old
  · obtain ⟨event, member, found⟩ := stamped
    obtain ⟨row, rowStored, alike⟩ := inv.stored (.inr (.inl ⟨event, member, old, found, rfl⟩))
    have ids := congrArg RevisionRow.revisionId alike
    have owners := congrArg RevisionRow.accountId alike
    refine ⟨row, rowStored, ids, owners, ?_⟩
    intro anchored
    exact absurd (isUnanchoredTwin_iff.mp (twinOf_eq_some found).2).2.2.2.2.2 anchored
  · obtain ⟨row, rowStored, alike⟩ := inv.stored (.inl ⟨old, stored, rfl, fun event member found =>
      stamped ⟨event, member, found⟩⟩)
    have ids := congrArg RevisionRow.revisionId alike
    have owners := congrArg RevisionRow.accountId alike
    have anchors := congrArg RevisionRow.chainAnchor alike
    exact ⟨row, rowStored, ids, owners, fun _ => anchors⟩

/-- What was not new to the start is not new to the log. -/
theorem Absorbed.newTo_start (inv : Absorbed hash tombstone events start done log)
    (new : NewTo hash log event) : NewTo hash start event := by
  refine ⟨?_, ?_, new.block, new.index⟩
  · intro old stored sameId
    obtain ⟨row, rowStored, ids, -⟩ := inv.kept stored
    exact new.hash row rowStored (ids.trans sameId)
  · intro old stored
    rw [Bool.eq_false_iff]
    intro anchored
    obtain ⟨row, rowStored, -, owners, anchors⟩ := inv.kept stored
    simp only [hasAnchor, Bool.and_eq_true, decide_eq_true_eq] at anchored
    have kept := anchors (by simp [anchored.2])
    have impossible := new.anchor row rowStored
    simp [hasAnchor, owners, anchored.1, kept, anchored.2] at impossible

/-- An event that has been ingested is not new any more. -/
theorem Absorbed.settled (inv : Absorbed hash tombstone events start done log)
    (ingested : NewTo hash start event → event ∈ done) : ¬ NewTo hash log event := by
  intro new
  have member := ingested (inv.newTo_start new)
  cases found : twinOf start event with
  | some twin =>
      obtain ⟨row, stored, alike⟩ :=
        inv.stored (.inr (.inl ⟨event, member, twin, found, rfl⟩))
      have owner := (isUnanchoredTwin_iff.mp (twinOf_eq_some found).2).1
      have owners := congrArg RevisionRow.accountId alike
      have anchors := congrArg RevisionRow.chainAnchor alike
      have impossible := new.anchor row stored
      simp only [hasAnchor, Bool.and_eq_false_iff, decide_eq_false_iff_not] at impossible
      rcases impossible with other | other
      · exact other (owners.trans owner)
      · exact other anchors
  | none =>
      obtain ⟨row, stored, alike⟩ := inv.stored (.inr (.inr ⟨event, member, found, rfl⟩))
      have ids := congrArg RevisionRow.revisionId alike
      exact new.hash row stored ids

/-- An event still to come meets the log as it would have met the start. -/
theorem Absorbed.newTo_log (inv : Absorbed hash tombstone events start done log)
    (apart : Apart hash start events) (member : event ∈ events) (waiting : event ∉ done)
    (new : NewTo hash start event) : NewTo hash log event := by
  have other : ∀ before ∈ done, before ≠ event := by
    rintro before ingested rfl
    exact waiting ingested
  refine ⟨?_, ?_, new.block, new.index⟩
  · intro row stored sameId
    have sameUndated : row.undated.revisionId = hash event.content := sameId
    rcases inv.left stored with
      ⟨old, oldStored, alike, -⟩ | ⟨before, ingested, twin, found, alike⟩ |
        ⟨before, ingested, -, alike⟩
    · rw [alike] at sameUndated
      exact new.hash old oldStored sameUndated
    · rw [alike] at sameUndated
      exact new.hash twin (twinOf_eq_some found).1 sameUndated
    · rw [alike] at sameUndated
      exact apart.hash before (inv.new before ingested).1 event member (other before ingested)
        sameUndated
  · intro row stored
    rw [Bool.eq_false_iff]
    intro anchored
    have undatedAnchored : hasAnchor event.content.accountId event.anchor row.undated = true :=
      anchored
    rcases inv.left stored with
      ⟨old, oldStored, alike, -⟩ | ⟨before, ingested, twin, -, alike⟩ |
        ⟨before, ingested, -, alike⟩
    · rw [alike] at undatedAnchored
      have absent := new.anchor old oldStored
      rw [show hasAnchor event.content.accountId event.anchor old = true from undatedAnchored]
        at absent
      cases absent
    all_goals
      rw [alike] at undatedAnchored
      simp only [hasAnchor, insertedRow, foreignRow, Bool.and_eq_true, decide_eq_true_eq,
        Option.some.injEq] at undatedAnchored
      exact apart.anchor before (inv.new before ingested).1 event member (other before ingested)
        undatedAnchored.2

theorem Absorbed.twinOf_eq (inv : Absorbed hash tombstone events start done log)
    (member : event ∈ events) (waiting : event ∉ done) : twinOf log event = twinOf start event := by
  unfold twinOf
  rw [← List.head?_filter, ← List.head?_filter, inv.waiting event member waiting]

end

/-! ## One more event -/

theorem filter_stampAnchor {revisions : List RevisionRow} {twin : RevisionRow}
    {anchor : ChainAnchor} {content : RevisionContent}
    (unique : (revisions.map RevisionRow.revisionId).Nodup) (stored : twin ∈ revisions)
    (other : isUnanchoredTwin content twin = false) :
    (stampAnchor revisions twin.revisionId anchor).filter (isUnanchoredTwin content) =
      revisions.filter (isUnanchoredTwin content) := by
  have ofId : ∀ row ∈ revisions, row.revisionId = twin.revisionId → row = twin :=
    fun row member same => List.inj_on_of_nodup_map unique member stored same
  unfold stampAnchor
  rw [List.filter_map]
  have sameTest : revisions.filter (isUnanchoredTwin content ∘ fun row =>
      if row.revisionId = twin.revisionId then { row with chainAnchor := some anchor } else row) =
        revisions.filter (isUnanchoredTwin content) := by
    apply List.filter_congr
    intro row member
    by_cases same : row.revisionId = twin.revisionId
    · obtain rfl := ofId row member same
      rw [Function.comp, if_pos rfl, other]
      simp [isUnanchoredTwin]
    · rw [Function.comp, if_neg same]
  rw [sameTest]
  have fixed : ∀ row ∈ revisions.filter (isUnanchoredTwin content),
      (if row.revisionId = twin.revisionId then { row with chainAnchor := some anchor } else row) =
        id row := by
    intro row member
    obtain ⟨rowStored, isTwin⟩ := List.mem_filter.mp member
    apply if_neg
    intro same
    rw [ofId row rowStored same, other] at isTwin
    cases isTwin
  rw [List.map_congr_left fixed, List.map_id]

theorem map_revisionId_stampAnchor (revisions : List RevisionRow) (revisionId : RevisionId)
    (anchor : ChainAnchor) :
    (stampAnchor revisions revisionId anchor).map RevisionRow.revisionId =
      revisions.map RevisionRow.revisionId := by
  unfold stampAnchor
  rw [List.map_map]
  apply List.map_congr_left
  intro row _
  rw [Function.comp]
  split <;> rfl

section

variable {tombstone : RevisionContent → Bool} {events done : Set RevisionEvent}
variable {start log : RevisionTables} {event : RevisionEvent}

/-- The events without a twin among one more event. -/
theorem exists_insert_untwinned (fact : RevisionEvent → Prop) :
    (∃ before ∈ insert event done, twinOf start before = none ∧ fact before) ↔
      (∃ before ∈ done, twinOf start before = none ∧ fact before) ∨
        (twinOf start event = none ∧ fact event) := by
  constructor
  · rintro ⟨before, ingested, missing, holds⟩
    rcases Set.mem_insert_iff.mp ingested with rfl | ingested
    · exact .inr ⟨missing, holds⟩
    · exact .inl ⟨before, ingested, missing, holds⟩
  · rintro (⟨before, ingested, missing, holds⟩ | ⟨missing, holds⟩)
    · exact ⟨before, Set.mem_insert_of_mem _ ingested, missing, holds⟩
    · exact ⟨event, Set.mem_insert _ _, missing, holds⟩

theorem Absorbed.new_insert (inv : Absorbed hash tombstone events start done log)
    (member : event ∈ events) (new : NewTo hash start event) :
    ∀ before ∈ insert event done, before ∈ events ∧ NewTo hash start before := by
  intro before ingested
  rcases Set.mem_insert_iff.mp ingested with rfl | ingested
  · exact ⟨member, new⟩
  · exact inv.new before ingested

/-- What was left stays left when one more event stamps none of it. -/
theorem Left.oneMore {row : RevisionRow} (left : Left hash tombstone start done row)
    (other : ∀ twin, twinOf start event = some twin → twin.revisionId ≠ row.revisionId) :
    Left hash tombstone start (insert event done) row := by
  rcases left with
    ⟨old, stored, rfl, unstamped⟩ | ⟨before, ingested, left⟩ | ⟨before, ingested, left⟩
  · refine .inl ⟨old, stored, rfl, ?_⟩
    intro before ingested stamps
    rcases Set.mem_insert_iff.mp ingested with rfl | ingested
    · exact other old stamps rfl
    · exact unstamped before ingested stamps
  · exact .inr (.inl ⟨before, Set.mem_insert_of_mem _ ingested, left⟩)
  · exact .inr (.inr ⟨before, Set.mem_insert_of_mem _ ingested, left⟩)

/-- A row left under another id is not touched by a stamp. -/
theorem Absorbed.untouched (inv : Absorbed hash tombstone events start done log)
    {row : RevisionRow} {revisionId : RevisionId} (left : Left hash tombstone start done row)
    (different : row.revisionId ≠ revisionId) (anchor : ChainAnchor) :
    row ∈ (stampAnchor log.revisions revisionId anchor).map RevisionRow.undated := by
  obtain ⟨old, stored, rfl⟩ := inv.stored left
  apply List.mem_map.mpr
  refine ⟨old, ?_, rfl⟩
  apply List.mem_map.mpr
  refine ⟨old, stored, ?_⟩
  exact if_neg different

/-- Whatever one more event with a twin leaves is in the stamped log. -/
theorem Absorbed.mem_stamped (inv : Absorbed hash tombstone events start done log)
    (apart : Apart hash start events)
    (uniqueStart : (start.revisions.map RevisionRow.revisionId).Nodup)
    (member : event ∈ events) (waiting : event ∉ done) {twin row : RevisionRow}
    (found : twinOf start event = some twin) (storedLog : twin ∈ log.revisions)
    (left : Left hash tombstone start (insert event done) row) :
    row ∈ (stampAnchor log.revisions twin.revisionId event.anchor).map RevisionRow.undated := by
  obtain ⟨storedStart, isTwin⟩ := twinOf_eq_some found
  rcases left with
    ⟨old, stored, rfl, unstamped⟩ | ⟨before, ingested, rival, stamps, rfl⟩ |
      ⟨before, ingested, missing, rfl⟩
  · have before : Left hash tombstone start done old.undated := by
      refine .inl ⟨old, stored, rfl, ?_⟩
      intro before ingested
      exact unstamped before (Set.mem_insert_of_mem _ ingested)
    apply inv.untouched before
    intro same
    have equal : old = twin := List.inj_on_of_nodup_map uniqueStart stored storedStart same
    exact unstamped event (Set.mem_insert _ _) (equal ▸ found)
  · rcases Set.mem_insert_iff.mp ingested with rfl | ingested
    · obtain rfl := Option.some.inj (found.symm.trans stamps)
      apply List.mem_map.mpr
      refine ⟨{ twin with chainAnchor := some before.anchor }, ?_, rfl⟩
      apply List.mem_map.mpr
      exact ⟨twin, storedLog, if_pos rfl⟩
    · apply inv.untouched (.inr (.inl ⟨before, ingested, rival, stamps, rfl⟩))
      intro same
      -- no row is the twin of both events
      obtain ⟨rivalStored, isRival⟩ := twinOf_eq_some stamps
      have equal : rival = twin :=
        List.inj_on_of_nodup_map uniqueStart rivalStored storedStart same
      have different : before ≠ event := fun same => waiting (same ▸ ingested)
      have apartTwins := apart.twin before (inv.new before ingested).1 event member different
        rival rivalStored isRival
      rw [equal, isTwin] at apartTwins
      cases apartTwins
  · rcases Set.mem_insert_iff.mp ingested with rfl | ingested
    · rw [found] at missing
      cases missing
    · apply inv.untouched (.inr (.inr ⟨before, ingested, missing, rfl⟩))
      intro same
      exact (inv.new before ingested).2.hash twin storedStart same.symm

/-- An event whose twin gets the anchor. -/
theorem Absorbed.stamped (inv : Absorbed hash tombstone events start done log)
    (apart : Apart hash start events)
    (uniqueStart : (start.revisions.map RevisionRow.revisionId).Nodup)
    (member : event ∈ events) (waiting : event ∉ done) (new : NewTo hash start event)
    {twin : RevisionRow} (found : twinOf start event = some twin) :
    Absorbed hash tombstone events start (insert event done)
      { log with revisions := stampAnchor log.revisions twin.revisionId event.anchor } := by
  have foundLog : twinOf log event = some twin := (inv.twinOf_eq member waiting).trans found
  have storedLog := (twinOf_eq_some foundLog).1
  obtain ⟨storedStart, isTwin⟩ := twinOf_eq_some found
  have noInsert : ∀ (fact : RevisionEvent → Prop),
      (∃ before ∈ insert event done, twinOf start before = none ∧ fact before) ↔
        ∃ before ∈ done, twinOf start before = none ∧ fact before := by
    intro fact
    rw [exists_insert_untwinned, found]
    simp
  constructor
  · exact inv.new_insert member new
  · rw [map_revisionId_stampAnchor]
    exact inv.unique
  · intro row
    constructor
    · intro rowStored
      obtain ⟨stampedRow, stamped, rfl⟩ := List.mem_map.mp rowStored
      obtain ⟨old, stored, rfl⟩ := List.mem_map.mp stamped
      by_cases same : old.revisionId = twin.revisionId
      · obtain rfl : old = twin :=
          List.inj_on_of_nodup_map inv.unique stored storedLog same
        rw [if_pos rfl]
        exact .inr (.inl ⟨event, Set.mem_insert _ _, old, found, rfl⟩)
      · rw [if_neg same]
        apply (inv.left stored).oneMore
        intro stampedTwin isStamped equal
        obtain rfl := Option.some.inj (found.symm.trans isStamped)
        exact same equal.symm
    · exact inv.mem_stamped apart uniqueStart member waiting found storedLog
  · intro later laterMember laterWaiting
    have notDone : later ∉ done := fun ingested =>
      laterWaiting (Set.mem_insert_of_mem _ ingested)
    have different : event ≠ later := by
      rintro rfl
      exact laterWaiting (Set.mem_insert _ _)
    rw [← inv.waiting later laterMember notDone]
    exact filter_stampAnchor inv.unique storedLog
      (apart.twin event member later laterMember different twin storedStart isTwin)
  · intro accountId
    rw [noInsert]
    exact inv.accounts accountId
  · intro accountId
    rw [noInsert]
    exact inv.frozen accountId
  · intro accountId
    rw [noInsert]
    exact inv.tombstoned accountId

/-- An event without a twin gets a row of its own. -/
theorem Absorbed.inserted (inv : Absorbed hash tombstone events start done log)
    (apart : Apart hash start events) (member : event ∈ events) (waiting : event ∉ done)
    (new : NewTo hash start event) (missing : twinOf start event = none) (nowMs : Int) :
    Absorbed hash tombstone events start (insert event done)
      { log with
        accounts := freezeAccount log.accounts event.content.accountId (hash event.content)
          (tombstone event.content) nowMs
        revisions := log.revisions ++
          [foreignRow (hash event.content) event (tombstone event.content) nowMs] } := by
  have newLog := inv.newTo_log apart member waiting new
  have oneMore : ∀ (fact : RevisionEvent → Prop),
      (∃ before ∈ insert event done, twinOf start before = none ∧ fact before) ↔
        (∃ before ∈ done, twinOf start before = none ∧ fact before) ∨ fact event := by
    intro fact
    rw [exists_insert_untwinned, missing]
    simp
  constructor
  · exact inv.new_insert member new
  · exact nodup_append_fresh inv.unique newLog.hash
  · intro row
    rw [List.map_append, List.mem_append, List.map_singleton, List.mem_singleton, inv.rows]
    constructor
    · rintro (left | rfl)
      · apply left.oneMore
        intro twin found
        rw [missing] at found
        cases found
      · exact .inr (.inr ⟨event, Set.mem_insert _ _, missing, rfl⟩)
    · rintro (⟨old, stored, alike, unstamped⟩ | ⟨before, ingested, twin, stamps, alike⟩ |
        ⟨before, ingested, absent, alike⟩)
      · refine .inl (.inl ⟨old, stored, alike, ?_⟩)
        intro before ingested
        exact unstamped before (Set.mem_insert_of_mem _ ingested)
      · rcases Set.mem_insert_iff.mp ingested with rfl | ingested
        · rw [missing] at stamps
          cases stamps
        · exact .inl (.inr (.inl ⟨before, ingested, twin, stamps, alike⟩))
      · rcases Set.mem_insert_iff.mp ingested with rfl | ingested
        · exact .inr alike
        · exact .inl (.inr (.inr ⟨before, ingested, absent, alike⟩))
  · intro later laterMember laterWaiting
    rw [List.filter_append, inv.waiting later laterMember fun ingested =>
      laterWaiting (Set.mem_insert_of_mem _ ingested)]
    simp [isUnanchoredTwin, foreignRow]
  · intro accountId
    rw [oneMore, ← or_assoc, ← inv.accounts]
    apply (mem_freezeAccount _ _ _ _ _ _ (fun _ => rfl) rfl).trans
    simp [accountHas]
  · intro accountId
    rw [oneMore, ← or_assoc, ← inv.frozen]
    apply (mem_freezeAccount _ _ _ _ _ _ (fun _ => (Bool.or_true _).symm) rfl).trans
    simp [accountHas]
  · intro accountId
    rw [oneMore, ← or_assoc, ← inv.tombstoned]
    exact mem_freezeAccount _ _ _ _ _ _ (fun _ => rfl) rfl

/-- What one ingest adds to the set. -/
theorem Absorbed.logAfter (inv : Absorbed hash tombstone events start done log)
    (apart : Apart hash start events)
    (uniqueStart : (start.revisions.map RevisionRow.revisionId).Nodup)
    (member : event ∈ events) (nowMs : Int) :
    Absorbed hash tombstone events start (done ∪ {new | new = event ∧ NewTo hash start new})
      (logAfter hash log event (tombstone event.content) nowMs) := by
  by_cases ingested : NewTo hash start event → event ∈ done
  · have same : done ∪ {new | new = event ∧ NewTo hash start new} = done := by
      apply Set.union_eq_self_of_subset_right
      rintro _ ⟨rfl, new⟩
      exact ingested new
    rw [same]
    rcases logAfter_cases hash log event (tombstone event.content) nowMs with
      ⟨-, unchanged⟩ | ⟨new, -⟩
    · rw [unchanged]
      exact inv
    · exact absurd new (inv.settled ingested)
  · obtain ⟨new, waiting⟩ := Classical.not_imp.mp ingested
    have one : done ∪ {new | new = event ∧ NewTo hash start new} = insert event done := by
      ext other
      constructor
      · rintro (old | ⟨rfl, -⟩)
        · exact Set.mem_insert_of_mem _ old
        · exact Set.mem_insert _ _
      · intro listed
        rcases Set.mem_insert_iff.mp listed with rfl | old
        · exact .inr ⟨rfl, new⟩
        · exact .inl old
    rw [one]
    have sameTwin := inv.twinOf_eq member waiting
    rcases logAfter_cases hash log event (tombstone event.content) nowMs with
      ⟨known, -⟩ | ⟨-, ⟨twin, found, result⟩ | ⟨missing, result⟩⟩
    · exact absurd (inv.newTo_log apart member waiting new) known
    · rw [result]
      exact inv.stamped apart uniqueStart member waiting new (sameTwin.symm.trans found)
    · rw [result]
      exact inv.inserted apart member waiting new (sameTwin.symm.trans missing) nowMs

end

/-! ## A list of ingests -/

/-- One call of `ingest_chain_revision`: its event and its clocks. -/
structure Ingestion where
  event : RevisionEvent
  nowMs : Int
  now : Nat
  deriving Repr, DecidableEq

def ingestStep (hash : CanonicalHash) (vault : Vault) (item : Ingestion) : Vault :=
  (ingestChainRevision hash vault item.event item.nowMs item.now).1

/-- The call does not find an expired session. -/
def KeepsLockState (vault : Vault) (item : Ingestion) : Prop :=
  (maybeExpireActiveSession vault item.now).active.isSome = vault.active.isSome

instance (vault : Vault) (item : Ingestion) : Decidable (KeepsLockState vault item) :=
  inferInstanceAs (Decidable (_ = _))

theorem KeepsLockState.active {vault : Vault} {item : Ingestion}
    (keeps : KeepsLockState vault item) :
    (maybeExpireActiveSession vault item.now).active = vault.active := by
  rcases (maybeExpireActiveSession_idle vault item.now).active with same | dropped
  · exact same
  · unfold KeepsLockState at keeps
    rw [dropped] at keeps ⊢
    exact (Option.isSome_eq_false_iff.mp keeps.symm |> Option.isNone_iff_eq_none.mp).symm

/-- The call's effect on the file. -/
theorem ingestStep_disk (hash : CanonicalHash) (vault : Vault) (item : Ingestion) :
    (ingestStep hash vault item).disk = { vault.disk with
      log := logAfter hash vault.disk.log item.event
        (detectTombstoneBit (maybeExpireActiveSession vault item.now) item.event.content)
        item.nowMs } := by
  unfold ingestStep ingestChainRevision logAfter
  simp only [maybeExpireActiveSession_disk]
  split
  · next failed => simp [failed]
  · next stored => simp [withLog, stored]

/-- A vault whose session and meta row are those of the start reads the tombstone bit
alike. -/
theorem detectTombstoneBit_congr {first second : Vault} (active : first.active = second.active)
    (vaultMeta : first.vaultMeta = second.vaultMeta) :
    detectTombstoneBit first = detectTombstoneBit second := by
  funext content
  unfold detectTombstoneBit
  rw [active, vaultMeta]

/-- The vault after a run of ingests in one lock state. -/
structure AfterIngests (hash : CanonicalHash) (events : Set RevisionEvent) (start : Vault)
    (done : Set RevisionEvent) (vault : Vault) : Prop where
  active : vault.active = start.active
  vaultMeta : vault.vaultMeta = start.vaultMeta
  log : Absorbed hash (detectTombstoneBit start) events start.disk.log done vault.disk.log

section

variable {events done : Set RevisionEvent} {start vault : Vault}
variable (apart : Apart hash start.disk.log events)
variable (unique : (start.disk.log.revisions.map RevisionRow.revisionId).Nodup)
include apart unique

theorem AfterIngests.step (inv : AfterIngests hash events start done vault) {item : Ingestion}
    (member : item.event ∈ events) (keeps : KeepsLockState vault item) :
    AfterIngests hash events start
      (done ∪ {new | new = item.event ∧ NewTo hash start.disk.log new})
      (ingestStep hash vault item) := by
  have idle := maybeExpireActiveSession_idle vault item.now
  have only := ingestChainRevision_logOnly hash vault item.event item.nowMs item.now
  have bit : detectTombstoneBit (maybeExpireActiveSession vault item.now) =
      detectTombstoneBit start :=
    detectTombstoneBit_congr (keeps.active.trans inv.active) (idle.vaultMeta.trans inv.vaultMeta)
  constructor
  · have same : (ingestStep hash vault item).active =
        (maybeExpireActiveSession vault item.now).active := by
      unfold ingestStep ingestChainRevision
      simp only
      split
      · rfl
      · rw [touchSession_active]
        rfl
    rw [same, keeps.active, inv.active]
  · exact only.vaultMeta.trans inv.vaultMeta
  · rw [ingestStep_disk, bit]
    exact inv.log.logAfter apart unique member item.nowMs

/-- The run ingests the events of its list, whatever their order. -/
theorem AfterIngests.run (items : List Ingestion)
    (inv : AfterIngests hash events start done vault)
    (members : ∀ item ∈ items, item.event ∈ events)
    (keeps : Allowed (ingestStep hash) KeepsLockState vault items) :
    AfterIngests hash events start
      (done ∪ {new | new ∈ items.map Ingestion.event ∧ NewTo hash start.disk.log new})
      (items.foldl (ingestStep hash) vault) := by
  induction items generalizing vault done with
  | nil =>
      have nothing : done ∪ {new | new ∈ ([] : List Ingestion).map Ingestion.event ∧
          NewTo hash start.disk.log new} = done := by
        simp
      rw [nothing]
      exact inv
  | cons item items ih =>
      have stepped := inv.step apart unique (members item List.mem_cons_self) keeps.1
      have rest := ih stepped (fun later member => members later (List.mem_cons_of_mem _ member))
        keeps.2
      have sets : done ∪ {new | new = item.event ∧ NewTo hash start.disk.log new} ∪
          {new | new ∈ items.map Ingestion.event ∧ NewTo hash start.disk.log new} =
            done ∪ {new | new ∈ (item :: items).map Ingestion.event ∧
              NewTo hash start.disk.log new} := by
        ext new
        simp only [Set.mem_union, Set.mem_ofPred_eq, List.map_cons, List.mem_cons]
        tauto
      rw [sets] at rest
      exact rest

end

/-! ## Two runs -/

def frozenAccounts (log : RevisionTables) : Set AccountId :=
  {accountId | accountHas log accountId AccountRow.frozenPendingResolve}

def tombstonedAccounts (log : RevisionTables) : Set AccountId :=
  {accountId | accountHas log accountId AccountRow.tombstoned}

/-- The same rows but for `created_at`, and the same flags, heads and canonical heads. -/
structure SameRevisionState (first second : RevisionTables) : Prop where
  rows : SameRows first.revisions second.revisions
  frozen : frozenAccounts first = frozenAccounts second
  tombstoned : tombstonedAccounts first = tombstonedAccounts second
  forked : ∀ accountId, first.isForked accountId = second.isForked accountId
  heads : ∀ accountId, (accountHeads first accountId).map Multiset.ofList =
    (accountHeads second accountId).map Multiset.ofList
  canonical : ∀ accountId, first.canonicalHead accountId = second.canonicalHead accountId

theorem Absorbed.sameRows {tombstone : RevisionContent → Bool} {events done : Set RevisionEvent}
    {start first second : RevisionTables}
    (one : Absorbed hash tombstone events start done first)
    (two : Absorbed hash tombstone events start done second) :
    SameRows first.revisions second.revisions := by
  have nodup : ∀ {log : RevisionTables}, (log.revisions.map RevisionRow.revisionId).Nodup →
      (log.revisions.map RevisionRow.undated).Nodup := by
    intro log unique
    apply List.Nodup.of_map RevisionRow.revisionId
    rw [List.map_map]
    exact unique
  apply (List.perm_ext_iff_of_nodup (nodup one.unique) (nodup two.unique)).mpr
  intro row
  rw [one.rows, two.rows]

/-- The events alone decide the outcome. -/
theorem Absorbed.sameRevisionState {tombstone : RevisionContent → Bool}
    {events done : Set RevisionEvent} {start first second : RevisionTables}
    (one : Absorbed hash tombstone events start done first)
    (two : Absorbed hash tombstone events start done second) :
    SameRevisionState first second := by
  have same := one.sameRows two
  have known : ∀ accountId, (first.accounts.any fun account => account.accountId = accountId) =
      second.accounts.any fun account => account.accountId = accountId := by
    intro accountId
    have agree := (one.accounts accountId).trans (two.accounts accountId).symm
    rw [Bool.eq_iff_iff]
    simpa [accountHas] using agree
  constructor
  · exact same
  · ext accountId
    exact (one.frozen accountId).trans (two.frozen accountId).symm
  · ext accountId
    exact (one.tombstoned accountId).trans (two.tombstoned accountId).symm
  · intro accountId
    exact isForked_sameRows same (known accountId)
  · intro accountId
    exact accountHeads_sameRows same (known accountId)
  · intro accountId
    exact canonicalHead_known_sameRows same (known accountId)

/-- Two lists of the same events, in any order and with any repeats, leave the same
revision state, and none of the events changes the file once more. -/
theorem foreign_ingest_order_independent {start : Vault} {first second : List Ingestion}
    (unique : (start.disk.log.revisions.map RevisionRow.revisionId).Nodup)
    (sameEvents : ∀ event, event ∈ first.map Ingestion.event ↔ event ∈ second.map Ingestion.event)
    (hashes : ∀ one ∈ first.map Ingestion.event, ∀ two ∈ first.map Ingestion.event, one ≠ two →
      hash one.content ≠ hash two.content)
    (anchors : ∀ one ∈ first.map Ingestion.event, ∀ two ∈ first.map Ingestion.event, one ≠ two →
      one.anchor ≠ two.anchor)
    (deliverable : ∀ event ∈ first.map Ingestion.event, Deliverable start event)
    (keepsFirst : Allowed (ingestStep hash) KeepsLockState start first)
    (keepsSecond : Allowed (ingestStep hash) KeepsLockState start second) :
    SameRevisionState (first.foldl (ingestStep hash) start).disk.log
        (second.foldl (ingestStep hash) start).disk.log ∧
      ∀ item : Ingestion, item.event ∈ first.map Ingestion.event →
        (ingestStep hash (first.foldl (ingestStep hash) start) item).disk =
          (first.foldl (ingestStep hash) start).disk := by
  have apart : Apart hash start.disk.log {event | event ∈ first.map Ingestion.event} :=
    .of_deliverable hashes anchors deliverable
  have initial : AfterIngests hash {event | event ∈ first.map Ingestion.event} start ∅ start :=
    ⟨rfl, rfl, .initial unique⟩
  have one := initial.run apart unique first (fun item member => List.mem_map_of_mem member)
    keepsFirst
  have two := initial.run apart unique second
    (fun item member => (sameEvents item.event).mpr (List.mem_map_of_mem member)) keepsSecond
  have sets : {new | new ∈ second.map Ingestion.event ∧ NewTo hash start.disk.log new} =
      {new | new ∈ first.map Ingestion.event ∧ NewTo hash start.disk.log new} := by
    ext new
    simp only [Set.mem_ofPred_eq, sameEvents]
  rw [sets] at two
  refine ⟨one.log.sameRevisionState two.log, ?_⟩
  intro item member
  rw [ingestStep_disk]
  have known : ¬ NewTo hash (first.foldl (ingestStep hash) start).disk.log item.event :=
    one.log.settled fun new => .inr ⟨member, new⟩
  rcases logAfter_cases hash (first.foldl (ingestStep hash) start).disk.log item.event
    (detectTombstoneBit (maybeExpireActiveSession (first.foldl (ingestStep hash) start) item.now)
      item.event.content) item.nowMs with ⟨-, unchanged⟩ | ⟨new, -⟩
  · rw [unchanged]
  · exact absurd new known

namespace IngestSample

/-- A digest that tells the sample's contents apart. -/
def digest : CanonicalHash := fun content =>
  ⟨1000 + 10 * content.accountId.raw + content.deviceId.raw⟩

/-- A locked vault with one account and its unpublished row, written by device 4. -/
def start : Vault :=
  withLog (create ⟨[1]⟩ ⟨⟨7⟩, ⟨1⟩, ⟨2⟩, ⟨4⟩, 0⟩)
    ⟨[⟨⟨1⟩, 0, 0, false, ⟨51⟩, false⟩],
      [{ revisionId := ⟨51⟩, accountId := ⟨1⟩, parent := .genesisParent, deviceId := ⟨4⟩,
         schemaVersion := 1, createdAt := 0, encPayload := .bytes [1],
         encNonce := .placeholder, isTombstone := false }],
      [], []⟩

/-- An event of this vault. -/
def event (accountId : Nat) (deviceId : Nat) (payload : List UInt8) : RevisionEvent :=
  ⟨⟨⟨7⟩, ⟨accountId⟩, .genesisParent, ⟨deviceId⟩, 1, .bytes payload⟩,
    ⟨deviceId, 100 * accountId, 0⟩⟩

/-- A sibling of the row, the row itself, and a new account. -/
def first : List Ingestion :=
  [⟨event 1 9 [2], 10, 0⟩, ⟨event 1 4 [1], 11, 0⟩, ⟨event 2 9 [3], 12, 0⟩]

def second : List Ingestion :=
  [⟨event 2 9 [3], 20, 0⟩, ⟨event 1 4 [1], 21, 0⟩, ⟨event 2 9 [3], 22, 0⟩, ⟨event 1 9 [2], 23, 0⟩]

theorem sameEvents (event : RevisionEvent) :
    event ∈ first.map Ingestion.event ↔ event ∈ second.map Ingestion.event := by
  simp only [first, second, List.map_cons, List.map_nil, List.mem_cons, List.not_mem_nil,
    or_false]
  tauto

theorem deliverable : ∀ event ∈ first.map Ingestion.event, Deliverable start event := by
  have ours : ∀ event ∈ first.map Ingestion.event,
      event.content.vaultId = start.vaultMeta.vaultId := by
    decide
  intro event listed
  exact .inl (ours event listed)

end IngestSample

/-- The second list ingests the same three events with one of them twice. -/
theorem foreign_ingest_order_independent_sample :
    SameRevisionState (IngestSample.first.foldl (ingestStep IngestSample.digest)
        IngestSample.start).disk.log
      (IngestSample.second.foldl (ingestStep IngestSample.digest) IngestSample.start).disk.log :=
  (foreign_ingest_order_independent (by decide) IngestSample.sameEvents (by decide) (by decide)
    IngestSample.deliverable (by decide +kernel) (by decide +kernel)).1

end Pangolin
