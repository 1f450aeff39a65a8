import Pangolin.System
import Pangolin.Store.Publish

/-!
# No local edit is lost

The newest revision this device authored for an account is always its head.  A flush
coalesces before it publishes, and coalescing keeps the marker of the head; so whatever
a flush publishes for an account is the newest revision, and the marker of that revision
goes only after its row carries an anchor.

Rows this device authored are told from ingested ones by their nonce: an ingested row has
the placeholder.
-/

namespace Pangolin

open Crypto Store Transition

/-- A row this device sealed. -/
def isAuthored (accountId : AccountId) (row : RevisionRow) : Bool :=
  row.accountId = accountId && row.encNonce ≠ .placeholder

/-- The newest revision of an account that this device authored. -/
def newestAuthored (revisions : List RevisionRow) (accountId : AccountId) : Option RevisionRow :=
  (revisions.filter (isAuthored accountId)).getLast?

/-- The head pointer of an account. -/
def headOf (log : RevisionTables) (accountId : AccountId) : Option RevisionId :=
  (findAccount log accountId).map AccountRow.headRevisionId

/-- The revision has a dirty marker. -/
def IsDirty (markers : List DirtyMarker) (accountId : AccountId) (revisionId : RevisionId) :
    Prop :=
  ∃ marker ∈ markers, marker.accountId = accountId ∧ marker.revisionId = revisionId

/-- The row is what this publication carries. -/
def Publishes (publication : Publication) (row : RevisionRow) : Prop :=
  publication.revisionId = row.revisionId ∧
    publication.event.content.encPayload = row.encPayload

/-- Once a row is on the chain, no other revision of its account follows it there. -/
def NothingAfter (published : List Publication) (accountId : AccountId) (row : RevisionRow) :
    Prop :=
  ∀ earlier later, published = earlier ++ later →
    (∃ publication ∈ earlier, publication.revisionId = row.revisionId) →
    ∀ publication ∈ later, publication.event.content.accountId = accountId →
      Publishes publication row

/-- The newest authored revision of an account, as the queue holds it. -/
structure Queued (log : RevisionTables) (published : List Publication) (accountId : AccountId)
    (row : RevisionRow) : Prop where
  head : headOf log accountId = some row.revisionId
  /-- The marker goes with the last of the account, after the anchor came. -/
  kept : IsDirty log.dirtyAccounts accountId row.revisionId ∨
    (row.chainAnchor.isSome ∧ ∀ marker ∈ log.dirtyAccounts, marker.accountId ≠ accountId)
  nothingAfter : NothingAfter published accountId row

structure QueueInv (log : RevisionTables) (published : List Publication) : Prop where
  unique : (log.revisions.map RevisionRow.revisionId).Nodup
  accounts : ∀ row ∈ log.revisions, (headOf log row.accountId).isSome
  queued : ∀ accountId row, newestAuthored log.revisions accountId = some row →
    Queued log published accountId row
  markers : ∀ marker ∈ log.dirtyAccounts,
    (newestAuthored log.revisions marker.accountId).isSome
  known : ∀ publication ∈ published,
    ∃ row ∈ log.revisions, row.revisionId = publication.revisionId

/-! ## The newest authored row -/

theorem newestAuthored_eq_some {revisions : List RevisionRow} {accountId : AccountId}
    {row : RevisionRow} (newest : newestAuthored revisions accountId = some row) :
    row ∈ revisions ∧ row.accountId = accountId ∧ row.encNonce ≠ .placeholder := by
  have member := List.mem_filter.mp (List.mem_of_getLast? newest)
  simpa [isAuthored] using member

theorem newestAuthored_append (revisions : List RevisionRow) (row : RevisionRow)
    (accountId : AccountId) :
    newestAuthored (revisions ++ [row]) accountId =
      if isAuthored accountId row then some row else newestAuthored revisions accountId := by
  unfold newestAuthored
  rw [List.filter_append]
  split
  · next authored => simp [authored]
  · next foreign => simp [foreign]

/-- A rewrite of the revision table that keeps what a row says and never takes an anchor
away. -/
structure Annotates (annotate : RevisionRow → RevisionRow) : Prop where
  revisionId : ∀ row, (annotate row).revisionId = row.revisionId
  accountId : ∀ row, (annotate row).accountId = row.accountId
  encNonce : ∀ row, (annotate row).encNonce = row.encNonce
  encPayload : ∀ row, (annotate row).encPayload = row.encPayload
  isTombstone : ∀ row, (annotate row).isTombstone = row.isTombstone
  anchored : ∀ row, row.chainAnchor.isSome → (annotate row).chainAnchor.isSome

theorem newestAuthored_map {annotate : RevisionRow → RevisionRow} (annotates : Annotates annotate)
    (revisions : List RevisionRow) (accountId : AccountId) :
    newestAuthored (revisions.map annotate) accountId =
      (newestAuthored revisions accountId).map annotate := by
  unfold newestAuthored
  have same : isAuthored accountId ∘ annotate = isAuthored accountId := by
    funext row
    simp [isAuthored, annotates.accountId, annotates.encNonce]
  rw [List.filter_map, same, List.getLast?_map]

theorem annotates_stampAnchor (revisionId : RevisionId) (anchor : ChainAnchor) :
    Annotates fun row =>
      if row.revisionId = revisionId then { row with chainAnchor := some anchor } else row := by
  constructor <;> intro row <;> split <;> simp

theorem annotates_supersede (accountId : AccountId) (losers : List RevisionId)
    (keep merge : RevisionId) :
    Annotates fun row =>
      if row.accountId = accountId ∧ row.revisionId ∈ losers ∧ row.revisionId ≠ keep then
        { row with supersededBy := some merge }
      else
        row := by
  constructor <;> intro row <;> split <;> simp

theorem annotates_stampPending (anchor : ChainAnchor) (observedAtBlock observedBlockHash : Nat) :
    Annotates fun row =>
      if row.chainAnchor = some anchor then
        { row with
          status := .pending
          observedAtBlock := some observedAtBlock
          observedBlockHash := some observedBlockHash }
      else
        row := by
  constructor <;> intro row <;> split <;> simp

/-! ## Head pointers -/

theorem headOf_updateAccountRow {log log' : RevisionTables} {accountId : AccountId}
    {revisionId : RevisionId} {change : AccountRow → AccountRow}
    (sameId : ∀ old, (change old).accountId = old.accountId)
    (moves : ∀ old, (change old).headRevisionId = revisionId)
    (accounts : log'.accounts = updateAccountRow log.accounts accountId change)
    (other : AccountId) :
    headOf log' other =
      if other = accountId then (headOf log other).map fun _ => revisionId
      else headOf log other := by
  have search : findAccount log' other = (findAccount log other).map fun old =>
      if old.accountId = accountId then change old else old := by
    unfold findAccount Table.lookup
    rw [accounts, updateAccountRow, List.find?_map]
    congr 2
    funext old
    by_cases target : old.accountId = accountId
    · simp [target, sameId]
    · simp [target]
  unfold headOf
  rw [search]
  cases found : findAccount log other with
  | none => simp
  | some account =>
      have key : account.accountId = other := Table.key_of_lookup found
      by_cases same : other = accountId
      · simp [key, same, moves]
      · simp [key, same]

theorem headOf_append {log log' : RevisionTables} {account : AccountRow}
    (absent : ∀ old ∈ log.accounts, old.accountId ≠ account.accountId)
    (accounts : log'.accounts = log.accounts ++ [account]) (other : AccountId) :
    headOf log' other =
      if other = account.accountId then some account.headRevisionId else headOf log other := by
  unfold headOf findAccount Table.lookup
  rw [accounts, List.find?_append]
  by_cases same : other = account.accountId
  · subst same
    have missing : log.accounts.find? (fun old => decide (old.accountId = account.accountId)) =
        none := by
      simpa using absent
    simp [missing]
  · have missing : [account].find? (fun old => decide (old.accountId = other)) = none := by
      simpa using fun equal => same equal.symm
    simp [missing, same]

/-- A foreign event moves no head pointer and makes its account known. -/
theorem headOf_freezeAccount {log log' : RevisionTables} {accountId : AccountId}
    {revisionId : RevisionId} {isTombstone : Bool} {nowMs : Int}
    (accounts : log'.accounts =
      freezeAccount log.accounts accountId revisionId isTombstone nowMs) :
    (∀ other head, headOf log other = some head → headOf log' other = some head) ∧
      (headOf log' accountId).isSome := by
  unfold freezeAccount at accounts
  split at accounts
  · next known =>
      have same : ∀ other, headOf log' other = headOf log other := by
        intro other
        unfold headOf findAccount Table.lookup
        rw [accounts, updateAccountRow, List.find?_map, Option.map_map]
        congr 1
        · funext account
          simp only [Function.comp_apply]
          split <;> rfl
        · congr 1
          funext account
          simp only [Function.comp_apply]
          split <;> rfl
      refine ⟨fun other head held => (same other).trans held, ?_⟩
      rw [same accountId]
      simpa [headOf, findAccount, Table.lookup] using known
  · next unknown =>
      have appended := headOf_append (by simpa using unknown) accounts
      constructor
      · intro other head held
        rw [appended]
        split
        · next same =>
            exfalso
            apply unknown
            simp only [headOf, Option.map_eq_some_iff] at held
            obtain ⟨account, found, -⟩ := held
            have key : account.accountId = other := Table.key_of_lookup found
            refine List.any_eq_true.mpr ⟨account, Table.mem_of_lookup found, ?_⟩
            simpa [key] using same
        · exact held
      · rw [appended]
        simp

/-- What a local edit does to the table and the head pointers. -/
theorem logWrite_effect {log log' : RevisionTables} {row : RevisionRow}
    (wrote : LogWrite log row log')
    (accounts : ∀ row ∈ log.revisions, (headOf log row.accountId).isSome) :
    (∃ annotate, Annotates annotate ∧ log'.revisions = log.revisions.map annotate ++ [row]) ∧
      headOf log' row.accountId = some row.revisionId ∧
      ∀ other, other ≠ row.accountId → headOf log' other = headOf log other := by
  have unchanged : Annotates id := ⟨fun _ => rfl, fun _ => rfl, fun _ => rfl, fun _ => rfl,
    fun _ => rfl, fun _ anchored => anchored⟩
  cases wrote with
  | added account _ absent sameId head accounts' revisions _ =>
      have moved := headOf_append (sameId ▸ absent) accounts'
      refine ⟨⟨id, unchanged, by simpa using revisions⟩, ?_, ?_⟩
      · rw [moved, if_pos sameId.symm, head]
      · intro other different
        rw [moved, if_neg (sameId ▸ different)]
  | extended account change found _ sameId moves accounts' revisions _ =>
      have moved := headOf_updateAccountRow sameId moves accounts'
      refine ⟨⟨id, unchanged, by simpa using revisions⟩, ?_, ?_⟩
      · rw [moved, if_pos rfl, headOf, found]
        rfl
      · intro other different
        rw [moved, if_neg different]
  | resolved change forked _ sameId moves accounts' revisions _ =>
      have moved := headOf_updateAccountRow sameId moves accounts'
      refine ⟨⟨_, annotates_supersede _ _ _ _, revisions⟩, ?_, ?_⟩
      · obtain ⟨head, member⟩ := List.exists_mem_of_length_pos (by omega : 0 <
          (accountHeadRows log.revisions row.accountId).length)
        have stored := List.mem_filter.mp member
        simp only [Bool.and_eq_true, decide_eq_true_eq] at stored
        obtain ⟨stored, owner, -⟩ := stored
        obtain ⟨pointer, known⟩ := Option.isSome_iff_exists.mp (accounts head stored)
        rw [moved, if_pos rfl, ← owner, known]
        rfl
      · intro other different
        rw [moved, if_neg different]

/-! ## Table rewrites -/

theorem NothingAfter.annotate {published : List Publication} {accountId : AccountId}
    {row : RevisionRow} {annotate : RevisionRow → RevisionRow} (annotates : Annotates annotate)
    (nothing : NothingAfter published accountId row) :
    NothingAfter published accountId (annotate row) := by
  intro earlier later split sent publication member owner
  rw [annotates.revisionId] at sent
  obtain ⟨sameId, samePayload⟩ := nothing earlier later split sent publication member owner
  exact ⟨sameId.trans (annotates.revisionId row).symm,
    samePayload.trans (annotates.encPayload row).symm⟩

/-- Annotating rows, keeping heads and markers. -/
theorem QueueInv.annotate {log log' : RevisionTables} {published : List Publication}
    {annotate : RevisionRow → RevisionRow} (inv : QueueInv log published)
    (annotates : Annotates annotate) (revisions : log'.revisions = log.revisions.map annotate)
    (heads : ∀ accountId head, headOf log accountId = some head →
      headOf log' accountId = some head)
    (dirty : log'.dirtyAccounts = log.dirtyAccounts) : QueueInv log' published := by
  constructor
  · have sameIds : RevisionRow.revisionId ∘ annotate = RevisionRow.revisionId :=
      funext annotates.revisionId
    rw [revisions, List.map_map, sameIds]
    exact inv.unique
  · intro row member
    rw [revisions] at member
    obtain ⟨old, stored, rfl⟩ := List.mem_map.mp member
    obtain ⟨head, known⟩ := Option.isSome_iff_exists.mp (inv.accounts old stored)
    rw [annotates.accountId, heads _ head known]
    rfl
  · intro accountId row newest
    rw [revisions, newestAuthored_map annotates, Option.map_eq_some_iff] at newest
    obtain ⟨old, newest, rfl⟩ := newest
    have queued := inv.queued accountId old newest
    constructor
    · rw [annotates.revisionId]
      exact heads _ _ queued.head
    · rw [annotates.revisionId, dirty]
      exact queued.kept.imp id fun ⟨anchored, rest⟩ => ⟨annotates.anchored old anchored, rest⟩
    · exact queued.nothingAfter.annotate annotates
  · intro marker member
    rw [dirty] at member
    rw [revisions, newestAuthored_map annotates, Option.isSome_map]
    exact inv.markers marker member
  · intro publication member
    obtain ⟨row, stored, same⟩ := inv.known publication member
    refine ⟨annotate row, ?_, (annotates.revisionId row).trans same⟩
    rw [revisions]
    exact List.mem_map_of_mem stored

/-! ## Local edits -/

theorem isDirty_stampDirty (markers : List DirtyMarker) (row : RevisionRow) :
    IsDirty (stampDirty markers row) row.accountId row.revisionId := by
  unfold stampDirty Table.insertIgnore
  split
  · next present =>
      obtain ⟨marker, member, same⟩ := List.any_eq_true.mp present
      obtain ⟨sameAccount, sameRevision⟩ := Prod.mk.inj (of_decide_eq_true same)
      exact ⟨marker, member, sameAccount, sameRevision⟩
  · exact ⟨_, List.mem_append_right _ (List.mem_singleton_self _), rfl, rfl⟩

theorem mem_stampDirty_of_ne {markers : List DirtyMarker} {row : RevisionRow}
    {marker : DirtyMarker} (other : marker.accountId ≠ row.accountId) :
    marker ∈ stampDirty markers row ↔ marker ∈ markers := by
  unfold stampDirty Table.insertIgnore
  split
  · rfl
  · constructor
    · intro member
      rcases List.mem_append.mp member with old | new
      · exact old
      · rw [List.mem_singleton.mp new] at other
        exact absurd rfl other
    · exact List.mem_append_left _

theorem QueueInv.write {log log' : RevisionTables} {published : List Publication}
    {row : RevisionRow} (inv : QueueInv log published)
    (fresh : ∀ old ∈ log.revisions, old.revisionId ≠ row.revisionId)
    (authored : row.encNonce ≠ .placeholder) (wrote : LogWrite log row log')
    (dirty : log'.dirtyAccounts = stampDirty log.dirtyAccounts row) :
    QueueInv log' published := by
  obtain ⟨⟨annotate, annotates, revisions⟩, head, otherHeads⟩ := logWrite_effect wrote inv.accounts
  have newest : ∀ accountId, newestAuthored log'.revisions accountId =
      if accountId = row.accountId then some row
      else (newestAuthored log.revisions accountId).map annotate := by
    intro accountId
    rw [revisions, newestAuthored_append, newestAuthored_map annotates]
    by_cases same : accountId = row.accountId
    · simp [isAuthored, same, authored]
    · simp [isAuthored, same, Ne.symm same]
  constructor
  · have sameIds : RevisionRow.revisionId ∘ annotate = RevisionRow.revisionId :=
      funext annotates.revisionId
    rw [revisions, List.map_append, List.map_map, sameIds]
    refine List.Nodup.append inv.unique (List.nodup_singleton _) ?_
    intro id inOld inNew
    obtain ⟨old, stored, rfl⟩ := List.mem_map.mp inOld
    exact fresh old stored (List.mem_singleton.mp inNew)
  · intro candidate member
    by_cases same : candidate.accountId = row.accountId
    · rw [same, head]
      rfl
    · rw [revisions] at member
      rcases List.mem_append.mp member with marked | new
      · obtain ⟨old, stored, rfl⟩ := List.mem_map.mp marked
        rw [otherHeads _ same, annotates.accountId]
        exact inv.accounts old stored
      · rw [List.mem_singleton.mp new] at same
        exact absurd rfl same
  · intro accountId candidate found
    rw [newest] at found
    split at found
    · next same =>
        obtain rfl := Option.some.inj found
        subst same
        refine ⟨head, .inl (dirty ▸ isDirty_stampDirty _ _), ?_⟩
        -- the id is new, so it was never published
        intro earlier later parts sent
        obtain ⟨publication, member, same⟩ := sent
        obtain ⟨old, stored, sameId⟩ := inv.known publication
          (parts ▸ List.mem_append_left later member)
        exact absurd (sameId.trans same) (fresh old stored)
    · next different =>
        obtain ⟨old, newest, rfl⟩ := Option.map_eq_some_iff.mp found
        have queued := inv.queued accountId old newest
        have others : ∀ marker : DirtyMarker, marker.accountId = accountId →
            (marker ∈ log'.dirtyAccounts ↔ marker ∈ log.dirtyAccounts) := by
          intro marker owner
          rw [dirty]
          exact mem_stampDirty_of_ne (owner ▸ different)
        constructor
        · rw [annotates.revisionId, otherHeads _ different]
          exact queued.head
        · rw [annotates.revisionId]
          rcases queued.kept with ⟨marker, member, owner, same⟩ | ⟨anchored, none⟩
          · exact .inl ⟨marker, (others marker owner).mpr member, owner, same⟩
          · refine .inr ⟨annotates.anchored old anchored, ?_⟩
            intro marker member owner
            exact none marker ((others marker owner).mp member) owner
        · exact queued.nothingAfter.annotate annotates
  · intro marker member
    rw [newest]
    split
    · rfl
    · next different =>
        rw [dirty] at member
        rw [Option.isSome_map]
        exact inv.markers marker ((mem_stampDirty_of_ne different).mp member)
  · intro publication member
    obtain ⟨old, stored, same⟩ := inv.known publication member
    refine ⟨annotate old, ?_, (annotates.revisionId old).trans same⟩
    rw [revisions]
    exact List.mem_append_left _ (List.mem_map_of_mem stored)

/-! ## Ingest -/

/-- A foreign row is no one's newest. -/
theorem QueueInv.foreign {log log' : RevisionTables} {published : List Publication}
    {isTombstone : Bool} {nowMs : Int} (inv : QueueInv log published) (row : RevisionRow)
    (fresh : ∀ old ∈ log.revisions, old.revisionId ≠ row.revisionId)
    (placeholder : row.encNonce = .placeholder)
    (accounts : log'.accounts =
      freezeAccount log.accounts row.accountId row.revisionId isTombstone nowMs)
    (revisions : log'.revisions = log.revisions ++ [row])
    (dirty : log'.dirtyAccounts = log.dirtyAccounts) : QueueInv log' published := by
  obtain ⟨heads, known⟩ := headOf_freezeAccount accounts
  have newest : ∀ accountId,
      newestAuthored log'.revisions accountId = newestAuthored log.revisions accountId := by
    intro accountId
    rw [revisions, newestAuthored_append, if_neg]
    simp [isAuthored, placeholder]
  constructor
  · rw [revisions, List.map_append]
    refine List.Nodup.append inv.unique (List.nodup_singleton _) ?_
    intro id inOld inNew
    obtain ⟨old, stored, rfl⟩ := List.mem_map.mp inOld
    exact fresh old stored (List.mem_singleton.mp inNew)
  · intro candidate member
    rw [revisions] at member
    rcases List.mem_append.mp member with old | new
    · obtain ⟨head, held⟩ := Option.isSome_iff_exists.mp (inv.accounts candidate old)
      rw [heads _ head held]
      rfl
    · rw [List.mem_singleton.mp new]
      exact known
  · intro accountId candidate found
    rw [newest] at found
    have queued := inv.queued accountId candidate found
    refine ⟨heads _ _ queued.head, ?_, queued.nothingAfter⟩
    rw [dirty]
    exact queued.kept
  · intro marker member
    rw [dirty] at member
    rw [newest]
    exact inv.markers marker member
  · intro publication member
    obtain ⟨old, stored, same⟩ := inv.known publication member
    exact ⟨old, revisions ▸ List.mem_append_left _ stored, same⟩

theorem QueueInv.ingestLog {hash : CanonicalHash} {log log' : RevisionTables}
    {published : List Publication} {event : RevisionEvent} {isTombstone : Bool} {nowMs : Int}
    {outcome : IngestOutcome} (inv : QueueInv log published)
    (ingested : ingestLog hash log event isTombstone nowMs = .ok (log', outcome)) :
    QueueInv log' published := by
  rcases ingestLog_cases ingested with
    ⟨rfl, -, -⟩ | ⟨fresh, -, -, -, ⟨twin, -, rfl, -⟩ | ⟨-, rfl, -⟩⟩
  · exact inv
  · exact inv.annotate (annotates_stampAnchor twin.revisionId event.anchor) rfl
      (fun _ _ held => held) rfl
  · exact inv.foreign (foreignRow (hash event.content) event isTombstone nowMs) fresh rfl rfl rfl
      rfl

theorem QueueInv.ingestPending {hash : CanonicalHash} {vault : Vault}
    {published : List Publication} (inv : QueueInv vault.disk.log published)
    (event : RevisionEvent) (observedAtBlock observedBlockHash : Nat) (nowMs : Int)
    (now : Nat) :
    QueueInv (ingestPendingChainRevision hash vault event observedAtBlock observedBlockHash
      nowMs now).1.disk.log published := by
  rw [ingestPendingChainRevision_log]
  split
  · exact inv
  · next log outcome ingested =>
      have done := inv.ingestLog ingested
      split
      · exact done.annotate
          (annotates_stampPending event.anchor observedAtBlock observedBlockHash) rfl
          (fun _ _ held => held) rfl
      · exact done

theorem QueueInv.ingest {hash : CanonicalHash} {vault : Vault} {published : List Publication}
    (inv : QueueInv vault.disk.log published) (event : RevisionEvent) (nowMs : Int) (now : Nat) :
    QueueInv (ingestChainRevision hash vault event nowMs now).1.disk.log published := by
  unfold ingestChainRevision
  simp only [maybeExpireActiveSession_disk]
  split
  · simpa using inv
  · next log outcome ingested => simpa using inv.ingestLog ingested

/-! ## Coalescing -/

/-- At most one revision of each account is marked, its newest. -/
def Coalesced (log : RevisionTables) : Prop :=
  ∀ marker ∈ log.dirtyAccounts, ∀ row,
    newestAuthored log.revisions marker.accountId = some row → marker.revisionId = row.revisionId

/-- The marker of the head stays; every other one of an account that has it goes. -/
theorem isCoalesced_iff {log : RevisionTables} {marker : DirtyMarker} {head : RevisionId}
    (pointer : headOf log marker.accountId = some head)
    (dirty : IsDirty log.dirtyAccounts marker.accountId head)
    (member : marker ∈ log.dirtyAccounts) :
    isCoalesced log marker = true ↔ marker.revisionId ≠ head := by
  obtain ⟨account, found, rfl⟩ := Option.map_eq_some_iff.mp pointer
  simp only [isCoalesced, found, Option.any_some, Bool.and_eq_true, decide_eq_true_eq, ne_eq]
  constructor
  · rintro ⟨-, other⟩ same
    exact other same.symm
  · intro other
    refine ⟨?_, fun same => other same.symm⟩
    -- the marker of the head is a second one
    obtain ⟨headMarker, headMember, sameAccount, sameHead⟩ := dirty
    have different : marker ≠ headMarker := by
      intro equal
      exact other (equal ▸ sameHead)
    have both : ∀ item ∈ [marker, headMarker], item ∈ markersOf log marker.accountId := by
      simp [markersOf, member, headMember, sameAccount]
    exact List.Nodup.length_le_of_subset (by simpa using different) both

theorem QueueInv.coalesce {vault : Vault} {published : List Publication}
    (inv : QueueInv vault.disk.log published) :
    QueueInv (coalesceDirtyMarkers vault).1.disk.log published ∧
      Coalesced (coalesceDirtyMarkers vault).1.disk.log := by
  simp only [coalesceDirtyMarkers, withLog_log]
  refine ⟨⟨inv.unique, inv.accounts, ?_, ?_, inv.known⟩, ?_⟩
  · intro accountId row newest
    have queued := inv.queued accountId row newest
    refine ⟨queued.head, ?_, queued.nothingAfter⟩
    rcases queued.kept with dirty | ⟨anchored, none⟩
    · left
      obtain ⟨marker, member, rfl, same⟩ := dirty
      refine ⟨marker, List.mem_filter.mpr ⟨member, ?_⟩, rfl, same⟩
      have stays := (isCoalesced_iff queued.head ⟨marker, member, rfl, same⟩ member).not
      simpa [same] using stays
    · exact .inr ⟨anchored, fun marker member => none marker (List.mem_filter.mp member).1⟩
  · intro marker member
    exact inv.markers marker (List.mem_filter.mp member).1
  · intro marker member row newest
    obtain ⟨member, stays⟩ := List.mem_filter.mp member
    have queued := inv.queued marker.accountId row newest
    rcases queued.kept with dirty | ⟨-, none⟩
    · by_contra other
      have goes := (isCoalesced_iff queued.head dirty member).mpr other
      simp [goes] at stays
    · exact absurd rfl (none marker member)

/-! ## Publishing -/

theorem NothingAfter.append {published : List Publication} {accountId : AccountId}
    {row : RevisionRow} {publication : Publication}
    (nothing : NothingAfter published accountId row)
    (newest : publication.event.content.accountId = accountId → Publishes publication row) :
    NothingAfter (published ++ [publication]) accountId row := by
  intro earlier later parts sent candidate member owner
  rcases List.eq_nil_or_concat later with rfl | ⟨front, last, rfl⟩
  · cases member
  · rw [List.concat_eq_append, ← List.append_assoc] at parts
    obtain ⟨before, same⟩ := List.append_inj' parts rfl
    obtain rfl := List.singleton_inj.mp same
    rw [List.concat_eq_append] at member
    rcases List.mem_append.mp member with inFront | isLast
    · exact nothing earlier front before sent candidate inFront owner
    · rw [List.mem_singleton.mp isLast] at owner ⊢
      exact newest owner

/-- With unique ids the row of a marker is the newest row it names. -/
theorem QueueInv.found_newest {log : RevisionTables} {published : List Publication}
    (inv : QueueInv log published) {accountId : AccountId} {row newest : RevisionRow}
    (isNewest : newestAuthored log.revisions accountId = some newest)
    (found : findRevision log.revisions accountId newest.revisionId = some row) :
    row = newest := by
  obtain ⟨member, -, sameId⟩ := findRevision_eq_some found
  exact List.inj_on_of_nodup_map inv.unique member (newestAuthored_eq_some isNewest).1 sameId

/-- A publication of a newest row keeps the history in order. -/
theorem QueueInv.landed {log : RevisionTables} {published : List Publication}
    {newest : RevisionRow} (inv : QueueInv log published) (publication : Publication)
    (isNewest : newestAuthored log.revisions publication.event.content.accountId = some newest)
    (publishes : Publishes publication newest) :
    QueueInv log (published ++ [publication]) := by
  refine ⟨inv.unique, inv.accounts, ?_, inv.markers, ?_⟩
  · intro accountId row found
    have queued := inv.queued accountId row found
    refine ⟨queued.head, queued.kept, queued.nothingAfter.append ?_⟩
    intro owner
    rw [owner, found] at isNewest
    exact Option.some.inj isNewest ▸ publishes
  · intro candidate member
    rcases List.mem_append.mp member with old | new
    · exact inv.known candidate old
    · rw [List.mem_singleton.mp new]
      exact ⟨newest, (newestAuthored_eq_some isNewest).1, publishes.1.symm⟩

/-- The newest rows of two logs agree on their ids. -/
def SameNewest (log log' : RevisionTables) : Prop :=
  ∀ accountId, (newestAuthored log'.revisions accountId).map RevisionRow.revisionId =
    (newestAuthored log.revisions accountId).map RevisionRow.revisionId

theorem sameNewest_anchorRow (log : RevisionTables) (revisionId : RevisionId)
    (anchor : ChainAnchor) : SameNewest log (anchorRow log revisionId anchor) := by
  intro accountId
  have annotates := annotates_stampAnchor revisionId anchor
  rw [anchorRow, stampAnchor, newestAuthored_map annotates, Option.map_map]
  congr 1
  funext row
  exact annotates.revisionId row

/-- The marker of an anchored newest row may go once it is the account's only one. -/
theorem QueueInv.deleteMarker {log : RevisionTables} {published : List Publication}
    {accountId : AccountId} {row : RevisionRow} (inv : QueueInv log published)
    (coalesced : Coalesced log) (newest : newestAuthored log.revisions accountId = some row)
    (anchored : row.chainAnchor.isSome) :
    QueueInv (deleteMarker log accountId row.revisionId) published := by
  refine ⟨inv.unique, inv.accounts, ?_, ?_, inv.known⟩
  · intro other candidate found
    have queued := inv.queued other candidate found
    refine ⟨queued.head, ?_, queued.nothingAfter⟩
    by_cases same : other = accountId
    · subst same
      obtain rfl := Option.some.inj (newest.symm.trans found)
      refine .inr ⟨anchored, ?_⟩
      intro marker member owner
      obtain ⟨member, stays⟩ := List.mem_filter.mp member
      have named := coalesced marker member row (owner ▸ newest)
      simp [owner, named] at stays
    · rcases queued.kept with ⟨marker, member, owner, named⟩ | ⟨anchored, none⟩
      · refine .inl ⟨marker, List.mem_filter.mpr ⟨member, ?_⟩, owner, named⟩
        simp [owner, same]
      · exact .inr ⟨anchored, fun marker member => none marker (List.mem_filter.mp member).1⟩
  · intro marker member
    exact inv.markers marker (List.mem_filter.mp member).1

/-- What holds between two entries of a flush. -/
structure FlushInv (log : RevisionTables) (published : List Publication) : Prop where
  inv : QueueInv log published
  coalesced : Coalesced log

theorem FlushInv.committed {log log' : RevisionTables} {published : List Publication}
    {marker : DirtyMarker} {row : RevisionRow} (inv : FlushInv log published)
    (newest : newestAuthored log.revisions marker.accountId = some row)
    (named : marker.revisionId = row.revisionId) (committed : Committed log marker log') :
    FlushInv log' published ∧ SameNewest log log' := by
  have anchoring : ∀ anchor, FlushInv (anchorRow log marker.revisionId anchor) published := by
    intro anchor
    refine ⟨inv.inv.annotate (annotates_stampAnchor marker.revisionId anchor) rfl
      (fun _ _ held => held) rfl, ?_⟩
    intro other member candidate found
    rw [anchorRow, stampAnchor, newestAuthored_map
      (annotates_stampAnchor marker.revisionId anchor), Option.map_eq_some_iff] at found
    obtain ⟨old, found, rfl⟩ := found
    rw [(annotates_stampAnchor marker.revisionId anchor).revisionId]
    exact inv.coalesced other member old found
  cases committed with
  | unchanged => exact ⟨inv, fun _ => rfl⟩
  | anchored anchor => exact ⟨anchoring anchor, sameNewest_anchorRow _ _ _⟩
  | settled anchor =>
      have stamped : newestAuthored (anchorRow log marker.revisionId anchor).revisions
          marker.accountId = some { row with chainAnchor := some anchor } := by
        rw [anchorRow, stampAnchor,
          newestAuthored_map (annotates_stampAnchor marker.revisionId anchor), newest]
        simp [named]
      have cleared := (anchoring anchor).inv.deleteMarker (anchoring anchor).coalesced stamped rfl
      rw [named] at cleared ⊢
      refine ⟨⟨cleared, ?_⟩, sameNewest_anchorRow _ _ _⟩
      intro other member
      rw [← named] at member ⊢
      exact (anchoring anchor).coalesced other (List.mem_filter.mp member).1

theorem FlushInv.publishOne {vault : Vault} {marker : DirtyMarker}
    {published : List Publication} {row : RevisionRow}
    (inv : FlushInv vault.disk.log published)
    (newest : newestAuthored vault.disk.log.revisions marker.accountId = some row)
    (named : marker.revisionId = row.revisionId) (hash : CanonicalHash) (deviceKey : DeviceKey)
    (chainView : Option (List RevisionEvent)) (conditions : EntryConditions) :
    FlushInv (publishOne hash deviceKey chainView vault marker conditions).vault.disk.log
        (published ++ (publishOne hash deviceKey chainView vault marker conditions).landed) ∧
      SameNewest vault.disk.log
        (publishOne hash deviceKey chainView vault marker conditions).vault.disk.log := by
  obtain ⟨committed, landed⟩ :=
    publishOne_effect hash deviceKey chainView vault marker conditions
  generalize Store.publishOne hash deviceKey chainView vault marker conditions = step at *
  obtain ⟨vault', publications, result⟩ := step
  simp only at committed landed ⊢
  cases landed with
  | nothing =>
      rw [List.append_nil]
      exact inv.committed newest named committed
  | row found anchor stored =>
      rw [named] at stored
      obtain rfl := inv.inv.found_newest newest stored
      have sent : FlushInv vault.disk.log _ :=
        ⟨inv.inv.landed ⟨marker.revisionId, buildSignedRevision deviceKey
          vault.vaultMeta.vaultId marker.accountId (publishPayload found), anchor⟩ newest
          ⟨named, rfl⟩, inv.coalesced⟩
      exact sent.committed newest named committed

theorem FlushInv.publishEntries {hash : CanonicalHash} {deviceKey : DeviceKey}
    (conditions : FlushConditions) {vault : Vault} {markers : List DirtyMarker}
    {published : List Publication} (inv : FlushInv vault.disk.log published)
    (named : ∀ marker ∈ markers,
      (newestAuthored vault.disk.log.revisions marker.accountId).map RevisionRow.revisionId =
        some marker.revisionId) :
    FlushInv (publishEntries hash deviceKey conditions vault markers).vault.disk.log
      (published ++ (publishEntries hash deviceKey conditions vault markers).landed) := by
  induction markers generalizing vault published with
  | nil => simpa [Store.publishEntries] using inv
  | cons marker markers ih =>
      obtain ⟨row, newest, same⟩ :=
        Option.map_eq_some_iff.mp (named marker List.mem_cons_self)
      obtain ⟨first, sameNewest⟩ := inv.publishOne newest same.symm hash deviceKey
        conditions.chainView (conditions.entry marker)
      simp only [Store.publishEntries]
      rw [← List.append_assoc]
      apply ih first
      intro later member
      rw [sameNewest later.accountId]
      exact named later (List.mem_cons_of_mem _ member)

theorem QueueInv.flush {hash : CanonicalHash} {vault : Vault} {published : List Publication}
    (inv : QueueInv vault.disk.log published) (deviceKey : DeviceKey)
    (conditions : FlushConditions) :
    QueueInv (flushPublishQueue hash vault deviceKey conditions).vault.disk.log
      (published ++ (flushPublishQueue hash vault deviceKey conditions).landed) := by
  obtain ⟨coalesced, single⟩ := inv.coalesce
  have batch : ∀ pruned, QueueInv
      (flushBatch hash deviceKey conditions (coalesceDirtyMarkers vault).1 pruned).vault.disk.log
      (published ++
        (flushBatch hash deviceKey conditions (coalesceDirtyMarkers vault).1 pruned).landed) := by
    intro pruned
    refine (FlushInv.publishEntries conditions ⟨coalesced, single⟩ ?_).inv
    intro marker member
    have member := (List.perm_insertionSort _ _).mem_iff.mp member
    obtain ⟨row, newest⟩ := Option.isSome_iff_exists.mp (coalesced.markers marker member)
    rw [newest, Option.map_some, single marker member row newest]
  unfold flushPublishQueue
  split
  · simpa using inv
  simp only
  split
  · simpa using coalesced
  · split
    · simpa using coalesced
    · exact batch _
  · exact batch _

/-! ## Runs -/

/-- The vault, and what this device has put on the chain. -/
structure PublishWorld where
  vault : Vault
  published : List Publication

/-- The calls that write, publish or ingest revisions, and the session around them. -/
inductive PublishOp where
  | accountAdd (validated : Except StoreError AccountIdentity) (accountId : AccountId)
      (draw : WriteDraw)
  | accountUpdate (accountId : AccountId)
      (patch : AccountIdentity → Except StoreError AccountIdentity) (draw : WriteDraw)
  | deleteAccount (accountId : AccountId) (draw : WriteDraw)
  | resolveFork (accountId : AccountId) (keep : RevisionId) (draw : WriteDraw)
  | coalesce
  | flush (deviceKey : DeviceKey) (conditions : FlushConditions)
  | ingest (event : RevisionEvent) (nowMs : Int) (now : Nat)
  | ingestPending (event : RevisionEvent) (observedAtBlock observedBlockHash : Nat)
      (nowMs : Int) (now : Nat)
  | unlock (input : UnlockInput)
  | lock
  | reopen (placeholder : DeviceId) (sessionIdle : SessionDuration)

namespace PublishWorld

/-- The state a call leaves behind. -/
def step (hash : CanonicalHash) (world : PublishWorld) : PublishOp → PublishWorld
  | .accountAdd validated accountId draw =>
      { world with vault := (accountAdd world.vault validated accountId draw).1 }
  | .accountUpdate accountId patch draw =>
      { world with vault := (accountUpdate world.vault accountId patch draw).1 }
  | .deleteAccount accountId draw =>
      { world with vault := (deleteAccount world.vault accountId draw).1 }
  | .resolveFork accountId keep draw =>
      { world with vault := (resolveFork world.vault accountId keep draw).1 }
  | .coalesce => { world with vault := (coalesceDirtyMarkers world.vault).1 }
  | .flush deviceKey conditions =>
      let flushed := flushPublishQueue hash world.vault deviceKey conditions
      ⟨flushed.vault, world.published ++ flushed.landed⟩
  | .ingest event nowMs now =>
      { world with vault := (ingestChainRevision hash world.vault event nowMs now).1 }
  | .ingestPending event observedAtBlock observedBlockHash nowMs now =>
      { world with vault := (ingestPendingChainRevision hash world.vault event observedAtBlock
        observedBlockHash nowMs now).1 }
  | .unlock input => { world with vault := (unlock world.vault input).1 }
  | .lock => { world with vault := lock world.vault }
  | .reopen placeholder sessionIdle =>
      { world with vault := openVault world.vault.disk placeholder sessionIdle }

/-- A new vault that has published nothing, after a list of calls. -/
def run (hash : CanonicalHash) (password : Password) (draw : CreateDraw)
    (ops : List PublishOp) : PublishWorld :=
  ops.foldl (step hash) ⟨create password draw, []⟩

end PublishWorld

theorem QueueInv.writeCall {vault vault' : Vault} {drawn : RevisionId}
    {published : List Publication} (inv : QueueInv vault.disk.log published)
    (call : WriteCall vault vault' drawn) : QueueInv vault'.disk.log published := by
  rcases call with idle | ⟨active, row, payload, wrote, -⟩
  · rw [idle.disk]
    exact inv
  · exact inv.write wrote.fresh wrote.nonce wrote.log wrote.dirty

theorem QueueInv.step {hash : CanonicalHash} {world : PublishWorld}
    (inv : QueueInv world.vault.disk.log world.published) (op : PublishOp) :
    QueueInv (world.step hash op).vault.disk.log (world.step hash op).published := by
  cases op with
  | accountAdd validated accountId draw => exact inv.writeCall (accountAdd_writes _ _ _ _)
  | accountUpdate accountId patch draw => exact inv.writeCall (accountUpdate_writes _ _ _ _)
  | deleteAccount accountId draw => exact inv.writeCall (deleteAccount_writes _ _ _)
  | resolveFork accountId keep draw => exact inv.writeCall (resolveFork_writes _ _ _ _)
  | coalesce => exact inv.coalesce.1
  | flush deviceKey conditions => exact inv.flush deviceKey conditions
  | ingest event nowMs now => exact inv.ingest event nowMs now
  | ingestPending event observedAtBlock observedBlockHash nowMs now =>
      exact inv.ingestPending event observedAtBlock observedBlockHash nowMs now
  | unlock input =>
      obtain ⟨keys, written⟩ := unlock_disk world.vault input
      simp only [PublishWorld.step, written]
      exact inv
  | lock => exact inv
  | reopen placeholder sessionIdle => exact inv

theorem QueueInv.run (hash : CanonicalHash) (password : Password) (draw : CreateDraw)
    (ops : List PublishOp) :
    QueueInv (PublishWorld.run hash password draw ops).vault.disk.log
      (PublishWorld.run hash password draw ops).published := by
  apply List.foldlRecOn ops (PublishWorld.step hash)
    (motive := fun world => QueueInv world.vault.disk.log world.published)
  · refine ⟨List.nodup_nil, ?_, ?_, ?_, ?_⟩
    · intro row member
      cases member
    · intro accountId row newest
      cases newest
    · intro marker member
      cases member
    · intro publication member
      cases member
  · intro world inv op _
    exact inv.step op

/-- The newest revision a device authored for an account is on the chain or still in the
queue, whatever edits, flushes, failures and ingests came before.  If it is a tombstone,
nothing but that tombstone is published for the account after it. -/
theorem local_edits_reach_chain (hash : CanonicalHash) (password : Password) (draw : CreateDraw)
    (ops : List PublishOp) (accountId : AccountId) (row : RevisionRow)
    (newest : newestAuthored (PublishWorld.run hash password draw ops).vault.disk.log.revisions
      accountId = some row) :
    (row.chainAnchor.isSome ∨
      IsDirty (PublishWorld.run hash password draw ops).vault.disk.log.dirtyAccounts accountId
        row.revisionId) ∧
      (row.isTombstone →
        NothingAfter (PublishWorld.run hash password draw ops).published accountId row) := by
  have queued := (QueueInv.run hash password draw ops).queued accountId row newest
  refine ⟨?_, fun _ => queued.nothingAfter⟩
  rcases queued.kept with dirty | ⟨anchored, -⟩
  · exact .inr dirty
  · exact .inl anchored

namespace Sample

/-- The chain takes every transaction, but the first flush never hears of it. -/
def flush (reported : Bool) : PublishOp :=
  .flush device ⟨.ok none, some [], fun marker =>
    ⟨false, .landed ⟨marker.revisionId.raw, 1, 0⟩ reported, false, false, 0⟩⟩

/-- Two edits and a delete of account 1, with a flush after each. -/
def deleteRun : PublishWorld :=
  .run hash ⟨[1]⟩ ⟨⟨7⟩, ⟨1⟩, ⟨2⟩, ⟨3⟩, 0⟩
    [.unlock (unlockInput ⟨[1]⟩), .accountAdd (.ok identity) ⟨1⟩ (draw 51), flush false,
      .accountUpdate ⟨1⟩ .ok (draw 52), .deleteAccount ⟨1⟩ (draw 53), flush false,
      flush true]

end Sample

theorem local_edits_reach_chain_deleted :
    ∃ row, newestAuthored Sample.deleteRun.vault.disk.log.revisions ⟨1⟩ = some row ∧
      row.isTombstone ∧ row.chainAnchor.isSome ∧
      NothingAfter Sample.deleteRun.published ⟨1⟩ row := by
  obtain ⟨row, newest⟩ := Option.isSome_iff_exists.mp (by decide +kernel :
    (newestAuthored Sample.deleteRun.vault.disk.log.revisions ⟨1⟩).isSome)
  have deleted : (newestAuthored Sample.deleteRun.vault.disk.log.revisions ⟨1⟩).all
      fun row => row.isTombstone && row.chainAnchor.isSome := by
    decide +kernel
  rw [newest, Option.all_some, Bool.and_eq_true] at deleted
  obtain ⟨-, nothing⟩ := local_edits_reach_chain _ _ _ _ ⟨1⟩ row newest
  exact ⟨row, newest, deleted.1, deleted.2, nothing deleted.1⟩

end Pangolin
