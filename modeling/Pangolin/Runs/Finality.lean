import Pangolin.System

/-!
# Finalized rows

A row is meant to stay once it is finalized.  Promotion and rollback respect that:
the first only writes `finalized`, the second only deletes pending rows.  An ingest
stamps `pending` on every row carrying the event's anchor, whatever its status, so a
re-read of an event reopens a finalized row.  The runs in which no ingest does so are
exactly the ones described by `FinalitySafe`.
-/

namespace Pangolin

open Crypto Store Transition

/-- Every finalized row of the first table is in the second, and still finalized. -/
def KeepsFinalized (before after : List RevisionRow) : Prop :=
  ∀ row ∈ before, row.status = .finalized →
    ∃ kept ∈ after, kept.revisionId = row.revisionId ∧ kept.status = .finalized

instance (before after : List RevisionRow) : Decidable (KeepsFinalized before after) :=
  inferInstanceAs (Decidable (∀ row ∈ before, row.status = .finalized →
    ∃ kept ∈ after, kept.revisionId = row.revisionId ∧ kept.status = .finalized))

namespace KeepsFinalized

theorem refl (rows : List RevisionRow) : KeepsFinalized rows rows :=
  fun row member finalized => ⟨row, member, rfl, finalized⟩

theorem trans {first second third : List RevisionRow} (one : KeepsFinalized first second)
    (two : KeepsFinalized second third) : KeepsFinalized first third := by
  intro row member finalized
  obtain ⟨kept, keptMember, sameId, keptFinalized⟩ := one row member finalized
  obtain ⟨last, lastMember, lastId, lastFinalized⟩ := two kept keptMember keptFinalized
  exact ⟨last, lastMember, lastId.trans sameId, lastFinalized⟩

theorem map {rows : List RevisionRow} {change : RevisionRow → RevisionRow}
    (sameId : ∀ row ∈ rows, (change row).revisionId = row.revisionId)
    (sameStatus : ∀ row ∈ rows, row.status = .finalized → (change row).status = .finalized) :
    KeepsFinalized rows (rows.map change) := by
  intro row member finalized
  exact ⟨change row, List.mem_map_of_mem member, sameId row member,
    sameStatus row member finalized⟩

theorem append (rows more : List RevisionRow) : KeepsFinalized rows (rows ++ more) :=
  fun row member finalized => ⟨row, List.mem_append_left _ member, rfl, finalized⟩

end KeepsFinalized

/-! ## Promotion and rollback -/

theorem promoteFinalizedLog_keepsFinalized {log log' : RevisionTables} {head : Nat}
    (promoted : promoteFinalizedLog log head = .ok log') :
    KeepsFinalized log.revisions log'.revisions := by
  unfold promoteFinalizedLog at promoted
  simp only at promoted
  split at promoted
  · cases promoted
  · obtain rfl := Except.ok.inj promoted
    refine .map ?_ ?_
    · intro row _
      split <;> rfl
    · intro row _ finalized
      split
      · rfl
      · exact finalized

theorem rollbackPendingLog_keepsFinalized {log log' : RevisionTables} {low high : Nat}
    (rolledBack : rollbackPendingLog log low high = .ok log') :
    KeepsFinalized log.revisions log'.revisions := by
  unfold rollbackPendingLog at rolledBack
  split at rolledBack
  · cases rolledBack
  · split at rolledBack
    · cases rolledBack
    · obtain rfl := Except.ok.inj rolledBack
      intro row member finalized
      refine ⟨row, List.mem_filter.mpr ⟨member, ?_⟩, rfl, finalized⟩
      simp [rolledBackBy, finalized]

/-! ## Ingest -/

/-- The third check of the ingest picks this row to receive the event's anchor. -/
def ReceivesAnchor (hash : CanonicalHash) (rows : List RevisionRow) (event : RevisionEvent)
    (row : RevisionRow) : Prop :=
  (∀ other ∈ rows, other.revisionId ≠ hash event.content) ∧
    (∀ other ∈ rows, hasAnchor event.content.accountId event.anchor other = false) ∧
    (rows.find? (isUnanchoredTwin event.content)).map RevisionRow.revisionId =
      some row.revisionId

/-- An ingest of the event stamps a finalized row: one that carries the anchor
already, or the local row that is about to receive it. -/
def ReopensFinalized (hash : CanonicalHash) (rows : List RevisionRow) (event : RevisionEvent)
    (observedAtBlock : Nat) : Prop :=
  fitsColumns event observedAtBlock = true ∧
    ∃ row ∈ rows, row.status = .finalized ∧
      (row.chainAnchor = some event.anchor ∨ ReceivesAnchor hash rows event row)

instance (hash : CanonicalHash) (rows : List RevisionRow) (event : RevisionEvent)
    (row : RevisionRow) : Decidable (ReceivesAnchor hash rows event row) :=
  inferInstanceAs (Decidable (_ ∧ _ ∧ _))

instance (hash : CanonicalHash) (rows : List RevisionRow) (event : RevisionEvent)
    (observedAtBlock : Nat) : Decidable (ReopensFinalized hash rows event observedAtBlock) :=
  inferInstanceAs (Decidable (_ ∧ ∃ row ∈ rows, row.status = .finalized ∧
    (row.chainAnchor = some event.anchor ∨ ReceivesAnchor hash rows event row)))

/-- Stamping keeps the finalized rows when none of them carries the anchor. -/
theorem stampPending_keepsFinalized {rows : List RevisionRow} {anchor : ChainAnchor}
    {observedAtBlock observedBlockHash : Nat}
    (untouched : ∀ row ∈ rows, row.status = .finalized → row.chainAnchor ≠ some anchor) :
    KeepsFinalized rows (stampPending rows anchor observedAtBlock observedBlockHash) := by
  refine .map ?_ ?_
  · intro row _
    split <;> rfl
  · intro row member finalized
    rw [if_neg (untouched row member finalized)]
    exact finalized

theorem stampAnchor_keepsFinalized (rows : List RevisionRow) (revisionId : RevisionId)
    (anchor : ChainAnchor) : KeepsFinalized rows (stampAnchor rows revisionId anchor) := by
  refine .map ?_ ?_
  · intro row _
    split <;> rfl
  · intro row _ finalized
    split
    · exact finalized
    · exact finalized

/-- An ingest that succeeded on the log, stamp included. -/
theorem ingestLog_stamped_keepsFinalized {hash : CanonicalHash} {log log' : RevisionTables}
    {event : RevisionEvent} {isTombstone : Bool} {nowMs : Int} {outcome : IngestOutcome}
    {observedAtBlock : Nat} (observedBlockHash : Nat)
    (ingested : ingestLog hash log event isTombstone nowMs = .ok (log', outcome))
    (fits : fitsColumns event observedAtBlock = true)
    (safe : ¬ ReopensFinalized hash log.revisions event observedAtBlock) :
    KeepsFinalized log.revisions
      (stampPending log'.revisions event.anchor observedAtBlock observedBlockHash) := by
  have unanchored : ∀ row ∈ log.revisions, row.status = .finalized →
      row.chainAnchor ≠ some event.anchor :=
    fun row member finalized carries => safe ⟨fits, row, member, finalized, .inl carries⟩
  rcases ingestLog_cases ingested with
    ⟨rfl, -, -⟩ | ⟨newId, newAnchor, -, -, ⟨twin, found, rfl, -⟩ | ⟨-, rfl, -⟩⟩
  · exact stampPending_keepsFinalized unanchored
  · refine (stampAnchor_keepsFinalized log.revisions twin.revisionId event.anchor).trans ?_
    refine stampPending_keepsFinalized ?_
    -- A finalized row after the anchoring was finalized before it, under the same id.
    intro row member finalized carries
    obtain ⟨old, oldMember, rfl⟩ := List.mem_map.mp member
    split at finalized
    · next same =>
        refine safe ⟨fits, old, oldMember, finalized, .inr ⟨newId, newAnchor, ?_⟩⟩
        rw [found, Option.map_some, same]
    · next different =>
        rw [if_neg different] at carries
        exact unanchored old oldMember finalized carries
  · -- The fresh row is stamped at once; the older ones are untouched.
    intro row member finalized
    refine ⟨row, List.mem_map.mpr ⟨row, List.mem_append_left _ member, ?_⟩, rfl, finalized⟩
    rw [if_neg (unanchored row member finalized)]

/-- Without the stamp an ingest never reopens a row. -/
theorem ingestLog_keepsFinalized {hash : CanonicalHash} {log log' : RevisionTables}
    {event : RevisionEvent} {isTombstone : Bool} {nowMs : Int} {outcome : IngestOutcome}
    (ingested : ingestLog hash log event isTombstone nowMs = .ok (log', outcome)) :
    KeepsFinalized log.revisions log'.revisions := by
  rcases ingestLog_cases ingested with
    ⟨rfl, -, -⟩ | ⟨-, -, -, -, ⟨twin, -, rfl, -⟩ | ⟨-, rfl, -⟩⟩
  · exact .refl _
  · exact stampAnchor_keepsFinalized _ _ _
  · exact .append _ _

theorem ingestPending_keepsFinalized {hash : CanonicalHash} {vault : Vault}
    {event : RevisionEvent} {observedAtBlock : Nat}
    (safe : ¬ ReopensFinalized hash vault.disk.log.revisions event observedAtBlock)
    (observedBlockHash : Nat) (nowMs : Int) (now : Nat) :
    KeepsFinalized vault.disk.log.revisions
      (ingestPendingChainRevision hash vault event observedAtBlock observedBlockHash nowMs
        now).1.disk.log.revisions := by
  rw [ingestPendingChainRevision_log]
  split
  · exact .refl _
  · next log outcome ingested =>
      split
      · next fits => exact ingestLog_stamped_keepsFinalized _ ingested fits safe
      · exact ingestLog_keepsFinalized ingested

/-- A finalized row of the stamped table is an old row without the anchor. -/
theorem of_mem_stampPending {rows : List RevisionRow} {anchor : ChainAnchor}
    {observedAtBlock observedBlockHash : Nat} {row : RevisionRow}
    (member : row ∈ stampPending rows anchor observedAtBlock observedBlockHash)
    (finalized : row.status = .finalized) : row ∈ rows ∧ row.chainAnchor ≠ some anchor := by
  obtain ⟨old, oldMember, rfl⟩ := List.mem_map.mp member
  split at finalized
  · cases finalized
  · next different =>
      rw [if_neg different]
      exact ⟨oldMember, different⟩

/-- With columns that fit, an ingest does not fail. -/
theorem ingestLog_ok (hash : CanonicalHash) {event : RevisionEvent} {observedAtBlock : Nat}
    (fits : fitsColumns event observedAtBlock = true) (log : RevisionTables)
    (isTombstone : Bool) (nowMs : Int) :
    ∃ log' outcome, ingestLog hash log event isTombstone nowMs = .ok (log', outcome) := by
  simp only [fitsColumns, Bool.and_eq_true] at fits
  unfold ingestLog
  simp only [fits, not_true_eq_false, if_false]
  split
  · exact ⟨_, _, rfl⟩
  · split
    · exact ⟨_, _, rfl⟩
    · split
      · exact ⟨_, _, rfl⟩
      · exact ⟨_, _, rfl⟩

/-- The condition on an ingest is exact: under unique ids, one that reopens a
finalized row loses it. -/
theorem ingestPending_keepsFinalized_iff {hash : CanonicalHash} {vault : Vault}
    (unique : (vault.disk.log.revisions.map RevisionRow.revisionId).Nodup)
    (event : RevisionEvent) (observedAtBlock observedBlockHash : Nat) (nowMs : Int)
    (now : Nat) :
    KeepsFinalized vault.disk.log.revisions
        (ingestPendingChainRevision hash vault event observedAtBlock observedBlockHash nowMs
          now).1.disk.log.revisions ↔
      ¬ ReopensFinalized hash vault.disk.log.revisions event observedAtBlock := by
  refine ⟨?_, fun safe => ingestPending_keepsFinalized safe observedBlockHash nowMs now⟩
  rintro keeps ⟨fits, row, member, finalized, reached⟩
  obtain ⟨kept, keptMember, sameId, keptFinalized⟩ := keeps row member finalized
  obtain ⟨log', outcome, ingested⟩ := ingestLog_ok hash fits vault.disk.log
    (detectTombstoneBit (maybeExpireActiveSession vault now) event.content) nowMs
  rw [ingestPendingChainRevision_log, ingested] at keptMember
  simp only [fits, if_true] at keptMember
  obtain ⟨keptMember, unstamped⟩ := of_mem_stampPending keptMember keptFinalized
  have same : ∀ old ∈ vault.disk.log.revisions, old.revisionId = row.revisionId → old = row :=
    fun old oldMember => List.inj_on_of_nodup_map unique oldMember member
  rcases ingestLog_cases ingested with
    ⟨rfl, -, present⟩ | ⟨newId, -, -, -, ⟨twin, found, rfl, -⟩ | ⟨missing, rfl, -⟩⟩
  · obtain rfl := same kept keptMember sameId
    rcases reached with carries | ⟨newId, newAnchor, -⟩
    · exact unstamped carries
    · rcases present with ⟨old, oldMember, sameHash⟩ | ⟨old, oldMember, anchored⟩
      · exact newId old oldMember sameHash
      · rw [newAnchor old oldMember] at anchored
        cases anchored
  · obtain ⟨old, oldMember, rfl⟩ := List.mem_map.mp keptMember
    split at unstamped
    · exact unstamped rfl
    · next different =>
        rw [if_neg different] at sameId
        obtain rfl := same old oldMember sameId
        rcases reached with carries | ⟨-, -, sameTwin⟩
        · exact unstamped carries
        · rw [found, Option.map_some] at sameTwin
          exact different (Option.some.inj sameTwin).symm
  · rcases List.mem_append.mp keptMember with oldMember | fresh
    · obtain rfl := same kept oldMember sameId
      rcases reached with carries | ⟨-, -, found⟩
      · exact unstamped carries
      · rw [missing] at found
        cases found
    · rw [List.mem_singleton] at fresh
      subst fresh
      exact newId row member sameId.symm

/-! ## Runs -/

/-- The finality calls; an ingest only where it reopens no finalized row. -/
def FinalitySafe (hash : CanonicalHash) (vault : Vault) : Op → Prop
  | .ingestPending event observedAtBlock _ _ _ =>
      ¬ ReopensFinalized hash vault.disk.log.revisions event observedAtBlock
  | .promoteFinalized _ => True
  | .rollbackPending _ _ => True
  | _ => False

theorem step_keepsFinalized {scheme : ShareScheme} {hash : CanonicalHash} {vault : Vault}
    {op : Op} (safe : FinalitySafe hash vault op) :
    KeepsFinalized vault.disk.log.revisions (step scheme hash vault op).disk.log.revisions := by
  cases op with
  | ingestPending event observedAtBlock observedBlockHash nowMs now =>
      exact ingestPending_keepsFinalized safe observedBlockHash nowMs now
  | promoteFinalized head =>
      rw [step, promoteFinalizedRevisions_log]
      split
      · exact .refl _
      · next promoted => exact promoteFinalizedLog_keepsFinalized promoted
  | rollbackPending low high =>
      rw [step, rollbackPendingRevisionsInRange_log]
      split
      · exact .refl _
      · next rolledBack => exact rollbackPendingLog_keepsFinalized rolledBack
  | _ => exact absurd safe id

/-- Over every run of ingests, promotions and rollbacks in which no ingest reopens a
finalized row, a finalized row stays finalized and is never deleted. -/
theorem finalized_absorbing {scheme : ShareScheme} {hash : CanonicalHash}
    {start finish : Vault}
    (run : Reaches (step scheme hash) (FinalitySafe hash) start finish) :
    KeepsFinalized start.disk.log.revisions finish.disk.log.revisions :=
  run.relates (fun _ => True)
    (fun (before after : Vault) =>
      KeepsFinalized before.disk.log.revisions after.disk.log.revisions)
    (fun _ _ _ _ => trivial)
    (fun _ _ _ _ safe kept => kept.trans (step_keepsFinalized safe))
    trivial (.refl _)

/-! ## Re-reading a finalized event -/

/-- The calls that write the finality status, with no condition on the ingests. -/
def IsFinalityCall (_ : Vault) : Op → Prop
  | .ingestPending .. => True
  | .promoteFinalized _ => True
  | .rollbackPending _ _ => True
  | _ => False

/-- A foreign event of an account, at a block. -/
def foreignEvent (account block : Nat) : RevisionEvent :=
  ⟨⟨⟨7⟩, ⟨account⟩, .genesisParent, ⟨9⟩, 2, .bytes [1, 2, 3]⟩, ⟨5, block, 0⟩⟩

/-- A vault that has ingested an event of block 100 and seen twelve more blocks. -/
def syncedVault : Vault :=
  Sample.run Sample.vault
    [.ingestPending (foreignEvent 1 100) 100 77 0 0, .promoteFinalized 112]

/-- Later events, promotions and a rollback leave the finalized row alone. -/
theorem finalized_absorbing_synced :
    KeepsFinalized syncedVault.disk.log.revisions
      (Sample.run syncedVault
        [.ingestPending (foreignEvent 2 101) 101 78 1 1, .promoteFinalized 113,
          .rollbackPending 0 200]).disk.log.revisions :=
  finalized_absorbing (.foldl _ (by
    refine ⟨?_, trivial, trivial, trivial⟩
    show ¬ ReopensFinalized _ _ _ _
    decide))

/-- Re-reading the finalized event makes its row pending again, and a rollback of its
block then deletes it. -/
theorem reingest_loses_finalized :
    ¬ ∀ finish, Reaches (step countingScheme Sample.hash) IsFinalityCall syncedVault finish →
        KeepsFinalized syncedVault.disk.log.revisions finish.disk.log.revisions := by
  intro keeps
  have lost := keeps _ (.foldl
    [.ingestPending (foreignEvent 1 100) 100 77 1 1, .rollbackPending 100 100]
    (by exact ⟨trivial, trivial, trivial⟩))
  revert lost
  decide

end Pangolin
