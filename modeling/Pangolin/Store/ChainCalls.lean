import Pangolin.Store.Ingest
import Pangolin.Store.Writes

/-!
# What the chain calls touch

Ingest, promotion, rollback and publication marks write the revision log and nothing
else of the file; an expired session is dropped on the way.
-/

namespace Pangolin.Store

open Crypto

theorem maybeExpireActiveSession_idle (vault : Vault) (now : Nat) :
    Idle vault (maybeExpireActiveSession vault now) := by
  unfold maybeExpireActiveSession
  split
  · split
    · exact ⟨rfl, rfl, rfl, .inr rfl⟩
    · exact .refl vault
  · exact .refl vault

/-- A chain call writes no other table and at most drops an expired session. -/
structure LogOnly (vault vault' : Vault) : Prop where
  vaultMeta : vault'.vaultMeta = vault.vaultMeta
  disk : vault'.disk = { vault.disk with log := vault'.disk.log }
  active : vault'.active = vault.active ∨ vault'.active = none

theorem LogOnly.keys {vault vault' : Vault} (call : LogOnly vault vault') :
    vault'.disk.keys = vault.disk.keys := by
  rw [call.disk]

theorem LogOnly.deviceSet {vault vault' : Vault} (call : LogOnly vault vault') :
    vault'.disk.deviceSet = vault.disk.deviceSet := by
  rw [call.disk]

theorem LogOnly.of_idle {vault vault' : Vault} (idle : Idle vault vault') :
    LogOnly vault vault' :=
  ⟨idle.vaultMeta, by rw [idle.disk], idle.active⟩

theorem LogOnly.trans {first second third : Vault} (one : LogOnly first second)
    (two : LogOnly second third) : LogOnly first third := by
  refine ⟨two.vaultMeta.trans one.vaultMeta, ?_, ?_⟩
  · rw [two.disk, one.disk]
  · cases two.active with
    | inl same =>
        rw [same]
        exact one.active
    | inr closed => exact .inr closed

theorem LogOnly.withLog {vault vault' : Vault} (before : LogOnly vault vault')
    (log : RevisionTables) : LogOnly vault (withLog vault' log) := by
  refine ⟨before.vaultMeta, ?_, before.active⟩
  rw [Store.withLog, before.disk]

theorem LogOnly.touchSession {vault vault' : Vault} (before : LogOnly vault vault') (now : Nat) :
    LogOnly vault (touchSession vault' now) := by
  constructor
  · simpa using before.vaultMeta
  · simpa using before.disk
  · simpa using before.active

theorem maybeExpire_logOnly (vault : Vault) (now : Nat) :
    LogOnly vault (maybeExpireActiveSession vault now) :=
  .of_idle (maybeExpireActiveSession_idle vault now)

theorem ingestChainRevision_logOnly (hash : CanonicalHash) (vault : Vault)
    (event : RevisionEvent) (nowMs : Int) (now : Nat) :
    LogOnly vault (ingestChainRevision hash vault event nowMs now).1 := by
  have expired := maybeExpire_logOnly vault now
  unfold ingestChainRevision
  simp only
  split
  · exact expired
  · exact (expired.withLog _).touchSession now

/-- An ingest that fails stores nothing. -/
theorem ingestChainRevision_error {hash : CanonicalHash} {vault vault' : Vault}
    {event : RevisionEvent} {nowMs : Int} {now : Nat} {error : StoreError}
    (failed : ingestChainRevision hash vault event nowMs now = (vault', .error error)) :
    vault'.disk = vault.disk := by
  unfold ingestChainRevision at failed
  simp only at failed
  split at failed
  · cases failed
    simp
  · cases failed

/-- One that goes through stores what its body returns. -/
theorem ingestChainRevision_eq_ok {hash : CanonicalHash} {vault vault' : Vault}
    {event : RevisionEvent} {nowMs : Int} {now : Nat} {outcome : IngestOutcome}
    (ingested : ingestChainRevision hash vault event nowMs now = (vault', .ok outcome)) :
    ∃ isTombstone, ingestLog hash vault.disk.log event isTombstone nowMs =
      .ok (vault'.disk.log, outcome) := by
  unfold ingestChainRevision at ingested
  simp only [maybeExpireActiveSession_disk] at ingested
  split at ingested
  · cases ingested
  · next stored =>
      cases ingested
      exact ⟨_, by simpa using stored⟩

theorem ingestPending_logOnly (hash : CanonicalHash) (vault : Vault) (event : RevisionEvent)
    (observedAtBlock observedBlockHash : Nat) (nowMs : Int) (now : Nat) :
    LogOnly vault (ingestPendingChainRevision hash vault event observedAtBlock
      observedBlockHash nowMs now).1 := by
  have ingested := ingestChainRevision_logOnly hash vault event nowMs now
  unfold ingestPendingChainRevision
  split
  · next failed =>
      rw [failed] at ingested
      exact ingested
  · next done =>
      rw [done] at ingested
      split
      · exact ingested
      split
      · exact ingested
      split
      · exact ingested
      · exact ingested.withLog _

theorem markPublished_logOnly (vault : Vault) (revisionId : RevisionId) (anchor : ChainAnchor)
    (now : Nat) : LogOnly vault (markPublished vault revisionId anchor now).1 := by
  have expired := maybeExpire_logOnly vault now
  unfold markPublished
  simp only
  split
  · exact expired
  split
  · exact expired
  split
  · exact (expired.withLog _).touchSession now
  · exact expired

theorem atomically_logOnly (vault : Vault) (write : Except StoreError RevisionTables) :
    LogOnly vault (atomically vault (do
      let log ← write
      return (withLog vault log, ()))).1 := by
  cases write with
  | error error => exact .of_idle (.refl vault)
  | ok log => exact (LogOnly.of_idle (.refl vault)).withLog log

theorem promoteFinalized_logOnly (vault : Vault) (head : Nat) :
    LogOnly vault (promoteFinalizedRevisions vault head).1 :=
  atomically_logOnly vault _

theorem rollbackPending_logOnly (vault : Vault) (low high : Nat) :
    LogOnly vault (rollbackPendingRevisionsInRange vault low high).1 :=
  atomically_logOnly vault _

/-- The log after `mark_published`: one row may receive the anchor. -/
theorem markPublished_log (vault : Vault) (revisionId : RevisionId) (anchor : ChainAnchor)
    (now : Nat) :
    (markPublished vault revisionId anchor now).1.disk.log = vault.disk.log ∨
      (markPublished vault revisionId anchor now).1.disk.log = { vault.disk.log with
        revisions := stampAnchor vault.disk.log.revisions revisionId anchor } := by
  unfold markPublished
  simp only [maybeExpireActiveSession_disk]
  split
  · simp
  split
  · simp
  split
  · simp
  · simp

/-- An anchor that does not fit its columns is refused. -/
theorem markPublished_unfit (vault : Vault) (revisionId : RevisionId) (anchor : ChainAnchor)
    (now : Nat) (unfit : ¬ (fitsI64 anchor.blockNumber = true ∧ fitsI64 anchor.logIndex = true)) :
    ∃ error, (markPublished vault revisionId anchor now).2 = .error error ∧
      (markPublished vault revisionId anchor now).1.disk.log = vault.disk.log := by
  unfold markPublished
  simp only
  split
  · exact ⟨_, rfl, by simp⟩
  next block =>
  split
  · exact ⟨_, rfl, by simp⟩
  next index =>
  exact absurd ⟨by simpa using block, by simpa using index⟩ unfit

/-- A publication mark that was stored. -/
theorem markPublished_ok (vault : Vault) (revisionId : RevisionId) (anchor : ChainAnchor)
    (now : Nat) (marked : (markPublished vault revisionId anchor now).2 = .ok ()) :
    (markPublished vault revisionId anchor now).1.disk.log = { vault.disk.log with
      revisions := stampAnchor vault.disk.log.revisions revisionId anchor } := by
  revert marked
  unfold markPublished
  simp only [maybeExpireActiveSession_disk]
  split
  · simp
  split
  · simp
  split
  · simp
  · simp

end Pangolin.Store
