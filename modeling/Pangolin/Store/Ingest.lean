import Pangolin.Store.Rekey

/-!
# Ingesting chain events and finality

A chain event is stored under its canonical hash unless one of three checks finds it
already present: by that hash, by its anchor, or as an unpublished local row with the
same content, which then receives the anchor.  Chain sync stamps what it ingests as
pending at an observed block; pending rows are later promoted to finalized or rolled
back by block range.
-/

namespace Pangolin.Store

open Crypto

/-- What the canonical hash of an event covers. -/
structure RevisionContent where
  vaultId : VaultId
  accountId : AccountId
  parent : RevisionId
  deviceId : DeviceId
  schemaVersion : Nat
  encPayload : Ciphertext
  deriving Repr, DecidableEq

structure RevisionEvent where
  content : RevisionContent
  anchor : ChainAnchor
  deriving Repr, DecidableEq

/-- `pangolin_chain::canonical_hash`, a keccak digest. -/
abbrev CanonicalHash := RevisionContent → RevisionId

inductive IngestOutcome where
  | inserted
  | alreadyPresent
  deriving Repr, DecidableEq

/-- `detect_tombstone_bit_at_ingest`: does the payload open as a tombstone under the
session VDK and the placeholder nonce? -/
def detectTombstoneBit (vault : Vault) (content : RevisionContent) : Bool :=
  match vault.active with
  | none => false
  | some active =>
      match content.encPayload.open? active.vdk .placeholder
          ⟨vault.vaultMeta.vaultId, content.accountId, content.parent,
            content.schemaVersion⟩ with
      | some (.tombstone accountId _) => accountId = content.accountId
      | _ => false

/-- The third check: a local row with the event's content and no anchor yet. -/
def isUnanchoredTwin (content : RevisionContent) (row : RevisionRow) : Bool :=
  row.accountId = content.accountId && row.parent = content.parent &&
    row.encPayload = content.encPayload && row.schemaVersion = content.schemaVersion &&
    row.deviceId = content.deviceId && row.chainAnchor.isNone

/-- The second check. -/
def hasAnchor (accountId : AccountId) (anchor : ChainAnchor) (row : RevisionRow) : Bool :=
  row.accountId = accountId && row.chainAnchor = some anchor

/-- The row of a genuinely foreign event: placeholder nonce, default epoch. -/
def foreignRow (revisionId : RevisionId) (event : RevisionEvent) (isTombstone : Bool)
    (nowMs : Int) : RevisionRow :=
  { revisionId
    accountId := event.content.accountId
    parent := event.content.parent
    deviceId := event.content.deviceId
    schemaVersion := event.content.schemaVersion
    createdAt := nowMs
    encPayload := event.content.encPayload
    encNonce := .placeholder
    isTombstone
    chainAnchor := some event.anchor }

/-- The account table after a foreign event: an existing account is frozen and keeps
its head, an unknown one is created frozen. -/
def freezeAccount (accounts : List AccountRow) (accountId : AccountId)
    (revisionId : RevisionId) (isTombstone : Bool) (nowMs : Int) : List AccountRow :=
  if accounts.any fun account => account.accountId = accountId then
    updateAccountRow accounts accountId fun account =>
      { account with
        frozenPendingResolve := true
        tombstoned := account.tombstoned || isTombstone
        lastModifiedAt := nowMs }
  else
    accounts ++ [⟨accountId, nowMs, nowMs, isTombstone, revisionId, true⟩]

/-- `UPDATE revisions SET chain_* WHERE revision_id = ?`. -/
def stampAnchor (revisions : List RevisionRow) (revisionId : RevisionId)
    (anchor : ChainAnchor) : List RevisionRow :=
  revisions.map fun row =>
    if row.revisionId = revisionId then { row with chainAnchor := some anchor } else row

/-- The body of `ingest_chain_revision` on the revision log. -/
def ingestLog (hash : CanonicalHash) (log : RevisionTables) (event : RevisionEvent)
    (isTombstone : Bool) (nowMs : Int) : Except StoreError (RevisionTables × IngestOutcome) :=
  let revisionId := hash event.content
  if log.revisions.any fun row => row.revisionId = revisionId then
    .ok (log, .alreadyPresent)
  else if ¬ fitsI64 event.anchor.blockNumber then
    .error (.corrupted
      "RevisionEvent.anchor.block_number does not fit in i64; refusing to store")
  else if ¬ fitsI64 event.anchor.logIndex then
    .error (.corrupted
      "RevisionEvent.anchor.log_index does not fit in i64; refusing to store")
  else if log.revisions.any (hasAnchor event.content.accountId event.anchor) then
    .ok (log, .alreadyPresent)
  else
    match log.revisions.find? (isUnanchoredTwin event.content) with
    | some twin =>
        .ok ({ log with revisions := stampAnchor log.revisions twin.revisionId event.anchor },
          .alreadyPresent)
    | none =>
        .ok ({ log with
          accounts := freezeAccount log.accounts event.content.accountId revisionId
            isTombstone nowMs
          revisions := log.revisions ++ [foreignRow revisionId event isTombstone nowMs] },
          .inserted)

/-- Stamp the pending status on every row carrying the anchor. -/
def stampPending (revisions : List RevisionRow) (anchor : ChainAnchor)
    (observedAtBlock observedBlockHash : Nat) : List RevisionRow :=
  revisions.map fun row =>
    if row.chainAnchor = some anchor then
      { row with
        status := .pending
        observedAtBlock := some observedAtBlock
        observedBlockHash := some observedBlockHash }
    else
      row

/-- `CONFIRMATION_DEPTH_FOR_FINALIZATION`. -/
def confirmationDepth : Nat := 12

/-- A pending row observed at or below the threshold. -/
def confirmedBy (threshold : Nat) (row : RevisionRow) : Bool :=
  row.status = .pending && row.observedAtBlock.any fun block => block ≤ threshold

/-- `promote_finalized_revisions`. -/
def promoteFinalizedLog (log : RevisionTables) (head : Nat) :
    Except StoreError RevisionTables :=
  let threshold := head - confirmationDepth
  if ¬ fitsI64 threshold then
    .error (.corrupted "promote_finalized_revisions: threshold overflow")
  else
    .ok { log with revisions := log.revisions.map fun row =>
      if confirmedBy threshold row then { row with status := .finalized } else row }

/-- A pending row observed in the block range. -/
def rolledBackBy (low high : Nat) (row : RevisionRow) : Bool :=
  row.status = .pending && row.observedAtBlock.any fun block => low ≤ block && block ≤ high

/-- `rollback_pending_revisions_in_range`: one `DELETE` on the revisions table. -/
def rollbackPendingLog (log : RevisionTables) (low high : Nat) :
    Except StoreError RevisionTables :=
  if ¬ fitsI64 low then
    .error (.corrupted "rollback_pending_revisions_in_range: block_low overflow")
  else if ¬ fitsI64 high then
    .error (.corrupted "rollback_pending_revisions_in_range: block_high overflow")
  else
    .ok { log with revisions := log.revisions.filter fun row => !rolledBackBy low high row }

/-! ## The calls on a vault -/

def withLog (vault : Vault) (log : RevisionTables) : Vault :=
  { vault with disk := { vault.disk with log } }

/-- `ingest_chain_revision`. -/
def ingestChainRevision (hash : CanonicalHash) (vault : Vault) (event : RevisionEvent)
    (nowMs : Int) (now : Nat) : Call IngestOutcome :=
  let vault := maybeExpireActiveSession vault now
  match ingestLog hash vault.disk.log event (detectTombstoneBit vault event.content) nowMs with
  | .error error => (vault, .error error)
  | .ok (log, outcome) => (touchSession (withLog vault log) now, .ok outcome)

/-- `ingest_pending_chain_revision`.  The stamp ignores what the ingest found; a block
number out of range fails after the ingest has committed. -/
def ingestPendingChainRevision (hash : CanonicalHash) (vault : Vault) (event : RevisionEvent)
    (observedAtBlock observedBlockHash : Nat) (nowMs : Int) (now : Nat) :
    Call IngestOutcome :=
  match ingestChainRevision hash vault event nowMs now with
  | (vault, .error error) => (vault, .error error)
  | (vault, .ok outcome) =>
      if ¬ fitsI64 observedAtBlock then
        (vault, .error (.corrupted
          "ingest_pending_chain_revision: observed_at_block does not fit in i64"))
      else if ¬ fitsI64 event.anchor.blockNumber then
        (vault, .error (.corrupted "event anchor block_number overflow"))
      else if ¬ fitsI64 event.anchor.logIndex then
        (vault, .error (.corrupted "event anchor log_index overflow"))
      else
        let revisions := stampPending vault.disk.log.revisions event.anchor observedAtBlock
          observedBlockHash
        (withLog vault { vault.disk.log with revisions }, .ok outcome)

/-- `promote_finalized_revisions`. -/
def promoteFinalizedRevisions (vault : Vault) (head : Nat) : Call Unit :=
  atomically vault do
    let log ← promoteFinalizedLog vault.disk.log head
    return (withLog vault log, ())

/-- `rollback_pending_revisions_in_range`. -/
def rollbackPendingRevisionsInRange (vault : Vault) (low high : Nat) : Call Unit :=
  atomically vault do
    let log ← rollbackPendingLog vault.disk.log low high
    return (withLog vault log, ())

/-- `mark_published`. -/
def markPublished (vault : Vault) (revisionId : RevisionId) (anchor : ChainAnchor)
    (now : Nat) : Call Unit :=
  let vault := maybeExpireActiveSession vault now
  if ¬ fitsI64 anchor.blockNumber then
    (vault, .error (.corrupted
      "chain anchor block_number does not fit in i64; refusing to store"))
  else if ¬ fitsI64 anchor.logIndex then
    (vault, .error (.corrupted "chain anchor log_index does not fit in i64; refusing to store"))
  else if vault.disk.log.revisions.any fun row => row.revisionId = revisionId then
    let revisions := stampAnchor vault.disk.log.revisions revisionId anchor
    (touchSession (withLog vault { vault.disk.log with revisions }) now, .ok ())
  else
    (vault, .error .revisionNotFound)

/-- `clear_frozen`: the chosen row must be a head; the freeze goes and the head pointer
moves to it.  Neither the tombstone flag nor the session's memory is touched. -/
def clearFrozen (vault : Vault) (accountId : AccountId) (chosen : RevisionId) (nowMs : Int)
    (now : Nat) : Call Unit :=
  let vault := maybeExpireActiveSession vault now
  let log := vault.disk.log
  let heads := (accountHeadRows log.revisions accountId).map RevisionRow.revisionId
  if (findAccount log accountId).isNone then
    (vault, .error .accountNotFound)
  else if (findRevision log.revisions accountId chosen).isNone then
    (vault, .error .revisionNotFound)
  else if ¬ chosen ∈ heads then
    (vault, .error (.notAHead accountId chosen heads))
  else
    let accounts := updateAccountRow log.accounts accountId fun account =>
      { account with
        frozenPendingResolve := false
        headRevisionId := chosen
        lastModifiedAt := nowMs }
    (touchSession (withLog vault { log with accounts }) now, .ok ())

/-! ## What the calls do to the log -/

@[simp] theorem withLog_log (vault : Vault) (log : RevisionTables) :
    (withLog vault log).disk.log = log := rfl

/-- The numbers `ingest_pending_chain_revision` has to store fit their columns. -/
def fitsColumns (event : RevisionEvent) (observedAtBlock : Nat) : Bool :=
  fitsI64 observedAtBlock && fitsI64 event.anchor.blockNumber && fitsI64 event.anchor.logIndex

/-- Everything a successful ingest can have done to the log. -/
theorem ingestLog_cases {hash : CanonicalHash} {log log' : RevisionTables}
    {event : RevisionEvent} {isTombstone : Bool} {nowMs : Int} {outcome : IngestOutcome}
    (ingested : ingestLog hash log event isTombstone nowMs = .ok (log', outcome)) :
    (log' = log ∧ outcome = .alreadyPresent ∧
      ((∃ row ∈ log.revisions, row.revisionId = hash event.content) ∨
        ∃ row ∈ log.revisions, hasAnchor event.content.accountId event.anchor row = true)) ∨
    ((∀ row ∈ log.revisions, row.revisionId ≠ hash event.content) ∧
      (∀ row ∈ log.revisions, hasAnchor event.content.accountId event.anchor row = false) ∧
      fitsI64 event.anchor.blockNumber = true ∧ fitsI64 event.anchor.logIndex = true ∧
      ((∃ twin, log.revisions.find? (isUnanchoredTwin event.content) = some twin ∧
          log' = { log with
            revisions := stampAnchor log.revisions twin.revisionId event.anchor } ∧
          outcome = .alreadyPresent) ∨
        (log.revisions.find? (isUnanchoredTwin event.content) = none ∧
          log' = { log with
            accounts := freezeAccount log.accounts event.content.accountId
              (hash event.content) isTombstone nowMs
            revisions := log.revisions ++
              [foreignRow (hash event.content) event isTombstone nowMs] } ∧
          outcome = .inserted))) := by
  unfold ingestLog at ingested
  simp only at ingested
  split at ingested
  · next present =>
      obtain ⟨rfl, rfl⟩ : log = log' ∧ IngestOutcome.alreadyPresent = outcome := by
        simpa using ingested
      refine .inl ⟨rfl, rfl, .inl ?_⟩
      simpa using present
  next absent =>
  split at ingested
  · cases ingested
  next blockFits =>
  split at ingested
  · cases ingested
  next indexFits =>
  split at ingested
  · next anchored =>
      obtain ⟨rfl, rfl⟩ : log = log' ∧ IngestOutcome.alreadyPresent = outcome := by
        simpa using ingested
      refine .inl ⟨rfl, rfl, .inr ?_⟩
      simpa using anchored
  next unanchored =>
  refine .inr ⟨by simpa using absent, by simpa using unanchored, by simpa using blockFits,
    by simpa using indexFits, ?_⟩
  split at ingested
  · next twin found =>
      simp only [Except.ok.injEq, Prod.mk.injEq] at ingested
      exact .inl ⟨twin, found, ingested.1.symm, ingested.2.symm⟩
  · next missing =>
      simp only [Except.ok.injEq, Prod.mk.injEq] at ingested
      exact .inr ⟨missing, ingested.1.symm, ingested.2.symm⟩

/-- The log after `ingest_pending_chain_revision`: the ingest's, with the rows of the
anchor stamped when the numbers fit. -/
theorem ingestPendingChainRevision_log (hash : CanonicalHash) (vault : Vault)
    (event : RevisionEvent) (observedAtBlock observedBlockHash : Nat) (nowMs : Int)
    (now : Nat) :
    (ingestPendingChainRevision hash vault event observedAtBlock observedBlockHash nowMs
        now).1.disk.log =
      match ingestLog hash vault.disk.log event
          (detectTombstoneBit (maybeExpireActiveSession vault now) event.content) nowMs with
      | .error _ => vault.disk.log
      | .ok (log, _) =>
          if fitsColumns event observedAtBlock then
            let revisions := stampPending log.revisions event.anchor observedAtBlock
              observedBlockHash
            { log with revisions }
          else
            log := by
  unfold ingestPendingChainRevision ingestChainRevision fitsColumns
  simp only [maybeExpireActiveSession_disk]
  cases ingestLog hash vault.disk.log event
      (detectTombstoneBit (maybeExpireActiveSession vault now) event.content) nowMs with
  | error error => simp
  | ok result =>
      obtain ⟨log, outcome⟩ := result
      by_cases blockFits : fitsI64 observedAtBlock = true
      · by_cases anchorFits : fitsI64 event.anchor.blockNumber = true
        · by_cases indexFits : fitsI64 event.anchor.logIndex = true
          · simp [blockFits, anchorFits, indexFits]
          · simp [blockFits, anchorFits, indexFits]
        · simp [blockFits, anchorFits]
      · simp [blockFits]

/-- The log after `promote_finalized_revisions`. -/
theorem promoteFinalizedRevisions_log (vault : Vault) (head : Nat) :
    (promoteFinalizedRevisions vault head).1.disk.log =
      match promoteFinalizedLog vault.disk.log head with
      | .error _ => vault.disk.log
      | .ok log => log := by
  unfold promoteFinalizedRevisions atomically
  cases promoteFinalizedLog vault.disk.log head <;> rfl

/-- The log after `rollback_pending_revisions_in_range`. -/
theorem rollbackPendingRevisionsInRange_log (vault : Vault) (low high : Nat) :
    (rollbackPendingRevisionsInRange vault low high).1.disk.log =
      match rollbackPendingLog vault.disk.log low high with
      | .error _ => vault.disk.log
      | .ok log => log := by
  unfold rollbackPendingRevisionsInRange atomically
  cases rollbackPendingLog vault.disk.log low high <;> rfl

end Pangolin.Store
