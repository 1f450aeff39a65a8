import Pangolin.Store.ChainCalls

/-!
# Publishing local edits

Every local edit leaves a dirty marker.  A flush first coalesces the markers of each
account to the one of its head, asks the chain adapter whether the balance covers the
batch, and then publishes marker by marker: read the row, skip the submission if the
chain already shows it, otherwise submit, stamp the anchor and clear the marker.  Any
of these may fail, and a failure leaves the rest of the batch to run.

What the adapter, the database and the clock do to one entry is an input.
-/

namespace Pangolin.Store

open Crypto

/-! ## Dirty markers -/

/-- `ORDER BY marked_at, account_id, revision_id`. -/
def DirtyMarker.before (first second : DirtyMarker) : Prop :=
  first.markedAt < second.markedAt ∨
    (first.markedAt = second.markedAt ∧
      (first.accountId.raw < second.accountId.raw ∨
        (first.accountId = second.accountId ∧ first.revisionId.raw ≤ second.revisionId.raw)))

instance : DecidableRel DirtyMarker.before := fun first second =>
  inferInstanceAs (Decidable (first.markedAt < second.markedAt ∨
    (first.markedAt = second.markedAt ∧
      (first.accountId.raw < second.accountId.raw ∨
        (first.accountId = second.accountId ∧
          first.revisionId.raw ≤ second.revisionId.raw)))))

/-- `list_dirty`. -/
def listDirty (log : RevisionTables) : List DirtyMarker :=
  log.dirtyAccounts.insertionSort DirtyMarker.before

/-- The markers of one account. -/
def markersOf (log : RevisionTables) (accountId : AccountId) : List DirtyMarker :=
  log.dirtyAccounts.filter fun marker => marker.accountId = accountId

/-- A marker that coalescing deletes: its account has several, and a row whose head is
another revision. -/
def isCoalesced (log : RevisionTables) (marker : DirtyMarker) : Bool :=
  decide (2 ≤ (markersOf log marker.accountId).length) &&
    (findAccount log marker.accountId).any fun account =>
      account.headRevisionId ≠ marker.revisionId

/-- `coalesce_dirty_markers`, with the number of markers pruned. -/
def coalesceDirtyMarkers (vault : Vault) : Vault × Nat :=
  let log := vault.disk.log
  let dirtyAccounts := log.dirtyAccounts.filter fun marker => !isCoalesced log marker
  (withLog vault { log with dirtyAccounts }, log.dirtyAccounts.length - dirtyAccounts.length)

/-- `DELETE FROM dirty_accounts WHERE account_id = ? AND revision_id = ?`. -/
def deleteMarker (log : RevisionTables) (accountId : AccountId) (revisionId : RevisionId) :
    RevisionTables :=
  { log with dirtyAccounts := log.dirtyAccounts.filter fun marker =>
      !(marker.accountId = accountId && marker.revisionId = revisionId) }

/-- `clear_dirty`. -/
def clearDirty (vault : Vault) (accountId : AccountId) (revisionId : RevisionId) (now : Nat) :
    Call Unit :=
  let vault := maybeExpireActiveSession vault now
  (touchSession (withLog vault (deleteMarker vault.disk.log accountId revisionId)) now, .ok ())

/-! ## One entry -/

/-- What `read_revision_for_publish` returns. -/
structure RevisionPublishPayload where
  parent : RevisionId
  schemaVersion : Nat
  encPayload : Ciphertext
  deriving Repr, DecidableEq

/-- `read_revision_for_publish`. -/
def readRevisionForPublish (vault : Vault) (accountId : AccountId) (revisionId : RevisionId)
    (now : Nat) : Call RevisionPublishPayload :=
  let vault := maybeExpireActiveSession vault now
  match findRevision vault.disk.log.revisions accountId revisionId with
  | none => (vault, .error .revisionNotFound)
  | some row => (vault, .ok ⟨row.parent, row.schemaVersion, row.encPayload⟩)

/-- What becomes of a transaction handed to `ChainAdapter::publish`.  One that lands on
the chain may still be reported as failed. -/
inductive Submission where
  | landed (anchor : ChainAnchor) (reported : Bool)
  | rejected
  deriving Repr, DecidableEq

/-- The outside world of one entry: which database statements fail, what the adapter
does, and the clock. -/
structure EntryConditions where
  readFails : Bool
  submission : Submission
  markFails : Bool
  clearFails : Bool
  now : Nat
  deriving Repr, DecidableEq

inductive PublishOneError where
  | store (error : StoreError)
  | chain
  deriving Repr, DecidableEq

structure PublishedOutcome where
  anchor : ChainAnchor
  wasAlreadyOnChain : Bool
  deriving Repr, DecidableEq

/-- A transaction of this device on the chain: the local row it published and the event
it left. -/
structure Publication where
  revisionId : RevisionId
  event : RevisionEvent
  deriving Repr, DecidableEq

/-- What a publishing step leaves on the vault and on the chain, and returns. -/
structure PublishStep (α : Type) where
  vault : Vault
  landed : List Publication
  result : α
  deriving Repr

/-- A database statement that may fail; the expiry check in front of it runs anyway. -/
def unlessFails {α : Type} (fails : Bool) (vault : Vault) (now : Nat) (call : Call α) : Call α :=
  if fails then (maybeExpireActiveSession vault now, .error .sqlite) else call

/-- `mark_published` and then `clear_dirty`. -/
def commitPublished (vault : Vault) (marker : DirtyMarker) (anchor : ChainAnchor)
    (conditions : EntryConditions) : Call Unit :=
  let now := conditions.now
  match unlessFails conditions.markFails vault now
      (markPublished vault marker.revisionId anchor now) with
  | (vault, .error error) => (vault, .error error)
  | (vault, .ok ()) =>
      unlessFails conditions.clearFails vault now
        (clearDirty vault marker.accountId marker.revisionId now)

/-- The result of an entry that ends with its local commit. -/
def publishedOutcome (anchor : ChainAnchor) (wasAlreadyOnChain : Bool) :
    Except StoreError Unit → Except PublishOneError PublishedOutcome
  | .error error => .error (.store error)
  | .ok () => .ok ⟨anchor, wasAlreadyOnChain⟩

/-- `build_signed_revision`, up to the signature: the event a publication leaves. -/
def buildSignedRevision (deviceKey : DeviceKey) (vaultId : VaultId) (accountId : AccountId)
    (payload : RevisionPublishPayload) : RevisionContent :=
  { vaultId
    accountId
    parent := payload.parent
    deviceId := deviceKey.deviceId
    schemaVersion := payload.schemaVersion
    encPayload := payload.encPayload }

/-- `publish_one`. -/
def publishOne (hash : CanonicalHash) (deviceKey : DeviceKey)
    (chainView : Option (List RevisionEvent)) (vault : Vault) (marker : DirtyMarker)
    (conditions : EntryConditions) : PublishStep (Except PublishOneError PublishedOutcome) :=
  match unlessFails conditions.readFails vault conditions.now
      (readRevisionForPublish vault marker.accountId marker.revisionId conditions.now) with
  | (vault, .error error) => ⟨vault, [], .error (.store error)⟩
  | (vault, .ok payload) =>
      let signed := buildSignedRevision deviceKey vault.vaultMeta.vaultId marker.accountId payload
      match (chainView.getD []).find? fun event => hash event.content = hash signed with
      | some event =>
          let (vault, committed) := commitPublished vault marker event.anchor conditions
          ⟨vault, [], publishedOutcome event.anchor true committed⟩
      | none =>
          match conditions.submission with
          | .rejected => ⟨vault, [], .error .chain⟩
          | .landed anchor false =>
              ⟨vault, [⟨marker.revisionId, signed, anchor⟩], .error .chain⟩
          | .landed anchor true =>
              let (vault, committed) := commitPublished vault marker anchor conditions
              ⟨vault, [⟨marker.revisionId, signed, anchor⟩],
                publishedOutcome anchor false committed⟩

/-! ## The batch -/

structure PublishRow where
  accountId : AccountId
  revisionId : RevisionId
  outcome : Except PublishOneError PublishedOutcome

/-- The outside world of a flush. -/
structure FlushConditions where
  /-- `pre_flight_batch_balance`: needed and available, if the adapter can say. -/
  preFlight : Except Unit (Option (Nat × Nat))
  /-- `pull_since`; a failed pull skips the check against the chain. -/
  chainView : Option (List RevisionEvent)
  entry : DirtyMarker → EntryConditions

/-- The loop of `publish_all_for_vault`. -/
def publishEntries (hash : CanonicalHash) (deviceKey : DeviceKey)
    (conditions : FlushConditions) : Vault → List DirtyMarker → PublishStep (List PublishRow)
  | vault, [] => ⟨vault, [], []⟩
  | vault, marker :: markers =>
      let first := publishOne hash deviceKey conditions.chainView vault marker
        (conditions.entry marker)
      let rest := publishEntries hash deviceKey conditions first.vault markers
      ⟨rest.vault, first.landed ++ rest.landed,
        ⟨marker.accountId, marker.revisionId, first.result⟩ :: rest.result⟩

/-- `publish_all_for_vault`. -/
def publishAllForVault (hash : CanonicalHash) (deviceKey : DeviceKey)
    (conditions : FlushConditions) (vault : Vault) : PublishStep (List PublishRow) :=
  publishEntries hash deviceKey conditions vault (listDirty vault.disk.log)

inductive BatchFlushError where
  | balanceInsufficientForBatch (needed available queuedCount : Nat)
  | chainError
  | noActiveSession
  deriving Repr, DecidableEq

structure BatchFlushReport where
  coalescedMarkersPruned : Nat
  publishReport : List PublishRow

/-- The loop of `flush_publish_queue`, after the balance gate. -/
def flushBatch (hash : CanonicalHash) (deviceKey : DeviceKey) (conditions : FlushConditions)
    (vault : Vault) (pruned : Nat) : PublishStep (Except BatchFlushError BatchFlushReport) :=
  let batch := publishAllForVault hash deviceKey conditions vault
  ⟨batch.vault, batch.landed, .ok ⟨pruned, batch.result⟩⟩

/-- `flush_publish_queue`.  It asks for a session, not for a fresh one. -/
def flushPublishQueue (hash : CanonicalHash) (vault : Vault) (deviceKey : DeviceKey)
    (conditions : FlushConditions) : PublishStep (Except BatchFlushError BatchFlushReport) :=
  if vault.active.isNone then
    ⟨vault, [], .error .noActiveSession⟩
  else
    let (coalesced, pruned) := coalesceDirtyMarkers vault
    match conditions.preFlight with
    | .error () => ⟨coalesced, [], .error .chainError⟩
    | .ok (some (needed, available)) =>
        if available < needed then
          ⟨coalesced, [], .error (.balanceInsufficientForBatch needed available
            (listDirty coalesced.disk.log).length)⟩
        else
          flushBatch hash deviceKey conditions coalesced pruned
    | .ok none => flushBatch hash deviceKey conditions coalesced pruned

/-! ## What publishing does to the log -/

/-- The log with an anchor on one row. -/
def anchorRow (log : RevisionTables) (revisionId : RevisionId) (anchor : ChainAnchor) :
    RevisionTables :=
  { log with revisions := stampAnchor log.revisions revisionId anchor }

@[simp] theorem clearDirty_log (vault : Vault) (accountId : AccountId) (revisionId : RevisionId)
    (now : Nat) :
    (clearDirty vault accountId revisionId now).1.disk.log =
      deleteMarker vault.disk.log accountId revisionId := by
  simp [clearDirty]

/-- What the local commit of an entry can have done to the log: nothing, the anchor, or
the anchor and the marker. -/
inductive Committed (log : RevisionTables) (marker : DirtyMarker) : RevisionTables → Prop where
  | unchanged : Committed log marker log
  | anchored (anchor : ChainAnchor) :
      Committed log marker (anchorRow log marker.revisionId anchor)
  | settled (anchor : ChainAnchor) :
      Committed log marker
        (deleteMarker (anchorRow log marker.revisionId anchor) marker.accountId
          marker.revisionId)

/-- The local commit of an entry stores nothing, its anchor, or its anchor and the cleared
marker. -/
theorem commitPublished_cases (vault : Vault) (marker : DirtyMarker) (anchor : ChainAnchor)
    (conditions : EntryConditions) :
    (commitPublished vault marker anchor conditions).1.disk.log = vault.disk.log ∨
      (commitPublished vault marker anchor conditions).1.disk.log =
        anchorRow vault.disk.log marker.revisionId anchor ∨
      (commitPublished vault marker anchor conditions).1.disk.log =
        deleteMarker (anchorRow vault.disk.log marker.revisionId anchor) marker.accountId
          marker.revisionId := by
  unfold commitPublished unlessFails
  by_cases markFails : conditions.markFails = true
  · simp only [markFails, if_true, maybeExpireActiveSession_disk]
    exact .inl trivial
  simp only [markFails, if_false, Bool.false_eq_true]
  have stamped := markPublished_log vault marker.revisionId anchor conditions.now
  have onlyIfStored := markPublished_ok vault marker.revisionId anchor conditions.now
  generalize markPublished vault marker.revisionId anchor conditions.now = marked at *
  obtain ⟨vault', outcome⟩ := marked
  cases outcome with
  | error error =>
      rcases stamped with same | stamped
      · exact .inl same
      · exact .inr (.inl stamped)
  | ok done =>
      simp only at onlyIfStored ⊢
      have stamped := onlyIfStored trivial
      split
      · rw [maybeExpireActiveSession_disk, stamped]
        exact .inr (.inl rfl)
      · rw [clearDirty_log, stamped]
        exact .inr (.inr rfl)

theorem commitPublished_log (vault : Vault) (marker : DirtyMarker) (anchor : ChainAnchor)
    (conditions : EntryConditions) :
    Committed vault.disk.log marker
      (commitPublished vault marker anchor conditions).1.disk.log := by
  rcases commitPublished_cases vault marker anchor conditions with same | stamped | cleared
  · rw [same]
    exact .unchanged
  · rw [stamped]
    exact .anchored anchor
  · rw [cleared]
    exact .settled anchor

/-- An anchor that does not fit its columns is not committed. -/
theorem commitPublished_unfit (vault : Vault) (marker : DirtyMarker) (anchor : ChainAnchor)
    (conditions : EntryConditions)
    (unfit : ¬ (fitsI64 anchor.blockNumber = true ∧ fitsI64 anchor.logIndex = true)) :
    (commitPublished vault marker anchor conditions).1.disk.log = vault.disk.log := by
  obtain ⟨error, refused, unchanged⟩ :=
    markPublished_unfit vault marker.revisionId anchor conditions.now unfit
  unfold commitPublished unlessFails
  by_cases markFails : conditions.markFails = true
  · simp only [markFails, if_true, maybeExpireActiveSession_disk]
  simp only [markFails, if_false, Bool.false_eq_true]
  generalize markPublished vault marker.revisionId anchor conditions.now = marked at *
  obtain ⟨vault', outcome⟩ := marked
  simp only at refused unchanged
  subst refused
  exact unchanged

/-- Whatever it stores of the revisions table is the anchor. -/
theorem commitPublished_revisions (vault : Vault) (marker : DirtyMarker) (anchor : ChainAnchor)
    (conditions : EntryConditions) :
    (commitPublished vault marker anchor conditions).1.disk.log.revisions =
        vault.disk.log.revisions ∨
      ((commitPublished vault marker anchor conditions).1.disk.log.revisions =
          stampAnchor vault.disk.log.revisions marker.revisionId anchor ∧
        fitsI64 anchor.blockNumber = true ∧ fitsI64 anchor.logIndex = true) := by
  by_cases fits : fitsI64 anchor.blockNumber = true ∧ fitsI64 anchor.logIndex = true
  · rcases commitPublished_cases vault marker anchor conditions with same | stamped | cleared
    · rw [same]
      exact .inl rfl
    · rw [stamped]
      exact .inr ⟨rfl, fits⟩
    · rw [cleared]
      exact .inr ⟨rfl, fits⟩
  · rw [commitPublished_unfit vault marker anchor conditions fits]
    exact .inl rfl

theorem commitPublished_logOnly (vault : Vault) (marker : DirtyMarker) (anchor : ChainAnchor)
    (conditions : EntryConditions) :
    LogOnly vault (commitPublished vault marker anchor conditions).1 := by
  have marks : LogOnly vault (unlessFails conditions.markFails vault conditions.now
      (markPublished vault marker.revisionId anchor conditions.now)).1 := by
    unfold unlessFails
    split
    · exact maybeExpire_logOnly vault conditions.now
    · exact markPublished_logOnly vault marker.revisionId anchor conditions.now
  unfold commitPublished
  simp only
  generalize unlessFails conditions.markFails vault conditions.now
    (markPublished vault marker.revisionId anchor conditions.now) = marked at *
  obtain ⟨vault', outcome⟩ := marked
  cases outcome with
  | error error => exact marks
  | ok done =>
      have expired := marks.trans (maybeExpire_logOnly vault' conditions.now)
      simp only [unlessFails]
      split
      · exact expired
      · exact (expired.withLog _).touchSession conditions.now

/-- A row as `read_revision_for_publish` returns it. -/
def publishPayload (row : RevisionRow) : RevisionPublishPayload :=
  ⟨row.parent, row.schemaVersion, row.encPayload⟩

/-- What one entry leaves on the chain: nothing, or the row of the marker. -/
inductive Landed (deviceKey : DeviceKey) (vault : Vault) (marker : DirtyMarker) :
    List Publication → Prop where
  | nothing : Landed deviceKey vault marker []
  | row (row : RevisionRow) (anchor : ChainAnchor) :
      findRevision vault.disk.log.revisions marker.accountId marker.revisionId = some row →
      Landed deviceKey vault marker [⟨marker.revisionId,
        buildSignedRevision deviceKey vault.vaultMeta.vaultId marker.accountId
          (publishPayload row), anchor⟩]

/-- What one entry did to the log and to the chain. -/
theorem publishOne_effect (hash : CanonicalHash) (deviceKey : DeviceKey)
    (chainView : Option (List RevisionEvent)) (vault : Vault) (marker : DirtyMarker)
    (conditions : EntryConditions) :
    Committed vault.disk.log marker
        (publishOne hash deviceKey chainView vault marker conditions).vault.disk.log ∧
      Landed deviceKey vault marker
        (publishOne hash deviceKey chainView vault marker conditions).landed := by
  have idle := maybeExpireActiveSession_idle vault conditions.now
  have committed : ∀ anchor, Committed vault.disk.log marker (commitPublished
      (maybeExpireActiveSession vault conditions.now) marker anchor conditions).1.disk.log := by
    intro anchor
    rw [← idle.disk]
    exact commitPublished_log _ marker anchor conditions
  have unread : Committed vault.disk.log marker
      (maybeExpireActiveSession vault conditions.now).disk.log := by
    rw [idle.disk]
    exact .unchanged
  unfold publishOne unlessFails readRevisionForPublish
  by_cases readFails : conditions.readFails = true
  · simp only [readFails, if_true]
    exact ⟨unread, .nothing⟩
  simp only [readFails, if_false, Bool.false_eq_true, idle.disk]
  cases found : findRevision vault.disk.log.revisions marker.accountId marker.revisionId with
  | none => exact ⟨unread, .nothing⟩
  | some row =>
      simp only [idle.vaultMeta]
      split
      · exact ⟨committed _, .nothing⟩
      · split
        · exact ⟨unread, .nothing⟩
        · exact ⟨unread, .row row _ found⟩
        · exact ⟨committed _, .row row _ found⟩

/-- The anchor an entry stamps is that of the event it left, or of one the view shows with
the digest of the row. -/
theorem publishOne_revisions (hash : CanonicalHash) (deviceKey : DeviceKey)
    (chainView : Option (List RevisionEvent)) (vault : Vault) (marker : DirtyMarker)
    (conditions : EntryConditions) :
    (publishOne hash deviceKey chainView vault marker conditions).vault.disk.log.revisions =
        vault.disk.log.revisions ∨
      ∃ row event signed,
        findRevision vault.disk.log.revisions marker.accountId marker.revisionId = some row ∧
        signed = buildSignedRevision deviceKey vault.vaultMeta.vaultId marker.accountId
          (publishPayload row) ∧
        ((event ∈ chainView.getD [] ∧ hash event.content = hash signed) ∨
          (event ∈ (publishOne hash deviceKey chainView vault marker conditions).landed.map
            Publication.event ∧ event.content = signed)) ∧
        (publishOne hash deviceKey chainView vault marker conditions).vault.disk.log.revisions =
          stampAnchor vault.disk.log.revisions marker.revisionId event.anchor ∧
        fitsI64 event.anchor.blockNumber = true ∧ fitsI64 event.anchor.logIndex = true := by
  have idle := maybeExpireActiveSession_idle vault conditions.now
  have commits := fun anchor => commitPublished_revisions
    (maybeExpireActiveSession vault conditions.now) marker anchor conditions
  rw [idle.disk] at commits
  unfold publishOne unlessFails readRevisionForPublish
  by_cases readFails : conditions.readFails = true
  · simp only [readFails, if_true, idle.disk]
    exact .inl trivial
  simp only [readFails, if_false, Bool.false_eq_true, idle.disk]
  cases found : findRevision vault.disk.log.revisions marker.accountId marker.revisionId with
  | none => exact .inl (by rw [idle.disk])
  | some row =>
      simp only [idle.vaultMeta]
      split
      · next event seen =>
          have matched := List.find?_some seen
          simp only [decide_eq_true_eq] at matched
          exact (commits event.anchor).imp id fun stamped =>
            ⟨row, event, _, rfl, rfl, .inl ⟨List.mem_of_find?_eq_some seen, matched⟩, stamped⟩
      · split
        · exact .inl (by rw [idle.disk])
        · exact .inl (by rw [idle.disk])
        · next anchor _ =>
            exact (commits anchor).imp id fun stamped =>
              ⟨row, ⟨_, anchor⟩, _, rfl, rfl, .inr ⟨List.mem_singleton.mpr rfl, rfl⟩, stamped⟩

theorem publishOne_logOnly (hash : CanonicalHash) (deviceKey : DeviceKey)
    (chainView : Option (List RevisionEvent)) (vault : Vault) (marker : DirtyMarker)
    (conditions : EntryConditions) :
    LogOnly vault (publishOne hash deviceKey chainView vault marker conditions).vault := by
  have expired := maybeExpire_logOnly vault conditions.now
  have commits := fun anchor => expired.trans (commitPublished_logOnly
    (maybeExpireActiveSession vault conditions.now) marker anchor conditions)
  unfold publishOne unlessFails readRevisionForPublish
  by_cases readFails : conditions.readFails = true
  · simp only [readFails, if_true]
    exact expired
  simp only [readFails, if_false, Bool.false_eq_true]
  split
  · next failed =>
      split at failed
      · cases failed
        exact expired
      · cases failed
  · next read =>
      split at read
      · cases read
      · cases read
        split
        · exact commits _
        · split
          · exact expired
          · exact expired
          · exact commits _

end Pangolin.Store
