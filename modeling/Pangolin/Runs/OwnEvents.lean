import Pangolin.Runs.ForeignIngest
import Pangolin.Runs.PublishQueue
import Pangolin.Runs.Reorgs
import Pangolin.Store.HeadWrites

/-!
# A device and its own events

A revision is published under the id its device drew, and comes back from the chain as an
event without that id.  Ingest recognises it by the digest of the event, by the exact
transaction, block and log index the row carries, or, while the row carries no anchor, by
its content and device id.

A row is stamped once.  When its transaction is mined again in another block, or is mined
twice, the event that comes back has another anchor, the row is no longer without one, and
the event is stored as a foreign revision next to the row.  The same happens to an event
under another device id when the mark after its publication was lost.  These are the only
ways: an own event is recognised exactly when its row is stored and carries the event's
anchor, or carries none and is of the event's device.
-/

namespace Pangolin

open Crypto Store Transition

/-- The vault, and this device's transactions on the canonical chain. -/
structure OwnWorld where
  vault : Vault
  chain : List Publication

/-- The transaction an event was logged by. -/
def Store.Publication.txHash (publication : Publication) : Nat := publication.event.anchor.txHash

/-- The calls around a publication, and what the chain does meanwhile. -/
inductive OwnOp where
  /-- A local edit, or the session around it. -/
  | call (op : PublishOp)
  /-- `publish_one`: the transaction may be mined or not, be reported or not, and the mark
  after it may be lost. -/
  | publish (deviceKey : DeviceKey) (chainView : Option (List RevisionEvent))
      (marker : DirtyMarker) (conditions : EntryConditions)
  /-- A transaction to a log whose events carry a device id of their own. -/
  | submit (revisionId : RevisionId) (deviceId : DeviceId) (anchor : ChainAnchor)
  | markPublished (revisionId : RevisionId) (anchor : ChainAnchor) (now : Nat)
  /-- The transaction moves to another block or log index. -/
  | reorg (txHash blockNumber logIndex : Nat)
  | rollback (low high : Nat)
  | promote (head : Nat)
  /-- The event of a transaction is ingested, plainly or as pending at a block. -/
  | ingest (index : Nat) (observed : Option (Nat × Nat)) (nowMs : Int) (now : Nat)

/-- The event of a row under a device id. -/
def publishedContent (vaultId : VaultId) (deviceId : DeviceId) (row : RevisionRow) : RevisionContent :=
  ⟨vaultId, row.accountId, row.parent, deviceId, row.schemaVersion, row.encPayload⟩

def Store.Publication.moved (publication : Publication) (txHash blockNumber logIndex : Nat) :
    Publication :=
  if publication.txHash = txHash then
    ⟨publication.revisionId, publication.event.content, ⟨txHash, blockNumber, logIndex⟩⟩
  else
    publication

namespace OwnWorld

def step (hash : CanonicalHash) (world : OwnWorld) : OwnOp → OwnWorld
  | .call op => { world with vault := (PublishWorld.step hash ⟨world.vault, []⟩ op).vault }
  | .publish deviceKey chainView marker conditions =>
      let entry := publishOne hash deviceKey chainView world.vault marker conditions
      ⟨entry.vault, world.chain ++ entry.landed⟩
  | .submit revisionId deviceId anchor =>
      match Table.lookup RevisionRow.revisionId world.vault.disk.log.revisions revisionId with
      | none => world
      | some row =>
          { world with chain := world.chain ++
            [⟨revisionId, publishedContent world.vault.vaultMeta.vaultId deviceId row, anchor⟩] }
  | .markPublished revisionId anchor now =>
      { world with vault := (markPublished world.vault revisionId anchor now).1 }
  | .reorg txHash blockNumber logIndex =>
      { world with chain := world.chain.map fun publication =>
          publication.moved txHash blockNumber logIndex }
  | .rollback low high =>
      { world with vault := (rollbackPendingRevisionsInRange world.vault low high).1 }
  | .promote head => { world with vault := (promoteFinalizedRevisions world.vault head).1 }
  | .ingest index observed nowMs now =>
      match world.chain[index]? with
      | none => world
      | some publication =>
          match observed with
          | none =>
              { world with
                vault := (ingestChainRevision hash world.vault publication.event nowMs now).1 }
          | some (block, blockHash) =>
              { world with
                vault := (ingestPendingChainRevision hash world.vault publication.event block
                  blockHash nowMs now).1 }

end OwnWorld

/-- What the random id and nonce of a new row are good for: its id is no digest and was
never published, its ciphertext is new. -/
structure FreshRow (hash : CanonicalHash) (world : OwnWorld) (row : RevisionRow) : Prop where
  noDigest : ∀ content, hash content ≠ row.revisionId
  ciphertext : ∀ old ∈ world.vault.disk.log.revisions, old.encPayload ≠ row.encPayload
  unpublished : ∀ publication ∈ world.chain, publication.revisionId ≠ row.revisionId ∧
    publication.event.content.encPayload ≠ row.encPayload

/-- The local calls: edits and the session.  Publishing and ingesting are steps of their
own. -/
def PublishOp.IsLocal : PublishOp → Prop
  | .flush _ _ | .ingest _ _ _ | .ingestPending _ _ _ _ _ => False
  | _ => True

/-- The digest tells two contents apart. -/
def NoCollision (hash : CanonicalHash) (first second : RevisionContent) : Prop :=
  hash first = hash second → first = second

/-- What randomness, the digest and the chain owe a step.  Ids and nonces are fresh; what is
published collides with nothing on the chain; the view a publication gets shows events of
the chain; a new transaction has a new hash; an anchor that is marked is one the row's
transaction had. -/
def Physical (hash : CanonicalHash) (world : OwnWorld) : OwnOp → Prop
  | .call op => op.IsLocal ∧
      ∀ row ∈ (world.step hash (.call op)).vault.disk.log.revisions,
        (∀ old ∈ world.vault.disk.log.revisions, old.revisionId ≠ row.revisionId) →
          FreshRow hash world row
  | .publish deviceKey chainView marker conditions =>
      marker ∈ world.vault.disk.log.dirtyAccounts ∧
        chainView.getD [] ⊆ world.chain.map Publication.event ∧
        (∀ row ∈ world.vault.disk.log.revisions, ∀ publication ∈ world.chain,
          NoCollision hash publication.event.content
            (buildSignedRevision deviceKey world.vault.vaultMeta.vaultId marker.accountId
              (publishPayload row))) ∧
        ∀ landed ∈ (publishOne hash deviceKey chainView world.vault marker conditions).landed,
          ∀ publication ∈ world.chain, publication.txHash ≠ landed.txHash
  | .submit revisionId deviceId anchor =>
      (∀ row ∈ world.vault.disk.log.revisions, row.revisionId = revisionId → AuthoredHere row ∧
        ∀ publication ∈ world.chain, NoCollision hash publication.event.content
          (publishedContent world.vault.vaultMeta.vaultId deviceId row)) ∧
        ∀ publication ∈ world.chain, publication.txHash ≠ anchor.txHash
  | .markPublished revisionId anchor _ =>
      ∃ publication ∈ world.chain, publication.revisionId = revisionId ∧
        publication.txHash = anchor.txHash
  | _ => True

/-! ## Recognising an own event -/

/-- The ingest finds the event present, adds no row, changes no account and no head, and
leaves the published row with the event's anchor. -/
structure Recognised (hash : CanonicalHash) (vault : Vault) (publication : Publication)
    (nowMs : Int) (now : Nat) : Prop where
  outcome : (ingestChainRevision hash vault publication.event nowMs now).2 = .ok .alreadyPresent
  accounts : (ingestChainRevision hash vault publication.event nowMs now).1.disk.log.accounts =
    vault.disk.log.accounts
  revisions : (ingestChainRevision hash vault publication.event nowMs
      now).1.disk.log.revisions.map RevisionRow.revisionId =
    vault.disk.log.revisions.map RevisionRow.revisionId
  heads : ∀ accountId, (accountHeadRows (ingestChainRevision hash vault publication.event nowMs
      now).1.disk.log.revisions accountId).map RevisionRow.revisionId =
    (accountHeadRows vault.disk.log.revisions accountId).map RevisionRow.revisionId
  anchored : ∃ row ∈ (ingestChainRevision hash vault publication.event nowMs
      now).1.disk.log.revisions, row.revisionId = publication.revisionId ∧
    row.chainAnchor = some publication.event.anchor

/-- The published row is stored, and carries the event's anchor, or carries none, is of the
event's device, and the anchor can be stored. -/
def Recognisable (vault : Vault) (publication : Publication) : Prop :=
  ∃ row ∈ vault.disk.log.revisions, row.revisionId = publication.revisionId ∧
    (row.chainAnchor = some publication.event.anchor ∨
      (row.chainAnchor = none ∧ row.deviceId = publication.event.content.deviceId ∧
        fitsI64 publication.event.anchor.blockNumber = true ∧
        fitsI64 publication.event.anchor.logIndex = true))

/-- Every own event that is ingested can be recognised. -/
def MeetsRecognisable (world : OwnWorld) : OwnOp → Prop
  | .ingest index _ _ _ => ∀ publication, world.chain[index]? = some publication →
      Recognisable world.vault publication
  | _ => True

/-! ## The invariant of a run -/

/-- The row says what the event says, but for the device. -/
structure RowOf (row : RevisionRow) (content : RevisionContent) : Prop where
  accountId : row.accountId = content.accountId
  parent : row.parent = content.parent
  encPayload : row.encPayload = content.encPayload
  schemaVersion : row.schemaVersion = content.schemaVersion

/-- The event did not match its row by content: the row is anchored or of another device. -/
def Missed (revisions : List RevisionRow) (publication : Publication) : Prop :=
  ∀ row ∈ revisions, row.revisionId = publication.revisionId →
    row.chainAnchor ≠ none ∨ row.deviceId ≠ publication.event.content.deviceId

structure OwnInv (hash : CanonicalHash) (revisions : List RevisionRow)
    (dirtyAccounts : List DirtyMarker) (chain : List Publication) : Prop where
  unique : (revisions.map RevisionRow.revisionId).Nodup
  txs : (chain.map Publication.txHash).Nodup
  digests : ∀ first ∈ chain, ∀ second ∈ chain,
    NoCollision hash first.event.content second.event.content
  noDigest : ∀ row ∈ revisions, AuthoredHere row → ∀ content, hash content ≠ row.revisionId
  /-- Any other row is an own event that was not recognised. -/
  inserted : ∀ row ∈ revisions, ¬ AuthoredHere row → ∃ publication ∈ chain,
    row.revisionId = hash publication.event.content ∧
      (∃ anchor, row.chainAnchor = some anchor ∧ anchor.txHash = publication.txHash) ∧
      Missed revisions publication
  ciphertexts : ∀ first ∈ revisions, ∀ second ∈ revisions, AuthoredHere first →
    AuthoredHere second → first.encPayload = second.encPayload →
      first.revisionId = second.revisionId
  carried : ∀ publication ∈ chain, ∀ row ∈ revisions,
    row.revisionId = publication.revisionId → RowOf row publication.event.content
  publishedIds : ∀ publication ∈ chain, ∀ content, hash content ≠ publication.revisionId
  rowPublished : ∀ publication ∈ chain, ∀ row ∈ revisions, AuthoredHere row →
    row.encPayload = publication.event.content.encPayload →
      row.revisionId = publication.revisionId
  payloadIds : ∀ first ∈ chain, ∀ second ∈ chain,
    first.event.content.encPayload = second.event.content.encPayload →
      first.revisionId = second.revisionId
  /-- A row carries anchors of its own transactions only. -/
  anchors : ∀ row ∈ revisions, AuthoredHere row → ∀ anchor, row.chainAnchor = some anchor →
    ∃ publication ∈ chain, publication.revisionId = row.revisionId ∧
      publication.txHash = anchor.txHash
  fits : ∀ row ∈ revisions, ∀ anchor, row.chainAnchor = some anchor →
    fitsI64 anchor.blockNumber = true ∧ fitsI64 anchor.logIndex = true
  markers : ∀ marker ∈ dirtyAccounts, ∀ content, hash content ≠ marker.revisionId

/-! ## One ingest -/

section

variable {hash : CanonicalHash} {log : RevisionTables} {event : RevisionEvent}
variable {isTombstone : Bool} {nowMs : Int}

/-- The three ways an event is found present. -/
theorem ingestLog_present
    (known : (∃ row ∈ log.revisions, row.revisionId = hash event.content) ∨
      (fitsI64 event.anchor.blockNumber = true ∧ fitsI64 event.anchor.logIndex = true ∧
        ∃ row ∈ log.revisions, hasAnchor event.content.accountId event.anchor row = true)) :
    ingestLog hash log event isTombstone nowMs = .ok (log, .alreadyPresent) := by
  unfold ingestLog
  simp only
  split
  · rfl
  next absent =>
  have noDigest : ¬ ∃ row ∈ log.revisions, row.revisionId = hash event.content := by
    simpa using absent
  obtain ⟨block, index, anchored⟩ := known.resolve_left noDigest
  have found : log.revisions.any (hasAnchor event.content.accountId event.anchor) = true :=
    List.any_eq_true.mpr anchored
  simp only [block, index, found, not_true_eq_false, if_false, if_true]

theorem ingestLog_twin (new : NewTo hash log event) {twin : RevisionRow}
    (found : twinOf log event = some twin) :
    ingestLog hash log event isTombstone nowMs =
      .ok ({ log with revisions := stampAnchor log.revisions twin.revisionId event.anchor },
        .alreadyPresent) := by
  have noHash : (log.revisions.any fun row => row.revisionId = hash event.content) = false := by
    simpa using new.hash
  have noAnchor : log.revisions.any (hasAnchor event.content.accountId event.anchor) = false := by
    simpa using new.anchor
  unfold twinOf at found
  rw [ingestLog]
  simp only [noHash, noAnchor, new.block, new.index, not_true_eq_false, Bool.false_eq_true,
    if_false, found]

end

/-- A stamp moves no head. -/
theorem accountHeadRows_stampAnchor (revisions : List RevisionRow) (revisionId : RevisionId)
    (anchor : ChainAnchor) (accountId : AccountId) :
    (accountHeadRows (stampAnchor revisions revisionId anchor) accountId).map
        RevisionRow.revisionId =
      (accountHeadRows revisions accountId).map RevisionRow.revisionId := by
  have children : ∀ row, hasUnrevokedChild (stampAnchor revisions revisionId anchor) row =
      hasUnrevokedChild revisions row := by
    intro row
    unfold hasUnrevokedChild stampAnchor
    rw [List.any_map]
    congr 1
    funext child
    rw [Function.comp]
    split <;> rfl
  unfold accountHeadRows isHeadRow
  simp only [children]
  unfold stampAnchor
  rw [List.filter_map, List.map_map]
  have sameRows : ∀ test : RevisionRow → Bool,
      (∀ row, test { row with chainAnchor := some anchor } = test row) →
      revisions.filter (test ∘ fun row =>
        if row.revisionId = revisionId then { row with chainAnchor := some anchor } else row) =
          revisions.filter test := by
    intro test blind
    apply List.filter_congr
    intro row _
    rw [Function.comp]
    split
    · exact blind row
    · rfl
  rw [sameRows]
  · apply List.map_congr_left
    intro row _
    rw [Function.comp]
    split <;> rfl
  · intro row
    rfl

/-- A call that finds its event present, from what it did to the log. -/
theorem recognised_of_log {hash : CanonicalHash} {vault : Vault} {publication : Publication}
    {nowMs : Int} {now : Nat} (revisions : List RevisionRow)
    (ingested : ∀ isTombstone, ingestLog hash vault.disk.log publication.event isTombstone nowMs =
      .ok ({ vault.disk.log with revisions }, .alreadyPresent))
    (ids : revisions.map RevisionRow.revisionId =
      vault.disk.log.revisions.map RevisionRow.revisionId)
    (heads : ∀ accountId, (accountHeadRows revisions accountId).map RevisionRow.revisionId =
      (accountHeadRows vault.disk.log.revisions accountId).map RevisionRow.revisionId)
    (anchored : ∃ row ∈ revisions, row.revisionId = publication.revisionId ∧
      row.chainAnchor = some publication.event.anchor) :
    Recognised hash vault publication nowMs now := by
  have call : ∃ vault', ingestChainRevision hash vault publication.event nowMs now =
      (vault', .ok .alreadyPresent) ∧
        vault'.disk.log = { vault.disk.log with revisions } := by
    unfold ingestChainRevision
    simp only [maybeExpireActiveSession_disk, ingested]
    exact ⟨_, rfl, by simp⟩
  obtain ⟨vault', result, stored⟩ := call
  constructor
  · rw [result]
  · rw [result, stored]
  · rw [result, stored]
    exact ids
  · rw [result, stored]
    exact heads
  · rw [result, stored]
    exact anchored

section

variable {hash : CanonicalHash} {vault : Vault} {chain : List Publication}
variable {publication : Publication} {nowMs : Int} {now : Nat}

/-- A row the event has matched, or would match, makes it recognisable. -/
theorem recognisable_of_recognised
    (unique : (vault.disk.log.revisions.map RevisionRow.revisionId).Nodup)
    (recognised : Recognised hash vault publication nowMs now) :
    Recognisable vault publication := by
  obtain ⟨outcome, -, -, -, row, stored, sameId, anchored⟩ := recognised
  cases call : ingestChainRevision hash vault publication.event nowMs now with
  | mk vault' result =>
      rw [call] at outcome stored
      simp only at outcome stored
      subst outcome
      obtain ⟨isTombstone, ingested⟩ := ingestChainRevision_eq_ok call
      rcases ingestLog_cases ingested with
        ⟨same, -, -⟩ | ⟨-, -, block, index, ⟨twin, found, stamped, -⟩ | ⟨-, -, impossible⟩⟩
      · rw [same] at stored
        exact ⟨row, stored, sameId, .inl anchored⟩
      · rw [stamped] at stored
        obtain ⟨old, oldStored, rfl⟩ := List.mem_map.mp stored
        by_cases isTwin : old.revisionId = twin.revisionId
        · obtain rfl : old = twin := List.inj_on_of_nodup_map unique oldStored
            (List.mem_of_find?_eq_some found) isTwin
          rw [if_pos rfl] at sameId
          obtain ⟨-, -, -, -, device, bare⟩ := isUnanchoredTwin_iff.mp (List.find?_some found)
          exact ⟨old, oldStored, sameId, .inr ⟨bare, device, block, index⟩⟩
        · rw [if_neg isTwin] at sameId anchored
          exact ⟨old, oldStored, sameId, .inl anchored⟩
      · cases impossible

/-- An event whose row carries no anchor yet is new, and the row is its only twin. -/
theorem OwnInv.twin
    (inv : OwnInv hash vault.disk.log.revisions vault.disk.log.dirtyAccounts chain)
    (published : publication ∈ chain) {row : RevisionRow}
    (stored : row ∈ vault.disk.log.revisions) (sameId : row.revisionId = publication.revisionId)
    (bare : row.chainAnchor = none) (device : row.deviceId = publication.event.content.deviceId)
    (block : fitsI64 publication.event.anchor.blockNumber = true)
    (index : fitsI64 publication.event.anchor.logIndex = true) :
    NewTo hash vault.disk.log publication.event ∧
      twinOf vault.disk.log publication.event = some row := by
  have carried := inv.carried publication published row stored sameId
  have authored : AuthoredHere row := by
    by_contra foreign
    obtain ⟨other, -, -, ⟨anchor, anchored, -⟩, -⟩ := inv.inserted row stored foreign
    rw [bare] at anchored
    cases anchored
  have ofId : ∀ other ∈ vault.disk.log.revisions,
      other.revisionId = publication.revisionId → other = row :=
    fun other otherStored same => List.inj_on_of_nodup_map inv.unique otherStored stored
      (same.trans sameId.symm)
  have noDigest : ∀ other ∈ vault.disk.log.revisions,
      other.revisionId ≠ hash publication.event.content := by
    intro other otherStored isDigest
    by_cases own : AuthoredHere other
    · exact inv.noDigest other otherStored own _ isDigest.symm
    · -- the stored digest is this event's, which would not have missed the bare row
      obtain ⟨before, beforePublished, digest, -, missed⟩ := inv.inserted other otherStored own
      have sameContent : before.event.content = publication.event.content :=
        inv.digests before beforePublished publication published (digest.symm.trans isDigest)
      have sameRevision : before.revisionId = publication.revisionId :=
        inv.payloadIds before beforePublished publication published (by rw [sameContent])
      rcases missed row stored (sameId.trans sameRevision.symm) with anchored | elsewhere
      · exact anchored bare
      · rw [sameContent] at elsewhere
        exact elsewhere device
  refine ⟨⟨noDigest, ?_, block, index⟩, ?_⟩
  · intro other otherStored
    rw [Bool.eq_false_iff]
    intro anchored
    have anchor : other.chainAnchor = some publication.event.anchor := by
      simp only [hasAnchor, Bool.and_eq_true, decide_eq_true_eq] at anchored
      exact anchored.2
    have sameTx : ∀ before ∈ chain, before.txHash = publication.txHash → before = publication :=
      fun before beforePublished same =>
        List.inj_on_of_nodup_map inv.txs beforePublished published same
    by_cases own : AuthoredHere other
    · obtain ⟨before, beforePublished, isOther, tx⟩ :=
        inv.anchors other otherStored own _ anchor
      obtain rfl := sameTx before beforePublished tx
      rw [ofId other otherStored isOther.symm, bare] at anchor
      cases anchor
    · obtain ⟨before, beforePublished, digest, ⟨held, holds, tx⟩, -⟩ :=
        inv.inserted other otherStored own
      have sameAnchor : held = publication.event.anchor := by
        rw [anchor] at holds
        exact (Option.some.inj holds).symm
      rw [sameAnchor] at tx
      obtain rfl := sameTx before beforePublished tx.symm
      exact noDigest other otherStored digest
  · have isTwin : isUnanchoredTwin publication.event.content row = true :=
      isUnanchoredTwin_iff.mpr ⟨carried.accountId, carried.parent, carried.encPayload,
        carried.schemaVersion, device, bare⟩
    cases found : twinOf vault.disk.log publication.event with
    | none =>
        have none := List.find?_eq_none.mp found row stored
        exact absurd isTwin none
    | some twin =>
        obtain ⟨twinStored, twinIs⟩ := twinOf_eq_some found
        obtain ⟨-, -, payload, -, -, twinBare⟩ := isUnanchoredTwin_iff.mp twinIs
        have twinAuthored : AuthoredHere twin := by
          by_contra foreign
          obtain ⟨other, -, -, ⟨anchor, anchored, -⟩, -⟩ := inv.inserted twin twinStored foreign
          rw [twinBare] at anchored
          cases anchored
        have sameRevision := inv.ciphertexts twin twinStored row stored twinAuthored authored
          (payload.trans carried.encPayload.symm)
        rw [ofId twin twinStored (sameRevision.trans sameId)]

/-- An own event is recognised exactly when its row is stored and carries the event's
anchor, or carries none and is of the event's device. -/
theorem OwnInv.recognised_iff
    (inv : OwnInv hash vault.disk.log.revisions vault.disk.log.dirtyAccounts chain)
    (published : publication ∈ chain) :
    Recognised hash vault publication nowMs now ↔ Recognisable vault publication := by
  constructor
  · exact recognisable_of_recognised inv.unique
  · rintro ⟨row, stored, sameId, held | ⟨bare, device, block, index⟩⟩
    · have carried := inv.carried publication published row stored sameId
      obtain ⟨block, index⟩ := inv.fits row stored _ held
      apply recognised_of_log vault.disk.log.revisions
      · intro isTombstone
        apply ingestLog_present
        refine .inr ⟨block, index, row, stored, ?_⟩
        simp [hasAnchor, carried.accountId, held]
      · rfl
      · intro accountId
        rfl
      · exact ⟨row, stored, sameId, held⟩
    · obtain ⟨new, twin⟩ := inv.twin published stored sameId bare device block index
      apply recognised_of_log (stampAnchor vault.disk.log.revisions row.revisionId
        publication.event.anchor)
      · intro isTombstone
        exact ingestLog_twin new twin
      · exact map_revisionId_stampAnchor _ _ _
      · intro accountId
        exact accountHeadRows_stampAnchor _ _ _ _
      · refine ⟨{ row with chainAnchor := some publication.event.anchor }, ?_, sameId, rfl⟩
        apply List.mem_map.mpr
        exact ⟨row, stored, if_pos rfl⟩

end

/-! ## What keeps the invariant -/

/-- A row with the same content, whose anchor is the old one or that of one of its own
transactions. -/
structure Reanchored (chain : List Publication) (old new : RevisionRow) : Prop
    extends SameContent old new where
  deviceId : new.deviceId = old.deviceId
  anchor : new.chainAnchor = old.chainAnchor ∨
    (AuthoredHere old ∧ ∃ anchor, new.chainAnchor = some anchor ∧
      fitsI64 anchor.blockNumber = true ∧ fitsI64 anchor.logIndex = true ∧
      ∃ publication ∈ chain, publication.revisionId = old.revisionId ∧
        publication.txHash = anchor.txHash)

theorem Reanchored.authored {chain : List Publication} {old new : RevisionRow}
    (same : Reanchored chain old new) : AuthoredHere new ↔ AuthoredHere old := by
  unfold AuthoredHere
  rw [same.encNonce]

theorem Reanchored.of_same {chain : List Publication} {old new : RevisionRow}
    (same : SameContent old new) (deviceId : new.deviceId = old.deviceId)
    (anchor : new.chainAnchor = old.chainAnchor) : Reanchored chain old new :=
  ⟨same, deviceId, .inl anchor⟩

namespace OwnInv

variable {hash : CanonicalHash} {revisions : List RevisionRow}
variable {dirtyAccounts : List DirtyMarker} {chain : List Publication}

theorem map (inv : OwnInv hash revisions dirtyAccounts chain)
    {change : RevisionRow → RevisionRow}
    (same : ∀ row ∈ revisions, Reanchored chain row (change row)) :
    OwnInv hash (revisions.map change) dirtyAccounts chain := by
  have ids : (revisions.map change).map RevisionRow.revisionId =
      revisions.map RevisionRow.revisionId := by
    rw [List.map_map]
    apply List.map_congr_left
    intro row stored
    exact (same row stored).revisionId
  constructor
  · rw [ids]
    exact inv.unique
  · exact inv.txs
  · exact inv.digests
  · intro row member authored content
    obtain ⟨old, stored, rfl⟩ := List.mem_map.mp member
    rw [(same old stored).revisionId]
    exact inv.noDigest old stored ((same old stored).authored.mp authored) content
  · intro row member foreign
    obtain ⟨old, stored, rfl⟩ := List.mem_map.mp member
    have oldForeign : ¬ AuthoredHere old := fun own => foreign ((same old stored).authored.mpr own)
    obtain ⟨publication, published, digest, ⟨anchor, anchored, tx⟩, missed⟩ :=
      inv.inserted old stored oldForeign
    have kept := (same old stored).anchor.resolve_right fun stamped => oldForeign stamped.1
    refine ⟨publication, published, (same old stored).revisionId.trans digest,
      ⟨anchor, kept.trans anchored, tx⟩, ?_⟩
    intro other otherMember isOther
    obtain ⟨before, beforeStored, rfl⟩ := List.mem_map.mp otherMember
    have rest := same before beforeStored
    rw [rest.revisionId] at isOther
    rw [rest.deviceId]
    apply (missed before beforeStored isOther).imp _ id
    intro wasAnchored
    rcases rest.anchor with unchanged | ⟨-, stamp, stamped, -⟩
    · rw [unchanged]
      exact wasAnchored
    · rw [stamped]
      exact Option.some_ne_none _
  · intro first firstMember second secondMember firstOwn secondOwn samePayload
    obtain ⟨one, oneStored, rfl⟩ := List.mem_map.mp firstMember
    obtain ⟨two, twoStored, rfl⟩ := List.mem_map.mp secondMember
    rw [(same one oneStored).encPayload, (same two twoStored).encPayload] at samePayload
    rw [(same one oneStored).revisionId, (same two twoStored).revisionId]
    exact inv.ciphertexts one oneStored two twoStored ((same one oneStored).authored.mp firstOwn)
      ((same two twoStored).authored.mp secondOwn) samePayload
  · intro publication published row member isRow
    obtain ⟨old, stored, rfl⟩ := List.mem_map.mp member
    have rest := same old stored
    rw [rest.revisionId] at isRow
    have carried := inv.carried publication published old stored isRow
    exact ⟨rest.accountId.trans carried.accountId, rest.parent.trans carried.parent,
      rest.encPayload.trans carried.encPayload, rest.schemaVersion.trans carried.schemaVersion⟩
  · exact inv.publishedIds
  · intro publication published row member authored samePayload
    obtain ⟨old, stored, rfl⟩ := List.mem_map.mp member
    rw [(same old stored).encPayload] at samePayload
    rw [(same old stored).revisionId]
    exact inv.rowPublished publication published old stored
      ((same old stored).authored.mp authored) samePayload
  · exact inv.payloadIds
  · intro row member authored anchor anchored
    obtain ⟨old, stored, rfl⟩ := List.mem_map.mp member
    rw [(same old stored).revisionId]
    rcases (same old stored).anchor with unchanged | ⟨-, stamp, stamped, -, -, own⟩
    · exact inv.anchors old stored ((same old stored).authored.mp authored) anchor
        (unchanged.symm.trans anchored)
    · obtain rfl := Option.some.inj (stamped.symm.trans anchored)
      exact own
  · intro row member anchor anchored
    obtain ⟨old, stored, rfl⟩ := List.mem_map.mp member
    rcases (same old stored).anchor with unchanged | ⟨-, stamp, stamped, block, index, -⟩
    · exact inv.fits old stored anchor (unchanged.symm.trans anchored)
    · obtain rfl := Option.some.inj (stamped.symm.trans anchored)
      exact ⟨block, index⟩
  · exact inv.markers

/-- Rows may go. -/
theorem filter (inv : OwnInv hash revisions dirtyAccounts chain) (keep : RevisionRow → Bool) :
    OwnInv hash (revisions.filter keep) dirtyAccounts chain := by
  have stored : ∀ {row : RevisionRow}, row ∈ revisions.filter keep → row ∈ revisions :=
    fun member => (List.mem_filter.mp member).1
  constructor
  · exact inv.unique.sublist (List.filter_sublist.map _)
  · exact inv.txs
  · exact inv.digests
  · intro row member
    exact inv.noDigest row (stored member)
  · intro row member foreign
    obtain ⟨publication, published, digest, anchored, missed⟩ :=
      inv.inserted row (stored member) foreign
    refine ⟨publication, published, digest, anchored, ?_⟩
    intro other otherMember
    exact missed other (stored otherMember)
  · intro first firstMember second secondMember
    exact inv.ciphertexts first (stored firstMember) second (stored secondMember)
  · intro publication published row member
    exact inv.carried publication published row (stored member)
  · exact inv.publishedIds
  · intro publication published row member
    exact inv.rowPublished publication published row (stored member)
  · exact inv.payloadIds
  · intro row member
    exact inv.anchors row (stored member)
  · intro row member
    exact inv.fits row (stored member)
  · exact inv.markers

theorem withMarkers (inv : OwnInv hash revisions dirtyAccounts chain)
    {markers : List DirtyMarker}
    (noDigest : ∀ marker ∈ markers, ∀ content, hash content ≠ marker.revisionId) :
    OwnInv hash revisions markers chain :=
  { inv with markers := noDigest }

/-- A row of either kind comes: what it owes the invariant. -/
theorem append (inv : OwnInv hash revisions dirtyAccounts chain) {row : RevisionRow}
    (fresh : ∀ old ∈ revisions, old.revisionId ≠ row.revisionId)
    (noDigest : AuthoredHere row → ∀ content, hash content ≠ row.revisionId)
    (inserted : ¬ AuthoredHere row → ∃ publication ∈ chain,
      row.revisionId = hash publication.event.content ∧
        (∃ anchor, row.chainAnchor = some anchor ∧ anchor.txHash = publication.txHash) ∧
        Missed revisions publication)
    (ciphertext : AuthoredHere row → ∀ old ∈ revisions, old.encPayload ≠ row.encPayload)
    (unpublished : ∀ publication ∈ chain, publication.revisionId ≠ row.revisionId)
    (published : AuthoredHere row → ∀ publication ∈ chain,
      publication.event.content.encPayload ≠ row.encPayload)
    (bare : AuthoredHere row → row.chainAnchor = none)
    (fits : ∀ anchor, row.chainAnchor = some anchor →
      fitsI64 anchor.blockNumber = true ∧ fitsI64 anchor.logIndex = true) :
    OwnInv hash (revisions ++ [row]) dirtyAccounts chain := by
  have rows : ∀ property : RevisionRow → Prop, (∀ old ∈ revisions, property old) →
      property row → ∀ stored ∈ revisions ++ [row], property stored := by
    intro property before new stored member
    rcases List.mem_append.mp member with old | added
    · exact before stored old
    · obtain rfl := List.mem_singleton.mp added
      exact new
  have missed : ∀ publication ∈ chain, Missed revisions publication →
      Missed (revisions ++ [row]) publication := by
    intro publication isPublished before
    apply rows _ before
    intro isRow
    exact absurd isRow.symm (unpublished publication isPublished)
  constructor
  · exact nodup_append_fresh inv.unique fresh
  · exact inv.txs
  · exact inv.digests
  · exact rows _ inv.noDigest noDigest
  · apply rows
    · intro old stored foreign
      obtain ⟨publication, isPublished, digest, anchored, before⟩ :=
        inv.inserted old stored foreign
      exact ⟨publication, isPublished, digest, anchored, missed _ isPublished before⟩
    · intro foreign
      obtain ⟨publication, isPublished, digest, anchored, before⟩ := inserted foreign
      exact ⟨publication, isPublished, digest, anchored, missed _ isPublished before⟩
  · apply rows
    · intro first firstStored
      apply rows
      · exact inv.ciphertexts first firstStored
      · intro _ own same
        exact absurd same (ciphertext own first firstStored)
    · apply rows
      · intro second secondStored own _ same
        exact absurd same.symm (ciphertext own second secondStored)
      · intro _ _ _
        rfl
  · intro publication isPublished
    apply rows _ (inv.carried publication isPublished)
    intro isRow
    exact absurd isRow.symm (unpublished publication isPublished)
  · exact inv.publishedIds
  · intro publication isPublished
    apply rows _ (inv.rowPublished publication isPublished)
    intro own same
    exact absurd same.symm (published own publication isPublished)
  · exact inv.payloadIds
  · apply rows _ inv.anchors
    intro own anchor anchored
    rw [bare own] at anchored
    cases anchored
  · exact rows _ inv.fits fits
  · exact inv.markers

/-- An own event that was not recognised comes as a foreign row. -/
theorem insert (inv : OwnInv hash revisions dirtyAccounts chain) {publication : Publication}
    (published : publication ∈ chain) {isTombstone : Bool} {nowMs : Int}
    (fresh : ∀ old ∈ revisions, old.revisionId ≠ hash publication.event.content)
    (block : fitsI64 publication.event.anchor.blockNumber = true)
    (index : fitsI64 publication.event.anchor.logIndex = true)
    (noTwin : revisions.find? (isUnanchoredTwin publication.event.content) = none) :
    OwnInv hash (revisions ++ [foreignRow (hash publication.event.content) publication.event
      isTombstone nowMs]) dirtyAccounts chain := by
  have foreign : ∀ own : AuthoredHere (foreignRow (hash publication.event.content)
      publication.event isTombstone nowMs), False := fun own => own rfl
  apply inv.append fresh
  · exact fun own => (foreign own).elim
  · intro _
    refine ⟨publication, published, rfl, ⟨publication.event.anchor, rfl, rfl⟩, ?_⟩
    intro row stored isRow
    -- a bare row of the device would have been the twin
    have carried := inv.carried publication published row stored isRow
    by_contra neither
    rw [not_or, not_not, not_not] at neither
    apply List.find?_eq_none.mp noTwin row stored
    exact isUnanchoredTwin_iff.mpr ⟨carried.accountId, carried.parent, carried.encPayload,
      carried.schemaVersion, neither.2, neither.1⟩
  · exact fun own => (foreign own).elim
  · intro other isPublished isDigest
    exact inv.publishedIds other isPublished _ isDigest.symm
  · exact fun own => (foreign own).elim
  · exact fun own => (foreign own).elim
  · intro anchor anchored
    obtain rfl := Option.some.inj anchored
    exact ⟨block, index⟩

/-- A transaction of a row is mined. -/
theorem mined (inv : OwnInv hash revisions dirtyAccounts chain) {publication : Publication}
    {row : RevisionRow} (stored : row ∈ revisions) (authored : AuthoredHere row)
    (isRow : row.revisionId = publication.revisionId)
    (carries : RowOf row publication.event.content)
    (newTx : ∀ other ∈ chain, other.txHash ≠ publication.txHash)
    (separate : ∀ other ∈ chain, NoCollision hash other.event.content publication.event.content) :
    OwnInv hash revisions dirtyAccounts (chain ++ [publication]) := by
  have publications : ∀ property : Publication → Prop, (∀ old ∈ chain, property old) →
      property publication → ∀ listed ∈ chain ++ [publication], property listed := by
    intro property before new listed member
    rcases List.mem_append.mp member with old | added
    · exact before listed old
    · obtain rfl := List.mem_singleton.mp added
      exact new
  have earlier : ∀ {other : Publication}, other ∈ chain → other ∈ chain ++ [publication] :=
    fun member => List.mem_append_left _ member
  have samePayload : ∀ other ∈ chain, other.event.content.encPayload =
      publication.event.content.encPayload → other.revisionId = publication.revisionId := by
    intro other isPublished same
    have owner := inv.rowPublished other isPublished row stored authored
      (carries.encPayload.trans same.symm)
    exact owner.symm.trans isRow
  constructor
  · exact inv.unique
  · rw [List.map_append, List.map_singleton]
    apply inv.txs.append (List.nodup_singleton _)
    intro tx before new
    obtain ⟨other, isPublished, rfl⟩ := List.mem_map.mp before
    exact newTx other isPublished (List.mem_singleton.mp new)
  · apply publications
    · intro first isFirst
      exact publications _ (inv.digests first isFirst) (separate first isFirst)
    · apply publications
      · intro second isSecond same
        exact (separate second isSecond same.symm).symm
      · intro _
        rfl
  · exact inv.noDigest
  · intro old oldStored foreign
    obtain ⟨other, isPublished, rest⟩ := inv.inserted old oldStored foreign
    exact ⟨other, earlier isPublished, rest⟩
  · exact inv.ciphertexts
  · apply publications _ inv.carried
    intro other otherStored isOther
    obtain rfl : other = row :=
      List.inj_on_of_nodup_map inv.unique otherStored stored (isOther.trans isRow.symm)
    exact carries
  · apply publications _ inv.publishedIds
    intro content digest
    exact inv.noDigest row stored authored content (digest.trans isRow.symm)
  · apply publications _ inv.rowPublished
    intro other otherStored own same
    have sameRow := inv.ciphertexts other otherStored row stored own authored
      (same.trans carries.encPayload.symm)
    exact sameRow.trans isRow
  · apply publications
    · intro first isFirst
      apply publications _ (inv.payloadIds first isFirst)
      exact samePayload first isFirst
    · apply publications
      · intro second isSecond same
        exact (samePayload second isSecond same.symm).symm
      · intro _
        rfl
  · intro old oldStored own anchor anchored
    obtain ⟨other, isPublished, rest⟩ := inv.anchors old oldStored own anchor anchored
    exact ⟨other, earlier isPublished, rest⟩
  · exact inv.fits
  · exact inv.markers

/-- A transaction moves. -/
theorem reorg (inv : OwnInv hash revisions dirtyAccounts chain)
    (txHash blockNumber logIndex : Nat) :
    OwnInv hash revisions dirtyAccounts
      (chain.map fun publication => publication.moved txHash blockNumber logIndex) := by
  have sameId : ∀ publication : Publication,
      (publication.moved txHash blockNumber logIndex).revisionId = publication.revisionId := by
    intro publication
    unfold Publication.moved
    split <;> rfl
  have sameContent : ∀ publication : Publication,
      (publication.moved txHash blockNumber logIndex).event.content =
        publication.event.content := by
    intro publication
    unfold Publication.moved
    split <;> rfl
  have sameTx : ∀ publication : Publication,
      (publication.moved txHash blockNumber logIndex).txHash = publication.txHash := by
    intro publication
    unfold Publication.moved
    split
    · next moves => exact moves.symm
    · rfl
  have listed : ∀ {property : Publication → Prop},
      (∀ publication ∈ chain, property (publication.moved txHash blockNumber logIndex)) →
      ∀ publication ∈ chain.map fun publication =>
        publication.moved txHash blockNumber logIndex, property publication := by
    intro property before publication member
    obtain ⟨old, isPublished, rfl⟩ := List.mem_map.mp member
    exact before old isPublished
  constructor
  · exact inv.unique
  · rw [List.map_map]
    have txs : (Publication.txHash ∘ fun publication : Publication =>
        publication.moved txHash blockNumber logIndex) = Publication.txHash := funext sameTx
    rw [txs]
    exact inv.txs
  · apply listed
    intro first isFirst
    apply listed
    intro second isSecond
    rw [sameContent, sameContent]
    exact inv.digests first isFirst second isSecond
  · exact inv.noDigest
  · intro row stored foreign
    obtain ⟨old, isPublished, digest, ⟨anchor, anchored, tx⟩, missed⟩ :=
      inv.inserted row stored foreign
    refine ⟨_, List.mem_map_of_mem isPublished, ?_, ⟨anchor, anchored, ?_⟩, ?_⟩
    · rw [sameContent]
      exact digest
    · rw [sameTx]
      exact tx
    · intro other otherStored isOther
      rw [sameId] at isOther
      rw [sameContent]
      exact missed other otherStored isOther
  · exact inv.ciphertexts
  · apply listed
    intro publication isPublished row stored isRow
    rw [sameId] at isRow
    rw [sameContent]
    exact inv.carried publication isPublished row stored isRow
  · apply listed
    intro publication isPublished content
    rw [sameId]
    exact inv.publishedIds publication isPublished content
  · apply listed
    intro publication isPublished row stored own
    rw [sameId, sameContent]
    exact inv.rowPublished publication isPublished row stored own
  · apply listed
    intro first isFirst
    apply listed
    intro second isSecond
    rw [sameId, sameId, sameContent, sameContent]
    exact inv.payloadIds first isFirst second isSecond
  · intro row stored own anchor anchored
    obtain ⟨old, isPublished, isRow, tx⟩ := inv.anchors row stored own anchor anchored
    refine ⟨_, List.mem_map_of_mem isPublished, ?_, ?_⟩
    · rw [sameId]
      exact isRow
    · rw [sameTx]
      exact tx
  · exact inv.fits
  · exact inv.markers

end OwnInv

/-! ## The calls -/

section

variable {hash : CanonicalHash} {chain : List Publication} {vault vault' : Vault}

/-- The invariant of a vault and its chain. -/
def VaultInv (hash : CanonicalHash) (vault : Vault) (chain : List Publication) : Prop :=
  OwnInv hash vault.disk.log.revisions vault.disk.log.dirtyAccounts chain

/-- A row that carries no anchor is authored here. -/
theorem OwnInv.authored_of_bare {revisions : List RevisionRow}
    {dirtyAccounts : List DirtyMarker} (inv : OwnInv hash revisions dirtyAccounts chain)
    {row : RevisionRow} (stored : row ∈ revisions) (bare : row.chainAnchor = none) :
    AuthoredHere row := by
  by_contra foreign
  obtain ⟨other, -, -, ⟨anchor, anchored, -⟩, -⟩ := inv.inserted row stored foreign
  rw [bare] at anchored
  cases anchored

theorem OwnInv.supersede {revisions : List RevisionRow} {dirtyAccounts : List DirtyMarker}
    (inv : OwnInv hash revisions dirtyAccounts chain) (accountId : AccountId)
    (keep merge : RevisionId) :
    OwnInv hash (supersedeLosers revisions accountId keep merge) dirtyAccounts chain := by
  apply inv.map
  intro row stored
  split
  · exact .of_same ⟨rfl, rfl, rfl, rfl, rfl, rfl, rfl⟩ rfl rfl
  · exact .of_same (.refl row) rfl rfl

/-- A local edit. -/
theorem VaultInv.write (inv : VaultInv hash vault chain) {active : ActiveState}
    {row : RevisionRow} {payload : IdentityPayload}
    (wrote : LocalWrite vault vault' active row payload)
    (fresh : FreshRow hash ⟨vault, chain⟩ row) : VaultInv hash vault' chain := by
  have authored : AuthoredHere row := wrote.nonce
  have appended : ∀ {revisions : List RevisionRow},
      OwnInv hash revisions vault.disk.log.dirtyAccounts chain →
      revisions.map RevisionRow.revisionId =
        vault.disk.log.revisions.map RevisionRow.revisionId →
      revisions.map RevisionRow.encPayload =
        vault.disk.log.revisions.map RevisionRow.encPayload →
      OwnInv hash (revisions ++ [row]) vault.disk.log.dirtyAccounts chain := by
    intro revisions before ids payloads
    apply before.append
    · intro old stored same
      have listed : old.revisionId ∈ vault.disk.log.revisions.map RevisionRow.revisionId :=
        ids ▸ List.mem_map_of_mem stored
      obtain ⟨first, firstStored, sameId⟩ := List.mem_map.mp listed
      exact wrote.fresh first firstStored (sameId.trans same)
    · exact fun _ => fresh.noDigest
    · exact fun foreign => absurd authored foreign
    · intro _ old stored same
      have listed : old.encPayload ∈ vault.disk.log.revisions.map RevisionRow.encPayload :=
        payloads ▸ List.mem_map_of_mem stored
      obtain ⟨first, firstStored, samePayload⟩ := List.mem_map.mp listed
      exact fresh.ciphertext first firstStored (samePayload.trans same)
    · exact fun publication published => (fresh.unpublished publication published).1
    · exact fun _ publication published => (fresh.unpublished publication published).2
    · exact fun _ => wrote.unpublished.1
    · intro anchor anchored
      rw [wrote.unpublished.1] at anchored
      cases anchored
  have rows : OwnInv hash vault'.disk.log.revisions vault.disk.log.dirtyAccounts chain := by
    cases wrote.log with
    | added _ _ _ _ _ _ revisions _ =>
        rw [revisions]
        exact appended inv rfl rfl
    | extended _ _ _ _ _ _ _ revisions _ =>
        rw [revisions]
        exact appended inv rfl rfl
    | resolved _ _ _ _ _ _ revisions _ =>
        rw [revisions]
        apply appended (inv.supersede row.accountId row.parent row.revisionId)
        · rw [supersedeLosers, List.map_map]
          apply List.map_congr_left
          intro old _
          rw [Function.comp]
          split <;> rfl
        · rw [supersedeLosers, List.map_map]
          apply List.map_congr_left
          intro old _
          rw [Function.comp]
          split <;> rfl
  apply rows.withMarkers
  intro marker marked
  rw [wrote.dirty, stampDirty, Table.insertIgnore] at marked
  split at marked
  · exact inv.markers marker marked
  · rcases List.mem_append.mp marked with old | new
    · exact inv.markers marker old
    · obtain rfl := List.mem_singleton.mp new
      exact fresh.noDigest

/-- The row an edit wrote is in the table, under an id that was not. -/
theorem LocalWrite.stored {active : ActiveState} {row : RevisionRow} {payload : IdentityPayload}
    (wrote : LocalWrite vault vault' active row payload) :
    row ∈ vault'.disk.log.revisions := by
  cases wrote.log with
  | added _ _ _ _ _ _ revisions _ => simp [revisions]
  | extended _ _ _ _ _ _ _ revisions _ => simp [revisions]
  | resolved _ _ _ _ _ _ revisions _ => simp [revisions]

/-- Any account call. -/
theorem VaultInv.writeCall (inv : VaultInv hash vault chain) {drawn : RevisionId}
    (call : WriteCall vault vault' drawn)
    (fresh : ∀ row ∈ vault'.disk.log.revisions,
      (∀ old ∈ vault.disk.log.revisions, old.revisionId ≠ row.revisionId) →
        FreshRow hash ⟨vault, chain⟩ row) : VaultInv hash vault' chain := by
  rcases call with idle | ⟨active, row, payload, wrote, -⟩
  · unfold VaultInv
    rw [idle.disk]
    exact inv
  · exact inv.write wrote (fresh row (LocalWrite.stored wrote) wrote.fresh)

/-- A local call. -/
theorem VaultInv.call (inv : VaultInv hash vault chain) {op : PublishOp}
    (physical : Physical hash ⟨vault, chain⟩ (.call op)) :
    VaultInv hash (PublishWorld.step hash ⟨vault, []⟩ op).vault chain := by
  obtain ⟨isLocal, fresh⟩ := physical
  cases op with
  | accountAdd validated accountId draw =>
      exact inv.writeCall (accountAdd_writes vault validated accountId draw) fresh
  | accountUpdate accountId patch draw =>
      exact inv.writeCall (accountUpdate_writes vault accountId patch draw) fresh
  | deleteAccount accountId draw =>
      exact inv.writeCall (deleteAccount_writes vault accountId draw) fresh
  | resolveFork accountId keep draw =>
      exact inv.writeCall (resolveFork_writes vault accountId keep draw) fresh
  | coalesce =>
      apply OwnInv.withMarkers inv
      intro marker kept
      exact inv.markers marker (List.mem_filter.mp kept).1
  | unlock input =>
      obtain ⟨keys, written⟩ := unlock_disk vault input
      simp only [VaultInv, PublishWorld.step, written]
      exact inv
  | lock => exact inv
  | reopen placeholder sessionIdle => exact inv
  | flush => exact isLocal.elim
  | ingest => exact isLocal.elim
  | ingestPending => exact isLocal.elim

/-- One row gets an anchor of one of its transactions. -/
theorem OwnInv.stamp {revisions : List RevisionRow} {dirtyAccounts : List DirtyMarker}
    (inv : OwnInv hash revisions dirtyAccounts chain) {revisionId : RevisionId}
    {anchor : ChainAnchor} (block : fitsI64 anchor.blockNumber = true)
    (index : fitsI64 anchor.logIndex = true)
    (own : ∃ publication ∈ chain, publication.revisionId = revisionId ∧
      publication.txHash = anchor.txHash) :
    OwnInv hash (stampAnchor revisions revisionId anchor) dirtyAccounts chain := by
  obtain ⟨publication, published, isRow, tx⟩ := own
  apply inv.map
  intro row stored
  split
  · next same =>
      have authored : AuthoredHere row := by
        by_contra foreign
        obtain ⟨other, -, digest, -⟩ := inv.inserted row stored foreign
        apply inv.publishedIds publication published other.event.content
        rw [isRow, ← same, digest]
      refine ⟨⟨rfl, rfl, rfl, rfl, rfl, rfl, rfl⟩, rfl, .inr ⟨authored, anchor, rfl, block, index,
        publication, published, ?_, tx⟩⟩
      exact isRow.trans same.symm
  · exact .of_same (.refl row) rfl rfl

/-- The host's mark. -/
theorem VaultInv.markPublished (inv : VaultInv hash vault chain) {revisionId : RevisionId}
    {anchor : ChainAnchor} {now : Nat}
    (own : ∃ publication ∈ chain, publication.revisionId = revisionId ∧
      publication.txHash = anchor.txHash) :
    VaultInv hash (markPublished vault revisionId anchor now).1 chain := by
  unfold VaultInv
  by_cases fits : fitsI64 anchor.blockNumber = true ∧ fitsI64 anchor.logIndex = true
  · rcases markPublished_log vault revisionId anchor now with unchanged | stamped
    · rw [unchanged]
      exact inv
    · rw [stamped]
      exact OwnInv.stamp inv fits.1 fits.2 own
  · obtain ⟨error, -, unchanged⟩ := markPublished_unfit vault revisionId anchor now fits
    rw [unchanged]
    exact inv

/-- The row of a marker is what an entry publishes. -/
theorem rowOf_buildSignedRevision {deviceKey : DeviceKey} {vaultId : VaultId}
    {marker : DirtyMarker} {row : RevisionRow} (sameAccount : row.accountId = marker.accountId) :
    RowOf row (buildSignedRevision deviceKey vaultId marker.accountId (publishPayload row)) :=
  ⟨sameAccount, rfl, rfl, rfl⟩

/-- The local commit of an entry adds no marker. -/
theorem committed_markers {log log' : RevisionTables} {marker other : DirtyMarker}
    (committed : Committed log marker log') (marked : other ∈ log'.dirtyAccounts) :
    other ∈ log.dirtyAccounts := by
  cases committed with
  | unchanged => exact marked
  | anchored anchor => exact marked
  | settled anchor => exact (List.mem_filter.mp marked).1

theorem committed_accounts {log log' : RevisionTables} {marker : DirtyMarker}
    (committed : Committed log marker log') : log'.accounts = log.accounts := by
  cases committed <;> rfl

/-- `publish_one`. -/
theorem VaultInv.publish (inv : VaultInv hash vault chain) {deviceKey : DeviceKey}
    {chainView : Option (List RevisionEvent)} {marker : DirtyMarker}
    {conditions : EntryConditions}
    (physical : Physical hash ⟨vault, chain⟩ (.publish deviceKey chainView marker conditions)) :
    VaultInv hash (publishOne hash deviceKey chainView vault marker conditions).vault
      (chain ++ (publishOne hash deviceKey chainView vault marker conditions).landed) := by
  obtain ⟨listed, visible, separate, newTx⟩ := physical
  obtain ⟨committed, landed⟩ := publishOne_effect hash deviceKey chainView vault marker conditions
  have stamps := publishOne_revisions hash deviceKey chainView vault marker conditions
  simp only at listed visible separate newTx
  generalize publishOne hash deviceKey chainView vault marker conditions = entry at *
  obtain ⟨after, listedTxs, result⟩ := entry
  simp only at landed committed stamps newTx ⊢
  have authoredRow : ∀ {row : RevisionRow}, row ∈ vault.disk.log.revisions →
      row.revisionId = marker.revisionId → AuthoredHere row := by
    intro row stored sameId
    by_contra foreign
    obtain ⟨other, -, digest, -⟩ := inv.inserted row stored foreign
    exact inv.markers marker listed other.event.content (digest.symm.trans sameId)
  have grown : OwnInv hash vault.disk.log.revisions vault.disk.log.dirtyAccounts
      (chain ++ listedTxs) := by
    cases landed with
    | nothing =>
        rw [List.append_nil]
        exact inv
    | row row anchor found =>
        obtain ⟨stored, sameAccount, sameId⟩ := findRevision_eq_some found
        apply inv.mined stored (authoredRow stored sameId) sameId
        · exact rowOf_buildSignedRevision sameAccount
        · exact newTx _ List.mem_cons_self
        · exact separate row stored
  have rows : OwnInv hash after.disk.log.revisions vault.disk.log.dirtyAccounts
      (chain ++ listedTxs) := by
    rcases stamps with unchanged | ⟨row, event, signed, found, rfl, source, stamped, block, index⟩
    · rw [unchanged]
      exact grown
    · obtain ⟨stored, sameAccount, sameId⟩ := findRevision_eq_some found
      rw [stamped]
      apply grown.stamp block index
      have fromChain : ∀ publication ∈ chain ++ listedTxs, publication.event = event →
          event.content.encPayload = row.encPayload → publication.revisionId =
            marker.revisionId ∧ publication.txHash = event.anchor.txHash := by
        rintro publication published rfl samePayload
        have owner := grown.rowPublished publication published row stored
          (authoredRow stored sameId) samePayload.symm
        exact ⟨owner.symm.trans sameId, rfl⟩
      rcases source with ⟨inView, sameDigest⟩ | ⟨isLanded, sameContent⟩
      · obtain ⟨publication, published, isEvent⟩ := List.mem_map.mp (visible inView)
        have sameContent := separate row stored publication published (by rw [isEvent, sameDigest])
        rw [isEvent] at sameContent
        have member := List.mem_append_left listedTxs published
        refine ⟨publication, member, fromChain publication member isEvent ?_⟩
        rw [sameContent]
        rfl
      · obtain ⟨publication, published, isEvent⟩ := List.mem_map.mp isLanded
        have member := List.mem_append_right chain published
        refine ⟨publication, member, fromChain publication member isEvent ?_⟩
        rw [sameContent]
        rfl
  apply rows.withMarkers
  intro other marked
  exact inv.markers other (committed_markers committed marked)

/-- A transaction through another log. -/
theorem VaultInv.submit (inv : VaultInv hash vault chain) {revisionId : RevisionId}
    {deviceId : DeviceId} {anchor : ChainAnchor} {row : RevisionRow}
    (physical : Physical hash ⟨vault, chain⟩ (.submit revisionId deviceId anchor))
    (found : Table.lookup RevisionRow.revisionId vault.disk.log.revisions revisionId = some row) :
    VaultInv hash vault (chain ++
      [⟨revisionId, publishedContent vault.vaultMeta.vaultId deviceId row, anchor⟩]) := by
  obtain ⟨authored, newTx⟩ := physical
  have stored := Table.mem_of_lookup found
  have sameId : row.revisionId = revisionId := Table.key_of_lookup found
  apply OwnInv.mined inv stored (authored row stored sameId).1 sameId
  · exact ⟨rfl, rfl, rfl, rfl⟩
  · exact newTx
  · exact (authored row stored sameId).2

/-- A rollback deletes rows. -/
theorem VaultInv.rollback (inv : VaultInv hash vault chain) (low high : Nat) :
    VaultInv hash (rollbackPendingRevisionsInRange vault low high).1 chain := by
  have log := rollbackPendingRevisionsInRange_log vault low high
  unfold VaultInv
  rw [log]
  split
  · exact inv
  · next rolledBack =>
      unfold rollbackPendingLog at rolledBack
      split at rolledBack
      · cases rolledBack
      split at rolledBack
      · cases rolledBack
      obtain rfl := Except.ok.inj rolledBack
      exact OwnInv.filter inv _

/-- A promotion changes the status column only. -/
theorem VaultInv.promote (inv : VaultInv hash vault chain) (head : Nat) :
    VaultInv hash (promoteFinalizedRevisions vault head).1 chain := by
  have log := promoteFinalizedRevisions_log vault head
  unfold VaultInv
  rw [log]
  split
  · exact inv
  · next promoted =>
      unfold promoteFinalizedLog at promoted
      simp only at promoted
      split at promoted
      · cases promoted
      obtain rfl := Except.ok.inj promoted
      apply OwnInv.map inv
      intro row stored
      split
      · exact .of_same ⟨rfl, rfl, rfl, rfl, rfl, rfl, rfl⟩ rfl rfl
      · exact .of_same (.refl row) rfl rfl

/-- The body of an ingest: the event is dropped, stamps its row, or is inserted. -/
theorem OwnInv.logAfter {log : RevisionTables}
    (inv : OwnInv hash log.revisions log.dirtyAccounts chain) {publication : Publication}
    (published : publication ∈ chain) (isTombstone : Bool) (nowMs : Int) :
    OwnInv hash (logAfter hash log publication.event isTombstone nowMs).revisions
      (logAfter hash log publication.event isTombstone nowMs).dirtyAccounts chain := by
  rcases logAfter_cases hash log publication.event isTombstone nowMs with
    ⟨-, unchanged⟩ | ⟨new, ⟨twin, found, stamped⟩ | ⟨missing, inserted⟩⟩
  · rw [unchanged]
    exact inv
  · rw [stamped]
    apply inv.stamp new.block new.index
    obtain ⟨stored, isTwin⟩ := twinOf_eq_some found
    obtain ⟨-, -, payload, -, -, bare⟩ := isUnanchoredTwin_iff.mp isTwin
    have owner := inv.rowPublished publication published twin stored
      (inv.authored_of_bare stored bare) payload
    exact ⟨publication, published, owner.symm, rfl⟩
  · rw [inserted]
    exact inv.insert published new.hash new.block new.index missing

/-- An ingest, plain or as pending. -/
theorem VaultInv.ingest (inv : VaultInv hash vault chain) {publication : Publication}
    (published : publication ∈ chain) (nowMs : Int) (now : Nat) :
    VaultInv hash (ingestChainRevision hash vault publication.event nowMs now).1 chain := by
  have disk := ingestStep_disk hash vault ⟨publication.event, nowMs, now⟩
  unfold ingestStep at disk
  unfold VaultInv
  rw [disk]
  exact OwnInv.logAfter inv published _ nowMs

theorem VaultInv.ingestPending (inv : VaultInv hash vault chain) {publication : Publication}
    (published : publication ∈ chain) (block blockHash : Nat) (nowMs : Int) (now : Nat) :
    VaultInv hash (ingestPendingChainRevision hash vault publication.event block blockHash nowMs
      now).1 chain := by
  have ingested := inv.ingest published nowMs now
  unfold ingestPendingChainRevision
  generalize ingestChainRevision hash vault publication.event nowMs now = call at *
  obtain ⟨vault', result⟩ := call
  cases result with
  | error error => exact ingested
  | ok outcome =>
      simp only
      split
      · exact ingested
      split
      · exact ingested
      split
      · exact ingested
      apply OwnInv.map ingested
      intro row stored
      split
      · exact .of_same ⟨rfl, rfl, rfl, rfl, rfl, rfl, rfl⟩ rfl rfl
      · exact .of_same (.refl row) rfl rfl

end

/-- The invariant holds along every run. -/
theorem VaultInv.step {hash : CanonicalHash} {world : OwnWorld}
    (inv : VaultInv hash world.vault world.chain) {op : OwnOp}
    (physical : Physical hash world op) :
    VaultInv hash (world.step hash op).vault (world.step hash op).chain := by
  cases op with
  | call op => exact inv.call physical
  | publish deviceKey chainView marker conditions => exact inv.publish physical
  | submit revisionId deviceId anchor =>
      simp only [OwnWorld.step]
      split
      · exact inv
      · next row found => exact inv.submit physical found
  | markPublished revisionId anchor now => exact inv.markPublished physical
  | reorg txHash blockNumber logIndex => exact OwnInv.reorg inv txHash blockNumber logIndex
  | rollback low high => exact inv.rollback low high
  | promote head => exact inv.promote head
  | ingest index observed nowMs now =>
      simp only [OwnWorld.step]
      split
      · exact inv
      · next publication found =>
          have published := List.mem_of_getElem? found
          cases observed with
          | none => exact inv.ingest published nowMs now
          | some seenAt => exact inv.ingestPending published seenAt.1 seenAt.2 nowMs now

/-! ## Runs without a missed event -/

/-- No account is frozen and every row was authored here. -/
structure Unforked (log : RevisionTables) : Prop where
  unfrozen : ∀ accountId account, findAccount log accountId = some account →
    account.frozenPendingResolve = false
  authored : ∀ row ∈ log.revisions, AuthoredHere row

section

variable {hash : CanonicalHash} {chain chain' : List Publication} {vault vault' : Vault}

/-- A step that brings no revision under a new id. -/
theorem Unforked.of_ids (unforked : Unforked vault.disk.log) (inv : VaultInv hash vault chain)
    (inv' : VaultInv hash vault' chain')
    (accounts : vault'.disk.log.accounts = vault.disk.log.accounts)
    (ids : ∀ row ∈ vault'.disk.log.revisions, ∃ old ∈ vault.disk.log.revisions,
      old.revisionId = row.revisionId) : Unforked vault'.disk.log := by
  constructor
  · intro accountId account found
    rw [findAccount, accounts] at found
    exact unforked.unfrozen accountId account found
  · intro row stored
    by_contra foreign
    obtain ⟨publication, -, digest, -⟩ := inv'.inserted row stored foreign
    obtain ⟨old, oldStored, sameId⟩ := ids row stored
    apply inv.noDigest old oldStored (unforked.authored old oldStored) publication.event.content
    exact digest.symm.trans sameId.symm

/-- The ids of the rows after an edit. -/
theorem LocalWrite.ids {active : ActiveState} {row : RevisionRow} {payload : IdentityPayload}
    (wrote : LocalWrite vault vault' active row payload) {other : RevisionRow}
    (stored : other ∈ vault'.disk.log.revisions) :
    other = row ∨ ∃ old ∈ vault.disk.log.revisions, old.revisionId = other.revisionId := by
  have appended : ∀ {revisions : List RevisionRow},
      vault'.disk.log.revisions = revisions ++ [row] →
      (∀ old ∈ revisions, ∃ first ∈ vault.disk.log.revisions,
        first.revisionId = old.revisionId) →
      other = row ∨ ∃ old ∈ vault.disk.log.revisions, old.revisionId = other.revisionId := by
    intro revisions after before
    rw [after] at stored
    rcases List.mem_append.mp stored with old | new
    · exact .inr (before other old)
    · exact .inl (List.mem_singleton.mp new)
  cases wrote.log with
  | added _ _ _ _ _ _ revisions _ => exact appended revisions fun old stored => ⟨old, stored, rfl⟩
  | extended _ _ _ _ _ _ _ revisions _ =>
      exact appended revisions fun old stored => ⟨old, stored, rfl⟩
  | resolved _ _ _ _ _ _ revisions _ =>
      apply appended revisions
      intro superseded stored
      obtain ⟨old, oldStored, rfl⟩ := List.mem_map.mp stored
      refine ⟨old, oldStored, ?_⟩
      split <;> rfl

/-- An account call freezes nothing. -/
theorem Unforked.headCall {α : Type} {accountId : AccountId} {drawn : RevisionId} {call : Call α}
    (unforked : Unforked vault.disk.log) (inv : VaultInv hash vault chain)
    (inv' : VaultInv hash call.1 chain) (effect : HeadCall vault accountId drawn call) :
    Unforked call.1.disk.log := by
  cases effect with
  | failed vault' error idle =>
      rw [show (vault', (Except.error error : Except StoreError α)).1 = vault' from rfl,
        idle.disk]
      exact unforked
  | wrote vault' value active row payload write _ _ =>
      constructor
      · intro other account found
        by_cases same : other = row.accountId
        · obtain ⟨written, isWritten, -, unfrozen, -⟩ := write.accountAt
          rw [same] at found
          obtain rfl := Option.some.inj (isWritten.symm.trans found)
          exact unfrozen
        · rw [write.others other same] at found
          exact unforked.unfrozen other account found
      · intro other stored
        by_contra foreign
        rcases LocalWrite.ids write.toLocalWrite stored with rfl | ⟨old, oldStored, sameId⟩
        · exact foreign write.nonce
        · obtain ⟨publication, -, digest, -⟩ := inv'.inserted other stored foreign
          apply inv.noDigest old oldStored (unforked.authored old oldStored)
            publication.event.content
          exact digest.symm.trans sameId.symm

theorem Unforked.call (unforked : Unforked vault.disk.log) (inv : VaultInv hash vault chain)
    {op : PublishOp} (physical : Physical hash ⟨vault, chain⟩ (.call op)) :
    Unforked (PublishWorld.step hash ⟨vault, []⟩ op).vault.disk.log := by
  have inv' := inv.call physical
  cases op with
  | accountAdd validated accountId draw =>
      exact unforked.headCall inv inv' (accountAdd_headCall vault validated accountId draw)
  | accountUpdate accountId patch draw =>
      exact unforked.headCall inv inv' (accountUpdate_headCall vault accountId patch draw)
  | deleteAccount accountId draw =>
      exact unforked.headCall inv inv' (deleteAccount_headCall vault accountId draw)
  | resolveFork accountId keep draw =>
      exact unforked.headCall inv inv' (resolveFork_headCall vault accountId keep draw)
  | coalesce => exact ⟨unforked.unfrozen, unforked.authored⟩
  | unlock input =>
      obtain ⟨keys, written⟩ := unlock_disk vault input
      simp only [PublishWorld.step, written]
      exact unforked
  | lock => exact unforked
  | reopen placeholder sessionIdle => exact unforked
  | flush => exact physical.1.elim
  | ingest => exact physical.1.elim
  | ingestPending => exact physical.1.elim

/-- Stamps and deletions bring no id. -/
theorem ids_of_map {revisions : List RevisionRow} {change : RevisionRow → RevisionRow}
    (same : ∀ row, (change row).revisionId = row.revisionId) :
    ∀ row ∈ revisions.map change, ∃ old ∈ revisions, old.revisionId = row.revisionId := by
  intro row member
  obtain ⟨old, stored, rfl⟩ := List.mem_map.mp member
  exact ⟨old, stored, (same old).symm⟩

theorem ids_of_stampAnchor {revisions : List RevisionRow} (revisionId : RevisionId)
    (anchor : ChainAnchor) :
    ∀ row ∈ stampAnchor revisions revisionId anchor, ∃ old ∈ revisions,
      old.revisionId = row.revisionId := by
  apply ids_of_map
  intro row
  split <;> rfl

/-- The pending stamp of an ingest touches neither accounts nor ids. -/
theorem ingestPending_sameIds (hash : CanonicalHash) (vault : Vault) (event : RevisionEvent)
    (block blockHash : Nat) (nowMs : Int) (now : Nat) :
    (ingestPendingChainRevision hash vault event block blockHash nowMs now).1.disk.log.accounts =
        (ingestChainRevision hash vault event nowMs now).1.disk.log.accounts ∧
      (ingestPendingChainRevision hash vault event block blockHash nowMs
          now).1.disk.log.revisions.map RevisionRow.revisionId =
        (ingestChainRevision hash vault event nowMs now).1.disk.log.revisions.map
          RevisionRow.revisionId := by
  unfold ingestPendingChainRevision
  generalize ingestChainRevision hash vault event nowMs now = call
  obtain ⟨vault', result⟩ := call
  cases result with
  | error error => exact ⟨rfl, rfl⟩
  | ok outcome =>
      simp only
      split
      · exact ⟨rfl, rfl⟩
      split
      · exact ⟨rfl, rfl⟩
      split
      · exact ⟨rfl, rfl⟩
      refine ⟨rfl, ?_⟩
      simp only [withLog_log, stampPending, List.map_map]
      apply List.map_congr_left
      intro row _
      rw [Function.comp]
      split <;> rfl

/-- An own event that is recognised changes neither accounts nor ids. -/
theorem Unforked.recognised (unforked : Unforked vault.disk.log) (inv : VaultInv hash vault chain)
    (inv' : VaultInv hash vault' chain) {publication : Publication} {nowMs : Int} {now : Nat}
    (recognised : Recognised hash vault publication nowMs now)
    (accounts : vault'.disk.log.accounts =
      (ingestChainRevision hash vault publication.event nowMs now).1.disk.log.accounts)
    (ids : vault'.disk.log.revisions.map RevisionRow.revisionId =
      (ingestChainRevision hash vault publication.event nowMs now).1.disk.log.revisions.map
        RevisionRow.revisionId) : Unforked vault'.disk.log := by
  apply unforked.of_ids inv inv' (accounts.trans recognised.accounts)
  intro row stored
  have listed : row.revisionId ∈ vault.disk.log.revisions.map RevisionRow.revisionId := by
    rw [← recognised.revisions, ← ids]
    exact List.mem_map_of_mem stored
  exact List.mem_map.mp listed

end

theorem Unforked.step {hash : CanonicalHash} {world : OwnWorld}
    (unforked : Unforked world.vault.disk.log)
    (inv : VaultInv hash world.vault world.chain) {op : OwnOp}
    (physical : Physical hash world op) (meets : MeetsRecognisable world op) :
    Unforked (world.step hash op).vault.disk.log := by
  have inv' := inv.step physical
  cases op with
  | call op => exact unforked.call inv physical
  | publish deviceKey chainView marker conditions =>
      apply unforked.of_ids inv inv'
      · obtain ⟨committed, -⟩ :=
          publishOne_effect hash deviceKey chainView world.vault marker conditions
        exact committed_accounts committed
      · simp only [OwnWorld.step]
        rcases publishOne_revisions hash deviceKey chainView world.vault marker conditions with
          unchanged | ⟨row, event, signed, -, -, -, stamped, -⟩
        · rw [unchanged]
          exact fun row stored => ⟨row, stored, rfl⟩
        · rw [stamped]
          exact ids_of_stampAnchor _ _
  | submit revisionId deviceId anchor =>
      simp only [OwnWorld.step]
      split <;> exact unforked
  | markPublished revisionId anchor now =>
      simp only [OwnWorld.step]
      rcases markPublished_log world.vault revisionId anchor now with unchanged | stamped
      · rw [unchanged]
        exact unforked
      · apply unforked.of_ids inv inv'
        · rw [OwnWorld.step, stamped]
        · rw [OwnWorld.step, stamped]
          exact ids_of_stampAnchor _ _
  | reorg txHash blockNumber logIndex => exact unforked
  | rollback low high =>
      have log := rollbackPendingRevisionsInRange_log world.vault low high
      simp only [OwnWorld.step, log]
      unfold rollbackPendingLog
      split
      · exact unforked
      · next rolledBack =>
          split at rolledBack
          · cases rolledBack
          split at rolledBack
          · cases rolledBack
          obtain rfl := Except.ok.inj rolledBack
          refine ⟨unforked.unfrozen, ?_⟩
          intro row stored
          exact unforked.authored row (List.mem_filter.mp stored).1
  | promote head =>
      have log := promoteFinalizedRevisions_log world.vault head
      simp only [OwnWorld.step, log]
      unfold promoteFinalizedLog
      split
      · exact unforked
      · next promoted =>
          simp only at promoted
          split at promoted
          · cases promoted
          obtain rfl := Except.ok.inj promoted
          refine ⟨unforked.unfrozen, ?_⟩
          intro row stored
          obtain ⟨old, oldStored, rfl⟩ := List.mem_map.mp stored
          have authored := unforked.authored old oldStored
          split <;> exact authored
  | ingest index observed nowMs now =>
      simp only [OwnWorld.step] at inv' ⊢
      split
      · exact unforked
      · next publication found =>
          have published := List.mem_of_getElem? found
          have recognised : Recognised hash world.vault publication nowMs now :=
            (OwnInv.recognised_iff inv published).mpr (meets publication found)
          simp only [found] at inv'
          cases observed with
          | none => exact unforked.recognised inv inv' recognised rfl rfl
          | some seenAt =>
              obtain ⟨accounts, ids⟩ := ingestPending_sameIds hash world.vault publication.event
                seenAt.1 seenAt.2 nowMs now
              exact unforked.recognised inv inv' recognised accounts ids

/-- The world of a new vault. -/
def OwnWorld.fresh (password : Password) (draw : CreateDraw) : OwnWorld :=
  ⟨create password draw, []⟩

theorem VaultInv.fresh (hash : CanonicalHash) (password : Password) (draw : CreateDraw) :
    VaultInv hash (OwnWorld.fresh password draw).vault (OwnWorld.fresh password draw).chain := by
  have noRows : (create password draw).disk.log = ⟨[], [], [], []⟩ := rfl
  unfold VaultInv OwnWorld.fresh
  rw [noRows]
  constructor <;> simp

/-- In every state of every run, an own event is recognised exactly when its row is stored
and carries the event's anchor, or carries none and is of the event's device.  A run all of
whose own events meet this when they are ingested ends without a frozen account and without
a second row for any revision. -/
theorem own_events_recognised (hash : CanonicalHash) (password : Password) (draw : CreateDraw) :
    (∀ world, Reaches (OwnWorld.step hash) (Physical hash) (.fresh password draw) world →
      ∀ publication ∈ world.chain, ∀ nowMs now,
        Recognised hash world.vault publication nowMs now ↔
          Recognisable world.vault publication) ∧
    (∀ world, Reaches (OwnWorld.step hash)
        (fun world op => Physical hash world op ∧ MeetsRecognisable world op)
        (.fresh password draw) world →
      Unforked world.vault.disk.log) := by
  have invariant : ∀ world,
      Reaches (OwnWorld.step hash) (Physical hash) (.fresh password draw) world →
      VaultInv hash world.vault world.chain := by
    intro world run
    apply run.invariant (fun world => VaultInv hash world.vault world.chain)
    · intro state op inv physical
      exact inv.step physical
    · exact .fresh hash password draw
  constructor
  · intro world run publication published nowMs now
    exact OwnInv.recognised_iff (invariant world run) published
  · intro world run
    have both : VaultInv hash world.vault world.chain ∧ Unforked world.vault.disk.log := by
      apply run.invariant (fun world => VaultInv hash world.vault world.chain ∧
        Unforked world.vault.disk.log)
      · rintro state op ⟨inv, unforked⟩ ⟨physical, meets⟩
        exact ⟨inv.step physical, unforked.step inv physical meets⟩
      · refine ⟨.fresh hash password draw, ?_, ?_⟩
        · intro accountId account found
          cases found
        · intro row stored
          cases stored
    exact both.2

/-! ## A transaction mined again -/

namespace OwnSample

/-- A digest that is never the id of a revision drawn here. -/
def digest : CanonicalHash := fun content => ⟨2 * content.parent.raw + 1⟩

def start : OwnWorld := .fresh ⟨[1]⟩ ⟨⟨7⟩, ⟨1⟩, ⟨2⟩, ⟨3⟩, 0⟩

def unlocked : OwnWorld := start.step digest (.call (.unlock (Sample.unlockInput ⟨[1]⟩)))

def added : OwnWorld :=
  unlocked.step digest (.call (.accountAdd (.ok Sample.identity) ⟨1⟩ (Sample.draw 50)))

/-- The publication of the account at block 100, and its mark. -/
def publish : OwnOp :=
  .publish Sample.device none ⟨⟨1⟩, ⟨50⟩, 0⟩ ⟨false, .landed ⟨5, 100, 0⟩ true, false, false, 0⟩

def published : OwnWorld := added.step digest publish

/-- The transaction moves to block 101. -/
def reorganised : OwnWorld := published.step digest (.reorg 5 101 0)

/-- The event as it comes back. -/
def publication : Publication :=
  ⟨⟨50⟩, ⟨⟨7⟩, ⟨1⟩, .genesisParent, ⟨11⟩, 0,
    sealPayload ⟨2⟩ ⟨51⟩ ⟨⟨7⟩, ⟨1⟩, .genesisParent, 0⟩ (.live Sample.identity)⟩, ⟨5, 101, 0⟩⟩

theorem freshRow {row : RevisionRow} {world : OwnWorld} (rows : world.vault.disk.log.revisions = [])
    (chain : world.chain = []) (drawn : row.revisionId = ⟨50⟩) : FreshRow digest world row := by
  constructor
  · intro content same
    have raws := congrArg RevisionId.raw (same.trans drawn)
    simp only [digest] at raws
    omega
  · rw [rows]
    simp
  · rw [chain]
    simp

theorem reaches : Reaches (OwnWorld.step digest) (Physical digest) start reorganised := by
  have noRows : unlocked.vault.disk.log.revisions = [] := by decide +kernel
  have oneRow : ∀ row ∈ added.vault.disk.log.revisions, row.revisionId = ⟨50⟩ := by
    decide +kernel
  apply Reaches.foldl [.call (.unlock (Sample.unlockInput ⟨[1]⟩)),
    .call (.accountAdd (.ok Sample.identity) ⟨1⟩ (Sample.draw 50)), publish, .reorg 5 101 0]
  refine ⟨⟨trivial, ?_⟩, ⟨trivial, ?_⟩, ⟨?_, ?_, ?_, ?_⟩, trivial, trivial⟩
  · intro row stored
    have none : row ∈ unlocked.vault.disk.log.revisions := stored
    rw [noRows] at none
    cases none
  · intro row stored _
    exact freshRow noRows rfl (oneRow row stored)
  · decide +kernel
  · exact List.nil_subset _
  · intro row stored other listed
    cases listed
  · intro landed isLanded other listed
    cases listed

end OwnSample

/-- The device adds an account, publishes it and stores the anchor; then the transaction is
reorganised into the next block.  The event that comes back is inserted as a second head,
and the account is frozen. -/
theorem own_event_forks :
    Reaches (OwnWorld.step OwnSample.digest) (Physical OwnSample.digest) OwnSample.start
        OwnSample.reorganised ∧
      OwnSample.publication ∈ OwnSample.reorganised.chain ∧
      (ingestChainRevision OwnSample.digest OwnSample.reorganised.vault
        OwnSample.publication.event 0 0).2 = .ok .inserted ∧
      (accountHeadRows (ingestChainRevision OwnSample.digest OwnSample.reorganised.vault
        OwnSample.publication.event 0 0).1.disk.log.revisions ⟨1⟩).length = 2 ∧
      ((ingestChainRevision OwnSample.digest OwnSample.reorganised.vault
        OwnSample.publication.event 0 0).1.disk.log.accounts.map
          AccountRow.frozenPendingResolve) = [true] ∧
      ¬ Recognised OwnSample.digest OwnSample.reorganised.vault OwnSample.publication 0 0 := by
  have inserted : (ingestChainRevision OwnSample.digest OwnSample.reorganised.vault
      OwnSample.publication.event 0 0).2 = .ok .inserted := by
    decide +kernel
  refine ⟨OwnSample.reaches, by decide +kernel, inserted, by decide +kernel, by decide +kernel, ?_⟩
  intro recognised
  have present := recognised.outcome
  rw [inserted] at present
  cases present

end Pangolin
