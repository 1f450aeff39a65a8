import Pangolin.Store.ChainSync
import Pangolin.Store.RowChanges

/-!
# What chain sync stores

The rows of a vault that reads verified events: each anchored row has the content of an
event, and reading an event adds its content and nothing else.  The chain may reorg, so the
events are those of all forks, a set that is fixed beforehand.
-/

namespace Pangolin

open Crypto Store

/-! ## Rows and events -/

/-- The content of a row, as an event carries it. -/
def rowContent (vaultId : VaultId) (row : RevisionRow) : RevisionContent :=
  { vaultId
    accountId := row.accountId
    parent := row.parent
    deviceId := row.deviceId
    schemaVersion := row.schemaVersion
    encPayload := row.encPayload }

/-- What the events of all forks owe the reader: digests and anchors identify contents, a
content has one signer, and the numbers fit their columns. -/
structure Identifies (hash : CanonicalHash) (ledger : Set VerifiedRevisionEvent) : Prop where
  digest : ∀ log ∈ ledger, ∀ other ∈ ledger,
    hash log.event.content = hash other.event.content → log.event.content = other.event.content
  anchor : ∀ log ∈ ledger, ∀ other ∈ ledger,
    log.event.anchor = other.event.anchor → log.event.content = other.event.content
  signer : ∀ log ∈ ledger, ∀ other ∈ ledger,
    log.event.content = other.event.content → log.signer = other.signer
  fits : ∀ log ∈ ledger, fitsColumns log.event log.blockNumber = true

/-- The contents of the anchored rows. -/
def storedContents (vaultId : VaultId) (revisions : List RevisionRow) : Set RevisionContent :=
  {content | ∃ row ∈ revisions, row.chainAnchor.isSome ∧ rowContent vaultId row = content}

/-- The rows of a vault that has read events of the ledger and otherwise holds rows of its
own that were never published. -/
structure TracedRows (hash : CanonicalHash) (ledger : Set VerifiedRevisionEvent)
    (version : RevisionLogVersion) (vaultId : VaultId) (revisions : List RevisionRow) : Prop where
  unique : (revisions.map RevisionRow.revisionId).Nodup
  ids : ∀ row ∈ revisions,
    (row.chainAnchor.isSome ∧ row.revisionId = hash (rowContent vaultId row)) ∨
      ∀ log ∈ ledger, row.revisionId ≠ hash log.event.content
  anchored : ∀ row ∈ revisions, ∀ anchor, row.chainAnchor = some anchor →
    ∃ log ∈ ledger, log.event.anchor = anchor ∧ log.event.content = rowContent vaultId row
  unrevoked : ∀ row ∈ revisions, version = .v1 ∨ row.chainAnchor = none → row.revoked = false

/-- On the second log every anchored row knows its signer. -/
structure SyncedRows (hash : CanonicalHash) (ledger : Set VerifiedRevisionEvent)
    (version : RevisionLogVersion) (vaultId : VaultId) (revisions : List RevisionRow) : Prop
    extends TracedRows hash ledger version vaultId revisions where
  signed : version = .v2 → ∀ row ∈ revisions, row.chainAnchor.isSome →
    ∃ log ∈ ledger, log.event.content = rowContent vaultId row ∧
      row.recoveredSigner = some log.signer

/-- The flags of the anchored rows are those of the set. -/
def Evaluated (currentSet : List EvmAddress) (revisions : List RevisionRow) : Prop :=
  ∀ row ∈ revisions, row.chainAnchor.isSome → row.revoked = wantRevoked currentSet row

/-- Two rows that differ in finality and signer only. -/
structure SameTrace (old new : RevisionRow) : Prop where
  revisionId : new.revisionId = old.revisionId
  content : ∀ vaultId, rowContent vaultId new = rowContent vaultId old
  chainAnchor : new.chainAnchor = old.chainAnchor
  revoked : new.revoked = old.revoked

theorem SameTrace.refl (row : RevisionRow) : SameTrace row row :=
  ⟨rfl, fun _ => rfl, rfl, rfl⟩

theorem SameTrace.trans {first second third : RevisionRow} (one : SameTrace first second)
    (two : SameTrace second third) : SameTrace first third :=
  ⟨two.revisionId.trans one.revisionId, fun vaultId => (two.content vaultId).trans
    (one.content vaultId), two.chainAnchor.trans one.chainAnchor,
    two.revoked.trans one.revoked⟩

theorem stampPending_sameTrace (anchor : ChainAnchor) (observedAtBlock observedBlockHash : Nat)
    (row : RevisionRow) :
    SameTrace row
      (if row.chainAnchor = some anchor then
        { row with
          status := .pending
          observedAtBlock := some observedAtBlock
          observedBlockHash := some observedBlockHash }
      else
        row) := by
  split
  · exact ⟨rfl, fun _ => rfl, rfl, rfl⟩
  · exact .refl row

theorem stampSigner_sameTrace (event : RevisionEvent) (signer : EvmAddress) (row : RevisionRow) :
    SameTrace row
      (if hasAnchor event.content.accountId event.anchor row then
        { row with recoveredSigner := some signer }
      else
        row) := by
  split
  · exact ⟨rfl, fun _ => rfl, rfl, rfl⟩
  · exact .refl row

theorem storedContents_map (vaultId : VaultId) (revisions : List RevisionRow)
    {change : RevisionRow → RevisionRow} (same : ∀ row, SameTrace row (change row)) :
    storedContents vaultId (revisions.map change) = storedContents vaultId revisions := by
  ext content
  constructor
  · rintro ⟨row, member, anchored, rfl⟩
    obtain ⟨old, stored, rfl⟩ := List.mem_map.mp member
    rw [(same old).chainAnchor] at anchored
    exact ⟨old, stored, anchored, ((same old).content vaultId).symm⟩
  · rintro ⟨row, stored, anchored, rfl⟩
    refine ⟨change row, List.mem_map_of_mem stored, ?_, (same row).content vaultId⟩
    rw [(same row).chainAnchor]
    exact anchored

section

variable {hash : CanonicalHash} {ledger : Set VerifiedRevisionEvent}
variable {version : RevisionLogVersion} {vaultId : VaultId} {revisions : List RevisionRow}

/-- Stamps keep the trace of a row. -/
theorem TracedRows.map (traced : TracedRows hash ledger version vaultId revisions)
    {change : RevisionRow → RevisionRow} (same : ∀ row, SameTrace row (change row)) :
    TracedRows hash ledger version vaultId (revisions.map change) := by
  constructor
  · have ids : RevisionRow.revisionId ∘ change = RevisionRow.revisionId :=
      funext fun row => (same row).revisionId
    rw [List.map_map, ids]
    exact traced.unique
  · intro row member
    obtain ⟨old, stored, rfl⟩ := List.mem_map.mp member
    rw [(same old).chainAnchor, (same old).revisionId, (same old).content]
    exact traced.ids old stored
  · intro row member anchor held
    obtain ⟨old, stored, rfl⟩ := List.mem_map.mp member
    rw [(same old).chainAnchor] at held
    rw [(same old).content]
    exact traced.anchored old stored anchor held
  · intro row member applies
    obtain ⟨old, stored, rfl⟩ := List.mem_map.mp member
    rw [(same old).chainAnchor] at applies
    rw [(same old).revoked]
    exact traced.unrevoked old stored applies

/-- A row with the anchor of a ledger event has its content. -/
theorem TracedRows.content_of_anchor (traced : TracedRows hash ledger version vaultId revisions)
    (identifies : Identifies hash ledger) {log : VerifiedRevisionEvent} (onLedger : log ∈ ledger)
    {row : RevisionRow} (stored : row ∈ revisions)
    (anchored : row.chainAnchor = some log.event.anchor) :
    rowContent vaultId row = log.event.content := by
  obtain ⟨other, otherOn, sameAnchor, content⟩ := traced.anchored row stored _ anchored
  rw [← content]
  exact identifies.anchor other otherOn log onLedger sameAnchor

/-- So has one whose id is its digest. -/
theorem TracedRows.content_of_digest (traced : TracedRows hash ledger version vaultId revisions)
    (identifies : Identifies hash ledger) {log : VerifiedRevisionEvent} (onLedger : log ∈ ledger)
    {row : RevisionRow} (stored : row ∈ revisions)
    (digest : row.revisionId = hash log.event.content) :
    row.chainAnchor.isSome ∧ rowContent vaultId row = log.event.content := by
  cases traced.ids row stored with
  | inl ingested =>
      obtain ⟨anchored, ownDigest⟩ := ingested
      obtain ⟨anchor, held⟩ := Option.isSome_iff_exists.mp anchored
      obtain ⟨other, otherOn, -, content⟩ := traced.anchored row stored anchor held
      refine ⟨anchored, ?_⟩
      rw [← content]
      apply identifies.digest other otherOn log onLedger
      rw [content, ← ownDigest, digest]
  | inr drawn => exact absurd digest (drawn log onLedger)

/-- One row comes or receives its anchor, with the content of an event of the ledger. -/
theorem TracedRows.absorb {after : List RevisionRow} {new : RevisionRow}
    {event : VerifiedRevisionEvent}
    (traced : TracedRows hash ledger version vaultId revisions) (onLedger : event ∈ ledger)
    (unique : (after.map RevisionRow.revisionId).Nodup)
    (members : ∀ row ∈ after, row ∈ revisions ∨ row = new)
    (kept : ∀ row ∈ revisions, row.chainAnchor.isSome → row ∈ after) (added : new ∈ after)
    (anchor : new.chainAnchor = some event.event.anchor)
    (content : rowContent vaultId new = event.event.content)
    (ids : new.revisionId = hash event.event.content ∨
      ∀ log ∈ ledger, new.revisionId ≠ hash log.event.content)
    (unrevoked : new.revoked = false) :
    TracedRows hash ledger version vaultId after ∧
      storedContents vaultId after =
        insert event.event.content (storedContents vaultId revisions) ∧
      ∀ row ∈ after, row ∈ revisions ∨
        (hasAnchor event.event.content.accountId event.event.anchor row = true ∧
          row.revoked = false) := by
  refine ⟨⟨unique, ?_, ?_, ?_⟩, ?_, ?_⟩
  · intro row member
    rcases members row member with old | rfl
    · exact traced.ids row old
    · refine ids.imp (fun digest => ⟨?_, ?_⟩) id
      · rw [anchor]
        rfl
      · rw [content]
        exact digest
  · intro row member held stamped
    rcases members row member with old | rfl
    · exact traced.anchored row old held stamped
    · exact ⟨event, onLedger, Option.some.inj (anchor.symm.trans stamped), content.symm⟩
  · intro row member applies
    rcases members row member with old | rfl
    · exact traced.unrevoked row old applies
    · exact unrevoked
  · ext stored
    constructor
    · rintro ⟨row, member, anchored, rfl⟩
      rcases members row member with old | rfl
      · exact .inr ⟨row, old, anchored, rfl⟩
      · exact .inl content
    · rintro (rfl | ⟨row, old, anchored, rfl⟩)
      · exact ⟨new, added, by rw [anchor]; rfl, content⟩
      · exact ⟨row, kept row old anchored, anchored, rfl⟩
  · intro row member
    rcases members row member with old | rfl
    · exact .inl old
    · refine .inr ⟨?_, unrevoked⟩
      have account : row.accountId = event.event.content.accountId :=
        congrArg RevisionContent.accountId content
      simp [hasAnchor, account, anchor]

/-- A row of this device that comes back from the chain receives the anchor. -/
theorem TracedRows.stampTwin {event : VerifiedRevisionEvent} {twin : RevisionRow}
    (traced : TracedRows hash ledger version vaultId revisions) (onLedger : event ∈ ledger)
    (own : event.event.content.vaultId = vaultId)
    (found : revisions.find? (isUnanchoredTwin event.event.content) = some twin) :
    TracedRows hash ledger version vaultId
        (stampAnchor revisions twin.revisionId event.event.anchor) ∧
      storedContents vaultId (stampAnchor revisions twin.revisionId event.event.anchor) =
        insert event.event.content (storedContents vaultId revisions) ∧
      ∀ row ∈ stampAnchor revisions twin.revisionId event.event.anchor, row ∈ revisions ∨
        (hasAnchor event.event.content.accountId event.event.anchor row = true ∧
          row.revoked = false) := by
  have stored := List.mem_of_find?_eq_some found
  have isTwin := List.find?_some found
  simp only [isUnanchoredTwin, Bool.and_eq_true, decide_eq_true_eq,
    Option.isNone_iff_eq_none] at isTwin
  obtain ⟨⟨⟨⟨⟨account, parent⟩, payload⟩, schema⟩, device⟩, unanchored⟩ := isTwin
  have drawn : ∀ log ∈ ledger, twin.revisionId ≠ hash log.event.content := by
    cases traced.ids twin stored with
    | inl ingested =>
        rw [unanchored] at ingested
        exact absurd ingested.1 (by simp)
    | inr drawn => exact drawn
  let stamped : RevisionRow := { twin with chainAnchor := some event.event.anchor }
  have content : rowContent vaultId stamped = event.event.content := by
    simp only [stamped, rowContent, account, parent, payload, schema, device, ← own]
  have isStamped : stamped ∈ stampAnchor revisions twin.revisionId event.event.anchor :=
    List.mem_map.mpr ⟨twin, stored, if_pos rfl⟩
  refine traced.absorb onLedger ?_ ?_ ?_ isStamped rfl content (.inr drawn)
    (traced.unrevoked twin stored (.inr unanchored))
  · have sameIds : (stampAnchor revisions twin.revisionId event.event.anchor).map
        RevisionRow.revisionId = revisions.map RevisionRow.revisionId := by
      rw [stampAnchor, List.map_map]
      apply List.map_congr_left
      intro row _
      simp only [Function.comp_apply]
      split <;> rfl
    rw [sameIds]
    exact traced.unique
  · intro row member
    obtain ⟨old, oldStored, rfl⟩ := List.mem_map.mp member
    split
    · next sameId =>
        obtain rfl := List.inj_on_of_nodup_map traced.unique oldStored stored sameId
        exact .inr rfl
    · exact .inl oldStored
  · intro row oldStored anchored
    refine List.mem_map.mpr ⟨row, oldStored, if_neg ?_⟩
    intro sameId
    obtain rfl := List.inj_on_of_nodup_map traced.unique oldStored stored sameId
    rw [unanchored] at anchored
    cases anchored

/-- A foreign event is inserted under its digest. -/
theorem TracedRows.insertForeign {event : VerifiedRevisionEvent}
    (traced : TracedRows hash ledger version vaultId revisions) (onLedger : event ∈ ledger)
    (own : event.event.content.vaultId = vaultId)
    (fresh : ∀ row ∈ revisions, row.revisionId ≠ hash event.event.content)
    (isTombstone : Bool) (nowMs : Int) :
    TracedRows hash ledger version vaultId
        (revisions ++ [foreignRow (hash event.event.content) event.event isTombstone nowMs]) ∧
      storedContents vaultId
          (revisions ++ [foreignRow (hash event.event.content) event.event isTombstone nowMs]) =
        insert event.event.content (storedContents vaultId revisions) ∧
      ∀ row ∈ revisions ++
          [foreignRow (hash event.event.content) event.event isTombstone nowMs],
        row ∈ revisions ∨ (hasAnchor event.event.content.accountId event.event.anchor row = true ∧
          row.revoked = false) := by
  have content : rowContent vaultId
      (foreignRow (hash event.event.content) event.event isTombstone nowMs) =
        event.event.content := by
    rw [← own]
    rfl
  refine traced.absorb onLedger (nodup_append_fresh traced.unique fresh) ?_ ?_
    (List.mem_append_right _ (List.mem_singleton.mpr rfl)) rfl content (.inl rfl) rfl
  · intro row member
    exact (List.mem_append.mp member).imp id List.mem_singleton.mp
  · exact fun row stored _ => List.mem_append_left _ stored

/-- The body of an ingest: the event's content is stored, and a row that is new or newly
anchored carries its anchor and is not revoked. -/
theorem TracedRows.ingestLog {log log' : RevisionTables} {event : VerifiedRevisionEvent}
    {isTombstone : Bool} {nowMs : Int} {outcome : IngestOutcome}
    (traced : TracedRows hash ledger version vaultId log.revisions)
    (identifies : Identifies hash ledger) (onLedger : event ∈ ledger)
    (own : event.event.content.vaultId = vaultId)
    (ingested : ingestLog hash log event.event isTombstone nowMs = .ok (log', outcome)) :
    TracedRows hash ledger version vaultId log'.revisions ∧
      storedContents vaultId log'.revisions =
        insert event.event.content (storedContents vaultId log.revisions) ∧
      ∀ row ∈ log'.revisions, row ∈ log.revisions ∨
        (hasAnchor event.event.content.accountId event.event.anchor row = true ∧
          row.revoked = false) := by
  rcases ingestLog_cases ingested with ⟨rfl, -, present⟩ | ⟨fresh, -, -, -, changed⟩
  · have stored : event.event.content ∈ storedContents vaultId log'.revisions := by
      cases present with
      | inl digest =>
          obtain ⟨row, stored, digest⟩ := digest
          obtain ⟨anchored, content⟩ :=
            traced.content_of_digest identifies onLedger stored digest
          exact ⟨row, stored, anchored, content⟩
      | inr sameAnchor =>
          obtain ⟨row, stored, isAnchored⟩ := sameAnchor
          simp only [hasAnchor, Bool.and_eq_true, decide_eq_true_eq] at isAnchored
          refine ⟨row, stored, ?_,
            traced.content_of_anchor identifies onLedger stored isAnchored.2⟩
          rw [isAnchored.2]
          rfl
    exact ⟨traced, (Set.insert_eq_of_mem stored).symm, fun row member => .inl member⟩
  · rcases changed with ⟨twin, found, rfl, -⟩ | ⟨-, rfl, -⟩
    · exact traced.stampTwin onLedger own found
    · exact traced.insertForeign onLedger own fresh isTombstone nowMs

/-- One event that passed the gate, stamped as the two logs stamp it. -/
def stampedRows (version : RevisionLogVersion) (revisions : List RevisionRow)
    (event : VerifiedRevisionEvent) : List RevisionRow :=
  let pending := stampPending revisions event.event.anchor event.blockNumber event.blockHash
  match version with
  | .v1 => pending
  | .v2 => stampSigner pending event.event event.signer

theorem TracedRows.stampedRows (traced : TracedRows hash ledger version vaultId revisions)
    (event : VerifiedRevisionEvent) :
    TracedRows hash ledger version vaultId (stampedRows version revisions event) ∧
      storedContents vaultId (Pangolin.stampedRows version revisions event) =
        storedContents vaultId revisions := by
  have pendingSame := stampPending_sameTrace event.event.anchor event.blockNumber event.blockHash
  have signerSame := stampSigner_sameTrace event.event event.signer
  cases version with
  | v1 => exact ⟨traced.map pendingSame, storedContents_map vaultId revisions pendingSame⟩
  | v2 =>
      refine ⟨(traced.map pendingSame).map signerSame, ?_⟩
      exact (storedContents_map vaultId _ signerSame).trans
        (storedContents_map vaultId revisions pendingSame)

/-- A stamped row is as it was or has the event's anchor. -/
theorem mem_stampedRows_cases {event : VerifiedRevisionEvent} {row : RevisionRow}
    (member : row ∈ Pangolin.stampedRows version revisions event) :
    row ∈ revisions ∨
      ∃ old ∈ revisions, old.chainAnchor = some event.event.anchor ∧ SameTrace old row := by
  have pendingSame := stampPending_sameTrace event.event.anchor event.blockNumber event.blockHash
  cases version with
  | v1 =>
      obtain ⟨old, stored, rfl⟩ := List.mem_map.mp member
      by_cases anchored : old.chainAnchor = some event.event.anchor
      · exact .inr ⟨old, stored, anchored, pendingSame old⟩
      · rw [if_neg anchored]
        exact .inl stored
  | v2 =>
      obtain ⟨pending, inPending, rfl⟩ := List.mem_map.mp member
      obtain ⟨old, stored, rfl⟩ := List.mem_map.mp inPending
      by_cases anchored : old.chainAnchor = some event.event.anchor
      · exact .inr ⟨old, stored, anchored,
          (pendingSame old).trans (stampSigner_sameTrace event.event event.signer _)⟩
      · rw [if_neg anchored, if_neg]
        · exact .inl stored
        · simp [hasAnchor, anchored]

/-- On the second log it carries the event's signer in the second case. -/
theorem mem_stampedRows {event : VerifiedRevisionEvent} {row : RevisionRow}
    (member : row ∈ Pangolin.stampedRows .v2 revisions event) :
    ∃ old ∈ revisions, SameTrace old row ∧
      ((hasAnchor event.event.content.accountId event.event.anchor old = true ∧
          row.recoveredSigner = some event.signer) ∨
        (hasAnchor event.event.content.accountId event.event.anchor old = false ∧
          row.recoveredSigner = old.recoveredSigner)) := by
  have pendingSame := stampPending_sameTrace event.event.anchor event.blockNumber event.blockHash
  have signerSame := stampSigner_sameTrace event.event event.signer
  obtain ⟨pending, inPending, rfl⟩ := List.mem_map.mp member
  obtain ⟨old, stored, pendingEq⟩ := List.mem_map.mp inPending
  have same : SameTrace old pending := by
    rw [← pendingEq]
    exact pendingSame old
  have sameSigner : pending.recoveredSigner = old.recoveredSigner := by
    rw [← pendingEq]
    split <;> rfl
  have sameAnchor : hasAnchor event.event.content.accountId event.event.anchor pending =
      hasAnchor event.event.content.accountId event.event.anchor old := by
    rw [← pendingEq]
    split <;> rfl
  refine ⟨old, stored, same.trans (signerSame pending), ?_⟩
  rw [sameAnchor]
  cases isAnchored : hasAnchor event.event.content.accountId event.event.anchor old with
  | true => exact .inl ⟨rfl, rfl⟩
  | false => exact .inr ⟨rfl, sameSigner⟩

/-- One event that passed the gate is stored with its signer; if the flags were those of
the set and the signer is in it, they still are. -/
theorem SyncedRows.ingest {log log' : RevisionTables} {event : VerifiedRevisionEvent}
    {isTombstone : Bool} {nowMs : Int} {outcome : IngestOutcome}
    (synced : SyncedRows hash ledger version vaultId log.revisions)
    (identifies : Identifies hash ledger) (onLedger : event ∈ ledger)
    (own : event.event.content.vaultId = vaultId)
    (ingested : ingestLog hash log event.event isTombstone nowMs = .ok (log', outcome)) :
    SyncedRows hash ledger version vaultId (Pangolin.stampedRows version log'.revisions event) ∧
      storedContents vaultId (Pangolin.stampedRows version log'.revisions event) =
        insert event.event.content (storedContents vaultId log.revisions) ∧
      (∀ row ∈ Pangolin.stampedRows version log'.revisions event,
        row ∈ log.revisions ∨ rowContent vaultId row = event.event.content) ∧
      ∀ currentSet, version = .v2 → event.signer ∈ currentSet →
        Evaluated currentSet log.revisions →
          Evaluated currentSet (Pangolin.stampedRows version log'.revisions event) := by
  obtain ⟨traced, stored, members⟩ :=
    synced.toTracedRows.ingestLog identifies onLedger own ingested
  obtain ⟨stampedTrace, stampedStored⟩ := traced.stampedRows event
  have fromBefore : ∀ old ∈ log'.revisions,
      hasAnchor event.event.content.accountId event.event.anchor old = false →
        old ∈ log.revisions := by
    intro old member unanchored
    refine (members old member).resolve_right ?_
    rintro ⟨isAnchored, -⟩
    rw [unanchored] at isAnchored
    cases isAnchored
  have content : ∀ old ∈ log'.revisions,
      hasAnchor event.event.content.accountId event.event.anchor old = true →
        rowContent vaultId old = event.event.content := by
    intro old member isAnchored
    simp only [hasAnchor, Bool.and_eq_true, decide_eq_true_eq] at isAnchored
    exact traced.content_of_anchor identifies onLedger member isAnchored.2
  refine ⟨⟨stampedTrace, ?_⟩, stampedStored.trans stored, ?_, ?_⟩
  · rintro rfl row member anchored
    obtain ⟨old, oldMember, same, ⟨isAnchored, signer⟩ | ⟨unanchored, signer⟩⟩ :=
      mem_stampedRows member
    · refine ⟨event, onLedger, ?_, signer⟩
      rw [same.content, content old oldMember isAnchored]
    · rw [same.content, signer]
      rw [same.chainAnchor] at anchored
      exact synced.signed rfl old (fromBefore old oldMember unanchored) anchored
  · intro row member
    rcases mem_stampedRows_cases member with unchanged | ⟨old, oldMember, anchored, same⟩
    · exact (members row unchanged).imp id fun isNew => content row unchanged isNew.1
    · right
      rw [same.content]
      exact traced.content_of_anchor identifies onLedger oldMember anchored
  · rintro currentSet rfl inSet evaluated row member anchored
    obtain ⟨old, oldMember, same, ⟨isAnchored, signer⟩ | ⟨unanchored, signer⟩⟩ :=
      mem_stampedRows member
    · have honoured : wantRevoked currentSet row = false := by
        simp [wantRevoked, signer, inSet]
      rw [honoured, same.revoked]
      rcases members old oldMember with before | ⟨-, unrevoked⟩
      · rw [same.chainAnchor] at anchored
        obtain ⟨other, otherOn, otherContent, otherSigner⟩ :=
          synced.signed rfl old before anchored
        have sameSigner : other.signer = event.signer := by
          apply identifies.signer other otherOn event onLedger
          rw [otherContent, content old oldMember isAnchored]
        rw [evaluated old before anchored]
        simp [wantRevoked, otherSigner, sameSigner, inSet]
      · exact unrevoked
    · rw [same.chainAnchor] at anchored
      rw [same.revoked, evaluated old (fromBefore old oldMember unanchored) anchored]
      simp only [wantRevoked, signer]

/-! ## Reading events -/

theorem ingestLog_of_fits (hash : CanonicalHash) (log : RevisionTables) (event : RevisionEvent)
    (isTombstone : Bool) (nowMs : Int) {observedAtBlock : Nat}
    (fits : fitsColumns event observedAtBlock = true) :
    ∃ log' outcome, ingestLog hash log event isTombstone nowMs = .ok (log', outcome) := by
  simp only [fitsColumns, Bool.and_eq_true] at fits
  unfold ingestLog
  simp only [fits.1.2, fits.2, not_true, if_false]
  split
  · exact ⟨_, _, rfl⟩
  split
  · exact ⟨_, _, rfl⟩
  split
  · exact ⟨_, _, rfl⟩
  · exact ⟨_, _, rfl⟩

/-- Numbers that fit make the ingest go through. -/
theorem ingestPending_of_fits (hash : CanonicalHash) (vault : Vault) (event : RevisionEvent)
    {observedAtBlock : Nat} (observedBlockHash : Nat) (nowMs : Int) (now : Nat)
    (fits : fitsColumns event observedAtBlock = true) :
    ∃ vault' outcome isTombstone log',
      ingestPendingChainRevision hash vault event observedAtBlock observedBlockHash nowMs now =
        (vault', .ok outcome) ∧
      ingestLog hash vault.disk.log event isTombstone nowMs = .ok (log', outcome) ∧
      vault'.disk.log.revisions =
        stampPending log'.revisions event.anchor observedAtBlock observedBlockHash ∧
      vault'.disk.keys = vault.disk.keys := by
  obtain ⟨log', outcome, ingested⟩ := ingestLog_of_fits hash vault.disk.log event
    (detectTombstoneBit (maybeExpireActiveSession vault now) event.content) nowMs fits
  have keys := (ingestPending_logOnly hash vault event observedAtBlock observedBlockHash nowMs
    now).keys
  have stored := ingestPendingChainRevision_log hash vault event observedAtBlock
    observedBlockHash nowMs now
  rw [ingested] at stored
  simp only [fits, if_true] at stored
  have outcomeOk : (ingestPendingChainRevision hash vault event observedAtBlock
      observedBlockHash nowMs now).2 = .ok outcome := by
    simp only [fitsColumns, Bool.and_eq_true] at fits
    simp [ingestPendingChainRevision, ingestChainRevision, ingested, fits.1.1, fits.1.2, fits.2]
  exact ⟨_, outcome, _, log', Prod.ext rfl outcomeOk, ingested, by rw [stored], keys⟩

/-- What reading events does to a vault: it stores their contents and keeps what the rows
and the flags say. -/
structure Reads (hash : CanonicalHash) (ledger : Set VerifiedRevisionEvent)
    (version : RevisionLogVersion) (vaultId : VaultId) (currentSet : List EvmAddress)
    (before after : Vault) (contents : Set RevisionContent) : Prop where
  synced : SyncedRows hash ledger version vaultId after.disk.log.revisions
  stored : storedContents vaultId after.disk.log.revisions =
    contents ∪ storedContents vaultId before.disk.log.revisions
  evaluated : version = .v2 → Evaluated currentSet before.disk.log.revisions →
    Evaluated currentSet after.disk.log.revisions
  settings : after.disk.keys.settings = before.disk.keys.settings

theorem Reads.refl {vault : Vault}
    (synced : SyncedRows hash ledger version vaultId vault.disk.log.revisions)
    (currentSet : List EvmAddress) :
    Reads hash ledger version vaultId currentSet vault vault ∅ :=
  ⟨synced, (Set.empty_union _).symm, fun _ held => held, rfl⟩

theorem Reads.trans {currentSet : List EvmAddress} {first second third : Vault}
    {some more : Set RevisionContent}
    (one : Reads hash ledger version vaultId currentSet first second some)
    (two : Reads hash ledger version vaultId currentSet second third more) :
    Reads hash ledger version vaultId currentSet first third (some ∪ more) := by
  refine ⟨two.synced, ?_, ?_, two.settings.trans one.settings⟩
  · rw [two.stored, one.stored, ← Set.union_assoc, Set.union_comm more]
  · exact fun second evaluated => two.evaluated second (one.evaluated second evaluated)

/-- The contents of the events that pass the gate. -/
def passedContents (version : RevisionLogVersion) (currentSet : List EvmAddress)
    (logs : List VerifiedRevisionEvent) : Set RevisionContent :=
  {content | ∃ log ∈ logs, passesGate version currentSet log.signer = true ∧
    log.event.content = content}

theorem passedContents_singleton {currentSet : List EvmAddress} {log : VerifiedRevisionEvent} :
    passedContents version currentSet [log] =
      if passesGate version currentSet log.signer = true then {log.event.content} else ∅ := by
  ext content
  by_cases passes : passesGate version currentSet log.signer = true
  · rw [if_pos passes]
    constructor
    · rintro ⟨other, member, -, rfl⟩
      obtain rfl := List.mem_singleton.mp member
      rfl
    · rintro rfl
      exact ⟨log, List.mem_singleton.mpr rfl, passes, rfl⟩
  · simp [passedContents, passes]

theorem passedContents_cons (currentSet : List EvmAddress) (log : VerifiedRevisionEvent)
    (logs : List VerifiedRevisionEvent) :
    passedContents version currentSet (log :: logs) =
      passedContents version currentSet [log] ∪ passedContents version currentSet logs := by
  ext content
  simp [passedContents]

theorem autoRegister_of_fits (keys : KeyTables) (signer : EvmAddress) {block : Nat}
    (nowMs : Int) (fits : fitsI64 block = true) :
    ∃ keys' inserted, autoRegisterDeviceFromChainSync keys signer block nowMs =
        .ok (keys', inserted) ∧ keys'.settings = keys.settings := by
  unfold autoRegisterDeviceFromChainSync
  rw [if_neg (by simp [fits])]
  exact ⟨_, _, rfl, rfl⟩

theorem stampRecoveredSigner_of_fits (vault : Vault) {event : RevisionEvent}
    (signer : EvmAddress) {observedAtBlock : Nat}
    (fits : fitsColumns event observedAtBlock = true) :
    stampRecoveredSigner vault event signer =
      (withLog vault { vault.disk.log with
        revisions := stampSigner vault.disk.log.revisions event signer }, .ok ()) := by
  simp only [fitsColumns, Bool.and_eq_true] at fits
  simp [stampRecoveredSigner, fits.1.2, fits.2]

/-- An event that passes the gate leaves the stamped rows. -/
theorem ingestVerified_passes {currentSet : List EvmAddress} {vault : Vault}
    {log : VerifiedRevisionEvent} (passes : passesGate version currentSet log.signer = true)
    (fits : fitsColumns log.event log.blockNumber = true) (nowMs : Int) (now : Nat) :
    ∃ after isTombstone log' outcome,
      ingestVerified hash version currentSet vault log nowMs now = (after, .ok true) ∧
      ingestLog hash vault.disk.log log.event isTombstone nowMs = .ok (log', outcome) ∧
      after.disk.log.revisions = Pangolin.stampedRows version log'.revisions log ∧
      after.disk.keys.settings = vault.disk.keys.settings := by
  have blockFits : fitsI64 log.blockNumber = true := by
    simp only [fitsColumns, Bool.and_eq_true] at fits
    exact fits.1.1
  obtain ⟨keys, inserted, registered, settings⟩ :=
    autoRegister_of_fits vault.disk.keys log.signer nowMs blockFits
  obtain ⟨stored, outcome, isTombstone, log', ingests, ingested, revisions, sameKeys⟩ :=
    ingestPending_of_fits hash { vault with disk := { vault.disk with keys } } log.event
      log.blockHash nowMs now fits
  cases version with
  | v1 =>
      refine ⟨stored, isTombstone, log', outcome, ?_, ingested, revisions, ?_⟩
      · simp [ingestVerified, passes, registered, ingests]
      · rw [sameKeys, settings]
  | v2 =>
      let signed := withLog stored { stored.disk.log with
        revisions := stampSigner stored.disk.log.revisions log.event log.signer }
      refine ⟨signed, isTombstone, log', outcome, ?_, ingested, ?_, ?_⟩
      · simp [ingestVerified, passes, registered, ingests,
          stampRecoveredSigner_of_fits stored log.signer fits, signed]
      · simp only [signed, withLog_log, revisions]
        rfl
      · simp only [signed, withLog, sameKeys, settings]

/-- One event. -/
theorem ingestVerified_reads (currentSet : List EvmAddress) {vault : Vault}
    {log : VerifiedRevisionEvent}
    (synced : SyncedRows hash ledger version vaultId vault.disk.log.revisions)
    (identifies : Identifies hash ledger) (onLedger : log ∈ ledger)
    (own : log.event.content.vaultId = vaultId) (nowMs : Int) (now : Nat) :
    ∃ after, ingestVerified hash version currentSet vault log nowMs now =
        (after, .ok (passesGate version currentSet log.signer)) ∧
      Reads hash ledger version vaultId currentSet vault after
        (passedContents version currentSet [log]) ∧
      ∀ row ∈ after.disk.log.revisions, row ∈ vault.disk.log.revisions ∨
        rowContent vaultId row ∈ passedContents version currentSet [log] := by
  rw [passedContents_singleton]
  by_cases passes : passesGate version currentSet log.signer = true
  · obtain ⟨after, isTombstone, log', outcome, ingests, ingested, revisions, settings⟩ :=
      ingestVerified_passes passes (identifies.fits log onLedger) nowMs now
    obtain ⟨stampedSynced, stored, rows, evaluated⟩ :=
      synced.ingest identifies onLedger own ingested
    rw [← revisions] at stampedSynced stored rows evaluated
    rw [if_pos passes]
    refine ⟨after, ?_, ⟨stampedSynced, ?_, ?_, settings⟩, rows⟩
    · rw [ingests, passes]
    · rw [stored, Set.insert_eq]
    · intro second
      apply evaluated currentSet second
      subst second
      simpa [passesGate, isSignerHonored] using passes
  · rw [if_neg passes]
    refine ⟨vault, ?_, ⟨synced, ?_, fun _ evaluated => evaluated, rfl⟩, ?_⟩
    · simp only [Bool.not_eq_true] at passes
      simp [ingestVerified, passes]
    · rw [Set.empty_union]
    · exact fun row member => .inl member

/-- What the detector holds after the events of a chunk below the head: their blocks, and
what it held before unless it is out of the window. -/
structure Observes (head : Nat) (logs : List VerifiedRevisionEvent)
    (before after : ReorgDetector) : Prop where
  members : ∀ entry ∈ after.observed, entry ∈ before.observed ∨
    ∃ log ∈ logs, entry = (log.blockNumber, log.blockHash)
  tip : before.tip ≤ head → after.tip ≤ head
  kept : before.tip ≤ head → ∀ entry ∈ before.observed,
    (∀ log ∈ logs, entry.1 < log.blockNumber) → head ≤ entry.1 + confirmationDepth * 2 →
      entry ∈ after.observed

theorem Observes.refl (head : Nat) (logs : List VerifiedRevisionEvent)
    (detector : ReorgDetector) : Observes head logs detector detector :=
  ⟨fun _ member => .inl member, id, fun _ _ member _ _ => member⟩

theorem Observes.record {head : Nat} (detector : ReorgDetector) {log : VerifiedRevisionEvent}
    (within : log.blockNumber ≤ head) :
    Observes head [log] detector (detector.record log.blockNumber log.blockHash) := by
  constructor
  · intro entry member
    have kept := (List.mem_filter.mp member).1
    cases List.mem_cons.mp kept with
    | inl new => exact .inr ⟨log, List.mem_singleton.mpr rfl, new⟩
    | inr old => exact .inl (List.mem_filter.mp old).1
  · intro below
    exact max_le below within
  · intro below entry member older near
    have other : entry.1 < log.blockNumber := older log (List.mem_singleton.mpr rfl)
    refine List.mem_filter.mpr ⟨List.mem_cons_of_mem _ (List.mem_filter.mpr ⟨member, ?_⟩), ?_⟩
    · simp only [decide_eq_true_eq]
      omega
    · have newTip : max detector.tip log.blockNumber ≤ head := max_le below within
      simp only [decide_eq_true_eq]
      omega

theorem Observes.cons {head : Nat} {log : VerifiedRevisionEvent}
    {logs : List VerifiedRevisionEvent} {before middle after : ReorgDetector}
    (first : Observes head [log] before middle) (rest : Observes head logs middle after) :
    Observes head (log :: logs) before after := by
  constructor
  · intro entry member
    rcases rest.members entry member with earlier | ⟨other, later, same⟩
    · rcases first.members entry earlier with held | ⟨other, here, same⟩
      · exact .inl held
      · obtain rfl := List.mem_singleton.mp here
        exact .inr ⟨other, List.mem_cons_self, same⟩
    · exact .inr ⟨other, List.mem_cons_of_mem log later, same⟩
  · exact fun below => rest.tip (first.tip below)
  · intro below entry member older near
    apply rest.kept (first.tip below) entry
    · apply first.kept below entry member _ near
      intro other here
      obtain rfl := List.mem_singleton.mp here
      exact older other List.mem_cons_self
    · exact fun other later => older other (List.mem_cons_of_mem log later)
    · exact near

/-- The events of a chunk: all that pass are stored, and their blocks observed. -/
theorem ingestEvents_reads (currentSet : List EvmAddress) {vault : Vault}
    (detector : ReorgDetector) {logs : List VerifiedRevisionEvent} {head : Nat}
    (synced : SyncedRows hash ledger version vaultId vault.disk.log.revisions)
    (identifies : Identifies hash ledger) (onLedger : ∀ log ∈ logs, log ∈ ledger)
    (own : ∀ log ∈ logs, log.event.content.vaultId = vaultId)
    (within : ∀ log ∈ logs, log.blockNumber ≤ head) (nowMs : Int) (now : Nat) :
    ∃ after detector',
      ingestEvents hash version currentSet nowMs now vault detector logs =
        (after, .ok detector') ∧
      Reads hash ledger version vaultId currentSet vault after
        (passedContents version currentSet logs) ∧
      (∀ row ∈ after.disk.log.revisions, row ∈ vault.disk.log.revisions ∨
        rowContent vaultId row ∈ passedContents version currentSet logs) ∧
      Observes head logs detector detector' := by
  induction logs generalizing vault detector with
  | nil =>
      refine ⟨vault, detector, rfl, ⟨synced, ?_, fun _ evaluated => evaluated, rfl⟩, ?_,
        .refl head [] detector⟩
      · simp [passedContents]
      · exact fun row member => .inl member
  | cons log logs ih =>
      obtain ⟨middle, ingests, first, firstRows⟩ := ingestVerified_reads currentSet synced
        identifies (onLedger log List.mem_cons_self) (own log List.mem_cons_self) nowMs now
      let observing := if passesGate version currentSet log.signer = true then
        detector.record log.blockNumber log.blockHash else detector
      have observes : Observes head [log] detector observing := by
        simp only [observing]
        split
        · exact .record detector (within log List.mem_cons_self)
        · exact .refl head [log] detector
      obtain ⟨after, detector', rest, reads, rows, later⟩ := ih observing first.synced
        (fun other member => onLedger other (List.mem_cons_of_mem _ member))
        (fun other member => own other (List.mem_cons_of_mem _ member))
        (fun other member => within other (List.mem_cons_of_mem _ member))
      refine ⟨after, detector', ?_, ?_, ?_, observes.cons later⟩
      · simp only [ingestEvents, ingests]
        exact rest
      · rw [passedContents_cons currentSet log logs]
        exact first.trans reads
      · intro row member
        rw [passedContents_cons currentSet log logs]
        rcases rows row member with between | new
        · exact (firstRows row between).imp id .inl
        · exact .inr (.inr new)

end

end Pangolin
