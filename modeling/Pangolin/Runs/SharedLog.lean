import Pangolin.Runs.PairedReads
import Pangolin.Runs.PublishQueue
import Pangolin.Store.RowChanges

/-!
# Two devices over one log

Two devices of one vault edit it, publish to one chain and ingest that chain in order.
The device that made an edit keeps it under the id it drew; the other one stores the
event under its digest, and without a nonce, which no event carries.  So the two revision
graphs are named differently, and neither heads nor decrypted contents need to agree.

What does agree is the log itself: once a device has ingested the whole chain, its
anchored rows are the chain's revisions, account by account.
-/

namespace Pangolin

open Symbolic Crypto Store Transition

/-! ## The rows of a device and the events of the chain -/

/-- The part of an event that every device stores. -/
def eventPayload (content : RevisionContent) : RevisionPublishPayload :=
  ⟨content.parent, content.schemaVersion, content.encPayload⟩

/-- The row says what the event says. -/
structure Carries (row : RevisionRow) (content : RevisionContent) : Prop where
  accountId : row.accountId = content.accountId
  payload : publishPayload row = eventPayload content

/-- The revisions of an account on the chain. -/
def chainRevisions (chain : List RevisionEvent) (accountId : AccountId) :
    Set RevisionPublishPayload :=
  {payload | ∃ event ∈ chain, event.content.accountId = accountId ∧
    eventPayload event.content = payload}

/-- The published revisions of an account that a device holds. -/
def publishedRevisions (revisions : List RevisionRow) (accountId : AccountId) :
    Set RevisionPublishPayload :=
  {payload | ∃ row ∈ revisions, row.accountId = accountId ∧ row.chainAnchor.isSome ∧
    publishPayload row = payload}

/-- What a device that has ingested the first `seen` events knows of the chain. -/
structure Recorded (hash : CanonicalHash) (ring : Nat → Option VdkKey) (vaultId : VaultId)
    (chain : List RevisionEvent) (seen : Nat) (revisions : List RevisionRow) : Prop where
  unique : (revisions.map RevisionRow.revisionId).Nodup
  readable : ∀ row ∈ revisions, Readable ring vaultId row
  /-- An anchor is that of an event with the content of the row. -/
  backed : ∀ row ∈ revisions, ∀ anchor, row.chainAnchor = some anchor →
    ∃ event ∈ chain, event.anchor = anchor ∧ Carries row event.content
  /-- A row without a nonce came from the chain. -/
  foreign : ∀ row ∈ revisions, row.encNonce = .placeholder → row.chainAnchor.isSome ∧
    ∃ event ∈ chain, row.revisionId = hash event.content ∧ Carries row event.content
  covered : ∀ event ∈ chain.take seen, ∃ row ∈ revisions, row.chainAnchor.isSome ∧
    Carries row event.content
  seen_le : seen ≤ chain.length

theorem SameContent.carries {old new : RevisionRow} {content : RevisionContent}
    (same : SameContent old new) (carries : Carries old content) : Carries new content := by
  constructor
  · rw [same.accountId]
    exact carries.accountId
  · rw [← carries.payload]
    simp only [publishPayload, same.parent, same.schemaVersion, same.encPayload]

/-- A row that keeps its content, keeps an anchor it has, and receives none but that of an
event with its content. -/
structure Restamped (chain : List RevisionEvent) (old new : RevisionRow) : Prop where
  same : SameContent old new
  anchored : old.chainAnchor.isSome → new.chainAnchor.isSome
  backed : ∀ anchor, new.chainAnchor = some anchor → old.chainAnchor = some anchor ∨
    ∃ event ∈ chain, event.anchor = anchor ∧ Carries old event.content

theorem Restamped.refl (chain : List RevisionEvent) (row : RevisionRow) :
    Restamped chain row row :=
  ⟨.refl row, id, fun _ held => .inl held⟩

namespace Recorded

variable {hash : CanonicalHash} {ring : Nat → Option VdkKey} {vaultId : VaultId}
variable {chain : List RevisionEvent} {seen : Nat} {revisions : List RevisionRow}

theorem map (recorded : Recorded hash ring vaultId chain seen revisions)
    {change : RevisionRow → RevisionRow}
    (restamped : ∀ row ∈ revisions, Restamped chain row (change row)) :
    Recorded hash ring vaultId chain seen (revisions.map change) := by
  constructor
  · have ids : revisions.map (RevisionRow.revisionId ∘ change) =
        revisions.map RevisionRow.revisionId := by
      apply List.map_congr_left
      intro row stored
      exact (restamped row stored).same.revisionId
    rw [List.map_map, ids]
    exact recorded.unique
  · intro row member
    obtain ⟨old, stored, rfl⟩ := List.mem_map.mp member
    exact (restamped old stored).same.readable (recorded.readable old stored)
  · intro row member anchor held
    obtain ⟨old, stored, rfl⟩ := List.mem_map.mp member
    have stamp := restamped old stored
    cases stamp.backed anchor held with
    | inl before =>
        obtain ⟨event, published, sameAnchor, carries⟩ :=
          recorded.backed old stored anchor before
        exact ⟨event, published, sameAnchor, SameContent.carries stamp.same carries⟩
    | inr stamped =>
        obtain ⟨event, published, sameAnchor, carries⟩ := stamped
        exact ⟨event, published, sameAnchor, SameContent.carries stamp.same carries⟩
  · intro row member placeholder
    obtain ⟨old, stored, rfl⟩ := List.mem_map.mp member
    have stamp := restamped old stored
    rw [stamp.same.encNonce] at placeholder
    obtain ⟨anchored, event, published, sameId, carries⟩ :=
      recorded.foreign old stored placeholder
    refine ⟨stamp.anchored anchored, event, published, ?_,
      SameContent.carries stamp.same carries⟩
    rw [stamp.same.revisionId]
    exact sameId
  · intro event ingested
    obtain ⟨old, stored, anchored, carries⟩ := recorded.covered event ingested
    have stamp := restamped old stored
    exact ⟨change old, List.mem_map_of_mem stored, stamp.anchored anchored,
      SameContent.carries stamp.same carries⟩
  · exact recorded.seen_le

theorem append (recorded : Recorded hash ring vaultId chain seen revisions) {row : RevisionRow}
    (fresh : ∀ old ∈ revisions, old.revisionId ≠ row.revisionId)
    (readable : Readable ring vaultId row)
    (backed : ∀ anchor, row.chainAnchor = some anchor →
      ∃ event ∈ chain, event.anchor = anchor ∧ Carries row event.content)
    (foreign : row.encNonce = .placeholder → row.chainAnchor.isSome ∧
      ∃ event ∈ chain, row.revisionId = hash event.content ∧ Carries row event.content) :
    Recorded hash ring vaultId chain seen (revisions ++ [row]) := by
  have rows : ∀ property : RevisionRow → Prop, (∀ old ∈ revisions, property old) →
      property row → ∀ stored ∈ revisions ++ [row], property stored := by
    intro property before new stored member
    cases List.mem_append.mp member with
    | inl old => exact before stored old
    | inr added =>
        obtain rfl := List.mem_singleton.mp added
        exact new
  constructor
  · exact nodup_append_fresh recorded.unique fresh
  · exact rows _ recorded.readable readable
  · exact rows _ recorded.backed backed
  · exact rows _ recorded.foreign foreign
  · intro event ingested
    obtain ⟨old, stored, carries⟩ := recorded.covered event ingested
    exact ⟨old, List.mem_append_left _ stored, carries⟩
  · exact recorded.seen_le

/-- The chain grows. -/
theorem mono (recorded : Recorded hash ring vaultId chain seen revisions)
    (more : List RevisionEvent) :
    Recorded hash ring vaultId (chain ++ more) seen revisions := by
  refine ⟨recorded.unique, recorded.readable, ?_, ?_, ?_, ?_⟩
  · intro row stored anchor held
    obtain ⟨event, published, carries⟩ := recorded.backed row stored anchor held
    exact ⟨event, List.mem_append_left _ published, carries⟩
  · intro row stored placeholder
    obtain ⟨anchored, event, published, carries⟩ := recorded.foreign row stored placeholder
    exact ⟨anchored, event, List.mem_append_left _ published, carries⟩
  · intro event ingested
    rw [List.take_append_of_le_length recorded.seen_le] at ingested
    exact recorded.covered event ingested
  · exact recorded.seen_le.trans (by simp)

/-- The cursor passes an event that some row carries. -/
theorem advance (recorded : Recorded hash ring vaultId chain seen revisions)
    {event : RevisionEvent} (next : chain[seen]? = some event) {row : RevisionRow}
    (stored : row ∈ revisions) (anchored : row.chainAnchor.isSome)
    (carries : Carries row event.content) :
    Recorded hash ring vaultId chain (seen + 1) revisions := by
  refine ⟨recorded.unique, recorded.readable, recorded.backed, recorded.foreign, ?_, ?_⟩
  · intro ingested member
    rw [List.take_add_one, next, Option.toList_some] at member
    cases List.mem_append.mp member with
    | inl before => exact recorded.covered ingested before
    | inr new =>
        obtain rfl := List.mem_singleton.mp new
        exact ⟨row, stored, anchored, carries⟩
  · obtain ⟨inRange, -⟩ := List.getElem?_eq_some_iff.mp next
    exact inRange

/-- One row receives the anchor of an event with its content. -/
theorem stampAnchor (recorded : Recorded hash ring vaultId chain seen revisions)
    {row : RevisionRow} (stored : row ∈ revisions) {event : RevisionEvent}
    (published : event ∈ chain) (carries : Carries row event.content) :
    Recorded hash ring vaultId chain seen
      (Store.stampAnchor revisions row.revisionId event.anchor) := by
  apply recorded.map
  intro old member
  split
  · next sameId =>
      obtain rfl := List.inj_on_of_nodup_map recorded.unique member stored sameId
      refine ⟨⟨rfl, rfl, rfl, rfl, rfl, rfl, rfl⟩, fun _ => rfl, ?_⟩
      intro anchor held
      exact .inr ⟨event, published, Option.some.inj held, carries⟩
  · exact .refl chain old

/-- A device that has ingested the whole chain holds its revisions, and no others as
published. -/
theorem publishedRevisions_eq (recorded : Recorded hash ring vaultId chain seen revisions)
    (caughtUp : seen = chain.length) (accountId : AccountId) :
    publishedRevisions revisions accountId = chainRevisions chain accountId := by
  ext payload
  constructor
  · rintro ⟨row, stored, sameAccount, anchored, rfl⟩
    obtain ⟨anchor, held⟩ := Option.isSome_iff_exists.mp anchored
    obtain ⟨event, published, -, carries⟩ := recorded.backed row stored anchor held
    exact ⟨event, published, carries.accountId ▸ sameAccount, carries.payload.symm⟩
  · rintro ⟨event, published, sameAccount, rfl⟩
    rw [← List.take_length (l := chain), ← caughtUp] at published
    obtain ⟨row, stored, anchored, carries⟩ := recorded.covered event published
    exact ⟨row, stored, carries.accountId.trans sameAccount, anchored, carries.payload⟩

end Recorded

/-! ## Publishing -/

/-- The digests of the events in view tell them from the device's rows. -/
def DigestsSeparate (hash : CanonicalHash) (deviceKey : DeviceKey) (vaultId : VaultId)
    (view : List RevisionEvent) (revisions : List RevisionRow) : Prop :=
  ∀ event ∈ view, ∀ row ∈ revisions,
    hash event.content =
        hash (buildSignedRevision deviceKey vaultId row.accountId (publishPayload row)) →
      Carries row event.content

section

variable {hash : CanonicalHash} {ring : Nat → Option VdkKey} {vaultId : VaultId}
variable {deviceKey : DeviceKey} {chain : List RevisionEvent} {seen : Nat}

theorem DigestsSeparate.nil {revisions : List RevisionRow} :
    DigestsSeparate hash deviceKey vaultId [] revisions := by
  intro event inView
  cases inView

theorem DigestsSeparate.map {view : List RevisionEvent} {revisions : List RevisionRow}
    (separate : DigestsSeparate hash deviceKey vaultId view revisions)
    {change : RevisionRow → RevisionRow} (same : ∀ row, SameContent row (change row)) :
    DigestsSeparate hash deviceKey vaultId view (revisions.map change) := by
  intro event inView row member sameDigest
  obtain ⟨old, stored, rfl⟩ := List.mem_map.mp member
  have samePayload : publishPayload (change old) = publishPayload old := by
    simp only [publishPayload, (same old).parent, (same old).schemaVersion,
      (same old).encPayload]
  rw [samePayload, (same old).accountId] at sameDigest
  exact SameContent.carries (same old) (separate event inView old stored sameDigest)

theorem carries_buildSignedRevision (row : RevisionRow) :
    Carries row (buildSignedRevision deviceKey vaultId row.accountId (publishPayload row)) :=
  ⟨rfl, rfl⟩

/-- One entry of a flush: the chain receives what landed, the row its anchor. -/
theorem Recorded.publishOne {vault : Vault} {view : Option (List RevisionEvent)}
    (recorded : Recorded hash ring vaultId chain seen vault.disk.log.revisions)
    (visible : view.getD [] ⊆ chain)
    (separate : DigestsSeparate hash deviceKey vault.vaultMeta.vaultId (view.getD [])
      vault.disk.log.revisions)
    (marker : DirtyMarker) (conditions : EntryConditions) :
    Recorded hash ring vaultId
        (chain ++ (publishOne hash deviceKey view vault marker conditions).landed.map
          Publication.event) seen
        (publishOne hash deviceKey view vault marker conditions).vault.disk.log.revisions ∧
      DigestsSeparate hash deviceKey vault.vaultMeta.vaultId (view.getD [])
        (publishOne hash deviceKey view vault marker conditions).vault.disk.log.revisions := by
  have effect := publishOne_revisions hash deviceKey view vault marker conditions
  generalize Store.publishOne hash deviceKey view vault marker conditions = step at *
  have grown := recorded.mono (step.landed.map Publication.event)
  cases effect with
  | inl unchanged =>
      rw [unchanged]
      exact ⟨grown, separate⟩
  | inr stamped =>
      obtain ⟨row, event, signed, found, rfl, source, stamped, -⟩ := stamped
      obtain ⟨stored, sameAccount, sameId⟩ := findRevision_eq_some found
      rw [← sameAccount] at source
      have origin : event ∈ chain ++ step.landed.map Publication.event ∧
          Carries row event.content := by
        rcases source with ⟨inView, sameDigest⟩ | ⟨landed, sameContent⟩
        · exact ⟨List.mem_append_left _ (visible inView),
            separate event inView row stored sameDigest⟩
        · refine ⟨List.mem_append_right _ landed, ?_⟩
          rw [sameContent]
          exact carries_buildSignedRevision row
      rw [stamped]
      constructor
      · rw [← sameId]
        exact grown.stampAnchor stored origin.1 origin.2
      · exact separate.map (stampAnchor_sameContent marker.revisionId event.anchor)

/-- The loop of a flush. -/
theorem Recorded.publishEntries (conditions : FlushConditions) {vault : Vault}
    {markers : List DirtyMarker}
    (recorded : Recorded hash ring vaultId chain seen vault.disk.log.revisions)
    (visible : conditions.chainView.getD [] ⊆ chain)
    (separate : DigestsSeparate hash deviceKey vault.vaultMeta.vaultId
      (conditions.chainView.getD []) vault.disk.log.revisions) :
    Recorded hash ring vaultId
        (chain ++ (publishEntries hash deviceKey conditions vault markers).landed.map
          Publication.event) seen
        (publishEntries hash deviceKey conditions vault markers).vault.disk.log.revisions ∧
      LogOnly vault (publishEntries hash deviceKey conditions vault markers).vault := by
  induction markers generalizing vault chain with
  | nil =>
      refine ⟨?_, .of_idle (.refl vault)⟩
      simpa [Store.publishEntries] using recorded
  | cons marker markers ih =>
      obtain ⟨first, stillSeparate⟩ :=
        recorded.publishOne visible separate marker (conditions.entry marker)
      have logOnly := publishOne_logOnly hash deviceKey conditions.chainView vault marker
        (conditions.entry marker)
      rw [← logOnly.vaultMeta] at stillSeparate
      obtain ⟨rest, restOnly⟩ := ih first
        (fun _ inView => List.mem_append_left _ (visible inView)) stillSeparate
      simp only [Store.publishEntries]
      rw [List.map_append, ← List.append_assoc]
      exact ⟨rest, logOnly.trans restOnly⟩

theorem coalesceDirtyMarkers_logOnly (vault : Vault) :
    LogOnly vault (coalesceDirtyMarkers vault).1 :=
  (LogOnly.of_idle (.refl vault)).withLog _

theorem Recorded.flush {vault : Vault} {conditions : FlushConditions}
    (recorded : Recorded hash ring vaultId chain seen vault.disk.log.revisions)
    (visible : conditions.chainView.getD [] ⊆ chain)
    (separate : DigestsSeparate hash deviceKey vault.vaultMeta.vaultId
      (conditions.chainView.getD []) vault.disk.log.revisions) :
    Recorded hash ring vaultId
        (chain ++ (flushPublishQueue hash vault deviceKey conditions).landed.map
          Publication.event) seen
        (flushPublishQueue hash vault deviceKey conditions).vault.disk.log.revisions ∧
      LogOnly vault (flushPublishQueue hash vault deviceKey conditions).vault := by
  have coalesced := coalesceDirtyMarkers_logOnly vault
  have sameRows : Recorded hash ring vaultId chain seen
      (coalesceDirtyMarkers vault).1.disk.log.revisions := recorded
  have batch : ∀ pruned, Recorded hash ring vaultId
      (chain ++ (flushBatch hash deviceKey conditions (coalesceDirtyMarkers vault).1
        pruned).landed.map Publication.event) seen
      (flushBatch hash deviceKey conditions (coalesceDirtyMarkers vault).1
        pruned).vault.disk.log.revisions ∧
      LogOnly vault (flushBatch hash deviceKey conditions (coalesceDirtyMarkers vault).1
        pruned).vault := by
    intro pruned
    obtain ⟨published, only⟩ := sameRows.publishEntries conditions visible separate
    exact ⟨published, coalesced.trans only⟩
  unfold flushPublishQueue
  split
  · refine ⟨?_, .of_idle (.refl vault)⟩
    simpa using recorded
  simp only
  split
  · refine ⟨?_, coalesced⟩
    simpa using sameRows
  · split
    · refine ⟨?_, coalesced⟩
      simpa using sameRows
    · exact batch _
  · exact batch _

/-! ## Ingesting -/

/-- The digest of the event tells it from the others on the chain and from the ids this
device drew. -/
structure DigestIdentifies (hash : CanonicalHash) (chain : List RevisionEvent)
    (revisions : List RevisionRow) (event : RevisionEvent) : Prop where
  chain : ∀ other ∈ chain, hash other.content = hash event.content →
    other.content = event.content
  drawn : ∀ row ∈ revisions, row.encNonce ≠ .placeholder → row.revisionId ≠ hash event.content

instance (hash : CanonicalHash) (chain : List RevisionEvent) (revisions : List RevisionRow)
    (event : RevisionEvent) : Decidable (DigestIdentifies hash chain revisions event) :=
  decidable_of_iff
    ((∀ other ∈ chain, hash other.content = hash event.content →
        other.content = event.content) ∧
      ∀ row ∈ revisions, row.encNonce ≠ .placeholder → row.revisionId ≠ hash event.content)
    ⟨fun ⟨chain, drawn⟩ => ⟨chain, drawn⟩, fun ⟨chain, drawn⟩ => ⟨chain, drawn⟩⟩

/-- The next event is ingested: some anchored row carries it then. -/
theorem Recorded.ingest {log log' : RevisionTables} {event : RevisionEvent}
    {isTombstone : Bool} {nowMs : Int} {outcome : IngestOutcome}
    (recorded : Recorded hash ring vaultId chain seen log.revisions)
    (anchors : (chain.map RevisionEvent.anchor).Nodup) (next : chain[seen]? = some event)
    (identifies : DigestIdentifies hash chain log.revisions event)
    (ingested : ingestLog hash log event isTombstone nowMs = .ok (log', outcome)) :
    Recorded hash ring vaultId chain (seen + 1) log'.revisions := by
  have published : event ∈ chain := List.mem_of_getElem? next
  rcases ingestLog_cases ingested with ⟨rfl, -, present⟩ | ⟨fresh, -, -, -, changed⟩
  · cases present with
    | inl sameDigest =>
        obtain ⟨row, stored, sameId⟩ := sameDigest
        have placeholder : row.encNonce = .placeholder := by
          by_contra drawn
          exact identifies.drawn row stored drawn sameId
        obtain ⟨anchored, other, onChain, digest, carries⟩ :=
          recorded.foreign row stored placeholder
        have sameContent := identifies.chain other onChain (digest.symm.trans sameId)
        exact recorded.advance next stored anchored (sameContent ▸ carries)
    | inr sameAnchor =>
        obtain ⟨row, stored, isAnchored⟩ := sameAnchor
        simp only [hasAnchor, Bool.and_eq_true, decide_eq_true_eq] at isAnchored
        obtain ⟨other, onChain, shared, carries⟩ :=
          recorded.backed row stored event.anchor isAnchored.2
        obtain rfl := List.inj_on_of_nodup_map anchors onChain published shared
        exact recorded.advance next stored (by rw [isAnchored.2]; rfl) carries
  · rcases changed with ⟨twin, found, rfl, -⟩ | ⟨-, rfl, -⟩
    · have stored := List.mem_of_find?_eq_some found
      have isTwin := List.find?_some found
      simp only [isUnanchoredTwin, Bool.and_eq_true, decide_eq_true_eq] at isTwin
      obtain ⟨⟨⟨⟨⟨sameAccount, sameParent⟩, samePayload⟩, sameVersion⟩, -⟩, -⟩ := isTwin
      have carries : Carries twin event.content := by
        refine ⟨sameAccount, ?_⟩
        rw [publishPayload, sameParent, sameVersion, samePayload, eventPayload]
      have stamped := recorded.stampAnchor stored published carries
      have isStamped : { twin with chainAnchor := some event.anchor } ∈
          Store.stampAnchor log.revisions twin.revisionId event.anchor :=
        List.mem_map.mpr ⟨twin, stored, if_pos rfl⟩
      exact stamped.advance next isStamped rfl ⟨carries.accountId, carries.payload⟩
    · have carries : Carries (foreignRow (hash event.content) event isTombstone nowMs)
          event.content := ⟨rfl, rfl⟩
      have appended : Recorded hash ring vaultId chain seen
          (log.revisions ++ [foreignRow (hash event.content) event isTombstone nowMs]) :=
        recorded.append fresh (.inl rfl)
          (fun _ held => ⟨event, published, Option.some.inj held, carries⟩)
          (fun _ => ⟨rfl, event, published, rfl, carries⟩)
      exact appended.advance next (List.mem_append_right _ (List.mem_singleton.mpr rfl)) rfl
        carries

/-! ## Editing -/

/-- A local edit leaves the anchors of the older rows alone. -/
theorem LogWrite.restamped {log log' : RevisionTables} {row : RevisionRow}
    (wrote : LogWrite log row log') (chain : List RevisionEvent) :
    ∃ change, log'.revisions = log.revisions.map change ++ [row] ∧
      ∀ old, Restamped chain old (change old) := by
  cases wrote with
  | added account _ _ _ _ _ revisions _ =>
      exact ⟨id, by rw [List.map_id, revisions], .refl chain⟩
  | extended account change _ _ _ _ _ revisions _ =>
      exact ⟨id, by rw [List.map_id, revisions], .refl chain⟩
  | resolved change _ _ _ _ _ revisions _ =>
      refine ⟨_, revisions, ?_⟩
      intro old
      split
      · exact ⟨⟨rfl, rfl, rfl, rfl, rfl, rfl, rfl⟩, id, fun _ held => .inl held⟩
      · exact .refl chain old

/-- Calls that neither publish nor ingest. -/
theorem Recorded.effect {vault vault' : Vault}
    (recorded : Recorded hash ring vaultId chain seen vault.disk.log.revisions)
    (holds : HoldsRing vault vaultId ring) (effect : Effect vault vault') :
    Recorded hash ring vaultId chain seen vault'.disk.log.revisions := by
  cases effect with
  | rest _ _ _ revisions _ =>
      rw [revisions]
      exact recorded
  | wrote active row payload wrote =>
      obtain ⟨change, revisions, restamped⟩ := LogWrite.restamped wrote.log chain
      have unanchored : ∀ anchor, row.chainAnchor ≠ some anchor := by
        rw [wrote.unpublished.1]
        simp
      rw [revisions]
      apply (recorded.map fun old _ => restamped old).append
      · intro old member
        obtain ⟨before, stored, rfl⟩ := List.mem_map.mp member
        rw [(restamped before).same.revisionId]
        exact wrote.fresh before stored
      · exact .inr ⟨active.vdk, payload, holds.write wrote⟩
      · exact fun anchor held => absurd held (unanchored anchor)
      · exact fun placeholder => absurd placeholder wrote.nonce
  | unlocked input vdk chain data deviceKey keys found =>
      rw [found.result]
      exact recorded

end

/-! ## The two devices -/

inductive Side where
  | left
  | right
  deriving Repr, DecidableEq

/-- A device: its vault, what it has put on the chain, and how far it has ingested. -/
structure Replica where
  vault : Vault
  published : List Publication
  seen : Nat

structure SharedLog where
  replicas : Side → Replica
  chain : List RevisionEvent

inductive SharedOp where
  /-- A local call; what a flush lands goes on the chain. -/
  | call (side : Side) (op : PublishOp)
  /-- `ingest_chain_revision` of the next event. -/
  | ingestNext (side : Side) (nowMs : Int) (now : Nat)

namespace SharedLog

def withReplica (shared : SharedLog) (side : Side) (replica : Replica) : SharedLog :=
  { shared with replicas := Function.update shared.replicas side replica }

/-- A call on one device.  The chain takes the transactions in the order they land. -/
def callOn (hash : CanonicalHash) (shared : SharedLog) (side : Side) (op : PublishOp) :
    SharedLog :=
  let replica := shared.replicas side
  let called := PublishWorld.step hash ⟨replica.vault, []⟩ op
  { shared.withReplica side
      { replica with
        vault := called.vault
        published := replica.published ++ called.published } with
    chain := shared.chain ++ called.published.map Publication.event }

/-- An event that cannot be ingested is tried again. -/
def ingestOn (hash : CanonicalHash) (shared : SharedLog) (side : Side) (nowMs : Int)
    (now : Nat) : SharedLog :=
  let replica := shared.replicas side
  match shared.chain[replica.seen]? with
  | none => shared
  | some event =>
      match ingestChainRevision hash replica.vault event nowMs now with
      | (vault, .error _) => shared.withReplica side { replica with vault }
      | (vault, .ok _) =>
          shared.withReplica side { replica with vault, seen := replica.seen + 1 }

def step (hash : CanonicalHash) (shared : SharedLog) : SharedOp → SharedLog
  | .call side op => shared.callOn hash side op
  | .ingestNext side nowMs now => shared.ingestOn hash side nowMs now

end SharedLog

/-- What the chain and the digest owe a step: a flush is shown events of the chain, what it
lands has anchors of its own, and digests do not collide.  Events are ingested in chain
order only. -/
def Faithful (hash : CanonicalHash) (shared : SharedLog) : SharedOp → Prop
  | .call side (.flush deviceKey conditions) =>
      let vault := (shared.replicas side).vault
      conditions.chainView.getD [] ⊆ shared.chain ∧
        DigestsSeparate hash deviceKey vault.vaultMeta.vaultId (conditions.chainView.getD [])
          vault.disk.log.revisions ∧
        ((shared.chain ++ (flushPublishQueue hash vault deviceKey conditions).landed.map
          Publication.event).map RevisionEvent.anchor).Nodup
  | .call _ (.ingest _ _ _) => False
  | .call _ (.ingestPending _ _ _ _ _) => False
  | .call _ _ => True
  | .ingestNext side _ _ =>
      ∀ event ∈ shared.chain[(shared.replicas side).seen]?,
        DigestIdentifies hash shared.chain (shared.replicas side).vault.disk.log.revisions event

/-- Two devices of one vault with the same keys and no revision yet, before an empty
chain. -/
structure Paired (vaultId : VaultId) (ring : Nat → Option VdkKey) (shared : SharedLog) :
    Prop where
  chain : shared.chain = []
  holds : ∀ side, HoldsRing (shared.replicas side).vault vaultId ring
  revisions : ∀ side, (shared.replicas side).vault.disk.log.revisions = []
  unmarked : ∀ side, (shared.replicas side).vault.disk.log.dirtyAccounts = []
  unpublished : ∀ side, (shared.replicas side).published = []
  unread : ∀ side, (shared.replicas side).seen = 0

/-! ## The invariant of a run -/

structure ReplicaInv (hash : CanonicalHash) (ring : Nat → Option VdkKey) (vaultId : VaultId)
    (chain : List RevisionEvent) (replica : Replica) : Prop where
  holds : HoldsRing replica.vault vaultId ring
  queue : QueueInv replica.vault.disk.log replica.published
  recorded : Recorded hash ring vaultId chain replica.seen replica.vault.disk.log.revisions

structure SharedInv (hash : CanonicalHash) (ring : Nat → Option VdkKey) (vaultId : VaultId)
    (shared : SharedLog) : Prop where
  anchors : (shared.chain.map RevisionEvent.anchor).Nodup
  replicas : ∀ side, ReplicaInv hash ring vaultId shared.chain (shared.replicas side)

section

variable {hash : CanonicalHash} {ring : Nat → Option VdkKey} {vaultId : VaultId}
variable {chain : List RevisionEvent} {shared : SharedLog}

theorem ReplicaInv.mono {replica : Replica}
    (inv : ReplicaInv hash ring vaultId chain replica) (more : List RevisionEvent) :
    ReplicaInv hash ring vaultId (chain ++ more) replica :=
  ⟨inv.holds, inv.queue, inv.recorded.mono more⟩

/-- A call that puts nothing on the chain. -/
theorem ReplicaInv.effect {replica : Replica} {vault : Vault}
    (inv : ReplicaInv hash ring vaultId chain replica) (effect : Effect replica.vault vault)
    (queue : QueueInv vault.disk.log replica.published) :
    ReplicaInv hash ring vaultId chain { replica with vault } :=
  ⟨inv.holds.effect effect, queue, inv.recorded.effect inv.holds effect⟩

/-- What the calls do that neither publish nor ingest. -/
theorem localCall_effect (vault : Vault) {side : Side} {op : PublishOp}
    (faithful : Faithful hash shared (.call side op))
    (keepsChain : ∀ deviceKey conditions, op ≠ .flush deviceKey conditions) :
    Effect vault (PublishWorld.step hash ⟨vault, []⟩ op).vault ∧
      (PublishWorld.step hash ⟨vault, []⟩ op).published = [] := by
  cases op with
  | accountAdd validated accountId draw =>
      exact ⟨.of_writeCall (accountAdd_writes vault validated accountId draw), rfl⟩
  | accountUpdate accountId patch draw =>
      exact ⟨.of_writeCall (accountUpdate_writes vault accountId patch draw), rfl⟩
  | deleteAccount accountId draw =>
      exact ⟨.of_writeCall (deleteAccount_writes vault accountId draw), rfl⟩
  | resolveFork accountId keep draw =>
      exact ⟨.of_writeCall (resolveFork_writes vault accountId keep draw), rfl⟩
  | coalesce => exact ⟨.rest (.inl rfl) rfl rfl rfl (.inl rfl), rfl⟩
  | flush deviceKey conditions => exact absurd rfl (keepsChain deviceKey conditions)
  | ingest => exact absurd faithful id
  | ingestPending => exact absurd faithful id
  | unlock input => exact ⟨unlock_effect vault input, rfl⟩
  | lock => exact ⟨.rest (.inl rfl) rfl rfl rfl (.inr rfl), rfl⟩
  | reopen placeholder sessionIdle => exact ⟨.rest (.inr rfl) rfl rfl rfl (.inr rfl), rfl⟩

theorem PublishWorld.step_published (vault : Vault) (published : List Publication)
    (op : PublishOp) :
    PublishWorld.step hash ⟨vault, published⟩ op =
      ⟨(PublishWorld.step hash ⟨vault, []⟩ op).vault,
        published ++ (PublishWorld.step hash ⟨vault, []⟩ op).published⟩ := by
  cases op <;> simp [PublishWorld.step]

/-- A call on a device keeps its invariant over the chain the call leaves. -/
theorem ReplicaInv.call {side : Side} {op : PublishOp}
    (inv : ReplicaInv hash ring vaultId shared.chain (shared.replicas side))
    (faithful : Faithful hash shared (.call side op)) :
    ReplicaInv hash ring vaultId (shared.callOn hash side op).chain
      ((shared.callOn hash side op).replicas side) := by
  have queue : QueueInv
      (PublishWorld.step hash ⟨(shared.replicas side).vault, []⟩ op).vault.disk.log
      ((shared.replicas side).published ++
        (PublishWorld.step hash ⟨(shared.replicas side).vault, []⟩ op).published) := by
    let world : PublishWorld := ⟨(shared.replicas side).vault, (shared.replicas side).published⟩
    have stepped : QueueInv (world.step hash op).vault.disk.log
        (world.step hash op).published := QueueInv.step inv.queue op
    rw [PublishWorld.step_published] at stepped
    exact stepped
  simp only [SharedLog.callOn, SharedLog.withReplica, Function.update_self]
  by_cases flushes : ∃ deviceKey conditions, op = .flush deviceKey conditions
  · obtain ⟨deviceKey, conditions, rfl⟩ := flushes
    obtain ⟨visible, separate, -⟩ := faithful
    obtain ⟨recorded, logOnly⟩ := inv.recorded.flush visible separate
    exact ⟨inv.holds.logOnly logOnly, queue, recorded⟩
  · obtain ⟨effect, nothing⟩ := localCall_effect (shared.replicas side).vault faithful
      fun deviceKey conditions same => flushes ⟨deviceKey, conditions, same⟩
    simp only [nothing, List.append_nil, List.map_nil] at queue ⊢
    exact inv.effect effect queue

/-- So does the next ingest. -/
theorem ReplicaInv.ingestOn {side : Side} {nowMs : Int} {now : Nat}
    (inv : ReplicaInv hash ring vaultId shared.chain (shared.replicas side))
    (anchors : (shared.chain.map RevisionEvent.anchor).Nodup)
    (faithful : Faithful hash shared (.ingestNext side nowMs now)) :
    ReplicaInv hash ring vaultId shared.chain
      ((shared.ingestOn hash side nowMs now).replicas side) := by
  unfold SharedLog.ingestOn
  simp only
  split
  · exact inv
  next event next =>
  have logOnly := ingestChainRevision_logOnly hash (shared.replicas side).vault event nowMs now
  have queue : QueueInv (ingestChainRevision hash (shared.replicas side).vault event nowMs
      now).1.disk.log (shared.replicas side).published := inv.queue.ingest event nowMs now
  split
  · next vault error failed =>
      simp only [SharedLog.withReplica, Function.update_self]
      rw [failed] at logOnly queue
      refine ⟨inv.holds.logOnly logOnly, queue, ?_⟩
      simp only [ingestChainRevision_error failed]
      exact inv.recorded
  · next vault outcome ingested =>
      simp only [SharedLog.withReplica, Function.update_self]
      rw [ingested] at logOnly queue
      obtain ⟨isTombstone, stored⟩ := ingestChainRevision_eq_ok ingested
      exact ⟨inv.holds.logOnly logOnly, queue,
        inv.recorded.ingest anchors next (faithful event next) stored⟩

/-- A step on one device leaves the other one alone. -/
theorem SharedLog.ingestOn_chain (side : Side) (nowMs : Int) (now : Nat) :
    (shared.ingestOn hash side nowMs now).chain = shared.chain := by
  unfold SharedLog.ingestOn
  simp only
  split
  · rfl
  · split <;> rfl

theorem SharedLog.ingestOn_other {side other : Side} (different : other ≠ side) (nowMs : Int)
    (now : Nat) : (shared.ingestOn hash side nowMs now).replicas other = shared.replicas other := by
  unfold SharedLog.ingestOn
  simp only
  split
  · rfl
  · split <;> simp [SharedLog.withReplica, different]

theorem SharedInv.step {op : SharedOp} (inv : SharedInv hash ring vaultId shared)
    (faithful : Faithful hash shared op) :
    SharedInv hash ring vaultId (shared.step hash op) := by
  cases op with
  | call side op =>
      constructor
      · by_cases flushes : ∃ deviceKey conditions, op = .flush deviceKey conditions
        · obtain ⟨deviceKey, conditions, rfl⟩ := flushes
          exact faithful.2.2
        · obtain ⟨-, nothing⟩ := localCall_effect (shared.replicas side).vault faithful
            fun deviceKey conditions same => flushes ⟨deviceKey, conditions, same⟩
          simp only [SharedLog.step, SharedLog.callOn, nothing, List.map_nil, List.append_nil]
          exact inv.anchors
      · intro other
        by_cases same : other = side
        · subst same
          exact (inv.replicas other).call faithful
        · have untouched : (shared.callOn hash side op).replicas other =
              shared.replicas other := by
            simp [SharedLog.callOn, SharedLog.withReplica, same]
          simp only [SharedLog.step]
          rw [untouched]
          exact (inv.replicas other).mono _
  | ingestNext side nowMs now =>
      simp only [SharedLog.step]
      refine ⟨?_, ?_⟩
      · rw [SharedLog.ingestOn_chain]
        exact inv.anchors
      · intro other
        rw [SharedLog.ingestOn_chain]
        by_cases same : other = side
        · subst same
          exact (inv.replicas other).ingestOn inv.anchors faithful
        · rw [SharedLog.ingestOn_other same]
          exact inv.replicas other

theorem SharedInv.start (paired : Paired vaultId ring shared) :
    SharedInv hash ring vaultId shared := by
  refine ⟨?_, ?_⟩
  · rw [paired.chain]
    exact List.nodup_nil
  · intro side
    have revisions := paired.revisions side
    refine ⟨paired.holds side, ?_, ?_⟩
    · constructor
      · simp [revisions]
      · simp [revisions]
      · simp [revisions, newestAuthored]
      · simp [paired.unmarked side]
      · simp [paired.unpublished side]
    · constructor
      · simp [revisions]
      · simp [revisions]
      · simp [revisions]
      · simp [revisions]
      · simp [paired.unread side]
      · simp [paired.unread side]

/-! ## What the devices agree on -/

/-- A row decodes; without a nonce, to nothing. -/
theorem decodeRow_placeholder_iff {vdk : VdkKey} {chain : VdkChain} {row : RevisionRow}
    (readable : Readable (entryKey vdk chain) vaultId row) :
    ∃ outcome, decodeRow vaultId vdk chain row = .ok outcome ∧
      (outcome = .placeholderNonce ↔ row.encNonce = .placeholder) := by
  cases readable with
  | inl placeholder =>
      refine ⟨.placeholderNonce, ?_, by simp [placeholder]⟩
      unfold decodeRow
      split
      · rfl
      · rw [if_pos placeholder]
  | inr sealedRow =>
      obtain ⟨key, payload, sealedRow⟩ := sealedRow
      refine ⟨_, decodeRow_sealedRow sealedRow, ?_⟩
      have hasNonce := sealedRow.nonce
      cases payload with
      | live identity => simp [HeadDecodeOutcome.ofPayload, hasNonce]
      | tombstone accountId deletedAt => simp [HeadDecodeOutcome.ofPayload, hasNonce]
      | future version => exact absurd sealedRow.payloadLocal id

theorem hasNonce_of_read {vdk : VdkKey} {chain : VdkChain} {row : RevisionRow}
    {outcome : HeadDecodeOutcome} (readable : Readable (entryKey vdk chain) vaultId row)
    (decoded : decodeRow vaultId vdk chain row = .ok outcome)
    (read : outcome ≠ .placeholderNonce) : row.encNonce ≠ .placeholder := by
  obtain ⟨found, decodes, placeholder⟩ := decodeRow_placeholder_iff readable
  obtain rfl := Except.ok.inj (decodes.symm.trans decoded)
  exact fun none => read (placeholder.mpr none)

/-- Two rows of one ciphertext read the same, if they read. -/
theorem decodeRow_sameCiphertext {vaultId vaultId' : VaultId} {vdk vdk' : VdkKey}
    {chain chain' : VdkChain} {row row' : RevisionRow} {outcome outcome' : HeadDecodeOutcome}
    (readable : Readable (entryKey vdk chain) vaultId row)
    (readable' : Readable (entryKey vdk' chain') vaultId' row')
    (sameCiphertext : row.encPayload = row'.encPayload)
    (decoded : decodeRow vaultId vdk chain row = .ok outcome)
    (decoded' : decodeRow vaultId' vdk' chain' row' = .ok outcome')
    (nonce : row.encNonce ≠ .placeholder) (nonce' : row'.encNonce ≠ .placeholder) :
    outcome = outcome' := by
  obtain ⟨key, payload, sealedRow⟩ := readable.resolve_left nonce
  obtain ⟨key', payload', sealedRow'⟩ := readable'.resolve_left nonce'
  have samePayload : payload = payload' := by
    rw [sealedRow.encPayload, sealedRow'.encPayload] at sameCiphertext
    simp only [sealPayload, Ciphertext.sealedPayload.injEq, Sealed.mk.injEq] at sameCiphertext
    exact sameCiphertext.2.2
  rw [decodeRow_sealedRow sealedRow, samePayload] at decoded
  rw [decodeRow_sealedRow sealedRow'] at decoded'
  exact Except.ok.inj (decoded.symm.trans decoded')

/-- The vault of a device. -/
def SharedLog.vaultOf (shared : SharedLog) (side : Side) : Vault := (shared.replicas side).vault

/-- What a device's session makes of a row. -/
def readsRow (vault : Vault) (row : RevisionRow) (outcome : HeadDecodeOutcome) : Prop :=
  ∃ active, vault.active = some active ∧
    decodeRow vault.vaultMeta.vaultId active.vdk active.chain row = .ok outcome

/-- Both devices hold the revisions of the chain. -/
structure SameRevisions (shared : SharedLog) : Prop where
  published : ∀ side accountId,
    publishedRevisions (shared.vaultOf side).disk.log.revisions accountId =
      chainRevisions shared.chain accountId
  /-- With an empty queue, the newest edit of every account is among them. -/
  newest : ∀ side accountId row, (shared.vaultOf side).disk.log.dirtyAccounts = [] →
    newestAuthored (shared.vaultOf side).disk.log.revisions accountId = some row →
    publishPayload row ∈ chainRevisions shared.chain accountId
  /-- A session reads the rows its device sealed, and the placeholder of the others. -/
  reads : ∀ side active, (shared.vaultOf side).active = some active →
    ∀ row ∈ (shared.vaultOf side).disk.log.revisions, ∃ outcome,
      readsRow (shared.vaultOf side) row outcome ∧
        (outcome = .placeholderNonce ↔ row.encNonce = .placeholder)
  /-- Where both devices read a revision, they read the same. -/
  alike : ∀ row ∈ (shared.vaultOf .left).disk.log.revisions,
    ∀ row' ∈ (shared.vaultOf .right).disk.log.revisions,
      publishPayload row = publishPayload row' → ∀ outcome outcome',
      readsRow (shared.vaultOf .left) row outcome →
      readsRow (shared.vaultOf .right) row' outcome' →
      outcome ≠ .placeholderNonce → outcome' ≠ .placeholderNonce → outcome = outcome'

end

section

variable {hash : CanonicalHash} {ring : Nat → Option VdkKey} {vaultId : VaultId}
variable {shared : SharedLog}

/-- The session of a device that keeps the invariant selects the keys of the vault. -/
theorem ReplicaInv.readable {chain : List RevisionEvent} {replica : Replica}
    (inv : ReplicaInv hash ring vaultId chain replica) {active : ActiveState}
    (session : replica.vault.active = some active) {row : RevisionRow}
    (stored : row ∈ replica.vault.disk.log.revisions) :
    Readable (entryKey active.vdk active.chain) replica.vault.vaultMeta.vaultId row := by
  rw [inv.holds.selects session, inv.holds.vaultId]
  exact inv.recorded.readable row stored

/-- In every run of two devices of one vault, once both have ingested the whole log, both
hold exactly the revisions of the chain. -/
theorem devices_hold_same_revisions {start : SharedLog} (paired : Paired vaultId ring start)
    (run : Reaches (SharedLog.step hash) (Faithful hash) start shared)
    (caughtUp : ∀ side, (shared.replicas side).seen = shared.chain.length) :
    SameRevisions shared := by
  have inv := run.invariant (SharedInv hash ring vaultId)
    (fun _ _ inv faithful => inv.step faithful) (.start paired)
  have published : ∀ side accountId,
      publishedRevisions (shared.vaultOf side).disk.log.revisions accountId =
        chainRevisions shared.chain accountId := fun side accountId =>
    (inv.replicas side).recorded.publishedRevisions_eq (caughtUp side) accountId
  refine ⟨published, ?_, ?_, ?_⟩
  · intro side accountId row queueEmpty newest
    obtain ⟨stored, sameAccount, -⟩ := newestAuthored_eq_some newest
    rw [← published side]
    refine ⟨row, stored, sameAccount, ?_, rfl⟩
    cases ((inv.replicas side).queue.queued accountId row newest).kept with
    | inl dirty =>
        obtain ⟨marker, member, -⟩ := dirty
        have noMarker : marker ∈ (shared.vaultOf side).disk.log.dirtyAccounts := member
        rw [queueEmpty] at noMarker
        cases noMarker
    | inr settled => exact settled.1
  · intro side active session row stored
    obtain ⟨outcome, decoded, placeholder⟩ :=
      decodeRow_placeholder_iff ((inv.replicas side).readable session stored)
    exact ⟨outcome, ⟨active, session, decoded⟩, placeholder⟩
  · rintro row stored row' stored' samePayload outcome outcome' ⟨active, session, decoded⟩
      ⟨active', session', decoded'⟩ read read'
    have readable := (inv.replicas .left).readable session stored
    have readable' := (inv.replicas .right).readable session' stored'
    have sameCiphertext : row.encPayload = row'.encPayload :=
      congrArg RevisionPublishPayload.encPayload samePayload
    exact decodeRow_sameCiphertext readable readable' sameCiphertext decoded decoded'
      (hasNonce_of_read readable decoded read) (hasNonce_of_read readable' decoded' read')

end

/-! ## What they need not agree on -/

/-- The heads of an account, as a device counts them. -/
def headCount (vault : Vault) (accountId : AccountId) : Nat :=
  (accountHeadRows vault.disk.log.revisions accountId).length

/-- `is_forked`. -/
def isForked (vault : Vault) (accountId : AccountId) : Bool := 1 < headCount vault accountId

/-- What a session reads at the canonical head of an account. -/
def canonicalContent (vault : Vault) (accountId : AccountId) : Option HeadDecodeOutcome := do
  let active ← vault.active
  let graph ← (RevisionGraph.build
    (readRevisionRows vault.disk.log.revisions accountId)).toOption
  let head ← graph.canonicalHead
  (decodeHeadRow vault.disk.log.revisions vault.vaultMeta.vaultId active.vdk active.chain
    accountId head).toOption

/-- Two devices show an account alike. -/
structure ShowAlike (first second : Vault) (accountId : AccountId) : Prop where
  heads : headCount first accountId = headCount second accountId
  forked : isForked first accountId = isForked second accountId
  content : canonicalContent first accountId = canonicalContent second accountId

namespace SharedSample

/-- A digest that tells revisions apart by their parent. -/
def hash : CanonicalHash := fun content => ⟨1000 + content.parent.raw⟩

/-- The manager's vault and that of a device paired with it. -/
def start : SharedLog where
  replicas
    | .left => ⟨Sample.vault, [], 0⟩
    | .right => ⟨pairedVault PairingSample.newDevice ⟨2⟩ ⟨7⟩ ⟨[4]⟩ ⟨60⟩, [], 0⟩
  chain := []

/-- The left device adds an account, publishes it, edits it and publishes again; then both
devices ingest the two events. -/
def ops : List SharedOp :=
  [.call .left (.unlock (Sample.unlockInput ⟨[1]⟩)),
    .call .right (.unlock ⟨true, ⟨[4]⟩, Ffi.Sample.newDeviceKey, 0⟩),
    .call .left (.accountAdd (.ok Sample.identity) ⟨1⟩ (Sample.draw 51)),
    .call .left (Sample.flush true),
    .call .left (.accountUpdate ⟨1⟩ .ok (Sample.draw 52)),
    .call .left (Sample.flush true),
    .ingestNext .right 0 0, .ingestNext .right 0 0,
    .ingestNext .left 0 0, .ingestNext .left 0 0]

def finish : SharedLog := ops.foldl (SharedLog.step hash) start

theorem paired : Paired ⟨7⟩ (singleKeyring ⟨2⟩) start := by
  have awaiting : Reaches (step countingScheme hash) AwaitsPairing
      (create ⟨[3]⟩ ⟨⟨8⟩, ⟨4⟩, ⟨5⟩, ⟨6⟩, 0⟩) PairingSample.newDevice.vault :=
    .foldl PairingSample.newDeviceOps ⟨trivial, trivial⟩
  have unused := awaiting.invariant UnusedVault (fun _ _ unused awaits => unused.step awaits)
    (.create _ _)
  constructor
  · rfl
  · intro side
    cases side with
    | left =>
        refine ⟨.create _ _, rfl, ?_⟩
        funext epoch
        rfl
    | right =>
        refine ⟨(unused.joined _ _ _ _).core, rfl, ?_⟩
        funext epoch
        rfl
  all_goals
    intro side
    cases side <;> rfl

theorem faithful : Allowed (SharedLog.step hash) (Faithful hash) start ops := by
  refine ⟨trivial, trivial, trivial, ?_, trivial, ?_, ?_, ?_, ?_, ?_, trivial⟩
  · exact ⟨List.nil_subset _, DigestsSeparate.nil, by decide +kernel⟩
  · exact ⟨List.nil_subset _, DigestsSeparate.nil, by decide +kernel⟩
  all_goals
    simp only [Faithful]
    decide +kernel

theorem caughtUp : ∀ side, (finish.replicas side).seen = finish.chain.length := by
  intro side
  cases side <;> decide +kernel

end SharedSample

theorem devices_hold_same_revisions_sample : SameRevisions SharedSample.finish :=
  devices_hold_same_revisions SharedSample.paired
    (.foldl SharedSample.ops SharedSample.faithful) SharedSample.caughtUp

/-- Only the left device edits the account, both queues are empty and both devices have
ingested the whole log: the left one shows one head and the content, the right one a fork
of two heads and nothing. -/
theorem peer_reports_fork_of_linear_history :
    Paired ⟨7⟩ (singleKeyring ⟨2⟩) SharedSample.start ∧
      Reaches (SharedLog.step SharedSample.hash) (Faithful SharedSample.hash) SharedSample.start
        SharedSample.finish ∧
      (∀ side, (SharedSample.finish.vaultOf side).disk.log.dirtyAccounts = []) ∧
      (∀ side, (SharedSample.finish.replicas side).seen = SharedSample.finish.chain.length) ∧
      headCount (SharedSample.finish.vaultOf .left) ⟨1⟩ = 1 ∧
      headCount (SharedSample.finish.vaultOf .right) ⟨1⟩ = 2 ∧
      canonicalContent (SharedSample.finish.vaultOf .left) ⟨1⟩ = some (.live Sample.identity) ∧
      canonicalContent (SharedSample.finish.vaultOf .right) ⟨1⟩ = some .placeholderNonce ∧
      ¬ ShowAlike (SharedSample.finish.vaultOf .left) (SharedSample.finish.vaultOf .right) ⟨1⟩ := by
  have oneHead : headCount (SharedSample.finish.vaultOf .left) ⟨1⟩ = 1 := by decide +kernel
  have twoHeads : headCount (SharedSample.finish.vaultOf .right) ⟨1⟩ = 2 := by decide +kernel
  refine ⟨SharedSample.paired, .foldl SharedSample.ops SharedSample.faithful, ?_,
    SharedSample.caughtUp, oneHead, twoHeads, by decide +kernel, by decide +kernel, ?_⟩
  · intro side
    cases side <;> decide +kernel
  · intro alike
    have same := alike.heads
    rw [oneHead, twoHeads] at same
    cases same

end Pangolin
