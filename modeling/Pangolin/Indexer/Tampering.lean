import Pangolin.Indexer.Session
import Pangolin.Lib.Fallible

/-!
# A rewritten temporary database

Whoever can write the file but has no key can put any rows into the table, with any integers
and any blobs; a blob that is a page under the session's key is then a copy of one the session
has written.  A pull over such a table fails or returns events each of which was read from one
row: its vault and schema version and the choice of the persisted event are bound by the page
number, while the other byte fields may be permuted within that event and its sequence, block
number and log index are whatever the row holds.
-/

namespace Pangolin.Indexer

open Symbolic Utf8
open Evm (Bytes)

/-! ## What the session has written -/

/-- Calls of `persist_chunk` in turn; one that fails leaves what it has written. -/
def persistChunks (session : IndexerSession)
    (chunks : List (Bytes32 × List VerifiedRevisionEvent)) : IndexerSession :=
  chunks.foldl (fun session chunk => (persistChunk chunk.1 session chunk.2).1) session

/-- A row is the one written for an event. -/
def WrittenFor (key : PageKey) (vaultId : Bytes32) (event : VerifiedRevisionEvent)
    (row : CachedRevision) : Prop :=
  event.vaultId = vaultId ∧ ∃ rowid pageSeq, pageSeq < 2 ^ 64 ∧
    row = sealRow key vaultId rowid pageSeq event

/-- Every row was written for an event offered with its vault, and no two rows have one page
number. -/
structure Intact (offered : Bytes32 → VerifiedRevisionEvent → Prop) (session : IndexerSession) :
    Prop where
  rows : ∀ row ∈ session.db.rows, ∃ vaultId event, offered vaultId event ∧
    WrittenFor session.key vaultId event row
  pageSeqs : (session.db.rows.map CachedRevision.pageSeq).Nodup
  counter : session.pageSeqCounter < 2 ^ 64

section

variable {offered : Bytes32 → VerifiedRevisionEvent → Prop} {session : IndexerSession}

theorem Intact.new (key : PageKey) : Intact offered (IndexerSession.new key) where
  rows := fun _ member => nomatch member
  pageSeqs := .nil
  counter := Nat.two_pow_pos 64

/-- An insert adds its row, whose page number no other row has. -/
theorem TempDb.insert_some {db db' : TempDb} {row : Nat → CachedRevision}
    (inserted : db.insert row = some db') :
    ∃ rowid, db'.rows = db.rows ++ [row rowid] ∧
      ∀ other ∈ db.rows, other.pageSeq ≠ (row rowid).pageSeq := by
  unfold TempDb.insert at inserted
  dsimp only at inserted
  split at inserted
  · cases inserted
  · split at inserted
    · cases inserted
    · next unused =>
        cases Option.some.inj inserted
        refine ⟨db.lastRowid + 1, rfl, ?_⟩
        intro other member same
        exact unused (List.any_eq_true.mpr ⟨other, member, decide_eq_true same⟩)

theorem Intact.persistEvent (before : Intact offered session) {vaultId : Bytes32}
    {event : VerifiedRevisionEvent} (given : offered vaultId event) :
    Intact offered (persistEvent vaultId session event).1 ∧
      (Indexer.persistEvent vaultId session event).1.key = session.key := by
  unfold Indexer.persistEvent
  by_cases vault : event.vaultId = vaultId
  · rw [if_neg (not_not_intro vault)]
    dsimp only
    split
    · exact ⟨⟨before.rows, before.pageSeqs, Nat.mod_lt _ (Nat.two_pow_pos 64)⟩, rfl⟩
    · next db inserted =>
        obtain ⟨rowid, rows, unused⟩ := TempDb.insert_some inserted
        refine ⟨⟨?_, ?_, Nat.mod_lt _ (Nat.two_pow_pos 64)⟩, rfl⟩
        · intro row member
          dsimp only at member
          rw [rows] at member
          rcases List.mem_append.mp member with old | new
          · exact before.rows row old
          · exact ⟨vaultId, event, given, vault, rowid, _, before.counter,
              List.mem_singleton.mp new⟩
        · dsimp only
          rw [rows, List.map_append]
          apply List.Nodup.append before.pageSeqs (List.nodup_singleton _)
          intro pageSeq old new
          obtain ⟨other, member, rfl⟩ := List.mem_map.mp old
          exact unused other member (List.mem_singleton.mp new)
  · rw [if_pos vault]
    exact ⟨before, rfl⟩

theorem Intact.persistChunk (before : Intact offered session) {vaultId : Bytes32}
    {events : List VerifiedRevisionEvent} (given : ∀ event ∈ events, offered vaultId event) :
    Intact offered (persistChunk vaultId session events).1 ∧
      (Indexer.persistChunk vaultId session events).1.key = session.key := by
  induction events generalizing session with
  | nil => exact ⟨before, rfl⟩
  | cons event events ih =>
      obtain ⟨next, key⟩ := before.persistEvent (given event List.mem_cons_self)
      rw [Indexer.persistChunk]
      cases persisted : Indexer.persistEvent vaultId session event with
      | mk after result =>
          rw [persisted] at next key
          cases result with
          | error error => exact ⟨next, key⟩
          | ok done =>
              obtain ⟨finish, same⟩ :=
                ih next fun other member => given other (List.mem_cons_of_mem _ member)
              exact ⟨finish, same.trans key⟩

/-- Whatever is persisted, every row of the table is one written for an event that was
offered. -/
theorem Intact.persistChunks (before : Intact offered session)
    {chunks : List (Bytes32 × List VerifiedRevisionEvent)}
    (given : ∀ chunk ∈ chunks, ∀ event ∈ chunk.2, offered chunk.1 event) :
    Intact offered (persistChunks session chunks) ∧
      (Indexer.persistChunks session chunks).key = session.key := by
  induction chunks generalizing session with
  | nil => exact ⟨before, rfl⟩
  | cons chunk chunks ih =>
      obtain ⟨next, key⟩ := before.persistChunk (given chunk List.mem_cons_self)
      obtain ⟨finish, same⟩ :=
        ih next fun other member => given other (List.mem_cons_of_mem _ member)
      exact ⟨finish, same.trans key⟩

end

/-! ## What a pull reads -/

/-- The byte fields, in the order of the columns. -/
def VerifiedRevisionEvent.byteFields (event : VerifiedRevisionEvent) : List Bytes :=
  [event.vaultId.toList, event.accountId.toList, event.parentRevision.toList,
    event.deviceId.toList, event.encPayload, event.signer.toList, event.blockHash.toList,
    event.txHash.toList]

def IndexedEvent.byteFields (event : IndexedEvent) : List Text :=
  [event.vaultId, event.accountId, event.parentRevision, event.deviceId, event.encPayload,
    event.signer, event.blockHash, event.txHash]

theorem IndexedEvent.byteFields_fromVerified (event : VerifiedRevisionEvent) :
    (fromVerified event).byteFields = event.byteFields.map hexEncode := rfl

/-- The blobs of a written row are the event's byte fields, each sealed. -/
theorem blobs_sealRow (key : PageKey) (vaultId : Bytes32) (rowid pageSeq : Nat)
    (event : VerifiedRevisionEvent) :
    (sealRow key vaultId rowid pageSeq event).blobs = event.byteFields.map fun field =>
      .page ⟨key, buildAad vaultId pageSeq event.schemaVersion, field⟩ := rfl

/-- A blob that opens is a page sealed under the key and the associated data. -/
theorem unwrapColumn_ok {key : PageKey} {name : String} {blob : Blob} {aad plaintext : Bytes}
    (opened : unwrapColumn key name blob aad = .ok plaintext) :
    blob = .page ⟨key, aad, plaintext⟩ := by
  unfold unwrapColumn at opened
  cases blob with
  | other framed => cases framed <;> cases opened
  | page page =>
      cases content : page.open? key aad with
      | none => simp [decryptPage, content] at opened
      | some found =>
          simp only [decryptPage, content, Except.ok.injEq] at opened
          obtain ⟨sameKey, sameAad, sameText⟩ :=
            (Sealed.open?_eq_some_iff page key aad found).mp content
          subst sameKey sameAad sameText opened
          rfl

/-- A row that gives an event: its eight blobs are pages under one associated data, and the
event has their plaintexts and the row's integers. -/
structure Opens (key : PageKey) (bound : Bytes32) (row : CachedRevision) (pageSeq : Nat)
    (schemaVersion : UInt16) (texts : List Bytes) (event : IndexedEvent) : Prop where
  blobs : row.blobs = texts.map fun text => .page ⟨key, buildAad bound pageSeq schemaVersion, text⟩
  byteFields : event.byteFields = texts.map hexEncode
  vaultId : event.vaultId = hexEncode bound.toList
  schemaVersion : event.schemaVersion = schemaVersion
  sequence : event.sequence = (toU64? row.sequence).getD 0
  blockNumber : event.blockNumber = (toU64? row.blockNumber).getD 0
  logIndex : event.logIndex = (toU64? row.logIndex).getD 0

theorem openRow_some {key : PageKey} {bound : Bytes32} {row : CachedRevision} {pageSeq : Nat}
    {schemaVersion : UInt16} {event : IndexedEvent}
    (opened : openRow key bound row pageSeq schemaVersion = .ok (some event)) :
    ∃ texts, Opens key bound row pageSeq schemaVersion texts event := by
  unfold openRow at opened
  obtain ⟨vaultId, vault, opened⟩ := Fallible.bind_eq_ok_iff.mp opened
  split at opened
  · cases opened
  · next same =>
      obtain ⟨accountId, account, opened⟩ := Fallible.bind_eq_ok_iff.mp opened
      obtain ⟨parentRevision, parent, opened⟩ := Fallible.bind_eq_ok_iff.mp opened
      obtain ⟨deviceId, device, opened⟩ := Fallible.bind_eq_ok_iff.mp opened
      obtain ⟨encPayload, payload, opened⟩ := Fallible.bind_eq_ok_iff.mp opened
      obtain ⟨signer, signed, opened⟩ := Fallible.bind_eq_ok_iff.mp opened
      obtain ⟨blockHash, block, opened⟩ := Fallible.bind_eq_ok_iff.mp opened
      obtain ⟨txHash, transaction, opened⟩ := Fallible.bind_eq_ok_iff.mp opened
      cases Option.some.inj (Except.ok.inj opened)
      refine ⟨[vaultId, accountId, parentRevision, deviceId, encPayload, signer, blockHash,
        txHash], ?_, rfl, congrArg hexEncode (not_not.mp same), rfl, rfl, rfl, rfl⟩
      simp only [CachedRevision.blobs, List.map_cons, List.map_nil, unwrapColumn_ok vault,
        unwrapColumn_ok account, unwrapColumn_ok parent, unwrapColumn_ok device,
        unwrapColumn_ok payload, unwrapColumn_ok signed, unwrapColumn_ok block,
        unwrapColumn_ok transaction]

/-- A row gives an event only with its integers in range. -/
theorem readRow_some {key : PageKey} {bound : Bytes32} {row : CachedRevision}
    {event : IndexedEvent} (read : readRow key bound row = .ok (some event)) :
    ∃ pageSeq schemaVersion texts, toU64? row.pageSeq = some pageSeq ∧
      Opens key bound row pageSeq schemaVersion texts event := by
  unfold readRow at read
  split at read
  · cases read
  · cases read
  · next pageSeq schemaVersion page schema =>
      obtain ⟨texts, opens⟩ := openRow_some read
      exact ⟨pageSeq, schemaVersion, texts, page, opens⟩

/-- The events of a batch come from rows of the table, one from each. -/
theorem readRows_ok {key : PageKey} {bound : Bytes32} {rows : List CachedRevision}
    {events : List IndexedEvent} (read : readRows key bound rows = .ok events) :
    ∃ sources, sources.Sublist rows ∧
      List.Forall₂ (fun row event => readRow key bound row = .ok (some event)) sources events := by
  induction rows generalizing events with
  | nil =>
      cases Except.ok.inj read
      exact ⟨[], .slnil, .nil⟩
  | cons row rows ih =>
      obtain ⟨found, head, read⟩ := Fallible.bind_eq_ok_iff.mp read
      obtain ⟨later, tail, read⟩ := Fallible.bind_eq_ok_iff.mp read
      obtain ⟨sources, inside, each⟩ := ih tail
      cases Except.ok.inj read
      cases found with
      | none => exact ⟨sources, inside.cons row, each⟩
      | some event => exact ⟨row :: sources, inside.cons_cons row, .cons head each⟩

/-! ## Rewritings -/

/-- A rewriting of the table without the key: its page numbers are those an integer column can
hold, and a blob that is a page under the session's key is a copy of a written one. -/
structure Rewritten (session : IndexerSession) (rows : List CachedRevision) : Prop where
  pageSeq : ∀ row ∈ rows, row.pageSeq ≤ i64Max
  copied : ∀ row ∈ rows, ∀ page, Blob.page page ∈ row.blobs → page.key = session.key →
    ∃ written ∈ session.db.rows, Blob.page page ∈ written.blobs

/-- An event of a batch, the row it was read from, and the persisted event and its row. -/
structure Reading where
  row : CachedRevision
  event : IndexedEvent
  original : VerifiedRevisionEvent
  written : CachedRevision

/-- What a batch's event has from the persisted one, and what from the rewritten row. -/
structure Reading.Sound (session : IndexerSession) (bound : Bytes32) (reading : Reading) :
    Prop where
  stored : reading.written ∈ session.db.rows
  writtenFor : WrittenFor session.key bound reading.original reading.written
  pageSeq : reading.row.pageSeq = reading.written.pageSeq
  vaultId : reading.event.vaultId = hexEncode reading.original.vaultId.toList
  schemaVersion : reading.event.schemaVersion = reading.original.schemaVersion
  byteFields : ∀ field ∈ reading.event.byteFields,
    field ∈ (IndexedEvent.fromVerified reading.original).byteFields
  unmoved : ∀ column : Nat, reading.row.blobs[column]? = reading.written.blobs[column]? →
    reading.event.byteFields[column]? =
      (IndexedEvent.fromVerified reading.original).byteFields[column]?
  sequence : reading.event.sequence = (toU64? reading.row.sequence).getD 0
  blockNumber : reading.event.blockNumber = (toU64? reading.row.blockNumber).getD 0
  logIndex : reading.event.logIndex = (toU64? reading.row.logIndex).getD 0

section

variable {offered : Bytes32 → VerifiedRevisionEvent → Prop} {session : IndexerSession}
variable {rows : List CachedRevision} {bound : Bytes32}

theorem eq_of_toU64? {value : Int} {natural : Nat} (converted : toU64? value = some natural) :
    value = natural := by
  unfold toU64? at converted
  split at converted
  · next nonneg =>
      rw [← Option.some.inj converted]
      exact (Int.toNat_of_nonneg nonneg).symm
  · cases converted

/-- A page that opens in a row is a field of the event whose row has the row's page number. -/
theorem Rewritten.page (rewritten : Rewritten session rows) (intact : Intact offered session)
    {row : CachedRevision} (member : row ∈ rows) {pageSeq : Nat} {schemaVersion : UInt16}
    {text : Bytes} (number : toU64? row.pageSeq = some pageSeq)
    (opened : Blob.page ⟨session.key, buildAad bound pageSeq schemaVersion, text⟩ ∈ row.blobs) :
    ∃ written ∈ session.db.rows, written.pageSeq = row.pageSeq ∧
      Blob.page ⟨session.key, buildAad bound pageSeq schemaVersion, text⟩ ∈ written.blobs ∧
      ∃ original rowid, offered bound original ∧ original.vaultId = bound ∧
        original.schemaVersion = schemaVersion ∧ pageSeq < 2 ^ 64 ∧
        written = sealRow session.key bound rowid pageSeq original := by
  obtain ⟨written, stored, copy⟩ := rewritten.copied row member _ opened rfl
  obtain ⟨vaultId, original, given, vault, rowid, number', below, shape⟩ :=
    intact.rows written stored
  have column := copy
  rw [shape, blobs_sealRow] at column
  obtain ⟨field, -, same⟩ := List.mem_map.mp column
  have context : buildAad vaultId number' original.schemaVersion =
      buildAad bound pageSeq schemaVersion :=
    congrArg Sealed.context (Blob.page.inj same)
  obtain ⟨sameVault, sameNumber, sameSchema⟩ := buildAad_inj context
  have value := eq_of_toU64? number
  have range := rewritten.pageSeq row member
  have small : i64Max < 2 ^ 64 := by decide +kernel
  have few : pageSeq ≤ i64Max := by omega
  have equal : number' = pageSeq := by
    rw [Nat.mod_eq_of_lt below, Nat.mod_eq_of_lt (few.trans_lt small)] at sameNumber
    exact sameNumber
  subst sameVault sameSchema equal
  refine ⟨written, stored, ?_, copy, original, rowid, given, vault, rfl, below, shape⟩
  rw [shape, value]
  exact toI64_of_le few

/-- One row of a batch. -/
theorem Rewritten.reading (rewritten : Rewritten session rows) (intact : Intact offered session)
    {row : CachedRevision} (member : row ∈ rows) {event : IndexedEvent}
    (read : readRow session.key bound row = .ok (some event)) :
    ∃ reading : Reading, reading.row = row ∧ reading.event = event ∧
      reading.Sound session bound ∧ offered bound reading.original := by
  obtain ⟨pageSeq, schemaVersion, texts, number, opens⟩ := readRow_some read
  have column (text : Bytes) (inside : text ∈ texts) :
      Blob.page ⟨session.key, buildAad bound pageSeq schemaVersion, text⟩ ∈ row.blobs := by
    rw [opens.blobs]
    exact List.mem_map_of_mem inside
  obtain ⟨first, inside⟩ : ∃ text, text ∈ texts := by
    cases texts with
    | nil => cases opens.blobs
    | cons text texts => exact ⟨text, List.mem_cons_self⟩
  obtain ⟨written, stored, page, -, original, rowid, given, vault, schema, below, shape⟩ :=
    rewritten.page intact member number (column first inside)
  subst schema
  have field (text : Bytes) (inside : text ∈ texts) : text ∈ original.byteFields := by
    obtain ⟨other, stored', page', copy, -⟩ :=
      rewritten.page intact member number (column text inside)
    have same : other = written :=
      List.inj_on_of_nodup_map intact.pageSeqs stored' stored (page'.trans page.symm)
    rw [same, shape, blobs_sealRow] at copy
    obtain ⟨found, member', equal⟩ := List.mem_map.mp copy
    have text' : found = text := congrArg Sealed.msg (Blob.page.inj equal)
    exact text' ▸ member'
  refine ⟨⟨row, event, original, written⟩, rfl, rfl, ?_, given⟩
  refine ⟨stored, ⟨vault, rowid, pageSeq, below, shape⟩, page.symm, ?_, opens.schemaVersion, ?_,
    ?_, opens.sequence, opens.blockNumber, opens.logIndex⟩
  · rw [opens.vaultId, vault]
  · intro hex member
    rw [opens.byteFields] at member
    obtain ⟨text, inside, rfl⟩ := List.mem_map.mp member
    rw [IndexedEvent.byteFields_fromVerified]
    exact List.mem_map_of_mem (field text inside)
  · intro position same
    dsimp only at same ⊢
    rw [opens.blobs, shape, blobs_sealRow, List.getElem?_map, List.getElem?_map] at same
    rw [opens.byteFields, IndexedEvent.byteFields_fromVerified, List.getElem?_map,
      List.getElem?_map]
    congr 1
    refine Option.map_injective ?_ same
    intro text text' equal
    exact congrArg Sealed.msg (Blob.page.inj equal)

/-- The rows of a batch, each with the event read from it. -/
theorem Rewritten.readings (rewritten : Rewritten session rows) (intact : Intact offered session)
    {sources : List CachedRevision} {events : List IndexedEvent}
    (inside : ∀ row ∈ sources, row ∈ rows)
    (each : List.Forall₂ (fun row event => readRow session.key bound row = .ok (some event))
      sources events) :
    ∃ readings : List Reading, readings.map Reading.row = sources ∧
      readings.map Reading.event = events ∧
      ∀ reading ∈ readings, reading.Sound session bound ∧ offered bound reading.original := by
  induction each with
  | nil => exact ⟨[], rfl, rfl, fun _ member => nomatch member⟩
  | cons read _ ih =>
      obtain ⟨reading, row, event, sound⟩ :=
        rewritten.reading intact (inside _ List.mem_cons_self) read
      obtain ⟨readings, rows, events, later⟩ :=
        ih fun other member => inside other (List.mem_cons_of_mem _ member)
      refine ⟨reading :: readings, ?_, ?_, ?_⟩
      · rw [List.map_cons, row, rows]
      · rw [List.map_cons, event, events]
      · intro other member
        rcases List.mem_cons.mp member with rfl | old
        · exact sound
        · exact later other old

/-- Rows with different page numbers give different persisted rows. -/
theorem nodup_written {readings : List Reading}
    (sound : ∀ reading ∈ readings, reading.Sound session bound)
    (distinct : (readings.map fun reading => reading.row.pageSeq).Nodup) :
    (readings.map Reading.written).Nodup := by
  have pages : (readings.map fun reading => reading.row.pageSeq) =
      (readings.map Reading.written).map CachedRevision.pageSeq := by
    rw [List.map_map]
    apply List.map_congr_left
    intro reading member
    exact (sound reading member).pageSeq
  rw [pages] at distinct
  exact distinct.of_map

end

theorem select_subperm (db : TempDb) (after : Int) (limit : Nat) :
    (db.select after limit).Subperm db.rows := by
  apply (List.take_sublist _ _).subperm.trans
  apply (List.perm_insertionSort _ _).subperm.trans
  exact List.filter_sublist.subperm

/-- A batch that a pull returns is read from the selected rows. -/
theorem handlePull_ok {session after : IndexerSession} {bound : Bytes32} {batchSize : Nat}
    {response : IndexerResponse} (vault : session.boundVault = some bound)
    (pulled : handlePull session batchSize = (after, .ok response)) :
    ∃ sources events, response = .batch events ∧ sources.Subperm session.db.rows ∧
      List.Forall₂ (fun row event => readRow session.key bound row = .ok (some event))
        sources events := by
  unfold handlePull at pulled
  rw [vault] at pulled
  dsimp only at pulled
  split at pulled
  · cases pulled
    exact ⟨[], [], rfl, List.nil_subperm, .nil⟩
  · split at pulled
    · cases pulled
    · next events read =>
        cases pulled
        obtain ⟨sources, inside, each⟩ := readRows_ok read
        exact ⟨sources, events, rfl, inside.subperm.trans (select_subperm _ _ _), each⟩

/-- After any chunks have been persisted and the table has been rewritten without the key, a
pull fails, or each event of its batch is read from a row of its own and is tied to a persisted
event of the bound vault: the vault and the schema version are that event's, each byte field is
one of its byte fields, and the very one where the column has not been rewritten.  Rows with
different page numbers give different persisted events.  The other integers are the row's. -/
theorem rewritten_pull (key : PageKey) (chunks : List (Bytes32 × List VerifiedRevisionEvent))
    {rows : List CachedRevision}
    (rewritten : Rewritten (persistChunks (.new key) chunks) rows) (bound : Bytes32)
    (lastRowid offset batchSize : Nat) {after : IndexerSession} {response : IndexerResponse}
    (pulled : handlePull { persistChunks (.new key) chunks with
      db := ⟨rows, lastRowid⟩, boundVault := some bound, nextPullOffset := offset } batchSize =
        (after, .ok response)) :
    ∃ readings : List Reading, response = .batch (readings.map Reading.event) ∧
      (readings.map Reading.row).Subperm rows ∧
      (∀ reading ∈ readings, reading.Sound (persistChunks (.new key) chunks) bound ∧
        ∃ events, (bound, events) ∈ chunks ∧ reading.original ∈ events) ∧
      ((readings.map fun reading => reading.row.pageSeq).Nodup →
        (readings.map Reading.written).Nodup) := by
  have fresh : Intact (fun vaultId event => ∃ events, (vaultId, events) ∈ chunks ∧ event ∈ events)
      (IndexerSession.new key) := .new key
  have intact := (fresh.persistChunks fun chunk member event inside =>
    ⟨chunk.2, member, inside⟩).1
  obtain ⟨sources, events, batch, inside, each⟩ := handlePull_ok rfl pulled
  obtain ⟨readings, rowsEq, eventsEq, sound⟩ :=
    rewritten.readings intact (fun row member => inside.subset member) each
  refine ⟨readings, ?_, ?_, sound, ?_⟩
  · rw [batch, eventsEq]
  · rw [rowsEq]
    exact inside
  · exact nodup_written fun reading member => (sound reading member).1

namespace TamperSample

/-- One persisted event. -/
def chunks : List (Bytes32 × List VerifiedRevisionEvent) :=
  [(IndexerSample.vault 1, [IndexerSample.event])]

def session : IndexerSession := persistChunks (.new ⟨0⟩) chunks

def row : CachedRevision := sealRow ⟨0⟩ (IndexerSample.vault 1) 1 0 IndexerSample.event

/-- Its row with another block number, with two columns swapped, and twice as it was. -/
def rows : List CachedRevision :=
  [{ row with blockNumber := 9 },
    { row with rowid := 2, accountId := row.parentRevision, parentRevision := row.accountId },
    { row with rowid := 3 }, { row with rowid := 4 }]

def pull : Handled :=
  handlePull { session with
    db := ⟨rows, 4⟩, boundVault := some (IndexerSample.vault 1), nextPullOffset := 0 } 10

def original : IndexedEvent := .fromVerified IndexerSample.event

/-- What the pull returns. -/
def batch : List IndexedEvent :=
  [{ original with blockNumber := 9 },
    { original with
      accountId := original.parentRevision, parentRevision := original.accountId },
    original, original]

theorem rewritten : Rewritten session rows := by
  have copies : ∀ row ∈ rows, ∀ blob ∈ row.blobs, blob ∈ TamperSample.row.blobs := by
    decide +kernel
  have stored : session.db.rows = [row] := by decide +kernel
  refine ⟨by decide +kernel, ?_⟩
  intro row member page column _
  exact ⟨TamperSample.row, stored ▸ List.mem_singleton.mpr rfl, copies row member _ column⟩

theorem pull_batch : pull.2 = .ok (.batch batch) := by decide +kernel

end TamperSample

/-- Each event of the sample batch is tied to the persisted one. -/
theorem rewritten_pull_swapped :
    ∃ readings : List Reading,
      IndexerResponse.batch TamperSample.batch = .batch (readings.map Reading.event) ∧
      (readings.map Reading.row).Subperm TamperSample.rows ∧
      (∀ reading ∈ readings, reading.Sound TamperSample.session (IndexerSample.vault 1) ∧
        ∃ events, (IndexerSample.vault 1, events) ∈ TamperSample.chunks ∧
          reading.original ∈ events) ∧
      ((readings.map fun reading => reading.row.pageSeq).Nodup →
        (readings.map Reading.written).Nodup) :=
  rewritten_pull ⟨0⟩ TamperSample.chunks TamperSample.rewritten (IndexerSample.vault 1) 4 0 10
    (Prod.ext rfl TamperSample.pull_batch)

/-- Without the key, a persisted event is returned with another block number, with its account
and parent revision swapped, and more than once. -/
theorem rewritten_rows_forge :
    Rewritten TamperSample.session TamperSample.rows ∧
      TamperSample.pull.2 = .ok (.batch TamperSample.batch) ∧
      TamperSample.batch[0]? ≠ some TamperSample.original ∧
      TamperSample.batch[1]? ≠ some TamperSample.original ∧
      TamperSample.batch.count TamperSample.original = 2 := by
  refine ⟨TamperSample.rewritten, TamperSample.pull_batch, ?_, ?_, ?_⟩ <;> decide +kernel

end Pangolin.Indexer
