import Pangolin.Indexer.Delivery

/-!
# Start requests of an indexer session

A start request appends the fetched events of its vault to the table.  What a later start
request does therefore depends on the rows the table already holds: they are still there
while the position is set back to zero, and they open only under the vault they were sealed
for.
-/

namespace Pangolin.Indexer

open Transition Utf8

/-! ## Appending to the table -/

section

variable {session : IndexerSession} {vaultId : Bytes32}
variable {stored : List VerifiedRevisionEvent}

/-- A new event of the vault gets the next row id and page number. -/
theorem persistEvent_stores (before : Stores session vaultId stored)
    {event : VerifiedRevisionEvent} (vault : event.vaultId = vaultId)
    (room : stored.length < i64Max) :
    ∃ db counter, persistEvent vaultId session event =
        ({ session with db, pageSeqCounter := counter }, .ok ()) ∧
      Stores { session with db, pageSeqCounter := counter } vaultId (stored ++ [event]) := by
  have below : stored.length < 2 ^ 63 - 1 := room
  have counter : (session.pageSeqCounter + 1) % 2 ^ 64 = stored.length + 1 := by
    rw [before.counter]
    omega
  have unused : (sealedRows session.key vaultId 0 stored).any
      (fun other => decide (other.pageSeq =
        (sealRow session.key vaultId (stored.length + 1) stored.length event).pageSeq)) =
          false := by
    rw [List.any_eq_false]
    intro row member
    obtain ⟨index, other, inside, -, rfl⟩ := mem_sealedRows member
    have small : toI64 (0 + index) = (0 + index : Nat) := toI64_of_le (by omega)
    have large : toI64 stored.length = stored.length := toI64_of_le (by omega)
    simp only [sealRow, small, large, decide_eq_true_eq]
    omega
  have inserted : session.db.insert
      (fun rowid => sealRow session.key vaultId rowid session.pageSeqCounter event) =
        some ⟨sealedRows session.key vaultId 0 (stored ++ [event]), stored.length + 1⟩ := by
    rw [before.db, before.counter, sealedRows_append]
    have roomy : ¬ i64Max < stored.length + 1 := by omega
    simp only [TempDb.insert, roomy, unused, if_false, sealedRows, Nat.zero_add,
      Bool.false_eq_true]
  refine ⟨⟨sealedRows session.key vaultId 0 (stored ++ [event]), stored.length + 1⟩,
    stored.length + 1, ?_, ?_⟩
  · rw [persistEvent, if_neg (not_not_intro vault)]
    simp only [inserted, counter]
  · refine ⟨?_, ?_, ?_, ?_⟩
    · simp
    · simp
    · rw [List.length_append]
      exact room
    · intro other member
      rcases List.mem_append.mp member with old | new
      · exact before.ofVault other old
      · rwa [List.mem_singleton.mp new]

theorem ofVault_append (vaultId : Bytes32) (first second : List VerifiedRevisionEvent) :
    ofVault vaultId (first ++ second) = ofVault vaultId first ++ ofVault vaultId second :=
  List.filter_append ..

/-- A chunk appends its events of the vault and skips the others. -/
theorem persistChunk_stores (before : Stores session vaultId stored)
    (events : List VerifiedRevisionEvent)
    (room : stored.length + (ofVault vaultId events).length ≤ i64Max) :
    ∃ db counter, persistChunk vaultId session events =
        ({ session with db, pageSeqCounter := counter }, .ok ()) ∧
      Stores { session with db, pageSeqCounter := counter } vaultId
        (stored ++ ofVault vaultId events) := by
  induction events generalizing session stored with
  | nil => exact ⟨session.db, session.pageSeqCounter, rfl, by simpa [ofVault] using before⟩
  | cons event events ih =>
      by_cases vault : event.vaultId = vaultId
      · have kept : ofVault vaultId (event :: events) = event :: ofVault vaultId events := by
          simp [ofVault, vault]
        rw [kept, List.length_cons] at room
        obtain ⟨db, counter, persisted, next⟩ := persistEvent_stores before vault (by omega)
        obtain ⟨db', counter', rest, finish⟩ := ih next (by rw [List.length_append]; simp; omega)
        refine ⟨db', counter', ?_, ?_⟩
        · rw [persistChunk, persisted]
          exact rest
        · rw [kept, ← List.singleton_append, ← List.append_assoc]
          exact finish
      · have skipped : ofVault vaultId (event :: events) = ofVault vaultId events := by
          simp [ofVault, vault]
        have persisted : persistEvent vaultId session event = (session, .ok ()) := by
          rw [persistEvent, if_pos vault]
        rw [skipped] at room ⊢
        rw [persistChunk, persisted]
        exact ih before room

/-- Past the last block there is nothing to fetch. -/
theorem fetchAll_past {last cursor : Nat} (past : last < cursor) (fetches : List Fetch) :
    fetchAll last cursor fetches = ([], true) := by
  cases fetches with
  | nil => simp [fetchAll, past]
  | cons fetch fetches => simp [fetchAll, Nat.not_le.mpr past]

/-- Up to the largest block number a chunk ends where the range does or after 9000 blocks. -/
theorem chunkEnd_of_le {cursor endBlock : Nat} (bounded : endBlock ≤ u64Max) :
    chunkEnd cursor endBlock = min (cursor + 8999) endBlock := by
  have width : chainSyncLogBlockChunk - 1 = 8999 := rfl
  rw [chunkEnd, saturatingAdd, width]
  omega

/-- One turn of the loop: the events of a chunk are appended, and the loop goes on after it. -/
theorem runChunkLoop_turn (before : Stores session vaultId stored) {cursor : Nat}
    {fetch : Fetch} {verified : List VerifiedRevisionEvent} (fetches : List Fetch)
    (due : cursor ≤ session.endBlock) (bounded : session.endBlock ≤ u64Max)
    (answered : fetch cursor (min (cursor + 8999) session.endBlock) = some verified)
    (room : stored.length + (ofVault vaultId verified).length ≤ i64Max)
    (inside : min (cursor + 8999) session.endBlock < u64Max) :
    ∃ db counter processed,
      runChunkLoop vaultId cursor (fetch :: fetches) session =
        runChunkLoop vaultId (min (cursor + 8999) session.endBlock + 1) fetches
          { session with db, pageSeqCounter := counter, lastProcessedBlock := processed } ∧
      Stores { session with db, pageSeqCounter := counter, lastProcessedBlock := processed }
        vaultId (stored ++ ofVault vaultId verified) := by
  obtain ⟨db, counter, persisted, next⟩ := persistChunk_stores before verified room
  have advance : saturatingAdd (min (cursor + 8999) session.endBlock) 1 =
      min (cursor + 8999) session.endBlock + 1 := by
    rw [saturatingAdd]
    omega
  refine ⟨db, counter, min (cursor + 8999) session.endBlock, ?_,
    next.db, next.counter, next.few, next.ofVault⟩
  rw [runChunkLoop, if_pos due]
  simp only [chunkEnd_of_le bounded, answered, persisted, advance, Nat.succ_ne_zero, if_false]

/-- The loop appends the events of the blocks up to the last one, and fails exactly when a
fetch does. -/
theorem runChunkLoop_stores (before : Stores session vaultId stored) {cursor : Nat}
    {fetches : List Fetch} (bounded : session.endBlock ≤ u64Max)
    (room : stored.length +
      (ofVault vaultId (fetchAll session.endBlock cursor fetches).1).length ≤ i64Max)
    (ends : (fetchAll session.endBlock cursor fetches).2 = true → session.endBlock < u64Max) :
    ∃ db counter processed,
      runChunkLoop vaultId cursor fetches session =
        ({ session with db, pageSeqCounter := counter, lastProcessedBlock := processed },
          if (fetchAll session.endBlock cursor fetches).2 then .ok () else .error .chainSync) ∧
      Stores { session with db, pageSeqCounter := counter, lastProcessedBlock := processed }
        vaultId (stored ++ ofVault vaultId (fetchAll session.endBlock cursor fetches).1) := by
  induction fetches generalizing session stored cursor with
  | nil =>
      refine ⟨session.db, session.pageSeqCounter, session.lastProcessedBlock, ?_, ?_⟩
      · by_cases past : cursor ≤ session.endBlock
        · simp [runChunkLoop, fetchAll, past]
        · simp [runChunkLoop, fetchAll, past, Nat.lt_of_not_le past]
      · simpa [fetchAll, ofVault] using before
  | cons fetch fetches ih =>
      by_cases past : cursor ≤ session.endBlock
      · have range := fetchAll.eq_2 session.endBlock cursor fetch fetches
        rw [if_pos past] at range
        cases answer : fetch cursor (min (cursor + 8999) session.endBlock) with
        | none =>
            simp only [answer] at range
            rw [range]
            refine ⟨session.db, session.pageSeqCounter, session.lastProcessedBlock, ?_, ?_⟩
            · rw [runChunkLoop, if_pos past]
              simp only [chunkEnd_of_le bounded, answer]
              rfl
            · simpa [ofVault] using before
        | some verified =>
            simp only [answer] at range
            rw [range, ofVault_append, List.length_append] at room
            rw [range] at ends
            have inside : min (cursor + 8999) session.endBlock < u64Max := by
              by_cases final : min (cursor + 8999) session.endBlock = session.endBlock
              · rw [final]
                apply ends
                rw [final, fetchAll_past (Nat.lt_succ_self _)]
              · omega
            obtain ⟨db, counter, processed, turn, next⟩ :=
              runChunkLoop_turn before fetches past bounded answer (by omega) inside
            obtain ⟨db', counter', processed', loop, finish⟩ :=
              ih next bounded (by rwa [List.length_append, Nat.add_assoc]) ends
            refine ⟨db', counter', processed', ?_, ?_⟩
            · rw [turn, loop, range]
            · rw [range, ofVault_append, ← List.append_assoc]
              exact finish
      · refine ⟨session.db, session.pageSeqCounter, session.lastProcessedBlock, ?_, ?_⟩
        · simp [runChunkLoop, fetchAll, past]
        · simpa [fetchAll, past, ofVault] using before

end

/-! ## Faithful start requests -/

/-- A start request that succeeds is followed by the vault's events of the range; one that
fails changes nothing of what is delivered. -/
structure StartFaithful (session : IndexerSession) (answers : ChainAnswers) (vaultIdHex : Text)
    (startBlock : Nat) (endBlock : Option Nat) : Prop where
  delivers : ∀ response vaultId last,
    (handleStartIndex session answers vaultIdHex startBlock endBlock).2 = .ok response →
    decodeVaultId vaultIdHex = .ok vaultId → (endBlock <|> answers.head) = some last →
    Delivers (handleStartIndex session answers vaultIdHex startBlock endBlock).1
      ((verifiedEvents vaultId startBlock last answers).map IndexedEvent.fromVerified)
  unchanged : ∀ error,
    (handleStartIndex session answers vaultIdHex startBlock endBlock).2 = .error error →
    SameDeliveries session (handleStartIndex session answers vaultIdHex startBlock endBlock).1

/-- Only start requests promise anything about what is delivered. -/
def Faithful (session : IndexerSession) (request : ChainAnswers × IndexerRequest) : Prop :=
  match request.2 with
  | .startIndex vaultId startBlock endBlock =>
      StartFaithful session request.1 vaultId startBlock endBlock
  | _ => True

/-- The integers of an event fit their columns. -/
def Fits (event : VerifiedRevisionEvent) : Prop :=
  event.sequence ≤ i64Max ∧ event.blockNumber ≤ i64Max ∧ event.logIndex ≤ i64Max

/-- The vault is bound already, or every row has been handed over. -/
def KeepsVault (session : IndexerSession) (vaultId : Bytes32) : Prop :=
  session.boundVault = some vaultId ∨ session.db.rows.length ≤ session.nextPullOffset

/-- A request that fetches a range finds an empty table and stores all of it; or a fetch
fails, nothing has been stored, and the position and the vault were already those the request
sets. -/
def IndexesAfresh (session : IndexerSession) (vaultId : Bytes32) (startBlock last : Nat)
    (answers : ChainAnswers) : Prop :=
  let events := verifiedEvents vaultId startBlock last answers
  last ≤ u64Max ∧
    if (fetchAll last startBlock answers.fetches).2 then
      session.db.rows = [] ∧ last < u64Max ∧ events.length ≤ i64Max ∧ ∀ event ∈ events, Fits event
    else
      events = [] ∧ (session.db.rows = [] ∨
        session.nextPullOffset = 0 ∧ session.boundVault = some vaultId)

/-- The condition on a start request, in the order in which the request is worked off. -/
def StartUndisturbed (session : IndexerSession) (answers : ChainAnswers) (vaultIdHex : Text)
    (startBlock : Nat) (endBlock : Option Nat) : Prop :=
  ∀ vaultId, decodeVaultId vaultIdHex = .ok vaultId →
    match endBlock <|> answers.head with
    | none => KeepsVault session vaultId
    | some last =>
        if last < startBlock then KeepsVault session vaultId
        else IndexesAfresh session vaultId startBlock last answers

def Undisturbed (session : IndexerSession) (request : ChainAnswers × IndexerRequest) : Prop :=
  match request.2 with
  | .startIndex vaultId startBlock endBlock =>
      StartUndisturbed session request.1 vaultId startBlock endBlock
  | _ => True

/-- One request with what the chain answers during it. -/
def indexerStep (session : IndexerSession) (request : ChainAnswers × IndexerRequest) :
    IndexerSession :=
  (handleRequest session request.1 request.2).1

/-! ## The state an undisturbed run leaves -/

/-- The table holds one vault's events, and the bound vault is that one unless all of them
have been handed over. -/
structure Held (session : IndexerSession) (vaultId : Bytes32)
    (stored : List VerifiedRevisionEvent) : Prop where
  stores : Stores session vaultId stored
  inside : session.nextPullOffset ≤ stored.length
  bound : session.boundVault = some vaultId ∨ session.nextPullOffset = stored.length

section

variable {session : IndexerSession} {vaultId : Bytes32}
variable {stored : List VerifiedRevisionEvent}

theorem Stores.length_rows (before : Stores session vaultId stored) :
    session.db.rows.length = stored.length := by
  rw [before.db, length_sealedRows]

/-- An empty table holds no events of any vault. -/
theorem Stores.of_no_rows (before : Stores session vaultId stored)
    (empty : session.db.rows = []) (other : Bytes32) : Stores session other [] := by
  have none_stored : stored = [] := by
    apply List.eq_nil_of_length_eq_zero
    rw [← before.length_rows, empty]
    rfl
  subst none_stored
  exact ⟨before.db, before.counter, before.few, fun _ member => nomatch member⟩

/-- A request that enters the loop appends the events of its range. -/
theorem handleStartIndex_stores (before : Stores session vaultId stored)
    {answers : ChainAnswers} {vaultIdHex : Text} {startBlock last : Nat} {endBlock : Option Nat}
    (decoded : decodeVaultId vaultIdHex = .ok vaultId)
    (head : (endBlock <|> answers.head) = some last) (ordered : ¬ last < startBlock)
    (bounded : last ≤ u64Max)
    (room : stored.length + (verifiedEvents vaultId startBlock last answers).length ≤ i64Max)
    (ends : (fetchAll last startBlock answers.fetches).2 = true → last < u64Max) :
    ∃ after, handleStartIndex session answers vaultIdHex startBlock endBlock =
        (after, if (fetchAll last startBlock answers.fetches).2 then
          .ok (.started protocolVersion vaultIdHex) else .error .chainSync) ∧
      Stores after vaultId (stored ++ verifiedEvents vaultId startBlock last answers) ∧
      after.key = session.key ∧ after.boundVault = some vaultId ∧ after.nextPullOffset = 0 := by
  have start : Stores { session with
      boundVault := some vaultId, startBlock, endBlock := last
      totalBlocks := saturatingAdd (last - startBlock) 1
      lastProcessedBlock := startBlock - 1, nextPullOffset := 0 } vaultId stored :=
    ⟨before.db, before.counter, before.few, before.ofVault⟩
  obtain ⟨db, counter, processed, loop, finish⟩ := runChunkLoop_stores start bounded room ends
  refine ⟨_, ?_, finish, rfl, rfl, rfl⟩
  simp only [handleStartIndex, decoded, head, ordered, if_false, loop]
  cases (fetchAll last startBlock answers.fetches).2 <;> rfl

/-- A table whose rows have all been handed over, or that holds none, delivers nothing. -/
def Spent (session : IndexerSession) : Prop :=
  ∃ vaultId stored, Stores session vaultId stored ∧ session.nextPullOffset = stored.length

/-- The ways an undisturbed start request ends. -/
inductive StartOutcome (session : IndexerSession) (answers : ChainAnswers) (vaultIdHex : Text)
    (startBlock : Nat) (endBlock : Option Nat) : Handled → Prop where
  | refused (error : IndexerError) :
      StartOutcome session answers vaultIdHex startBlock endBlock (session, .error error)
  | rebound (vaultId : Bytes32) (error : IndexerError) :
      KeepsVault session vaultId →
        StartOutcome session answers vaultIdHex startBlock endBlock
          ({ session with boundVault := some vaultId, startBlock }, .error error)
  | failed (vaultId : Bytes32) (stored : List VerifiedRevisionEvent) (after : IndexerSession)
      (error : IndexerError) :
      Held after vaultId stored → SameTable session after ∨ Spent session ∧ Spent after →
        StartOutcome session answers vaultIdHex startBlock endBlock (after, .error error)
  | indexed (vaultId : Bytes32) (last : Nat) (after : IndexerSession)
      (response : IndexerResponse) :
      decodeVaultId vaultIdHex = .ok vaultId → (endBlock <|> answers.head) = some last →
      Stores after vaultId (verifiedEvents vaultId startBlock last answers) →
      after.boundVault = some vaultId → after.nextPullOffset = 0 →
      (∀ event ∈ verifiedEvents vaultId startBlock last answers, Fits event) →
        StartOutcome session answers vaultIdHex startBlock endBlock (after, .ok response)

/-- A request that fetches its range ends with it stored, or with nothing changed. -/
theorem handleStartIndex_indexes (held : Held session vaultId stored) {other : Bytes32}
    {answers : ChainAnswers} {vaultIdHex : Text} {startBlock last : Nat} {endBlock : Option Nat}
    (decoded : decodeVaultId vaultIdHex = .ok other)
    (head : (endBlock <|> answers.head) = some last) (ordered : ¬ last < startBlock)
    (calm : IndexesAfresh session other startBlock last answers) :
    StartOutcome session answers vaultIdHex startBlock endBlock
      (handleStartIndex session answers vaultIdHex startBlock endBlock) := by
  obtain ⟨bounded, calm⟩ := calm
  have stores := held.stores
  by_cases complete : (fetchAll last startBlock answers.fetches).2 = true
  · rw [if_pos complete] at calm
    obtain ⟨empty, below, few, fits⟩ := calm
    obtain ⟨after, handled, finish, -, bound, offset⟩ := handleStartIndex_stores
      (stores.of_no_rows empty other) decoded head ordered bounded (by simpa using few)
      (fun _ => below)
    rw [if_pos complete] at handled
    rw [handled]
    rw [List.nil_append] at finish
    exact .indexed other last after _ decoded head finish bound offset fits
  · rw [if_neg complete] at calm
    obtain ⟨nothing, untouched⟩ := calm
    have early : (fetchAll last startBlock answers.fetches).2 = true → last < u64Max :=
      fun finished => absurd finished complete
    by_cases empty : session.db.rows = []
    · have cleared := stores.of_no_rows empty other
      obtain ⟨after, handled, finish, -, bound, offset⟩ := handleStartIndex_stores
        cleared decoded head ordered bounded (by simp [nothing]) early
      rw [if_neg complete] at handled
      rw [handled]
      rw [nothing, List.nil_append] at finish
      refine .failed other [] after _ ⟨finish, by omega, .inl bound⟩ (.inr ⟨?_, ?_⟩)
      · have drained := held.inside
        rw [← stores.length_rows, empty] at drained
        exact ⟨other, [], cleared, Nat.le_zero.mp drained⟩
      · exact ⟨other, [], finish, offset⟩
    · obtain ⟨atStart, bound⟩ := untouched.resolve_left empty
      have same : vaultId = other := by
        rcases held.bound with current | drained
        · exact Option.some.inj (current.symm.trans bound)
        · rw [atStart, ← stores.length_rows] at drained
          exact absurd (List.eq_nil_of_length_eq_zero drained.symm) empty
      subst same
      obtain ⟨after, handled, finish, key, bound', offset⟩ := handleStartIndex_stores
        stores decoded head ordered bounded (by simpa [nothing] using stores.few) early
      rw [if_neg complete] at handled
      rw [handled]
      rw [nothing, List.append_nil] at finish
      refine .failed vaultId stored after _ ⟨finish, by omega, .inl bound'⟩ (.inl ?_)
      exact ⟨key, by rw [finish.db, stores.db, key], bound'.trans bound.symm,
        offset.trans atStart.symm⟩

/-- An undisturbed start request ends in one of these ways. -/
theorem handleStartIndex_outcome (held : Held session vaultId stored) {answers : ChainAnswers}
    {vaultIdHex : Text} {startBlock : Nat} {endBlock : Option Nat}
    (calm : StartUndisturbed session answers vaultIdHex startBlock endBlock) :
    StartOutcome session answers vaultIdHex startBlock endBlock
      (handleStartIndex session answers vaultIdHex startBlock endBlock) := by
  cases decoded : decodeVaultId vaultIdHex with
  | error error =>
      simp only [handleStartIndex, decoded]
      exact .refused error
  | ok other =>
      have calm := calm other decoded
      cases head : (endBlock <|> answers.head) with
      | none =>
          simp only [head] at calm
          simp only [handleStartIndex, decoded, head]
          exact .rebound other _ calm
      | some last =>
          simp only [head] at calm
          by_cases ordered : last < startBlock
          · rw [if_pos ordered] at calm
            simp only [handleStartIndex, decoded, head, ordered, if_true]
            exact .rebound other _ calm
          · rw [if_neg ordered] at calm
            exact handleStartIndex_indexes held decoded head ordered calm

theorem Spent.responses (spent : Spent session) (drains : List DrainRequest) :
    (responses session drains).map delivered = drains.map fun _ => [] := by
  obtain ⟨vaultId, stored, stores, drained⟩ := spent
  exact responses_drained stores drained drains

/-- Two sessions with nothing left to hand over deliver the same. -/
theorem Spent.sameDeliveries {after : IndexerSession} (before : Spent session)
    (finish : Spent after) : SameDeliveries session after := by
  intro drains
  rw [before.responses, finish.responses]

theorem SameTable.sameDeliveries {after : IndexerSession} (same : SameTable session after) :
    SameDeliveries session after := by
  intro drains
  rw [responses_sameTable same]

/-- Binding another vault changes nothing once every row has been handed over. -/
theorem KeepsVault.cases (held : Held session vaultId stored) {other : Bytes32}
    (keeps : KeepsVault session other) :
    session.boundVault = some other ∨ session.nextPullOffset = stored.length := by
  rcases keeps with bound | drained
  · exact .inl bound
  · rw [held.stores.length_rows] at drained
    exact .inr (Nat.le_antisymm held.inside drained)

/-- The vault's events are handed over in order, each once and as they were verified. -/
theorem Stores.delivers (stores : Stores session vaultId stored)
    (bound : session.boundVault = some vaultId) (atStart : session.nextPullOffset = 0)
    (fits : ∀ event ∈ stored, Fits event) :
    Delivers session (stored.map IndexedEvent.fromVerified) := by
  have whole : stored.map storedEvent = stored.map IndexedEvent.fromVerified := by
    apply List.map_congr_left
    intro event member
    obtain ⟨sequence, block, log⟩ := fits event member
    simp only [storedEvent, Nat.min_eq_left sequence, Nat.min_eq_left block, Nat.min_eq_left log,
      IndexedEvent.fromVerified]
  intro drains
  rw [responses_stores stores bound (by omega), atStart, List.drop_zero, whole]

section

variable {answers : ChainAnswers} {vaultIdHex : Text} {startBlock : Nat} {endBlock : Option Nat}
variable {handled : Handled}

/-- Every way an undisturbed start request ends leaves one vault's events. -/
theorem StartOutcome.held (held : Held session vaultId stored)
    (outcome : StartOutcome session answers vaultIdHex startBlock endBlock handled) :
    ∃ vaultId stored, Held handled.1 vaultId stored := by
  cases outcome with
  | refused error => exact ⟨vaultId, stored, held⟩
  | rebound other error keeps =>
      have stores := held.stores
      refine ⟨vaultId, stored, ⟨stores.db, stores.counter, stores.few, stores.ofVault⟩,
        held.inside, ?_⟩
      rcases keeps.cases held with bound | drained
      · rcases held.bound with current | drained
        · exact .inl (bound.symm.trans current)
        · exact .inr drained
      · exact .inr drained
  | failed other kept after error finish _ => exact ⟨other, kept, finish⟩
  | indexed other last after response _ _ finish bound offset _ =>
      exact ⟨other, _, finish, offset.trans_le (Nat.zero_le _), .inl bound⟩

/-- Each of them keeps the promise. -/
theorem StartOutcome.delivers
    (outcome : StartOutcome session answers vaultIdHex startBlock endBlock handled)
    {response : IndexerResponse} {other : Bytes32} {last : Nat} (returned : handled.2 = .ok response)
    (decoded : decodeVaultId vaultIdHex = .ok other)
    (head : (endBlock <|> answers.head) = some last) :
    Delivers handled.1
      ((verifiedEvents other startBlock last answers).map IndexedEvent.fromVerified) := by
  cases outcome with
  | refused error => cases returned
  | rebound other error keeps => cases returned
  | failed other kept after error finish _ => cases returned
  | indexed named final after response decoded' head' finish bound offset fits =>
      have vault : named = other := Except.ok.inj (decoded'.symm.trans decoded)
      have block : final = last := Option.some.inj (head'.symm.trans head)
      subst vault block
      exact finish.delivers bound offset fits

theorem StartOutcome.unchanged (held : Held session vaultId stored)
    (outcome : StartOutcome session answers vaultIdHex startBlock endBlock handled)
    {error : IndexerError} (returned : handled.2 = .error error) :
    SameDeliveries session handled.1 := by
  cases outcome with
  | refused error => exact fun _ => rfl
  | rebound other error keeps =>
      have stores := held.stores
      rcases keeps.cases held with bound | drained
      · exact SameTable.sameDeliveries ⟨rfl, rfl, bound.symm, rfl⟩
      · have before : Spent session := ⟨vaultId, stored, stores, drained⟩
        exact before.sameDeliveries ⟨vaultId, stored,
          ⟨stores.db, stores.counter, stores.few, stores.ofVault⟩, drained⟩
  | failed other kept after error finish same =>
      rcases same with table | ⟨before, after⟩
      · exact table.sameDeliveries
      · exact before.sameDeliveries after
  | indexed => cases returned

end

/-- A pull moves the position within the table. -/
theorem handlePull_held (held : Held session vaultId stored) (batchSize : Nat) :
    Held (handlePull session batchSize).1 vaultId stored := by
  rcases held.bound with bound | drained
  · obtain ⟨offset, inside, pulled, -⟩ := handlePull_stores held.stores bound held.inside batchSize
    rw [pulled]
    exact ⟨held.stores.at_offset offset, inside, .inl bound⟩
  · rw [(handlePull_drained held.stores drained batchSize).1]
    exact held

end

/-- The promise of a request holds whenever its condition does, and the request leaves the
table of one vault again. -/
theorem handleRequest_faithful {session : IndexerSession} {vaultId : Bytes32}
    {stored : List VerifiedRevisionEvent} (held : Held session vaultId stored)
    (request : ChainAnswers × IndexerRequest) (calm : Undisturbed session request) :
    Faithful session request ∧ ∃ vaultId stored, Held (indexerStep session request) vaultId stored := by
  obtain ⟨answers, request⟩ := request
  cases request with
  | startIndex vaultIdHex startBlock endBlock =>
      have outcome := handleStartIndex_outcome held calm
      refine ⟨⟨?_, ?_⟩, outcome.held held⟩
      · intro response other last returned decoded head
        exact outcome.delivers returned decoded head
      · intro error returned
        exact outcome.unchanged held returned
  | pull batchSize => exact ⟨trivial, vaultId, stored, handlePull_held held batchSize⟩
  | heartbeat => exact ⟨trivial, vaultId, stored, held⟩
  | stop => exact ⟨trivial, vaultId, stored, held⟩

/-- In a run whose requests all meet the condition, every request keeps its promise: after a
start request the batches are the vault's events in fetch order, each once, and a start
request that fails changes nothing of what is delivered. -/
theorem indexer_delivers_once {key : PageKey} {session : IndexerSession}
    (run : Reaches indexerStep Undisturbed (IndexerSession.new key) session)
    (request : ChainAnswers × IndexerRequest) (calm : Undisturbed session request) :
    Faithful session request := by
  have fresh : Held (IndexerSession.new key) (Vector.replicate 32 0) [] :=
    ⟨⟨rfl, rfl, Nat.zero_le _, fun _ member => nomatch member⟩, Nat.le_refl 0, .inr rfl⟩
  have held := run.invariant (fun session => ∃ vaultId stored, Held session vaultId stored)
    (fun _ request held calm => by
      obtain ⟨vaultId, stored, held⟩ := held
      exact (handleRequest_faithful held request calm).2)
    ⟨_, _, fresh⟩
  obtain ⟨vaultId, stored, held⟩ := held
  exact (handleRequest_faithful held request calm).1

/-! ## Runs -/

namespace IndexerSample

/-- The first vault's blocks 1 to 5, with the revision in them. -/
def first : ChainAnswers × IndexerRequest :=
  (⟨none, [fun _ _ => some [event]]⟩, .startIndex (vaultHex 1) 1 (some 5))

/-- The same blocks for a second vault, which has no revisions. -/
def second : ChainAnswers × IndexerRequest :=
  (⟨none, [fun _ _ => some []]⟩, .startIndex (vaultHex 2) 1 (some 5))

def drain : ChainAnswers × IndexerRequest := (⟨none, []⟩, .pull 10)

def fresh : IndexerSession := .new ⟨0⟩

def indexed : IndexerSession := indexerStep fresh first

end IndexerSample

/-- After the batch of the first vault, a start request for the second that cannot learn the
head changes nothing. -/
theorem indexer_delivers_once_failed_head :
    Faithful (indexerStep IndexerSample.indexed IndexerSample.drain)
      (⟨none, []⟩, .startIndex (IndexerSample.vaultHex 2) 1 none) := by
  have decoded : decodeVaultId (IndexerSample.vaultHex 1) = .ok (IndexerSample.vault 1) := by
    decide +kernel
  have indexes : Undisturbed IndexerSample.fresh IndexerSample.first := by
    intro vaultId named
    have vault : IndexerSample.vault 1 = vaultId := Except.ok.inj (decoded.symm.trans named)
    subst vault
    refine ⟨by decide +kernel, ?_⟩
    rw [if_pos (by decide +kernel)]
    refine ⟨rfl, by decide +kernel, by decide +kernel, ?_⟩
    have events : verifiedEvents (IndexerSample.vault 1) 1 5 IndexerSample.first.1 =
        [IndexerSample.event] := by decide +kernel
    intro event member
    have found := events ▸ member
    rw [List.mem_singleton.mp found]
    exact ⟨Nat.zero_le _, by decide +kernel, Nat.zero_le _⟩
  have run : Reaches indexerStep Undisturbed IndexerSample.fresh
      (indexerStep IndexerSample.indexed IndexerSample.drain) := by
    have drained : Undisturbed IndexerSample.indexed IndexerSample.drain := trivial
    exact .tail IndexerSample.drain (.tail IndexerSample.first .refl indexes) drained
  apply indexer_delivers_once run
  intro vaultId _
  exact .inr (by decide +kernel)

/-- After the first vault, a start request for the second succeeds, and the pull after it
fails on a row of the first; one for the first again is followed by its revision twice. -/
theorem second_start_reads_first_rows :
    Reaches indexerStep (fun _ _ => True) IndexerSample.fresh IndexerSample.indexed ∧
      ¬ Faithful IndexerSample.indexed IndexerSample.second ∧
      ¬ Faithful IndexerSample.indexed IndexerSample.first := by
  refine ⟨.tail IndexerSample.first .refl trivial, ?_, ?_⟩
  · intro faithful
    have promised := faithful.delivers (.started 1 (IndexerSample.vaultHex 2))
      (IndexerSample.vault 2) 5 (by decide +kernel) (by decide +kernel) rfl [.pull 10]
    exact absurd promised (by decide +kernel)
  · intro faithful
    have promised := faithful.delivers (.started 1 (IndexerSample.vaultHex 1))
      (IndexerSample.vault 1) 5 (by decide +kernel) (by decide +kernel) rfl [.pull 10]
    exact absurd promised (by decide +kernel)

end Pangolin.Indexer
