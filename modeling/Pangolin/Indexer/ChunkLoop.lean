import Pangolin.Indexer.StartRuns
import Pangolin.Lib.Ranges

/-!
# The blocks a start request covers

The fetch loop of a start request asks for one block range a turn.  Here it is a machine that
takes an answer at each turn, so that the ranges it asks for can be told, and so that it can
go on for ever.  `runChunkLoop` is what this machine leaves behind.
-/

namespace Pangolin.Indexer

open Ranges

/-! ## The loop as a machine -/

/-- The loop is about to fetch at a cursor, or it has returned. -/
inductive ChunkLoop where
  | fetching (cursor : Nat) (session : IndexerSession)
  | returned (session : IndexerSession) (result : Except IndexerError Unit)

/-- The test at the head of the loop. -/
def chunkHead (cursor : Nat) (session : IndexerSession) : ChunkLoop :=
  if cursor ≤ session.endBlock then .fetching cursor session else .returned session (.ok ())

/-- The body of the loop for one answer, and the test after it. -/
def chunkTurn (vaultId : Bytes32) (fetch : Fetch) : ChunkLoop → ChunkLoop
  | .returned session result => .returned session result
  | .fetching cursor session =>
      let last := chunkEnd cursor session.endBlock
      match fetch cursor last with
      | none => .returned session (.error .chainSync)
      | some verified =>
          match persistChunk vaultId session verified with
          | (session, .error error) => .returned session (.error error)
          | (session, .ok ()) =>
              let session := { session with lastProcessedBlock := last }
              let next := saturatingAdd last 1
              if next = 0 then .returned session (.ok ()) else chunkHead next session

/-- The range asked for in the next turn. -/
def ChunkLoop.asks : ChunkLoop → List (Nat × Nat)
  | .fetching cursor session => [(cursor, chunkEnd cursor session.endBlock)]
  | .returned .. => []

/-- The ranges asked for while the answers come in. -/
def chunkRanges (vaultId : Bytes32) : ChunkLoop → List Fetch → List (Nat × Nat)
  | _, [] => []
  | loop, fetch :: fetches =>
      loop.asks ++ chunkRanges vaultId (chunkTurn vaultId fetch loop) fetches

def chunkTurns (vaultId : Bytes32) (loop : ChunkLoop) (fetches : List Fetch) : ChunkLoop :=
  fetches.foldl (fun loop fetch => chunkTurn vaultId fetch loop) loop

/-- What the loop has returned.  One that goes on fetches in vain when the answers end. -/
def ChunkLoop.outcome : ChunkLoop → IndexerSession × Except IndexerError Unit
  | .fetching _ session => (session, .error .chainSync)
  | .returned session result => (session, result)

section

variable {vaultId : Bytes32} {session after : IndexerSession} {cursor : Nat}

theorem chunkTurns_returned (result : Except IndexerError Unit) (fetches : List Fetch) :
    chunkTurns vaultId (.returned session result) fetches = .returned session result := by
  induction fetches with
  | nil => rfl
  | cons fetch fetches ih => exact ih

theorem chunkTurns_cons (loop : ChunkLoop) (fetch : Fetch) (fetches : List Fetch) :
    chunkTurns vaultId loop (fetch :: fetches) =
      chunkTurns vaultId (chunkTurn vaultId fetch loop) fetches := rfl

/-- `runChunkLoop` is the machine on the same answers. -/
theorem runChunkLoop_eq_outcome (fetches : List Fetch) :
    runChunkLoop vaultId cursor fetches session =
      (chunkTurns vaultId (chunkHead cursor session) fetches).outcome := by
  induction fetches generalizing cursor session with
  | nil =>
      by_cases due : cursor ≤ session.endBlock
      · simp [runChunkLoop, chunkTurns, chunkHead, due, ChunkLoop.outcome]
      · simp [runChunkLoop, chunkTurns, chunkHead, due, ChunkLoop.outcome]
  | cons fetch fetches ih =>
      rw [runChunkLoop, chunkHead]
      by_cases due : cursor ≤ session.endBlock
      · rw [if_pos due, if_pos due, chunkTurns_cons, chunkTurn]
        cases answer : fetch cursor (chunkEnd cursor session.endBlock) with
        | none => simp only [answer, chunkTurns_returned, ChunkLoop.outcome]
        | some verified =>
            simp only [answer]
            obtain ⟨persisted, result⟩ := persistChunk vaultId session verified
            cases result with
            | error error => simp only [chunkTurns_returned, ChunkLoop.outcome]
            | ok _ =>
                by_cases wrapped : saturatingAdd (chunkEnd cursor session.endBlock) 1 = 0
                · simp only [wrapped, if_true, chunkTurns_returned, ChunkLoop.outcome]
                · simp only [wrapped, if_false, ih]
      · rw [if_neg due, if_neg due, chunkTurns_returned, ChunkLoop.outcome]

/-- The loop has returned without an error when the machine has. -/
theorem runChunkLoop_returns {fetches : List Fetch} (due : cursor ≤ session.endBlock) :
    runChunkLoop vaultId cursor fetches session = (after, .ok ()) ↔
      chunkTurns vaultId (.fetching cursor session) fetches = .returned after (.ok ()) := by
  rw [runChunkLoop_eq_outcome, chunkHead, if_pos due]
  cases chunkTurns vaultId (.fetching cursor session) fetches with
  | fetching other left => simp [ChunkLoop.outcome]
  | returned left result => simp [ChunkLoop.outcome]

/-! ## Storing chunk after chunk -/

/-- The session with another last block noted. -/
def IndexerSession.processed (session : IndexerSession) (block : Nat) : IndexerSession :=
  { session with lastProcessedBlock := block }

variable (vaultId session) in
theorem persistEvent_endBlock (event : VerifiedRevisionEvent) :
    (persistEvent vaultId session event).1.endBlock = session.endBlock := by
  unfold persistEvent
  by_cases other : event.vaultId ≠ vaultId
  · rw [if_pos other]
  · rw [if_neg other]
    dsimp only
    split <;> rfl

theorem persistEvent_processed (event : VerifiedRevisionEvent) (block : Nat) :
    persistEvent vaultId (session.processed block) event =
      ((persistEvent vaultId session event).1.processed block,
        (persistEvent vaultId session event).2) := by
  unfold persistEvent
  by_cases other : event.vaultId ≠ vaultId
  · rw [if_pos other, if_pos other]
  · rw [if_neg other, if_neg other]
    dsimp only [IndexerSession.processed]
    split <;> rfl

variable (vaultId session) in
theorem persistChunk_endBlock (events : List VerifiedRevisionEvent) :
    (persistChunk vaultId session events).1.endBlock = session.endBlock := by
  induction events generalizing session with
  | nil => rfl
  | cons event events ih =>
      have step := persistEvent_endBlock vaultId session event
      rw [persistChunk]
      split
      · next stored => rwa [stored] at step
      · next stored =>
          rw [stored] at step
          exact (ih _).trans step

theorem persistChunk_processed (events : List VerifiedRevisionEvent) (block : Nat) :
    persistChunk vaultId (session.processed block) events =
      ((persistChunk vaultId session events).1.processed block,
        (persistChunk vaultId session events).2) := by
  induction events generalizing session with
  | nil => rfl
  | cons event events ih =>
      rw [persistChunk, persistChunk, persistEvent_processed]
      obtain ⟨stored, result⟩ := persistEvent vaultId session event
      cases result with
      | error error => rfl
      | ok _ => exact ih

theorem persistChunk_append (first second : List VerifiedRevisionEvent) :
    (persistChunk vaultId session (first ++ second)).2 = .ok () ↔
      (persistChunk vaultId session first).2 = .ok () ∧
        (persistChunk vaultId (persistChunk vaultId session first).1 second).2 = .ok () := by
  induction first generalizing session with
  | nil => simp [persistChunk]
  | cons event first ih =>
      rw [List.cons_append, persistChunk, persistChunk]
      obtain ⟨stored, result⟩ := persistEvent vaultId session event
      cases result with
      | error error => simp
      | ok _ => exact ih

/-! ## Answers that succeed -/

/-- A fetch that succeeds with the events of a block range. -/
def succeeding (answer : Nat → Nat → List VerifiedRevisionEvent) : Fetch :=
  fun first last => some (answer first last)

/-- The first answers of a chain on which every fetch succeeds. -/
def answered (answers : Nat → Nat → Nat → List VerifiedRevisionEvent) (turns : Nat) :
    List Fetch :=
  ((List.range turns).map answers).map succeeding

/-- The sum saturates instead of wrapping round, so that it is not zero. -/
theorem saturatingAdd_one_ne_zero (block : Nat) : saturatingAdd block 1 ≠ 0 := by
  rw [saturatingAdd, u64Max]
  omega

/-- A turn whose fetch succeeds goes back to the head of the loop unless an insert fails. -/
theorem chunkTurn_succeeding (answer : Nat → Nat → List VerifiedRevisionEvent) :
    let last := chunkEnd cursor session.endBlock
    let stored := persistChunk vaultId session (answer cursor last)
    chunkTurn vaultId (succeeding answer) (.fetching cursor session) =
      match stored.2 with
      | .error error => .returned stored.1 (.error error)
      | .ok () => chunkHead (saturatingAdd last 1) (stored.1.processed last) := by
  dsimp only [chunkTurn, succeeding]
  obtain ⟨stored, result⟩ :=
    persistChunk vaultId session (answer cursor (chunkEnd cursor session.endBlock))
  cases result with
  | error error => rfl
  | ok _ => exact if_neg (saturatingAdd_one_ne_zero _)

theorem chunkRanges_returned (result : Except IndexerError Unit) (fetches : List Fetch) :
    chunkRanges vaultId (.returned session result) fetches = [] := by
  induction fetches with
  | nil => rfl
  | cons fetch fetches ih => exact ih

/-- The numbers from `first` to `last` in pieces of at most `width`. -/
structure Covered (first last width : Nat) (ranges : List (Nat × Nat)) : Prop where
  tiling : Tiling first last ranges
  narrow : ∀ range ∈ ranges, (numbers range).length ≤ width

theorem Covered.cons {first middle last width : Nat} {ranges : List (Nat × Nat)}
    (ordered : first ≤ middle) (narrow : middle < first + width)
    (rest : Covered (middle + 1) last width ranges) :
    Covered first last width ((first, middle) :: ranges) := by
  refine ⟨.next ordered rest.tiling, ?_⟩
  intro range member
  rcases List.mem_cons.mp member with rfl | later
  · rw [numbers, List.length_range']
    omega
  · exact rest.narrow range later

theorem Covered.single {first last width : Nat} (ordered : first ≤ last)
    (narrow : last < first + width) : Covered first last width [(first, last)] := by
  refine ⟨.last ordered, ?_⟩
  intro range member
  rw [List.mem_singleton.mp member, numbers, List.length_range']
  omega

variable {answers : List (Nat → Nat → List VerifiedRevisionEvent)}

/-- The events of a range are those of its first chunk and those after it. -/
theorem fetchAll_succeeding {last : Nat} (due : cursor ≤ last)
    (answer : Nat → Nat → List VerifiedRevisionEvent) :
    fetchAll last cursor (succeeding answer :: answers.map succeeding) =
      let finish := min (cursor + 8999) last
      let rest := fetchAll last (finish + 1) (answers.map succeeding)
      (answer cursor finish ++ rest.1, rest.2) := by
  rw [fetchAll, if_pos due]
  rfl

/-- Below the largest block number a turn without a failing insert goes on right after its
chunk. -/
theorem chunkTurn_advances (inside : session.endBlock < u64Max)
    {answer : Nat → Nat → List VerifiedRevisionEvent} {last : Nat}
    (ends : last = min (cursor + 8999) session.endBlock)
    (inserts : (persistChunk vaultId session (answer cursor last)).2 = .ok ()) :
    chunkTurn vaultId (succeeding answer) (.fetching cursor session) =
      chunkHead (last + 1) ((persistChunk vaultId session (answer cursor last)).1.processed
        last) := by
  have finish : chunkEnd cursor session.endBlock = last :=
    (chunkEnd_of_le (Nat.le_of_lt inside)).trans ends.symm
  have advance : saturatingAdd last 1 = last + 1 := by
    rw [saturatingAdd]
    omega
  rw [chunkTurn_succeeding]
  simp only [finish, inserts, advance]

/-- With enough answers, and as long as no insert fails, the loop returns at the end of the
range after asking for each of its blocks once. -/
theorem chunkTurns_covers (due : cursor ≤ session.endBlock) (inside : session.endBlock < u64Max)
    (enough : session.endBlock + 1 - cursor ≤ answers.length)
    (inserts : (persistChunk vaultId session
      (fetchAll session.endBlock cursor (answers.map succeeding)).1).2 = .ok ()) :
    ∃ after, chunkTurns vaultId (.fetching cursor session) (answers.map succeeding) =
        .returned after (.ok ()) ∧ after.lastProcessedBlock = session.endBlock ∧
      Covered cursor session.endBlock chainSyncLogBlockChunk
        (chunkRanges vaultId (.fetching cursor session) (answers.map succeeding)) := by
  induction answers generalizing cursor session with
  | nil =>
      rw [List.length_nil] at enough
      omega
  | cons answer answers ih =>
      rw [List.map_cons, fetchAll_succeeding due, persistChunk_append] at inserts
      rw [List.length_cons] at enough
      generalize ends : min (cursor + 8999) session.endBlock = last at inserts
      obtain ⟨first, later⟩ := inserts
      have turn := chunkTurn_advances inside ends.symm first
      have finish : chunkEnd cursor session.endBlock = last :=
        (chunkEnd_of_le (Nat.le_of_lt inside)).trans ends
      have width : chainSyncLogBlockChunk = 9000 := rfl
      have narrow : last < cursor + chainSyncLogBlockChunk := by omega
      have unchanged := persistChunk_endBlock vaultId session
        (answer cursor last)
      generalize stored : (persistChunk vaultId session (answer cursor last)).1 = after at *
      rw [List.map_cons, chunkTurns_cons, chunkRanges, turn, ChunkLoop.asks, finish]
      by_cases final : last = session.endBlock
      · have past : ¬ last + 1 ≤ (after.processed last).endBlock := by
          simp only [IndexerSession.processed, unchanged]
          omega
        rw [chunkHead, if_neg past, chunkTurns_returned, chunkRanges_returned]
        refine ⟨_, rfl, final, ?_⟩
        rw [final] at narrow ⊢
        exact .single due narrow
      · have more : last + 1 ≤ (after.processed last).endBlock := by
          simp only [IndexerSession.processed, unchanged]
          omega
        have inserted : (persistChunk vaultId (after.processed last)
            (fetchAll (after.processed last).endBlock (last + 1)
              (answers.map succeeding)).1).2 = .ok () := by
          rw [persistChunk_processed]
          simp only [IndexerSession.processed, unchanged]
          exact later
        have fewer : (after.processed last).endBlock + 1 - (last + 1) ≤ answers.length := by
          simp only [IndexerSession.processed, unchanged]
          omega
        have below : (after.processed last).endBlock < u64Max := by
          simpa only [IndexerSession.processed, unchanged] using inside
        obtain ⟨ended, returns, processed, covered⟩ := ih more below fewer inserted
        have same : (after.processed last).endBlock = session.endBlock := unchanged
        rw [same] at processed covered
        rw [chunkHead, if_pos more]
        exact ⟨ended, returns, processed, .cons (by omega) narrow covered⟩

/-- A loop that returns without an error has stored every event it was given. -/
theorem inserts_of_chunkTurns (due : cursor ≤ session.endBlock)
    (inside : session.endBlock < u64Max)
    (returns : chunkTurns vaultId (.fetching cursor session) (answers.map succeeding) =
      .returned after (.ok ())) :
    (persistChunk vaultId session
      (fetchAll session.endBlock cursor (answers.map succeeding)).1).2 = .ok () := by
  induction answers generalizing cursor session with
  | nil => cases returns
  | cons answer answers ih =>
      rw [List.map_cons, fetchAll_succeeding due, persistChunk_append]
      rw [List.map_cons, chunkTurns_cons] at returns
      generalize ends : min (cursor + 8999) session.endBlock = last
      have unchanged := persistChunk_endBlock vaultId session
        (answer cursor last)
      cases first : (persistChunk vaultId session (answer cursor last)).2 with
      | error error =>
          have finish : chunkEnd cursor session.endBlock = last :=
            (chunkEnd_of_le (Nat.le_of_lt inside)).trans ends
          rw [chunkTurn_succeeding] at returns
          simp only [finish, first, chunkTurns_returned] at returns
          cases returns
      | ok _ =>
          rw [chunkTurn_advances inside ends.symm first] at returns
          generalize (persistChunk vaultId session (answer cursor last)).1 = stored at *
          refine ⟨rfl, ?_⟩
          by_cases final : last = session.endBlock
          · rw [final, fetchAll_past (Nat.lt_succ_self _)]
            rfl
          · have more : last + 1 ≤ (stored.processed last).endBlock := by
              simp only [IndexerSession.processed, unchanged]
              omega
            have below : (stored.processed last).endBlock < u64Max := by
              simpa only [IndexerSession.processed, unchanged] using inside
            rw [chunkHead, if_pos more] at returns
            have later := ih more below returns
            rw [persistChunk_processed] at later
            simpa only [IndexerSession.processed, unchanged] using later

/-- At the largest block number the cursor stays where it is, and the loop never returns
without an error. -/
theorem chunkTurns_last_block (due : cursor ≤ session.endBlock)
    (largest : session.endBlock = u64Max) :
    chunkTurns vaultId (.fetching cursor session) (answers.map succeeding) ≠
      .returned after (.ok ()) := by
  induction answers generalizing cursor session with
  | nil => nofun
  | cons answer answers ih =>
      rw [List.map_cons, chunkTurns_cons, chunkTurn_succeeding]
      have unchanged := persistChunk_endBlock vaultId session
        (answer cursor (chunkEnd cursor session.endBlock))
      split
      · rw [chunkTurns_returned]
        nofun
      · generalize (persistChunk vaultId session
          (answer cursor (chunkEnd cursor session.endBlock))).1 = stored at *
        generalize chunkEnd cursor session.endBlock = last
        have again : saturatingAdd last 1 ≤ (stored.processed last).endBlock := by
          simp only [IndexerSession.processed, unchanged, largest]
          exact Nat.min_le_right _ _
        rw [chunkHead, if_pos again]
        exact ih again (unchanged.trans largest)

/-- Answers after the end of the range are not used. -/
theorem fetchAll_enough {last : Nat} (enough : last + 1 - cursor ≤ answers.length)
    (more : List Fetch) :
    fetchAll last cursor (answers.map succeeding ++ more) =
      fetchAll last cursor (answers.map succeeding) := by
  induction answers generalizing cursor with
  | nil =>
      rw [List.length_nil] at enough
      rw [fetchAll_past (by omega), fetchAll_past (by omega)]
  | cons answer answers ih =>
      by_cases due : cursor ≤ last
      · rw [List.length_cons] at enough
        rw [List.map_cons, List.cons_append, fetchAll, fetchAll, if_pos due, if_pos due]
        simp only [succeeding]
        rw [ih (by omega)]
      · rw [fetchAll_past (by omega), fetchAll_past (by omega)]

end

/-! ## What the loop covers -/

section

variable (vaultId : Bytes32) (session : IndexerSession)
variable (answers : Nat → Nat → Nat → List VerifiedRevisionEvent)

/-- The events of the session's blocks. -/
def rangeEvents : List VerifiedRevisionEvent :=
  (fetchAll session.endBlock session.startBlock
    (answered answers (session.endBlock + 1 - session.startBlock))).1

/-- After some turns the loop has returned, and the ranges it has asked for cover the
session's blocks. -/
structure ReturnsCovered (turns : Nat) (after : IndexerSession) (ranges : List (Nat × Nat)) :
    Prop where
  returned : runChunkLoop vaultId session.startBlock (answered answers turns) session =
    (after, .ok ())
  asked : ranges =
    chunkRanges vaultId (chunkHead session.startBlock session) (answered answers turns)
  consecutive : ranges.IsChain fun first second => second.1 = first.2 + 1
  disjoint : ranges.Pairwise fun first second => (numbers first).Disjoint (numbers second)
  narrow : ∀ range ∈ ranges, (numbers range).length ≤ chainSyncLogBlockChunk
  covers : ∀ block, (∃ range ∈ ranges, block ∈ numbers range) ↔
    session.startBlock ≤ block ∧ block ≤ session.endBlock
  processed : after.lastProcessedBlock = session.endBlock

theorem answered_add (turns more : Nat) : ∃ later,
    answered answers (turns + more) = answered answers turns ++ later := by
  refine ⟨(((List.range more).map (turns + ·)).map answers).map succeeding, ?_⟩
  rw [answered, List.range_add, List.map_append, List.map_append]
  rfl

variable {vaultId session answers}

theorem ReturnsCovered.inserts {turns : Nat} {after : IndexerSession}
    {ranges : List (Nat × Nat)} (ordered : session.startBlock ≤ session.endBlock)
    (inside : session.endBlock < u64Max)
    (ended : ReturnsCovered vaultId session answers turns after ranges) :
    (persistChunk vaultId session (rangeEvents session answers)).2 = .ok () := by
  have stopped := (runChunkLoop_returns ordered).mp ended.returned
  generalize lengthEq : session.endBlock + 1 - session.startBlock = blocks at *
  obtain ⟨late, first⟩ := answered_add answers turns blocks
  obtain ⟨more, second⟩ := answered_add answers blocks turns
  have longer : chunkTurns vaultId (.fetching session.startBlock session)
      (answered answers (turns + blocks)) = .returned after (.ok ()) := by
    rw [first, chunkTurns, List.foldl_append]
    exact (congrArg (chunkTurns vaultId · late) stopped).trans (chunkTurns_returned ..)
  have stored := inserts_of_chunkTurns ordered inside longer
  have enough : session.endBlock + 1 - session.startBlock ≤
      ((List.range blocks).map answers).length := by
    rw [List.length_map, List.length_range, lengthEq]
  rw [rangeEvents, lengthEq]
  rw [← answered, Nat.add_comm, second, answered, fetchAll_enough enough] at stored
  exact stored

/-- The chunk loop returns with its range covered exactly when the range ends below the
largest block number and every event of it can be stored. -/
theorem returnsCovered_iff (ordered : session.startBlock ≤ session.endBlock)
    (bounded : session.endBlock ≤ u64Max) :
    (∃ turns after ranges, ReturnsCovered vaultId session answers turns after ranges) ↔
      session.endBlock < u64Max ∧
        (persistChunk vaultId session (rangeEvents session answers)).2 = .ok () := by
  constructor
  · intro ⟨turns, after, ranges, ended⟩
    have inside : session.endBlock < u64Max := by
      apply Nat.lt_of_le_of_ne bounded
      intro largest
      exact chunkTurns_last_block ordered largest
        ((runChunkLoop_returns ordered).mp ended.returned)
    exact ⟨inside, ended.inserts ordered inside⟩
  · intro ⟨inside, inserts⟩
    obtain ⟨after, returned, processed, covered⟩ := chunkTurns_covers ordered inside
      (by rw [List.length_map, List.length_range]) inserts
    refine ⟨session.endBlock + 1 - session.startBlock, after, _,
      (runChunkLoop_returns ordered).mpr returned, rfl, ?_, ?_, ?_, ?_, processed⟩
    all_goals rw [chunkHead, if_pos ordered]
    · exact covered.tiling.consecutive
    · exact covered.tiling.disjoint
    · exact covered.narrow
    · intro block
      exact covered.tiling.covers

/-- Two blocks before the last one are covered in two turns' time. -/
theorem returnsCovered_next_to_last :
    ∃ turns after ranges, ReturnsCovered (Vector.replicate 32 0)
      { IndexerSession.new ⟨0⟩ with startBlock := u64Max - 2, endBlock := u64Max - 1 }
      (fun _ _ _ => []) turns after ranges :=
  (returnsCovered_iff (by decide) (by decide)).mpr ⟨by decide, by decide⟩

/-- A session asked for the block with the largest number. -/
def lastBlockSession : IndexerSession :=
  { IndexerSession.new ⟨0⟩ with startBlock := u64Max, endBlock := u64Max }

/-- Its loop never returns: the saturated cursor asks for that block again and again. -/
theorem lastBlockSession_never_returns :
    lastBlockSession.startBlock ≤ lastBlockSession.endBlock ∧
      lastBlockSession.endBlock ≤ u64Max ∧
      ¬ ∃ turns after ranges, ReturnsCovered (Vector.replicate 32 0) lastBlockSession
        (fun _ _ _ => []) turns after ranges := by
  have due : lastBlockSession.startBlock ≤ lastBlockSession.endBlock := Nat.le_refl _
  refine ⟨due, Nat.le_refl _, ?_⟩
  intro ⟨turns, after, ranges, ended⟩
  exact chunkTurns_last_block due rfl ((runChunkLoop_returns due).mp ended.returned)

end

end Pangolin.Indexer
