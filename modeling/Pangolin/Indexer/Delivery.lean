import Pangolin.Indexer.Session
import Pangolin.Lib.Reaches

/-!
# What an indexer session delivers

After a start request the batches should be the vault's events in the order they were
fetched, each once, and a start request that fails should change nothing of what is
delivered.  Both hold as long as every start request finds an empty table, fetches events
whose integers fit their columns, and does not fail after it has stored events.
-/

namespace Pangolin.Indexer

open Transition

/-! ## The events of a block range -/

/-- What the chain answers for the blocks from a cursor to the last one, chunk by chunk, and
whether every fetch succeeded. -/
def fetchAll (last : Nat) : Nat → List Fetch → List VerifiedRevisionEvent × Bool
  | cursor, [] => ([], last < cursor)
  | cursor, fetch :: fetches =>
      if cursor ≤ last then
        let finish := min (cursor + 8999) last
        match fetch cursor finish with
        | none => ([], false)
        | some verified =>
            let rest := fetchAll last (finish + 1) fetches
            (verified ++ rest.1, rest.2)
      else
        ([], true)

/-- The events of a vault, in the order of the given list. -/
def ofVault (vaultId : Bytes32) (events : List VerifiedRevisionEvent) :
    List VerifiedRevisionEvent :=
  events.filter fun event => event.vaultId = vaultId

/-- The verified events of a vault in a block range, in fetch order. -/
def verifiedEvents (vaultId : Bytes32) (startBlock last : Nat) (answers : ChainAnswers) :
    List VerifiedRevisionEvent :=
  ofVault vaultId (fetchAll last startBlock answers.fetches).1

/-! ## What the host sees between two start requests -/

/-- A request that does not start an index. -/
inductive DrainRequest where
  | pull (batchSize : Nat)
  | heartbeat
  | stop
  deriving Repr, DecidableEq

def DrainRequest.request : DrainRequest → IndexerRequest
  | .pull batchSize => .pull batchSize
  | .heartbeat => .heartbeat
  | .stop => .stop

/-- The responses to a list of such requests. -/
def responses : IndexerSession → List DrainRequest → List (Except IndexerError IndexerResponse)
  | _, [] => []
  | session, drain :: drains =>
      let handled := handleRequest session ⟨none, []⟩ drain.request
      handled.2 :: responses handled.1 drains

/-- The responses that hand over a list in order, each event once: a batch takes as many
events as it asks for, up to the bound on batches, and goes on where the last one ended. -/
def slices : List IndexedEvent → List DrainRequest → List (Except IndexerError IndexerResponse)
  | _, [] => []
  | pending, .pull batchSize :: drains =>
      let limit := min batchSize pullBatchSizeMax
      .ok (.batch (pending.take limit)) :: slices (pending.drop limit) drains
  | pending, .heartbeat :: drains => .ok .heartbeat :: slices pending drains
  | pending, .stop :: drains => .ok .stopped :: slices pending drains

/-- Whatever the host asks for, it gets the list in order, each event once, and no error. -/
def Delivers (session : IndexerSession) (events : List IndexedEvent) : Prop :=
  ∀ drains, responses session drains = slices events drains

/-- The events of a response. -/
def delivered : Except IndexerError IndexerResponse → List IndexedEvent
  | .ok (.batch events) => events
  | _ => []

/-- Whatever the host asks for, both sessions deliver the same events. -/
def SameDeliveries (session session' : IndexerSession) : Prop :=
  ∀ drains, (responses session' drains).map delivered = (responses session drains).map delivered

/-- The batches of slices are a prefix of the list. -/
theorem slices_prefix (pending : List IndexedEvent) (drains : List DrainRequest) :
    (slices pending drains).flatMap delivered <+: pending := by
  induction drains generalizing pending with
  | nil => exact List.nil_prefix
  | cons drain drains ih =>
      cases drain with
      | pull batchSize =>
          have rest := ih (pending.drop (min batchSize pullBatchSizeMax))
          have whole := List.take_append_drop (min batchSize pullBatchSizeMax) pending
          rw [slices, List.flatMap_cons, delivered]
          have extended := (List.prefix_append_right_inj
            (pending.take (min batchSize pullBatchSizeMax))).mpr rest
          rwa [whole] at extended
      | heartbeat => exact ih pending
      | stop => exact ih pending

/-- A pull that asks for something. -/
def DrainRequest.advances : DrainRequest → Bool
  | .pull batchSize => 0 < batchSize
  | _ => false

/-- Pulling on reaches the end of the list. -/
theorem slices_reaches {pending : List IndexedEvent} {drains : List DrainRequest}
    (enough : pending.length ≤ drains.countP DrainRequest.advances) :
    (slices pending drains).flatMap delivered = pending := by
  induction drains generalizing pending with
  | nil =>
      have none_left := List.eq_nil_of_length_eq_zero (Nat.le_zero.mp enough)
      rw [none_left]
      rfl
  | cons drain drains ih =>
      cases drain with
      | pull batchSize =>
          rw [slices, List.flatMap_cons, ih]
          · exact List.take_append_drop _ _
          · rw [List.countP_cons] at enough
            rw [List.length_drop]
            by_cases positive : 0 < batchSize
            · simp only [DrainRequest.advances, positive, decide_true, if_true] at enough
              have taken : 0 < min batchSize pullBatchSizeMax :=
                Nat.lt_min.mpr ⟨positive, by decide⟩
              omega
            · simp only [DrainRequest.advances, positive, decide_false] at enough
              simp only [Bool.false_eq_true, if_false] at enough
              omega
      | heartbeat => exact ih (by simpa [DrainRequest.advances] using enough)
      | stop => exact ih (by simpa [DrainRequest.advances] using enough)

/-! ## The table of one vault -/

/-- The rows of a list of events, from a position on. -/
def sealedRows (key : PageKey) (vaultId : Bytes32) :
    Nat → List VerifiedRevisionEvent → List CachedRevision
  | _, [] => []
  | position, event :: events =>
      sealRow key vaultId (position + 1) position event ::
        sealedRows key vaultId (position + 1) events

/-- The table holds the events of one vault, in order. -/
structure Stores (session : IndexerSession) (vaultId : Bytes32)
    (events : List VerifiedRevisionEvent) : Prop where
  db : session.db = ⟨sealedRows session.key vaultId 0 events, events.length⟩
  counter : session.pageSeqCounter = events.length
  few : events.length ≤ i64Max
  ofVault : ∀ event ∈ events, event.vaultId = vaultId

section

variable {key : PageKey} {vaultId : Bytes32}

theorem sealedRows_append (position : Nat) (first second : List VerifiedRevisionEvent) :
    sealedRows key vaultId position (first ++ second) =
      sealedRows key vaultId position first ++
        sealedRows key vaultId (position + first.length) second := by
  induction first generalizing position with
  | nil => simp [sealedRows]
  | cons event first ih =>
      rw [List.cons_append, sealedRows, ih, sealedRows, List.cons_append, List.length_cons]
      congr 3
      omega

/-- Row ids and page numbers lie in the range of the positions. -/
theorem mem_sealedRows {row : CachedRevision} {position : Nat}
    {events : List VerifiedRevisionEvent} (member : row ∈ sealedRows key vaultId position events) :
    ∃ index event, index < events.length ∧ event ∈ events ∧
      row = sealRow key vaultId (position + index + 1) (position + index) event := by
  induction events generalizing position with
  | nil => cases member
  | cons event events ih =>
      rcases List.mem_cons.mp member with rfl | later
      · exact ⟨0, event, by simp, by simp, rfl⟩
      · obtain ⟨index, other, inside, stored, rfl⟩ := ih later
        refine ⟨index + 1, other, by simpa using inside, List.mem_cons_of_mem _ stored, ?_⟩
        congr 1 <;> omega

theorem sealedRows_ordered (position : Nat) (events : List VerifiedRevisionEvent) :
    (sealedRows key vaultId position events).Pairwise fun first second =>
      first.rowid ≤ second.rowid := by
  induction events generalizing position with
  | nil => exact .nil
  | cons event events ih =>
      refine .cons ?_ (ih (position + 1))
      intro row member
      obtain ⟨index, other, -, -, rfl⟩ := mem_sealedRows member
      simp only [sealRow]
      omega

theorem length_sealedRows (position : Nat) (events : List VerifiedRevisionEvent) :
    (sealedRows key vaultId position events).length = events.length := by
  induction events generalizing position with
  | nil => rfl
  | cons event events ih => simp [sealedRows, ih]

theorem take_sealedRows (limit position : Nat) (events : List VerifiedRevisionEvent) :
    (sealedRows key vaultId position events).take limit =
      sealedRows key vaultId position (events.take limit) := by
  induction limit generalizing position events with
  | zero => rfl
  | succ limit ih =>
      cases events with
      | nil => rfl
      | cons event events => simp [sealedRows, ih]

/-- The rows after a position are those of the events after it. -/
theorem select_sealedRows (events : List VerifiedRevisionEvent) {offset : Nat}
    (inside : offset ≤ events.length) (limit : Nat) :
    TempDb.select ⟨sealedRows key vaultId 0 events, events.length⟩ offset limit =
      sealedRows key vaultId offset ((events.drop offset).take limit) := by
  have front : ∀ row ∈ sealedRows key vaultId 0 (events.take offset),
      ¬ (offset : Int) < row.rowid := by
    intro row member
    obtain ⟨index, other, below, -, rfl⟩ := mem_sealedRows member
    rw [List.length_take, Nat.min_eq_left inside] at below
    simp only [sealRow]
    omega
  have back : ∀ row ∈ sealedRows key vaultId offset (events.drop offset),
      (offset : Int) < row.rowid := by
    intro row member
    obtain ⟨index, other, -, -, rfl⟩ := mem_sealedRows member
    simp only [sealRow]
    omega
  have split : sealedRows key vaultId 0 (events.take offset ++ events.drop offset) =
      sealedRows key vaultId 0 (events.take offset) ++
        sealedRows key vaultId offset (events.drop offset) := by
    rw [sealedRows_append, List.length_take, Nat.min_eq_left inside, Nat.zero_add]
  rw [List.take_append_drop] at split
  have selected : (sealedRows key vaultId 0 events).filter
      (fun row => decide ((offset : Int) < row.rowid)) =
        sealedRows key vaultId offset (events.drop offset) := by
    rw [split, List.filter_append, List.filter_eq_nil_iff.mpr, List.nil_append,
      List.filter_eq_self.mpr]
    · intro row member
      exact decide_eq_true (back row member)
    · intro row member
      simpa using front row member
  unfold TempDb.select
  simp only [selected]
  rw [List.Pairwise.insertionSort_eq (sealedRows_ordered _ _), take_sealedRows]

/-- The rows of a list of events are read back. -/
theorem readRows_sealedRows {position : Nat} {events : List VerifiedRevisionEvent}
    (vault : ∀ event ∈ events, event.vaultId = vaultId)
    (few : position + events.length ≤ i64Max) :
    readRows key vaultId (sealedRows key vaultId position events) =
      .ok (events.map storedEvent) := by
  induction events generalizing position with
  | nil => rfl
  | cons event events ih =>
      rw [List.length_cons] at few
      have head := readRow_sealRow key (position + 1) (vault event (by simp))
        (show position ≤ i64Max by omega)
      have tail := ih (fun other member => vault other (List.mem_cons_of_mem _ member))
        (show position + 1 + events.length ≤ i64Max by omega)
      rw [sealedRows, readRows, head, tail]
      rfl

end

/-! ## Draining -/

section

variable {session session' : IndexerSession} {vaultId : Bytes32}
variable {events : List VerifiedRevisionEvent}

/-- A table of one vault stays so while the position moves. -/
theorem Stores.at_offset (stored : Stores session vaultId events) (offset : Nat) :
    Stores { session with nextPullOffset := offset } vaultId events :=
  ⟨stored.db, stored.counter, stored.few, stored.ofVault⟩

/-- A pull from a table of the bound vault returns the next events. -/
theorem handlePull_stores (stored : Stores session vaultId events)
    (bound : session.boundVault = some vaultId)
    (inside : session.nextPullOffset ≤ events.length) (batchSize : Nat) :
    ∃ offset ≤ events.length, handlePull session batchSize =
        ({ session with nextPullOffset := offset },
          .ok (.batch (((events.map storedEvent).drop session.nextPullOffset).take
            (min batchSize pullBatchSizeMax)))) ∧
      (events.map storedEvent).drop offset =
        ((events.map storedEvent).drop session.nextPullOffset).drop
          (min batchSize pullBatchSizeMax) := by
  generalize limitEq : min batchSize pullBatchSizeMax = limit
  by_cases empty : limit = 0
  · subst empty
    refine ⟨session.nextPullOffset, inside, ?_, by simp⟩
    simp [handlePull, limitEq]
  · have few := stored.few
    have read : readRows session.key vaultId (session.db.select session.nextPullOffset limit) =
        .ok (((events.drop session.nextPullOffset).take limit).map storedEvent) := by
      rw [stored.db, select_sealedRows events inside]
      apply readRows_sealedRows
      · intro event member
        exact stored.ofVault event (List.mem_of_mem_drop (List.mem_of_mem_take member))
      · rw [List.length_take, List.length_drop]
        omega
    have offset : toI64 session.nextPullOffset = session.nextPullOffset :=
      toI64_of_le (inside.trans few)
    have reached : (min ((session.nextPullOffset : Int) +
        (((events.drop session.nextPullOffset).take limit).map storedEvent).length)
          i64Max).toNat =
        session.nextPullOffset + min limit (events.length - session.nextPullOffset) := by
      rw [List.length_map, List.length_take, List.length_drop]
      omega
    refine ⟨session.nextPullOffset + min limit (events.length - session.nextPullOffset),
      by omega, ?_, ?_⟩
    · simp only [handlePull, limitEq, empty, if_false, bound, offset, read, reached]
      rw [List.map_take, List.map_drop]
    · rw [List.drop_drop]
      by_cases whole : limit ≤ events.length - session.nextPullOffset
      · rw [Nat.min_eq_left whole]
      · rw [List.drop_eq_nil_of_le, List.drop_eq_nil_of_le] <;> rw [List.length_map] <;> omega

/-- From a table of the bound vault the host gets the events after the position. -/
theorem responses_stores (stored : Stores session vaultId events)
    (bound : session.boundVault = some vaultId)
    (inside : session.nextPullOffset ≤ events.length) (drains : List DrainRequest) :
    responses session drains =
      slices ((events.map storedEvent).drop session.nextPullOffset) drains := by
  induction drains generalizing session with
  | nil => rfl
  | cons drain drains ih =>
      cases drain with
      | pull batchSize =>
          obtain ⟨offset, reached, pulled, rest⟩ :=
            handlePull_stores stored bound inside batchSize
          have later := ih (stored.at_offset offset) bound reached
          rw [responses, slices, ← rest, ← later]
          simp only [DrainRequest.request, handleRequest, pulled]
      | heartbeat => exact congrArg (_ :: ·) (ih stored bound inside)
      | stop => exact congrArg (_ :: ·) (ih stored bound inside)

/-- Once every row has been handed over, a pull changes and delivers nothing, whatever vault
is bound. -/
theorem handlePull_drained (stored : Stores session vaultId events)
    (drained : session.nextPullOffset = events.length) (batchSize : Nat) :
    (handlePull session batchSize).1 = session ∧
      delivered (handlePull session batchSize).2 = [] := by
  have few := stored.few
  have offset : toI64 session.nextPullOffset = session.nextPullOffset :=
    toI64_of_le (drained ▸ few)
  have none_left (limit : Nat) : session.db.select session.nextPullOffset limit = [] := by
    rw [stored.db, select_sealedRows events (le_of_eq drained), drained]
    simp [sealedRows]
  have stays : (min (session.nextPullOffset + (0 : Nat) : Int) i64Max).toNat =
      session.nextPullOffset := by omega
  unfold handlePull
  by_cases empty : min batchSize pullBatchSizeMax = 0
  · simp [empty, delivered]
  · cases bound : session.boundVault with
    | none => simp [empty, delivered]
    | some other =>
        simp only [empty, if_false, offset, none_left, readRows, List.length_nil, stays]
        exact ⟨by rw [← bound], rfl⟩

theorem responses_drained (stored : Stores session vaultId events)
    (drained : session.nextPullOffset = events.length) (drains : List DrainRequest) :
    (responses session drains).map delivered = drains.map fun _ => [] := by
  induction drains with
  | nil => rfl
  | cons drain drains ih =>
      cases drain with
      | pull batchSize =>
          obtain ⟨same, nothing⟩ := handlePull_drained stored drained batchSize
          rw [responses, List.map_cons, List.map_cons]
          simp only [DrainRequest.request, handleRequest, same, nothing, ih]
      | heartbeat => exact congrArg (_ :: ·) ih
      | stop => exact congrArg (_ :: ·) ih

/-- What a pull reads. -/
structure SameTable (session session' : IndexerSession) : Prop where
  key : session'.key = session.key
  db : session'.db = session.db
  bound : session'.boundVault = session.boundVault
  offset : session'.nextPullOffset = session.nextPullOffset

theorem handlePull_sameTable (same : SameTable session session') (batchSize : Nat) :
    (handlePull session' batchSize).2 = (handlePull session batchSize).2 ∧
      SameTable (handlePull session batchSize).1 (handlePull session' batchSize).1 := by
  unfold handlePull
  rw [same.key, same.db, same.bound, same.offset]
  by_cases empty : min batchSize pullBatchSizeMax = 0
  · simp only [empty, if_true, true_and]
    exact same
  · cases session.boundVault with
    | none =>
        simp only [empty, if_false, true_and]
        exact same
    | some vault =>
        simp only [empty, if_false]
        cases readRows session.key vault (session.db.select (toI64 session.nextPullOffset)
          (min batchSize pullBatchSizeMax)) with
        | error error => exact ⟨rfl, same⟩
        | ok read => exact ⟨rfl, rfl, rfl, rfl, rfl⟩

theorem responses_sameTable (same : SameTable session session') (drains : List DrainRequest) :
    responses session' drains = responses session drains := by
  induction drains generalizing session session' with
  | nil => rfl
  | cons drain drains ih =>
      cases drain with
      | pull batchSize =>
          obtain ⟨answer, after⟩ := handlePull_sameTable same batchSize
          rw [responses, responses]
          simp only [DrainRequest.request, handleRequest, answer, ih after]
      | heartbeat => exact congrArg (_ :: ·) (ih same)
      | stop => exact congrArg (_ :: ·) (ih same)

end

end Pangolin.Indexer
