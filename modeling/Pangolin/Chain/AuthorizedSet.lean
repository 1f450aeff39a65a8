import Pangolin.Lib.Ranges
import Pangolin.Chain.Broadcast
import Pangolin.Contracts.DeviceSet

/-!
# Reading the authorized devices

The client collects every device that an event of the vault names, scanning the blocks up
to the head in chunks, and then asks the contract about each of them.  Every request is
answered by the chain as it is at that moment, and the chain grows in between.
-/

namespace Pangolin.Chain

open Evm RevisionLogV2

/-! ## The chain -/

/-- A log, with the contract that emitted it. -/
structure Log where
  address : Address
  event : Event
  deriving Repr, DecidableEq

/-- The transactions of the revision log in a block, and the logs of other contracts. -/
structure Block where
  transactions : List RevisionLogV2.Transaction
  foreignLogs : List Log
  deriving Repr, DecidableEq

/-- A chain from its genesis on.  Block numbers are `u64`, and only the revision log emits
logs under its address. -/
structure BlockChain (machine : Machine) where
  blocks : List Block
  genesis : 0 < blocks.length
  numbered : blocks.length ≤ 2 ^ 64
  foreign : ∀ block ∈ blocks, ∀ log ∈ block.foreignLogs, log.address ≠ machine.self

/-- The first indexed argument. -/
def topic1 : Event → Bytes32
  | .revisionPublished sequence .. => sequence
  | .vaultBootstrapped vaultId .. => vaultId
  | .deviceAdded vaultId .. => vaultId
  | .deviceRemoved vaultId .. => vaultId
  | .promotionProposed vaultId .. => vaultId
  | .promotionFinalized vaultId .. => vaultId
  | .promotionCanceled vaultId .. => vaultId

namespace BlockChain

variable {machine : Machine} (chain : BlockChain machine)

/-- `eth_blockNumber`. -/
def blockNumber : UInt64 := UInt64.ofNat (chain.blocks.length - 1)

/-- The storage of the contract before a block. -/
def storageBefore (number : Nat) : Storage :=
  Journal.run (execute machine) .empty ((chain.blocks.take number).flatMap Block.transactions)

/-- The storage a view call reads. -/
def storage : Storage := chain.storageBefore chain.blocks.length

/-- The logs of one block. -/
def blockLogs (number : Nat) : List Log :=
  match chain.blocks[number]? with
  | none => []
  | some block =>
      (Journal.events (execute machine) (chain.storageBefore number) block.transactions).map
        (fun event => ⟨machine.self, event⟩) ++ block.foreignLogs

/-- `eth_getLogs`, filtered by address and first topic. -/
def getLogs (contract : Address) (vaultId : Bytes32) (fromBlock toBlock : UInt64) : List Log :=
  ((Ranges.numbers (fromBlock.toNat, toBlock.toNat)).flatMap chain.blockLogs).filter fun log =>
    log.address = contract && topic1 log.event = vaultId

end BlockChain

/-! ## The client -/

inductive DeviceMgmtEvent where
  | bootstrapped (firstSigner manager : Address)
  | added (signer : Address) (nonce : UInt64)
  | removed (signer : Address) (nonce : UInt64)
  | promotionFinalized (newManager : Address)
  deriving Repr, DecidableEq

/-- `decode_device_mgmt_events`. -/
def decodeDeviceMgmtEvents (contract : Address) (logs : List Log) : List DeviceMgmtEvent :=
  logs.filterMap fun log =>
    if log.address ≠ contract then
      none
    else
      match log.event with
      | .vaultBootstrapped _ firstSigner manager _ => some (.bootstrapped firstSigner manager)
      | .deviceAdded _ signer _ nonce _ => some (.added signer nonce)
      | .deviceRemoved _ signer _ nonce _ => some (.removed signer nonce)
      | .promotionFinalized _ _ newManager _ => some (.promotionFinalized newManager)
      | _ => none

/-- The signer an event makes a candidate. -/
def DeviceMgmtEvent.candidate : DeviceMgmtEvent → Option Address
  | .bootstrapped firstSigner _ => some firstSigner
  | .added signer _ | .removed signer _ => some signer
  | .promotionFinalized _ => none

/-- `if !list.contains(&signer) { list.push(signer) }`. -/
def pushNew (signers : List Address) (signer : Address) : List Address :=
  if signers.contains signer then signers else signers ++ [signer]

def collectCandidates (candidates : List Address) (events : List DeviceMgmtEvent) :
    List Address :=
  (events.filterMap DeviceMgmtEvent.candidate).foldl pushNew candidates

/-- A request to the node; `eth_call` is the view of one signer. -/
inductive RpcCall where
  | blockNumber
  | getLogs (fromBlock toBlock : UInt64)
  | authorizedDevice (signer : Address)
  deriving Repr, DecidableEq

/-- The node over time: the chain it answers each request from, and which requests fail. -/
structure Timeline (machine : Machine) where
  chain : Nat → BlockChain machine
  failure : Nat → Option String

section

variable {machine : Machine} (timeline : Timeline machine)

/-- One more request; the requests made so far tell the time. -/
def ask {α : Type} (calls : List RpcCall) (call : RpcCall) (context : String)
    (answer : BlockChain machine → α) : List RpcCall × Except ChainError α :=
  (calls ++ [call],
    match timeline.failure calls.length with
    | some message => .error (.rpc (context ++ message))
    | none => .ok (answer (timeline.chain calls.length)))

/-- `u64::saturating_add`. -/
def saturatingAdd (left right : UInt64) : UInt64 :=
  UInt64.ofNat (min (left.toNat + right.toNat) (2 ^ 64 - 1))

/-- `u64::min`. -/
def minU64 (left right : UInt64) : UInt64 := if left ≤ right then left else right

/-- `DEVICE_MGMT_LOG_BLOCK_CHUNK`. -/
def deviceMgmtLogBlockChunk : UInt64 := 9000

/-- The last block of the chunk that begins at a block. -/
def chunkEnd (fromBlock head : UInt64) : UInt64 :=
  minU64 (saturatingAdd fromBlock (deviceMgmtLogBlockChunk - 1)) head

/-- The first pass, for as many chunks as there is fuel. -/
def scanCandidates (vaultId : Bytes32) (head : UInt64) :
    Nat → UInt64 → List Address → List RpcCall →
      Option (List RpcCall × Except ChainError (List Address))
  | 0, _, _, _ => none
  | fuel + 1, fromBlock, candidates, calls =>
      if fromBlock ≤ head then
        let toBlock := chunkEnd fromBlock head
        match ask timeline calls (.getLogs fromBlock toBlock) "eth_getLogs (device-mgmt): "
            fun chain => chain.getLogs machine.self vaultId fromBlock toBlock with
        | (calls, .error error) => some (calls, .error error)
        | (calls, .ok logs) =>
            let candidates := collectCandidates candidates (decodeDeviceMgmtEvents machine.self logs)
            if toBlock = head then
              some (calls, .ok candidates)
            else
              scanCandidates vaultId head fuel (saturatingAdd toBlock 1) candidates calls
      else
        some (calls, .ok candidates)

/-- The second pass: the live view decides. -/
def crossCheck (vaultId : Bytes32) :
    List Address → List Address → List RpcCall → List RpcCall × Except ChainError (List Address)
  | [], set, calls => (calls, .ok set)
  | signer :: signers, set, calls =>
      match ask timeline calls (.authorizedDevice signer) "authorizedDevice view (set): "
          fun chain => chain.storage.authorizedDevice vaultId signer with
      | (calls, .error error) => (calls, .error error)
      | (calls, .ok live) =>
          crossCheck vaultId signers (if live then pushNew set signer else set) calls

/-- `read_authorized_set_v2`, with the requests it made.  `connected` is the outcome of what
comes before the first of them (deployment, connection, chain id), `bound` that of binding
the contract for the views. -/
def readAuthorizedSetV2 (connected bound : Except ChainError Unit) (vaultId : Bytes32)
    (fromBlock : UInt64) (fuel : Nat) : Option (List RpcCall × Except ChainError (List Address)) :=
  match connected with
  | .error error => some ([], .error error)
  | .ok () =>
      match ask timeline [] .blockNumber "eth_blockNumber: " BlockChain.blockNumber with
      | (calls, .error error) => some (calls, .error error)
      | (calls, .ok head) =>
          match scanCandidates timeline vaultId head fuel (minU64 fromBlock head) [] calls with
          | none => none
          | some (calls, .error error) => some (calls, .error error)
          | some (calls, .ok candidates) =>
              match bound with
              | .error error => some (calls, .error error)
              | .ok () => some (crossCheck timeline vaultId candidates [] calls)

end

/-! ## What the blocks say -/

/-- The device an event of the vault names. -/
def Named (vaultId : Bytes32) (device : Address) : Event → Prop
  | .vaultBootstrapped target firstSigner _ _ => target = vaultId ∧ firstSigner = device
  | .deviceAdded target signer _ _ _ => target = vaultId ∧ signer = device
  | .deviceRemoved target signer _ _ _ => target = vaultId ∧ signer = device
  | _ => False

/-- A device of the fold was there before or is named by an event. -/
theorem named_of_mem_foldl {vaultId : Bytes32} {device : Address} {events : List Event}
    {devices : Finset Address} (member : device ∈ events.foldl (foldDevice vaultId) devices) :
    device ∈ devices ∨ ∃ event ∈ events, Named vaultId device event := by
  induction events generalizing devices with
  | nil => exact .inl member
  | cons event events ih =>
      rcases ih member with before | ⟨later, listed, named⟩
      · have here : device ∈ devices ∨ Named vaultId device event := by
          cases event with
          | vaultBootstrapped | deviceAdded =>
              simp only [foldDevice] at before
              split at before
              · next same =>
                  rcases Finset.mem_insert.mp before with rfl | old
                  · exact .inr ⟨same, rfl⟩
                  · exact .inl old
              · exact .inl before
          | deviceRemoved =>
              simp only [foldDevice] at before
              split at before
              · exact .inl (Finset.mem_of_mem_erase before)
              · exact .inl before
          | revisionPublished | promotionProposed | promotionFinalized | promotionCanceled =>
              exact .inl before
        exact here.imp id fun named => ⟨event, List.mem_cons_self, named⟩
      · exact .inr ⟨later, List.mem_cons_of_mem _ listed, named⟩

/-- An event of a row of blocks belongs to one of them. -/
theorem exists_block_of_mem_events {machine : Machine} {blocks : List Block} {start : Storage}
    {event : Event}
    (listed : event ∈ Journal.events (execute machine) start
      (blocks.flatMap Block.transactions)) :
    ∃ number block, blocks[number]? = some block ∧
      event ∈ Journal.events (execute machine)
        (Journal.run (execute machine) start ((blocks.take number).flatMap Block.transactions))
        block.transactions := by
  induction blocks generalizing start with
  | nil => cases listed
  | cons block blocks ih =>
      rw [List.flatMap_cons, Journal.events, Journal.accepted_append, List.map_append,
        List.mem_append] at listed
      rcases listed with first | later
      · exact ⟨0, block, rfl, first⟩
      · obtain ⟨number, found, known, inBlock⟩ := ih later
        refine ⟨number + 1, found, known, ?_⟩
        rw [List.take_succ_cons, List.flatMap_cons, Journal.run_append]
        exact inBlock

namespace BlockChain

variable {machine : Machine} {chain later : BlockChain machine}

theorem blockNumber_toNat : chain.blockNumber.toNat + 1 = chain.blocks.length := by
  have genesis := chain.genesis
  have numbered := chain.numbered
  have fits : chain.blocks.length - 1 < UInt64.size := by
    change chain.blocks.length - 1 < 2 ^ 64
    omega
  rw [blockNumber, UInt64.toNat_ofNat_of_lt' fits]
  omega

theorem storageBefore_add (number more : Nat) :
    chain.storageBefore (number + more) =
      Journal.run (execute machine) (chain.storageBefore number)
        (((chain.blocks.drop number).take more).flatMap Block.transactions) := by
  rw [storageBefore, List.take_add, List.flatMap_append, Journal.run_append]
  rfl

/-- The devices of the vault before a block, as its events fold. -/
theorem deviceInv (chain : BlockChain machine) (vaultId : Bytes32) (number : Nat) :
    DeviceInv ((chain.storageBefore number).vault vaultId)
      (foldDevices vaultId (Journal.events (execute machine) .empty
        ((chain.blocks.take number).flatMap Block.transactions))) :=
  (logInv machine _).devices vaultId

/-- An authorized device is named in a block that is not older than the vault. -/
theorem named_of_authorized {vaultId : Bytes32} {device : Address} {fromBlock : Nat}
    (unborn : (chain.storageBefore fromBlock).bootstrapped vaultId = false)
    (authorized : chain.storage.authorizedDevice vaultId device = true) :
    ∃ number, fromBlock ≤ number ∧ number < chain.blocks.length ∧
      ∃ log ∈ chain.blockLogs number, log.address = machine.self ∧
        Named vaultId device log.event := by
  have before := ((chain.deviceInv vaultId fromBlock).unborn unborn).1
  have folded := ((chain.deviceInv vaultId chain.blocks.length).member device).mp authorized
  have split : chain.blocks = chain.blocks.take fromBlock ++ chain.blocks.drop fromBlock :=
    (List.take_append_drop _ _).symm
  rw [List.take_length, split, List.flatMap_append, Journal.events, Journal.accepted_append,
    List.map_append, foldDevices, List.foldl_append] at folded
  rw [foldDevices, Journal.events] at before
  rw [before] at folded
  obtain ⟨event, listed, named⟩ := (named_of_mem_foldl folded).resolve_left (Finset.notMem_empty _)
  obtain ⟨offset, block, known, inBlock⟩ := exists_block_of_mem_events listed
  rw [List.getElem?_drop] at known
  have inside : fromBlock + offset < chain.blocks.length := (List.getElem?_eq_some_iff.mp known).1
  refine ⟨fromBlock + offset, Nat.le_add_right _ _, inside, ⟨machine.self, event⟩, ?_, rfl, named⟩
  rw [blockLogs, known, storageBefore_add]
  exact List.mem_append_left _ (List.mem_map_of_mem inBlock)

/-- A block stays as it is when the chain grows. -/
theorem blockLogs_of_prefix (grown : chain.blocks <+: later.blocks) {number : Nat}
    (inside : number < chain.blocks.length) : later.blockLogs number = chain.blockLogs number := by
  obtain ⟨more, same⟩ := grown
  have before : later.storageBefore number = chain.storageBefore number := by
    rw [storageBefore, storageBefore, ← same, List.take_append_of_le_length inside.le]
  rw [blockLogs, blockLogs, before, ← same, List.getElem?_append_left inside]

end BlockChain

/-! ## The first pass -/

theorem mem_pushNew {signers : List Address} {signer device : Address} :
    device ∈ pushNew signers signer ↔ device ∈ signers ∨ device = signer := by
  unfold pushNew
  split
  · next known =>
      have listed : signer ∈ signers := List.contains_iff_mem.mp known
      constructor
      · exact .inl
      · rintro (old | rfl)
        · exact old
        · exact listed
  · rw [List.mem_append, List.mem_singleton]

theorem nodup_pushNew {signers : List Address} (distinct : signers.Nodup) (signer : Address) :
    (pushNew signers signer).Nodup := by
  unfold pushNew
  split
  · exact distinct
  · next unknown =>
      have fresh : signer ∉ signers := fun listed => unknown (List.contains_iff_mem.mpr listed)
      exact List.nodup_append.mpr ⟨distinct, List.nodup_singleton _, by
        rintro device old _ new rfl
        exact fresh (List.mem_singleton.mp new ▸ old)⟩

theorem mem_foldl_pushNew {signers new : List Address} {device : Address} :
    device ∈ new.foldl pushNew signers ↔ device ∈ signers ∨ device ∈ new := by
  induction new generalizing signers with
  | nil => simp
  | cons signer new ih => rw [List.foldl_cons, ih, mem_pushNew, List.mem_cons, or_assoc]

theorem nodup_collectCandidates {candidates : List Address} (distinct : candidates.Nodup)
    (events : List DeviceMgmtEvent) : (collectCandidates candidates events).Nodup := by
  unfold collectCandidates
  induction events.filterMap DeviceMgmtEvent.candidate generalizing candidates with
  | nil => exact distinct
  | cons signer signers ih => exact ih (nodup_pushNew distinct signer)

theorem Named.topic1 {vaultId : Bytes32} {device : Address} {event : Event}
    (named : Named vaultId device event) : topic1 event = vaultId := by
  cases event with
  | vaultBootstrapped | deviceAdded | deviceRemoved => exact named.1
  | revisionPublished | promotionProposed | promotionFinalized | promotionCanceled =>
      exact named.elim

/-- The candidates of some logs. -/
theorem mem_candidates {contract : Address} {logs : List Log} {device : Address} :
    device ∈ (decodeDeviceMgmtEvents contract logs).filterMap DeviceMgmtEvent.candidate ↔
      ∃ log ∈ logs, log.address = contract ∧ Named (topic1 log.event) device log.event := by
  rw [decodeDeviceMgmtEvents, List.filterMap_filterMap, List.mem_filterMap]
  refine exists_congr fun log => and_congr_right fun _ => ?_
  by_cases own : log.address = contract
  · rw [if_neg (not_not_intro own)]
    cases log.event with
    | vaultBootstrapped | deviceAdded | deviceRemoved =>
        simp [DeviceMgmtEvent.candidate, Named, topic1, own]
    | revisionPublished | promotionProposed | promotionFinalized | promotionCanceled =>
        simp [DeviceMgmtEvent.candidate, Named]
  · simp [own]

/-- The candidates of a range of blocks. -/
theorem mem_candidates_getLogs {machine : Machine} {chain : BlockChain machine}
    {vaultId : Bytes32} {fromBlock toBlock : UInt64} {device : Address} :
    device ∈ (decodeDeviceMgmtEvents machine.self
        (chain.getLogs machine.self vaultId fromBlock toBlock)).filterMap
          DeviceMgmtEvent.candidate ↔
      ∃ number, fromBlock.toNat ≤ number ∧ number ≤ toBlock.toNat ∧
        ∃ log ∈ chain.blockLogs number, log.address = machine.self ∧
          Named vaultId device log.event := by
  rw [mem_candidates]
  simp only [BlockChain.getLogs, List.mem_filter, List.mem_flatMap, Bool.and_eq_true,
    decide_eq_true_eq, Ranges.numbers, List.mem_range'_1]
  constructor
  · rintro ⟨log, ⟨⟨number, bounds, inBlock⟩, -, rfl⟩, own, named⟩
    exact ⟨number, bounds.1, by omega, log, inBlock, own, named⟩
  · rintro ⟨number, lower, upper, log, inBlock, own, named⟩
    refine ⟨log, ⟨⟨number, by omega, inBlock⟩, own, named.topic1⟩, own, ?_⟩
    rw [named.topic1]
    exact named

section

variable {machine : Machine} {timeline : Timeline machine} {calls : List RpcCall}

theorem ask_ok {α : Type} {call : RpcCall} {context : String} {answer : BlockChain machine → α}
    (answered : timeline.failure calls.length = none) :
    ask timeline calls call context answer =
      (calls ++ [call], .ok (answer (timeline.chain calls.length))) := by
  rw [ask, answered]

theorem ask_error {α : Type} {call : RpcCall} {context message : String}
    {answer : BlockChain machine → α} (failed : timeline.failure calls.length = some message) :
    ask timeline calls call context answer =
      (calls ++ [call], .error (.rpc (context ++ message))) := by
  rw [ask, failed]

/-- The ranges that were scanned, in order. -/
def scannedRanges (calls : List RpcCall) : List (Nat × Nat) :=
  calls.filterMap fun call =>
    match call with
    | .getLogs fromBlock toBlock => some (fromBlock.toNat, toBlock.toNat)
    | _ => none

/-- Some request fails. -/
def Timeline.Fails (timeline : Timeline machine) : Prop := ∃ time, timeline.failure time ≠ none

theorem toNat_minU64 (left right : UInt64) :
    (minU64 left right).toNat = min left.toNat right.toNat := by
  unfold minU64
  split
  · next ordered => rw [Nat.min_eq_left (UInt64.le_iff_toNat_le.mp ordered)]
  · next ordered =>
      have : right.toNat ≤ left.toNat := by
        rw [UInt64.le_iff_toNat_le] at ordered
        omega
      rw [Nat.min_eq_right this]

theorem toNat_saturatingAdd (left right : UInt64) :
    (saturatingAdd left right).toNat = min (left.toNat + right.toNat) (2 ^ 64 - 1) := by
  rw [saturatingAdd, UInt64.toNat_ofNat_of_lt']
  exact Nat.lt_of_le_of_lt (Nat.min_le_right _ _) (by decide)

theorem chunkEnd_toNat {fromBlock head : UInt64} (begun : fromBlock ≤ head) :
    fromBlock.toNat ≤ (chunkEnd fromBlock head).toNat ∧
      (chunkEnd fromBlock head).toNat ≤ head.toNat := by
  have ordered := UInt64.le_iff_toNat_le.mp begun
  have fits := head.toNat_lt
  have step : (deviceMgmtLogBlockChunk - 1).toNat = 8999 := rfl
  rw [chunkEnd, toNat_minU64, toNat_saturatingAdd, step]
  omega

/-- The chunk after one that does not reach the head. -/
theorem nextChunk {fromBlock head : UInt64} (begun : fromBlock ≤ head)
    (short : chunkEnd fromBlock head ≠ head) :
    (saturatingAdd (chunkEnd fromBlock head) 1).toNat = (chunkEnd fromBlock head).toNat + 1 ∧
      saturatingAdd (chunkEnd fromBlock head) 1 ≤ head := by
  have upper := (chunkEnd_toNat begun).2
  have fits := head.toNat_lt
  have different : (chunkEnd fromBlock head).toNat ≠ head.toNat := by
    intro same
    exact short (UInt64.toNat_inj.mp same)
  have next : (saturatingAdd (chunkEnd fromBlock head) 1).toNat =
      (chunkEnd fromBlock head).toNat + 1 := by
    rw [toNat_saturatingAdd, UInt64.toNat_one]
    omega
  refine ⟨next, UInt64.le_iff_toNat_le.mpr ?_⟩
  rw [next]
  omega

theorem mem_collect_chunk {vaultId : Bytes32} {base : BlockChain machine} {head : UInt64}
    (stable : ∀ time, ∀ number ≤ head.toNat,
      (timeline.chain time).blockLogs number = base.blockLogs number)
    {fromBlock : UInt64} (begun : fromBlock ≤ head) {candidates : List Address} {time : Nat}
    {device : Address} :
    device ∈ collectCandidates candidates (decodeDeviceMgmtEvents machine.self
        ((timeline.chain time).getLogs machine.self vaultId fromBlock (chunkEnd fromBlock head))) ↔
      device ∈ candidates ∨
        ∃ number, fromBlock.toNat ≤ number ∧ number ≤ (chunkEnd fromBlock head).toNat ∧
          ∃ log ∈ base.blockLogs number, log.address = machine.self ∧
            Named vaultId device log.event := by
  rw [collectCandidates, mem_foldl_pushNew, mem_candidates_getLogs]
  refine or_congr_right (exists_congr fun number => and_congr_right fun _ => ?_)
  refine and_congr_right fun upper => ?_
  rw [stable time number (upper.trans (chunkEnd_toNat begun).2)]

/-- The scan of the rest: either a request fails, or the chunks tile the range and the
candidates are the devices named in it. -/
theorem scanCandidates_spec (calls : List RpcCall) {vaultId : Bytes32} {base : BlockChain machine} {head : UInt64}
    (stable : ∀ time, ∀ number ≤ head.toNat,
      (timeline.chain time).blockLogs number = base.blockLogs number)
    {fuel : Nat} {fromBlock : UInt64} {candidates : List Address} (begun : fromBlock ≤ head)
    (enough : head.toNat - fromBlock.toNat < fuel) (distinct : candidates.Nodup) :
    (timeline.Fails ∧ ∃ after error, scanCandidates timeline vaultId head fuel fromBlock candidates
      calls = some (after, .error error)) ∨
    ∃ scans found, scanCandidates timeline vaultId head fuel fromBlock candidates calls =
        some (calls ++ scans, .ok found) ∧
      Ranges.Tiling fromBlock.toNat head.toNat (scannedRanges scans) ∧
      (∀ device, RpcCall.authorizedDevice device ∉ scans) ∧ found.Nodup ∧
      ∀ device, device ∈ found ↔ device ∈ candidates ∨
        ∃ number, fromBlock.toNat ≤ number ∧ number ≤ head.toNat ∧
          ∃ log ∈ base.blockLogs number, log.address = machine.self ∧
            Named vaultId device log.event := by
  induction fuel generalizing fromBlock candidates calls with
  | zero => exact absurd enough (Nat.not_lt_zero _)
  | succ fuel ih =>
      cases answer : timeline.failure calls.length with
      | some message =>
          refine .inl ⟨⟨_, by rw [answer]; nofun⟩, ?_⟩
          rw [scanCandidates, if_pos begun]
          simp only [ask_error answer]
          exact ⟨_, _, rfl⟩
      | none =>
          have known := @mem_collect_chunk _ timeline vaultId base head stable _ begun candidates
            calls.length
          obtain ⟨lower, upper⟩ := chunkEnd_toNat begun
          rw [scanCandidates, if_pos begun]
          simp only [ask_ok answer]
          by_cases last : chunkEnd fromBlock head = head
          · rw [if_pos last]
            refine .inr ⟨_, _, rfl, ?_, ?_, nodup_collectCandidates distinct _, ?_⟩
            · rw [last]
              exact .last (UInt64.le_iff_toNat_le.mp begun)
            · intro device listed
              cases List.mem_singleton.mp listed
            · intro device
              rw [known, last]
          · rw [if_neg last]
            obtain ⟨next, inside⟩ := nextChunk begun last
            have less : head.toNat - (saturatingAdd (chunkEnd fromBlock head) 1).toNat < fuel := by
              have := UInt64.le_iff_toNat_le.mp inside
              omega
            rcases ih _ inside less (nodup_collectCandidates distinct _) with
              failed | ⟨scans, found, scanned, tiling, noViews, distinctFound, exactly⟩
            · exact .inl failed
            · refine .inr ⟨.getLogs fromBlock (chunkEnd fromBlock head) :: scans, found, ?_, ?_, ?_,
                distinctFound, ?_⟩
              · rw [scanned, List.append_assoc]
                rfl
              · rw [next] at tiling
                exact .next lower tiling
              · intro device listed
                cases listed with
                | tail _ later => exact noViews device later
              · intro device
                rw [exactly, known, next, or_assoc]
                refine or_congr_right ⟨?_, ?_⟩
                · rintro (⟨number, from_, to_, named⟩ | ⟨number, from_, to_, named⟩)
                  · exact ⟨number, from_, to_.trans upper, named⟩
                  · exact ⟨number, by omega, to_, named⟩
                · rintro ⟨number, from_, to_, named⟩
                  by_cases here : number ≤ (chunkEnd fromBlock head).toNat
                  · exact .inl ⟨number, from_, here, named⟩
                  · exact .inr ⟨number, by omega, to_, named⟩

/-! ## The second pass -/

/-- A device is viewed by the request with this number. -/
def ViewedAt (calls : List RpcCall) (device : Address) (time : Nat) : Prop :=
  calls[time]? = some (.authorizedDevice device)

/-- The views of the rest: either a request fails, or each candidate is asked for once, in
order, and the answer decides. -/
theorem crossCheck_spec (timeline : Timeline machine) (calls : List RpcCall) (vaultId : Bytes32)
    {candidates set : List Address}
    (distinct : candidates.Nodup) (distinctSet : set.Nodup)
    (apart : ∀ device ∈ candidates, device ∉ set) :
    (timeline.Fails ∧ ∃ after error,
      crossCheck timeline vaultId candidates set calls = (after, .error error)) ∨
    ∃ members, crossCheck timeline vaultId candidates set calls =
        (calls ++ candidates.map .authorizedDevice, .ok members) ∧
      members.Nodup ∧
      ∀ device, device ∈ members ↔ device ∈ set ∨ ∃ index, candidates[index]? = some device ∧
        (timeline.chain (calls.length + index)).storage.authorizedDevice vaultId device = true := by
  induction candidates generalizing set calls with
  | nil =>
      refine .inr ⟨set, ?_, distinctSet, ?_⟩
      · rw [crossCheck, List.map_nil, List.append_nil]
      · simp
  | cons signer candidates ih =>
      obtain ⟨fresh, distinctRest⟩ := List.nodup_cons.mp distinct
      cases answer : timeline.failure calls.length with
      | some message =>
          refine .inl ⟨⟨_, by rw [answer]; nofun⟩, ?_⟩
          rw [crossCheck]
          simp only [ask_error answer]
          exact ⟨_, _, rfl⟩
      | none =>
          rw [crossCheck]
          simp only [ask_ok answer]
          generalize live : (timeline.chain calls.length).storage.authorizedDevice vaultId signer =
            isLive
          let next := if isLive then pushNew set signer else set
          have distinctNext : next.Nodup := by
            cases isLive with
            | false => exact distinctSet
            | true => exact nodup_pushNew distinctSet signer
          have inNext (device : Address) :
              device ∈ next ↔ device ∈ set ∨ device = signer ∧ isLive = true := by
            cases isLive with
            | false => simp [next]
            | true => simp [next, mem_pushNew]
          have apartNext : ∀ device ∈ candidates, device ∉ next := by
            intro device listed taken
            rcases (inNext device).mp taken with old | ⟨rfl, -⟩
            · exact apart device (List.mem_cons_of_mem _ listed) old
            · exact fresh listed
          rcases ih _ distinctRest distinctNext apartNext with
            failed | ⟨members, asked, distinctAll, exactly⟩
          · exact .inl failed
          · refine .inr ⟨members, ?_, distinctAll, ?_⟩
            · rw [asked, List.append_assoc]
              rfl
            · intro device
              have later (index : Nat) :
                  (calls ++ [RpcCall.authorizedDevice signer]).length + index =
                    calls.length + (index + 1) := by
                rw [List.length_append, List.length_singleton]
                omega
              rw [exactly, inNext]
              constructor
              · rintro ((old | ⟨rfl, isTrue⟩) | ⟨index, found, isMember⟩)
                · exact .inl old
                · exact .inr ⟨0, rfl, live.trans isTrue⟩
                · rw [later] at isMember
                  exact .inr ⟨index + 1, found, isMember⟩
              · rintro (old | ⟨index, found, isMember⟩)
                · exact .inl (.inl old)
                · cases index with
                  | zero =>
                      obtain rfl := Option.some.inj found
                      exact .inl (.inr ⟨rfl, live.symm.trans isMember⟩)
                  | succ index =>
                      rw [← later] at isMember
                      exact .inr ⟨index, found, isMember⟩

end

/-! ## The set that is read -/

/-- A call that changes the devices of the vault. -/
def ManagesDevices (vaultId : Bytes32) : Call → Prop
  | .bootstrapVault target .. => target = vaultId
  | .addDevice target .. => target = vaultId
  | .removeDevice target .. => target = vaultId
  | _ => False

instance (vaultId : Bytes32) : DecidablePred (ManagesDevices vaultId) := fun call =>
  match call with
  | .bootstrapVault target .. => inferInstanceAs (Decidable (target = vaultId))
  | .addDevice target .. => inferInstanceAs (Decidable (target = vaultId))
  | .removeDevice target .. => inferInstanceAs (Decidable (target = vaultId))
  | .publishRevision .. | .proposePromotion .. | .finalizePromotion .. | .cancelPromotion .. =>
      .isFalse id

theorem submit_authorizedDevice {machine : Machine} {storage : Storage} {vaultId : Bytes32}
    {tx : RevisionLogV2.Transaction} (other : ¬ ManagesDevices vaultId tx.call) :
    (Journal.submit (execute machine) storage tx).authorizedDevice vaultId =
      storage.authorizedDevice vaultId := by
  cases done : execute machine storage tx with
  | error revert => rw [Journal.submit_of_error done]
  | ok result =>
      obtain ⟨after, event⟩ := result
      rw [Journal.submit_of_ok done]
      have executed := execute_executed done
      by_cases own : tx.call.vaultId = vaultId
      · have effect := executed.effect
        rw [own] at effect
        change (after.vault vaultId).devices = (storage.vault vaultId).devices
        generalize after.vault vaultId = slots at effect
        generalize storage.vault vaultId = before at effect
        generalize called : tx.call = call at effect
        cases effect with
        | published | proposed | finalized | canceled => rfl
        | bootstrapped | added | removed =>
            rw [called] at other own
            exact absurd own other
      · exact congrArg Vault.devices (executed.frame vaultId (Ne.symm own))

theorem run_authorizedDevice {machine : Machine} {storage : Storage} {vaultId : Bytes32}
    {txs : List RevisionLogV2.Transaction}
    (others : ∀ tx ∈ txs, ¬ ManagesDevices vaultId tx.call) :
    (Journal.run (execute machine) storage txs).authorizedDevice vaultId =
      storage.authorizedDevice vaultId := by
  induction txs generalizing storage with
  | nil => rfl
  | cons tx txs ih =>
      rw [Journal.run, List.foldl_cons]
      rw [List.forall_mem_cons] at others
      exact (ih others.2).trans (submit_authorizedDevice others.1)

/-- No call since has changed the devices of the vault. -/
def Unmanaged {machine : Machine} (vaultId : Bytes32) (chain later : BlockChain machine) : Prop :=
  ∀ block ∈ later.blocks.drop chain.blocks.length, ∀ tx ∈ block.transactions,
    ¬ ManagesDevices vaultId tx.call

theorem Unmanaged.authorizedDevice {machine : Machine} {vaultId : Bytes32}
    {chain later : BlockChain machine} (grown : chain.blocks <+: later.blocks)
    (unmanaged : Unmanaged vaultId chain later) :
    later.storage.authorizedDevice vaultId = chain.storage.authorizedDevice vaultId := by
  obtain ⟨more, same⟩ := grown
  have after : later.storage = Journal.run (execute machine) chain.storage
      ((later.blocks.drop chain.blocks.length).flatMap Block.transactions) := by
    rw [BlockChain.storage, BlockChain.storage, BlockChain.storageBefore, BlockChain.storageBefore,
      List.take_length, List.take_length, ← same, List.drop_left, List.flatMap_append,
      Journal.run_append]
  rw [after]
  apply run_authorizedDevice
  intro tx listed
  obtain ⟨block, inLater, inBlock⟩ := List.mem_flatMap.mp listed
  exact unmanaged block inLater tx inBlock

section

variable {machine : Machine} {timeline : Timeline machine}

/-- The chain only grows. -/
def Timeline.Grows (timeline : Timeline machine) : Prop :=
  ∀ time, (timeline.chain time).blocks <+: (timeline.chain (time + 1)).blocks

theorem Timeline.Grows.from_start (grows : timeline.Grows) (time : Nat) :
    (timeline.chain 0).blocks <+: (timeline.chain time).blocks := by
  induction time with
  | zero => exact List.prefix_refl _
  | succ time ih => exact ih.trans (grows time)

/-- What a read that succeeds has done. -/
structure SetRead (timeline : Timeline machine) (vaultId : Bytes32) (fromBlock : UInt64)
    (calls : List RpcCall) (set : List Address) : Prop where
  /-- Every block from the first one to the head is scanned once. -/
  scanned : (scannedRanges calls).flatMap Ranges.numbers =
    List.range' (min fromBlock.toNat (timeline.chain 0).blockNumber.toNat)
      ((timeline.chain 0).blockNumber.toNat + 1 -
        min fromBlock.toNat (timeline.chain 0).blockNumber.toNat)
  distinct : set.Nodup
  viewed : ∀ device ∈ set, ∃ time, ViewedAt calls device time
  asked : ∀ device, (timeline.chain 0).storage.authorizedDevice vaultId device = true →
    ∃ time, ViewedAt calls device time
  decided : ∀ device time, ViewedAt calls device time →
    (device ∈ set ↔ (timeline.chain time).storage.authorizedDevice vaultId device = true)

theorem viewedAt_append {before : List RpcCall} {candidates : List Address}
    (noViews : ∀ device, RpcCall.authorizedDevice device ∉ before) {device : Address} {time : Nat} :
    ViewedAt (before ++ candidates.map .authorizedDevice) device time ↔
      ∃ index, time = before.length + index ∧ candidates[index]? = some device := by
  unfold ViewedAt
  constructor
  · intro viewed
    by_cases early : time < before.length
    · rw [List.getElem?_append_left early] at viewed
      exact absurd (List.mem_of_getElem? viewed) (noViews device)
    · refine ⟨time - before.length, by omega, ?_⟩
      rw [List.getElem?_append_right (Nat.not_lt.mp early), List.getElem?_map,
        Option.map_eq_some_iff] at viewed
      obtain ⟨found, known, same⟩ := viewed
      rw [known, RpcCall.authorizedDevice.inj same]
  · rintro ⟨index, rfl, known⟩
    rw [List.getElem?_append_right (Nat.le_add_right _ _), Nat.add_sub_cancel_left,
      List.getElem?_map, known]
    rfl

/-- The two passes together. -/
theorem SetRead.of_passes {vaultId : Bytes32} {fromBlock head : UInt64} {scans : List RpcCall}
    {found set : List Address} (known : (timeline.chain 0).blockNumber = head)
    (early : ((timeline.chain 0).storageBefore fromBlock.toNat).bootstrapped vaultId = false)
    (tiling : Ranges.Tiling (minU64 fromBlock head).toNat head.toNat (scannedRanges scans))
    (noViews : ∀ device, RpcCall.authorizedDevice device ∉ scans) (distinct : found.Nodup)
    (distinctSet : set.Nodup)
    (candidates : ∀ device, device ∈ found ↔
      ∃ number, (minU64 fromBlock head).toNat ≤ number ∧ number ≤ head.toNat ∧
        ∃ log ∈ (timeline.chain 0).blockLogs number, log.address = machine.self ∧
          Named vaultId device log.event)
    (members : ∀ device, device ∈ set ↔ ∃ index, found[index]? = some device ∧
      (timeline.chain (([RpcCall.blockNumber] ++ scans).length + index)).storage.authorizedDevice
        vaultId device = true) :
    SetRead timeline vaultId fromBlock
      ([.blockNumber] ++ scans ++ found.map .authorizedDevice) set := by
  have noEarlier : ∀ device, RpcCall.authorizedDevice device ∉ [RpcCall.blockNumber] ++ scans := by
    intro device listed
    cases listed with
    | tail _ later => exact noViews device later
  have headNumber := (timeline.chain 0).blockNumber_toNat
  have noScans : scannedRanges (found.map .authorizedDevice) = [] := by
    simp [scannedRanges, List.filterMap_map]
  constructor
  · have ranges : scannedRanges ([.blockNumber] ++ scans ++ found.map .authorizedDevice) =
        scannedRanges scans := by
      rw [scannedRanges, List.filterMap_append]
      exact (congrArg _ noScans).trans (List.append_nil _)
    rw [ranges, tiling.flatMap_numbers, toNat_minU64, known]
  · exact distinctSet
  · intro device member
    obtain ⟨index, listed, -⟩ := (members device).mp member
    exact ⟨_, (viewedAt_append noEarlier).mpr ⟨index, rfl, listed⟩⟩
  · intro device authorized
    obtain ⟨number, lower, upper, log, inBlock, own, named⟩ :=
      BlockChain.named_of_authorized early authorized
    have listed : device ∈ found := by
      refine (candidates device).mpr ⟨number, ?_, ?_, log, inBlock, own, named⟩
      · rw [toNat_minU64]
        exact (Nat.min_le_left _ _).trans lower
      · rw [← known]
        omega
    obtain ⟨index, found⟩ := List.mem_iff_getElem?.mp listed
    exact ⟨_, (viewedAt_append noEarlier).mpr ⟨index, rfl, found⟩⟩
  · intro device time viewed
    obtain ⟨index, rfl, listed⟩ := (viewedAt_append noEarlier).mp viewed
    rw [members]
    constructor
    · rintro ⟨other, again, member⟩
      -- a candidate has one position
      have same : index = other := by
        have inside := (List.getElem?_eq_some_iff.mp listed).1
        exact (List.getElem?_inj inside distinct).mp (listed.trans again.symm)
      rw [same]
      exact member
    · intro member
      exact ⟨index, listed, member⟩

/-- The read ends; it fails only if a request does, and otherwise has done its work. -/
theorem readAuthorizedSetV2_spec (grows : timeline.Grows) (vaultId : Bytes32) {fromBlock : UInt64}
    (early : ((timeline.chain 0).storageBefore fromBlock.toNat).bootstrapped vaultId = false)
    {fuel : Nat} (enough : 2 ^ 64 ≤ fuel) :
    (timeline.Fails ∧ ∃ calls error, readAuthorizedSetV2 timeline (.ok ()) (.ok ()) vaultId
      fromBlock fuel = some (calls, .error error)) ∨
    ∃ calls set, readAuthorizedSetV2 timeline (.ok ()) (.ok ()) vaultId fromBlock fuel =
      some (calls, .ok set) ∧ SetRead timeline vaultId fromBlock calls set := by
  have headNumber := (timeline.chain 0).blockNumber_toNat
  have headFits := (timeline.chain 0).blockNumber.toNat_lt
  generalize known : (timeline.chain 0).blockNumber = head at headNumber headFits
  have stable : ∀ time, ∀ number ≤ head.toNat,
      (timeline.chain time).blockLogs number = (timeline.chain 0).blockLogs number := by
    intro time number upper
    exact BlockChain.blockLogs_of_prefix (grows.from_start time) (by omega)
  have begun : minU64 fromBlock head ≤ head := by
    rw [UInt64.le_iff_toNat_le, toNat_minU64]
    exact Nat.min_le_right _ _
  have room : head.toNat - (minU64 fromBlock head).toNat < fuel := by omega
  unfold readAuthorizedSetV2
  cases answer : timeline.failure 0 with
  | some message =>
      refine .inl ⟨⟨0, by rw [answer]; nofun⟩, ?_⟩
      simp only [ask_error (show timeline.failure ([] : List RpcCall).length = _ from answer)]
      exact ⟨_, _, rfl⟩
  | none =>
      simp only [ask_ok (show timeline.failure ([] : List RpcCall).length = _ from answer),
        List.nil_append, List.length_nil, known]
      rcases scanCandidates_spec [.blockNumber] stable begun room List.nodup_nil with
        ⟨fails, calls, error, stopped⟩ | ⟨scans, found, scanned, tiling, noViews, distinct, candidates⟩
      · rw [stopped]
        exact .inl ⟨fails, calls, error, rfl⟩
      · rw [scanned]
        rcases crossCheck_spec timeline ([.blockNumber] ++ scans) vaultId distinct List.nodup_nil
          (fun _ _ => List.not_mem_nil) with
          ⟨fails, calls, error, stopped⟩ | ⟨set, asked, distinctSet, members⟩
        · exact .inl ⟨fails, calls, error, congrArg some stopped⟩
        · simp only [List.not_mem_nil, false_or] at candidates members
          exact .inr ⟨_, set, congrArg some asked,
            .of_passes known early tiling noViews distinct distinctSet candidates members⟩

/-- Without a bound contract the same scan ends in an error. -/
theorem readAuthorizedSetV2_unbound {vaultId : Bytes32} {fromBlock : UInt64} {fuel : Nat}
    (error : ChainError)
    (ends : readAuthorizedSetV2 timeline (.ok ()) (.ok ()) vaultId fromBlock fuel ≠ none) :
    ∃ calls stopped, readAuthorizedSetV2 timeline (.ok ()) (.error error) vaultId fromBlock fuel =
      some (calls, .error stopped) := by
  unfold readAuthorizedSetV2 at ends ⊢
  simp only at ends ⊢
  split
  · exact ⟨_, _, rfl⟩
  · next calls head asked =>
      simp only [asked] at ends
      split
      · next unfinished =>
          simp only [unfinished] at ends
          exact absurd rfl ends
      · exact ⟨_, _, rfl⟩
      · exact ⟨_, _, rfl⟩

end

/-- The read ends, and it returns an error only where a request or a check does.  A set it
returns was scanned for block by block; a device is in it exactly when it is authorized at
its own view call, and every device authorized at the head is asked for.  If no call has
changed the devices in between, it is the set of authorized devices. -/
theorem authorized_set_read {machine : Machine} (timeline : Timeline machine)
    (grows : timeline.Grows) (vaultId : Bytes32) (fromBlock : UInt64)
    (early : ((timeline.chain 0).storageBefore fromBlock.toNat).bootstrapped vaultId = false)
    (connected bound : Except ChainError Unit) {fuel : Nat} (enough : 2 ^ 64 ≤ fuel) :
    ∃ calls result,
      readAuthorizedSetV2 timeline connected bound vaultId fromBlock fuel =
        some (calls, result) ∧
      (connected = .ok () → bound = .ok () → ¬ timeline.Fails → ∃ set, result = .ok set) ∧
      ∀ set, result = .ok set →
        SetRead timeline vaultId fromBlock calls set ∧
        ((∀ time < calls.length, Unmanaged vaultId (timeline.chain 0) (timeline.chain time)) →
          ∀ device, device ∈ set ↔
            (timeline.chain 0).storage.authorizedDevice vaultId device = true) := by
  have spec := readAuthorizedSetV2_spec grows vaultId early enough
  cases connected with
  | error error =>
      exact ⟨[], .error error, rfl, nofun, nofun⟩
  | ok =>
      cases bound with
      | error error =>
          have ends : readAuthorizedSetV2 timeline (.ok ()) (.ok ()) vaultId fromBlock fuel ≠ none := by
            rcases spec with ⟨-, calls, error, stopped⟩ | ⟨calls, set, done, -⟩
            · rw [stopped]
              nofun
            · rw [done]
              nofun
          obtain ⟨calls, stopped, same⟩ := readAuthorizedSetV2_unbound error ends
          exact ⟨calls, _, same, fun _ => nofun, nofun⟩
      | ok =>
          rcases spec with ⟨fails, calls, error, stopped⟩ | ⟨calls, set, done, read⟩
          · exact ⟨calls, _, stopped, fun _ _ answered => absurd fails answered, nofun⟩
          · refine ⟨calls, _, done, fun _ _ _ => ⟨set, rfl⟩, ?_⟩
            rintro _ ⟨⟩
            refine ⟨read, ?_⟩
            intro unmanaged device
            have same : ∀ time, ViewedAt calls device time →
                (timeline.chain time).storage.authorizedDevice vaultId device =
                  (timeline.chain 0).storage.authorizedDevice vaultId device := by
              intro time viewed
              have inside := (List.getElem?_eq_some_iff.mp viewed).1
              rw [(unmanaged time inside).authorizedDevice (grows.from_start time)]
            constructor
            · intro member
              obtain ⟨time, viewed⟩ := read.viewed device member
              rw [← same time viewed]
              exact (read.decided device time viewed).mp member
            · intro authorized
              obtain ⟨time, viewed⟩ := read.asked device authorized
              rw [← same time viewed] at authorized
              exact (read.decided device time viewed).mpr authorized

namespace AuthorizedSetSample

/-- The vault is bootstrapped in the block after the genesis. -/
def chain : BlockChain RevisionLogV2.Sample.machine where
  blocks := [⟨[], []⟩, ⟨[RevisionLogV2.Sample.bootstrap], []⟩]
  genesis := by decide
  numbered := by decide
  foreign := by decide

/-- Nothing happens while the client reads. -/
def still : Timeline RevisionLogV2.Sample.machine := ⟨fun _ => chain, fun _ => none⟩

end AuthorizedSetSample

theorem authorized_set_read_bootstrapped :
    ∃ calls set, readAuthorizedSetV2 AuthorizedSetSample.still (.ok ()) (.ok ())
        RevisionLogV2.Sample.vaultId 1 (2 ^ 64) = some (calls, .ok set) ∧
      set.Nodup ∧ RevisionLogV2.Sample.device ∈ set := by
  obtain ⟨calls, result, done, returns, reads⟩ :=
    authorized_set_read AuthorizedSetSample.still (fun _ => List.prefix_refl _)
      RevisionLogV2.Sample.vaultId 1 (by decide) (.ok ()) (.ok ()) (Nat.le_refl (2 ^ 64))
  obtain ⟨set, rfl⟩ := returns rfl rfl (fun ⟨_, failed⟩ => failed rfl)
  obtain ⟨read, members⟩ := reads set rfl
  refine ⟨calls, set, done, read.distinct, (members ?_ _).mpr (by decide)⟩
  intro time _ block later
  have none : AuthorizedSetSample.chain.blocks.drop AuthorizedSetSample.chain.blocks.length = [] :=
    List.drop_length
  exact absurd (none ▸ later) List.not_mem_nil

end Pangolin.Chain
