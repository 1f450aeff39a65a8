import Pangolin.Chain.AuthorizedSet

/-!
# Removed devices

The client folds the device events of a vault into the set of its devices and compares the set
with the devices it knew.  Over the logs of a whole chain the fold is the contract's set, and what
the comparison reports are the devices removed since the client last looked.
-/

namespace Pangolin.Chain

open Evm RevisionLogV2

/-! ## The fold and the comparison -/

inductive SetMgmtEvent where
  | bootstrapped (firstSigner : Address)
  | added (signer : Address)
  | removed (signer : Address)
  deriving Repr, DecidableEq

/-- One round of `fold_authorized_set`. -/
def SetMgmtEvent.fold (set : List Address) : SetMgmtEvent → List Address
  | .bootstrapped firstSigner => pushNew set firstSigner
  | .added signer => pushNew set signer
  | .removed signer => set.filter fun device => device ≠ signer

/-- `fold_authorized_set`. -/
def foldAuthorizedSet (events : List SetMgmtEvent) : List Address :=
  events.foldl SetMgmtEvent.fold []

/-- `detect_removed_devices`. -/
def detectRemovedDevices (currentOnchainSet locallyKnownSigners : List Address) : List Address :=
  locallyKnownSigners.filter fun signer => !currentOnchainSet.contains signer

/-- A decoded event as the fold takes it. -/
def DeviceMgmtEvent.toSetMgmtEvent : DeviceMgmtEvent → Option SetMgmtEvent
  | .bootstrapped firstSigner _ => some (.bootstrapped firstSigner)
  | .added signer _ => some (.added signer)
  | .removed signer _ => some (.removed signer)
  | .promotionFinalized _ => none

/-- The device events of a vault among the logs of all blocks, as the fold takes them. -/
def setMgmtEvents {machine : Machine} (chain : BlockChain machine) (vaultId : Bytes32) :
    List SetMgmtEvent :=
  (decodeDeviceMgmtEvents machine.self
    (chain.getLogs machine.self vaultId 0 chain.blockNumber)).filterMap
      DeviceMgmtEvent.toSetMgmtEvent

/-! ## Logs and events -/

/-- The event of a log of the contract. -/
def Log.own (contract : Address) (log : Log) : Option Event :=
  if log.address = contract then some log.event else none

section

variable {machine : Machine} {chain later : BlockChain machine} {vaultId : Bytes32}

/-- The list of the client stands for the set of the events. -/
structure Tracks (set : List Address) (devices : Finset Address) : Prop where
  distinct : set.Nodup
  member : ∀ device, device ∈ set ↔ device ∈ devices

theorem Tracks.push {set : List Address} {devices : Finset Address} (tracks : Tracks set devices)
    (signer : Address) : Tracks (pushNew set signer) (insert signer devices) where
  distinct := nodup_pushNew tracks.distinct signer
  member device := by
    rw [mem_pushNew, Finset.mem_insert, tracks.member]
    exact or_comm

theorem Tracks.drop {set : List Address} {devices : Finset Address} (tracks : Tracks set devices)
    (signer : Address) :
    Tracks (set.filter fun device => device ≠ signer) (devices.erase signer) where
  distinct := tracks.distinct.filter _
  member device := by
    rw [List.mem_filter, Finset.mem_erase, tracks.member, decide_eq_true_iff]
    exact and_comm

/-- What the filter and the decoding leave of the logs folds to what the events fold to. -/
theorem Tracks.decode {set : List Address} {devices : Finset Address} (tracks : Tracks set devices)
    (vaultId : Bytes32) (contract : Address) (logs : List Log) :
    Tracks
      (((decodeDeviceMgmtEvents contract (logs.filter fun log =>
          log.address = contract && topic1 log.event = vaultId)).filterMap
        DeviceMgmtEvent.toSetMgmtEvent).foldl SetMgmtEvent.fold set)
      ((logs.filterMap (Log.own contract)).foldl (foldDevice vaultId) devices) := by
  induction logs generalizing set devices with
  | nil => exact tracks
  | cons log logs ih =>
      obtain ⟨address, event⟩ := log
      by_cases own : address = contract
      · rw [List.filterMap_cons_some (b := event) (by rw [Log.own, if_pos own]), List.foldl_cons]
        by_cases listed : topic1 event = vaultId
        · rw [List.filter_cons_of_pos (by simp [own, listed])]
          cases event with
          | vaultBootstrapped target firstSigner manager version =>
              have here : target = vaultId := listed
              simp only [foldDevice, if_pos here]
              simpa [decodeDeviceMgmtEvents, DeviceMgmtEvent.toSetMgmtEvent, SetMgmtEvent.fold, own]
                using ih (tracks.push firstSigner)
          | deviceAdded target signer manager nonce version =>
              have here : target = vaultId := listed
              simp only [foldDevice, if_pos here]
              simpa [decodeDeviceMgmtEvents, DeviceMgmtEvent.toSetMgmtEvent, SetMgmtEvent.fold, own]
                using ih (tracks.push signer)
          | deviceRemoved target signer manager nonce version =>
              have here : target = vaultId := listed
              simp only [foldDevice, if_pos here]
              simpa [decodeDeviceMgmtEvents, DeviceMgmtEvent.toSetMgmtEvent, SetMgmtEvent.fold, own]
                using ih (tracks.drop signer)
          | promotionFinalized =>
              simpa [decodeDeviceMgmtEvents, DeviceMgmtEvent.toSetMgmtEvent, own, foldDevice,
                List.filterMap_cons] using ih tracks
          | revisionPublished | promotionProposed | promotionCanceled =>
              simpa [decodeDeviceMgmtEvents, DeviceMgmtEvent.toSetMgmtEvent, own, foldDevice]
                using ih tracks
        · rw [List.filter_cons_of_neg (by simp [listed])]
          have other : foldDevice vaultId devices event = devices := by
            cases event with
            | vaultBootstrapped target | deviceAdded target | deviceRemoved target =>
                exact if_neg listed
            | revisionPublished | promotionProposed | promotionFinalized | promotionCanceled => rfl
          rw [other]
          exact ih tracks
      · rw [List.filterMap_cons_none (by rw [Log.own, if_neg own]),
          List.filter_cons_of_neg (by simp [own])]
        exact ih tracks

/-- The logs of a block that the contract emitted carry the events of its transactions. -/
theorem own_blockLogs {number : Nat} {block : Block} (known : chain.blocks[number]? = some block) :
    (chain.blockLogs number).filterMap (Log.own machine.self) =
      Journal.events (execute machine) (chain.storageBefore number) block.transactions := by
  have emitted (events : List Event) :
      (events.map fun event => (⟨machine.self, event⟩ : Log)).filterMap (Log.own machine.self) =
        events := by
    induction events with
    | nil => rfl
    | cons event events ih =>
        have own : Log.own machine.self ⟨machine.self, event⟩ = some event := if_pos rfl
        rw [List.map_cons, List.filterMap_cons_some own, ih]
  have foreign : block.foreignLogs.filterMap (Log.own machine.self) = [] := by
    apply List.filterMap_eq_nil_iff.mpr
    intro log listed
    exact if_neg (chain.foreign block (List.mem_of_getElem? known) log listed)
  rw [BlockChain.blockLogs, known, List.filterMap_append, emitted, foreign, List.append_nil]

/-- The logs of consecutive blocks carry the events of their transactions, in order. -/
theorem own_rangeLogs (fromBlock count : Nat) (inside : fromBlock + count ≤ chain.blocks.length) :
    ((List.range' fromBlock count).flatMap chain.blockLogs).filterMap (Log.own machine.self) =
      Journal.events (execute machine) (chain.storageBefore fromBlock)
        (((chain.blocks.drop fromBlock).take count).flatMap Block.transactions) := by
  induction count generalizing fromBlock with
  | zero => rfl
  | succ count ih =>
      have begun : fromBlock < chain.blocks.length := by omega
      have known : chain.blocks[fromBlock]? = some chain.blocks[fromBlock] :=
        List.getElem?_eq_getElem begun
      have after : Journal.run (execute machine) (chain.storageBefore fromBlock)
          chain.blocks[fromBlock].transactions = chain.storageBefore (fromBlock + 1) := by
        rw [BlockChain.storageBefore_add, List.drop_eq_getElem_cons begun, List.take_succ_cons,
          List.take_zero, List.flatMap_cons, List.flatMap_nil, List.append_nil]
      rw [List.range'_succ, List.flatMap_cons, List.filterMap_append, own_blockLogs known,
        ih (fromBlock + 1) (by omega), List.drop_eq_getElem_cons begun, List.take_succ_cons,
        List.flatMap_cons, Journal.events, Journal.events, Journal.events,
        Journal.accepted_append, List.map_append, after]

/-- The fold over the logs of a chain stands for the devices of the vault. -/
theorem foldAuthorizedSet_tracks :
    Tracks (foldAuthorizedSet (setMgmtEvents chain vaultId))
      (foldDevices vaultId (Journal.events (execute machine) .empty
        (chain.blocks.flatMap Block.transactions))) := by
  have empty : Tracks [] ∅ := ⟨List.nodup_nil, fun device => by simp⟩
  have tracks := empty.decode vaultId machine.self
    ((List.range' 0 chain.blocks.length).flatMap chain.blockLogs)
  rw [own_rangeLogs 0 chain.blocks.length (by omega), List.drop_zero, List.take_length] at tracks
  have range : Ranges.numbers ((0 : UInt64).toNat, chain.blockNumber.toNat) =
      List.range' 0 chain.blocks.length := by
    rw [Ranges.numbers, UInt64.toNat_zero, chain.blockNumber_toNat, Nat.sub_zero]
  rw [foldAuthorizedSet, setMgmtEvents, BlockChain.getLogs, range]
  exact tracks

/-- A device of the fold is authorized, and no other is. -/
theorem mem_foldAuthorizedSet (device : Address) :
    device ∈ foldAuthorizedSet (setMgmtEvents chain vaultId) ↔
      chain.storage.authorizedDevice vaultId device = true := by
  have inv := chain.deviceInv vaultId chain.blocks.length
  rw [List.take_length] at inv
  rw [foldAuthorizedSet_tracks.member]
  exact (inv.member device).symm

theorem length_foldAuthorizedSet :
    (foldAuthorizedSet (setMgmtEvents chain vaultId)).length =
      (chain.storage.authorizedDeviceCount vaultId).toNat := by
  have inv := chain.deviceInv vaultId chain.blocks.length
  rw [List.take_length] at inv
  have tracks : Tracks (foldAuthorizedSet (setMgmtEvents chain vaultId)) _ :=
    foldAuthorizedSet_tracks
  have same : (foldAuthorizedSet (setMgmtEvents chain vaultId)).toFinset =
      foldDevices vaultId (Journal.events (execute machine) .empty
        (chain.blocks.flatMap Block.transactions)) := by
    ext device
    rw [List.mem_toFinset, tracks.member]
  rw [← List.toFinset_card_of_nodup tracks.distinct, same]
  exact inv.counted.symm

/-! ## Removals -/

/-- A device that leaves the fold is removed by an event. -/
theorem removed_of_notMem_foldl {device : Address} {events : List Event} {devices : Finset Address}
    (member : device ∈ devices) (gone : device ∉ events.foldl (foldDevice vaultId) devices) :
    ∃ manager nonce schemaVersion,
      .deviceRemoved vaultId device manager nonce schemaVersion ∈ events := by
  induction events generalizing devices with
  | nil => exact absurd member gone
  | cons event events ih =>
      by_cases kept : device ∈ foldDevice vaultId devices event
      · obtain ⟨manager, nonce, schemaVersion, listed⟩ := ih kept gone
        exact ⟨manager, nonce, schemaVersion, List.mem_cons_of_mem _ listed⟩
      · cases event with
        | deviceRemoved target signer manager nonce schemaVersion =>
            simp only [foldDevice] at kept
            split at kept
            · next same =>
                have equal : device = signer := by
                  by_contra apart
                  exact kept (Finset.mem_erase.mpr ⟨apart, member⟩)
                rw [same, equal]
                exact ⟨manager, nonce, schemaVersion, List.mem_cons_self⟩
            · exact absurd member kept
        | vaultBootstrapped | deviceAdded =>
            simp only [foldDevice] at kept
            split at kept
            · exact absurd (Finset.mem_insert_of_mem member) kept
            · exact absurd member kept
        | revisionPublished | promotionProposed | promotionFinalized | promotionCanceled =>
            exact absurd member kept

/-- A device authorized once and not any more was removed in a block in between. -/
theorem removed_between (grown : chain.blocks <+: later.blocks) {device : Address}
    (before : chain.storage.authorizedDevice vaultId device = true)
    (after : later.storage.authorizedDevice vaultId device = false) :
    ∃ number manager nonce schemaVersion, chain.blocks.length ≤ number ∧
      number < later.blocks.length ∧
      ⟨machine.self, .deviceRemoved vaultId device manager nonce schemaVersion⟩ ∈
        later.blockLogs number := by
  obtain ⟨more, same⟩ := grown
  have known := (chain.deviceInv vaultId chain.blocks.length).member device |>.mp before
  have gone : device ∉ foldDevices vaultId (Journal.events (execute machine) .empty
      ((later.blocks.take later.blocks.length).flatMap Block.transactions)) := by
    rw [← (later.deviceInv vaultId later.blocks.length).member device]
    intro still
    exact Bool.false_ne_true (after.symm.trans still)
  rw [List.take_length] at known gone
  rw [← same, List.flatMap_append, Journal.events, Journal.accepted_append, List.map_append,
    foldDevices, List.foldl_append] at gone
  obtain ⟨manager, nonce, schemaVersion, listed⟩ := removed_of_notMem_foldl known gone
  obtain ⟨offset, block, found, inBlock⟩ := exists_block_of_mem_events listed
  have place : later.blocks[chain.blocks.length + offset]? = some block := by
    rw [← same, List.getElem?_append_right (Nat.le_add_right _ _), Nat.add_sub_cancel_left, found]
  have start : later.storageBefore (chain.blocks.length + offset) =
      Journal.run (execute machine)
        (Journal.run (execute machine) .empty (chain.blocks.flatMap Block.transactions))
        ((more.take offset).flatMap Block.transactions) := by
    rw [BlockChain.storageBefore, ← same, List.take_length_add_append, List.flatMap_append,
      Journal.run_append]
  refine ⟨chain.blocks.length + offset, manager, nonce, schemaVersion, Nat.le_add_right _ _,
    (List.getElem?_eq_some_iff.mp place).1, ?_⟩
  rw [BlockChain.blockLogs, place, start]
  exact List.mem_append_left _ (List.mem_map_of_mem inBlock)

end

/-- The fold over a chain's logs lists the contract's devices once each.  Compared with the fold
over an earlier state of the chain, it reports the devices authorized then and not now, each of
them removed by a log of a block in between. -/
theorem removed_devices_detected {machine : Machine} (chain later : BlockChain machine)
    (grown : chain.blocks <+: later.blocks) (vaultId : Bytes32) :
    let known := foldAuthorizedSet (setMgmtEvents chain vaultId)
    let current := foldAuthorizedSet (setMgmtEvents later vaultId)
    current.Nodup ∧ current.length = (later.storage.authorizedDeviceCount vaultId).toNat ∧
    (∀ device, device ∈ current ↔ later.storage.authorizedDevice vaultId device = true) ∧
    (∀ device, device ∈ detectRemovedDevices current known ↔
      chain.storage.authorizedDevice vaultId device = true ∧
        later.storage.authorizedDevice vaultId device = false) ∧
    ∀ device ∈ detectRemovedDevices current known, ∃ number manager nonce schemaVersion,
      chain.blocks.length ≤ number ∧ number < later.blocks.length ∧
      ⟨machine.self, .deviceRemoved vaultId device manager nonce schemaVersion⟩ ∈
        later.blockLogs number := by
  intro known current
  have detected (device : Address) : device ∈ detectRemovedDevices current known ↔
      chain.storage.authorizedDevice vaultId device = true ∧
        later.storage.authorizedDevice vaultId device = false := by
    rw [detectRemovedDevices, List.mem_filter, mem_foldAuthorizedSet, Bool.not_eq_true',
      ← Bool.not_eq_true, List.contains_iff_mem, mem_foldAuthorizedSet, Bool.not_eq_true]
  refine ⟨foldAuthorizedSet_tracks.distinct, length_foldAuthorizedSet, mem_foldAuthorizedSet,
    detected, ?_⟩
  intro device listed
  obtain ⟨before, after⟩ := (detected device).mp listed
  exact removed_between grown before after

namespace DeviceFoldSample

open RevisionLogV2.Sample

/-- The vault gets a second device. -/
def adding : Block := ⟨[bootstrap, mined (.addDevice vaultId 2 1 1 signature)], []⟩

def removing : Block := ⟨[mined (.removeDevice vaultId 2 2 1 signature)], []⟩

def chain : BlockChain machine where
  blocks := [adding]
  genesis := by decide
  numbered := by decide
  foreign := by decide

def later : BlockChain machine where
  blocks := [adding, removing]
  genesis := by decide
  numbered := by decide
  foreign := by decide

end DeviceFoldSample

theorem second_device_detected :
    2 ∈ detectRemovedDevices
      (foldAuthorizedSet (setMgmtEvents DeviceFoldSample.later RevisionLogV2.Sample.vaultId))
      (foldAuthorizedSet (setMgmtEvents DeviceFoldSample.chain RevisionLogV2.Sample.vaultId)) :=
  ((removed_devices_detected DeviceFoldSample.chain DeviceFoldSample.later ⟨[_], rfl⟩
    RevisionLogV2.Sample.vaultId).2.2.2.1 2).mpr (by decide)

end Pangolin.Chain
