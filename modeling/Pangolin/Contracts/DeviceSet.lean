import Pangolin.Contracts.RevisionLogV2
import Pangolin.Lib.Journal
import Mathlib.Data.Set.Card

/-!
# The authorized devices of a vault

Every successful call changes the slots of one vault, in one of seven ways.  The set of
authorized devices is what the emitted events fold to, its size is the counter the contract
keeps beside it, and every signed authorization consumes a nonce.
-/

namespace Pangolin.RevisionLogV2

open Evm

/-! ## What a successful transaction does -/

/-- The slots of one vault. -/
structure Vault where
  devices : Address → Bool
  count : UInt32
  manager : Address
  nonce : UInt64
  promotion : Promotion
  bootstrapped : Bool

def Storage.vault (storage : Storage) (vaultId : Bytes32) : Vault where
  devices := storage.authorizedDevice vaultId
  count := storage.authorizedDeviceCount vaultId
  manager := storage.deviceManager vaultId
  nonce := storage.deviceNonce vaultId
  promotion := storage.pendingPromotion vaultId
  bootstrapped := storage.bootstrapped vaultId

def Vault.currentManager (authority : Address) (vault : Vault) : Address :=
  if authority = 0 then vault.manager else authority

/-- Every way a call can change the slots of its vault, with the checks it passed. -/
inductive Effect (machine : Machine) (context : Context) (authority : Address) (vault : Vault) :
    Call → Vault → Event → Prop where
  | bootstrapped (vaultId : Bytes32) (firstSigner : Address) (schemaVersion : UInt16)
      (signature : Bytes) :
      vault.bootstrapped = false → firstSigner ≠ 0 →
      machine.recover (hashAddDevice machine vaultId firstSigner 0 schemaVersion) signature =
        firstSigner →
      Effect machine context authority vault
        (.bootstrapVault vaultId firstSigner schemaVersion signature)
        { vault with
          devices := Function.update vault.devices firstSigner true
          count := 1
          manager := seedManager authority firstSigner
          nonce := 1
          bootstrapped := true }
        (.vaultBootstrapped vaultId firstSigner (seedManager authority firstSigner) schemaVersion)
  | published (vaultId accountId parentRevision deviceId : Bytes32) (schemaVersion : UInt16)
      (encPayload signature : Bytes) (sequence : BitVec 256) (signer : Address) :
      vault.bootstrapped = true → vault.devices signer = true →
      Effect machine context authority vault
        (.publishRevision vaultId accountId parentRevision deviceId schemaVersion encPayload
          signature)
        vault
        (.revisionPublished sequence vaultId accountId parentRevision deviceId schemaVersion
          encPayload signer)
  | added (vaultId : Bytes32) (newSigner : Address) (nonce : UInt64) (schemaVersion : UInt16)
      (authoritySig : Bytes) :
      vault.bootstrapped = true → newSigner ≠ 0 → nonce = vault.nonce →
      vault.count < maxDevices → vault.devices newSigner = false →
      Effect machine context authority vault
        (.addDevice vaultId newSigner nonce schemaVersion authoritySig)
        { vault with
          devices := Function.update vault.devices newSigner true
          count := vault.count + 1
          nonce := nonce + 1 }
        (.deviceAdded vaultId newSigner (vault.currentManager authority) nonce schemaVersion)
  | removed (vaultId : Bytes32) (signer : Address) (nonce : UInt64) (schemaVersion : UInt16)
      (authoritySig : Bytes) :
      vault.bootstrapped = true → nonce = vault.nonce → vault.devices signer = true →
      1 < vault.count →
      Effect machine context authority vault
        (.removeDevice vaultId signer nonce schemaVersion authoritySig)
        { vault with
          devices := Function.update vault.devices signer false
          count := vault.count - 1
          nonce := nonce + 1 }
        (.deviceRemoved vaultId signer (vault.currentManager authority) nonce schemaVersion)
  | proposed (vaultId : Bytes32) (candidate : Address) (nonce : UInt64) (schemaVersion : UInt16)
      (candidateSig : Bytes) :
      vault.bootstrapped = true → nonce = vault.nonce → vault.promotion.readyAt = 0 →
      vault.devices candidate = true →
      machine.recover (hashPromote machine vaultId candidate nonce schemaVersion) candidateSig =
        candidate →
      Effect machine context authority vault
        (.proposePromotion vaultId candidate nonce schemaVersion candidateSig)
        { vault with
          nonce := nonce + 1
          promotion := ⟨candidate, UInt64.ofNat context.timestamp + promotionDelay⟩ }
        (.promotionProposed vaultId candidate (UInt64.ofNat context.timestamp + promotionDelay)
          schemaVersion)
  | finalized (vaultId : Bytes32) (schemaVersion : UInt16) :
      vault.promotion.readyAt ≠ 0 → vault.promotion.readyAt.toNat ≤ context.timestamp →
      vault.devices vault.promotion.candidate = true →
      Effect machine context authority vault (.finalizePromotion vaultId schemaVersion)
        { vault with manager := vault.promotion.candidate, promotion := ⟨0, 0⟩ }
        (.promotionFinalized vaultId (vault.currentManager authority) vault.promotion.candidate
          schemaVersion)
  | canceled (vaultId : Bytes32) (schemaVersion : UInt16) :
      vault.promotion.readyAt ≠ 0 → context.sender = vault.currentManager authority →
      Effect machine context authority vault (.cancelPromotion vaultId schemaVersion)
        { vault with promotion := ⟨0, 0⟩ }
        (.promotionCanceled vaultId vault.promotion.candidate schemaVersion)

/-- The sequence number a publication emits. -/
def Event.sequence? : Event → Option (BitVec 256)
  | revisionPublished sequence .. => some sequence
  | _ => none

/-- What a successful transaction did. -/
structure Executed (machine : Machine) (storage : Storage) (tx : Transaction)
    (storage' : Storage) (event : Event) : Prop where
  effect : Effect machine tx.context tx.authority (storage.vault tx.call.vaultId) tx.call
    (storage'.vault tx.call.vaultId) event
  frame : ∀ vaultId, vaultId ≠ tx.call.vaultId → storage'.vault vaultId = storage.vault vaultId
  sequence : (event.sequence? = none ∧ storage'.nextSequence = storage.nextSequence) ∨
    (event.sequence? = some storage.nextSequence ∧
      storage'.nextSequence = storage.nextSequence + 1)

section

variable {machine : Machine} {storage storage' : Storage} {tx : Transaction} {event : Event}

theorem requireManagerSig_ok {authority manager : Address} {vaultId digest : Bytes32}
    {authoritySig : Bytes}
    (signed : requireManagerSig machine authority storage vaultId digest authoritySig =
      .ok manager) :
    manager = (storage.vault vaultId).currentManager authority := by
  simp only [requireManagerSig] at signed
  split_ifs at signed
  cases signed
  rfl

theorem verifyAndGate_ok {vaultId accountId parentRevision deviceId : Bytes32}
    {schemaVersion : UInt16} {encPayload signature : Bytes} {signer : Address}
    (gated : verifyAndGate machine storage vaultId accountId parentRevision deviceId schemaVersion
      encPayload signature = .ok signer) :
    (storage.vault vaultId).bootstrapped = true ∧
      (storage.vault vaultId).devices signer = true := by
  simp only [verifyAndGate] at gated
  split_ifs at gated with known _ member
  cases gated
  exact ⟨known, member⟩

/-- A transaction succeeds only in one of these ways, on the slots of its own vault, and
only a publication takes a sequence number. -/
theorem execute_executed (done : execute machine storage tx = .ok (storage', event)) :
    Executed machine storage tx storage' event := by
  obtain ⟨context, authority, call⟩ := tx
  cases call with
  | bootstrapVault vaultId firstSigner schemaVersion signature =>
      simp only [execute, bootstrapVault] at done
      split_ifs at done with _ fresh nonzero _ signer
      cases done
      constructor
      · simp only [Call.vaultId, Storage.vault, Function.update_self]
        exact .bootstrapped vaultId firstSigner schemaVersion signature (Bool.not_eq_true _ ▸ fresh)
          nonzero (not_not.mp signer)
      · intro other (apart : other ≠ vaultId)
        simp only [Storage.vault, Function.update_of_ne apart]
      · exact .inl ⟨rfl, rfl⟩
  | publishRevision vaultId accountId parentRevision deviceId schemaVersion encPayload signature =>
      simp only [execute, publishRevision] at done
      split_ifs at done
      split at done
      · cases done
      · next signer gated =>
          obtain ⟨known, member⟩ := verifyAndGate_ok gated
          cases done
          constructor
          · exact .published vaultId accountId parentRevision deviceId schemaVersion encPayload
              signature _ signer known member
          · intro other (apart : other ≠ vaultId)
            rfl
          · exact .inr ⟨rfl, rfl⟩
  | addDevice vaultId newSigner nonce schemaVersion authoritySig =>
      simp only [execute, addDevice] at done
      split_ifs at done with _ known nonzero current small fresh
      split at done
      · cases done
      · next manager signed =>
          obtain rfl := requireManagerSig_ok signed
          cases done
          constructor
          · simp only [Call.vaultId, Storage.vault, Storage.setDevice, Function.update_self]
            exact .added vaultId newSigner nonce schemaVersion authoritySig (by simpa using known)
              nonzero (not_not.mp current) (UInt32.not_le.mp small) (by simpa using fresh)
          · intro other (apart : other ≠ vaultId)
            simp only [Storage.vault, Storage.setDevice, Function.update_of_ne apart]
          · exact .inl ⟨rfl, rfl⟩
  | removeDevice vaultId signer nonce schemaVersion authoritySig =>
      simp only [execute, removeDevice] at done
      split_ifs at done with _ known current member brick
      split at done
      · cases done
      · next manager signed =>
          obtain rfl := requireManagerSig_ok signed
          simp only [not_or, UInt32.not_le] at brick
          cases done
          constructor
          · simp only [Call.vaultId, Storage.vault, Storage.setDevice, Function.update_self]
            exact .removed vaultId signer nonce schemaVersion authoritySig (by simpa using known)
              (not_not.mp current) (by simpa using member) brick.2
          · intro other (apart : other ≠ vaultId)
            simp only [Storage.vault, Storage.setDevice, Function.update_of_ne apart]
          · exact .inl ⟨rfl, rfl⟩
  | proposePromotion vaultId candidate nonce schemaVersion candidateSig =>
      simp only [execute, proposePromotion] at done
      split_ifs at done with _ known _ current idle member signer
      simp only [not_or, not_not] at signer
      cases done
      constructor
      · simp only [Call.vaultId, Storage.vault, Function.update_self]
        exact .proposed vaultId candidate nonce schemaVersion candidateSig (by simpa using known)
          (not_not.mp current) (not_not.mp idle) (by simpa using member) signer.2
      · intro other (apart : other ≠ vaultId)
        simp only [Storage.vault, Function.update_of_ne apart]
      · exact .inl ⟨rfl, rfl⟩
  | finalizePromotion vaultId schemaVersion =>
      simp only [execute, finalizePromotion] at done
      split_ifs at done with _ pending elapsed member
      cases done
      constructor
      · simp only [Call.vaultId, Storage.vault, Function.update_self]
        exact .finalized vaultId schemaVersion pending (Nat.not_lt.mp elapsed)
          (by simpa using member)
      · intro other (apart : other ≠ vaultId)
        simp only [Storage.vault, Function.update_of_ne apart]
      · exact .inl ⟨rfl, rfl⟩
  | cancelPromotion vaultId schemaVersion =>
      simp only [execute, cancelPromotion] at done
      split_ifs at done with _ pending sender
      cases done
      constructor
      · simp only [Call.vaultId, Storage.vault, Function.update_self]
        exact .canceled vaultId schemaVersion pending (not_not.mp sender)
      · intro other (apart : other ≠ vaultId)
        simp only [Storage.vault, Function.update_of_ne apart]
      · exact .inl ⟨rfl, rfl⟩

end

/-! ## The set of devices -/

/-- What one event does to the devices of a vault. -/
def foldDevice (vaultId : Bytes32) (devices : Finset Address) : Event → Finset Address
  | .vaultBootstrapped target firstSigner _ _ =>
      if target = vaultId then insert firstSigner devices else devices
  | .deviceAdded target signer _ _ _ =>
      if target = vaultId then insert signer devices else devices
  | .deviceRemoved target signer _ _ _ =>
      if target = vaultId then devices.erase signer else devices
  | _ => devices

/-- The devices of a vault as a reader of the events sees them. -/
def foldDevices (vaultId : Bytes32) (events : List Event) : Finset Address :=
  events.foldl (foldDevice vaultId) ∅

/-- The sequence numbers a run emitted, oldest first. -/
def sequences (events : List Event) : List (BitVec 256) := events.filterMap Event.sequence?

/-- The slots of a vault agree with the set of its devices. -/
structure DeviceInv (vault : Vault) (devices : Finset Address) : Prop where
  unborn : vault.bootstrapped = false →
    devices = ∅ ∧ vault.nonce = 0 ∧ vault.promotion = ⟨0, 0⟩
  born : vault.bootstrapped = true → 1 ≤ devices.card
  bounded : devices.card ≤ 32
  nonzero : 0 ∉ devices
  member : ∀ device, vault.devices device = true ↔ device ∈ devices
  counted : vault.count.toNat = devices.card

section

variable {machine : Machine} {context : Context} {authority : Address} {call : Call}
variable {vault vault' : Vault} {event : Event} {devices : Finset Address}

/-- A vault whose devices, count, nonce and promotion did not change keeps its set. -/
theorem DeviceInv.of_promotion (inv : DeviceInv vault devices) {manager : Address}
    {nonce : UInt64} {promotion : Promotion} (known : vault.bootstrapped = true) :
    DeviceInv { vault with manager, nonce, promotion } devices where
  unborn unknown := by
    rw [known] at unknown
    cases unknown
  born := inv.born
  bounded := inv.bounded
  nonzero := inv.nonzero
  member := inv.member
  counted := inv.counted

/-- Only a bootstrapped vault has a pending promotion. -/
theorem DeviceInv.bootstrapped (inv : DeviceInv vault devices)
    (pending : vault.promotion.readyAt ≠ 0) : vault.bootstrapped = true := by
  cases known : vault.bootstrapped with
  | true => rfl
  | false =>
      rw [(inv.unborn known).2.2] at pending
      exact absurd rfl pending

theorem DeviceInv.add (inv : DeviceInv vault devices) {signer : Address} {nonce : UInt64}
    (known : vault.bootstrapped = true) (nonzero : signer ≠ 0) (small : vault.count < maxDevices)
    (fresh : vault.devices signer = false) :
    DeviceInv
      { vault with
        devices := Function.update vault.devices signer true
        count := vault.count + 1
        nonce }
      (insert signer devices) := by
  have absent : signer ∉ devices := by
    rw [← inv.member, fresh]
    exact Bool.false_ne_true
  have size : (insert signer devices).card = devices.card + 1 := Finset.card_insert_of_notMem absent
  have below : devices.card < 32 := by
    rw [← inv.counted]
    exact small
  constructor
  · intro unknown
    rw [known] at unknown
    cases unknown
  · intro _
    omega
  · omega
  · intro zero
    rcases Finset.mem_insert.mp zero with same | old
    · exact nonzero same.symm
    · exact inv.nonzero old
  · intro device
    by_cases same : device = signer
    · subst same
      simp
    · simp [same, inv.member]
  · rw [size, UInt32.toNat_add, inv.counted]
    apply Nat.mod_eq_of_lt
    change devices.card + 1 < 2 ^ 32
    omega

theorem DeviceInv.remove (inv : DeviceInv vault devices) {signer : Address} {nonce : UInt64}
    (known : vault.bootstrapped = true) (listed : vault.devices signer = true)
    (many : 1 < vault.count) :
    DeviceInv
      { vault with
        devices := Function.update vault.devices signer false
        count := vault.count - 1
        nonce }
      (devices.erase signer) := by
  have present : signer ∈ devices := (inv.member signer).mp listed
  have size : (devices.erase signer).card = devices.card - 1 := Finset.card_erase_of_mem present
  have several : 1 < devices.card := by
    rw [← inv.counted]
    exact many
  constructor
  · intro unknown
    rw [known] at unknown
    cases unknown
  · intro _
    omega
  · have bounded := inv.bounded
    omega
  · intro zero
    exact inv.nonzero (Finset.mem_of_mem_erase zero)
  · intro device
    by_cases same : device = signer
    · subst same
      simp
    · simp [same, inv.member]
  · rw [size, UInt32.toNat_sub_of_le _ _ (UInt32.le_of_lt many), inv.counted]
    rfl

/-- The first device of a vault. -/
theorem DeviceInv.first (inv : DeviceInv vault devices) {signer manager : Address}
    (unknown : vault.bootstrapped = false) (nonzero : signer ≠ 0) :
    DeviceInv
      { vault with
        devices := Function.update vault.devices signer true
        count := 1
        manager
        nonce := 1
        bootstrapped := true }
      (insert signer devices) := by
  obtain ⟨rfl, -, -⟩ := inv.unborn unknown
  have none : ∀ device, vault.devices device = false := by
    intro device
    have empty := inv.member device
    simpa using empty
  constructor
  · intro again
    cases again
  · intro _
    simp
  · simp
  · intro zero
    exact nonzero (Finset.mem_singleton.mp (by simpa using zero)).symm
  · intro device
    by_cases same : device = signer
    · subst same
      simp
    · simp [same, none]
  · simp

/-- One call keeps the slots of its vault in agreement with the events. -/
theorem DeviceInv.effect (inv : DeviceInv vault devices)
    (effect : Effect machine context authority vault call vault' event) :
    DeviceInv vault' (foldDevice call.vaultId devices event) := by
  cases effect with
  | bootstrapped vaultId firstSigner schemaVersion signature unknown nonzero signed =>
      simp only [foldDevice, Call.vaultId, if_true]
      exact inv.first unknown nonzero
  | published => exact inv
  | added vaultId newSigner nonce schemaVersion authoritySig known nonzero current small fresh =>
      simp only [foldDevice, Call.vaultId, if_true]
      exact inv.add known nonzero small fresh
  | removed vaultId signer nonce schemaVersion authoritySig known current listed many =>
      simp only [foldDevice, Call.vaultId, if_true]
      exact inv.remove known listed many
  | proposed vaultId candidate nonce schemaVersion candidateSig known =>
      exact inv.of_promotion known
  | finalized vaultId schemaVersion pending =>
      exact inv.of_promotion (inv.bootstrapped pending)
  | canceled vaultId schemaVersion pending =>
      exact inv.of_promotion (inv.bootstrapped pending)

/-- An event of another vault leaves the fold alone. -/
theorem Effect.foldDevice_other {vaultId : Bytes32}
    (effect : Effect machine context authority vault call vault' event)
    (other : vaultId ≠ call.vaultId) : foldDevice vaultId devices event = devices := by
  have apart : call.vaultId ≠ vaultId := fun same => other same.symm
  cases effect with
  | bootstrapped => exact if_neg apart
  | published => rfl
  | added => exact if_neg apart
  | removed => exact if_neg apart
  | proposed => rfl
  | finalized => rfl
  | canceled => rfl

theorem DeviceInv.empty (vaultId : Bytes32) : DeviceInv (Storage.empty.vault vaultId) ∅ where
  unborn _ := ⟨rfl, rfl, rfl⟩
  born known := by cases known
  bounded := by simp
  nonzero := by simp
  member device := by simp [Storage.vault, Storage.empty]
  counted := rfl

end

/-! ## Runs -/

/-- The storage agrees with the journal: the devices of every vault, and the next sequence
number. -/
structure LogInv (storage : Storage) (history : List (Transaction × Event)) : Prop where
  devices : ∀ vaultId,
    DeviceInv (storage.vault vaultId) (foldDevices vaultId (history.map Prod.snd))
  next : storage.nextSequence =
    BitVec.ofNat 256 (sequences (history.map Prod.snd)).length
  numbered : sequences (history.map Prod.snd) =
    (List.range (sequences (history.map Prod.snd)).length).map (BitVec.ofNat 256)

section

variable {machine : Machine} {storage storage' : Storage} {tx : Transaction} {event : Event}
variable {history : List (Transaction × Event)}

theorem foldDevices_append (vaultId : Bytes32) :
    foldDevices vaultId ((history ++ [(tx, event)]).map Prod.snd) =
      foldDevice vaultId (foldDevices vaultId (history.map Prod.snd)) event := by
  simp [foldDevices, List.foldl_append]

theorem sequences_append :
    sequences ((history ++ [(tx, event)]).map Prod.snd) =
      sequences (history.map Prod.snd) ++ event.sequence?.toList := by
  unfold sequences
  rw [List.map_append, List.filterMap_append]
  cases numbered : event.sequence? <;> simp [numbered]

theorem LogInv.accept (inv : LogInv storage history)
    (executed : Executed machine storage tx storage' event) :
    LogInv storage' (history ++ [(tx, event)]) := by
  constructor
  · intro vaultId
    rw [foldDevices_append]
    by_cases same : vaultId = tx.call.vaultId
    · subst same
      exact (inv.devices _).effect executed.effect
    · rw [executed.frame vaultId same, executed.effect.foldDevice_other same]
      exact inv.devices vaultId
  · rw [sequences_append]
    rcases executed.sequence with ⟨silent, kept⟩ | ⟨numbered, bumped⟩
    · simp [silent, kept, inv.next]
    · simp [numbered, bumped, inv.next, BitVec.ofNat_add]
  · rw [sequences_append]
    rcases executed.sequence with ⟨silent, kept⟩ | ⟨numbered, bumped⟩
    · simp only [silent, Option.toList_none, List.append_nil]
      exact inv.numbered
    · rw [numbered, Option.toList_some, List.length_append, List.length_singleton,
        List.range_succ, List.map_append, ← inv.numbered, List.map_singleton, ← inv.next]

theorem LogInv.empty : LogInv .empty [] where
  devices := DeviceInv.empty
  next := rfl
  numbered := rfl

theorem logInv (machine : Machine) (txs : List Transaction) :
    LogInv (Journal.run (execute machine) .empty txs)
      (Journal.accepted (execute machine) .empty txs) := by
  apply Journal.run_invariant LogInv
  · exact .empty
  · intro storage history tx storage' event inv done
    exact inv.accept (execute_executed done)

/-- A publication's signer is a device of its vault where it is published. -/
theorem Effect.signer_listed {context : Context} {authority : Address} {vault vault' : Vault}
    {call : Call} {sequence : BitVec 256} {vaultId accountId parentRevision deviceId : Bytes32}
    {schemaVersion : UInt16} {encPayload : Bytes} {signer : Address}
    (effect : Effect machine context authority vault call vault'
      (.revisionPublished sequence vaultId accountId parentRevision deviceId schemaVersion
        encPayload signer)) :
    call.vaultId = vaultId ∧ vault.devices signer = true := by
  cases effect with
  | published _ _ _ _ _ _ _ _ _ _ listed => exact ⟨rfl, listed⟩

/-- The events of a run at one of its entries. -/
theorem events_split {txs : List Transaction} {before after : List Event}
    (entries : Journal.events (execute machine) .empty txs = before ++ event :: after) :
    ∃ earlier tx storage', Journal.events (execute machine) .empty earlier = before ∧
      execute machine (Journal.run (execute machine) .empty earlier) tx =
        .ok (storage', event) := by
  unfold Journal.events at entries
  obtain ⟨first, rest, split, rfl, tail⟩ := List.map_eq_append_iff.mp entries
  obtain ⟨⟨tx, emitted⟩, last, rfl, same, -⟩ := List.map_eq_cons_iff.mp tail
  obtain rfl : emitted = event := same
  obtain ⟨earlier, later, storage', -, known, done, -⟩ := Journal.accepted_split split
  exact ⟨earlier, tx, storage', by rw [Journal.events, known], done⟩

end

/-- Below `2^256` the numbers themselves count up. -/
theorem sequences_exact {numbers : List (BitVec 256)}
    (numbered : numbers = (List.range numbers.length).map (BitVec.ofNat 256))
    (below : numbers.length ≤ 2 ^ 256) : numbers.map BitVec.toNat = List.range numbers.length := by
  calc numbers.map BitVec.toNat
      = ((List.range numbers.length).map (BitVec.ofNat 256)).map BitVec.toNat := by
        rw [← numbered]
    _ = (List.range numbers.length).map id := by
        rw [List.map_map]
        apply List.map_congr_left
        intro index member
        have small := List.mem_range.mp member
        simp only [Function.comp_apply, BitVec.toNat_ofNat, id_eq]
        exact Nat.mod_eq_of_lt (by omega)
    _ = List.range numbers.length := List.map_id _

/-- In every state a deployment can get to and for every vault: the authorized devices are
what the events fold to, an unborn vault has no slots set, a born one has between one and
32 devices, counted exactly and never the zero address; every published revision was
signed by a device of the fold before it, and the sequence numbers count up from zero
modulo `2^256`. -/
theorem device_set_tracks_events (machine : Machine) (txs : List Transaction)
    (vaultId : Bytes32) :
    let storage := Journal.run (execute machine) .empty txs
    let events := Journal.events (execute machine) .empty txs
    let devices := {device | storage.authorizedDevice vaultId device = true}
    (storage.bootstrapped vaultId = false →
      devices = ∅ ∧ storage.authorizedDeviceCount vaultId = 0 ∧
        storage.deviceNonce vaultId = 0 ∧ storage.pendingPromotion vaultId = ⟨0, 0⟩) ∧
    (storage.bootstrapped vaultId = true →
      (storage.authorizedDeviceCount vaultId).toNat = devices.ncard ∧
        1 ≤ storage.authorizedDeviceCount vaultId ∧
        storage.authorizedDeviceCount vaultId ≤ maxDevices ∧ 0 ∉ devices) ∧
    devices = ↑(foldDevices vaultId events) ∧
    (∀ before after sequence accountId parentRevision deviceId schemaVersion encPayload signer,
      events = before ++ .revisionPublished sequence vaultId accountId parentRevision deviceId
        schemaVersion encPayload signer :: after → signer ∈ foldDevices vaultId before) ∧
    sequences events = (List.range (sequences events).length).map (BitVec.ofNat 256) ∧
    ((sequences events).length ≤ 2 ^ 256 →
      (sequences events).map BitVec.toNat = List.range (sequences events).length) := by
  intro storage events devices
  have inv : LogInv storage (Journal.accepted (execute machine) .empty txs) := logInv machine txs
  have own : DeviceInv (storage.vault vaultId) (foldDevices vaultId events) := inv.devices vaultId
  have folded : devices = ↑(foldDevices vaultId events) := Set.ext own.member
  have size : (storage.authorizedDeviceCount vaultId).toNat = devices.ncard := by
    rw [folded, Set.ncard_coe_finset]
    exact own.counted
  refine ⟨?_, ?_, folded, ?_, inv.numbered, ?_⟩
  · intro unborn
    obtain ⟨none, nonce, promotion⟩ := own.unborn unborn
    refine ⟨?_, ?_, nonce, promotion⟩
    · rw [folded, none, Finset.coe_empty]
    · apply UInt32.toNat_inj.mp
      rw [size, folded, none, Finset.coe_empty, Set.ncard_empty]
      rfl
  · intro born
    rw [folded, Set.ncard_coe_finset] at size
    refine ⟨by rw [folded, Set.ncard_coe_finset]; exact size, ?_, ?_, ?_⟩
    · apply UInt32.le_iff_toNat_le.mpr
      rw [size]
      exact own.born born
    · apply UInt32.le_iff_toNat_le.mpr
      rw [size]
      exact own.bounded
    · rw [folded]
      exact own.nonzero
  · intro before after sequence accountId parentRevision deviceId schemaVersion encPayload signer
      entries
    obtain ⟨earlier, tx, storage', known, done⟩ := events_split entries
    obtain ⟨target, listed⟩ := (execute_executed done).effect.signer_listed
    rw [target] at listed
    rw [← known]
    exact (((logInv machine earlier).devices vaultId).member signer).mp listed
  · intro below
    exact sequences_exact inv.numbered below

namespace Sample

def vaultId : Bytes32 := 7

def device : Address := 1

/-- A machine on which every well-formed signature is the device's. -/
def machine : Machine where
  keccak256 _ := 0
  ecrecover _ _ _ _ := device
  chainid := 0
  self := 0

def signature : Bytes := List.replicate 64 0 ++ [27]

def mined (call : Call) : Transaction := ⟨⟨1, 0⟩, 0, call⟩

def bootstrap : Transaction := mined (.bootstrapVault vaultId device 1 signature)

def publish : Transaction := mined (.publishRevision vaultId 0 0 0 1 [] signature)

theorem recover_signature (digest : Bytes32) : machine.recover digest signature = device := rfl

theorem execute_publish {storage : Storage} (known : storage.bootstrapped vaultId = true)
    (listed : storage.authorizedDevice vaultId device = true) :
    execute machine storage publish =
      .ok ({ storage with nextSequence := storage.nextSequence + 1 },
        .revisionPublished storage.nextSequence vaultId 0 0 0 1 [] device) := by
  have version : ¬ maxKnownSchemaVersion < 1 := by decide
  have nonzero : device ≠ 0 := by decide
  simp only [execute, publish, mined, publishRevision, verifyAndGate, recover_signature, known,
    listed, version, nonzero, not_true_eq_false, if_false]

theorem sequences_publish {storage : Storage} (known : storage.bootstrapped vaultId = true)
    (listed : storage.authorizedDevice vaultId device = true) (count : Nat) :
    (sequences (Journal.events (execute machine) storage
      (List.replicate count publish))).length = count := by
  induction count generalizing storage with
  | zero => rfl
  | succ count ih =>
      have later := @ih { storage with nextSequence := storage.nextSequence + 1 } known listed
      simp only [List.replicate_succ, Journal.events, Journal.accepted,
        execute_publish known listed, List.map_cons, sequences, Event.sequence?,
        List.filterMap_cons, List.length_cons]
      exact congrArg (· + 1) later

end Sample

/-- One publication more than there are sequence numbers repeats one. -/
theorem sequences_wrap :
    ¬ (sequences (Journal.events (execute Sample.machine) .empty
      (Sample.bootstrap :: List.replicate (2 ^ 256 + 1) Sample.publish))).Nodup := by
  intro distinct
  have numbered := (logInv Sample.machine
    (Sample.bootstrap :: List.replicate (2 ^ 256 + 1) Sample.publish)).numbered
  have born : ∃ storage event, execute Sample.machine .empty Sample.bootstrap =
      .ok (storage, event) ∧ event.sequence? = none ∧ storage.bootstrapped Sample.vaultId = true ∧
        storage.authorizedDevice Sample.vaultId Sample.device = true := ⟨_, _, rfl, rfl, rfl, rfl⟩
  obtain ⟨storage, event, done, silent, known, listed⟩ := born
  have length : (sequences (Journal.events (execute Sample.machine) .empty
      (Sample.bootstrap :: List.replicate (2 ^ 256 + 1) Sample.publish))).length =
        2 ^ 256 + 1 := by
    simp only [Journal.events, Journal.accepted, done, List.map_cons, sequences,
      List.filterMap_cons, silent]
    exact Sample.sequences_publish known listed _
  change sequences (Journal.events _ _ _) = _ at numbered
  rw [numbered] at distinct
  change ((List.range (sequences (Journal.events _ _ _)).length).map _).Nodup at distinct
  rw [length] at distinct
  have same := List.inj_on_of_nodup_map distinct (List.mem_range.mpr (Nat.succ_pos _))
    (List.mem_range.mpr (Nat.lt_succ_self (2 ^ 256))) (by decide)
  cases same

end Pangolin.RevisionLogV2
