import Pangolin.Contracts.DeviceSet

/-!
# Signed authorizations are used once

The genesis of a vault, every change of its devices and every proposed promotion is
authorized by one signed message that names the vault's nonce, and each moves the nonce on.
-/

namespace Pangolin.RevisionLogV2

open Evm

/-- The messages devices sign: the EIP-712 struct type and its fields. -/
inductive Message where
  | addDevice (vaultId : Bytes32) (newSigner : Address) (nonce : UInt64) (schemaVersion : UInt16)
  | removeDevice (vaultId : Bytes32) (signer : Address) (nonce : UInt64) (schemaVersion : UInt16)
  | promote (vaultId : Bytes32) (candidate : Address) (nonce : UInt64) (schemaVersion : UInt16)
  deriving Repr, DecidableEq

def Message.vaultId : Message → Bytes32
  | addDevice vaultId .. => vaultId
  | removeDevice vaultId .. => vaultId
  | promote vaultId .. => vaultId

def Message.nonce : Message → UInt64
  | addDevice _ _ nonce _ => nonce
  | removeDevice _ _ nonce _ => nonce
  | promote _ _ nonce _ => nonce

/-- The message a call has to carry a signature of; the genesis of a vault is an
`AddDevice` at nonce zero. -/
def Call.message? : Call → Option Message
  | bootstrapVault vaultId firstSigner schemaVersion _ =>
      some (.addDevice vaultId firstSigner 0 schemaVersion)
  | addDevice vaultId newSigner nonce schemaVersion _ =>
      some (.addDevice vaultId newSigner nonce schemaVersion)
  | removeDevice vaultId signer nonce schemaVersion _ =>
      some (.removeDevice vaultId signer nonce schemaVersion)
  | proposePromotion vaultId candidate nonce schemaVersion _ =>
      some (.promote vaultId candidate nonce schemaVersion)
  | _ => none

/-- A genesis of the vault. -/
def Call.bootstraps (vaultId : Bytes32) : Call → Bool
  | bootstrapVault target .. => target = vaultId
  | _ => false

/-- An addition, a removal or a proposal for the vault. -/
def Call.operates (vaultId : Bytes32) : Call → Bool
  | addDevice target .. => target = vaultId
  | removeDevice target .. => target = vaultId
  | proposePromotion target .. => target = vaultId
  | _ => false

/-- The messages accepted for a vault, oldest first. -/
def messages (vaultId : Bytes32) (history : List (Transaction × Event)) : List Message :=
  (history.filterMap fun entry => entry.1.call.message?).filter fun message =>
    message.vaultId = vaultId

/-- How often a vault was bootstrapped. -/
def bootstraps (vaultId : Bytes32) (history : List (Transaction × Event)) : Nat :=
  history.countP fun entry => entry.1.call.bootstraps vaultId

/-- How many additions, removals and proposals a vault has seen. -/
def operations (vaultId : Bytes32) (history : List (Transaction × Event)) : Nat :=
  history.countP fun entry => entry.1.call.operates vaultId

section

variable {machine : Machine} {context : Context} {authority : Address} {call : Call}
variable {vault vault' : Vault} {event : Event} {vaultId : Bytes32}
variable {tx : Transaction} {history : List (Transaction × Event)}

/-- A call either leaves the nonce alone or carries a message for it and moves it on. -/
theorem Effect.nonce (effect : Effect machine context authority vault call vault' event)
    (unborn : vault.bootstrapped = false → vault.nonce = 0) :
    (call.message? = none ∧ vault'.nonce = vault.nonce) ∨
      ∃ message, call.message? = some message ∧ message.nonce = vault.nonce ∧
        vault'.nonce = vault.nonce + 1 := by
  cases effect with
  | bootstrapped target firstSigner schemaVersion signature unknown =>
      right
      refine ⟨.addDevice target firstSigner 0 schemaVersion, rfl, (unborn unknown).symm, ?_⟩
      rw [unborn unknown]
      rfl
  | published => exact .inl ⟨rfl, rfl⟩
  | added target newSigner nonce schemaVersion _ _ _ current =>
      subst current
      exact .inr ⟨.addDevice target newSigner vault.nonce schemaVersion, rfl, rfl, rfl⟩
  | removed target signer nonce schemaVersion _ _ current =>
      subst current
      exact .inr ⟨.removeDevice target signer vault.nonce schemaVersion, rfl, rfl, rfl⟩
  | proposed target candidate nonce schemaVersion _ _ current =>
      subst current
      exact .inr ⟨.promote target candidate vault.nonce schemaVersion, rfl, rfl, rfl⟩
  | finalized => exact .inl ⟨rfl, rfl⟩
  | canceled => exact .inl ⟨rfl, rfl⟩

theorem Call.vaultId_message? {message : Message} (carried : call.message? = some message) :
    message.vaultId = call.vaultId := by
  cases call with
  | bootstrapVault =>
      cases carried
      rfl
  | addDevice =>
      cases carried
      rfl
  | removeDevice =>
      cases carried
      rfl
  | proposePromotion =>
      cases carried
      rfl
  | publishRevision => cases carried
  | finalizePromotion => cases carried
  | cancelPromotion => cases carried

/-- A genesis needs a vault without one and leaves one. -/
theorem Effect.genesis (effect : Effect machine context authority vault call vault' event) :
    (call.bootstraps call.vaultId = false ∧ vault'.bootstrapped = vault.bootstrapped) ∨
      (call.bootstraps call.vaultId = true ∧ vault.bootstrapped = false ∧
        vault'.bootstrapped = true) := by
  cases effect with
  | bootstrapped _ _ _ _ unknown =>
      exact .inr ⟨by simp [Call.bootstraps, Call.vaultId], unknown, rfl⟩
  | published => exact .inl ⟨rfl, rfl⟩
  | added => exact .inl ⟨rfl, rfl⟩
  | removed => exact .inl ⟨rfl, rfl⟩
  | proposed => exact .inl ⟨rfl, rfl⟩
  | finalized => exact .inl ⟨rfl, rfl⟩
  | canceled => exact .inl ⟨rfl, rfl⟩

theorem bootstraps_append :
    bootstraps vaultId (history ++ [(tx, event)]) =
      bootstraps vaultId history + if tx.call.bootstraps vaultId then 1 else 0 := by
  simp [bootstraps, List.countP_append, List.countP_cons]

theorem operations_append :
    operations vaultId (history ++ [(tx, event)]) =
      operations vaultId history + if tx.call.operates vaultId then 1 else 0 := by
  simp [operations, List.countP_append, List.countP_cons]

theorem messages_append :
    messages vaultId (history ++ [(tx, event)]) =
      messages vaultId history ++
        tx.call.message?.toList.filter fun message => message.vaultId = vaultId := by
  unfold messages
  rw [List.filterMap_append, List.filter_append]
  cases carried : tx.call.message? <;> simp [carried]

theorem Call.bootstraps_of_ne (other : vaultId ≠ call.vaultId) :
    call.bootstraps vaultId = false := by
  cases call with
  | bootstrapVault target => exact decide_eq_false fun same => other same.symm
  | _ => rfl

/-- A call's message for the vault is that of a genesis or of an operation. -/
theorem Call.length_message? (vaultId : Bytes32) (call : Call) :
    (call.message?.toList.filter fun message => message.vaultId = vaultId).length =
      (if call.bootstraps vaultId then 1 else 0) + if call.operates vaultId then 1 else 0 := by
  cases call with
  | bootstrapVault target =>
      by_cases same : target = vaultId <;>
        simp [Call.message?, Call.bootstraps, Call.operates, Message.vaultId, same]
  | addDevice target =>
      by_cases same : target = vaultId <;>
        simp [Call.message?, Call.bootstraps, Call.operates, Message.vaultId, same]
  | removeDevice target =>
      by_cases same : target = vaultId <;>
        simp [Call.message?, Call.bootstraps, Call.operates, Message.vaultId, same]
  | proposePromotion target =>
      by_cases same : target = vaultId <;>
        simp [Call.message?, Call.bootstraps, Call.operates, Message.vaultId, same]
  | publishRevision => rfl
  | finalizePromotion => rfl
  | cancelPromotion => rfl

theorem length_messages (vaultId : Bytes32) (history : List (Transaction × Event)) :
    (messages vaultId history).length =
      bootstraps vaultId history + operations vaultId history := by
  induction history using List.reverseRecOn with
  | nil => rfl
  | append_singleton history entry ih =>
      rw [messages_append, bootstraps_append, operations_append, List.length_append, ih,
        Call.length_message?]
      omega

/-- The nonce of a vault is the number of its messages, and so are theirs. -/
structure NonceInv (storage : Storage) (history : List (Transaction × Event))
    (vaultId : Bytes32) : Prop where
  nonce : storage.deviceNonce vaultId = UInt64.ofNat (messages vaultId history).length
  nonces : (messages vaultId history).map Message.nonce =
    (List.range (messages vaultId history).length).map UInt64.ofNat
  unborn : storage.bootstrapped vaultId = false → bootstraps vaultId history = 0
  once : bootstraps vaultId history ≤ 1

variable {storage storage' : Storage}

/-- A call for another vault changes neither the nonce nor the messages. -/
theorem NonceInv.frame (inv : NonceInv storage history vaultId)
    (same : storage'.vault vaultId = storage.vault vaultId) (other : vaultId ≠ tx.call.vaultId) :
    NonceInv storage' (history ++ [(tx, event)]) vaultId := by
  have silent : messages vaultId (history ++ [(tx, event)]) = messages vaultId history := by
    rw [messages_append]
    cases found : tx.call.message? with
    | none => simp
    | some message =>
        have apart : message.vaultId ≠ vaultId := by
          rw [Call.vaultId_message? found]
          exact fun equal => other equal.symm
        simp [apart]
  have genesis : bootstraps vaultId (history ++ [(tx, event)]) = bootstraps vaultId history := by
    rw [bootstraps_append, Call.bootstraps_of_ne other]
    rfl
  have nonce : storage'.deviceNonce vaultId = storage.deviceNonce vaultId :=
    congrArg Vault.nonce same
  have known : storage'.bootstrapped vaultId = storage.bootstrapped vaultId :=
    congrArg Vault.bootstrapped same
  constructor
  · rw [silent, nonce]
    exact inv.nonce
  · rw [silent]
    exact inv.nonces
  · rw [known, genesis]
    exact inv.unborn
  · rw [genesis]
    exact inv.once

/-- A call for the vault itself moves both or neither. -/
theorem NonceInv.effect (inv : NonceInv storage history tx.call.vaultId)
    (unborn : storage.bootstrapped tx.call.vaultId = false →
      storage.deviceNonce tx.call.vaultId = 0)
    (effect : Effect machine tx.context tx.authority (storage.vault tx.call.vaultId) tx.call
      (storage'.vault tx.call.vaultId) event) :
    NonceInv storage' (history ++ [(tx, event)]) tx.call.vaultId := by
  have genesis : (storage'.bootstrapped tx.call.vaultId = false →
      bootstraps tx.call.vaultId (history ++ [(tx, event)]) = 0) ∧
        bootstraps tx.call.vaultId (history ++ [(tx, event)]) ≤ 1 := by
    rw [bootstraps_append]
    rcases effect.genesis with ⟨no, same⟩ | ⟨yes, before, after⟩
    · have same : storage'.bootstrapped tx.call.vaultId = storage.bootstrapped tx.call.vaultId :=
        same
      simp only [no, same, Bool.false_eq_true, if_false, add_zero]
      exact ⟨inv.unborn, inv.once⟩
    · have after : storage'.bootstrapped tx.call.vaultId = true := after
      simp [yes, after, inv.unborn before]
  rcases effect.nonce unborn with ⟨silent, kept⟩ | ⟨message, carried, current, moved⟩
  · have same : messages tx.call.vaultId (history ++ [(tx, event)]) =
        messages tx.call.vaultId history := by
      rw [messages_append, silent]
      exact List.append_nil _
    have kept : storage'.deviceNonce tx.call.vaultId = storage.deviceNonce tx.call.vaultId := kept
    refine ⟨?_, ?_, genesis.1, genesis.2⟩
    · rw [same, kept]
      exact inv.nonce
    · rw [same]
      exact inv.nonces
  · have added : messages tx.call.vaultId (history ++ [(tx, event)]) =
        messages tx.call.vaultId history ++ [message] := by
      rw [messages_append, carried]
      simp [Call.vaultId_message? carried]
    have current : message.nonce = storage.deviceNonce tx.call.vaultId := current
    have moved : storage'.deviceNonce tx.call.vaultId =
      storage.deviceNonce tx.call.vaultId + 1 := moved
    refine ⟨?_, ?_, genesis.1, genesis.2⟩
    · rw [added, moved, inv.nonce, List.length_append]
      simp
    · rw [added, List.map_append, List.length_append, inv.nonces]
      simp [List.range_succ, current, inv.nonce]

theorem nonceInv (machine : Machine) (txs : List Transaction) (vaultId : Bytes32) :
    NonceInv (Journal.run (execute machine) .empty txs)
      (Journal.accepted (execute machine) .empty txs) vaultId := by
  have both := Journal.run_invariant
    (fun storage history => LogInv storage history ∧ ∀ vaultId, NonceInv storage history vaultId)
    ⟨.empty, fun vaultId => ⟨rfl, rfl, fun _ => rfl, Nat.zero_le _⟩⟩
    (fun storage history tx storage' event inv done => by
      have executed : Executed machine storage tx storage' event := execute_executed done
      refine ⟨inv.1.accept executed, ?_⟩
      intro vaultId
      by_cases same : vaultId = tx.call.vaultId
      · subst same
        apply (inv.2 _).effect _ executed.effect
        intro unknown
        exact ((inv.1.devices _).unborn unknown).2.1
      · exact (inv.2 vaultId).frame (executed.frame vaultId same) same)
    txs
  exact both.2 vaultId

end

/-- In every run the nonce of a vault is the number of its accepted genesis, addition,
removal and proposal calls modulo `2^64`; with fewer than `2^64` operations no signed
message is accepted twice, be it once by the genesis and once by an addition; and a call
that reverts changes nothing. -/
theorem authorizations_single_use (machine : Machine) (txs : List Transaction)
    (vaultId : Bytes32) :
    let storage := Journal.run (execute machine) .empty txs
    let history := Journal.accepted (execute machine) .empty txs
    let calls := bootstraps vaultId history + operations vaultId history
    storage.deviceNonce vaultId = UInt64.ofNat calls ∧
      (calls < 2 ^ 64 → (storage.deviceNonce vaultId).toNat = calls) ∧
      (operations vaultId history < 2 ^ 64 → (messages vaultId history).Nodup) ∧
      ∀ tx revert, execute machine storage tx = .error revert →
        Journal.submit (execute machine) storage tx = storage := by
  intro storage history calls
  have inv : NonceInv storage history vaultId := nonceInv machine txs vaultId
  have total : (messages vaultId history).length = calls := length_messages vaultId history
  have nonce : storage.deviceNonce vaultId = UInt64.ofNat calls := by
    rw [← total]
    exact inv.nonce
  refine ⟨nonce, ?_, ?_, ?_⟩
  · intro below
    rw [nonce, UInt64.toNat_ofNat']
    exact Nat.mod_eq_of_lt below
  · intro below
    apply nodup_of_nonces inv.nonces
    have once := inv.once
    omega
  · intro tx revert failed
    exact Journal.submit_of_error failed

namespace Sample

def other : Address := 2

/-- Add the other device at an even turn and remove it at an odd one. -/
def toggle (turn : Nat) : Transaction :=
  if turn % 2 = 0 then
    mined (.addDevice vaultId other (UInt64.ofNat (turn + 1)) 1 signature)
  else
    mined (.removeDevice vaultId other (UInt64.ofNat (turn + 1)) 1 signature)

/-- A vault and this many turns. -/
def toggles (turns : Nat) : List Transaction := bootstrap :: (List.range turns).map toggle

/-- The storage and the journal after some turns. -/
structure Toggled (turns : Nat) (storage : Storage) (history : List (Transaction × Event)) :
    Prop where
  born : storage.bootstrapped vaultId = true
  manager : storage.deviceManager vaultId = device
  nonce : storage.deviceNonce vaultId = UInt64.ofNat (turns + 1)
  listed : storage.authorizedDevice vaultId other = decide (turns % 2 = 1)
  count : storage.authorizedDeviceCount vaultId = if turns % 2 = 1 then 2 else 1
  genesis : bootstraps vaultId history = 1
  operations : RevisionLogV2.operations vaultId history = turns

theorem requireManagerSig_signature {storage : Storage} (digest : Bytes32)
    (manager : storage.deviceManager vaultId = device) :
    requireManagerSig machine 0 storage vaultId digest signature = .ok device := by
  have nonzero : device ≠ 0 := by decide
  simp only [requireManagerSig, recover_signature, currentManager, manager, nonzero, if_true,
    if_false, ne_eq, not_true_eq_false]

theorem Toggled.next {turns : Nat} {storage : Storage} {history : List (Transaction × Event)}
    (toggled : Toggled turns storage history) :
    ∃ storage' event, execute machine storage (toggle turns) = .ok (storage', event) ∧
      Toggled (turns + 1) storage' (history ++ [(toggle turns, event)]) := by
  have version : ¬ maxKnownSchemaVersion < 1 := by decide
  have nonzero : other ≠ 0 := by decide
  have apart : other ≠ device := by decide
  have genesis : (toggle turns).call.bootstraps vaultId = false := by
    unfold toggle
    split <;> rfl
  have operates : (toggle turns).call.operates vaultId = true := by
    unfold toggle
    split <;> simp [mined, Call.operates]
  rcases Nat.mod_two_eq_zero_or_one turns with even | odd
  · have small : ¬ maxDevices ≤ (1 : UInt32) := by decide
    refine ⟨storage.setDevice vaultId other true (storage.authorizedDeviceCount vaultId + 1)
      (UInt64.ofNat (turns + 1) + 1),
      .deviceAdded vaultId other device (UInt64.ofNat (turns + 1)) 1, ?_, ?_⟩
    · simp only [toggle, even, if_true, execute, mined, addDevice, version, toggled.born, nonzero,
        toggled.nonce, toggled.count, toggled.listed, requireManagerSig_signature _ toggled.manager,
        small, if_false, not_true_eq_false, zero_ne_one, decide_false, Bool.false_eq_true, ne_eq]
    · constructor
      · exact toggled.born
      · exact toggled.manager
      · simp [Storage.setDevice]
      · have next : (turns + 1) % 2 = 1 := by omega
        simp [Storage.setDevice, next]
      · have next : (turns + 1) % 2 = 1 := by omega
        simp [Storage.setDevice, next, toggled.count, even]
      · simp [bootstraps_append, genesis, toggled.genesis]
      · simp [operations_append, operates, toggled.operations]
  · have many : ¬ (2 : UInt32) ≤ 1 := by decide
    refine ⟨storage.setDevice vaultId other false (storage.authorizedDeviceCount vaultId - 1)
      (UInt64.ofNat (turns + 1) + 1),
      .deviceRemoved vaultId other device (UInt64.ofNat (turns + 1)) 1, ?_, ?_⟩
    · simp only [toggle, odd, if_true, execute, mined, removeDevice, version, toggled.born,
        toggled.nonce, toggled.count, toggled.listed, requireManagerSig_signature _ toggled.manager,
        many, if_false, not_true_eq_false, one_ne_zero, decide_true, ne_eq, currentManager,
        toggled.manager, apart, or_self]
    · constructor
      · exact toggled.born
      · exact toggled.manager
      · simp [Storage.setDevice]
      · have next : (turns + 1) % 2 = 0 := by omega
        simp [Storage.setDevice, next]
      · have next : (turns + 1) % 2 = 0 := by omega
        simp [Storage.setDevice, next, toggled.count, odd]
      · simp [bootstraps_append, genesis, toggled.genesis]
      · simp [operations_append, operates, toggled.operations]

theorem toggled (turns : Nat) :
    Toggled turns (Journal.run (execute machine) .empty (toggles turns))
      (Journal.accepted (execute machine) .empty (toggles turns)) := by
  induction turns with
  | zero => exact ⟨rfl, rfl, rfl, rfl, rfl, rfl, rfl⟩
  | succ turns ih =>
      obtain ⟨storage', event, done, next⟩ := ih.next
      have split : toggles (turns + 1) = toggles turns ++ [toggle turns] := by
        simp [toggles, List.range_succ]
      rw [split, Journal.run_append, Journal.accepted_append, Journal.run_singleton,
        Journal.submit_of_ok done, Journal.accepted_singleton_of_ok done]
      exact next

end Sample

/-- With one operation less than `2^64` the nonce is back at zero, not at `2^64`. -/
theorem nonce_wraps :
    operations Sample.vaultId
        (Journal.accepted (execute Sample.machine) .empty (Sample.toggles (2 ^ 64 - 1))) <
      2 ^ 64 ∧
    ((Journal.run (execute Sample.machine) .empty (Sample.toggles (2 ^ 64 - 1))).deviceNonce
        Sample.vaultId).toNat ≠
      bootstraps Sample.vaultId
          (Journal.accepted (execute Sample.machine) .empty (Sample.toggles (2 ^ 64 - 1))) +
        operations Sample.vaultId
          (Journal.accepted (execute Sample.machine) .empty (Sample.toggles (2 ^ 64 - 1))) := by
  have final := Sample.toggled (2 ^ 64 - 1)
  rw [final.operations, final.genesis, final.nonce]
  exact ⟨by decide, by decide⟩

end Pangolin.RevisionLogV2
