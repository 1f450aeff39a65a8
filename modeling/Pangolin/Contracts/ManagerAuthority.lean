import Pangolin.Contracts.Promotions
import Pangolin.Contracts.RecoveryV1

/-!
# Who manages the devices of a vault

The revision log and the recovery contract it reads, as one machine.  The manager of a
vault is the recovery contract's authority where there is one: the first caller of
`setGuardianSet` for the vault becomes its manager, whoever that is, and a promotion only
moves the log's own manager, which that authority hides.
-/

namespace Pangolin.ManagerAuthority

open Evm

structure State where
  log : RevisionLogV2.Storage
  recovery : RecoveryV1.Storage

/-- Two new deployments. -/
def State.deployed : State := ⟨.empty, .empty⟩

/-- The log's machine and the recovery contract it was deployed with; its constructor
rejects a zero address. -/
structure Deployment where
  machine : Machine
  recoveryV1 : Address
  recoveryV1_ne_zero : recoveryV1 ≠ 0

/-- The recovery contract runs on the same chain under its own address. -/
def Deployment.recoveryMachine (deployment : Deployment) : Machine :=
  { deployment.machine with self := deployment.recoveryV1 }

/-- A call of either contract. -/
inductive Call where
  | log (call : RevisionLogV2.Call)
  | recovery (call : RecoveryV1.Call)
  deriving Repr, DecidableEq

structure Transaction where
  context : Context
  call : Call
  deriving Repr, DecidableEq

inductive Event where
  | log (event : RevisionLogV2.Event)
  | recovery (event : RecoveryV1.Event)
  deriving Repr, DecidableEq

inductive Revert where
  | log (revert : RevisionLogV2.Revert)
  | recovery (revert : RecoveryV2.Revert)
  deriving Repr, DecidableEq

/-- The log reads the recovery contract's authority as it is during the call. -/
def execute (deployment : Deployment) (state : State) (tx : Transaction) :
    Except Revert (State × Event) :=
  match tx.call with
  | .log call =>
      match RevisionLogV2.execute deployment.machine state.log
          ⟨tx.context, state.recovery.vaultAuthority call.vaultId, call⟩ with
      | .ok (log, event) => .ok ({ state with log }, .log event)
      | .error revert => .error (.log revert)
  | .recovery call =>
      match RecoveryV1.execute deployment.recoveryMachine tx.context state.recovery call with
      | .ok (recovery, event) => .ok ({ state with recovery }, .recovery event)
      | .error revert => .error (.recovery revert)

/-- The log's `currentManager` view. -/
def State.currentManager (state : State) (vaultId : Bytes32) : Address :=
  RevisionLogV2.currentManager (state.recovery.vaultAuthority vaultId) state.log vaultId

/-- Every state the two deployments can get to. -/
abbrev reached (deployment : Deployment) (txs : List Transaction) : State :=
  Journal.run (execute deployment) .deployed txs

section

variable {deployment : Deployment} {state state' : State} {tx : Transaction} {event : Event}
variable {vaultId : Bytes32}

/-- An accepted transaction is one of its contract's, which leaves the other alone. -/
theorem execute_cases (done : execute deployment state tx = .ok (state', event)) :
    (∃ call emitted, tx.call = .log call ∧ event = .log emitted ∧
      state'.recovery = state.recovery ∧
      RevisionLogV2.execute deployment.machine state.log
        ⟨tx.context, state.recovery.vaultAuthority call.vaultId, call⟩ =
          .ok (state'.log, emitted)) ∨
    ∃ call emitted, tx.call = .recovery call ∧ event = .recovery emitted ∧
      state'.log = state.log ∧
      RecoveryV1.execute deployment.recoveryMachine tx.context state.recovery call =
        .ok (state'.recovery, emitted) := by
  unfold execute at done
  split at done
  · next call isLog =>
      split at done
      · next log emitted accepted =>
          cases done
          exact .inl ⟨call, emitted, isLog, rfl, rfl, accepted⟩
      · cases done
  · next call isRecovery =>
      split at done
      · next recovery emitted accepted =>
          cases done
          exact .inr ⟨call, emitted, isRecovery, rfl, rfl, accepted⟩
      · cases done

/-- In every state a vault without guardians has no authority. -/
theorem untouched (deployment : Deployment) (txs : List Transaction) (vaultId : Bytes32) :
    RecoveryV1.Untouched (reached deployment txs).recovery vaultId := by
  refine Journal.run_invariant
    (fun (state : State) (_ : List (Transaction × Event)) =>
      RecoveryV1.Untouched state.recovery vaultId) ?_ ?_ txs
  · exact ⟨fun _ => rfl, fun _ pending => by cases pending⟩
  · intro state history tx state' event inv done
    rcases execute_cases done with
      ⟨call, emitted, -, -, same, -⟩ | ⟨call, emitted, -, -, -, accepted⟩
    · rw [same]
      exact inv
    · exact inv.step (RecoveryV1.execute_authority accepted vaultId)

/-- The log's own manager of a bootstrapped vault moves only with a promotion. -/
theorem manager_moved {machine : Machine} {storage storage' : RevisionLogV2.Storage}
    {logTx : RevisionLogV2.Transaction} {emitted : RevisionLogV2.Event}
    (done : RevisionLogV2.execute machine storage logTx = .ok (storage', emitted))
    (born : storage.bootstrapped vaultId = true)
    (moved : storage'.deviceManager vaultId ≠ storage.deviceManager vaultId) :
    ∃ schemaVersion, logTx.call = .finalizePromotion vaultId schemaVersion := by
  have executed := RevisionLogV2.execute_executed done
  by_cases own : vaultId = logTx.call.vaultId
  · subst own
    have effect := executed.effect
    generalize before : storage.vault logTx.call.vaultId = vault at effect
    generalize later : storage'.vault logTx.call.vaultId = vault' at effect
    have born : vault.bootstrapped = true := by
      rw [← before]
      exact born
    have moved : vault'.manager ≠ vault.manager := by
      rw [← before, ← later]
      exact moved
    generalize named : logTx.call = call at effect
    cases effect with
    | bootstrapped _ _ _ _ unknown =>
        rw [unknown] at born
        cases born
    | published => exact absurd rfl moved
    | added => exact absurd rfl moved
    | removed => exact absurd rfl moved
    | proposed => exact absurd rfl moved
    | finalized target schemaVersion => exact ⟨schemaVersion, rfl⟩
    | canceled => exact absurd rfl moved
  · exact absurd (congrArg RevisionLogV2.Vault.manager (executed.frame vaultId own)) moved

end

/-! ## Changes of the manager -/

/-- The transaction may change the manager of the vault: it finalizes a promotion or a
recovery of it, or the manager itself sets its guardians. -/
def Authorized (deployment : Deployment) (state : State) (tx : Transaction)
    (vaultId : Bytes32) : Prop :=
  ((∃ result, execute deployment state tx = .ok result) ∧
    ∃ schemaVersion, tx.call = .log (.finalizePromotion vaultId schemaVersion)) ∨
  ((∃ result, execute deployment state tx = .ok result) ∧
    ∃ schemaVersion, tx.call = .recovery (.finalizeRecovery vaultId schemaVersion)) ∨
  ((∃ root threshold guardianCount schemaVersion, tx.call =
      .recovery (.setGuardianSet vaultId root threshold guardianCount schemaVersion)) ∧
    tx.context.sender = state.currentManager vaultId)

/-- Somebody other than the manager sets the vault's first guardians. -/
def Seizes (state : State) (tx : Transaction) (vaultId : Bytes32) : Prop :=
  ∃ root threshold guardianCount schemaVersion,
    tx.call = .recovery (.setGuardianSet vaultId root threshold guardianCount schemaVersion) ∧
      (state.recovery.guardianSet vaultId).initialized = false ∧
      RecoveryV1.Bounded root threshold guardianCount schemaVersion ∧
      tx.context.sender ≠ 0 ∧ tx.context.sender ≠ state.currentManager vaultId

section

variable {deployment : Deployment} {state : State} {tx : Transaction} {vaultId : Bytes32}

/-- A seizure makes its sender the manager. -/
theorem Seizes.currentManager (seizes : Seizes state tx vaultId) :
    (Journal.submit (execute deployment) state tx).currentManager vaultId = tx.context.sender := by
  obtain ⟨root, threshold, guardianCount, schemaVersion, call, fresh, bounded, nonzero, -⟩ := seizes
  have accepted := @RecoveryV1.setGuardianSet_eq tx.context state.recovery vaultId root threshold
    guardianCount schemaVersion fresh bounded
  simp only [Journal.submit, execute, call, RecoveryV1.execute, accepted, State.currentManager,
    RevisionLogV2.currentManager, Function.update_self, nonzero, if_false]

/-- A log call changes the manager of a bootstrapped vault only by finalizing a promotion. -/
theorem changed_by_log {state' : State} {call : RevisionLogV2.Call}
    {emitted : RevisionLogV2.Event} (born : state.log.bootstrapped vaultId = true)
    (same : state'.recovery = state.recovery)
    (accepted : RevisionLogV2.execute deployment.machine state.log
      ⟨tx.context, state.recovery.vaultAuthority call.vaultId, call⟩ = .ok (state'.log, emitted))
    (changed : state'.currentManager vaultId ≠ state.currentManager vaultId) :
    ∃ schemaVersion, call = .finalizePromotion vaultId schemaVersion := by
  apply manager_moved accepted born
  intro kept
  apply changed
  simp only [State.currentManager, RevisionLogV2.currentManager, same, kept]

/-- A recovery call changes it only by finalizing a recovery, or as the first
`setGuardianSet`, which replaces a manager that is the log's own. -/
theorem changed_by_recovery {state' : State} {call : RecoveryV1.Call}
    {emitted : RecoveryV1.Event} (inv : RecoveryV1.Untouched state.recovery vaultId)
    (same : state'.log = state.log)
    (accepted : RecoveryV1.execute deployment.recoveryMachine tx.context state.recovery call =
      .ok (state'.recovery, emitted))
    (changed : state'.currentManager vaultId ≠ state.currentManager vaultId) :
    (∃ schemaVersion, call = .finalizeRecovery vaultId schemaVersion) ∨
      ∃ root threshold guardianCount schemaVersion,
        call = .setGuardianSet vaultId root threshold guardianCount schemaVersion ∧
          (state.recovery.guardianSet vaultId).initialized = false ∧
          RecoveryV1.Bounded root threshold guardianCount schemaVersion ∧
          tx.context.sender ≠ 0 := by
  cases RecoveryV1.execute_authority accepted vaultId with
  | kept _ _ authority =>
      apply absurd _ changed
      simp only [State.currentManager, RevisionLogV2.currentManager, same, authority]
  | genesis root threshold guardianCount schemaVersion _ fresh bounded sender =>
      refine .inr ⟨root, threshold, guardianCount, schemaVersion, rfl, fresh, bounded, ?_⟩
      intro zero
      apply changed
      simp only [State.currentManager, RevisionLogV2.currentManager, same, sender, zero,
        inv.authority fresh]
  | finalized schemaVersion => exact .inl ⟨schemaVersion, rfl⟩

end

/-- From every state the two contracts can get to, a call changes the manager of a
bootstrapped vault only with authority, unless it is the first `setGuardianSet` for the
vault within the contract's bounds, sent by somebody else. -/
theorem manager_changes_authorized (deployment : Deployment) (txs : List Transaction)
    (tx : Transaction) (vaultId : Bytes32)
    (born : (reached deployment txs).log.bootstrapped vaultId = true) :
    ((Journal.submit (execute deployment) (reached deployment txs) tx).currentManager vaultId ≠
        (reached deployment txs).currentManager vaultId →
      Authorized deployment (reached deployment txs) tx vaultId) ↔
      ¬ Seizes (reached deployment txs) tx vaultId := by
  have inv := untouched deployment txs vaultId
  generalize reached deployment txs = state at born inv ⊢
  constructor
  · intro authorized seizes
    have manager := @Seizes.currentManager deployment state tx vaultId seizes
    obtain ⟨root, threshold, guardianCount, schemaVersion, call, -, -, -, stranger⟩ := seizes
    rw [manager] at authorized
    rcases authorized stranger with ⟨-, _, isLog⟩ | ⟨-, _, isFinal⟩ | ⟨-, own⟩
    · rw [call] at isLog
      cases isLog
    · rw [call] at isFinal
      cases isFinal
    · exact stranger own
  · intro unseized changed
    cases outcome : execute deployment state tx with
    | error revert => exact absurd (by rw [Journal.submit_of_error outcome]) changed
    | ok result =>
        obtain ⟨state', event⟩ := result
        rw [Journal.submit_of_ok outcome] at changed
        rcases execute_cases outcome with
          ⟨call, emitted, isLog, -, same, accepted⟩ |
            ⟨call, emitted, isRecovery, -, same, accepted⟩
        · obtain ⟨schemaVersion, rfl⟩ := changed_by_log born same accepted changed
          exact .inl ⟨⟨_, outcome⟩, schemaVersion, isLog⟩
        · rcases changed_by_recovery inv same accepted changed with
            ⟨schemaVersion, rfl⟩ |
              ⟨root, threshold, guardianCount, schemaVersion, rfl, fresh, bounded, nonzero⟩
          · exact .inr (.inl ⟨⟨_, outcome⟩, schemaVersion, isRecovery⟩)
          · refine .inr (.inr ⟨⟨root, threshold, guardianCount, schemaVersion, isRecovery⟩, ?_⟩)
            by_contra stranger
            exact unseized ⟨root, threshold, guardianCount, schemaVersion, isRecovery, fresh,
              bounded, nonzero, stranger⟩

/-! ## Promotions -/

/-- A finalized promotion writes the log's own manager. -/
theorem finalized_manager {machine : Machine} {storage storage' : RevisionLogV2.Storage}
    {logTx : RevisionLogV2.Transaction} {vaultId : Bytes32} {oldManager candidate : Address}
    {schemaVersion : UInt16}
    (done : RevisionLogV2.execute machine storage logTx =
      .ok (storage', .promotionFinalized vaultId oldManager candidate schemaVersion)) :
    storage'.deviceManager vaultId = candidate := by
  have effect := (RevisionLogV2.execute_executed done).effect
  generalize later : storage'.vault logTx.call.vaultId = vault' at effect
  generalize named : logTx.call = call at effect later
  cases effect with
  | finalized => exact congrArg RevisionLogV2.Vault.manager later

/-- A finalized promotion makes its candidate the manager exactly where the recovery
contract has no authority for the vault or the candidate is that authority. -/
theorem promotion_takes_effect (deployment : Deployment) (txs : List Transaction)
    (tx : Transaction) {vaultId : Bytes32} {oldManager candidate : Address}
    {schemaVersion : UInt16} {state' : State}
    (done : execute deployment (reached deployment txs) tx =
      .ok (state', .log (.promotionFinalized vaultId oldManager candidate schemaVersion))) :
    state'.currentManager vaultId = candidate ↔
      (reached deployment txs).recovery.vaultAuthority vaultId = 0 ∨
        (reached deployment txs).recovery.vaultAuthority vaultId = candidate := by
  rcases execute_cases done with
    ⟨call, emitted, -, isLog, same, accepted⟩ | ⟨call, emitted, -, isRecovery, -, -⟩
  · cases isLog
    have manager := finalized_manager accepted
    simp only [State.currentManager, RevisionLogV2.currentManager, same, manager]
    split
    · next none => exact ⟨fun _ => .inl none, fun _ => rfl⟩
    · next some => exact ⟨.inr, fun either => either.resolve_left some⟩
  · cases isRecovery

namespace Sample

def deployment : Deployment where
  machine := RevisionLogV2.Sample.signingMachine
  recoveryV1 := 9
  recoveryV1_ne_zero := by decide

def vaultId : Bytes32 := 7

def owner : Address := 1

def minedBy (sender : Address) (timestamp : Nat) (call : Call) : Transaction :=
  ⟨⟨sender, timestamp⟩, call⟩

/-- A vault whose only device is its manager. -/
def bootstrapped : List Transaction :=
  [minedBy owner 0 (.log (.bootstrapVault vaultId owner 1 (RevisionLogV2.Sample.sign owner)))]

def setGuardians (sender : Address) : Transaction :=
  minedBy sender 10 (.recovery (.setGuardianSet vaultId 5 2 3 1))

/-- The owner adds a second device, which proposes itself. -/
def proposed : List Transaction :=
  [minedBy owner 20 (.log (.addDevice vaultId 2 1 1 (RevisionLogV2.Sample.sign owner))),
    minedBy owner 30 (.log (.proposePromotion vaultId 2 2 1 (RevisionLogV2.Sample.sign 2)))]

def finalize : Transaction := minedBy 2 172830 (.log (.finalizePromotion vaultId 1))

end Sample

/-- The owner of a bootstrapped vault sets its guardians and stays its manager. -/
theorem manager_changes_authorized_owner :
    (reached Sample.deployment Sample.bootstrapped).log.bootstrapped Sample.vaultId = true ∧
    ((Journal.submit (execute Sample.deployment) (reached Sample.deployment Sample.bootstrapped)
        (Sample.setGuardians Sample.owner)).currentManager Sample.vaultId ≠
        (reached Sample.deployment Sample.bootstrapped).currentManager Sample.vaultId →
      Authorized Sample.deployment (reached Sample.deployment Sample.bootstrapped)
        (Sample.setGuardians Sample.owner) Sample.vaultId) := by
  refine ⟨rfl, ?_⟩
  apply (manager_changes_authorized Sample.deployment Sample.bootstrapped
    (Sample.setGuardians Sample.owner) Sample.vaultId rfl).mpr
  rintro ⟨_, _, _, _, -, -, -, -, stranger⟩
  exact stranger rfl

/-- A stranger sets the first guardians of a bootstrapped vault and manages its devices
from then on. -/
theorem stranger_becomes_manager :
    (reached Sample.deployment Sample.bootstrapped).log.bootstrapped Sample.vaultId = true ∧
    (Journal.submit (execute Sample.deployment) (reached Sample.deployment Sample.bootstrapped)
      (Sample.setGuardians 66)).currentManager Sample.vaultId = 66 ∧
    ¬ ((Journal.submit (execute Sample.deployment)
          (reached Sample.deployment Sample.bootstrapped)
          (Sample.setGuardians 66)).currentManager Sample.vaultId ≠
        (reached Sample.deployment Sample.bootstrapped).currentManager Sample.vaultId →
      Authorized Sample.deployment (reached Sample.deployment Sample.bootstrapped)
        (Sample.setGuardians 66) Sample.vaultId) := by
  have manager : (Journal.submit (execute Sample.deployment)
      (reached Sample.deployment Sample.bootstrapped)
      (Sample.setGuardians 66)).currentManager Sample.vaultId = 66 := by decide +kernel
  have before : (reached Sample.deployment Sample.bootstrapped).currentManager Sample.vaultId =
      1 := by decide +kernel
  refine ⟨rfl, manager, ?_⟩
  intro authorized
  rw [manager, before] at authorized
  rcases authorized (by decide) with ⟨-, _, isLog⟩ | ⟨-, _, isFinal⟩ | ⟨-, own⟩
  · cases isLog
  · cases isFinal
  · rw [before] at own
    cases own

/-- Without guardians the promoted device is the manager. -/
theorem promotion_takes_effect_local :
    ∃ state', execute Sample.deployment
        (reached Sample.deployment (Sample.bootstrapped ++ Sample.proposed)) Sample.finalize =
          .ok (state', .log (.promotionFinalized Sample.vaultId 1 2 1)) ∧
      state'.currentManager Sample.vaultId = 2 := by
  have done : ∃ state', execute Sample.deployment
      (reached Sample.deployment (Sample.bootstrapped ++ Sample.proposed)) Sample.finalize =
        .ok (state', .log (.promotionFinalized Sample.vaultId 1 2 1)) := ⟨_, rfl⟩
  obtain ⟨state', done⟩ := done
  exact ⟨state', done, (promotion_takes_effect Sample.deployment _ Sample.finalize done).mpr
    (.inl rfl)⟩

/-- Where the owner has set guardians, the promotion finalizes and the owner stays the
manager. -/
theorem promotion_without_effect :
    ∃ state', execute Sample.deployment
        (reached Sample.deployment
          (Sample.bootstrapped ++ Sample.setGuardians Sample.owner :: Sample.proposed))
        Sample.finalize = .ok (state', .log (.promotionFinalized Sample.vaultId 1 2 1)) ∧
      state'.currentManager Sample.vaultId = Sample.owner ∧
      state'.currentManager Sample.vaultId ≠ 2 := by
  refine ⟨_, rfl, ?_, ?_⟩
  · rfl
  · decide

end Pangolin.ManagerAuthority
