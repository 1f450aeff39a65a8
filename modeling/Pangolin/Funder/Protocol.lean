import Pangolin.Funder.Service

/-!
# What a task may do for its row

The handler and the tasks of a restart keep to one protocol.  A task enters by inserting the
row or, after a restart, by having been started for it; from then on it is the only one that
touches the row, until the process stops.
-/

namespace Pangolin.Funder

open Evm EntitlementRegistry Tasks

/-- The columns of a row that say what is to be paid. -/
structure Payment where
  userId : Bytes32
  deviceAddress : Address
  amount : BitVec 256
  deriving Repr, DecidableEq

def PaymentRow.payment (row : PaymentRow) : Payment :=
  ⟨row.userId, row.deviceAddress, row.creditAmount⟩

inductive Phase where
  /-- No row of its own. -/
  | outside
  | inserted (payment : Payment)
  /-- The redemption was answered with success, the row does not say so yet. -/
  | recording (payment : Payment)
  | submitted (payment : Payment)
  | mined (payment : Payment)
  /-- The transfer was answered with success. -/
  | paid
  /-- Nothing is left but to give up. -/
  | failing
  deriving Repr, DecidableEq

def Allows (state : AppState) (key : Bytes32) : Phase → Call → Prop
  | .outside, .rateLimit _ => True
  | .outside, .now => True
  | .outside, .tryInsert hash _ _ _ => hash = key
  | .inserted payment, .submitRedemption fields _ =>
      fields.userId = payment.userId ∧ fields.amount = payment.amount
  | .recording _, .updateRedemptionTxHash hash _ => hash = key
  | .submitted payment, .submitRedemption fields _ =>
      fields.userId = payment.userId ∧ fields.amount = payment.amount
  | .submitted _, .transitionState hash newState =>
      hash = key ∧ (newState = .redeemMined ∨ newState = .ethTransferFailed)
  | .mined payment, .submitEthTransfer toAddress value =>
      toAddress = payment.deviceAddress ∧ value = payment.amount ∧
        value.toNat ≤ state.ethTransferPerTxCapWei.toNat
  | .mined _, .transitionState hash newState => hash = key ∧ newState = .ethTransferFailed
  | .paid, .markEthTransferSubmitted hash _ _ => hash = key
  | .paid, .markEthTransferMined hash _ => hash = key
  | .paid, .transitionState hash newState =>
      hash = key ∧ (newState = .ethTransferMined ∨ newState = .ethTransferFailed)
  | .failing, .transitionState hash newState => hash = key ∧ newState = .ethTransferFailed
  | _, _ => False

def after : Phase → (call : Call) → Answer call → Phase
  | .outside, .tryInsert _ userId deviceAddress amount, .ok true =>
      .inserted ⟨userId, deviceAddress, amount⟩
  | .inserted payment, .submitRedemption _ _, .ok _ => .recording payment
  | .inserted _, .submitRedemption _ _, .error _ => .failing
  | .recording payment, .updateRedemptionTxHash _ _, .ok _ => .submitted payment
  | .recording _, .updateRedemptionTxHash _ _, .error _ => .failing
  | .submitted payment, .transitionState _ .redeemMined, .ok _ => .mined payment
  | .submitted payment, .transitionState _ .redeemMined, .error _ => .submitted payment
  | .submitted _, .transitionState _ _, _ => .failing
  | .mined _, .submitEthTransfer _ _, .ok _ => .paid
  | .mined _, .submitEthTransfer _ _, .error _ => .failing
  | .mined _, .transitionState _ _, _ => .failing
  | phase, _, _ => phase

def protocol (state : AppState) : Protocol Bytes32 Phase Call Answer := ⟨Allows state, after⟩

/-- Only an unrecorded redemption may not be left behind. -/
def MayEnd : Phase → Prop
  | .recording _ => False
  | _ => True

def Owner : Phase → Prop
  | .outside => False
  | _ => True

/-! ## The programs follow it -/

section

variable {state : AppState} {row : PaymentRow}

theorem sendEth_follows {key : Bytes32} {payment : Payment} {redeemTxHash : Bytes32}
    (capped : payment.amount.toNat ≤ state.ethTransferPerTxCapWei.toNat) :
    Follows (protocol state) key (fun phase _ => MayEnd phase) (.mined payment)
      (sendEth key payment.deviceAddress payment.amount redeemTxHash) := by
  refine ⟨⟨rfl, rfl, capped⟩, ?_⟩
  rintro (error | ⟨ethTxHash, blockNumber⟩)
  · exact ⟨⟨rfl, rfl⟩, fun _ => trivial⟩
  · refine ⟨rfl, ?_⟩
    rintro (error | affected)
    · exact trivial
    · refine ⟨rfl, ?_⟩
      rintro (error | affected)
      · exact trivial
      · exact trivial

theorem clampEthTransferAmount_eq_some {amount ethAmount : BitVec 256} {capWei : BitVec 128}
    (clamped : clampEthTransferAmount amount capWei = some ethAmount) :
    ethAmount = amount ∧ amount.toNat ≤ capWei.toNat := by
  unfold clampEthTransferAmount at clamped
  split at clamped
  · cases clamped
  · next within =>
      cases clamped
      exact ⟨rfl, Nat.le_of_not_lt within⟩

theorem redeemCredit_follows {req : TopUpRequest}
    (capped : req.credit.attestation.amount.toNat ≤ state.ethTransferPerTxCapWei.toNat) :
    Follows (protocol state) (req.credit.attestationHash state.deployment.machine)
      (fun phase _ => MayEnd phase)
      (.inserted ⟨req.credit.attestation.userId, req.deviceAddress, req.credit.attestation.amount⟩)
      (redeemCredit state req req.credit.attestation.amount) := by
  unfold redeemCredit
  dsimp only
  split
  · exact trivial
  · split
    · exact trivial
    · refine ⟨⟨rfl, rfl⟩, ?_⟩
      rintro (error | redeemTxHash)
      · exact trivial
      · refine ⟨rfl, ?_⟩
        rintro (error | affected)
        · exact trivial
        · refine ⟨⟨rfl, Or.inl rfl⟩, ?_⟩
          rintro (error | affected)
          · exact trivial
          · exact sendEth_follows capped

theorem handle_follows (state : AppState) (req : TopUpRequest) :
    Follows (protocol state) (req.credit.attestationHash state.deployment.machine)
      (fun phase _ => MayEnd phase) .outside (handle state req) := by
  refine ⟨trivial, ?_⟩
  rintro (_ | retryAfterSeconds)
  · show Follows _ _ _ Phase.outside (ite _ _ _)
    split
    · exact trivial
    · refine ⟨trivial, ?_⟩
      intro nowUnix
      show Follows _ _ _ Phase.outside (ite _ _ _)
      split
      · exact trivial
      · split
        · exact trivial
        · show Follows _ _ _ Phase.outside (ite _ _ _)
          split
          · exact trivial
          · split
            · exact trivial
            · next ethAmount clamped =>
                obtain ⟨rfl, capped⟩ := clampEthTransferAmount_eq_some clamped
                refine ⟨rfl, ?_⟩
                rintro (error | inserted)
                · exact trivial
                · cases inserted with
                  | false => exact trivial
                  | true => exact redeemCredit_follows capped
  · exact trivial

/-- The phase in which a task for the row starts. -/
def resumePhase (row : PaymentRow) : Phase :=
  match row.state with
  | .redeemSubmitted => .submitted row.payment
  | .redeemMined => .mined row.payment
  | .ethTransferSubmitted => .paid
  | _ => .failing

/-- Where a failed task may still mark its row. -/
def MayFail : Phase → Prop
  | .submitted _ => True
  | .mined _ => True
  | .paid => True
  | .failing => True
  | _ => False

theorem driveEthTransfer_follows (state : AppState) (row : PaymentRow) :
    Follows (protocol state) row.attestationHash (fun phase _ => MayFail phase)
      (.mined row.payment) (driveEthTransfer state row) := by
  unfold driveEthTransfer
  split
  · exact trivial
  · cases clamped : clampEthTransferAmount row.creditAmount state.ethTransferPerTxCapWei with
    | none => exact trivial
    | some ethAmount =>
        obtain ⟨rfl, capped⟩ := clampEthTransferAmount_eq_some clamped
        refine ⟨⟨rfl, rfl, capped⟩, ?_⟩
        rintro (error | ⟨txHash, blockNumber⟩)
        · exact trivial
        · refine ⟨rfl, ?_⟩
          rintro (error | affected)
          · exact trivial
          · refine ⟨rfl, ?_⟩
            rintro (error | affected)
            · exact trivial
            · exact trivial

theorem advanceToMined_follows (state : AppState) (row : PaymentRow) :
    Follows (protocol state) row.attestationHash (fun phase _ => MayFail phase)
      (.submitted row.payment) (advanceToMined state row) := by
  refine ⟨⟨rfl, Or.inl rfl⟩, ?_⟩
  rintro (error | affected)
  · exact trivial
  · exact driveEthTransfer_follows state row

theorem driveToCompletion_follows (state : AppState) (row : PaymentRow) :
    Follows (protocol state) row.attestationHash (fun phase _ => MayFail phase)
      (resumePhase row) (driveToCompletion state row) := by
  have start : MayFail (resumePhase row) := by
    unfold resumePhase
    cases row.state <;> exact trivial
  unfold driveToCompletion
  split
  · exact start
  · unfold resumePhase at start ⊢
    cases row.state with
    | redeemSubmitted =>
        dsimp only
        cases state.signRedemption (redemptionFieldsFromRow row) with
        | error error => exact trivial
        | ok signature =>
            refine ⟨⟨rfl, rfl⟩, ?_⟩
            rintro (error | txHash)
            · cases error with
              | revertedOnChain => exact advanceToMined_follows state row
              | revertedPreBroadcast => exact advanceToMined_follows state row
              | _ => exact trivial
            · exact advanceToMined_follows state row
    | redeemMined => exact driveEthTransfer_follows state row
    | ethTransferSubmitted =>
        refine ⟨⟨rfl, Or.inl rfl⟩, ?_⟩
        rintro (error | affected)
        · exact trivial
        · exact trivial
    | preRedeem => exact trivial
    | ethTransferMined => exact trivial
    | ethTransferFailed => exact trivial

theorem resumeTask_follows (state : AppState) (row : PaymentRow) :
    Follows (protocol state) row.attestationHash (fun phase _ => MayEnd phase)
      (resumePhase row) (resumeTask state row) := by
  apply (driveToCompletion_follows state row).bind
  rintro phase (failed | done) mayFail
  · -- every phase in which the drive may fail allows the row to be marked
    cases phase with
    | outside => cases mayFail
    | inserted payment => cases mayFail
    | recording payment => cases mayFail
    | submitted payment => exact ⟨⟨rfl, Or.inr rfl⟩, fun _ => trivial⟩
    | mined payment => exact ⟨⟨rfl, rfl⟩, fun _ => trivial⟩
    | paid => exact ⟨⟨rfl, Or.inr rfl⟩, fun _ => trivial⟩
    | failing => exact ⟨⟨rfl, rfl⟩, fun _ => trivial⟩
  · cases phase with
    | recording payment => cases mayFail
    | _ => exact trivial

end

/-! ## What one call can change -/

def Settled.attestationHash : Settled → Bytes32
  | .redeem hash _ => hash
  | .transfer hash _ _ => hash

/-- The row of `key` and what was done for it are the same. -/
structure SameAt (key : Bytes32) (shared shared' : Shared) : Prop where
  rows : ∀ row : PaymentRow, row.attestationHash = key →
    (row ∈ shared'.ledger ↔ row ∈ shared.ledger)
  entries : ∀ entry : Settled, entry.attestationHash = key →
    (entry ∈ shared'.settled ↔ entry ∈ shared.settled)

section

variable {state : AppState} {shared : Shared} {key other : Bytes32} {phase : Phase} {call : Call}
variable {outcome : Outcome}

theorem SameAt.refl (key : Bytes32) (shared : Shared) : SameAt key shared shared :=
  ⟨fun _ _ => Iff.rfl, fun _ _ => Iff.rfl⟩

theorem sameAt_update {change : PaymentRow → PaymentRow}
    (same : ∀ row, (change row).attestationHash = row.attestationHash) (apart : other ≠ key) :
    SameAt other shared { shared with ledger := (shared.ledger.update key change).1 } := by
  constructor
  · rintro row rfl
    rw [Ledger.mem_update]
    constructor
    · rintro ⟨old, member, rfl⟩
      split at apart
      · next isKey => exact absurd ((same old).trans isKey) apart
      · next notKey => simpa only [notKey, if_false] using member
    · intro member
      exact ⟨row, member, (if_neg apart).symm⟩
  · intro entry _
    exact Iff.rfl

theorem sameAt_insert {userId : Bytes32} {deviceAddress : Address} {amount : BitVec 256}
    {now : UInt64} (apart : other ≠ key) :
    SameAt other shared
      { shared with
        ledger := (shared.ledger.tryInsert key userId deviceAddress amount now).1 } := by
  by_cases taken : ∃ old ∈ shared.ledger, old.attestationHash = key
  · rw [Ledger.tryInsert_of_taken taken]
    exact .refl other shared
  · have fresh : ∀ old ∈ shared.ledger, old.attestationHash ≠ key := by
      intro old member isKey
      exact taken ⟨old, member, isKey⟩
    rw [Ledger.tryInsert_of_fresh fresh]
    constructor
    · rintro row rfl
      rw [List.mem_append, List.mem_singleton]
      constructor
      · rintro (old | rfl)
        · exact old
        · exact absurd rfl apart
      · exact Or.inl
    · intro entry _
      exact Iff.rfl

theorem sameAt_settled {entry : Settled} {storage : Storage} (apart : other ≠ entry.attestationHash) :
    SameAt other shared { shared with storage, settled := shared.settled ++ [entry] } := by
  constructor
  · intro row _
    exact Iff.rfl
  · rintro made rfl
    rw [List.mem_append, List.mem_singleton]
    constructor
    · rintro (old | rfl)
      · exact old
      · exact absurd rfl apart
    · exact Or.inl

theorem sameAt_write {written : Ledger × Bool}
    (same : SameAt other shared { shared with ledger := written.1 }) :
    SameAt other shared (shared.write outcome written).1 := by
  unfold Shared.write
  split
  · exact .refl other shared
  · exact same

/-- The row a call writes. -/
def Call.target : Call → Option Bytes32
  | .tryInsert hash _ _ _ => some hash
  | .updateRedemptionTxHash hash _ => some hash
  | .transitionState hash _ => some hash
  | .markEthTransferSubmitted hash _ _ => some hash
  | .markEthTransferMined hash _ => some hash
  | _ => none

theorem Allows.target_eq (allowed : Allows state key phase call) {hash : Bytes32}
    (writes : call.target = some hash) : hash = key := by
  cases call with
  | rateLimit deviceAddress => cases writes
  | now => cases writes
  | submitRedemption fields signature => cases writes
  | submitEthTransfer toAddress value => cases writes
  | tryInsert =>
      obtain rfl := Option.some.inj writes
      cases phase with
      | outside => exact allowed
      | _ => cases allowed
  | updateRedemptionTxHash =>
      obtain rfl := Option.some.inj writes
      cases phase with
      | recording => exact allowed
      | _ => cases allowed
  | transitionState =>
      obtain rfl := Option.some.inj writes
      cases phase with
      | outside => cases allowed
      | inserted => cases allowed
      | recording => cases allowed
      | _ => exact allowed.1
  | markEthTransferSubmitted =>
      obtain rfl := Option.some.inj writes
      cases phase with
      | paid => exact allowed
      | _ => cases allowed
  | markEthTransferMined =>
      obtain rfl := Option.some.inj writes
      cases phase with
      | paid => exact allowed
      | _ => cases allowed

/-- A call for one row leaves the others alone. -/
theorem perform_sameAt (allowed : Allows state key phase call) (apart : other ≠ key) :
    SameAt other shared (perform state shared key call outcome).1 := by
  cases call with
  | rateLimit deviceAddress => exact .refl other shared
  | now => exact .refl other shared
  | tryInsert hash userId deviceAddress amount =>
      obtain rfl := allowed.target_eq rfl
      exact sameAt_write (sameAt_insert apart)
  | updateRedemptionTxHash hash txHash =>
      obtain rfl := allowed.target_eq rfl
      exact sameAt_write (sameAt_update (fun _ => rfl) apart)
  | transitionState hash newState =>
      obtain rfl := allowed.target_eq rfl
      exact sameAt_write (sameAt_update (fun _ => rfl) apart)
  | markEthTransferSubmitted hash txHash wei =>
      obtain rfl := allowed.target_eq rfl
      exact sameAt_write (sameAt_update (fun _ => rfl) apart)
  | markEthTransferMined hash block =>
      obtain rfl := allowed.target_eq rfl
      simp only [perform, Ledger.markEthTransferMined]
      exact sameAt_write (sameAt_update (fun _ => rfl) apart)
  | submitRedemption fields signature =>
      simp only [perform, Shared.redeem]
      split
      · split
        · exact sameAt_settled apart
        · exact .refl other shared
      · exact .refl other shared
  | submitEthTransfer toAddress value =>
      simp only [perform]
      split
      · exact sameAt_settled apart
      · exact .refl other shared

/-- Assertions about the row of a task, and an invariant, over the protocol. -/
def discipline (state : AppState) (Holds : Shared → Bytes32 → Phase → Prop)
    (Inv : Shared → (Bytes32 → Phase → Prop) → Prop) :
    Discipline Shared Bytes32 Phase Call Answer :=
  { protocol state with MayEnd := MayEnd, Owner := Owner, Holds := Holds, Inv := Inv }

/-- Assertions that only speak of the row, and in which an owner has one, are kept by the
calls of the others. -/
theorem sound_discipline {Holds : Shared → Bytes32 → Phase → Prop}
    {Inv : Shared → (Bytes32 → Phase → Prop) → Prop}
    {guard : Shared → Bytes32 → Call → Outcome → Prop}
    (outside : ∀ shared key, Holds shared key .outside)
    (present : ∀ shared key phase, Owner phase → Holds shared key phase →
      ∃ row ∈ shared.ledger, row.attestationHash = key)
    (congr : ∀ shared shared' key phase, SameAt key shared shared' → Holds shared key phase →
      Holds shared' key phase)
    (step : ∀ shared held key phase call outcome,
      Move (discipline state Holds Inv) guard shared held key phase call outcome →
        Holds (perform state shared key call outcome).1 key
          (after phase call (perform state shared key call outcome).2))
    (inv : ∀ shared held held' key phase call outcome,
      Move (discipline state Holds Inv) guard shared held key phase call outcome →
        (∀ other since, held other since → held' other since ∨ other = key ∧ since = phase) →
        held' key (after phase call (perform state shared key call outcome).2) →
          Inv (perform state shared key call outcome).1 held')
    (mono : ∀ shared held held', (∀ key phase, held key phase → held' key phase) →
      Inv shared held → Inv shared held') :
    Sound (discipline state Holds Inv) (perform state) guard where
  step := step
  inv := inv
  apart := by
    intro shared held key phase call outcome move other since different knows
    exact congr _ _ _ _ (perform_sameAt move.allowed different) knows
  bystander := by
    intro shared held key phase call outcome move since foreign knows
    cases since with
    | outside => exact outside _ _
    | _ => exact absurd trivial foreign
  intruder := by
    intro shared held key phase call outcome move foreign since owns knows
    have taken := present _ _ _ owns knows
    have allowed : Allows state key phase call := move.allowed
    -- the one call that could take the row finds it there
    cases phase with
    | outside =>
        cases call with
        | rateLimit deviceAddress => exact ⟨knows, foreign⟩
        | now => exact ⟨knows, foreign⟩
        | tryInsert hash userId deviceAddress amount =>
            obtain rfl := allowed.target_eq rfl
            simp only [perform, Shared.write, Ledger.tryInsert_of_taken taken]
            split
            · exact ⟨knows, foreign⟩
            · exact ⟨knows, foreign⟩
        | _ => cases allowed
    | _ => exact absurd trivial foreign
  mono := mono

end

/-! ## Runs -/

/-- The condition on a step, from one on the calls and one on the restarts. -/
def Guard (onCall : Shared → Bytes32 → Call → Outcome → Prop) (onRestart : World → Prop)
    (world : World) : Action → Prop
  | .run id outcome => Guarded onCall world.shared world.pool id outcome
  | .restart => onRestart world
  | .post _ _ => True
  | .transact _ => True

instance (onCall : Shared → Bytes32 → Call → Outcome → Prop) (onRestart : World → Prop)
    [∀ shared key call outcome, Decidable (onCall shared key call outcome)]
    [∀ world, Decidable (onRestart world)] (world : World) :
    (action : Action) → Decidable (Guard onCall onRestart world action)
  | .run id outcome =>
      inferInstanceAs (Decidable (Guarded onCall world.shared world.pool id outcome))
  | .restart => inferInstanceAs (Decidable (onRestart world))
  | .post _ _ => .isTrue trivial
  | .transact _ => .isTrue trivial

section

variable {state : AppState} {Holds : Shared → Bytes32 → Phase → Prop}
variable {Inv : Shared → (Bytes32 → Phase → Prop) → Prop}
variable {onCall : Shared → Bytes32 → Call → Outcome → Prop} {onRestart : World → Prop}

/-- The tasks of the world keep to the protocol and know what they should. -/
def Tidy (state : AppState) (Holds : Shared → Bytes32 → Phase → Prop)
    (Inv : Shared → (Bytes32 → Phase → Prop) → Prop) (world : World) : Prop :=
  ∃ phases, Coherent (discipline state Holds Inv) world.shared world.pool phases

theorem tidy_start {storage : Storage} (inv : ∀ held, Inv (World.start storage).shared held) :
    Tidy state Holds Inv (World.start storage) := by
  refine ⟨fun _ => .outside, ?_, ?_, ?_, inv _⟩
  · intro id task found
    cases found
  · intro id task found
    cases found
  · intro id id' task task' found
    cases found

/-- The tasks of a restart: one for each resumable row, and no two rows share a hash. -/
theorem tidy_restart {shared : Shared}
    (unique : (shared.ledger.map PaymentRow.attestationHash).Nodup)
    (holds : ∀ row ∈ shared.ledger, row.state.resumable = true →
      Holds shared row.attestationHash (resumePhase row))
    (inv : ∀ held, Inv shared held) :
    Tidy state Holds Inv ⟨shared, resumeInFlight state shared.ledger⟩ := by
  have found_iff : ∀ id task, resumeInFlight state shared.ledger id = some task →
      ∃ row, shared.ledger.findResumableEntries[id]? = some row ∧
        task = ⟨row.attestationHash, resumeTask state row⟩ := by
    intro id task found
    obtain ⟨row, isRow, rfl⟩ := Option.map_eq_some_iff.mp found
    exact ⟨row, isRow, rfl⟩
  have hashes : (shared.ledger.findResumableEntries.map PaymentRow.attestationHash).Nodup :=
    unique.sublist (List.filter_sublist.map _)
  refine ⟨fun id => (shared.ledger.findResumableEntries[id]?.map resumePhase).getD .outside,
    ?_, ?_, ?_, inv _⟩
  · intro id task found
    obtain ⟨row, isRow, rfl⟩ := found_iff id task found
    simp only [isRow, Option.map_some, Option.getD_some]
    exact resumeTask_follows state row
  · intro id task found
    obtain ⟨row, isRow, rfl⟩ := found_iff id task found
    simp only [isRow, Option.map_some, Option.getD_some]
    have member := List.mem_filter.mp (List.mem_of_getElem? isRow)
    exact holds row member.1 member.2
  · intro id id' task task' found found' shares _ _
    obtain ⟨row, isRow, rfl⟩ := found_iff id task found
    obtain ⟨row', isRow', rfl⟩ := found_iff id' task' found'
    have first : (shared.ledger.findResumableEntries.map PaymentRow.attestationHash)[id]? =
        some row.attestationHash := by
      rw [List.getElem?_map, isRow, Option.map_some]
    have second : (shared.ledger.findResumableEntries.map PaymentRow.attestationHash)[id']? =
        some row'.attestationHash := by
      rw [List.getElem?_map, isRow', Option.map_some]
    have bound := (List.getElem?_eq_some_iff.mp first).1
    apply (List.getElem?_inj bound hashes).mp
    rw [first, second]
    exact congrArg some shares

/-- Every run keeps the tasks tidy. -/
theorem tidy_reaches (sound : Sound (discipline state Holds Inv) (perform state) onCall)
    (outside : ∀ shared key, Holds shared key .outside)
    (congr : ∀ shared shared' key phase, SameAt key shared shared' → Holds shared key phase →
      Holds shared' key phase)
    (external : ∀ shared storage held, Inv shared held → Inv { shared with storage } held)
    (restart : ∀ world, Tidy state Holds Inv world → onRestart world →
      Tidy state Holds Inv (step state world .restart))
    {storage : Storage} (inv : ∀ held, Inv (World.start storage).shared held) {world : World}
    (run : Transition.Reaches (step state) (Guard onCall onRestart) (World.start storage) world) :
    Tidy state Holds Inv world := by
  apply run.invariant (Tidy state Holds Inv) ?_ (tidy_start inv)
  rintro world action ⟨phases, coherent⟩ guarded
  cases action with
  | post id req =>
      simp only [step]
      cases free : world.pool id with
      | some task => exact ⟨phases, coherent⟩
      | none =>
          have follows : Follows (protocol state) (handlerTask state req).key
              (fun phase _ => MayEnd phase) .outside (handlerTask state req).program := by
            apply (handle_follows state req).bind
            intro phase _ mayEnd
            exact mayEnd
          exact ⟨_, coherent.spawn sound free follows (outside _ _) (fun owns => owns)⟩
  | run id outcome => exact coherent.advance sound guarded
  | restart => exact restart world ⟨phases, coherent⟩ guarded
  | transact tx =>
      refine ⟨phases, coherent.frame ?_ ?_⟩
      · intro key phase
        exact congr _ _ key phase ⟨fun _ _ => Iff.rfl, fun _ _ => Iff.rfl⟩
      · intro held
        exact external _ _ held

end

end Pangolin.Funder
