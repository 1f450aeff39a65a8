import Pangolin.Funder.Protocol

/-!
# No payment without a debit, and none twice

What the funder sends to a device is taken off the balance at the registry first, and it is
sent once.  A row says how far its payment has come; a task started after a restart relies on
what the row says.
-/

namespace Pangolin.Funder

open Evm EntitlementRegistry Tasks Transition

def Settled.isTransfer (key : Bytes32) : Settled → Bool
  | .transfer hash _ _ => hash = key
  | .redeem _ _ => false

/-- At most one transfer for an attestation, of the amount of its row and within the cap, and
only after a redemption of that amount for the user, made for the same row. -/
structure PaysOnce (state : AppState) (shared : Shared) : Prop where
  once : ∀ key, shared.settled.countP (Settled.isTransfer key) ≤ 1
  debited : ∀ before later key toAddress value,
    shared.settled = before ++ .transfer key toAddress value :: later →
      ∃ row ∈ shared.ledger, row.attestationHash = key ∧ value = row.creditAmount ∧
        value.toNat ≤ state.ethTransferPerTxCapWei.toNat ∧
        ∃ fields, .redeem key fields ∈ before ∧ fields.userId = row.userId ∧
          fields.amount = value

/-! ## What the rows say -/

def Unpaid (shared : Shared) (key : Bytes32) : Prop :=
  ∀ entry ∈ shared.settled, entry.isTransfer key = false

def Redeemed (shared : Shared) (key : Bytes32) : Prop :=
  ∃ fields, .redeem key fields ∈ shared.settled

/-- The row of `key`, as its task knows it. -/
def HasRow (shared : Shared) (key : Bytes32) (payment : Payment) (recorded : PaymentState) :
    Prop :=
  ∃ row ∈ shared.ledger, row.attestationHash = key ∧ row.payment = payment ∧
    row.state = recorded

structure Accounts (state : AppState) (shared : Shared) : Prop extends PaysOnce state shared where
  unique : (shared.ledger.map PaymentRow.attestationHash).Nodup
  redeems : ∀ key fields, .redeem key fields ∈ shared.settled →
    ∃ row ∈ shared.ledger, row.attestationHash = key ∧ fields.userId = row.userId ∧
      fields.amount = row.creditAmount
  unpaid : ∀ row ∈ shared.ledger, row.state = .preRedeem ∨ row.state = .redeemSubmitted →
    Unpaid shared row.attestationHash
  redeemed : ∀ row ∈ shared.ledger, row.state = .redeemSubmitted ∨ row.state = .redeemMined →
    Redeemed shared row.attestationHash

section

variable {state : AppState} {shared : Shared} {key : Bytes32} {payment : Payment}

theorem Accounts.start (state : AppState) (storage : Storage) :
    Accounts state (World.start storage).shared := by
  refine ⟨⟨?_, ?_⟩, ?_, ?_, ?_, ?_⟩
  · intro key
    exact Nat.zero_le 1
  · intro before later key toAddress value split
    exact absurd split (by simp [World.start])
  · exact List.nodup_nil
  · intro key fields member
    cases member
  · intro row member
    cases member
  · intro row member
    cases member

theorem Accounts.storage (accounts : Accounts state shared) (storage : Storage) :
    Accounts state { shared with storage } :=
  ⟨⟨accounts.once, accounts.debited⟩, accounts.unique, accounts.redeems, accounts.unpaid,
    accounts.redeemed⟩

/-- Nothing was paid for an attestation without a row. -/
theorem Accounts.unpaid_of_fresh (accounts : Accounts state shared)
    (fresh : ∀ row ∈ shared.ledger, row.attestationHash ≠ key) : Unpaid shared key := by
  intro entry member
  cases entry with
  | redeem hash fields => rfl
  | transfer hash toAddress value =>
      obtain ⟨before, later, split⟩ := List.append_of_mem member
      obtain ⟨row, rowIn, isHash, _⟩ := accounts.debited before later hash toAddress value split
      simp only [Settled.isTransfer, decide_eq_false_iff_not]
      rintro rfl
      exact fresh row rowIn isHash

/-! ## Inserting a row -/

theorem Accounts.insert (accounts : Accounts state shared) {row : PaymentRow}
    (fresh : ∀ old ∈ shared.ledger, old.attestationHash ≠ row.attestationHash)
    (isNew : row.state = .preRedeem) :
    Accounts state { shared with ledger := shared.ledger ++ [row] } := by
  refine ⟨⟨accounts.once, ?_⟩, ?_, ?_, ?_, ?_⟩
  · intro before later key toAddress value split
    obtain ⟨old, member, rest⟩ := accounts.debited before later key toAddress value split
    exact ⟨old, List.mem_append_left _ member, rest⟩
  · exact Ledger.nodup_append accounts.unique fresh
  · intro key fields member
    obtain ⟨old, member, rest⟩ := accounts.redeems key fields member
    exact ⟨old, List.mem_append_left _ member, rest⟩
  · intro other member recorded
    rcases List.mem_append.mp member with old | isRow
    · exact accounts.unpaid other old recorded
    · obtain rfl := List.mem_singleton.mp isRow
      exact accounts.unpaid_of_fresh fresh
  · intro other member recorded
    rcases List.mem_append.mp member with old | isRow
    · exact accounts.redeemed other old recorded
    · obtain rfl := List.mem_singleton.mp isRow
      rw [isNew] at recorded
      rcases recorded with wrong | wrong <;> cases wrong

/-! ## Recording a state -/

/-- A change that keeps what is to be paid and records `recorded`. -/
structure Records (change : PaymentRow → PaymentRow) (recorded : PaymentState) : Prop where
  credit : ∀ row : PaymentRow, row.SameCredit (change row)
  recorded : ∀ row, (change row).state = recorded

theorem PaymentRow.SameCredit.payment_eq {row row' : PaymentRow} (same : row.SameCredit row') :
    row'.payment = row.payment := by
  simp only [PaymentRow.payment, same.userId, same.deviceAddress, same.creditAmount]

variable {change : PaymentRow → PaymentRow} {recorded : PaymentState}

/-- Every row is still there, with the same credit. -/
theorem Records.mem (records : Records change recorded) {row : PaymentRow}
    (member : row ∈ shared.ledger) :
    ∃ row' ∈ (shared.ledger.update key change).1, row.SameCredit row' := by
  refine ⟨_, Ledger.mem_update.mpr ⟨row, member, rfl⟩, ?_⟩
  split
  · exact records.credit row
  · exact ⟨rfl, rfl, rfl, rfl⟩

theorem Records.hasRow (records : Records change recorded) {since : PaymentState}
    (known : HasRow shared key payment since) :
    HasRow { shared with ledger := (shared.ledger.update key change).1 } key payment recorded := by
  obtain ⟨row, member, isKey, isPayment, _⟩ := known
  refine ⟨change row, Ledger.mem_update.mpr ⟨row, member, ?_⟩, ?_, ?_, records.recorded row⟩
  · rw [if_pos isKey]
  · rw [(records.credit row).attestationHash, isKey]
  · rw [(records.credit row).payment_eq, isPayment]

theorem Accounts.record (accounts : Accounts state shared) (records : Records change recorded)
    (isUnpaid : recorded = .preRedeem ∨ recorded = .redeemSubmitted → Unpaid shared key)
    (isRedeemed : recorded = .redeemSubmitted ∨ recorded = .redeemMined → Redeemed shared key) :
    Accounts state { shared with ledger := (shared.ledger.update key change).1 } := by
  refine ⟨⟨accounts.once, ?_⟩, ?_, ?_, ?_, ?_⟩
  · intro before later hash toAddress value split
    obtain ⟨row, member, isHash, isAmount, capped, fields, made, isUser, same⟩ :=
      accounts.debited before later hash toAddress value split
    obtain ⟨row', member', credit⟩ := records.mem member
    refine ⟨row', member', ?_, ?_, capped, fields, made, ?_, same⟩
    · rw [credit.attestationHash, isHash]
    · rw [credit.creditAmount, isAmount]
    · rw [credit.userId, isUser]
  · rw [Ledger.update_hashes fun row => (records.credit row).attestationHash]
    exact accounts.unique
  · intro hash fields made
    obtain ⟨row, member, isHash, isUser, isAmount⟩ := accounts.redeems hash fields made
    obtain ⟨row', member', credit⟩ := records.mem member
    refine ⟨row', member', ?_, ?_, ?_⟩
    · rw [credit.attestationHash, isHash]
    · rw [credit.userId, isUser]
    · rw [credit.creditAmount, isAmount]
  · intro row' member' now
    obtain ⟨row, member, rfl⟩ := Ledger.mem_update.mp member'
    split_ifs at now ⊢ with isKey
    · rw [records.recorded row] at now
      rw [(records.credit row).attestationHash, isKey]
      exact isUnpaid now
    · exact accounts.unpaid row member now
  · intro row' member' now
    obtain ⟨row, member, rfl⟩ := Ledger.mem_update.mp member'
    split_ifs at now ⊢ with isKey
    · rw [records.recorded row] at now
      rw [(records.credit row).attestationHash, isKey]
      exact isRedeemed now
    · exact accounts.redeemed row member now

theorem records_updateRedemptionTxHash (txHash : Bytes32) :
    Records (fun row => { row with redemptionTxHash := some txHash, state := .redeemSubmitted })
      .redeemSubmitted :=
  ⟨fun _ => ⟨rfl, rfl, rfl, rfl⟩, fun _ => rfl⟩

theorem records_transitionState (recorded : PaymentState) :
    Records (fun row => { row with state := recorded }) recorded :=
  ⟨fun _ => ⟨rfl, rfl, rfl, rfl⟩, fun _ => rfl⟩

theorem records_markEthTransferSubmitted (txHash : Bytes32) (wei : BitVec 256) :
    Records (fun row =>
      { row with
        ethTransferTxHash := some txHash
        ethTransferredWei := some wei
        state := .ethTransferSubmitted }) .ethTransferSubmitted :=
  ⟨fun _ => ⟨rfl, rfl, rfl, rfl⟩, fun _ => rfl⟩

theorem records_markEthTransferMined (block : UInt64) :
    Records (fun row => { row with ethTransferBlock := some block, state := .ethTransferMined })
      .ethTransferMined :=
  ⟨fun _ => ⟨rfl, rfl, rfl, rfl⟩, fun _ => rfl⟩

end

/-! ## Submitting -/

theorem append_singleton_split {Item : Type} {items before later : List Item} {last item : Item}
    (split : items ++ [last] = before ++ item :: later) :
    (later = [] ∧ last = item ∧ items = before) ∨
      ∃ rest, later = rest ++ [last] ∧ items = before ++ item :: rest := by
  rcases List.eq_nil_or_concat later with rfl | ⟨rest, final, rfl⟩
  · obtain ⟨rfl, same⟩ := List.append_inj' split rfl
    exact Or.inl ⟨rfl, List.singleton_inj.mp same, rfl⟩
  · rw [List.concat_eq_append, ← List.cons_append, ← List.append_assoc] at split
    obtain ⟨rfl, same⟩ := List.append_inj' split rfl
    obtain rfl := List.singleton_inj.mp same
    exact Or.inr ⟨rest, List.concat_eq_append, rfl⟩

section

variable {state : AppState} {shared : Shared} {key other : Bytes32} {payment : Payment}
variable {fields : Attestation} {storage : Storage} {recorded : PaymentState} {entry : Settled}

theorem Redeemed.append (known : Redeemed shared key) :
    Redeemed { shared with storage, settled := shared.settled ++ [entry] } key := by
  obtain ⟨fields, member⟩ := known
  exact ⟨fields, List.mem_append_left _ member⟩

theorem Unpaid.append (known : Unpaid shared key) (foreign : entry.isTransfer key = false) :
    Unpaid { shared with storage, settled := shared.settled ++ [entry] } key := by
  intro made member
  rcases List.mem_append.mp member with old | new
  · exact known made old
  · obtain rfl := List.mem_singleton.mp new
    exact foreign

theorem Accounts.redeem (accounts : Accounts state shared)
    (known : HasRow shared key payment recorded) (isUser : fields.userId = payment.userId)
    (isAmount : fields.amount = payment.amount) :
    Accounts state { shared with storage, settled := shared.settled ++ [.redeem key fields] } := by
  refine ⟨⟨?_, ?_⟩, accounts.unique, ?_, ?_, ?_⟩
  · intro other
    have before := accounts.once other
    simpa [List.countP_append, Settled.isTransfer] using before
  · intro before later hash toAddress value split
    rcases append_singleton_split split with ⟨_, wrong, _⟩ | ⟨rest, _, earlier⟩
    · cases wrong
    · exact accounts.debited before rest hash toAddress value earlier
  · intro hash made member
    rcases List.mem_append.mp member with old | new
    · exact accounts.redeems hash made old
    · cases List.mem_singleton.mp new
      obtain ⟨row, rowIn, isKey, isPayment, _⟩ := known
      refine ⟨row, rowIn, isKey, ?_, ?_⟩
      · rw [isUser, ← isPayment]
        rfl
      · rw [isAmount, ← isPayment]
        rfl
  · intro row member now
    exact (accounts.unpaid row member now).append rfl
  · intro row member now
    exact (accounts.redeemed row member now).append

theorem Accounts.transfer (accounts : Accounts state shared)
    (known : HasRow shared key payment .redeemMined) (isUnpaid : Unpaid shared key)
    (isRedeemed : Redeemed shared key)
    (capped : payment.amount.toNat ≤ state.ethTransferPerTxCapWei.toNat) :
    Accounts state { shared with
      settled := shared.settled ++ [.transfer key payment.deviceAddress payment.amount] } := by
  obtain ⟨row, rowIn, isKey, isPayment, isMined⟩ := known
  have isAmount : payment.amount = row.creditAmount := by
    rw [← isPayment]
    rfl
  refine ⟨⟨?_, ?_⟩, accounts.unique, ?_, ?_, ?_⟩
  · intro other
    rw [List.countP_append, List.countP_singleton]
    by_cases same : key = other
    · subst same
      have none : shared.settled.countP (Settled.isTransfer key) = 0 := by
        rw [List.countP_eq_zero]
        intro made member
        rw [isUnpaid made member]
        exact Bool.false_ne_true
      simp [none, Settled.isTransfer]
    · have before := accounts.once other
      simpa [Settled.isTransfer, same] using before
  · intro before later hash toAddress value split
    rcases append_singleton_split split with ⟨_, same, rfl⟩ | ⟨rest, _, earlier⟩
    · cases same
      obtain ⟨fields, made⟩ := isRedeemed
      obtain ⟨row', rowIn', isKey', isUser, sameAmount⟩ := accounts.redeems key fields made
      obtain rfl := Ledger.row_unique accounts.unique rowIn rowIn' (isKey'.trans isKey.symm)
      exact ⟨row', rowIn', isKey', isAmount, capped, fields, made, isUser,
        sameAmount.trans isAmount.symm⟩
    · exact accounts.debited before rest hash toAddress value earlier
  · intro hash made member
    rcases List.mem_append.mp member with old | new
    · exact accounts.redeems hash made old
    · cases List.mem_singleton.mp new
  · intro row' member now
    apply (accounts.unpaid row' member now).append
    simp only [Settled.isTransfer, decide_eq_false_iff_not]
    intro same
    -- the row of the transfer is recorded as mined
    obtain rfl := Ledger.row_unique accounts.unique rowIn member (same.symm.trans isKey.symm)
    rw [isMined] at now
    rcases now with wrong | wrong <;> cases wrong
  · intro row' member now
    exact (accounts.redeemed row' member now).append

end

/-! ## The tasks -/

/-- What a task knows of its row. -/
def Knows (shared : Shared) (key : Bytes32) : Phase → Prop
  | .outside => True
  | .inserted payment => HasRow shared key payment .preRedeem ∧ Unpaid shared key
  | .recording payment =>
      HasRow shared key payment .preRedeem ∧ Unpaid shared key ∧ Redeemed shared key
  | .submitted payment =>
      HasRow shared key payment .redeemSubmitted ∧ Unpaid shared key ∧ Redeemed shared key
  | .mined payment =>
      HasRow shared key payment .redeemMined ∧ Unpaid shared key ∧ Redeemed shared key
  | .paid => ∃ row ∈ shared.ledger, row.attestationHash = key
  | .failing => ∃ row ∈ shared.ledger, row.attestationHash = key

/-- A redemption is answered with success only if the chain holds one made for the row. -/
def RedemptionAnswer (state : AppState) (shared : Shared) (key : Bytes32) :
    Call → Outcome → Prop
  | .submitRedemption fields signature, outcome =>
      outcome.redemption.isOk = true →
        Redeemed shared key ∨ outcome.lands = true ∧
          (EntitlementRegistry.redeem state.deployment outcome.context shared.storage fields
            signature).isOk = true
  | _, _ => True

/-- The process stops only while no row recorded as mined has been paid. -/
def RestartsUnpaid (world : World) : Prop :=
  ∀ row ∈ world.shared.ledger, row.state = .redeemMined →
    Unpaid world.shared row.attestationHash

/-! The conditions can be checked along a run. -/

def Settled.isRedeem (key : Bytes32) : Settled → Bool
  | .redeem hash _ => hash = key
  | .transfer _ _ _ => false

instance (shared : Shared) (key : Bytes32) : Decidable (Unpaid shared key) :=
  inferInstanceAs (Decidable (∀ entry ∈ shared.settled, entry.isTransfer key = false))

theorem redeemed_iff (shared : Shared) (key : Bytes32) :
    (∃ entry ∈ shared.settled, entry.isRedeem key = true) ↔ Redeemed shared key := by
  constructor
  · rintro ⟨entry, member, isRedeem⟩
    cases entry with
    | redeem hash fields =>
        obtain rfl := of_decide_eq_true isRedeem
        exact ⟨fields, member⟩
    | transfer hash toAddress value => cases isRedeem
  · rintro ⟨fields, member⟩
    exact ⟨_, member, decide_eq_true rfl⟩

instance (shared : Shared) (key : Bytes32) : Decidable (Redeemed shared key) :=
  decidable_of_iff _ (redeemed_iff shared key)

instance (state : AppState) (shared : Shared) (key : Bytes32) :
    (call : Call) → (outcome : Outcome) →
      Decidable (RedemptionAnswer state shared key call outcome)
  | .submitRedemption fields signature, outcome =>
      inferInstanceAs (Decidable (outcome.redemption.isOk = true →
        Redeemed shared key ∨ outcome.lands = true ∧
          (EntitlementRegistry.redeem state.deployment outcome.context shared.storage fields
            signature).isOk = true))
  | .rateLimit _, _ => .isTrue trivial
  | .now, _ => .isTrue trivial
  | .tryInsert .., _ => .isTrue trivial
  | .updateRedemptionTxHash .., _ => .isTrue trivial
  | .transitionState .., _ => .isTrue trivial
  | .markEthTransferSubmitted .., _ => .isTrue trivial
  | .markEthTransferMined .., _ => .isTrue trivial
  | .submitEthTransfer .., _ => .isTrue trivial

instance (world : World) : Decidable (RestartsUnpaid world) :=
  inferInstanceAs (Decidable (∀ row ∈ world.shared.ledger, row.state = .redeemMined →
    Unpaid world.shared row.attestationHash))

section

variable {state : AppState} {shared : Shared} {key : Bytes32} {payment : Payment}
variable {recorded : PaymentState} {call : Call} {outcome : Outcome} {phase : Phase}

theorem HasRow.present (known : HasRow shared key payment recorded) :
    ∃ row ∈ shared.ledger, row.attestationHash = key := by
  obtain ⟨row, member, isKey, _⟩ := known
  exact ⟨row, member, isKey⟩

theorem Records.present {change : PaymentRow → PaymentRow} (records : Records change recorded)
    (known : ∃ row ∈ shared.ledger, row.attestationHash = key) :
    ∃ row ∈ (shared.ledger.update key change).1, row.attestationHash = key := by
  obtain ⟨row, member, isKey⟩ := known
  obtain ⟨row', member', credit⟩ := records.mem member
  exact ⟨row', member', by rw [credit.attestationHash, isKey]⟩

theorem Knows.present (known : Knows shared key phase) (owns : Owner phase) :
    ∃ row ∈ shared.ledger, row.attestationHash = key := by
  cases phase with
  | outside => cases owns
  | inserted payment => exact known.1.present
  | recording payment => exact known.1.present
  | submitted payment => exact known.1.present
  | mined payment => exact known.1.present
  | paid => exact known
  | failing => exact known

theorem SameAt.hasRow {shared' : Shared} (same : SameAt key shared shared')
    (known : HasRow shared key payment recorded) : HasRow shared' key payment recorded := by
  obtain ⟨row, member, isKey, rest⟩ := known
  exact ⟨row, (same.rows row isKey).mpr member, isKey, rest⟩

theorem SameAt.present {shared' : Shared} (same : SameAt key shared shared')
    (known : ∃ row ∈ shared.ledger, row.attestationHash = key) :
    ∃ row ∈ shared'.ledger, row.attestationHash = key := by
  obtain ⟨row, member, isKey⟩ := known
  exact ⟨row, (same.rows row isKey).mpr member, isKey⟩

theorem SameAt.redeemed {shared' : Shared} (same : SameAt key shared shared')
    (known : Redeemed shared key) : Redeemed shared' key := by
  obtain ⟨fields, member⟩ := known
  exact ⟨fields, (same.entries _ rfl).mpr member⟩

theorem SameAt.unpaid {shared' : Shared} (same : SameAt key shared shared')
    (known : Unpaid shared key) : Unpaid shared' key := by
  intro entry member
  cases entry with
  | redeem hash fields => rfl
  | transfer hash toAddress value =>
      by_cases isKey : hash = key
      · exact known _ ((same.entries (.transfer hash toAddress value) isKey).mp member)
      · simp [Settled.isTransfer, isKey]

theorem Knows.congr {shared' : Shared} (same : SameAt key shared shared')
    (known : Knows shared key phase) : Knows shared' key phase := by
  cases phase with
  | outside => exact trivial
  | inserted payment => exact ⟨same.hasRow known.1, same.unpaid known.2⟩
  | recording payment =>
      exact ⟨same.hasRow known.1, same.unpaid known.2.1, same.redeemed known.2.2⟩
  | submitted payment =>
      exact ⟨same.hasRow known.1, same.unpaid known.2.1, same.redeemed known.2.2⟩
  | mined payment =>
      exact ⟨same.hasRow known.1, same.unpaid known.2.1, same.redeemed known.2.2⟩
  | paid => exact same.present known
  | failing => exact same.present known

/-- A redemption is mined and accepted, or it changes nothing. -/
theorem submitRedemption_cases (state : AppState) (shared : Shared) (key : Bytes32)
    (fields : Attestation) (signature : Bytes) (outcome : Outcome) :
    ((perform state shared key (.submitRedemption fields signature) outcome).1 = shared ∧
        ¬ (outcome.lands = true ∧
          (EntitlementRegistry.redeem state.deployment outcome.context shared.storage fields
            signature).isOk = true)) ∨
      ∃ storage, (perform state shared key (.submitRedemption fields signature) outcome).1 =
          { shared with storage, settled := shared.settled ++ [.redeem key fields] } ∧
        outcome.lands = true ∧ ∃ event,
          EntitlementRegistry.redeem state.deployment outcome.context shared.storage fields
            signature = .ok (storage, event) := by
  simp only [perform, Shared.redeem]
  by_cases lands : outcome.lands = true
  · simp only [lands, if_true, true_and]
    cases EntitlementRegistry.redeem state.deployment outcome.context shared.storage fields
      signature with
    | error revert =>
        left
        exact ⟨rfl, Bool.false_ne_true⟩
    | ok result =>
        right
        exact ⟨result.1, rfl, result.2, rfl⟩
  · left
    simp only [lands]
    exact ⟨rfl, fun both => Bool.false_ne_true both.1⟩

theorem outside_step (accounts : Accounts state shared)
    (allowed : Allows state key .outside call) :
    Accounts state (perform state shared key call outcome).1 ∧
      Knows (perform state shared key call outcome).1 key
        (after .outside call (perform state shared key call outcome).2) := by
  cases call with
  | rateLimit deviceAddress => exact ⟨accounts, trivial⟩
  | now => exact ⟨accounts, trivial⟩
  | tryInsert hash userId deviceAddress amount =>
      obtain rfl := allowed.target_eq rfl
      simp only [perform, Shared.write]
      split
      · exact ⟨accounts, trivial⟩
      · by_cases taken : ∃ old ∈ shared.ledger, old.attestationHash = hash
        · rw [Ledger.tryInsert_of_taken taken]
          exact ⟨accounts, trivial⟩
        · have fresh : ∀ old ∈ shared.ledger, old.attestationHash ≠ hash := by
            intro old member isHash
            exact taken ⟨old, member, isHash⟩
          rw [Ledger.tryInsert_of_fresh fresh]
          refine ⟨accounts.insert fresh rfl, ?_, accounts.unpaid_of_fresh fresh⟩
          exact ⟨_, List.mem_append_right _ List.mem_cons_self, rfl, rfl, rfl⟩
  | _ => cases allowed

/-- A redemption keeps what is known of an unpaid row, and after a success the row is
redeemed. -/
theorem redemption_step {fields : Attestation} (signature : Bytes) (outcome : Outcome)
    (accounts : Accounts state shared) (known : HasRow shared key payment recorded)
    (isUnpaid : Unpaid shared key) (isUser : fields.userId = payment.userId)
    (isAmount : fields.amount = payment.amount) :
    let shared' := (perform state shared key (.submitRedemption fields signature) outcome).1
    Accounts state shared' ∧ HasRow shared' key payment recorded ∧ Unpaid shared' key ∧
      (Redeemed shared key → Redeemed shared' key) ∧
      (RedemptionAnswer state shared key (.submitRedemption fields signature) outcome →
        outcome.redemption.isOk = true → Redeemed shared' key) := by
  intro shared'
  rcases submitRedemption_cases state shared key fields signature outcome with
    ⟨same, rejected⟩ | ⟨storage, made, _⟩
  · have unchanged : shared' = shared := same
    rw [unchanged]
    refine ⟨accounts, known, isUnpaid, id, ?_⟩
    intro answered success
    rcases answered success with before | accepted
    · exact before
    · exact absurd accepted rejected
  · have changed : shared' =
        { shared with storage, settled := shared.settled ++ [.redeem key fields] } := made
    rw [changed]
    refine ⟨accounts.redeem known isUser isAmount, known, isUnpaid.append rfl, Redeemed.append, ?_⟩
    intro _ _
    exact ⟨fields, List.mem_append_right _ List.mem_cons_self⟩

theorem inserted_step (accounts : Accounts state shared)
    (known : Knows shared key (.inserted payment))
    (allowed : Allows state key (.inserted payment) call)
    (answered : RedemptionAnswer state shared key call outcome) :
    Accounts state (perform state shared key call outcome).1 ∧
      Knows (perform state shared key call outcome).1 key
        (after (.inserted payment) call (perform state shared key call outcome).2) := by
  cases call with
  | submitRedemption fields signature =>
      obtain ⟨kept, row, unpaid, _, success⟩ := redemption_step signature outcome
        accounts known.1 known.2 allowed.1 allowed.2
      refine ⟨kept, ?_⟩
      cases answer : outcome.redemption with
      | error error =>
          have result : after (.inserted payment) (.submitRedemption fields signature)
              (perform state shared key (.submitRedemption fields signature) outcome).2 =
              .failing := by
            simp only [perform, answer, after]
          rw [result]
          exact row.present
      | ok txHash =>
          have result : after (.inserted payment) (.submitRedemption fields signature)
              (perform state shared key (.submitRedemption fields signature) outcome).2 =
              .recording payment := by
            simp only [perform, answer, after]
          rw [result]
          exact ⟨row, unpaid, success answered (by rw [answer]; rfl)⟩
  | _ => cases allowed

theorem recording_step (accounts : Accounts state shared)
    (known : Knows shared key (.recording payment))
    (allowed : Allows state key (.recording payment) call) :
    Accounts state (perform state shared key call outcome).1 ∧
      Knows (perform state shared key call outcome).1 key
        (after (.recording payment) call (perform state shared key call outcome).2) := by
  cases call with
  | updateRedemptionTxHash hash txHash =>
      obtain rfl := allowed.target_eq rfl
      obtain ⟨row, unpaid, redeemed⟩ := known
      simp only [perform, Shared.write]
      split
      · exact ⟨accounts, row.present⟩
      · have records := records_updateRedemptionTxHash txHash
        exact ⟨accounts.record records (fun _ => unpaid) (fun _ => redeemed), records.hasRow row,
          unpaid, redeemed⟩
  | _ => cases allowed

theorem submitted_step (accounts : Accounts state shared)
    (known : Knows shared key (.submitted payment))
    (allowed : Allows state key (.submitted payment) call) :
    Accounts state (perform state shared key call outcome).1 ∧
      Knows (perform state shared key call outcome).1 key
        (after (.submitted payment) call (perform state shared key call outcome).2) := by
  obtain ⟨row, unpaid, redeemed⟩ := known
  cases call with
  | submitRedemption fields signature =>
      obtain ⟨kept, row', unpaid', redeemed', _⟩ := redemption_step signature outcome
        accounts row unpaid allowed.1 allowed.2
      exact ⟨kept, row', unpaid', redeemed' redeemed⟩
  | transitionState hash newState =>
      obtain ⟨rfl, rfl | rfl⟩ := allowed
      · simp only [perform, Shared.write]
        split
        · exact ⟨accounts, row, unpaid, redeemed⟩
        · have records := records_transitionState .redeemMined
          exact ⟨accounts.record records (fun _ => unpaid) (fun _ => redeemed),
            records.hasRow row, unpaid, redeemed⟩
      · simp only [perform, Shared.write]
        split
        · exact ⟨accounts, row.present⟩
        · have records := records_transitionState .ethTransferFailed
          exact ⟨accounts.record records (by simp) (by simp), records.present row.present⟩
  | _ => cases allowed

theorem mined_step (accounts : Accounts state shared)
    (known : Knows shared key (.mined payment))
    (allowed : Allows state key (.mined payment) call) :
    Accounts state (perform state shared key call outcome).1 ∧
      Knows (perform state shared key call outcome).1 key
        (after (.mined payment) call (perform state shared key call outcome).2) := by
  obtain ⟨row, unpaid, redeemed⟩ := known
  cases call with
  | submitEthTransfer toAddress value =>
      obtain ⟨rfl, rfl, capped⟩ := allowed
      have kept : Accounts state (perform state shared key
          (.submitEthTransfer payment.deviceAddress payment.amount) outcome).1 := by
        simp only [perform]
        split
        · exact accounts.transfer row unpaid redeemed capped
        · exact accounts
      have present : ∃ row ∈ (perform state shared key
          (.submitEthTransfer payment.deviceAddress payment.amount) outcome).1.ledger,
          row.attestationHash = key := by
        simp only [perform]
        split
        · exact row.present
        · exact row.present
      refine ⟨kept, ?_⟩
      cases answer : outcome.transfer with
      | error error =>
          have result : after (.mined payment)
              (.submitEthTransfer payment.deviceAddress payment.amount) (perform state shared key
                (.submitEthTransfer payment.deviceAddress payment.amount) outcome).2 =
              .failing := by
            simp only [perform, answer, after]
          rw [result]
          exact present
      | ok anchor =>
          have result : after (.mined payment)
              (.submitEthTransfer payment.deviceAddress payment.amount) (perform state shared key
                (.submitEthTransfer payment.deviceAddress payment.amount) outcome).2 =
              .paid := by
            simp only [perform, answer, after]
          rw [result]
          exact present
  | transitionState hash newState =>
      obtain ⟨rfl, rfl⟩ := allowed
      simp only [perform, Shared.write]
      split
      · exact ⟨accounts, row.present⟩
      · have records := records_transitionState .ethTransferFailed
        exact ⟨accounts.record records (by simp) (by simp), records.present row.present⟩
  | _ => cases allowed

/-- Recording a state of the transfer is always right. -/
theorem record_step {change : PaymentRow → PaymentRow} (accounts : Accounts state shared)
    (known : ∃ row ∈ shared.ledger, row.attestationHash = key) (records : Records change recorded)
    (isUnpaid : ¬ (recorded = .preRedeem ∨ recorded = .redeemSubmitted))
    (isRedeemed : ¬ (recorded = .redeemSubmitted ∨ recorded = .redeemMined)) :
    let shared' := (shared.write outcome (shared.ledger.update key change)).1
    Accounts state shared' ∧ ∃ row ∈ shared'.ledger, row.attestationHash = key := by
  simp only [Shared.write]
  split
  · exact ⟨accounts, known⟩
  · exact ⟨accounts.record records (fun wrong => absurd wrong isUnpaid)
      (fun wrong => absurd wrong isRedeemed), records.present known⟩

theorem paid_step (accounts : Accounts state shared) (known : Knows shared key .paid)
    (allowed : Allows state key .paid call) :
    Accounts state (perform state shared key call outcome).1 ∧
      Knows (perform state shared key call outcome).1 key
        (after .paid call (perform state shared key call outcome).2) := by
  cases call with
  | markEthTransferSubmitted hash txHash wei =>
      obtain rfl := allowed.target_eq rfl
      exact record_step accounts known (records_markEthTransferSubmitted txHash wei) (by simp)
        (by simp)
  | markEthTransferMined hash block =>
      obtain rfl := allowed.target_eq rfl
      exact record_step accounts known (records_markEthTransferMined _) (by simp) (by simp)
  | transitionState hash newState =>
      obtain ⟨rfl, rfl | rfl⟩ := allowed
      · exact record_step accounts known (records_transitionState .ethTransferMined) (by simp)
          (by simp)
      · exact record_step accounts known (records_transitionState .ethTransferFailed) (by simp)
          (by simp)
  | _ => cases allowed

theorem failing_step (accounts : Accounts state shared) (known : Knows shared key .failing)
    (allowed : Allows state key .failing call) :
    Accounts state (perform state shared key call outcome).1 ∧
      Knows (perform state shared key call outcome).1 key
        (after .failing call (perform state shared key call outcome).2) := by
  cases call with
  | transitionState hash newState =>
      obtain ⟨rfl, rfl⟩ := allowed
      exact record_step accounts known (records_transitionState .ethTransferFailed) (by simp)
        (by simp)
  | _ => cases allowed

/-- One call keeps the accounts and leads to what the next phase knows. -/
theorem payout_step (accounts : Accounts state shared) (known : Knows shared key phase)
    (allowed : Allows state key phase call)
    (answered : RedemptionAnswer state shared key call outcome) :
    Accounts state (perform state shared key call outcome).1 ∧
      Knows (perform state shared key call outcome).1 key
        (after phase call (perform state shared key call outcome).2) := by
  cases phase with
  | outside => exact outside_step accounts allowed
  | inserted payment => exact inserted_step accounts known allowed answered
  | recording payment => exact recording_step accounts known allowed
  | submitted payment => exact submitted_step accounts known allowed
  | mined payment => exact mined_step accounts known allowed
  | paid => exact paid_step accounts known allowed
  | failing => exact failing_step accounts known allowed

theorem payouts_sound (state : AppState) :
    Sound (discipline state Knows fun shared _ => Accounts state shared) (perform state)
      (RedemptionAnswer state) := by
  apply sound_discipline
  · intro shared key
    exact trivial
  · intro shared key phase owns known
    exact known.present owns
  · intro shared shared' key phase same known
    exact known.congr same
  · intro shared held key phase call outcome move
    exact (payout_step move.inv move.knows move.allowed move.guarded).2
  · intro shared held held' key phase call outcome move _ _
    exact (payout_step move.inv move.knows move.allowed move.guarded).1
  · intro shared held held' _ accounts
    exact accounts

/-- What a resumed row says of its payment. -/
theorem Accounts.resume (accounts : Accounts state shared) {row : PaymentRow}
    (member : row ∈ shared.ledger) (resumable : row.state.resumable = true)
    (unpaid : row.state = .redeemMined → Unpaid shared row.attestationHash) :
    Knows shared row.attestationHash (resumePhase row) := by
  unfold resumePhase
  cases recorded : row.state with
  | redeemSubmitted =>
      exact ⟨⟨row, member, rfl, rfl, recorded⟩, accounts.unpaid row member (Or.inr recorded),
        accounts.redeemed row member (Or.inl recorded)⟩
  | redeemMined =>
      exact ⟨⟨row, member, rfl, rfl, recorded⟩, unpaid recorded,
        accounts.redeemed row member (Or.inr recorded)⟩
  | ethTransferSubmitted => exact ⟨row, member, rfl⟩
  | preRedeem =>
      rw [recorded] at resumable
      cases resumable
  | ethTransferMined =>
      rw [recorded] at resumable
      cases resumable
  | ethTransferFailed =>
      rw [recorded] at resumable
      cases resumable

end

/-- Whatever requests arrive, in whatever order the tasks run and whatever the node answers:
while a success is only reported for a redemption the chain holds, and the process stops only
while no row recorded as mined has been paid, every attestation is paid at most once, with
the amount of its row, within the cap, and after the redemption of it. -/
theorem funder_pays_once (state : AppState) (storage : Storage) {world : World}
    (run : Reaches (step state) (Guard (RedemptionAnswer state) RestartsUnpaid)
      (World.start storage) world) :
    PaysOnce state world.shared := by
  have tidy : Tidy state Knows (fun shared _ => Accounts state shared) world := by
    apply tidy_reaches (payouts_sound state) ?_ ?_ ?_ ?_ ?_ run
    · intro shared key
      exact trivial
    · intro shared shared' key phase same known
      exact known.congr same
    · intro shared storage held accounts
      exact accounts.storage storage
    · rintro world ⟨phases, coherent⟩ unpaid
      have accounts : Accounts state world.shared := coherent.inv
      apply tidy_restart accounts.unique
      · intro row member resumable
        exact accounts.resume member resumable (unpaid row member)
      · intro held
        exact accounts
    · intro held
      exact Accounts.start state storage
  obtain ⟨phases, coherent⟩ := tidy
  have accounts : Accounts state world.shared := coherent.inv
  exact accounts.toPaysOnce

namespace Sample

/-- Signatures carry the signer's address in the first word. -/
def machine : Machine where
  keccak256 bytes := BitVec.ofNat 256
    (bytes.foldl (fun hash byte => (hash * 1000003 + byte.toNat + 1) % 2 ^ 256) 7)
  ecrecover _ _ r _ := r.setWidth 160
  chainid := 84532
  self := 5

def sign (signer : Nat) : Bytes := abiWord signer ++ abiWord 1 ++ [27]

def deployment : Deployment where
  machine := machine
  paymentAuthority := 11
  redemptionAuthority := 12
  payment_ne_zero := by decide
  redemption_ne_zero := by decide

def appState : AppState where
  deployment := deployment
  chainEnv := .baseSepolia
  pinnedSeparator := machine.domainSeparator "Pangolin EntitlementRegistry" "1"
  ethTransferPerTxCapWei := 10
  signRedemption _ := .ok (sign 12)
  localSigner := true
  recoverAddress _ r _ _ := some (r.setWidth 160)

/-- A user is credited with 5 on chain. -/
def credited : Action := .transact ⟨⟨1, 50⟩, .credit ⟨1, 5, 0, 1, 100⟩, sign 11⟩

/-- A second credit, of 3, is sent to the funder. -/
def req : TopUpRequest := ⟨⟨⟨1, 3, 1, 1, 100⟩, sign 11⟩, sign 21, 21⟩

def hash : Bytes32 := req.credit.attestationHash machine

/-- Everything works. -/
def works : Outcome := ⟨60, none, none, true, ⟨12, 60⟩, .ok 77, .ok (78, 9)⟩

/-- The handler up to the answer to its transfer. -/
def transferred : List Action :=
  [credited, .post 0 req] ++ List.replicate 7 (.run 0 works)

/-- The process stops there, and the task of the restart runs. -/
def resumed : List Action := transferred ++ [.restart, .run 0 works]

/-- The handler runs to its end. -/
def finished : List Action := transferred ++ List.replicate 2 (.run 0 works) ++ [.restart]

end Sample

/-- One request is paid, and the process stops afterwards. -/
theorem funder_pays_once_finished :
    (Sample.finished.foldl (step Sample.appState) (World.start .empty)).shared.settled =
        [.redeem Sample.hash Sample.req.credit.attestation, .transfer Sample.hash 21 3] ∧
      PaysOnce Sample.appState
        (Sample.finished.foldl (step Sample.appState) (World.start .empty)).shared := by
  refine ⟨by decide +kernel, funder_pays_once Sample.appState .empty (Reaches.foldl _ ?_)⟩
  decide +kernel

/-- The process stops after the transfer was sent and before it was recorded: the task of the
restart sends it once more. -/
theorem restart_pays_twice :
    Reaches (step Sample.appState) (fun _ _ => True) (World.start .empty)
        (Sample.resumed.foldl (step Sample.appState) (World.start .empty)) ∧
      (Sample.resumed.foldl (step Sample.appState) (World.start .empty)).shared.settled =
        [.redeem Sample.hash Sample.req.credit.attestation, .transfer Sample.hash 21 3,
          .transfer Sample.hash 21 3] ∧
      ¬ PaysOnce Sample.appState
        (Sample.resumed.foldl (step Sample.appState) (World.start .empty)).shared := by
  refine ⟨Reaches.foldl _ (by decide +kernel), by decide +kernel, ?_⟩
  intro pays
  have twice := pays.once Sample.hash
  revert twice
  decide +kernel

end Pangolin.Funder
