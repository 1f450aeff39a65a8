import Pangolin.Funder.Payouts

/-!
# What becomes of a debit

A user whose balance was debited should get the ether, or a row that somebody will look at;
a user whose balance was not should be able to ask again.  Both depend on the moment the row
is written: before the redemption, and on its being recorded: after the receipt.
-/

namespace Pangolin.Funder

open Evm EntitlementRegistry Tasks Transition

/-! ## Asking for a payment -/

/-- The hash a request is filed under. -/
abbrev requestKey (state : AppState) (req : TopUpRequest) : Bytes32 :=
  req.credit.attestationHash state.deployment.machine

/-- The request passes every check that does not ask the clock, the rate limiter, the ledger
or the chain, and the funder signs as the redemption authority. -/
structure Valid (state : AppState) (req : TopUpRequest) : Prop where
  schema : ¬ maxKnownSchemaVersion < req.credit.attestation.schemaVersion
  credit : verifyCreditSignature state req.credit = true
  binding : verifyDeviceBinding state req.deviceBindingSig
    (requestKey state req) req.deviceAddress = true
  capped : req.credit.attestation.amount.toNat ≤ state.ethTransferPerTxCapWei.toNat
  held : state.localSigner = true
  signs : ∃ signature, state.signRedemption req.credit.attestation = .ok signature ∧
    state.deployment.machine.recover
      (hashRedemption state.deployment.machine req.credit.attestation) signature =
        state.deployment.redemptionAuthority

/-- The request is posted at the time `now` and its handler alone goes on, with whatever
outcomes: can it redeem the credit and pay the device? -/
def CanSucceed (state : AppState) (world : World) (req : TopUpRequest) (now : UInt64) : Prop :=
  ∃ (id : Nat) (outcomes : List Outcome), world.pool id = none ∧
    (∀ outcome ∈ outcomes, outcome.now = now ∧ outcome.context.timestamp = now.toNat) ∧
    ((.post id req :: outcomes.map (.run id)).foldl (step state) world).shared.settled =
      world.shared.settled ++
        [.redeem (requestKey state req) req.credit.attestation,
          .transfer (requestKey state req) req.deviceAddress
            req.credit.attestation.amount]

/-- No handler has got as far as writing a row. -/
def Fresh (shared : Shared) (key : Bytes32) : Prop :=
  ∀ row ∈ shared.ledger, row.attestationHash ≠ key

section

variable {state : AppState} {shared : Shared} {key : Bytes32} {req : TopUpRequest}
variable {outcome : Outcome} {outcomes : List Outcome}

@[simp] theorem Shared.write_settled (shared : Shared) (outcome : Outcome)
    (written : Ledger × Bool) : (shared.write outcome written).1.settled = shared.settled := by
  unfold Shared.write
  split <;> rfl

/-- Posting and running the handler by itself. -/
theorem foldl_post_run (world : World) (req : TopUpRequest) {id : Nat}
    (free : world.pool id = none) (outcomes : List Outcome) :
    ((.post id req :: outcomes.map (.run id)).foldl (step state) world).shared =
      drive (perform state) (requestKey state req)
        (handle state req) world.shared outcomes := by
  have running : Function.update world.pool id (some (handlerTask state req)) id =
      some ⟨requestKey state req, (handlerTask state req).program⟩ :=
    Function.update_self id _ world.pool
  have alone : ∀ (world : World) (outcomes : List Outcome),
      ((outcomes.map (.run id)).foldl (step state) world).shared =
        (outcomes.foldl (fun pair outcome => advance (perform state) pair.1 pair.2 id outcome)
          (world.shared, world.pool)).1 := by
    intro world outcomes
    induction outcomes generalizing world with
    | nil => rfl
    | cons outcome outcomes ih =>
        rw [List.map_cons, List.foldl_cons, List.foldl_cons, ih]
        rfl
  have posted : step state world (.post id req) =
      { world with pool := Function.update world.pool id (some (handlerTask state req)) } := by
    simp only [step, free]
  rw [List.foldl_cons, posted, alone, foldl_advance outcomes running]
  exact drive_bind_done _ (handle state req) world.shared outcomes

/-! ### The handler by itself -/

/-- How far the handler of a request has come. -/
inductive Progress where
  | checking
  | inserted
  | redeemed
  | closed
  deriving Repr, DecidableEq

/-- The calls of one handler, in their order. -/
def requestProtocol (state : AppState) (req : TopUpRequest) :
    Protocol Bytes32 Progress Call Answer where
  Allows key
    | .checking, .rateLimit _ => True
    | .checking, .now => True
    | .checking, .tryInsert hash _ _ _ => hash = key
    | .inserted, .submitRedemption fields signature =>
        fields = req.credit.attestation ∧ state.signRedemption fields = .ok signature
    | .redeemed, .updateRedemptionTxHash _ _ => True
    | .redeemed, .transitionState _ _ => True
    | .redeemed, .submitEthTransfer _ _ => True
    | .closed, .transitionState _ _ => True
    | .closed, .markEthTransferSubmitted _ _ _ => True
    | .closed, .markEthTransferMined _ _ => True
    | _, _ => False
  after
    | .checking, .tryInsert _ _ _ _, .ok true => .inserted
    | .inserted, .submitRedemption _ _, _ => .redeemed
    | .redeemed, .submitEthTransfer _ _, _ => .closed
    | progress, _, _ => progress

theorem redeemCredit_requested {ethAmount : BitVec 256} :
    Follows (requestProtocol state req) (requestKey state req)
      (fun _ _ => True) .inserted (redeemCredit state req ethAmount) := by
  unfold redeemCredit
  dsimp only
  split
  · exact trivial
  · next signature signs =>
      split
      · exact trivial
      · refine ⟨⟨rfl, signs⟩, ?_⟩
        rintro (error | redeemTxHash)
        · exact trivial
        · refine ⟨trivial, ?_⟩
          rintro (error | affected)
          · exact trivial
          · refine ⟨trivial, ?_⟩
            rintro (error | affected)
            · exact trivial
            · refine ⟨trivial, ?_⟩
              rintro (error | ⟨ethTxHash, blockNumber⟩)
              · exact ⟨trivial, fun _ => trivial⟩
              · refine ⟨trivial, ?_⟩
                rintro (error | affected)
                · exact trivial
                · refine ⟨trivial, ?_⟩
                  rintro (error | affected)
                  · exact trivial
                  · exact trivial

theorem handle_requested (state : AppState) (req : TopUpRequest) :
    Follows (requestProtocol state req) (requestKey state req)
      (fun _ _ => True) .checking (handle state req) := by
  refine ⟨trivial, ?_⟩
  rintro (_ | retryAfterSeconds)
  · show Follows _ _ _ Progress.checking (ite _ _ _)
    split
    · exact trivial
    · refine ⟨trivial, ?_⟩
      intro nowUnix
      show Follows _ _ _ Progress.checking (ite _ _ _)
      split
      · exact trivial
      · split
        · exact trivial
        · show Follows _ _ _ Progress.checking (ite _ _ _)
          split
          · exact trivial
          · split
            · exact trivial
            · refine ⟨rfl, ?_⟩
              rintro (error | inserted)
              · exact trivial
              · cases inserted with
                | false => exact trivial
                | true => exact redeemCredit_requested
  · exact trivial

/-- The registry would take the redemption of the request at the given time. -/
def Accepts (state : AppState) (storage : Storage) (req : TopUpRequest) (now : UInt64) : Prop :=
  ∃ signature context, state.signRedemption req.credit.attestation = .ok signature ∧
    context.timestamp = now.toNat ∧
    (EntitlementRegistry.redeem state.deployment context storage req.credit.attestation
      signature).isOk = true

/-- What the handler of a request has done since the state `start`. -/
def Since (state : AppState) (start : Shared) (req : TopUpRequest) (now : UInt64) :
    Progress → Shared → Prop
  | .checking, shared => shared = start
  | .inserted, shared =>
      shared.storage = start.storage ∧ shared.settled = start.settled ∧
        Fresh start (requestKey state req)
  | _, shared =>
      ∃ extra, shared.settled = start.settled ++ extra ∧
        ((∀ entry ∈ extra,
            entry.isRedeem (requestKey state req) = false) ∨
          Fresh start (requestKey state req) ∧
            Accepts state start.storage req now)

theorem since_step {start : Shared} {now : UInt64} {progress : Progress} {call : Call}
    (timed : outcome.now = now ∧ outcome.context.timestamp = now.toNat)
    (allowed : (requestProtocol state req).Allows
      (requestKey state req) progress call)
    (since : Since state start req now progress shared) :
    Since state start req now
      ((requestProtocol state req).after progress call
        (perform state shared (requestKey state req) call
          outcome).2)
      (perform state shared (requestKey state req) call
        outcome).1 := by
  cases progress with
  | checking =>
      obtain rfl : shared = start := since
      cases call with
      | rateLimit deviceAddress => rfl
      | now => rfl
      | tryInsert hash userId deviceAddress amount =>
          obtain rfl : hash = _ := allowed
          simp only [perform, Shared.write]
          split
          · rfl
          · by_cases taken : ∃ old ∈ shared.ledger,
                old.attestationHash = requestKey state req
            · rw [Ledger.tryInsert_of_taken taken]
              rfl
            · have fresh : Fresh shared (requestKey state req) := by
                intro old member isHash
                exact taken ⟨old, member, isHash⟩
              rw [Ledger.tryInsert_of_fresh fresh]
              exact ⟨rfl, rfl, fresh⟩
      | _ => cases allowed
  | inserted =>
      obtain ⟨sameStorage, sameSettled, fresh⟩ := since
      cases call with
      | submitRedemption fields signature =>
          obtain ⟨rfl, signs⟩ := allowed
          show ∃ extra, _
          rcases submitRedemption_cases state shared
              (requestKey state req) req.credit.attestation
              signature outcome with ⟨same, _⟩ | ⟨storage, made, _, event, accepted⟩
          · refine ⟨[], ?_, Or.inl ?_⟩
            · rw [same, sameSettled, List.append_nil]
            · intro entry member
              cases member
          · refine ⟨[.redeem (requestKey state req)
                req.credit.attestation], ?_,
              Or.inr ⟨fresh, signature, outcome.context, signs, timed.2, ?_⟩⟩
            · rw [made, sameSettled]
            · rw [← sameStorage, accepted]
              rfl
      | _ => cases allowed
  | redeemed =>
      cases call with
      | updateRedemptionTxHash hash txHash =>
          obtain ⟨extra, grown, rest⟩ := since
          exact ⟨extra, by rw [perform, Shared.write_settled, grown], rest⟩
      | transitionState hash newState =>
          obtain ⟨extra, grown, rest⟩ := since
          exact ⟨extra, by rw [perform, Shared.write_settled, grown], rest⟩
      | submitEthTransfer toAddress value =>
          obtain ⟨extra, grown, rest⟩ := since
          show ∃ extra, _
          simp only [perform]
          split
          · refine ⟨extra ++ [.transfer (requestKey state req) toAddress value], ?_, ?_⟩
            · rw [grown, List.append_assoc]
            · rcases rest with none | accepted
              · left
                intro entry member
                rcases List.mem_append.mp member with old | new
                · exact none entry old
                · obtain rfl := List.mem_singleton.mp new
                  rfl
              · exact Or.inr accepted
          · exact ⟨extra, grown, rest⟩
      | _ => cases allowed
  | closed =>
      obtain ⟨extra, grown, rest⟩ := since
      cases call with
      | transitionState hash newState =>
          exact ⟨extra, by rw [perform, Shared.write_settled, grown], rest⟩
      | markEthTransferSubmitted hash txHash wei =>
          exact ⟨extra, by rw [perform, Shared.write_settled, grown], rest⟩
      | markEthTransferMined hash block =>
          exact ⟨extra, by rw [perform, Shared.write_settled, grown], rest⟩
      | _ => cases allowed

/-- A handler that redeems found no row, and the registry took the redemption. -/
theorem accepts_of_canSucceed {world : World} {now : UInt64}
    (succeeds : CanSucceed state world req now) :
    Fresh world.shared (requestKey state req) ∧
      Accepts state world.shared.storage req now := by
  obtain ⟨id, outcomes, free, timed, settled⟩ := succeeds
  rw [foldl_post_run world req free] at settled
  obtain ⟨progress, since⟩ := (handle_requested state req).drive (perform state)
    outcomes (Since state world.shared req now) rfl
    fun progress shared call outcome member allowed since =>
      since_step (timed outcome member) allowed since
  -- where the log has not grown it cannot end with the redemption
  have short : ∀ last : List Settled, last ≠ [] →
      world.shared.settled ≠ world.shared.settled ++ last := by
    intro last some same
    exact some (List.append_cancel_left (same.symm.trans (List.append_nil _).symm))
  have grown : ∀ extra, world.shared.settled ++
      [.redeem (requestKey state req) req.credit.attestation,
        .transfer (requestKey state req) req.deviceAddress
          req.credit.attestation.amount] = world.shared.settled ++ extra →
      ¬ ∀ entry ∈ extra,
        entry.isRedeem (requestKey state req) = false := by
    intro extra same none
    obtain rfl := List.append_cancel_left same
    have wrong := none _ List.mem_cons_self
    simp [Settled.isRedeem] at wrong
  cases progress with
  | checking =>
      have same : _ = world.shared := since
      rw [same] at settled
      exact absurd settled (short _ (List.cons_ne_nil _ _))
  | inserted =>
      rw [since.2.1] at settled
      exact absurd settled (short _ (List.cons_ne_nil _ _))
  | redeemed =>
      obtain ⟨extra, isGrown, none | accepted⟩ := since
      · exact absurd none (grown extra (settled.symm.trans isGrown))
      · exact accepted
  | closed =>
      obtain ⟨extra, isGrown, none | accepted⟩ := since
      · exact absurd none (grown extra (settled.symm.trans isGrown))
      · exact accepted

/-- What the registry asks of a redemption that is signed and not expired. -/
theorem redeem_isOk_iff {deployment : Deployment} {context : Context} {storage : Storage}
    {fields : Attestation} {signature : Bytes}
    (schema : ¬ maxKnownSchemaVersion < fields.schemaVersion)
    (unexpired : context.timestamp ≤ fields.expiresAt.toNat)
    (signed : deployment.machine.recover (hashRedemption deployment.machine fields) signature =
      deployment.redemptionAuthority) :
    (EntitlementRegistry.redeem deployment context storage fields signature).isOk = true ↔
      fields.nonce = storage.nonce fields.userId ∧
        fields.amount.toNat ≤ (storage.balance fields.userId).toNat := by
  have checks : checkAttestation deployment.machine context storage
      deployment.redemptionAuthority (hashRedemption deployment.machine fields) fields signature =
        if fields.nonce ≠ storage.nonce fields.userId then .error .nonceTooLow else .ok () := by
    simp only [checkAttestation, if_neg schema, if_neg (Nat.not_lt.mpr unexpired), signed,
      if_neg deployment.redemption_ne_zero, ne_eq, not_true_eq_false, if_false]
  unfold EntitlementRegistry.redeem
  rw [checks]
  by_cases current : fields.nonce = storage.nonce fields.userId
  · rw [if_neg (not_not.mpr current)]
    by_cases enough : fields.amount.toNat ≤ (storage.balance fields.userId).toNat
    · have subtracted : checkedSub (storage.balance fields.userId) fields.amount =
          .ok (storage.balance fields.userId - fields.amount) := if_pos enough
      have covered : ¬ (storage.balance fields.userId).toNat < fields.amount.toNat :=
        Nat.not_lt.mpr enough
      constructor
      · intro _
        exact ⟨current, enough⟩
      · intro _
        simp only [Bind.bind, Except.bind, if_neg covered, subtracted]
        rfl
    · have short : (storage.balance fields.userId).toNat < fields.amount.toNat :=
        Nat.lt_of_not_le enough
      constructor
      · intro done
        simp only [Bind.bind, Except.bind, if_pos short] at done
        cases done
      · intro both
        exact absurd both.2 enough
  · rw [if_pos current]
    constructor
    · intro done
      cases done
    · intro both
      exact absurd both.1 current

/-- Every call works, and the block is mined at once. -/
def allWell (now : UInt64) : Outcome :=
  ⟨now, none, none, true, ⟨0, now.toNat⟩, .ok 0, .ok (0, 0)⟩

theorem drive_sendEth_allWell (now : UInt64) (deviceAddress : Address) (amount : BitVec 256)
    (redeemTxHash : Bytes32) :
    (drive (perform state) key (sendEth key deviceAddress amount redeemTxHash) shared
      (List.replicate 3 (allWell now))).settled =
        shared.settled ++ [.transfer key deviceAddress amount] := rfl

theorem drive_redeemCredit_allWell {now : UInt64} {signature : Bytes}
    {result : Storage × EntitlementRegistry.Event} {ethAmount : BitVec 256}
    (held : state.localSigner = true)
    (signs : state.signRedemption req.credit.attestation = .ok signature)
    (accepted : EntitlementRegistry.redeem state.deployment ⟨0, now.toNat⟩ shared.storage
      req.credit.attestation signature = .ok result) :
    (drive (perform state) (requestKey state req) (redeemCredit state req ethAmount) shared
      (List.replicate 6 (allWell now))).settled =
        shared.settled ++ [.redeem (requestKey state req) req.credit.attestation,
          .transfer (requestKey state req) req.deviceAddress ethAmount] := by
  have redeemed : shared.redeem state.deployment (requestKey state req) ⟨0, now.toNat⟩
      req.credit.attestation signature =
        { shared with
          storage := result.1
          settled :=
            shared.settled ++ [.redeem (requestKey state req) req.credit.attestation] } := by
    simp only [Shared.redeem, accepted]
  unfold redeemCredit
  simp only [signs, held, Bool.true_eq_false, if_false]
  show (drive (perform state) (requestKey state req)
    (sendEth (requestKey state req) req.deviceAddress ethAmount 0) _
      (List.replicate 3 (allWell now))).settled = _
  rw [drive_sendEth_allWell]
  show (shared.redeem state.deployment (requestKey state req) ⟨0, now.toNat⟩
    req.credit.attestation signature).settled ++ _ = _
  rw [redeemed, List.append_assoc]
  rfl

theorem drive_handle_allWell (valid : Valid state req) {now : UInt64}
    (unexpired : now ≤ req.credit.attestation.expiresAt)
    (fresh : Fresh shared (requestKey state req)) {signature : Bytes}
    {result : Storage × EntitlementRegistry.Event}
    (signs : state.signRedemption req.credit.attestation = .ok signature)
    (accepted : EntitlementRegistry.redeem state.deployment ⟨0, now.toNat⟩ shared.storage
      req.credit.attestation signature = .ok result) :
    (drive (perform state) (requestKey state req) (handle state req) shared
      (List.replicate 9 (allWell now))).settled =
        shared.settled ++ [.redeem (requestKey state req) req.credit.attestation,
          .transfer (requestKey state req) req.deviceAddress req.credit.attestation.amount] := by
  have clamped : clampEthTransferAmount req.credit.attestation.amount
      state.ethTransferPerTxCapWei = some req.credit.attestation.amount :=
    if_neg (Nat.not_lt.mpr valid.capped)
  have made : perform state shared (requestKey state req) (.tryInsert (requestKey state req)
      req.credit.attestation.userId req.deviceAddress req.credit.attestation.amount)
        (allWell now) =
      ({ shared with
        ledger := shared.ledger ++ [⟨requestKey state req, req.credit.attestation.userId,
          req.deviceAddress, req.credit.attestation.amount, none, .preRedeem, none, none, none,
          now⟩] }, .ok true) := by
    simp only [perform, Shared.write, allWell, Ledger.tryInsert_of_fresh fresh]
  show (drive (perform state) (requestKey state req) (ite _ _ _) shared
    (List.replicate 8 (allWell now))).settled = _
  rw [if_neg valid.schema]
  show (drive (perform state) (requestKey state req) (ite _ _ _) shared
    (List.replicate 7 (allWell now))).settled = _
  have timely : ¬ req.credit.attestation.expiresAt <
      (perform state shared (requestKey state req) .now (allWell now)).2 :=
    UInt64.not_lt.mpr unexpired
  rw [if_neg timely]
  simp only [valid.credit, valid.binding, clamped, Bool.true_eq_false, if_false]
  rw [List.replicate_succ, Program.perform_bind, drive, made]
  exact drive_redeemCredit_allWell valid.held signs accepted

/-- A valid request succeeds exactly when it has no row yet and its nonce is the one the
registry expects next. -/
theorem canSucceed_iff (valid : Valid state req) {now : UInt64}
    (unexpired : now ≤ req.credit.attestation.expiresAt) {world : World}
    (free : ∃ id, world.pool id = none) :
    CanSucceed state world req now ↔
      Fresh world.shared (requestKey state req) ∧
        req.credit.attestation.nonce =
          world.shared.storage.nonce req.credit.attestation.userId ∧
        req.credit.attestation.amount.toNat ≤
          (world.shared.storage.balance req.credit.attestation.userId).toNat := by
  obtain ⟨signature, signs, authority⟩ := valid.signs
  constructor
  · intro succeeds
    obtain ⟨fresh, signature', context, signs', timed, accepted⟩ :=
      accepts_of_canSucceed succeeds
    rw [signs] at signs'
    cases signs'
    have inTime : context.timestamp ≤ req.credit.attestation.expiresAt.toNat := by
      rw [timed]
      exact unexpired
    exact ⟨fresh, (redeem_isOk_iff valid.schema inTime authority).mp accepted⟩
  · rintro ⟨fresh, current, enough⟩
    obtain ⟨id, free⟩ := free
    have accepted : (EntitlementRegistry.redeem state.deployment ⟨0, now.toNat⟩
        world.shared.storage req.credit.attestation signature).isOk = true :=
      (redeem_isOk_iff valid.schema unexpired authority).mpr ⟨current, enough⟩
    refine ⟨id, List.replicate 9 (allWell now), free, ?_, ?_⟩
    · intro outcome member
      obtain rfl := List.eq_of_mem_replicate member
      exact ⟨rfl, rfl⟩
    · rw [foldl_post_run world req free]
      cases result : EntitlementRegistry.redeem state.deployment ⟨0, now.toNat⟩
          world.shared.storage req.credit.attestation signature with
      | error revert =>
          rw [result] at accepted
          cases accepted
      | ok result => exact drive_handle_allWell valid unexpired fresh signs (by assumption)

/-- There is always room for one more request. -/
theorem exists_free {storage : Storage} {guard : World → Action → Prop} {world : World}
    (run : Reaches (step state) guard (World.start storage) world) :
    ∃ id, world.pool id = none := by
  have bounded : ∃ bound, ∀ id, bound ≤ id → world.pool id = none := by
    apply run.invariant (fun world => ∃ bound, ∀ id, bound ≤ id → world.pool id = none) ?_
      ⟨0, fun _ _ => rfl⟩
    rintro world action ⟨bound, free⟩ _
    -- the slot an action touches is the only one that may become taken
    have updated : ∀ slot task, ∃ bound, ∀ id, bound ≤ id →
        Function.update world.pool slot task id = none := by
      intro slot task
      refine ⟨max bound (slot + 1), ?_⟩
      intro id above
      rw [Function.update_of_ne (by omega)]
      exact free id (by omega)
    cases action with
    | post slot req =>
        simp only [step]
        split
        · exact updated slot _
        · exact ⟨bound, free⟩
    | run slot outcome =>
        simp only [step, advance]
        split
        · exact updated slot _
        · exact ⟨bound, free⟩
        · exact ⟨bound, free⟩
    | restart =>
        refine ⟨world.shared.ledger.findResumableEntries.length, ?_⟩
        intro id above
        simp only [step, resumeInFlight, List.getElem?_eq_none above, Option.map_none]
    | transact tx => exact ⟨bound, free⟩
  obtain ⟨bound, free⟩ := bounded
  exact ⟨bound, free bound (Nat.le_refl bound)⟩

/-! ## After a credit -/

/-- The nonce of a user counts what was accepted for it. -/
theorem nonce_run (deployment : Deployment) (storage : Storage) (txs : List Transaction)
    (userId : Bytes32) :
    (Journal.run (execute deployment) storage txs).nonce userId = storage.nonce userId +
      UInt64.ofNat (messages userId
        (Journal.accepted (execute deployment) storage txs)).length := by
  apply Journal.run_invariant fun (after : Storage) history =>
    after.nonce userId = storage.nonce userId + UInt64.ofNat (messages userId history).length
  · simp [messages]
  · intro before history tx after event counted done
    have settles := execute_settles done
    have written : after.nonce = Function.update before.nonce tx.message.attestation.userId
        (tx.message.attestation.nonce + 1) := by
      rw [settles.written]
      rfl
    rw [written, messages_append]
    by_cases same : tx.message.attestation.userId = userId
    · subst same
      rw [Function.update_self, settles.current, counted, if_pos rfl, List.length_append,
        List.length_singleton, UInt64.ofNat_add, UInt64.add_assoc]
      rfl
    · have apart : userId ≠ tx.message.attestation.userId := fun equal => same equal.symm
      rw [Function.update_of_ne apart, if_neg same, List.append_nil, counted]

theorem nonce_wraps (nonce : UInt64) (count : Nat) :
    nonce = nonce + 1 + UInt64.ofNat count ↔ 2 ^ 64 ∣ count + 1 := by
  have below := nonce.toNat_lt
  rw [← UInt64.toNat_inj, UInt64.toNat_add, UInt64.toNat_add, UInt64.toNat_ofNat', UInt64.toNat_one]
  omega

/-- Transactions of others change the storage only. -/
theorem foldl_transact (world : World) (txs : List Transaction) :
    (txs.map Action.transact).foldl (step state) world =
      { world with
        shared.storage :=
          Journal.run (execute state.deployment) world.shared.storage txs } := by
  induction txs generalizing world with
  | nil => rfl
  | cons tx txs ih =>
      rw [List.map_cons, List.foldl_cons, ih]
      rfl

/-- A credit the registry has taken is of use to the funder only when the nonce of the user
has come all the way around. -/
theorem canSucceed_after_credit (valid : Valid state req) {now : UInt64}
    (unexpired : now ≤ req.credit.attestation.expiresAt) {world : World}
    (free : ∃ id, world.pool id = none) {context : Context} {signature : Bytes}
    {storage : Storage} {event : EntitlementRegistry.Event}
    (taken : EntitlementRegistry.credit state.deployment context world.shared.storage
      req.credit.attestation signature = .ok (storage, event)) (txs : List Transaction) :
    CanSucceed state
        (((⟨context, .credit req.credit.attestation, signature⟩ :: txs).map Action.transact).foldl
          (step state) world) req now ↔
      Fresh world.shared (requestKey state req) ∧
        2 ^ 64 ∣ (messages req.credit.attestation.userId
          (Journal.accepted (execute state.deployment) storage txs)).length + 1 ∧
        req.credit.attestation.amount.toNat ≤
          ((Journal.run (execute state.deployment) storage txs).balance
            req.credit.attestation.userId).toNat := by
  have done : execute state.deployment world.shared.storage
      ⟨context, .credit req.credit.attestation, signature⟩ = .ok (storage, event) := taken
  have settles := execute_settles done
  have next : storage.nonce req.credit.attestation.userId =
      req.credit.attestation.nonce + 1 := by
    rw [settles.written]
    exact Function.update_self ..
  have reached : Journal.run (execute state.deployment) world.shared.storage
      (⟨context, .credit req.credit.attestation, signature⟩ :: txs) =
        Journal.run (execute state.deployment) storage txs := by
    rw [Journal.run, List.foldl_cons, Journal.submit_of_ok done]
    rfl
  rw [foldl_transact, reached]
  have room : ∃ id, World.pool ⟨⟨Journal.run (execute state.deployment) storage txs,
      world.shared.ledger, world.shared.settled⟩, world.pool⟩ id = none := free
  apply (canSucceed_iff valid unexpired room).trans
  simp only [nonce_run, next, nonce_wraps]
  exact Iff.rfl

end

/-! ## Debits and their rows -/

def Transferred (shared : Shared) (key : Bytes32) : Prop :=
  ∃ entry ∈ shared.settled, entry.isTransfer key = true

/-- Every redemption has a row that a restart picks up, that says the transfer was made after
it was, or that asks for an operator. -/
def Accounted (shared : Shared) : Prop :=
  ∀ key, Redeemed shared key → ∃ row ∈ shared.ledger, row.attestationHash = key ∧
    (row.state.resumable = true ∨ row.state = .ethTransferMined ∧ Transferred shared key ∨
      row.state = .ethTransferFailed)

/-- A redemption mined for a new row is answered with success, and is then recorded; a
transfer is answered with success only if it was mined. -/
def RecordedAnswer (state : AppState) (shared : Shared) (key : Bytes32) :
    Call → Outcome → Prop
  | .submitRedemption fields signature, outcome =>
      (∃ row ∈ shared.ledger, row.attestationHash = key ∧ row.state = .preRedeem) →
        outcome.lands = true →
        (EntitlementRegistry.redeem state.deployment outcome.context shared.storage fields
          signature).isOk = true → outcome.redemption.isOk = true
  | .updateRedemptionTxHash _ _, outcome => Redeemed shared key → outcome.ledgerError = none
  | .submitEthTransfer _ _, outcome => outcome.transfer.isOk = true → outcome.lands = true
  | _, _ => True

/-- No task is about to record a redemption the chain holds. -/
def NoneRecording (world : World) : Prop :=
  ∀ id task, world.pool id = some task → Redeemed world.shared task.key →
    ∀ hash txHash next, task.program ≠ .call (.updateRedemptionTxHash hash txHash) next

/-- A redemption whose row does not know of it has a task that will record it. -/
structure Tracked (shared : Shared) (held : Bytes32 → Phase → Prop) : Prop where
  unique : (shared.ledger.map PaymentRow.attestationHash).Nodup
  redeems : ∀ key, Redeemed shared key → ∃ row ∈ shared.ledger, row.attestationHash = key
  pending : ∀ row ∈ shared.ledger, row.state = .preRedeem →
    Redeemed shared row.attestationHash → ∃ payment, held row.attestationHash (.recording payment)
  paid : ∀ row ∈ shared.ledger, row.state = .ethTransferSubmitted ∨ row.state = .ethTransferMined →
    Transferred shared row.attestationHash

def Sees (shared : Shared) (key : Bytes32) : Phase → Prop
  | .outside => True
  | .inserted payment => HasRow shared key payment .preRedeem
  | .recording payment => HasRow shared key payment .preRedeem
  | .submitted payment => HasRow shared key payment .redeemSubmitted
  | .mined payment => HasRow shared key payment .redeemMined
  | .paid => (∃ row ∈ shared.ledger, row.attestationHash = key) ∧ Transferred shared key
  | .failing => ∃ row ∈ shared.ledger, row.attestationHash = key

section

variable {state : AppState} {shared : Shared} {key : Bytes32} {payment : Payment}
variable {recorded : PaymentState} {call : Call} {outcome : Outcome} {phase : Phase}
variable {held held' : Bytes32 → Phase → Prop}

theorem Tracked.mono (tracked : Tracked shared held)
    (kept : ∀ key payment, held key (.recording payment) → held' key (.recording payment)) :
    Tracked shared held' where
  unique := tracked.unique
  redeems := tracked.redeems
  pending := by
    intro row member isNew redeemed
    obtain ⟨payment, records⟩ := tracked.pending row member isNew redeemed
    exact ⟨payment, kept _ payment records⟩
  paid := tracked.paid

theorem Tracked.insert (tracked : Tracked shared held) {row : PaymentRow}
    (fresh : ∀ old ∈ shared.ledger, old.attestationHash ≠ row.attestationHash)
    (isNew : row.state = .preRedeem) :
    Tracked { shared with ledger := shared.ledger ++ [row] } held where
  unique := Ledger.nodup_append tracked.unique fresh
  redeems := by
    intro key redeemed
    obtain ⟨old, member, isKey⟩ := tracked.redeems key redeemed
    exact ⟨old, List.mem_append_left _ member, isKey⟩
  pending := by
    intro other member isNew redeemed
    rcases List.mem_append.mp member with old | isRow
    · exact tracked.pending other old isNew redeemed
    · obtain rfl := List.mem_singleton.mp isRow
      obtain ⟨old, oldIn, same⟩ := tracked.redeems _ redeemed
      exact absurd same (fresh old oldIn)
  paid := by
    intro other member transferred
    rcases List.mem_append.mp member with old | isRow
    · exact tracked.paid other old transferred
    · obtain rfl := List.mem_singleton.mp isRow
      rw [isNew] at transferred
      rcases transferred with wrong | wrong <;> cases wrong

/-- Recording a later state settles what was pending for the row. -/
theorem Tracked.record {change : PaymentRow → PaymentRow} (tracked : Tracked shared held)
    (records : Records change recorded) (later : recorded ≠ .preRedeem)
    (isPaid : recorded = .ethTransferSubmitted ∨ recorded = .ethTransferMined →
      Transferred shared key)
    (kept : ∀ other payment, other ≠ key → held other (.recording payment) →
      held' other (.recording payment)) :
    Tracked { shared with ledger := (shared.ledger.update key change).1 } held' where
  unique := by
    rw [Ledger.update_hashes fun row => (records.credit row).attestationHash]
    exact tracked.unique
  redeems := by
    intro hash redeemed
    obtain ⟨row, member, isHash⟩ := tracked.redeems hash redeemed
    obtain ⟨row', member', credit⟩ := records.mem member
    exact ⟨row', member', by rw [credit.attestationHash, isHash]⟩
  pending := by
    intro row' member' isNew redeemed
    obtain ⟨row, member, rfl⟩ := Ledger.mem_update.mp member'
    split_ifs at isNew redeemed ⊢ with isKey
    · exact absurd ((records.recorded row).symm.trans isNew) later
    · obtain ⟨payment, holder⟩ := tracked.pending row member isNew redeemed
      exact ⟨payment, kept _ payment isKey holder⟩
  paid := by
    intro row' member' transferred
    obtain ⟨row, member, rfl⟩ := Ledger.mem_update.mp member'
    split_ifs at transferred ⊢ with isKey
    · rw [records.recorded row] at transferred
      rw [(records.credit row).attestationHash, isKey]
      exact isPaid transferred
    · exact tracked.paid row member transferred

/-- A redemption is mined for a row that is past the insertion, or whose task will record
it. -/
theorem Tracked.redeem {fields : Attestation} {storage : Storage} (tracked : Tracked shared held)
    (known : HasRow shared key payment recorded)
    (holder : recorded = .preRedeem → ∃ payment, held' key (.recording payment))
    (kept : ∀ other payment, held other (.recording payment) → held' other (.recording payment)) :
    Tracked { shared with storage, settled := shared.settled ++ [.redeem key fields] } held' := by
  obtain ⟨row, rowIn, isKey, isPayment, isRecorded⟩ := known
  have older : ∀ {hash}, hash ≠ key → Redeemed
      { shared with storage, settled := shared.settled ++ [.redeem key fields] } hash →
      Redeemed shared hash := by
    rintro hash other ⟨made, member⟩
    rcases List.mem_append.mp member with old | new
    · exact ⟨made, old⟩
    · cases List.mem_singleton.mp new
      exact absurd rfl other
  refine ⟨tracked.unique, ?_, ?_, ?_⟩
  · intro hash redeemed
    by_cases same : hash = key
    · exact ⟨row, rowIn, by rw [isKey, same]⟩
    · exact tracked.redeems hash (older same redeemed)
  · intro row' member' isNew redeemed
    by_cases same : row'.attestationHash = key
    · obtain rfl := Ledger.row_unique tracked.unique rowIn member' (same.trans isKey.symm)
      rw [same]
      exact holder (isRecorded.symm.trans isNew)
    · obtain ⟨payment, records⟩ := tracked.pending row' member' isNew (older same redeemed)
      exact ⟨payment, kept _ payment records⟩
  · intro row' member' transferred
    obtain ⟨entry, made, isTransfer⟩ := tracked.paid row' member' transferred
    exact ⟨entry, List.mem_append_left _ made, isTransfer⟩

theorem Tracked.transfer {toAddress : Address} {value : BitVec 256}
    (tracked : Tracked shared held) :
    Tracked { shared with settled := shared.settled ++ [.transfer key toAddress value] } held := by
  have older : ∀ {hash}, Redeemed
      { shared with settled := shared.settled ++ [.transfer key toAddress value] } hash →
      Redeemed shared hash := by
    rintro hash ⟨made, member⟩
    rcases List.mem_append.mp member with old | new
    · exact ⟨made, old⟩
    · cases List.mem_singleton.mp new
  refine ⟨tracked.unique, ?_, ?_, ?_⟩
  · intro hash redeemed
    exact tracked.redeems hash (older redeemed)
  · intro row member isNew redeemed
    exact tracked.pending row member isNew (older redeemed)
  · intro row member transferred
    obtain ⟨entry, made, isTransfer⟩ := tracked.paid row member transferred
    exact ⟨entry, List.mem_append_left _ made, isTransfer⟩

theorem outside_tracked (tracked : Tracked shared held)
    (allowed : Allows state key .outside call) :
    Tracked (perform state shared key call outcome).1 held ∧
      Sees (perform state shared key call outcome).1 key
        (after .outside call (perform state shared key call outcome).2) := by
  cases call with
  | rateLimit deviceAddress => exact ⟨tracked, trivial⟩
  | now => exact ⟨tracked, trivial⟩
  | tryInsert hash userId deviceAddress amount =>
      obtain rfl := allowed.target_eq rfl
      simp only [perform, Shared.write]
      split
      · exact ⟨tracked, trivial⟩
      · by_cases taken : ∃ old ∈ shared.ledger, old.attestationHash = hash
        · rw [Ledger.tryInsert_of_taken taken]
          exact ⟨tracked, trivial⟩
        · have fresh : ∀ old ∈ shared.ledger, old.attestationHash ≠ hash := by
            intro old member isHash
            exact taken ⟨old, member, isHash⟩
          rw [Ledger.tryInsert_of_fresh fresh]
          exact ⟨tracked.insert fresh rfl,
            ⟨_, List.mem_append_right _ List.mem_cons_self, rfl, rfl, rfl⟩⟩
  | _ => cases allowed

theorem inserted_tracked (tracked : Tracked shared held)
    (sees : Sees shared key (.inserted payment))
    (allowed : Allows state key (.inserted payment) call)
    (guarded : RecordedAnswer state shared key call outcome)
    (now : held key (after (.inserted payment) call
      (perform state shared key call outcome).2)) :
    Tracked (perform state shared key call outcome).1 held ∧
      Sees (perform state shared key call outcome).1 key
        (after (.inserted payment) call (perform state shared key call outcome).2) := by
  cases call with
  | submitRedemption fields signature =>
      have known : HasRow shared key payment .preRedeem := sees
      have next : after (.inserted payment) (.submitRedemption fields signature)
          (perform state shared key (.submitRedemption fields signature) outcome).2 =
            if outcome.redemption.isOk then .recording payment else .failing := by
        cases answer : outcome.redemption with
        | error error => simp only [perform, answer, after, Except.isOk, Except.toBool,
            Bool.false_eq_true, if_false]
        | ok txHash => simp only [perform, answer, after, Except.isOk, Except.toBool, if_true]
      rw [next] at now ⊢
      rcases submitRedemption_cases state shared key fields signature outcome with
        ⟨same, _⟩ | ⟨storage, made, lands, event, accepted⟩
      · rw [same]
        refine ⟨tracked, ?_⟩
        split
        · exact known
        · exact known.present
      · -- the redemption was mined, so by the guard the task goes on to record it
        have success : outcome.redemption.isOk = true := by
          obtain ⟨row, member, isKey, _, isNew⟩ := known
          apply guarded ⟨row, member, isKey, isNew⟩ lands
          rw [accepted]
          rfl
        rw [made, if_pos success]
        rw [if_pos success] at now
        refine ⟨tracked.redeem known (fun _ => ⟨payment, now⟩) (fun _ _ holder => holder), ?_⟩
        exact known
  | _ => cases allowed

theorem recording_tracked (tracked : Tracked shared held)
    (sees : Sees shared key (.recording payment))
    (allowed : Allows state key (.recording payment) call)
    (guarded : RecordedAnswer state shared key call outcome)
    (kept : ∀ other payment, other ≠ key → held other (.recording payment) →
      held' other (.recording payment)) :
    Tracked (perform state shared key call outcome).1 held' ∧
      Sees (perform state shared key call outcome).1 key
        (after (.recording payment) call (perform state shared key call outcome).2) := by
  cases call with
  | updateRedemptionTxHash hash txHash =>
      obtain rfl := allowed.target_eq rfl
      have known : HasRow shared hash payment .preRedeem := sees
      simp only [perform, Shared.write]
      split
      · next message failed =>
          -- the write may fail only where there is nothing to record
          have nothing : ¬ Redeemed shared hash := by
            intro redeemed
            rw [guarded redeemed] at failed
            cases failed
          refine ⟨⟨tracked.unique, tracked.redeems, ?_, tracked.paid⟩, known.present⟩
          intro row member isNew redeemed
          by_cases same : row.attestationHash = hash
          · rw [same] at redeemed
            exact absurd redeemed nothing
          · obtain ⟨payment, holder⟩ := tracked.pending row member isNew redeemed
            exact ⟨payment, kept _ payment same holder⟩
      · have records := records_updateRedemptionTxHash txHash
        exact ⟨tracked.record records (by simp) (by simp) kept, records.hasRow known⟩
  | _ => cases allowed

/-- A write of a later state by the owner of the row. -/
theorem write_tracked {change : PaymentRow → PaymentRow} (tracked : Tracked shared held)
    (records : Records change recorded) (later : recorded ≠ .preRedeem)
    (isPaid : recorded = .ethTransferSubmitted ∨ recorded = .ethTransferMined →
      Transferred shared key) :
    Tracked (shared.write outcome (shared.ledger.update key change)).1 held := by
  unfold Shared.write
  split
  · exact tracked
  · exact tracked.record records later isPaid fun _ _ _ holder => holder

theorem write_present {change : PaymentRow → PaymentRow}
    (known : ∃ row ∈ shared.ledger, row.attestationHash = key)
    (records : Records change recorded) :
    ∃ row ∈ (shared.write outcome (shared.ledger.update key change)).1.ledger,
      row.attestationHash = key := by
  unfold Shared.write
  split
  · exact known
  · exact records.present known

theorem submitted_tracked (tracked : Tracked shared held)
    (sees : Sees shared key (.submitted payment))
    (allowed : Allows state key (.submitted payment) call) :
    Tracked (perform state shared key call outcome).1 held ∧
      Sees (perform state shared key call outcome).1 key
        (after (.submitted payment) call (perform state shared key call outcome).2) := by
  have known : HasRow shared key payment .redeemSubmitted := sees
  cases call with
  | submitRedemption fields signature =>
      rcases submitRedemption_cases state shared key fields signature outcome with
        ⟨same, _⟩ | ⟨storage, made, _⟩
      · rw [same]
        exact ⟨tracked, known⟩
      · rw [made]
        exact ⟨tracked.redeem known (by simp) (fun _ _ holder => holder), known⟩
  | transitionState hash newState =>
      obtain ⟨rfl, rfl | rfl⟩ := allowed
      · have records := records_transitionState .redeemMined
        refine ⟨write_tracked tracked records (by simp) (by simp), ?_⟩
        simp only [perform, Shared.write]
        split
        · exact known
        · exact records.hasRow known
      · have records := records_transitionState .ethTransferFailed
        refine ⟨write_tracked tracked records (by simp) (by simp), ?_⟩
        exact write_present known.present records
  | _ => cases allowed

theorem mined_tracked (tracked : Tracked shared held)
    (sees : Sees shared key (.mined payment))
    (allowed : Allows state key (.mined payment) call)
    (guarded : RecordedAnswer state shared key call outcome) :
    Tracked (perform state shared key call outcome).1 held ∧
      Sees (perform state shared key call outcome).1 key
        (after (.mined payment) call (perform state shared key call outcome).2) := by
  have known : HasRow shared key payment .redeemMined := sees
  cases call with
  | submitEthTransfer toAddress value =>
      have next : after (.mined payment) (.submitEthTransfer toAddress value)
          (perform state shared key (.submitEthTransfer toAddress value) outcome).2 =
            if outcome.transfer.isOk then .paid else .failing := by
        cases answer : outcome.transfer with
        | error error => simp only [perform, answer, after, Except.isOk, Except.toBool,
            Bool.false_eq_true, if_false]
        | ok anchor => simp only [perform, answer, after, Except.isOk, Except.toBool, if_true]
      rw [next]
      simp only [perform]
      by_cases lands : outcome.lands = true
      · rw [if_pos lands]
        refine ⟨tracked.transfer, ?_⟩
        split
        · refine ⟨known.present, _, List.mem_append_right _ List.mem_cons_self, ?_⟩
          exact decide_eq_true rfl
        · exact known.present
      · rw [if_neg lands]
        refine ⟨tracked, ?_⟩
        split
        · next success => exact absurd (guarded success) lands
        · exact known.present
  | transitionState hash newState =>
      obtain ⟨rfl, rfl⟩ := allowed
      have records := records_transitionState .ethTransferFailed
      refine ⟨write_tracked tracked records (by simp) (by simp), ?_⟩
      exact write_present known.present records
  | _ => cases allowed

theorem Transferred.write (transferred : Transferred shared key) {written : Ledger × Bool} :
    Transferred (shared.write outcome written).1 key := by
  unfold Transferred
  rw [Shared.write_settled]
  exact transferred

theorem paid_tracked (tracked : Tracked shared held) (sees : Sees shared key .paid)
    (allowed : Allows state key .paid call) :
    Tracked (perform state shared key call outcome).1 held ∧
      Sees (perform state shared key call outcome).1 key
        (after .paid call (perform state shared key call outcome).2) := by
  obtain ⟨known, transferred⟩ := sees
  cases call with
  | markEthTransferSubmitted hash txHash wei =>
      obtain rfl := allowed.target_eq rfl
      have records := records_markEthTransferSubmitted txHash wei
      exact ⟨write_tracked tracked records (by simp) (fun _ => transferred),
        write_present known records, transferred.write⟩
  | markEthTransferMined hash block =>
      obtain rfl := allowed.target_eq rfl
      simp only [perform, Ledger.markEthTransferMined]
      generalize (if block < 9223372036854775807 then block else 9223372036854775807) = stored
      have records := records_markEthTransferMined stored
      exact ⟨write_tracked tracked records (by simp) (fun _ => transferred),
        write_present known records, transferred.write⟩
  | transitionState hash newState =>
      obtain ⟨rfl, rfl | rfl⟩ := allowed
      · have records := records_transitionState .ethTransferMined
        exact ⟨write_tracked tracked records (by simp) (fun _ => transferred),
          write_present known records, transferred.write⟩
      · have records := records_transitionState .ethTransferFailed
        exact ⟨write_tracked tracked records (by simp) (by simp),
          write_present known records, transferred.write⟩
  | _ => cases allowed

theorem failing_tracked (tracked : Tracked shared held) (sees : Sees shared key .failing)
    (allowed : Allows state key .failing call) :
    Tracked (perform state shared key call outcome).1 held ∧
      Sees (perform state shared key call outcome).1 key
        (after .failing call (perform state shared key call outcome).2) := by
  cases call with
  | transitionState hash newState =>
      obtain ⟨rfl, rfl⟩ := allowed
      have records := records_transitionState .ethTransferFailed
      exact ⟨write_tracked tracked records (by simp) (by simp), write_present sees records⟩
  | _ => cases allowed

/-- One call keeps every redemption tracked. -/
theorem track_step (tracked : Tracked shared held) (sees : Sees shared key phase)
    (allowed : Allows state key phase call)
    (guarded : RecordedAnswer state shared key call outcome)
    (kept : ∀ other since, held other since → held' other since ∨ other = key ∧ since = phase)
    (now : held' key (after phase call (perform state shared key call outcome).2)) :
    Tracked (perform state shared key call outcome).1 held' ∧
      Sees (perform state shared key call outcome).1 key
        (after phase call (perform state shared key call outcome).2) := by
  -- the tasks that are about to record are the same, unless the caller is one
  have elsewhere : (∀ payment, phase ≠ .recording payment) → Tracked shared held' := by
    intro notHere
    apply tracked.mono
    intro other payment holder
    rcases kept other _ holder with still | ⟨_, same⟩
    · exact still
    · exact absurd same.symm (notHere payment)
  cases phase with
  | outside => exact outside_tracked (elsewhere nofun) allowed
  | inserted payment => exact inserted_tracked (elsewhere nofun) sees allowed guarded now
  | recording payment =>
      apply recording_tracked tracked sees allowed guarded
      intro other payment different holder
      rcases kept other _ holder with still | ⟨same, _⟩
      · exact still
      · exact absurd same different
  | submitted payment => exact submitted_tracked (elsewhere nofun) sees allowed
  | mined payment => exact mined_tracked (elsewhere nofun) sees allowed guarded
  | paid => exact paid_tracked (elsewhere nofun) sees allowed
  | failing => exact failing_tracked (elsewhere nofun) sees allowed

theorem SameAt.transferred {shared' : Shared} (same : SameAt key shared shared')
    (known : Transferred shared key) : Transferred shared' key := by
  obtain ⟨entry, member, isTransfer⟩ := known
  refine ⟨entry, ?_, isTransfer⟩
  cases entry with
  | redeem hash fields => cases isTransfer
  | transfer hash toAddress value =>
      have isKey : hash = key := of_decide_eq_true isTransfer
      exact (same.entries (.transfer hash toAddress value) isKey).mpr member

theorem Sees.congr {shared' : Shared} (same : SameAt key shared shared')
    (sees : Sees shared key phase) : Sees shared' key phase := by
  cases phase with
  | outside => exact trivial
  | inserted payment => exact same.hasRow sees
  | recording payment => exact same.hasRow sees
  | submitted payment => exact same.hasRow sees
  | mined payment => exact same.hasRow sees
  | paid => exact ⟨same.present sees.1, same.transferred sees.2⟩
  | failing => exact same.present sees

theorem Sees.present (sees : Sees shared key phase) (owns : Owner phase) :
    ∃ row ∈ shared.ledger, row.attestationHash = key := by
  cases phase with
  | outside => cases owns
  | inserted payment => exact HasRow.present sees
  | recording payment => exact HasRow.present sees
  | submitted payment => exact HasRow.present sees
  | mined payment => exact HasRow.present sees
  | paid => exact sees.1
  | failing => exact sees

theorem refunds_sound (state : AppState) :
    Sound (discipline state Sees Tracked) (perform state) (RecordedAnswer state) := by
  apply sound_discipline
  · intro shared key
    exact trivial
  · intro shared key phase owns sees
    exact sees.present owns
  · intro shared shared' key phase same sees
    exact sees.congr same
  · intro shared held key phase call outcome move
    have stepped : Tracked _ (fun _ _ => True) ∧ _ := track_step move.inv move.knows move.allowed
      move.guarded (fun _ _ _ => Or.inl trivial) trivial
    exact stepped.2
  · intro shared held held' key phase call outcome move kept now
    exact (track_step move.inv move.knows move.allowed move.guarded kept now).1
  · intro shared held held' grows tracked
    exact tracked.mono fun _ _ => grows _ _

/-- A task that has a redemption to record is about to do so. -/
theorem recording_call {program : Program Call Answer Unit}
    (follows : Follows (protocol state) key (fun phase _ => MayEnd phase) (.recording payment)
      program) :
    ∃ hash txHash next, program = .call (.updateRedemptionTxHash hash txHash) next := by
  cases program with
  | done value => cases follows
  | call call next =>
      cases call with
      | updateRedemptionTxHash hash txHash => exact ⟨hash, txHash, next, rfl⟩
      | _ => cases follows.1

/-- Where no task is about to record, no redemption is unrecorded. -/
theorem Tracked.settled {world : World} {phases : Nat → Phase}
    (coherent : Coherent (discipline state Sees Tracked) world.shared world.pool phases)
    (none : NoneRecording world) (held : Bytes32 → Phase → Prop) : Tracked world.shared held := by
  have tracked : Tracked world.shared (Held world.pool phases) := coherent.inv
  refine ⟨tracked.unique, tracked.redeems, ?_, tracked.paid⟩
  intro row member isNew redeemed
  obtain ⟨payment, id, task, running, isKey, isPhase⟩ := tracked.pending row member isNew redeemed
  have follows := coherent.follows id task running
  rw [isPhase] at follows
  obtain ⟨hash, txHash, next, calls⟩ := recording_call follows
  rw [← isKey] at redeemed
  exact absurd calls (none id task running redeemed hash txHash next)

theorem Tracked.resume (tracked : Tracked shared held) {row : PaymentRow}
    (member : row ∈ shared.ledger) (resumable : row.state.resumable = true) :
    Sees shared row.attestationHash (resumePhase row) := by
  unfold resumePhase
  cases isRecorded : row.state with
  | redeemSubmitted => exact ⟨row, member, rfl, rfl, isRecorded⟩
  | redeemMined => exact ⟨row, member, rfl, rfl, isRecorded⟩
  | ethTransferSubmitted =>
      exact ⟨⟨row, member, rfl⟩, tracked.paid row member (Or.inl isRecorded)⟩
  | preRedeem =>
      rw [isRecorded] at resumable
      cases resumable
  | ethTransferMined =>
      rw [isRecorded] at resumable
      cases resumable
  | ethTransferFailed =>
      rw [isRecorded] at resumable
      cases resumable

theorem Tracked.accounted (tracked : Tracked shared fun _ _ => False) : Accounted shared := by
  intro key redeemed
  obtain ⟨row, member, rfl⟩ := tracked.redeems key redeemed
  refine ⟨row, member, rfl, ?_⟩
  cases isRecorded : row.state with
  | preRedeem =>
      obtain ⟨_, impossible⟩ := tracked.pending row member isRecorded redeemed
      cases impossible
  | redeemSubmitted => exact Or.inl rfl
  | redeemMined => exact Or.inl rfl
  | ethTransferSubmitted => exact Or.inl rfl
  | ethTransferMined => exact Or.inr (Or.inl ⟨rfl, tracked.paid row member (Or.inr isRecorded)⟩)
  | ethTransferFailed => exact Or.inr (Or.inr rfl)

/-- Every restart finds the redemptions accounted for. -/
theorem accounted_of_reaches {storage : Storage} {world : World}
    (run : Reaches (step state) (Guard (RecordedAnswer state) NoneRecording)
      (World.start storage) world) (none : NoneRecording world) : Accounted world.shared := by
  have tidy : Tidy state Sees Tracked world := by
    apply tidy_reaches (refunds_sound state) ?_ ?_ ?_ ?_ ?_ run
    · intro shared key
      exact trivial
    · intro shared shared' key phase same sees
      exact sees.congr same
    · intro shared storage held tracked
      exact ⟨tracked.unique, tracked.redeems, tracked.pending, tracked.paid⟩
    · rintro world ⟨phases, coherent⟩ none
      have tracked := Tracked.settled coherent none
      apply tidy_restart (tracked fun _ _ => False).unique
      · intro row member resumable
        exact (tracked fun _ _ => False).resume member resumable
      · exact tracked
    · intro held
      refine ⟨List.nodup_nil, ?_, ?_, ?_⟩
      · rintro key ⟨fields, member⟩
        cases member
      · intro row member
        cases member
      · intro row member
        cases member
  obtain ⟨phases, coherent⟩ := tidy
  exact (Tracked.settled coherent none _).accounted

end

/-- A credit the registry has taken can be paid out exactly when it has no row yet, the nonce
of the user has come all the way around since, and the balance still covers it: the redemption
is signed with the nonce of the credit, which the credit has used up.  Where the registry
would take the redemption, a request can be repeated exactly while no row was written for it.
And in every run in which a redemption that was mined is answered with success and recorded
before the process stops, every restart finds the row of a redemption resumable, paid or
failed. -/
theorem top_up_debits (state : AppState) (storage : Storage) :
    (∀ world req now context signature storage' event txs,
      Reaches (step state) (fun _ _ => True) (World.start storage) world → Valid state req →
      now ≤ req.credit.attestation.expiresAt →
      EntitlementRegistry.credit state.deployment context world.shared.storage
        req.credit.attestation signature = .ok (storage', event) →
      (CanSucceed state
          (((⟨context, .credit req.credit.attestation, signature⟩ :: txs).map
            Action.transact).foldl (step state) world) req now ↔
        Fresh world.shared (requestKey state req) ∧
          2 ^ 64 ∣ (messages req.credit.attestation.userId
            (Journal.accepted (execute state.deployment) storage' txs)).length + 1 ∧
          req.credit.attestation.amount.toNat ≤
            ((Journal.run (execute state.deployment) storage' txs).balance
              req.credit.attestation.userId).toNat)) ∧
    (∀ world req now,
      Reaches (step state) (fun _ _ => True) (World.start storage) world → Valid state req →
      now ≤ req.credit.attestation.expiresAt →
      req.credit.attestation.nonce =
        world.shared.storage.nonce req.credit.attestation.userId →
      req.credit.attestation.amount.toNat ≤
        (world.shared.storage.balance req.credit.attestation.userId).toNat →
      (CanSucceed state world req now ↔ Fresh world.shared (requestKey state req))) ∧
    (∀ world,
      Reaches (step state) (Guard (RecordedAnswer state) NoneRecording) (World.start storage)
        world →
      NoneRecording world → Accounted (step state world .restart).shared) := by
  refine ⟨?_, ?_, ?_⟩
  · intro world req now context signature storage' event txs run valid unexpired taken
    exact canSucceed_after_credit valid unexpired (exists_free run) taken txs
  · intro world req now run valid unexpired current enough
    rw [canSucceed_iff valid unexpired (exists_free run)]
    constructor
    · intro conditions
      exact conditions.1
    · intro fresh
      exact ⟨fresh, current, enough⟩
  · intro world run none
    have accounted := accounted_of_reaches run none
    exact accounted

/-! The conditions can be checked along a run. -/

instance (state : AppState) (shared : Shared) (key : Bytes32) :
    (call : Call) → (outcome : Outcome) →
      Decidable (RecordedAnswer state shared key call outcome)
  | .submitRedemption fields signature, outcome =>
      inferInstanceAs (Decidable
        ((∃ row ∈ shared.ledger, row.attestationHash = key ∧ row.state = .preRedeem) →
          outcome.lands = true →
          (EntitlementRegistry.redeem state.deployment outcome.context shared.storage fields
            signature).isOk = true → outcome.redemption.isOk = true))
  | .updateRedemptionTxHash _ _, outcome =>
      inferInstanceAs (Decidable (Redeemed shared key → outcome.ledgerError = none))
  | .submitEthTransfer _ _, outcome =>
      inferInstanceAs (Decidable (outcome.transfer.isOk = true → outcome.lands = true))
  | .rateLimit _, _ => .isTrue trivial
  | .now, _ => .isTrue trivial
  | .tryInsert .., _ => .isTrue trivial
  | .transitionState .., _ => .isTrue trivial
  | .markEthTransferSubmitted .., _ => .isTrue trivial
  | .markEthTransferMined .., _ => .isTrue trivial

namespace Sample

/-- The credit the user had on chain, sent to the funder. -/
def usedReq : TopUpRequest := ⟨⟨⟨1, 5, 0, 1, 100⟩, sign 11⟩, sign 21, 21⟩

theorem valid_usedReq : Valid appState usedReq where
  schema := by decide
  credit := by decide +kernel
  binding := by decide +kernel
  capped := by decide
  held := rfl
  signs := ⟨sign 12, rfl, by decide +kernel⟩

theorem valid_req : Valid appState req where
  schema := by decide
  credit := by decide +kernel
  binding := by decide +kernel
  capped := by decide
  held := rfl
  signs := ⟨sign 12, rfl, by decide +kernel⟩

/-- Nothing is mined and the node cannot be reached. -/
def unreachable : Outcome := { works with lands := false, redemption := .error .rpc }

/-- The redemption fails, the row is there. -/
def failed : List Action :=
  [credited, .post 0 req] ++ List.replicate 3 (.run 0 works) ++ [.run 0 unreachable]

/-- The process stops between the redemption and its record. -/
def forgotten : List Action :=
  [credited, .post 0 req] ++ List.replicate 4 (.run 0 works) ++ [.restart]

/-- The handler runs to its end. -/
def served : List Action := [credited, .post 0 req] ++ List.replicate 9 (.run 0 works)

def world (actions : List Action) : World := actions.foldl (step appState) (World.start .empty)

theorem reaches_world (actions : List Action) :
    Reaches (step appState) (fun _ _ => True) (World.start .empty) (world actions) := by
  apply Reaches.foldl
  have free : ∀ start, Allowed (step appState) (fun _ _ => True) start actions := by
    induction actions with
    | nil => exact fun _ => trivial
    | cons action actions ih => exact fun start => ⟨trivial, ih _⟩
  exact free _

/-- The slots no action of a list is about. -/
theorem pool_world (actions : List Action) (other : Nat)
    (foreign : ∀ action ∈ actions, match action with
      | .post id _ => id ≠ other
      | .run id _ => id ≠ other
      | .restart => False
      | .transact _ => True) :
    (world actions).pool other = none := by
  have untouched : ∀ start : World, start.pool other = none →
      (actions.foldl (step appState) start).pool other = none := by
    induction actions with
    | nil => exact fun _ free => free
    | cons action actions ih =>
        intro start free
        have here := foreign action List.mem_cons_self
        apply ih (fun later member => foreign later (List.mem_cons_of_mem _ member))
        cases action with
        | post id req =>
            simp only [step]
            split
            · exact (Function.update_of_ne (Ne.symm here) ..).trans free
            · exact free
        | run id outcome =>
            simp only [step, advance]
            split
            · exact (Function.update_of_ne (Ne.symm here) ..).trans free
            · exact free
            · exact free
        | restart => cases here
        | transact tx => exact free
  exact untouched _ rfl

/-- The next call of the task, if any, is not the record of a redemption. -/
def notRecording : Option (Task Bytes32 Call Answer) → Bool
  | some ⟨_, .call (.updateRedemptionTxHash _ _) _⟩ => false
  | _ => true

theorem noneRecording_served : NoneRecording (world served) := by
  intro id task running _ hash txHash next calls
  by_cases first : id = 0
  · subst first
    have rest : notRecording ((world served).pool 0) = true := by decide +kernel
    rw [running] at rest
    obtain ⟨key, program⟩ := task
    obtain rfl : program = _ := calls
    cases rest
  · have free : (world served).pool id = none := by
      apply pool_world
      intro action member
      simp only [served, credited, List.cons_append, List.nil_append, List.mem_cons,
        List.mem_replicate] at member
      rcases member with rfl | rfl | ⟨_, rfl⟩
      · exact trivial
      · exact Ne.symm first
      · exact Ne.symm first
    rw [free] at running
    cases running

end Sample

/-- A credit that is on chain is of no use; a second one, that is not, is; and after it was
served its redemption is accounted for. -/
theorem top_up_debits_served :
    ¬ CanSucceed Sample.appState (Sample.world [Sample.credited]) Sample.usedReq 60 ∧
      CanSucceed Sample.appState (Sample.world [Sample.credited]) Sample.req 60 ∧
      Redeemed (Sample.world Sample.served).shared Sample.hash ∧
      Accounted (step Sample.appState (Sample.world Sample.served) .restart).shared := by
  obtain ⟨afterCredit, again, restarts⟩ := top_up_debits Sample.appState .empty
  refine ⟨?_, ?_, by decide +kernel, ?_⟩
  · intro succeeds
    have taken : ∃ result, EntitlementRegistry.credit Sample.appState.deployment ⟨1, 50⟩
        (World.start .empty).shared.storage Sample.usedReq.credit.attestation (Sample.sign 11) =
          .ok result := ⟨_, rfl⟩
    obtain ⟨⟨storage', event⟩, taken⟩ := taken
    obtain ⟨_, wraps, _⟩ := (afterCredit _ Sample.usedReq 60 _ _ _ _ [] .refl
      Sample.valid_usedReq (by decide) taken).mp succeeds
    have one : 2 ^ 64 ∣ 1 := wraps
    exact absurd one (by decide)
  · apply (again _ Sample.req 60 (Sample.reaches_world _) Sample.valid_req (by decide)
      (by decide +kernel) (by decide +kernel)).mpr
    intro row member
    cases member
  · apply restarts
    · have guarded : Reaches (step Sample.appState)
          (Guard (RecordedAnswer Sample.appState) fun _ => False) (World.start .empty)
          (Sample.world Sample.served) := by
        apply Reaches.foldl
        decide +kernel
      apply guarded.mono
      intro world action allowed
      cases action with
      | restart => cases allowed
      | _ => exact allowed
    · exact Sample.noneRecording_served

/-- The credit the registry has taken cannot be redeemed; a request whose redemption was never
sent cannot be repeated; and a redemption that was mined just before the process stopped is
forgotten. -/
theorem debits_lost :
    ((EntitlementRegistry.credit Sample.deployment ⟨1, 50⟩ (World.start .empty).shared.storage
        Sample.usedReq.credit.attestation (Sample.sign 11)).isOk = true ∧
      ¬ CanSucceed Sample.appState (Sample.world [Sample.credited]) Sample.usedReq 60) ∧
    (¬ Redeemed (Sample.world Sample.failed).shared Sample.hash ∧
      CanSucceed Sample.appState (Sample.world [Sample.credited]) Sample.req 60 ∧
      ¬ CanSucceed Sample.appState (Sample.world Sample.failed) Sample.req 60) ∧
    (Redeemed (Sample.world Sample.forgotten).shared Sample.hash ∧
      ¬ Accounted (Sample.world Sample.forgotten).shared) := by
  refine ⟨⟨by decide +kernel, ?_⟩, ⟨by decide +kernel, ?_, ?_⟩, by decide +kernel, ?_⟩
  · rw [canSucceed_iff Sample.valid_usedReq (by decide) (exists_free (Sample.reaches_world _))]
    rintro ⟨_, current, _⟩
    revert current
    decide +kernel
  · rw [canSucceed_iff Sample.valid_req (by decide) (exists_free (Sample.reaches_world _))]
    refine ⟨?_, by decide +kernel, by decide +kernel⟩
    intro row member
    cases member
  · rw [canSucceed_iff Sample.valid_req (by decide) (exists_free (Sample.reaches_world _))]
    rintro ⟨fresh, _⟩
    have taken : ∃ row ∈ (Sample.world Sample.failed).shared.ledger,
        row.attestationHash = Sample.hash := by decide +kernel
    obtain ⟨row, member, isHash⟩ := taken
    exact fresh row member isHash
  · intro accounted
    have recorded : ∀ row ∈ (Sample.world Sample.forgotten).shared.ledger,
        row.state = .preRedeem := by decide +kernel
    have redeemed : Redeemed (Sample.world Sample.forgotten).shared Sample.hash := by
      decide +kernel
    obtain ⟨row, member, _, outcome⟩ := accounted Sample.hash redeemed
    rw [recorded row member] at outcome
    rcases outcome with wrong | ⟨wrong, _⟩ | wrong <;> cases wrong

end Pangolin.Funder
