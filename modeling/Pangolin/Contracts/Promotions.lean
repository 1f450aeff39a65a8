import Pangolin.Contracts.DeviceSet
import Pangolin.Lib.Reaches

/-!
# The life of a promotion

A pending promotion is traced back through the transactions to its proposal.  Nothing
clears it when its candidate is removed, so the candidate was a device all along only as
long as nobody adds it again in the meantime.
-/

namespace Pangolin.RevisionLogV2

open Evm Transition

/-- The storage after some transactions. -/
abbrev after (machine : Machine) (txs : List Transaction) : Storage :=
  Journal.run (execute machine) .empty txs

/-- An accepted addition of the candidate of a pending promotion, which must have been
removed since it proposed itself. -/
def ReAdds (machine : Machine) (storage : Storage) (tx : Transaction) : Prop :=
  (∃ result, execute machine storage tx = .ok result) ∧
    ∃ vaultId nonce schemaVersion authoritySig,
      tx.call = .addDevice vaultId (storage.pendingPromotion vaultId).candidate nonce schemaVersion
        authoritySig ∧
      (storage.pendingPromotion vaultId).readyAt ≠ 0

/-- The transactions back the promotion of a candidate at time `now`: it proposed itself at
least the delay ago, and since then no cancellation succeeded, no removal of it did, and it
was an authorized device at every moment. -/
def PromotionBacked (machine : Machine) (txs : List Transaction) (vaultId : Bytes32)
    (candidate : Address) (now : Nat) : Prop :=
  ∃ before proposal window nonce schemaVersion candidateSig result,
    txs = before ++ proposal :: window ∧
      proposal.call =
        .proposePromotion vaultId candidate nonce schemaVersion candidateSig ∧
      execute machine (after machine before) proposal = .ok result ∧
      machine.recover (hashPromote machine vaultId candidate nonce schemaVersion) candidateSig =
        candidate ∧
      proposal.context.timestamp + promotionDelay.toNat ≤ now ∧
      (∀ first cancel last cancelVersion, window = first ++ cancel :: last →
        cancel.call = .cancelPromotion vaultId cancelVersion →
          ∃ revert, execute machine (after machine (before ++ proposal :: first)) cancel =
            .error revert) ∧
      (∀ first removal last removalNonce removalVersion authoritySig,
        window = first ++ removal :: last →
        removal.call =
          .removeDevice vaultId candidate removalNonce removalVersion authoritySig →
          ∃ revert, execute machine (after machine (before ++ proposal :: first)) removal =
            .error revert) ∧
      ∀ part, part <+: window →
        (after machine (before ++ proposal :: part)).authorizedDevice vaultId candidate = true

/-- A pending promotion as the transactions tell it. -/
structure Proposed (machine : Machine) (vaultId : Bytes32) (txs before : List Transaction)
    (proposal : Transaction) (window : List Transaction) : Prop where
  split : txs = before ++ proposal :: window
  signed : ∃ nonce schemaVersion candidateSig result,
    proposal.call = .proposePromotion vaultId
        ((after machine txs).pendingPromotion vaultId).candidate nonce schemaVersion
        candidateSig ∧
      execute machine (after machine before) proposal = .ok result ∧
      machine.recover (hashPromote machine vaultId
        ((after machine txs).pendingPromotion vaultId).candidate nonce schemaVersion)
        candidateSig = ((after machine txs).pendingPromotion vaultId).candidate
  ready : proposal.context.timestamp + promotionDelay.toNat =
    ((after machine txs).pendingPromotion vaultId).readyAt.toNat
  uncanceled : ∀ first cancel last schemaVersion, window = first ++ cancel :: last →
    cancel.call = .cancelPromotion vaultId schemaVersion →
      ∃ revert, execute machine (after machine (before ++ proposal :: first)) cancel =
        .error revert
  listed : (after machine txs).authorizedDevice vaultId
      ((after machine txs).pendingPromotion vaultId).candidate = true →
    ∀ part, part <+: window →
      (after machine (before ++ proposal :: part)).authorizedDevice vaultId
        ((after machine txs).pendingPromotion vaultId).candidate = true

section

variable {machine : Machine} {vaultId : Bytes32} {txs before window : List Transaction}
variable {proposal tx : Transaction}

/-- A proposal survives a transaction that neither cancels the promotion nor brings its
candidate back. -/
theorem Proposed.extend (known : Proposed machine vaultId txs before proposal window)
    (same : (after machine (txs ++ [tx])).pendingPromotion vaultId =
      (after machine txs).pendingPromotion vaultId)
    (uncanceled : ∀ schemaVersion, tx.call = .cancelPromotion vaultId schemaVersion →
      ∃ revert, execute machine (after machine txs) tx = .error revert)
    (back : (after machine (txs ++ [tx])).authorizedDevice vaultId
        ((after machine txs).pendingPromotion vaultId).candidate = true →
      (after machine txs).authorizedDevice vaultId
        ((after machine txs).pendingPromotion vaultId).candidate = true) :
    Proposed machine vaultId (txs ++ [tx]) before proposal (window ++ [tx]) := by
  constructor
  · rw [known.split]
    simp
  · rw [same]
    exact known.signed
  · rw [same]
    exact known.ready
  · intro first cancel last schemaVersion split call
    rcases List.eq_nil_or_concat last with rfl | ⟨rest, final, rfl⟩
    · -- the new transaction is the cancellation
      obtain ⟨rfl, last⟩ := List.append_inj' split rfl
      cases last
      rw [← known.split]
      exact uncanceled schemaVersion call
    · have shorter : window = first ++ cancel :: rest := by
        have inner : window ++ [tx] = (first ++ cancel :: rest) ++ [final] := by
          simpa using split
        exact (List.append_inj' inner rfl).1
      exact known.uncanceled first cancel rest schemaVersion shorter call
  · rw [same]
    intro listed part short
    rcases List.prefix_concat_iff.mp short with whole | shorter
    · rw [whole, ← List.cons_append, ← List.append_assoc, ← known.split]
      exact listed
    · exact known.listed (back listed) part shorter

/-- What one accepted call does to a promotion that is pending afterwards: it is the
proposal, or it was pending before, is not canceled, and its candidate comes back only with
an addition. -/
theorem Effect.pending {context : Context} {authority : Address} {vault vault' : Vault}
    {call : Call} {event : Event} {devices : Finset Address} (inv : DeviceInv vault devices)
    (effect : Effect machine context authority vault call vault' event)
    (pending : vault'.promotion.readyAt ≠ 0) :
    (∃ candidate nonce schemaVersion candidateSig,
      call = .proposePromotion call.vaultId candidate nonce schemaVersion candidateSig ∧
        vault'.promotion = ⟨candidate, UInt64.ofNat context.timestamp + promotionDelay⟩ ∧
        vault'.devices candidate = true ∧
        machine.recover (hashPromote machine call.vaultId candidate nonce schemaVersion)
          candidateSig = candidate) ∨
    (vault'.promotion = vault.promotion ∧
      (∀ schemaVersion, call ≠ .cancelPromotion call.vaultId schemaVersion) ∧
      ((∀ nonce schemaVersion authoritySig, call ≠
          .addDevice call.vaultId vault.promotion.candidate nonce schemaVersion authoritySig) →
        vault'.devices vault.promotion.candidate = true →
          vault.devices vault.promotion.candidate = true)) := by
  cases effect with
  | bootstrapped target firstSigner schemaVersion signature unknown =>
      exact absurd rfl ((inv.unborn unknown).2.2 ▸ pending)
  | published =>
      right
      refine ⟨rfl, ?_, fun _ => id⟩
      intro schemaVersion equal
      cases equal
  | added target newSigner nonce schemaVersion authoritySig =>
      right
      refine ⟨rfl, ?_, ?_⟩
      · intro schemaVersion equal
        cases equal
      · intro another listed
        have apart : vault.promotion.candidate ≠ newSigner := by
          rintro rfl
          exact another nonce schemaVersion authoritySig rfl
        simpa only [Function.update_of_ne apart] using listed
  | removed target signer nonce schemaVersion authoritySig =>
      right
      refine ⟨rfl, ?_, ?_⟩
      · intro schemaVersion equal
        cases equal
      · intro _ listed
        by_cases same : vault.promotion.candidate = signer
        · simp [same] at listed
        · simpa only [Function.update_of_ne same] using listed
  | proposed target candidate nonce schemaVersion candidateSig _ _ _ listed signed =>
      exact .inl ⟨candidate, nonce, schemaVersion, candidateSig, rfl, rfl, listed, signed⟩
  | finalized => exact absurd rfl pending
  | canceled => exact absurd rfl pending

theorem after_append : after machine (txs ++ [tx]) =
    Journal.submit (execute machine) (after machine txs) tx := by
  rw [after, Journal.run_append, Journal.run_singleton]

/-- One more transaction: a promotion that is pending afterwards is accounted for. -/
theorem Proposed.step {result : Storage × Event}
    (known : ((after machine txs).pendingPromotion vaultId).readyAt ≠ 0 →
      ∃ before proposal window, Proposed machine vaultId txs before proposal window)
    (kept : ¬ ReAdds machine (after machine txs) tx)
    (clock : tx.context.timestamp + promotionDelay.toNat < 2 ^ 64)
    (done : execute machine (after machine txs) tx = .ok result)
    (pending : ((after machine (txs ++ [tx])).pendingPromotion vaultId).readyAt ≠ 0) :
    ∃ before proposal window, Proposed machine vaultId (txs ++ [tx]) before proposal window := by
  obtain ⟨storage', event⟩ := result
  have executed := execute_executed done
  have reached : after machine (txs ++ [tx]) = storage' := by
    rw [after_append, Journal.submit_of_ok done]
  by_cases own : vaultId = tx.call.vaultId
  · subst own
    have inv := (logInv machine txs).devices tx.call.vaultId
    rw [reached] at pending
    rcases executed.effect.pending inv pending with
      ⟨candidate, nonce, schemaVersion, candidateSig, call, promotion, listed, signed⟩ |
        ⟨same, uncanceled, back⟩
    · -- the proposal itself
      have promotion : (after machine (txs ++ [tx])).pendingPromotion tx.call.vaultId =
          ⟨candidate, UInt64.ofNat tx.context.timestamp + promotionDelay⟩ := by
        rw [reached]
        exact promotion
      refine ⟨txs, tx, [], rfl, ?_, ?_, ?_, ?_⟩
      · rw [promotion]
        exact ⟨nonce, schemaVersion, candidateSig, _, call, done, signed⟩
      · rw [promotion, UInt64.toNat_add, UInt64.toNat_ofNat',
          Nat.mod_eq_of_lt (by omega : tx.context.timestamp < 2 ^ 64), Nat.mod_eq_of_lt clock]
      · intro first cancel last schemaVersion split
        simp at split
      · rw [promotion]
        intro _ part short
        obtain rfl := List.prefix_nil.mp short
        rw [reached]
        exact listed
    · have same : (after machine (txs ++ [tx])).pendingPromotion tx.call.vaultId =
          (after machine txs).pendingPromotion tx.call.vaultId := by
        rw [reached]
        exact same
      rw [← reached, same] at pending
      obtain ⟨before, proposal, window, proposed⟩ := known pending
      refine ⟨before, proposal, window ++ [tx], proposed.extend same ?_ ?_⟩
      · intro schemaVersion call
        exact absurd call (uncanceled schemaVersion)
      · rw [reached]
        apply back
        intro nonce schemaVersion authoritySig call
        exact kept ⟨⟨_, done⟩, _, nonce, schemaVersion, authoritySig, call, pending⟩
  · have frame : (after machine (txs ++ [tx])).vault vaultId =
        (after machine txs).vault vaultId := by
      rw [reached]
      exact executed.frame vaultId own
    have same : (after machine (txs ++ [tx])).pendingPromotion vaultId =
        (after machine txs).pendingPromotion vaultId := congrArg Vault.promotion frame
    have devices : (after machine (txs ++ [tx])).authorizedDevice vaultId =
        (after machine txs).authorizedDevice vaultId := congrArg Vault.devices frame
    rw [same] at pending
    obtain ⟨before, proposal, window, proposed⟩ := known pending
    refine ⟨before, proposal, window ++ [tx], proposed.extend same ?_ ?_⟩
    · intro schemaVersion call
      rw [call] at own
      exact absurd rfl own
    · rw [devices]
      exact id

/-- In a run that never brings a removed candidate back, every pending promotion is
accounted for. -/
theorem proposed_of_pending
    (kept : Allowed (Journal.submit (execute machine))
      (fun storage tx => ¬ ReAdds machine storage tx) .empty txs)
    (clock : ∀ tx ∈ txs, tx.context.timestamp + promotionDelay.toNat < 2 ^ 64)
    (pending : ((after machine txs).pendingPromotion vaultId).readyAt ≠ 0) :
    ∃ before proposal window, Proposed machine vaultId txs before proposal window := by
  induction txs using List.reverseRecOn with
  | nil => exact absurd rfl pending
  | append_singleton txs tx ih =>
      obtain ⟨earlier, last⟩ := (allowed_append txs [tx]).mp kept
      have known := ih earlier fun other member => clock other (List.mem_append_left _ member)
      cases outcome : execute machine (after machine txs) tx with
      | ok result =>
          exact Proposed.step known last.1
            (clock tx (List.mem_append_right _ (List.mem_singleton_self tx))) outcome pending
      | error revert =>
          have same : after machine (txs ++ [tx]) = after machine txs := by
            rw [after_append, Journal.submit_of_error outcome]
          rw [same] at pending
          obtain ⟨before, proposal, window, proposed⟩ := known pending
          refine ⟨before, proposal, window ++ [tx], proposed.extend (by rw [same]) ?_ ?_⟩
          · intro schemaVersion _
            exact ⟨revert, outcome⟩
          · rw [same]
            exact id

/-- An accepted removal leaves the device out. -/
theorem Effect.removed_unlisted {context : Context} {authority : Address} {vault vault' : Vault}
    {event : Event} {target : Bytes32} {signer : Address} {nonce : UInt64} {schemaVersion : UInt16}
    {authoritySig : Bytes}
    (effect : Effect machine context authority vault
      (.removeDevice target signer nonce schemaVersion authoritySig) vault' event) :
    vault'.devices signer = false := by
  cases effect with
  | removed => simp

/-- A finalized promotion was pending, for the device it promotes, long enough. -/
theorem Effect.finalized_pending {context : Context} {authority : Address}
    {vault vault' : Vault} {call : Call} {oldManager candidate : Address}
    {schemaVersion : UInt16}
    (effect : Effect machine context authority vault call vault'
      (.promotionFinalized vaultId oldManager candidate schemaVersion)) :
    call.vaultId = vaultId ∧ vault.promotion.candidate = candidate ∧
      vault.promotion.readyAt ≠ 0 ∧ vault.promotion.readyAt.toNat ≤ context.timestamp ∧
      vault.devices candidate = true := by
  cases effect with
  | finalized _ _ pending elapsed listed => exact ⟨rfl, rfl, pending, elapsed, listed⟩

end

/-- In every run that never adds the removed candidate of a pending promotion again, a
finalized promotion is backed by its proposal and by everything since. -/
theorem promotion_lifecycle {machine : Machine} {txs : List Transaction}
    (kept : Allowed (Journal.submit (execute machine))
      (fun storage tx => ¬ ReAdds machine storage tx) .empty txs)
    (clock : ∀ tx ∈ txs, tx.context.timestamp + promotionDelay.toNat < 2 ^ 64)
    (tx : Transaction) {storage' : Storage} {vaultId : Bytes32} {oldManager candidate : Address}
    {schemaVersion : UInt16}
    (done : execute machine (after machine txs) tx =
      .ok (storage', .promotionFinalized vaultId oldManager candidate schemaVersion)) :
    PromotionBacked machine txs vaultId candidate tx.context.timestamp := by
  obtain ⟨target, promoted, pending, elapsed, listed⟩ :=
    (execute_executed done).effect.finalized_pending
  rw [target] at promoted pending elapsed listed
  have promoted : ((after machine txs).pendingPromotion vaultId).candidate = candidate := promoted
  obtain ⟨before, proposal, window, proposed⟩ := proposed_of_pending kept clock pending
  obtain ⟨nonce, version, candidateSig, result, call, accepted, signed⟩ := proposed.signed
  have always := proposed.listed
  rw [promoted] at call signed always
  have always := always listed
  refine ⟨before, proposal, window, nonce, version, candidateSig, result, proposed.split, call,
    accepted, signed, ?_, proposed.uncanceled, ?_, always⟩
  · rw [proposed.ready]
    exact elapsed
  · intro first removal last removalNonce removalVersion authoritySig split removes
    cases outcome : execute machine (after machine (before ++ proposal :: first)) removal with
    | error revert => exact ⟨revert, rfl⟩
    | ok result =>
        -- an accepted removal would show at the moment after it
        exfalso
        have effect := (execute_executed outcome).effect
        rw [removes] at effect
        have reached : after machine (before ++ proposal :: (first ++ [removal])) = result.1 := by
          rw [← List.cons_append, ← List.append_assoc, after_append, Journal.submit_of_ok outcome]
        have short : first ++ [removal] <+: window := ⟨last, by simp [split]⟩
        have member := always _ short
        rw [reached] at member
        have out : result.1.authorizedDevice vaultId candidate = false := effect.removed_unlisted
        rw [out] at member
        cases member

namespace Sample

/-- A machine whose signatures are the signer's address in the first word. -/
def signingMachine : Machine := { machine with ecrecover := fun _ _ r _ => r.setWidth 160 }

def sign (signer : Address) : Bytes := abiWord signer.toNat ++ abiWord 0 ++ [27]

def minedAt (timestamp : Nat) (call : Call) : Transaction := ⟨⟨device, timestamp⟩, 0, call⟩

/-- A vault with two devices whose second proposes itself at time 10. -/
def proposal : List Transaction :=
  [minedAt 0 (.bootstrapVault vaultId device 1 (sign device)),
    minedAt 0 (.addDevice vaultId 2 1 1 (sign device)),
    minedAt 10 (.proposePromotion vaultId 2 2 1 (sign 2))]

/-- The manager removes the candidate and adds it again. -/
def returned : List Transaction :=
  proposal ++ [minedAt 20 (.removeDevice vaultId 2 3 1 (sign device)),
    minedAt 30 (.addDevice vaultId 2 4 1 (sign device))]

def finalize : Transaction := minedAt 172810 (.finalizePromotion vaultId 1)

end Sample

/-- Two days after its proposal the second device is promoted. -/
theorem promotion_lifecycle_two_devices :
    PromotionBacked Sample.signingMachine Sample.proposal Sample.vaultId 2 172810 := by
  have kept : Allowed (Journal.submit (execute Sample.signingMachine))
      (fun storage tx => ¬ ReAdds Sample.signingMachine storage tx) .empty Sample.proposal := by
    refine ⟨?_, ?_, ?_, trivial⟩
    · rintro ⟨-, _, _, _, _, call, -⟩
      cases call
    · rintro ⟨-, _, _, _, _, call, -⟩
      cases call
    · rintro ⟨-, _, _, _, _, call, -⟩
      cases call
  have done : ∃ storage', execute Sample.signingMachine
      (after Sample.signingMachine Sample.proposal) Sample.finalize =
        .ok (storage', .promotionFinalized Sample.vaultId Sample.device 2 1) := ⟨_, rfl⟩
  obtain ⟨storage', done⟩ := done
  exact promotion_lifecycle kept (by decide) Sample.finalize done

/-- A candidate that was removed and added again is promoted all the same. -/
theorem removed_candidate_promoted :
    (∃ storage', execute Sample.signingMachine (after Sample.signingMachine Sample.returned)
      Sample.finalize =
        .ok (storage', .promotionFinalized Sample.vaultId Sample.device 2 1)) ∧
    ¬ PromotionBacked Sample.signingMachine Sample.returned Sample.vaultId 2 172810 := by
  refine ⟨⟨_, rfl⟩, ?_⟩
  rintro ⟨before, proposal, window, nonce, schemaVersion, candidateSig, result, split, call, -, -,
    -, -, -, always⟩
  -- only the third transaction is a proposal
  obtain _ | ⟨first, _ | ⟨second, _ | ⟨third, _ | ⟨fourth, _ | ⟨fifth, rest⟩⟩⟩⟩⟩ := before
  · cases split
    cases call
  · cases split
    cases call
  · cases split
    have removed := always [Sample.minedAt 20 (.removeDevice Sample.vaultId 2 3 1
      (Sample.sign Sample.device))] ⟨_, rfl⟩
    cases removed
  · cases split
    cases call
  · cases split
    cases call
  · simp [Sample.returned, Sample.proposal] at split

end Pangolin.RevisionLogV2
