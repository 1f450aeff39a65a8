import Pangolin.Contracts.EntitlementRegistry
import Pangolin.Funder.Ledger
import Pangolin.Lib.Reaches
import Pangolin.Lib.Tasks

/-!
# The funder

A request carries a credit the payment authority has signed.  The handler writes a row for
it, takes the amount off the user's balance at the registry and sends as much ether to the
device.  After a restart a task is started for every row that was left on the way.  Requests
and tasks run side by side; the process may stop between any two calls.
-/

namespace Pangolin.Funder

open Evm EntitlementRegistry Tasks Transition

/-! ## Requests -/

structure Credit where
  attestation : Attestation
  signature : Bytes
  deriving Repr, DecidableEq

/-- `Credit::attestation_hash`. -/
def Credit.attestationHash (machine : Machine) (credit : Credit) : Bytes32 :=
  machine.keccak256 (bigEndian 32 credit.attestation.userId.toNat ++
    bigEndian 32 credit.attestation.amount.toNat ++ bigEndian 8 credit.attestation.nonce.toNat ++
    bigEndian 2 credit.attestation.schemaVersion.toNat ++
    bigEndian 8 credit.attestation.expiresAt.toNat ++ credit.signature)

structure TopUpRequest where
  credit : Credit
  deviceBindingSig : Bytes
  deviceAddress : Address
  deriving Repr, DecidableEq

structure TopUpResponse where
  redeemTxHash : Bytes32
  ethTransferTxHash : Option Bytes32
  ethTransferredWei : BitVec 256
  deriving Repr, DecidableEq

/-- The variants the funder tells apart. -/
inductive ChainError where
  | wrongChain
  | chainIdMismatch
  | deployment
  | rpc
  | rpcTransient
  | decode
  | reverted
  | revertedOnChain
  | revertedPreBroadcast
  | missingEvent
  | wallet
  | keystore
  | io
  | signatureInvalid
  | insufficientFunds
  | gasCapExceeded
  | nonceUnresolvable
  | receiptMismatch
  | other
  deriving Repr, DecidableEq

/-- The class tag of `FunderError::ChainSubmit`. -/
def ChainError.submitClass : ChainError → String
  | wrongChain | chainIdMismatch => "chain_id_mismatch"
  | deployment => "deployment_misconfigured"
  | rpc | rpcTransient => "rpc_transient"
  | decode => "decode_error"
  | reverted | revertedOnChain | revertedPreBroadcast => "contract_reverted"
  | missingEvent => "missing_event"
  | wallet => "wallet_error"
  | keystore => "keystore_error"
  | io => "io_error"
  | signatureInvalid => "signature_invalid"
  | insufficientFunds => "insufficient_funds"
  | gasCapExceeded => "gas_cap_exceeded"
  | nonceUnresolvable => "nonce_unresolvable"
  | receiptMismatch => "receipt_mismatch"
  | other => "chain_error_other"

/-- The class tag of `FunderError::EthTransferFailed`. -/
def ChainError.transferClass : ChainError → String
  | insufficientFunds => "insufficient_funds"
  | gasCapExceeded => "gas_cap_exceeded"
  | rpc | rpcTransient => "rpc_transient"
  | reverted | revertedOnChain | revertedPreBroadcast => "contract_reverted"
  | chainIdMismatch => "chain_id_mismatch"
  | receiptMismatch => "receipt_mismatch"
  | _ => "eth_transfer_other"

inductive FunderError where
  | rateLimited (retryAfterSeconds : UInt64)
  | creditSigInvalid
  | creditExpired
  | creditSchemaUnsupported
  | deviceBindingInvalid
  | alreadyRedeemed
  | chainSubmit (submitClass : String)
  | ethTransferCapExceeded (observedWei : BitVec 256) (capWei : BitVec 128)
  | ethTransferFailed (redeemTxHash : Bytes32) (transferClass : String)
  | ledger
  | configuration (message : String)
  deriving Repr, DecidableEq

inductive ChainEnv where
  | baseSepolia
  | baseMainnet
  | dev
  deriving Repr, DecidableEq

/-- The parts of `AppState` the flow reads, with the registry it is configured for. -/
structure AppState where
  /-- `payment_authority` is read from it at startup. -/
  deployment : Deployment
  chainEnv : ChainEnv
  /-- `ENTITLEMENT_DOMAIN_SEPARATOR_BASE_SEPOLIA_V1`. -/
  pinnedSeparator : Bytes32
  ethTransferPerTxCapWei : BitVec 128
  signRedemption : Attestation → Except ChainError Bytes
  /-- The signer holds its key in the process. -/
  localSigner : Bool
  /-- `recover_address_from_prehash` of `r`, `s` and the parity. -/
  recoverAddress : Bytes32 → Bytes32 → Bytes32 → Bool → Option Address

/-- Recovery from the 65 bytes `r || s || v`, with `v` 27 or 28. -/
def AppState.recover (state : AppState) (digest : Bytes32) (signature : Bytes) : Option Address :=
  let r := BitVec.ofNat 256 (ofBigEndian (signature.take 32))
  let s := BitVec.ofNat 256 (ofBigEndian ((signature.drop 32).take 32))
  let v := signature.getD 64 0
  if v ≠ 27 ∧ v ≠ 28 then none else state.recoverAddress digest r s (v == 28)

def isCanonicalS (signature : Bytes) : Bool :=
  decide (ofBigEndian ((signature.drop 32).take 32) ≤ lowSMax)

def verifyCreditSignature (state : AppState) (credit : Credit) : Bool :=
  let machine := state.deployment.machine
  decide (state.chainEnv = .baseSepolia) &&
    decide (machine.domainSeparator "Pangolin EntitlementRegistry" "1" = state.pinnedSeparator) &&
    isCanonicalS credit.signature &&
    decide (state.recover (hashCredit machine credit.attestation) credit.signature =
      some state.deployment.paymentAuthority)

def deviceBindingDigest (machine : Machine) (attestationHash : Bytes32)
    (deviceAddress : Address) : Bytes32 :=
  machine.keccak256 ("PangolinFunderDeviceBinding\x01v1\x01".toUTF8.data.toList ++
    bigEndian 32 attestationHash.toNat ++ bigEndian 20 deviceAddress.toNat)

def verifyDeviceBinding (state : AppState) (sig : Bytes) (attestationHash : Bytes32)
    (deviceAddress : Address) : Bool :=
  decide (state.recover (deviceBindingDigest state.deployment.machine attestationHash
    deviceAddress) sig = some deviceAddress)

/-- `clamp_eth_transfer_amount`. -/
def clampEthTransferAmount (creditAmount : BitVec 256) (capWei : BitVec 128) :
    Option (BitVec 256) :=
  if capWei.toNat < creditAmount.toNat then none else some creditAmount

/-! ## Calls -/

/-- Everything the flow asks of the outside. -/
inductive Call where
  | rateLimit (deviceAddress : Address)
  | now
  | tryInsert (attestationHash userId : Bytes32) (deviceAddress : Address)
      (creditAmount : BitVec 256)
  | updateRedemptionTxHash (attestationHash txHash : Bytes32)
  | transitionState (attestationHash : Bytes32) (newState : PaymentState)
  | markEthTransferSubmitted (attestationHash ethTransferTxHash : Bytes32)
      (ethTransferredWei : BitVec 256)
  | markEthTransferMined (attestationHash : Bytes32) (ethTransferBlock : UInt64)
  | submitRedemption (fields : Attestation) (signature : Bytes)
  | submitEthTransfer (toAddress : Address) (valueWei : BitVec 256)
  deriving Repr, DecidableEq

/-- The rate limiter answers with the seconds to wait, a ledger write with whether there was
a row, a submission with what the flow keeps of its anchor. -/
abbrev Answer : Call → Type
  | .rateLimit _ => Option UInt64
  | .now => UInt64
  | .tryInsert .. => Except String Bool
  | .updateRedemptionTxHash .. => Except String Bool
  | .transitionState .. => Except String Bool
  | .markEthTransferSubmitted .. => Except String Bool
  | .markEthTransferMined .. => Except String Bool
  | .submitRedemption .. => Except ChainError Bytes32
  | .submitEthTransfer .. => Except ChainError (Bytes32 × UInt64)

abbrev Flow := Program Call Answer

abbrev checkRateLimit (deviceAddress : Address) : Flow (Option UInt64) :=
  Program.perform (Call.rateLimit deviceAddress)

abbrev systemTime : Flow UInt64 := Program.perform Call.now

abbrev tryInsert (attestationHash userId : Bytes32) (deviceAddress : Address)
    (creditAmount : BitVec 256) : Flow (Except String Bool) :=
  Program.perform (Call.tryInsert attestationHash userId deviceAddress creditAmount)

abbrev updateRedemptionTxHash (attestationHash txHash : Bytes32) : Flow (Except String Bool) :=
  Program.perform (Call.updateRedemptionTxHash attestationHash txHash)

abbrev transitionState (attestationHash : Bytes32) (newState : PaymentState) :
    Flow (Except String Bool) :=
  Program.perform (Call.transitionState attestationHash newState)

abbrev markEthTransferSubmitted (attestationHash ethTransferTxHash : Bytes32)
    (ethTransferredWei : BitVec 256) : Flow (Except String Bool) :=
  Program.perform (Call.markEthTransferSubmitted attestationHash ethTransferTxHash ethTransferredWei)

abbrev markEthTransferMined (attestationHash : Bytes32) (ethTransferBlock : UInt64) :
    Flow (Except String Bool) :=
  Program.perform (Call.markEthTransferMined attestationHash ethTransferBlock)

abbrev submitRedemptionV1 (fields : Attestation) (signature : Bytes) :
    Flow (Except ChainError Bytes32) :=
  Program.perform (Call.submitRedemption fields signature)

abbrev submitEthTransferV1 (toAddress : Address) (valueWei : BitVec 256) :
    Flow (Except ChainError (Bytes32 × UInt64)) :=
  Program.perform (Call.submitEthTransfer toAddress valueWei)

/-! ## The handler -/

/-- Step 10: the transfer and its records. -/
def sendEth (attestationHash : Bytes32) (deviceAddress : Address) (ethAmount : BitVec 256)
    (redeemTxHash : Bytes32) : Flow (Except FunderError TopUpResponse) := do
  match ← submitEthTransferV1 deviceAddress ethAmount with
  | .error error => do
      -- whether the row could be marked is not looked at
      let _ ← transitionState attestationHash .ethTransferFailed
      return .error (.ethTransferFailed redeemTxHash error.transferClass)
  | .ok (ethTxHash, blockNumber) => do
      match ← markEthTransferSubmitted attestationHash ethTxHash ethAmount with
      | .error _ => return .error .ledger
      | .ok _ =>
          match ← markEthTransferMined attestationHash blockNumber with
          | .error _ => return .error .ledger
          | .ok _ => return .ok ⟨redeemTxHash, some ethTxHash, ethAmount⟩

/-- Steps 8 and 9: the redemption, signed with the fields of the credit, and its records. -/
def redeemCredit (state : AppState) (req : TopUpRequest) (ethAmount : BitVec 256) :
    Flow (Except FunderError TopUpResponse) := do
  let attestationHash := req.credit.attestationHash state.deployment.machine
  let fields := req.credit.attestation
  match state.signRedemption fields with
  | .error error => return .error (.chainSubmit error.submitClass)
  | .ok signature =>
      if state.localSigner = false then
        return .error (.configuration
          "this signer impl does not expose a local PrivateKeySigner; HSM path not wired in 3.4")
      else
        match ← submitRedemptionV1 fields signature with
        | .error error => return .error (.chainSubmit error.submitClass)
        | .ok redeemTxHash =>
            match ← updateRedemptionTxHash attestationHash redeemTxHash with
            | .error _ => return .error .ledger
            | .ok _ =>
                match ← transitionState attestationHash .redeemMined with
                | .error _ => return .error .ledger
                | .ok _ =>
                    sendEth attestationHash req.deviceAddress ethAmount redeemTxHash

/-- `POST /funder/v1/top-up`. -/
def handle (state : AppState) (req : TopUpRequest) : Flow (Except FunderError TopUpResponse) := do
  match ← checkRateLimit req.deviceAddress with
  | some retryAfterSeconds => return .error (.rateLimited retryAfterSeconds)
  | none =>
      if maxKnownSchemaVersion < req.credit.attestation.schemaVersion then
        return .error .creditSchemaUnsupported
      else
        let nowUnix ← systemTime
        if req.credit.attestation.expiresAt < nowUnix then
          return .error .creditExpired
        else if verifyCreditSignature state req.credit = false then
          return .error .creditSigInvalid
        else
          let attestationHash := req.credit.attestationHash state.deployment.machine
          if verifyDeviceBinding state req.deviceBindingSig attestationHash req.deviceAddress =
              false then
            return .error .deviceBindingInvalid
          else
            match clampEthTransferAmount req.credit.attestation.amount
                state.ethTransferPerTxCapWei with
            | none =>
                return .error (.ethTransferCapExceeded req.credit.attestation.amount
                  state.ethTransferPerTxCapWei)
            | some ethAmount =>
                match ← tryInsert attestationHash
                    req.credit.attestation.userId req.deviceAddress
                    req.credit.attestation.amount with
                | .error _ => return .error .ledger
                | .ok false => return .error .alreadyRedeemed
                | .ok true => redeemCredit state req ethAmount

/-! ## Resuming -/

/-- `redemption_fields_from_row`: the row has neither the nonce nor the expiry. -/
def redemptionFieldsFromRow (row : PaymentRow) : Attestation :=
  ⟨row.userId, row.creditAmount, 0, 1, 18446744073709551615⟩

def driveEthTransfer (state : AppState) (row : PaymentRow) : Flow (Except String Unit) := do
  if state.localSigner = false then
    return .error "local_signer_unavailable_on_hsm_signer"
  else
    match clampEthTransferAmount row.creditAmount state.ethTransferPerTxCapWei with
    | none => return .error "eth_transfer_cap_exceeded_in_resume"
    | some ethAmount =>
        match ← submitEthTransferV1 row.deviceAddress ethAmount with
        | .error _ => return .error "resume_eth_transfer_submit_failed"
        | .ok (txHash, blockNumber) =>
            match ← markEthTransferSubmitted row.attestationHash txHash ethAmount with
            | .error _ => return .error "ledger_mark_submitted_failed"
            | .ok _ =>
                match ← markEthTransferMined row.attestationHash blockNumber with
                | .error _ => return .error "ledger_mark_mined_failed"
                | .ok _ => return .ok ()

/-- A redemption that was answered goes on to the transfer; a revert is taken for an earlier
redemption that was mined. -/
def advanceToMined (state : AppState) (row : PaymentRow) : Flow (Except String Unit) := do
  match ← transitionState row.attestationHash .redeemMined with
  | .error _ => return .error "ledger_transition_failed"
  | .ok _ => driveEthTransfer state row

def driveToCompletion (state : AppState) (row : PaymentRow) : Flow (Except String Unit) := do
  if state.localSigner = false then
    return .error "local_signer_unavailable_on_hsm_signer"
  else
    match row.state with
    | .redeemSubmitted =>
        let fields := redemptionFieldsFromRow row
        match state.signRedemption fields with
        | .error _ => return .error "resume_sign_redemption_failed"
        | .ok signature =>
            match ← submitRedemptionV1 fields signature with
            | .ok _ => advanceToMined state row
            | .error .revertedOnChain => advanceToMined state row
            | .error .revertedPreBroadcast => advanceToMined state row
            | .error _ => return .error "resume_redeem_submit_failed"
    | .redeemMined => driveEthTransfer state row
    | .ethTransferSubmitted =>
        match ← transitionState row.attestationHash .ethTransferMined with
        | .error _ => return .error "ledger_transition_failed"
        | .ok _ => return .ok ()
    | _ => return .ok ()

/-- The body of the task `resume_in_flight` spawns for a row. -/
def resumeTask (state : AppState) (row : PaymentRow) : Flow Unit := do
  match ← driveToCompletion state row with
  | .ok () => return ()
  | .error _ =>
      let _ ← transitionState row.attestationHash .ethTransferFailed
      return ()

/-! ## The service and the chain -/

/-- What the funder's own transactions did, with the row each was sent for. -/
inductive Settled where
  | redeem (attestationHash : Bytes32) (fields : Attestation)
  | transfer (attestationHash : Bytes32) (toAddress : Address) (valueWei : BitVec 256)
  deriving Repr, DecidableEq

structure Shared where
  storage : Storage
  ledger : Ledger
  /-- Oldest first. -/
  settled : List Settled

/-- What the outside contributes to a call: the clock, the rate limiter, a failing ledger
write, and for a submission whether the transaction is mined, in which block, and,
independently of that, what the node answers. -/
structure Outcome where
  now : UInt64
  denied : Option UInt64
  ledgerError : Option String
  lands : Bool
  context : Context
  redemption : Except ChainError Bytes32
  transfer : Except ChainError (Bytes32 × UInt64)

/-- A ledger write that may fail. -/
def Shared.write (shared : Shared) (outcome : Outcome) (written : Ledger × Bool) :
    Shared × Except String Bool :=
  match outcome.ledgerError with
  | some message => (shared, .error message)
  | none => ({ shared with ledger := written.1 }, .ok written.2)

/-- A mined `redeem` call; a revert changes nothing. -/
def Shared.redeem (shared : Shared) (deployment : Deployment) (key : Bytes32) (context : Context)
    (fields : Attestation) (signature : Bytes) : Shared :=
  match EntitlementRegistry.redeem deployment context shared.storage fields signature with
  | .ok (storage, _) => { shared with storage, settled := shared.settled ++ [.redeem key fields] }
  | .error _ => shared

/-- One call made for the row of `key`. -/
def perform (state : AppState) (shared : Shared) (key : Bytes32) :
    (call : Call) → Outcome → Shared × Answer call
  | .rateLimit _, outcome => (shared, outcome.denied)
  | .now, outcome => (shared, outcome.now)
  | .tryInsert attestationHash userId deviceAddress creditAmount, outcome =>
      shared.write outcome
        (shared.ledger.tryInsert attestationHash userId deviceAddress creditAmount outcome.now)
  | .updateRedemptionTxHash attestationHash txHash, outcome =>
      shared.write outcome (shared.ledger.updateRedemptionTxHash attestationHash txHash)
  | .transitionState attestationHash newState, outcome =>
      shared.write outcome (shared.ledger.transitionState attestationHash newState)
  | .markEthTransferSubmitted attestationHash txHash wei, outcome =>
      shared.write outcome (shared.ledger.markEthTransferSubmitted attestationHash txHash wei)
  | .markEthTransferMined attestationHash block, outcome =>
      shared.write outcome (shared.ledger.markEthTransferMined attestationHash block)
  | .submitRedemption fields signature, outcome =>
      (if outcome.lands then shared.redeem state.deployment key outcome.context fields signature
        else shared, outcome.redemption)
  | .submitEthTransfer toAddress valueWei, outcome =>
      (if outcome.lands then
        { shared with settled := shared.settled ++ [.transfer key toAddress valueWei] }
        else shared, outcome.transfer)

structure World where
  shared : Shared
  pool : Pool Bytes32 Call Answer

inductive Action where
  /-- A request arrives and its handler starts. -/
  | post (id : Nat) (req : TopUpRequest)
  /-- A task makes its next call. -/
  | run (id : Nat) (outcome : Outcome)
  /-- The process stops and starts again. -/
  | restart
  /-- A transaction of somebody else. -/
  | transact (tx : Transaction)

def handlerTask (state : AppState) (req : TopUpRequest) : Task Bytes32 Call Answer :=
  ⟨req.credit.attestationHash state.deployment.machine, do
    let _ ← handle state req
    return ()⟩

/-- `resume_in_flight`: one task for each row the scan returns. -/
def resumeInFlight (state : AppState) (ledger : Ledger) : Pool Bytes32 Call Answer := fun id =>
  ledger.findResumableEntries[id]?.map fun row => ⟨row.attestationHash, resumeTask state row⟩

def step (state : AppState) (world : World) : Action → World
  | .post id req =>
      match world.pool id with
      | none => { world with pool := Function.update world.pool id (some (handlerTask state req)) }
      | some _ => world
  | .run id outcome =>
      let result := advance (perform state) world.shared world.pool id outcome
      ⟨result.1, result.2⟩
  | .restart => { world with pool := resumeInFlight state world.shared.ledger }
  | .transact tx =>
      { world with
        shared.storage := Journal.submit (execute state.deployment) world.shared.storage tx }

/-- An empty ledger and a registry in any state. -/
def World.start (storage : Storage) : World := ⟨⟨storage, [], []⟩, fun _ => none⟩

end Pangolin.Funder
