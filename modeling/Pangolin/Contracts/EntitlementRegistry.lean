import Pangolin.Contracts.Evm
import Pangolin.Lib.Fallible
import Pangolin.Lib.Journal

/-!
# EntitlementRegistry

A ledger of paid credits.  A payment authority signs what is added to a user's balance, a
redemption authority what is taken off; both kinds of attestation consume one nonce per
user.
-/

namespace Pangolin.EntitlementRegistry

open Evm

/-- The immutables of a deployment; the constructor rejects a zero authority. -/
structure Deployment where
  machine : Machine
  paymentAuthority : Address
  redemptionAuthority : Address
  payment_ne_zero : paymentAuthority ≠ 0
  redemption_ne_zero : redemptionAuthority ≠ 0

structure Storage where
  balance : Bytes32 → BitVec 256
  nonce : Bytes32 → UInt64

/-- The storage of a new deployment: every slot zero. -/
def Storage.empty : Storage := ⟨fun _ => 0, fun _ => 0⟩

/-- The fields both attestations sign. -/
structure Attestation where
  userId : Bytes32
  amount : BitVec 256
  nonce : UInt64
  schemaVersion : UInt16
  expiresAt : UInt64
  deriving Repr, DecidableEq

inductive Event where
  | credited (userId : Bytes32) (amount newBalance : BitVec 256) (nonce : UInt64)
      (schemaVersion : UInt16)
  | redeemed (userId : Bytes32) (amount newBalance : BitVec 256) (nonce : UInt64)
      (schemaVersion : UInt16)
  deriving Repr, DecidableEq

inductive Revert where
  | unsupportedSchemaVersion
  | attestationExpired
  | invalidSignature
  | unauthorizedSigner
  | nonceTooLow
  | insufficientBalance
  /-- `Panic(0x11)` of the checked arithmetic. -/
  | arithmeticPanic
  deriving Repr, DecidableEq

def maxKnownSchemaVersion : UInt16 := 1

/-- The digest of an attestation under the struct type `structType`. -/
def hashAttestation (machine : Machine) (structType : String) (attestation : Attestation) :
    Bytes32 :=
  let structHash := machine.keccak256 (abiEncode [
    (machine.keccakString structType).toNat, attestation.userId.toNat, attestation.amount.toNat,
    attestation.nonce.toNat, attestation.schemaVersion.toNat, attestation.expiresAt.toNat])
  machine.typedDataHash (machine.domainSeparator "Pangolin EntitlementRegistry" "1") structHash

/-- `_hashCredit`. -/
def hashCredit (machine : Machine) : Attestation → Bytes32 :=
  hashAttestation machine
    "Credit(bytes32 userId,uint256 amount,uint64 nonce,uint16 schemaVersion,uint64 expiresAt)"

/-- `_hashRedemption`. -/
def hashRedemption (machine : Machine) : Attestation → Bytes32 :=
  hashAttestation machine <|
    "Redemption(bytes32 userId,uint256 amount,uint64 nonce,uint16 schemaVersion," ++
      "uint64 expiresAt)"

/-- The checks both entry points make before they touch the storage. -/
def checkAttestation (machine : Machine) (context : Context) (storage : Storage)
    (authority : Address) (digest : Bytes32) (attestation : Attestation) (signature : Bytes) :
    Except Revert Unit :=
  if maxKnownSchemaVersion < attestation.schemaVersion then
    .error .unsupportedSchemaVersion
  else if attestation.expiresAt.toNat < context.timestamp then
    .error .attestationExpired
  else
    let signer := machine.recover digest signature
    if signer = 0 then
      .error .invalidSignature
    else if signer ≠ authority then
      .error .unauthorizedSigner
    else if attestation.nonce ≠ storage.nonce attestation.userId then
      .error .nonceTooLow
    else
      .ok ()

/-- Checked `uint256` addition. -/
def checkedAdd (left right : BitVec 256) : Except Revert (BitVec 256) :=
  if left.toNat + right.toNat < 2 ^ 256 then .ok (left + right) else .error .arithmeticPanic

/-- Checked `uint256` subtraction. -/
def checkedSub (left right : BitVec 256) : Except Revert (BitVec 256) :=
  if right.toNat ≤ left.toNat then .ok (left - right) else .error .arithmeticPanic

def Storage.setNonce (storage : Storage) (userId : Bytes32) (nonce : UInt64) : Storage :=
  { storage with nonce := Function.update storage.nonce userId nonce }

def Storage.setBalance (storage : Storage) (userId : Bytes32) (balance : BitVec 256) : Storage :=
  { storage with balance := Function.update storage.balance userId balance }

@[simp] theorem Storage.setNonce_balance (storage : Storage) (userId : Bytes32) (nonce : UInt64) :
    (storage.setNonce userId nonce).balance = storage.balance := rfl

@[simp] theorem Storage.setBalance_nonce (storage : Storage) (userId : Bytes32)
    (balance : BitVec 256) : (storage.setBalance userId balance).nonce = storage.nonce := rfl

def credit (deployment : Deployment) (context : Context) (storage : Storage)
    (attestation : Attestation) (signature : Bytes) : Except Revert (Storage × Event) := do
  checkAttestation deployment.machine context storage deployment.paymentAuthority
    (hashCredit deployment.machine attestation) attestation signature
  -- the nonce is written, unchecked, before the addition that can still revert
  let storage := storage.setNonce attestation.userId (attestation.nonce + 1)
  let newBalance ← checkedAdd (storage.balance attestation.userId) attestation.amount
  return (storage.setBalance attestation.userId newBalance,
    .credited attestation.userId attestation.amount newBalance attestation.nonce
      attestation.schemaVersion)

def redeem (deployment : Deployment) (context : Context) (storage : Storage)
    (attestation : Attestation) (signature : Bytes) : Except Revert (Storage × Event) := do
  checkAttestation deployment.machine context storage deployment.redemptionAuthority
    (hashRedemption deployment.machine attestation) attestation signature
  let oldBalance := storage.balance attestation.userId
  if oldBalance.toNat < attestation.amount.toNat then
    .error .insufficientBalance
  else
    let storage := storage.setNonce attestation.userId (attestation.nonce + 1)
    let newBalance ← checkedSub oldBalance attestation.amount
    return (storage.setBalance attestation.userId newBalance,
      .redeemed attestation.userId attestation.amount newBalance attestation.nonce
        attestation.schemaVersion)

/-! ## Transactions -/

/-- The signed message: the struct type tells credits and redemptions apart. -/
inductive Message where
  | credit (attestation : Attestation)
  | redemption (attestation : Attestation)
  deriving Repr, DecidableEq

def Message.attestation : Message → Attestation
  | credit attestation => attestation
  | redemption attestation => attestation

def Message.digest (machine : Machine) : Message → Bytes32
  | credit attestation => hashCredit machine attestation
  | redemption attestation => hashRedemption machine attestation

/-- Who has to sign a message. -/
def Message.authority (deployment : Deployment) : Message → Address
  | credit _ => deployment.paymentAuthority
  | redemption _ => deployment.redemptionAuthority

/-- A call carries a message as its arguments and a signature: a credit message calls
`credit`, a redemption message `redeem`. -/
structure Transaction where
  context : Context
  message : Message
  signature : Bytes
  deriving Repr, DecidableEq

def execute (deployment : Deployment) (storage : Storage) (tx : Transaction) :
    Except Revert (Storage × Event) :=
  match tx.message with
  | .credit attestation => credit deployment tx.context storage attestation tx.signature
  | .redemption attestation => redeem deployment tx.context storage attestation tx.signature

/-! ## What an accepted transaction does -/

section

variable {deployment : Deployment} {storage storage' : Storage} {tx : Transaction} {event : Event}

theorem checkAttestation_ok {machine : Machine} {context : Context} {authority : Address}
    {digest : Bytes32} {attestation : Attestation} {signature : Bytes}
    (checked : checkAttestation machine context storage authority digest attestation signature =
      .ok ()) :
    machine.recover digest signature = authority ∧
      attestation.nonce = storage.nonce attestation.userId := by
  simp only [checkAttestation] at checked
  split_ifs at checked with _ _ _ signer nonce
  exact ⟨not_not.mp signer, not_not.mp nonce⟩

theorem checkedAdd_ok {left right result : BitVec 256}
    (added : checkedAdd left right = .ok result) :
    left.toNat + right.toNat < 2 ^ 256 ∧ result = left + right := by
  unfold checkedAdd at added
  split at added
  · next fits =>
      cases added
      exact ⟨fits, rfl⟩
  · cases added

theorem checkedSub_ok {left right result : BitVec 256}
    (subtracted : checkedSub left right = .ok result) :
    right.toNat ≤ left.toNat ∧ result = left - right := by
  unfold checkedSub at subtracted
  split at subtracted
  · next enough =>
      cases subtracted
      exact ⟨enough, rfl⟩
  · cases subtracted

/-- The balance after a message. -/
def Message.settle (balance : BitVec 256) : Message → BitVec 256
  | credit attestation => balance + attestation.amount
  | redemption attestation => balance - attestation.amount

/-- The message leaves the balance within `uint256`. -/
def Message.Covered (balance : BitVec 256) : Message → Prop
  | credit attestation => balance.toNat + attestation.amount.toNat < 2 ^ 256
  | redemption attestation => attestation.amount.toNat ≤ balance.toNat

/-- What an accepted transaction passed and wrote. -/
structure Settles (deployment : Deployment) (storage : Storage) (tx : Transaction)
    (storage' : Storage) : Prop where
  signed : deployment.machine.recover (tx.message.digest deployment.machine) tx.signature =
    tx.message.authority deployment
  current : tx.message.attestation.nonce = storage.nonce tx.message.attestation.userId
  covered : tx.message.Covered (storage.balance tx.message.attestation.userId)
  written : storage' =
    (storage.setNonce tx.message.attestation.userId (tx.message.attestation.nonce + 1)).setBalance
      tx.message.attestation.userId
      (tx.message.settle (storage.balance tx.message.attestation.userId))

theorem execute_settles (done : execute deployment storage tx = .ok (storage', event)) :
    Settles deployment storage tx storage' := by
  obtain ⟨context, message, signature⟩ := tx
  cases message with
  | credit attestation =>
      simp only [execute, credit] at done
      obtain ⟨_, checked, rest⟩ := Fallible.bind_eq_ok_iff.mp done
      obtain ⟨newBalance, added, result⟩ := Fallible.bind_eq_ok_iff.mp rest
      obtain ⟨signed, current⟩ := checkAttestation_ok checked
      obtain ⟨fits, rfl⟩ := checkedAdd_ok added
      cases result
      exact ⟨signed, current, fits, rfl⟩
  | redemption attestation =>
      simp only [execute, redeem] at done
      obtain ⟨_, checked, rest⟩ := Fallible.bind_eq_ok_iff.mp done
      obtain ⟨signed, current⟩ := checkAttestation_ok checked
      split_ifs at rest with short
      obtain ⟨newBalance, subtracted, result⟩ := Fallible.bind_eq_ok_iff.mp rest
      obtain ⟨enough, rfl⟩ := checkedSub_ok subtracted
      cases result
      exact ⟨signed, current, enough, rfl⟩

end

/-! ## The ledger of a run -/

/-- What the accepted credits of a user add up to. -/
def credited (userId : Bytes32) (history : List (Transaction × Event)) : Nat :=
  (history.map fun entry =>
    match entry.1.message with
    | .credit attestation => if attestation.userId = userId then attestation.amount.toNat else 0
    | .redemption _ => 0).sum

/-- What the accepted redemptions of a user add up to. -/
def redeemed (userId : Bytes32) (history : List (Transaction × Event)) : Nat :=
  (history.map fun entry =>
    match entry.1.message with
    | .credit _ => 0
    | .redemption attestation =>
        if attestation.userId = userId then attestation.amount.toNat else 0).sum

/-- The messages accepted for a user, oldest first. -/
def messages (userId : Bytes32) (history : List (Transaction × Event)) : List Message :=
  (history.map fun entry => entry.1.message).filter fun message =>
    message.attestation.userId = userId

/-- The entry's signature recovers to the authority for its message. -/
def Signed (deployment : Deployment) (entry : Transaction × Event) : Prop :=
  deployment.machine.recover (entry.1.message.digest deployment.machine) entry.1.signature =
    entry.1.message.authority deployment

/-- The storage agrees with the journal. -/
structure LedgerInv (deployment : Deployment) (storage : Storage)
    (history : List (Transaction × Event)) : Prop where
  balance : ∀ userId, (storage.balance userId).toNat + redeemed userId history =
    credited userId history
  nonce : ∀ userId, storage.nonce userId = UInt64.ofNat (messages userId history).length
  nonces : ∀ userId, (messages userId history).map (fun message => message.attestation.nonce) =
    (List.range (messages userId history).length).map UInt64.ofNat
  signed : ∀ entry ∈ history, Signed deployment entry

section

variable {deployment : Deployment} {storage storage' : Storage} {tx : Transaction} {event : Event}
variable {history : List (Transaction × Event)} {userId : Bytes32}

theorem messages_append :
    messages userId (history ++ [(tx, event)]) =
      messages userId history ++
        if tx.message.attestation.userId = userId then [tx.message] else [] := by
  unfold messages
  rw [List.map_append, List.filter_append]
  by_cases same : tx.message.attestation.userId = userId
  · simp [same]
  · simp [same]

theorem credited_append :
    credited userId (history ++ [(tx, event)]) =
      credited userId history + credited userId [(tx, event)] := by
  simp only [credited, List.map_append, List.sum_append]

theorem redeemed_append :
    redeemed userId (history ++ [(tx, event)]) =
      redeemed userId history + redeemed userId [(tx, event)] := by
  simp only [redeemed, List.map_append, List.sum_append]

/-- One entry moves the balance by what it adds to the two sums. -/
theorem Settles.balance (settles : Settles deployment storage tx storage') (userId : Bytes32)
    (event : Event) :
    (storage'.balance userId).toNat + redeemed userId [(tx, event)] =
      (storage.balance userId).toNat + credited userId [(tx, event)] := by
  obtain ⟨context, message, signature⟩ := tx
  rw [settles.written]
  have covered := settles.covered
  cases message with
  | credit attestation =>
      by_cases same : attestation.userId = userId
      · subst same
        simp only [Message.Covered, Message.attestation] at covered
        have sum : (storage.balance attestation.userId + attestation.amount).toNat =
            (storage.balance attestation.userId).toNat + attestation.amount.toNat := by
          rw [BitVec.toNat_add]
          exact Nat.mod_eq_of_lt covered
        simp [-BitVec.toNat_add, Storage.setBalance, credited, redeemed, Message.attestation,
          Message.settle, sum]
      · have apart : userId ≠ attestation.userId := fun equal => same equal.symm
        simp [Storage.setBalance, credited, redeemed, Message.attestation, same,
          Function.update_of_ne apart]
  | redemption attestation =>
      by_cases same : attestation.userId = userId
      · subst same
        simp only [Message.Covered, Message.attestation] at covered
        have exact : (storage.balance attestation.userId - attestation.amount).toNat =
            (storage.balance attestation.userId).toNat - attestation.amount.toNat :=
          BitVec.toNat_sub_of_le covered
        simp only [Storage.setBalance, credited, redeemed, Message.attestation, Message.settle,
          Function.update_self, exact, List.map_cons, List.map_nil, List.sum_cons, List.sum_nil,
          if_true]
        omega
      · have apart : userId ≠ attestation.userId := fun equal => same equal.symm
        simp [Storage.setBalance, credited, redeemed, Message.attestation, same,
          Function.update_of_ne apart]

theorem LedgerInv.accept (inv : LedgerInv deployment storage history)
    (settles : Settles deployment storage tx storage') :
    LedgerInv deployment storage' (history ++ [(tx, event)]) := by
  constructor
  · intro userId
    have moved := settles.balance userId event
    have before := inv.balance userId
    rw [redeemed_append, credited_append]
    omega
  · intro userId
    rw [messages_append, settles.written]
    by_cases same : tx.message.attestation.userId = userId
    · subst same
      rw [if_pos rfl, List.length_append]
      simp [Storage.setBalance, Storage.setNonce, settles.current, inv.nonce]
    · have apart : userId ≠ tx.message.attestation.userId := fun equal => same equal.symm
      rw [if_neg same, List.append_nil]
      simp [Storage.setBalance, Storage.setNonce, Function.update_of_ne apart, inv.nonce]
  · intro userId
    rw [messages_append]
    by_cases same : tx.message.attestation.userId = userId
    · subst same
      rw [if_pos rfl, List.map_append, List.length_append, inv.nonces]
      simp [List.range_succ, settles.current, inv.nonce]
    · rw [if_neg same, List.append_nil]
      exact inv.nonces userId
  · intro entry member
    rcases List.mem_append.mp member with old | new
    · exact inv.signed entry old
    · obtain rfl := List.mem_singleton.mp new
      exact settles.signed

theorem LedgerInv.empty (deployment : Deployment) : LedgerInv deployment .empty [] := by
  constructor
  · intro userId
    rfl
  · intro userId
    rfl
  · intro userId
    rfl
  · intro entry member
    cases member

/-- The storage agrees with the journal after every run. -/
theorem ledgerInv (deployment : Deployment) (txs : List Transaction) :
    LedgerInv deployment (Journal.run (execute deployment) .empty txs)
      (Journal.accepted (execute deployment) .empty txs) := by
  apply Journal.run_invariant (LedgerInv deployment)
  · exact .empty deployment
  · intro storage history tx storage' event inv done
    exact inv.accept (execute_settles done)

end

/-- After every run and for every user, the balance is what was credited less what was
redeemed, and never was less; the nonce counts the accepted calls, no message was accepted
twice, every accepted call carries the right authority's signature over its arguments, and
a call that reverts changes nothing. -/
theorem ledger_balances (deployment : Deployment) (txs : List Transaction) (userId : Bytes32) :
    let storage := Journal.run (execute deployment) .empty txs
    let history := Journal.accepted (execute deployment) .empty txs
    let calls := (messages userId history).length
    (storage.balance userId).toNat = credited userId history - redeemed userId history ∧
      credited userId history - redeemed userId history < 2 ^ 256 ∧
      (∀ part, part <+: txs →
        redeemed userId (Journal.accepted (execute deployment) .empty part) ≤
          credited userId (Journal.accepted (execute deployment) .empty part)) ∧
      (calls < 2 ^ 64 → (storage.nonce userId).toNat = calls) ∧
      (calls ≤ 2 ^ 64 → (messages userId history).Nodup) ∧
      (∀ tx event, (tx, event) ∈ history → ∀ attestation,
        (tx.message = .credit attestation →
          deployment.machine.recover (hashCredit deployment.machine attestation) tx.signature =
            deployment.paymentAuthority) ∧
        (tx.message = .redemption attestation →
          deployment.machine.recover (hashRedemption deployment.machine attestation)
            tx.signature = deployment.redemptionAuthority)) ∧
      ∀ tx revert, execute deployment storage tx = .error revert →
        Journal.submit (execute deployment) storage tx = storage := by
  intro storage history calls
  have inv : LedgerInv deployment storage history := ledgerInv deployment txs
  have balance := inv.balance userId
  refine ⟨by omega, ?_, ?_, ?_, ?_, ?_, ?_⟩
  · have word := (storage.balance userId).isLt
    omega
  · intro part _
    have earlier := (ledgerInv deployment part).balance userId
    omega
  · intro below
    rw [inv.nonce, UInt64.toNat_ofNat']
    exact Nat.mod_eq_of_lt below
  · exact nodup_of_nonces (inv.nonces userId)
  · intro tx event member attestation
    have signed := inv.signed (tx, event) member
    simp only [Signed] at signed
    constructor
    · intro isCredit
      rwa [isCredit] at signed
    · intro isRedemption
      rwa [isRedemption] at signed
  · intro tx revert failed
    exact Journal.submit_of_error failed

end Pangolin.EntitlementRegistry
