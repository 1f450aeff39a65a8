import Mathlib.Data.List.Infix
import Pangolin.Contracts.Evm

/-!
# Broadcasting a publication

A publication is one call of the revision log.  The client reads the account's pending
nonce, the fee and a gas estimate, sends the transaction, and starts over when the answer
looks like a nonce collision or a transient failure.  The node is not trusted: what it does
with a transaction and what it answers are independent of each other.  Only its pending
nonce is right, it counts what the node has accepted.
-/

namespace Pangolin.Chain

open Evm

/-! ## Error texts -/

/-- The lower-cased message contains one of the needles. -/
def containsAny (needles : List String) (message : String) : Bool :=
  needles.any fun needle => decide (needle.toList <:+: message.toList.map Char.toLower)

/-- `is_nonce_collision`. -/
def isNonceCollision : String → Bool :=
  containsAny ["nonce too low", "nonce already used", "already known", "replacement underpriced",
    "replacement transaction underpriced"]

/-- `is_transient_rpc_error`. -/
def isTransientRpcError : String → Bool :=
  containsAny ["timeout", "timed out", "connection reset", "connection refused",
    "connection closed", "temporarily unavailable", "502 ", "503 ", "504 ", "bad gateway",
    "service unavailable", "gateway timeout"]

/-- `is_insufficient_funds`. -/
def isInsufficientFunds : String → Bool :=
  containsAny ["insufficient funds", "insufficient balance", "not enough funds"]

/-- `decode_revert_reason_from_msg`; the names of the contract's errors keep their case. -/
def decodeRevertReasonFromMsg (message : String) : Option String :=
  if containsAny ["revert", "execution reverted"] message then
    let known := ["ErrInvalidSignature", "ErrSignerNotRegistered", "ErrUnsupportedSchemaVersion"]
    match known.find? fun name => name.toList <:+: message.toList with
    | some name => some name
    | none =>
        if containsAny ["out of gas", "outofgas"] message then
          some "OutOfGas"
        else
          some "unknown revert"
  else
    none

inductive ChainError where
  | rpc (message : String)
  | rpcTransient (message : String) (attempts : Nat)
  | gasCapExceeded (observedGwei capGwei : Nat)
  | revertedPreBroadcast (reason : String)
  | insufficientFunds (message : String)
  | nonceUnresolvable (attempts : Nat)
  /-- One of the checks before the loop or after the broadcast. -/
  | other (message : String)
  deriving Repr, DecidableEq

/-! ## The node -/

/-- Everything a transaction of this client sets; the value is zero and the tip
`PRIORITY_FEE_DEFAULT_WEI`. -/
structure Transaction where
  sender : Address
  recipient : Address
  nonce : Nat
  input : Bytes
  maxFeePerGas : Nat
  gasLimit : Nat
  chainId : UInt64
  deriving Repr, DecidableEq

/-- The account at the node since the call began. -/
structure Node where
  /-- Transactions from before. -/
  earlier : Nat
  /-- Accepted and not yet mined, in the order of their nonces. -/
  pool : List Transaction
  mined : List Transaction
  /-- Mined without a revert: each has emitted its `RevisionPublished`. -/
  published : List Transaction
  /-- How often `eth_sendRawTransaction` was called. -/
  sends : Nat
  deriving Repr, DecidableEq

namespace Node

def start (earlier : Nat) : Node := ⟨earlier, [], [], [], 0⟩

/-- `eth_getTransactionCount` at `pending`. -/
def pendingNonce (node : Node) : Nat := node.earlier + node.mined.length + node.pool.length

def send (node : Node) (tx : Transaction) (accepts : Bool) : Node :=
  { node with
    pool := if accepts then node.pool ++ [tx] else node.pool
    sends := node.sends + 1 }

/-- The next pooled transaction is mined. -/
def mine (node : Node) (succeeds : Bool) : Node :=
  match node.pool with
  | [] => node
  | tx :: pool =>
      { node with
        pool
        mined := node.mined ++ [tx]
        published := if succeeds then node.published ++ [tx] else node.published }

/-- How many accepted transactions carry the calldata. -/
def accepted (node : Node) (calldata : Bytes) : Nat :=
  (node.mined ++ node.pool).countP fun tx => tx.input = calldata

/-- How many of their events there are. -/
def events (node : Node) (calldata : Bytes) : Nat :=
  node.published.countP fun tx => tx.input = calldata

end Node

/-- What the node does during one pass of the loop. -/
structure Attempt where
  /-- The nonce read fails. -/
  nonceError : Option String
  /-- The base fee of the latest block, if the history has one. -/
  feeHistory : Except String (Option (BitVec 128))
  gasPrice : Except String (BitVec 128)
  estimateGas : Except String UInt64
  /-- Whether a transaction it is sent goes to the pool. -/
  accepts : Bool
  /-- What it answers to that, if not success. -/
  sendError : Option String
  /-- Pooled transactions it mines afterwards. -/
  blocks : List Bool

/-! ## The loop -/

def publishRevisionMaxRetries : Nat := 3

def priorityFeeDefaultWei : Nat := 1000000000

def maxFeePerGasCapWei : Nat := 50000000000

/-- `fetch_base_fee`. -/
def fetchBaseFee (answers : Attempt) : Except ChainError (BitVec 128) :=
  match answers.feeHistory with
  | .error message => .error (.rpc message)
  | .ok latest =>
      match latest.filter fun baseFee => baseFee ≠ 0 with
      | some baseFee => .ok baseFee
      | none =>
          match answers.gasPrice with
          | .error message => .error (.rpc message)
          | .ok gasPrice => .ok gasPrice

/-- Twice the base fee and the tip, within a `u128` and within the cap. -/
def maxFeePerGas (answers : Attempt) : Except ChainError Nat := do
  let baseFee ← fetchBaseFee answers
  let fee := baseFee.toNat * 2 + priorityFeeDefaultWei
  if 2 ^ 128 ≤ fee then
    .error (.rpc "base fee arithmetic overflow")
  else if maxFeePerGasCapWei < fee then
    .error (.gasCapExceeded (min (fee / 1000000000) (2 ^ 64 - 1)) (maxFeePerGasCapWei / 1000000000))
  else
    .ok fee

/-- The estimate with its margin, saturating as a `u64`. -/
def gasLimitOf (estimate : UInt64) : Nat := min (estimate.toNat * 12) (2 ^ 64 - 1) / 10

/-- How a pass of the loop ends. -/
inductive Pass where
  | again
  | ended (result : Except ChainError Transaction)

/-- A failure that is worth a retry, as long as there are attempts left. -/
def retryTransient (attempts : Nat) (message : String) : Pass :=
  if isTransientRpcError message && decide (attempts < publishRevisionMaxRetries) then
    .again
  else
    .ended (.error (.rpcTransient message attempts))

def afterEstimateError (attempts : Nat) (message : String) : Pass :=
  match decodeRevertReasonFromMsg message with
  | some reason => .ended (.error (.revertedPreBroadcast reason))
  | none =>
      if isInsufficientFunds message then
        .ended (.error (.insufficientFunds message))
      else
        retryTransient attempts message

def afterSendError (attempts : Nat) (message : String) : Pass :=
  if isNonceCollision message then
    if attempts < publishRevisionMaxRetries then
      .again
    else
      .ended (.error (.nonceUnresolvable attempts))
  else if isInsufficientFunds message then
    .ended (.error (.insufficientFunds message))
  else
    retryTransient attempts message

/-- What stays the same from pass to pass. -/
structure Request where
  sender : Address
  contract : Address
  calldata : Bytes
  chainId : UInt64

/-- One pass: nonce, fee, estimate, send. -/
def pass (request : Request) (attempts : Nat) (answers : Attempt) (node : Node) : Pass × Node :=
  match answers.nonceError with
  | some message => (retryTransient attempts message, node)
  | none =>
      match maxFeePerGas answers with
      | .error error => (.ended (.error error), node)
      | .ok fee =>
          match answers.estimateGas with
          | .error message => (afterEstimateError attempts message, node)
          | .ok estimate =>
              let tx : Transaction :=
                { sender := request.sender
                  recipient := request.contract
                  nonce := node.pendingNonce
                  input := request.calldata
                  maxFeePerGas := fee
                  gasLimit := gasLimitOf estimate
                  chainId := request.chainId }
              let sent := node.send tx answers.accepts
              match answers.sendError with
              | none => (.ended (.ok tx), sent)
              | some message => (afterSendError attempts message, sent)

/-- The loop, for as many passes as there is fuel; the node's behaviour is given for each
attempt, counted from one. -/
def broadcastLoop (request : Request) (behaviour : Nat → Attempt) :
    Nat → Nat → Node → Option (Except ChainError Transaction × Node)
  | 0, _, _ => none
  | fuel + 1, attempts, node =>
      let answers := behaviour (attempts + 1)
      let (next, after) := pass request (attempts + 1) answers node
      let after := answers.blocks.foldl Node.mine after
      match next with
      | .ended result => some (result, after)
      | .again => broadcastLoop request behaviour fuel (attempts + 1) after

/-- The arguments of `publishRevision`, in both versions of the log. -/
structure PublishRevisionCall where
  vaultId : Bytes32
  accountId : Bytes32
  parentRevision : Bytes32
  deviceId : Bytes32
  schemaVersion : UInt16
  encPayload : Bytes
  signature : Bytes
  deriving Repr, DecidableEq

/-- `broadcast_call`. -/
def broadcastCall (sender contract : Address) (calldata : Bytes) (chainId : UInt64)
    (behaviour : Nat → Attempt) (fuel : Nat) (node : Node) :
    Option (Except ChainError Transaction × Node) :=
  broadcastLoop ⟨sender, contract, calldata, chainId⟩ behaviour fuel 0 node

/-- `broadcast_with_retries`, which encodes the call itself. -/
def broadcastWithRetries (abiEncode : PublishRevisionCall → Bytes) (sender contract : Address)
    (signedRevision : PublishRevisionCall) (chainId : UInt64) (behaviour : Nat → Attempt)
    (fuel : Nat) (node : Node) : Option (Except ChainError Transaction × Node) :=
  broadcastLoop ⟨sender, contract, abiEncode signedRevision, chainId⟩ behaviour fuel 0 node

section

variable {Anchor : Type} (abiEncode : PublishRevisionCall → Bytes) (sender : Address)
  (signedRevision : PublishRevisionCall)

/-- `publish_revision_v1`.  The checks before the broadcast give the contract and the chain
id, the receipt gives the anchor, and neither sends anything. -/
def publishRevisionV1 (checks : Except ChainError (Address × UInt64))
    (receipt : Transaction → Except ChainError Anchor) (behaviour : Nat → Attempt) (fuel : Nat)
    (node : Node) : Option (Except ChainError Anchor × Node) :=
  match checks with
  | .error error => some (.error error, node)
  | .ok (contract, chainId) =>
      (broadcastWithRetries abiEncode sender contract signedRevision chainId behaviour fuel
        node).map fun (sent, node) => (sent.bind receipt, node)

/-- `publish_revision_v2`. -/
def publishRevisionV2 (checks : Except ChainError (Address × UInt64))
    (receipt : Transaction → Except ChainError Anchor) (behaviour : Nat → Attempt) (fuel : Nat)
    (node : Node) : Option (Except ChainError Anchor × Node) :=
  match checks with
  | .error error => some (.error error, node)
  | .ok (contract, chainId) =>
      (broadcastCall sender contract (abiEncode signedRevision) chainId behaviour fuel
        node).map fun (sent, node) => (sent.bind receipt, node)

end

/-! ## What one pass does -/

namespace Attempt

/-- The pass gets as far as the send. -/
def sends (answers : Attempt) : Bool :=
  answers.nonceError.isNone && (maxFeePerGas answers).toBool && answers.estimateGas.toBool

/-- It sends a transaction that the node takes. -/
def accepted (answers : Attempt) : Bool := answers.sends && answers.accepts

/-- It ends in an error text that the client retries. -/
def retried (answers : Attempt) : Bool :=
  match answers.nonceError with
  | some message => isTransientRpcError message
  | none =>
      (maxFeePerGas answers).toBool &&
        match answers.estimateGas with
        | .error message =>
            (decodeRevertReasonFromMsg message).isNone && !isInsufficientFunds message &&
              isTransientRpcError message
        | .ok _ =>
            answers.sendError.any fun message =>
              isNonceCollision message ||
                !isInsufficientFunds message && isTransientRpcError message

end Attempt

namespace Node

variable {node : Node}

/-- Only mined transactions have events. -/
def Recorded (node : Node) : Prop := node.published.Sublist node.mined

theorem Recorded.send (recorded : node.Recorded) (tx : Transaction) (accepts : Bool) :
    (node.send tx accepts).Recorded := recorded

theorem Recorded.mine (recorded : node.Recorded) (succeeds : Bool) :
    (node.mine succeeds).Recorded := by
  unfold Node.mine
  split
  · exact recorded
  · unfold Recorded
    cases succeeds with
    | false => exact recorded.trans (List.sublist_append_left _ _)
    | true => exact recorded.append (List.Sublist.refl _)

theorem Recorded.mineAll (recorded : node.Recorded) (blocks : List Bool) :
    (blocks.foldl Node.mine node).Recorded := by
  induction blocks generalizing node with
  | nil => exact recorded
  | cons succeeds blocks ih => exact ih (recorded.mine succeeds)

theorem Recorded.events_le (recorded : node.Recorded) (calldata : Bytes) :
    node.events calldata ≤ node.accepted calldata := by
  unfold events accepted
  rw [List.countP_append]
  exact recorded.countP_le.trans (Nat.le_add_right _ _)

theorem accepted_send (tx : Transaction) (accepts : Bool) :
    (node.send tx accepts).accepted tx.input = node.accepted tx.input + accepts.toNat := by
  cases accepts with
  | false => rfl
  | true => simp [send, accepted, Nat.add_assoc]

/-- Mining moves transactions, it adds none. -/
theorem accepted_mine (succeeds : Bool) (calldata : Bytes) :
    (node.mine succeeds).accepted calldata = node.accepted calldata := by
  unfold mine
  split
  · rfl
  · next tx pool pooled => simp [accepted, pooled]

theorem accepted_mineAll (blocks : List Bool) (calldata : Bytes) :
    (blocks.foldl Node.mine node).accepted calldata = node.accepted calldata := by
  induction blocks generalizing node with
  | nil => rfl
  | cons succeeds blocks ih =>
      rw [List.foldl_cons, ih, accepted_mine]

theorem sends_mine (succeeds : Bool) : (node.mine succeeds).sends = node.sends := by
  unfold mine
  split <;> rfl

theorem sends_mineAll (blocks : List Bool) :
    (blocks.foldl Node.mine node).sends = node.sends := by
  induction blocks generalizing node with
  | nil => rfl
  | cons succeeds blocks ih =>
      rw [List.foldl_cons, ih, sends_mine]

end Node

section

variable {request : Request} {attempts : Nat} {answers : Attempt} {node : Node}

theorem retryTransient_again {message : String} :
    retryTransient attempts message = .again ↔
      isTransientRpcError message = true ∧ attempts < publishRevisionMaxRetries := by
  unfold retryTransient
  split <;> simp_all

theorem afterEstimateError_again {message : String} :
    afterEstimateError attempts message = .again ↔
      ((decodeRevertReasonFromMsg message).isNone && !isInsufficientFunds message &&
        isTransientRpcError message) = true ∧ attempts < publishRevisionMaxRetries := by
  unfold afterEstimateError
  split
  · simp_all
  · split <;> simp_all [retryTransient_again]

theorem afterSendError_again {message : String} :
    afterSendError attempts message = .again ↔
      (isNonceCollision message || !isInsufficientFunds message && isTransientRpcError message) =
        true ∧ attempts < publishRevisionMaxRetries := by
  unfold afterSendError
  split
  · split <;> simp_all
  · split <;> simp_all [retryTransient_again]

/-- A pass is followed by another exactly when it ends in a retried error and attempts are
left. -/
theorem pass_again :
    (pass request attempts answers node).1 = .again ↔
      answers.retried = true ∧ attempts < publishRevisionMaxRetries := by
  unfold pass Attempt.retried
  cases answers.nonceError with
  | some message => exact retryTransient_again
  | none =>
      cases maxFeePerGas answers with
      | error error => simp [Except.toBool]
      | ok fee =>
          cases answers.estimateGas with
          | error message => simpa [Except.toBool] using afterEstimateError_again
          | ok estimate =>
              cases answers.sendError with
              | none => simp
              | some message => simpa [Except.toBool] using afterSendError_again

/-- What a pass leaves at the node. -/
theorem pass_node (request : Request) (attempts : Nat) (answers : Attempt) (node : Node) :
    (pass request attempts answers node).2 = node ∧ answers.sends = false ∨
      answers.sends = true ∧ ∃ tx : Transaction, tx.input = request.calldata ∧
        (pass request attempts answers node).2 = node.send tx answers.accepts := by
  unfold pass Attempt.sends
  cases answers.nonceError with
  | some message => exact .inl ⟨rfl, rfl⟩
  | none =>
      cases maxFeePerGas answers with
      | error error => exact .inl ⟨rfl, rfl⟩
      | ok fee =>
          cases answers.estimateGas with
          | error message => exact .inl ⟨rfl, rfl⟩
          | ok estimate =>
              refine .inr ⟨rfl, ?_⟩
              cases answers.sendError with
              | none => exact ⟨_, rfl, rfl⟩
              | some message => exact ⟨_, rfl, rfl⟩

/-- A pass and the mining after it. -/
theorem pass_counts (request : Request) (attempts : Nat) (answers : Attempt)
    (recorded : node.Recorded) :
    let after := answers.blocks.foldl Node.mine (pass request attempts answers node).2
    after.Recorded ∧ after.sends ≤ node.sends + 1 ∧
      after.accepted request.calldata =
        node.accepted request.calldata + answers.accepted.toNat := by
  intro after
  unfold Attempt.accepted
  rw [Node.sends_mineAll, Node.accepted_mineAll]
  rcases pass_node request attempts answers node with ⟨same, none⟩ | ⟨sent, tx, carries, same⟩
  · refine ⟨Node.Recorded.mineAll ?_ _, ?_, ?_⟩
    · rw [same]
      exact recorded
    · rw [same]
      exact Nat.le_succ _
    · rw [same, none]
      rfl
  · refine ⟨Node.Recorded.mineAll ?_ _, ?_, ?_⟩
    · rw [same]
      exact recorded.send tx answers.accepts
    · rw [same]
      exact Nat.le_refl _
    · rw [same, sent, ← carries, Node.accepted_send, Bool.true_and]

end

/-! ## The whole loop -/

/-- How many sends are accepted from an attempt on, with so many attempts left. -/
def acceptances (behaviour : Nat → Attempt) : Nat → Nat → Nat
  | 0, _ => 0
  | left + 1, attempts =>
      (behaviour (attempts + 1)).accepted.toNat +
        if (behaviour (attempts + 1)).retried then acceptances behaviour left (attempts + 1) else 0

theorem acceptances_retried {behaviour : Nat → Attempt} {attempts : Nat} (left : Nat)
    (retried : (behaviour (attempts + 1)).retried = true) :
    acceptances behaviour (left + 1) attempts =
      (behaviour (attempts + 1)).accepted.toNat + acceptances behaviour left (attempts + 1) := by
  rw [acceptances, if_pos retried]

theorem acceptances_ended {behaviour : Nat → Attempt} {attempts : Nat} (left : Nat)
    (ended : (behaviour (attempts + 1)).retried = false) :
    acceptances behaviour (left + 1) attempts = (behaviour (attempts + 1)).accepted.toNat := by
  rw [acceptances, ended]
  rfl

theorem broadcastLoop_ended {request : Request} {behaviour : Nat → Attempt} {fuel attempts : Nat}
    {node : Node} {result : Except ChainError Transaction}
    (ended : (pass request (attempts + 1) (behaviour (attempts + 1)) node).1 = .ended result) :
    broadcastLoop request behaviour (fuel + 1) attempts node =
      some (result, (behaviour (attempts + 1)).blocks.foldl Node.mine
        (pass request (attempts + 1) (behaviour (attempts + 1)) node).2) := by
  rw [broadcastLoop]
  simp only [ended]

theorem broadcastLoop_again {request : Request} {behaviour : Nat → Attempt} {fuel attempts : Nat}
    {node : Node} (again : (pass request (attempts + 1) (behaviour (attempts + 1)) node).1 = .again) :
    broadcastLoop request behaviour (fuel + 1) attempts node =
      broadcastLoop request behaviour fuel (attempts + 1)
        ((behaviour (attempts + 1)).blocks.foldl Node.mine
          (pass request (attempts + 1) (behaviour (attempts + 1)) node).2) := by
  rw [broadcastLoop]
  simp only [again]

/-- The loop ends, after no more sends than there are attempts. -/
theorem broadcastLoop_ends (request : Request) (behaviour : Nat → Attempt)
    {left fuel attempts : Nat} {node : Node}
    (counted : attempts + (left + 1) = publishRevisionMaxRetries) (enough : left < fuel)
    (recorded : node.Recorded) :
    ∃ result after, broadcastLoop request behaviour fuel attempts node = some (result, after) ∧
      after.Recorded ∧ after.sends ≤ node.sends + (left + 1) ∧
      after.accepted request.calldata =
        node.accepted request.calldata + acceptances behaviour (left + 1) attempts := by
  induction left generalizing fuel attempts node with
  | zero =>
      obtain ⟨fuel, rfl⟩ := Nat.exists_eq_succ_of_ne_zero (Nat.ne_of_gt enough)
      have counts := pass_counts request (attempts + 1) (behaviour (attempts + 1)) recorded
      cases next : (pass request (attempts + 1) (behaviour (attempts + 1)) node).1 with
      | ended result =>
          refine ⟨_, _, broadcastLoop_ended next, counts.1, counts.2.1, ?_⟩
          simpa [acceptances] using counts.2.2
      | again =>
          -- the last attempt is not followed by another
          have := (pass_again.mp next).2
          omega
  | succ left ih =>
      obtain ⟨fuel, rfl⟩ := Nat.exists_eq_succ_of_ne_zero (Nat.ne_of_gt (Nat.zero_lt_of_lt enough))
      have counts := pass_counts request (attempts + 1) (behaviour (attempts + 1)) recorded
      cases next : (pass request (attempts + 1) (behaviour (attempts + 1)) node).1 with
      | ended result =>
          have notRetried : (behaviour (attempts + 1)).retried = false := by
            apply Bool.eq_false_iff.mpr
            intro retried
            have again : (pass request (attempts + 1) (behaviour (attempts + 1)) node).1 = .again :=
              pass_again.mpr ⟨retried, by omega⟩
            rw [again] at next
            cases next
          refine ⟨_, _, broadcastLoop_ended next, counts.1, by omega, ?_⟩
          rw [counts.2.2, acceptances_ended _ notRetried]
      | again =>
          have retried := (pass_again.mp next).1
          obtain ⟨result, after, ran, kept, sent, taken⟩ :=
            ih (show attempts + 1 + (left + 1) = _ by omega) (Nat.lt_of_succ_lt_succ enough) counts.1
          refine ⟨result, after, ?_, kept, by omega, ?_⟩
          · rw [broadcastLoop_again next, ran]
          · rw [taken, counts.2.2, acceptances_retried _ retried, Nat.add_assoc]

/-- Every pass between two attempts ends in a retried error. -/
def Reached (behaviour : Nat → Attempt) (attempts later : Nat) : Prop :=
  ∀ between < later, attempts < between → (behaviour between).retried = true

theorem reached_next (behaviour : Nat → Attempt) (attempts : Nat) :
    Reached behaviour attempts (attempts + 1) := by
  intro between before after
  exact absurd before (Nat.not_lt.mpr after)

theorem reached_iff {behaviour : Nat → Attempt} {attempts later : Nat}
    (after : attempts + 1 < later) :
    Reached behaviour attempts later ↔
      (behaviour (attempts + 1)).retried = true ∧ Reached behaviour (attempts + 1) later := by
  constructor
  · intro reached
    refine ⟨reached _ after (Nat.lt_succ_self _), ?_⟩
    exact fun between before later => reached between before (Nat.lt_of_succ_lt later)
  · rintro ⟨retried, reached⟩ between before later
    rcases Nat.eq_or_lt_of_le later with rfl | further
    · exact retried
    · exact reached between before further

/-- A property of the attempts that are reached, split at the first. -/
theorem forall_reached_iff {behaviour : Nat → Attempt} {left attempts : Nat} {P : Nat → Prop} :
    (∀ later ≤ attempts + (left + 1), attempts < later → Reached behaviour attempts later →
        P later) ↔
      P (attempts + 1) ∧ ((behaviour (attempts + 1)).retried = true →
        ∀ later ≤ attempts + 1 + left, attempts + 1 < later →
          Reached behaviour (attempts + 1) later → P later) := by
  constructor
  · intro every
    constructor
    · exact every _ (by omega) (Nat.lt_succ_self _) (reached_next behaviour attempts)
    · intro retried later upper lower reached
      exact every later (by omega) (by omega) ((reached_iff lower).mpr ⟨retried, reached⟩)
  · rintro ⟨first, others⟩ later upper lower reached
    rcases Nat.eq_or_lt_of_le lower with rfl | further
    · exact first
    · obtain ⟨retried, rest⟩ := (reached_iff further).mp reached
      exact others retried later (by omega) further rest

theorem acceptances_eq_zero {behaviour : Nat → Attempt} {left attempts : Nat} :
    acceptances behaviour left attempts = 0 ↔
      ∀ later ≤ attempts + left, attempts < later → Reached behaviour attempts later →
        (behaviour later).accepted = false := by
  induction left generalizing attempts with
  | zero =>
      refine iff_of_true rfl ?_
      intro later upper lower
      omega
  | succ left ih =>
      rw [forall_reached_iff, ← ih]
      cases retried : (behaviour (attempts + 1)).retried with
      | false => simp [acceptances_ended left retried]
      | true => simp [acceptances_retried left retried]

/-- No attempt that is reached is accepted after one that was. -/
theorem acceptances_le_one {behaviour : Nat → Attempt} {left attempts : Nat} :
    acceptances behaviour left attempts ≤ 1 ↔
      ∀ second ≤ attempts + left, attempts < second → Reached behaviour attempts second →
        ∀ first < second, attempts < first → (behaviour first).accepted = true →
          (behaviour second).accepted = false := by
  induction left generalizing attempts with
  | zero =>
      refine iff_of_true (Nat.zero_le _) ?_
      intro second upper lower
      omega
  | succ left ih =>
      rw [forall_reached_iff]
      cases retried : (behaviour (attempts + 1)).retried with
      | false =>
          rw [acceptances_ended left retried]
          refine iff_of_true (Bool.toNat_le _) ⟨?_, nofun⟩
          intro first before after
          omega
      | true =>
          rw [acceptances_retried left retried]
          have firstAttempt : ∀ first < attempts + 1, attempts < first →
              (behaviour first).accepted = true →
                (behaviour (attempts + 1)).accepted = false := by
            intro first before after
            omega
          cases taken : (behaviour (attempts + 1)).accepted with
          | false =>
              rw [Bool.toNat_false, Nat.zero_add, ih]
              constructor
              · refine fun later => ⟨by rw [taken] at firstAttempt; exact firstAttempt, ?_⟩
                intro _ second upper lower reached first before after accepted
                rcases Nat.eq_or_lt_of_le after with rfl | further
                · rw [taken] at accepted
                  cases accepted
                · exact later second upper lower reached first before further accepted
              · rintro ⟨-, later⟩ second upper lower reached first before after
                exact later rfl second upper lower reached first before (Nat.lt_of_succ_lt after)
          | true =>
              have alone : Bool.toNat true + acceptances behaviour left (attempts + 1) ≤ 1 ↔
                  acceptances behaviour left (attempts + 1) = 0 := by
                rw [Bool.toNat_true]
                omega
              rw [alone, acceptances_eq_zero]
              constructor
              · intro none
                refine ⟨by rw [taken] at firstAttempt; exact firstAttempt, ?_⟩
                intro _ second upper lower reached _ _ _ _
                exact none second upper lower reached
              · rintro ⟨-, later⟩ second upper lower reached
                exact later rfl second upper lower reached (attempts + 1) lower
                  (Nat.lt_succ_self _) taken

/-! ## At most once -/

/-- The call ends after at most the allowed number of sends, and whatever is mined later, at
most one accepted transaction and one event carry its calldata. -/
def AtMostOnce {α : Type} (calldata : Bytes) (ran : Option (Except ChainError α × Node)) : Prop :=
  ∃ result node, ran = some (result, node) ∧ node.sends ≤ publishRevisionMaxRetries ∧
    ∀ blocks : List Bool,
      (blocks.foldl Node.mine node).accepted calldata ≤ 1 ∧
        (blocks.foldl Node.mine node).events calldata ≤ 1

/-- The node accepts no second transaction after one that it had accepted and answered with
an error that the client retries. -/
def NoHiddenAcceptance (behaviour : Nat → Attempt) : Prop :=
  ∀ second ≤ publishRevisionMaxRetries, 0 < second →
    (∀ between < second, 0 < between → (behaviour between).retried = true) →
    ∀ first < second, 0 < first → (behaviour first).accepted = true →
      (behaviour second).accepted = false

theorem broadcastLoop_atMostOnce (request : Request) (behaviour : Nat → Attempt) {fuel : Nat}
    (enough : publishRevisionMaxRetries ≤ fuel) (earlier : Nat) :
    AtMostOnce request.calldata (broadcastLoop request behaviour fuel 0 (.start earlier)) ↔
      NoHiddenAcceptance behaviour := by
  have recorded : (Node.start earlier).Recorded := List.Sublist.refl _
  have counted : 0 + (2 + 1) = publishRevisionMaxRetries := rfl
  obtain ⟨result, after, ran, kept, sent, taken⟩ :=
    broadcastLoop_ends request behaviour counted enough recorded
  have total : after.accepted request.calldata =
      acceptances behaviour publishRevisionMaxRetries 0 :=
    taken.trans (Nat.zero_add _)
  have decides : NoHiddenAcceptance behaviour ↔ after.accepted request.calldata ≤ 1 := by
    rw [total, acceptances_le_one, Nat.zero_add]
    exact Iff.rfl
  rw [decides]
  constructor
  · rintro ⟨_, _, same, -, once⟩
    obtain rfl : after = _ := congrArg Prod.snd (Option.some.inj (ran.symm.trans same))
    exact (once []).1
  · intro once
    refine ⟨result, after, ran, sent.trans (Nat.le_of_eq (Nat.zero_add _)), ?_⟩
    intro blocks
    have later := (kept.mineAll blocks).events_le request.calldata
    rw [Node.accepted_mineAll] at later ⊢
    exact ⟨once, later.trans once⟩

theorem AtMostOnce.map_iff {α β : Type} {calldata : Bytes}
    {ran : Option (Except ChainError α × Node)} (use : Except ChainError α → Except ChainError β) :
    AtMostOnce calldata (ran.map fun (result, node) => (use result, node)) ↔
      AtMostOnce calldata ran := by
  constructor
  · rintro ⟨result, node, same, bounds⟩
    obtain ⟨⟨before, _⟩, found, equal⟩ := Option.map_eq_some_iff.mp same
    obtain rfl : _ = node := congrArg Prod.snd equal
    exact ⟨before, _, found, bounds⟩
  · rintro ⟨result, node, rfl, bounds⟩
    exact ⟨use result, node, rfl, bounds⟩

/-- A call that stops at its checks sends nothing. -/
theorem atMostOnce_unsent {α : Type} (calldata : Bytes) (error : ChainError) (earlier : Nat) :
    AtMostOnce calldata (some ((.error error : Except ChainError α), Node.start earlier)) := by
  refine ⟨_, _, rfl, Nat.zero_le _, ?_⟩
  intro blocks
  have recorded : (Node.start earlier).Recorded := List.Sublist.refl _
  have later := (recorded.mineAll blocks).events_le calldata
  rw [Node.accepted_mineAll] at later ⊢
  exact ⟨Nat.zero_le _, later.trans (Nat.zero_le _)⟩

/-- A publication goes out at most once exactly when the node hides no acceptance behind a
retried error, for both versions of the log. -/
theorem publish_at_most_once_iff {Anchor : Type} (abiEncode : PublishRevisionCall → Bytes)
    (sender : Address) (signedRevision : PublishRevisionCall)
    (checks : Except ChainError (Address × UInt64))
    (receipt : Transaction → Except ChainError Anchor) (behaviour : Nat → Attempt)
    (earlier : Nat) :
    ((∀ fuel, publishRevisionMaxRetries ≤ fuel →
        AtMostOnce (abiEncode signedRevision)
          (publishRevisionV1 abiEncode sender signedRevision checks receipt behaviour fuel
            (.start earlier))) ↔
      (checks.toBool = true → NoHiddenAcceptance behaviour)) ∧
    ((∀ fuel, publishRevisionMaxRetries ≤ fuel →
        AtMostOnce (abiEncode signedRevision)
          (publishRevisionV2 abiEncode sender signedRevision checks receipt behaviour fuel
            (.start earlier))) ↔
      (checks.toBool = true → NoHiddenAcceptance behaviour)) := by
  cases checks with
  | error error =>
      constructor
      · exact iff_of_true (fun _ _ => atMostOnce_unsent _ error earlier) nofun
      · exact iff_of_true (fun _ _ => atMostOnce_unsent _ error earlier) nofun
  | ok route =>
      let request : Request := ⟨sender, route.1, abiEncode signedRevision, route.2⟩
      have loop (fuel : Nat) (enough : publishRevisionMaxRetries ≤ fuel) :=
        broadcastLoop_atMostOnce request behaviour enough earlier
      have first (fuel : Nat) (enough : publishRevisionMaxRetries ≤ fuel) :
          AtMostOnce (abiEncode signedRevision) (publishRevisionV1 abiEncode sender signedRevision
            (.ok route) receipt behaviour fuel (.start earlier)) ↔ NoHiddenAcceptance behaviour :=
        (AtMostOnce.map_iff fun sent => sent.bind receipt).trans (loop fuel enough)
      have second (fuel : Nat) (enough : publishRevisionMaxRetries ≤ fuel) :
          AtMostOnce (abiEncode signedRevision) (publishRevisionV2 abiEncode sender signedRevision
            (.ok route) receipt behaviour fuel (.start earlier)) ↔ NoHiddenAcceptance behaviour :=
        (AtMostOnce.map_iff fun sent => sent.bind receipt).trans (loop fuel enough)
      constructor
      · constructor
        · exact fun once _ => (first _ (Nat.le_refl _)).mp (once _ (Nat.le_refl _))
        · exact fun honest fuel enough => (first fuel enough).mpr (honest rfl)
      · constructor
        · exact fun once _ => (second _ (Nat.le_refl _)).mp (once _ (Nat.le_refl _))
        · exact fun honest fuel enough => (second fuel enough).mpr (honest rfl)

namespace BroadcastSample

/-- The node takes the first transaction and the answer is lost on the way; the second one
goes through. -/
def lostAnswer : Nat → Attempt
  | 1 => ⟨none, .ok (some 1000), .error "", .ok 21000, true, some "request Timeout", []⟩
  | _ => ⟨none, .ok (some 1000), .error "", .ok 21000, true, none, []⟩

def call : PublishRevisionCall := ⟨7, 1, 0, 2, 1, [5], [6]⟩

/-- An encoding that keeps the payload. -/
def encode (call : PublishRevisionCall) : Bytes := call.encPayload

def published (fuel : Nat) : Option (Except ChainError Transaction × Node) :=
  publishRevisionV1 encode 9 call (.ok (3, 84532)) .ok lostAnswer fuel (.start 0)

def publishedV2 (fuel : Nat) : Option (Except ChainError Transaction × Node) :=
  publishRevisionV2 encode 9 call (.ok (3, 84532)) .ok lostAnswer fuel (.start 0)

end BroadcastSample

/-- Both transactions are accepted, under two nonces, and both are mined. -/
theorem lost_answer_publishes_twice :
    ¬ AtMostOnce [5] (BroadcastSample.published publishRevisionMaxRetries) ∧
      ¬ AtMostOnce [5] (BroadcastSample.publishedV2 publishRevisionMaxRetries) := by
  have twice : (BroadcastSample.published publishRevisionMaxRetries).map
      (fun ran => ([true, true].foldl Node.mine ran.2).events [5]) = some 2 := by
    decide +kernel
  have twiceV2 : (BroadcastSample.publishedV2 publishRevisionMaxRetries).map
      (fun ran => ([true, true].foldl Node.mine ran.2).events [5]) = some 2 := by
    decide +kernel
  constructor
  · rintro ⟨result, node, ran, -, once⟩
    rw [ran] at twice
    have atMost : 2 ≤ 1 := (Option.some.inj twice).symm.trans_le (once [true, true]).2
    exact absurd atMost (by decide)
  · rintro ⟨result, node, ran, -, once⟩
    rw [ran] at twiceV2
    have atMost : 2 ≤ 1 := (Option.some.inj twiceV2).symm.trans_le (once [true, true]).2
    exact absurd atMost (by decide)

end Pangolin.Chain
