import Pangolin.Contracts.Evm
import Pangolin.Lib.Table

/-!
# The payments ledger

One row for each attestation the funder has taken on.  The row is written before anything
is sent to the chain, and each leg of the payment is recorded after its receipt.
-/

namespace Pangolin.Funder

open Evm

inductive PaymentState where
  | preRedeem
  | redeemSubmitted
  | redeemMined
  | ethTransferSubmitted
  | ethTransferMined
  | ethTransferFailed
  deriving Repr, DecidableEq

structure PaymentRow where
  attestationHash : Bytes32
  userId : Bytes32
  deviceAddress : Address
  creditAmount : BitVec 256
  redemptionTxHash : Option Bytes32
  state : PaymentState
  ethTransferTxHash : Option Bytes32
  ethTransferBlock : Option UInt64
  ethTransferredWei : Option (BitVec 256)
  createdAt : UInt64
  deriving Repr, DecidableEq

/-- The rows of `payments`, in the order of their ids. -/
abbrev Ledger := List PaymentRow

namespace Ledger

/-- `try_insert`: `false` when the hash is taken. -/
def tryInsert (ledger : Ledger) (attestationHash userId : Bytes32) (deviceAddress : Address)
    (creditAmount : BitVec 256) (now : UInt64) : Ledger × Bool :=
  match Table.insert? PaymentRow.attestationHash ledger
      ⟨attestationHash, userId, deviceAddress, creditAmount, none, .preRedeem, none, none, none,
        now⟩ with
  | some ledger => (ledger, true)
  | none => (ledger, false)

/-- `UPDATE payments SET … WHERE attestation_hash = …`, with whether a row was affected. -/
def update (ledger : Ledger) (attestationHash : Bytes32) (change : PaymentRow → PaymentRow) :
    Ledger × Bool :=
  (ledger.map fun row => if row.attestationHash = attestationHash then change row else row,
    ledger.any fun row => row.attestationHash = attestationHash)

def updateRedemptionTxHash (ledger : Ledger) (attestationHash txHash : Bytes32) : Ledger × Bool :=
  ledger.update attestationHash fun row =>
    { row with redemptionTxHash := some txHash, state := .redeemSubmitted }

def transitionState (ledger : Ledger) (attestationHash : Bytes32) (newState : PaymentState) :
    Ledger × Bool :=
  ledger.update attestationHash fun row => { row with state := newState }

def markEthTransferSubmitted (ledger : Ledger) (attestationHash ethTransferTxHash : Bytes32)
    (ethTransferredWei : BitVec 256) : Ledger × Bool :=
  ledger.update attestationHash fun row =>
    { row with
      ethTransferTxHash := some ethTransferTxHash
      ethTransferredWei := some ethTransferredWei
      state := .ethTransferSubmitted }

/-- `mark_eth_transfer_mined`; the column holds an `i64`. -/
def markEthTransferMined (ledger : Ledger) (attestationHash : Bytes32)
    (ethTransferBlock : UInt64) : Ledger × Bool :=
  let block := if ethTransferBlock < 9223372036854775807 then ethTransferBlock
    else 9223372036854775807
  ledger.update attestationHash fun row =>
    { row with ethTransferBlock := some block, state := .ethTransferMined }

end Ledger

/-- The states `find_resumable_entries` asks for. -/
def PaymentState.resumable : PaymentState → Bool
  | redeemSubmitted => true
  | redeemMined => true
  | ethTransferSubmitted => true
  | preRedeem => false
  | ethTransferMined => false
  | ethTransferFailed => false

def Ledger.findResumableEntries (ledger : Ledger) : List PaymentRow :=
  ledger.filter fun row => row.state.resumable

/-! ## What a write does -/

section

variable {ledger : Ledger} {row : PaymentRow} {attestationHash userId : Bytes32}
variable {deviceAddress : Address} {creditAmount : BitVec 256} {now : UInt64}
variable {change : PaymentRow → PaymentRow}

theorem Ledger.tryInsert_of_fresh
    (fresh : ∀ old ∈ ledger, old.attestationHash ≠ attestationHash) :
    ledger.tryInsert attestationHash userId deviceAddress creditAmount now =
      (ledger ++ [⟨attestationHash, userId, deviceAddress, creditAmount, none, .preRedeem, none,
        none, none, now⟩], true) := by
  have absent : ¬ (ledger.any fun old => old.attestationHash = attestationHash) := by
    simpa using fresh
  simp only [tryInsert, Table.insert?, absent]
  rfl

theorem Ledger.tryInsert_of_taken (taken : ∃ old ∈ ledger, old.attestationHash = attestationHash) :
    ledger.tryInsert attestationHash userId deviceAddress creditAmount now = (ledger, false) := by
  have present : ledger.any fun old => old.attestationHash = attestationHash := by
    simpa using taken
  simp only [tryInsert, Table.insert?, present, if_true]

/-- The columns no write changes. -/
structure PaymentRow.SameCredit (row row' : PaymentRow) : Prop where
  attestationHash : row'.attestationHash = row.attestationHash
  userId : row'.userId = row.userId
  deviceAddress : row'.deviceAddress = row.deviceAddress
  creditAmount : row'.creditAmount = row.creditAmount

theorem Ledger.mem_update {row' : PaymentRow} :
    row' ∈ (ledger.update attestationHash change).1 ↔
      ∃ row ∈ ledger, row' = if row.attestationHash = attestationHash then change row else row := by
  simp only [update, List.mem_map, eq_comm]

theorem Ledger.update_hashes (same : ∀ row, (change row).attestationHash = row.attestationHash) :
    (ledger.update attestationHash change).1.map PaymentRow.attestationHash =
      ledger.map PaymentRow.attestationHash := by
  simp only [update, List.map_map]
  apply List.map_congr_left
  intro row _
  simp only [Function.comp_apply]
  split
  · exact same row
  · rfl

/-- The row of a hash is its only one. -/
theorem Ledger.row_unique (unique : (ledger.map PaymentRow.attestationHash).Nodup)
    {row' : PaymentRow} (member : row ∈ ledger) (member' : row' ∈ ledger)
    (same : row'.attestationHash = row.attestationHash) : row' = row := by
  have first := Table.lookup_eq_some_of_mem PaymentRow.attestationHash unique member
  have second := Table.lookup_eq_some_of_mem PaymentRow.attestationHash unique member'
  rw [same, first] at second
  exact (Option.some.inj second).symm

theorem Ledger.nodup_append (unique : (ledger.map PaymentRow.attestationHash).Nodup)
    (fresh : ∀ old ∈ ledger, old.attestationHash ≠ row.attestationHash) :
    ((ledger ++ [row]).map PaymentRow.attestationHash).Nodup := by
  rw [List.map_append, List.map_singleton]
  apply unique.append (List.nodup_singleton _)
  intro hash inOld inNew
  obtain ⟨old, member, rfl⟩ := List.mem_map.mp inOld
  exact fresh old member (List.mem_singleton.mp inNew)

end

end Pangolin.Funder
