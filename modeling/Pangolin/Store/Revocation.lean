import Pangolin.Store.Export

/-!
# Revoking rows by the on-chain device set

A sync of the second revision log recovers the signer of every event it honours and
stamps it on the row.  The re-evaluation then sets the revoked flag of every anchored row
from that signer and the current device set.  A row without a recovered signer, such as
one this device published itself and has not yet read back, counts as not honoured.
-/

namespace Pangolin.Store

open Crypto

/-- The flag an anchored row should have under a device set. -/
def wantRevoked (set : List EvmAddress) (row : RevisionRow) : Bool :=
  match row.recoveredSigner with
  | some signer => decide (signer ∉ set)
  | none => true

/-- One row under the re-evaluation; rows that were never published keep their flag. -/
def reevaluateRow (set : List EvmAddress) (row : RevisionRow) : RevisionRow :=
  if row.chainAnchor.isSome then { row with revoked := wantRevoked set row } else row

def reevaluateLog (set : List EvmAddress) (log : RevisionTables) : RevisionTables :=
  { log with revisions := log.revisions.map (reevaluateRow set) }

/-- `reevaluate_revocation_against_set`, with the number of newly revoked rows. -/
def reevaluateRevocationAgainstSet (vault : Vault) (set : List EvmAddress) : Vault × Nat :=
  (withLog vault (reevaluateLog set vault.disk.log),
    (vault.disk.log.revisions.filter fun row =>
      !row.revoked && (reevaluateRow set row).revoked).length)

@[simp] theorem reevaluateRow_revisionId (set : List EvmAddress) (row : RevisionRow) :
    (reevaluateRow set row).revisionId = row.revisionId := by
  unfold reevaluateRow
  split <;> rfl

@[simp] theorem reevaluateRow_encPayload (set : List EvmAddress) (row : RevisionRow) :
    (reevaluateRow set row).encPayload = row.encPayload := by
  unfold reevaluateRow
  split <;> rfl

@[simp] theorem reevaluateRow_chainAnchor (set : List EvmAddress) (row : RevisionRow) :
    (reevaluateRow set row).chainAnchor = row.chainAnchor := by
  unfold reevaluateRow
  split <;> rfl

@[simp] theorem reevaluateRow_recoveredSigner (set : List EvmAddress) (row : RevisionRow) :
    (reevaluateRow set row).recoveredSigner = row.recoveredSigner := by
  unfold reevaluateRow
  split <;> rfl

/-- Only the last set counts. -/
theorem reevaluateRow_reevaluateRow (first second : List EvmAddress) (row : RevisionRow) :
    reevaluateRow second (reevaluateRow first row) = reevaluateRow second row := by
  unfold reevaluateRow
  by_cases anchored : row.chainAnchor.isSome = true
  · simp [anchored, wantRevoked]
  · simp [anchored]

theorem reevaluateLog_reevaluateLog (first second : List EvmAddress) (log : RevisionTables) :
    reevaluateLog second (reevaluateLog first log) = reevaluateLog second log := by
  unfold reevaluateLog
  simp only [List.map_map]
  congr 2
  funext row
  exact reevaluateRow_reevaluateRow first second row

/-- A sequence of re-evaluations leaves what its last one alone leaves. -/
theorem foldl_reevaluateLog (sets : List (List EvmAddress)) (last : List EvmAddress)
    (log : RevisionTables) :
    (sets ++ [last]).foldl (fun log set => reevaluateLog set log) log =
      reevaluateLog last log := by
  induction sets generalizing log with
  | nil => rfl
  | cons set sets ih =>
      rw [List.cons_append, List.foldl_cons, ih, reevaluateLog_reevaluateLog]

/-- The flag of an anchored row says whether its recovered signer is missing from the
set. -/
theorem revoked_reevaluateRow {set : List EvmAddress} {row : RevisionRow}
    (anchored : row.chainAnchor.isSome) :
    (reevaluateRow set row).revoked = true ↔
      ∀ signer, row.recoveredSigner = some signer → signer ∉ set := by
  unfold reevaluateRow wantRevoked
  rw [if_pos anchored]
  cases signed : row.recoveredSigner with
  | none => simp
  | some signer => simp

end Pangolin.Store
