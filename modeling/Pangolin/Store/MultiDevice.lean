import Pangolin.Store.Vault

/-!
# Pending rotations

A device that leaves the on-chain set is recorded in a table keyed by its signer, so that
a closed app resumes the rotation it still owes.  Queueing ignores a signer that is
already there; resolving keeps the row and marks it.
-/

namespace Pangolin.Store

open Crypto

/-- `queue_rotation_pending`; returns whether a row was inserted. -/
def queueRotationPending (rows : List RotationPending) (removedSigner : EvmAddress)
    (observedEpoch : Nat) (observedAt : Int) : Except StoreError (List RotationPending × Bool) :=
  if ¬ fitsI64 observedEpoch then
    .error (.corrupted "rotation_pending.observed_epoch overflow")
  else
    .ok (Table.insertIgnore RotationPending.removedSigner rows
        ⟨removedSigner, observedEpoch, observedAt, false⟩,
      !rows.any fun row => row.removedSigner = removedSigner)

/-- `ORDER BY observed_at ASC, removed_signer ASC`. -/
def RotationPending.before (first second : RotationPending) : Bool :=
  decide (first.observedAt < second.observedAt) ||
    (decide (first.observedAt = second.observedAt) &&
      decide (first.removedSigner.raw ≤ second.removedSigner.raw))

/-- `read_pending_rotations`: the unresolved rows. -/
def readPendingRotations (rows : List RotationPending) : List RotationPending :=
  (rows.filter fun row => !row.resolved).mergeSort RotationPending.before

/-- `process_device_removed_trigger`: queue every known signer that is not in the set;
returns how many rows are new. -/
def processDeviceRemovedTrigger (onchain : List EvmAddress) (observedEpoch : Nat) (nowMs : Int)
    (rows : List RotationPending) : List EvmAddress → Except StoreError (List RotationPending × Nat)
  | [] => .ok (rows, 0)
  | signer :: known =>
      if signer ∈ onchain then
        processDeviceRemovedTrigger onchain observedEpoch nowMs rows known
      else do
        let (rows, inserted) ← queueRotationPending rows signer observedEpoch nowMs
        let (rows, queued) ← processDeviceRemovedTrigger onchain observedEpoch nowMs rows known
        return (rows, if inserted then queued + 1 else queued)

theorem mem_readPendingRotations {rows : List RotationPending} {row : RotationPending} :
    row ∈ readPendingRotations rows ↔ row ∈ rows ∧ row.resolved = false := by
  simp [readPendingRotations]

/-- The signer has a row that is not resolved yet. -/
def Outstanding (rows : List RotationPending) (signer : EvmAddress) : Prop :=
  ∃ row ∈ rows, row.removedSigner = signer ∧ row.resolved = false

/-- Queueing keeps what is outstanding. -/
theorem Outstanding.queue {rows rows' : List RotationPending} {signer removed : EvmAddress}
    {observedEpoch : Nat} {observedAt : Int} {inserted : Bool}
    (outstanding : Outstanding rows signer)
    (queued : queueRotationPending rows removed observedEpoch observedAt = .ok (rows', inserted)) :
    Outstanding rows' signer := by
  unfold queueRotationPending at queued
  split at queued
  · cases queued
  · obtain ⟨rfl, -⟩ := Prod.mk.inj (Except.ok.inj queued)
    obtain ⟨row, member, sameSigner, unresolved⟩ := outstanding
    refine ⟨row, ?_, sameSigner, unresolved⟩
    unfold Table.insertIgnore
    split
    · exact member
    · exact List.mem_append_left _ member

/-- A queued signer is outstanding exactly when the rows it already had are not all
resolved. -/
theorem outstanding_queue_iff {rows rows' : List RotationPending} {removed : EvmAddress}
    {observedEpoch : Nat} {observedAt : Int} {inserted : Bool}
    (queued : queueRotationPending rows removed observedEpoch observedAt = .ok (rows', inserted)) :
    Outstanding rows' removed ↔
      (∀ row ∈ rows, row.removedSigner ≠ removed) ∨ Outstanding rows removed := by
  unfold queueRotationPending at queued
  split at queued
  · cases queued
  · obtain ⟨rfl, -⟩ := Prod.mk.inj (Except.ok.inj queued)
    unfold Table.insertIgnore
    split
    · next present =>
        obtain ⟨row, member, same⟩ := List.any_eq_true.mp present
        constructor
        · exact .inr
        · rintro (absent | outstanding)
          · exact absurd (by simpa using same) (absent row member)
          · exact outstanding
    · next absent =>
        constructor
        · intro _
          refine .inl ?_
          intro row member same
          exact absent (List.any_eq_true.mpr ⟨row, member, by simpa using same⟩)
        · intro _
          exact ⟨_, List.mem_append_right _ (List.mem_singleton.mpr rfl), rfl, rfl⟩

/-- Every other signer keeps the rows it had. -/
theorem mem_queue_of_ne {rows rows' : List RotationPending} {removed : EvmAddress}
    {observedEpoch : Nat} {observedAt : Int} {inserted : Bool} {row : RotationPending}
    (queued : queueRotationPending rows removed observedEpoch observedAt = .ok (rows', inserted))
    (member : row ∈ rows') (other : row.removedSigner ≠ removed) : row ∈ rows := by
  unfold queueRotationPending at queued
  split at queued
  · cases queued
  · obtain ⟨rfl, -⟩ := Prod.mk.inj (Except.ok.inj queued)
    unfold Table.insertIgnore at member
    split at member
    · exact member
    · rcases List.mem_append.mp member with old | new
      · exact old
      · rw [List.mem_singleton.mp new] at other
        exact absurd rfl other

/-- The trigger fails only on an epoch that does not fit its column. -/
theorem processDeviceRemovedTrigger_ok (onchain : List EvmAddress) {observedEpoch : Nat}
    (nowMs : Int) (rows : List RotationPending) (known : List EvmAddress)
    (fits : fitsI64 observedEpoch = true) :
    ∃ rows' queued, processDeviceRemovedTrigger onchain observedEpoch nowMs rows known =
      .ok (rows', queued) := by
  induction known generalizing rows with
  | nil => exact ⟨rows, 0, rfl⟩
  | cons signer known ih =>
      unfold processDeviceRemovedTrigger
      split
      · exact ih rows
      · simp only [queueRotationPending, fits, not_true_eq_false, if_false]
        obtain ⟨rows', queued, rest⟩ := ih (Table.insertIgnore RotationPending.removedSigner rows
          ⟨signer, observedEpoch, nowMs, false⟩)
        exact ⟨rows', _, Fallible.bind_eq_ok_iff.mpr
          ⟨_, rfl, Fallible.bind_eq_ok_iff.mpr ⟨_, rest, rfl⟩⟩⟩

/-- The trigger makes a removed signer outstanding unless its only row is resolved, and
keeps what is outstanding. -/
theorem outstanding_trigger {onchain known : List EvmAddress} {observedEpoch : Nat}
    {nowMs : Int} {rows rows' : List RotationPending} {queued : Nat} {signer : EvmAddress}
    (processed : processDeviceRemovedTrigger onchain observedEpoch nowMs rows known =
      .ok (rows', queued))
    (owed : Outstanding rows signer ∨
      (signer ∈ known ∧ signer ∉ onchain ∧ ∀ row ∈ rows, row.removedSigner ≠ signer)) :
    Outstanding rows' signer := by
  induction known generalizing rows queued with
  | nil =>
      obtain ⟨rfl, -⟩ := Prod.mk.inj (Except.ok.inj processed)
      rcases owed with outstanding | ⟨listed, -⟩
      · exact outstanding
      · cases listed
  | cons head known ih =>
      unfold processDeviceRemovedTrigger at processed
      split at processed
      · next stays =>
          apply ih processed
          rcases owed with outstanding | ⟨listed, absent, fresh⟩
          · exact .inl outstanding
          · rcases List.mem_cons.mp listed with rfl | later
            · exact absurd stays absent
            · exact .inr ⟨later, absent, fresh⟩
      · obtain ⟨⟨next, inserted⟩, first, rest⟩ := Fallible.bind_eq_ok_iff.mp processed
        obtain ⟨⟨last, count⟩, later, equal⟩ := Fallible.bind_eq_ok_iff.mp rest
        obtain ⟨rfl, -⟩ := Prod.mk.inj (Except.ok.inj equal)
        apply ih later
        rcases owed with outstanding | ⟨listed, absent, fresh⟩
        · exact .inl (outstanding.queue first)
        · by_cases same : signer = head
          · subst same
            exact .inl ((outstanding_queue_iff first).mpr (.inl fresh))
          · refine .inr ⟨(List.mem_cons.mp listed).resolve_left same, absent, ?_⟩
            intro row member equal
            have other : row.removedSigner ≠ head := fun again => same (equal.symm.trans again)
            exact fresh row (mem_queue_of_ne first member other) equal

end Pangolin.Store
