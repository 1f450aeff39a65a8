import Pangolin.Store.Schema
import Pangolin.Lib.Fallible
import Mathlib.Data.List.Sort

/-!
# Escrow and recovery-recipient rows

The escrow row carries its own epoch, which goes into the second seal of every
guardian row.  Writing an escrow replaces the previous generation; reading it back
opens every guardian row under the VDK presented.
-/

namespace Pangolin.Store

open Symbolic Crypto

/-- `RECOVERY_ESCROW` guardian record as handed to the writer. -/
structure GuardianRecord where
  index : Nat
  guardianPub : X25519Pub
  signer : EvmAddress
  sealedShare : SealedBox
  deriving Repr, DecidableEq

/-- Pair each assignment with the signer at its index. -/
def guardianRecords (assignments : List EscrowAssignment) (signers : List EvmAddress) :
    List GuardianRecord :=
  assignments.map fun assignment =>
    ⟨assignment.index, assignment.guardianPub, signers.getD assignment.index ⟨0⟩,
      assignment.sealedShare⟩

@[simp] theorem guardianRecords_map_index (assignments : List EscrowAssignment)
    (signers : List EvmAddress) :
    (guardianRecords assignments signers).map GuardianRecord.index =
      assignments.map EscrowAssignment.index := by
  simp [guardianRecords, Function.comp_def]

theorem guardianRecords_map_guardianPub (vaultId : VaultId) (epoch : Nat)
    (shares : List Share) (pubs : List X25519Pub) (signers : List EvmAddress) :
    (guardianRecords (sealAssignments vaultId epoch shares pubs) signers).map
        GuardianRecord.guardianPub =
      (shares.zip pubs).map Prod.snd := by
  conv_rhs => rw [← List.zipIdx_map_fst 0 (shares.zip pubs)]
  simp only [guardianRecords, sealAssignments, List.map_map]
  rfl

theorem guardianRecords_map_sealedShare (vaultId : VaultId) (epoch : Nat)
    (shares : List Share) (pubs : List X25519Pub) (signers : List EvmAddress) :
    (guardianRecords (sealAssignments vaultId epoch shares pubs) signers).map
        GuardianRecord.sealedShare =
      (shares.zip pubs).map fun entry => sealShare entry.1 entry.2 vaultId epoch := by
  conv_rhs => rw [← List.zipIdx_map_fst 0 (shares.zip pubs)]
  simp only [guardianRecords, sealAssignments, List.map_map]
  rfl

/-- A guardian row: the record with its share sealed once more under the VDK. -/
def sealGuardian (vaultId : VaultId) (vdk : VdkKey) (epoch : Nat) (record : GuardianRecord) :
    GuardianRow :=
  ⟨record.index, record.guardianPub, record.signer,
    ⟨vdk, ⟨vaultId, epoch, record.index⟩, record.sealedShare⟩⟩

/-- An escrow generation as the writers receive it. -/
structure EscrowGeneration where
  wrappedRecovery : WrappedVdkRecovery
  threshold : Nat
  guardianCount : Nat
  epoch : Nat
  guardians : List GuardianRecord
  deriving Repr, DecidableEq

/-- `write_recovery_escrow_tx`: replace the escrow row and all guardian rows. -/
def writeRecoveryEscrow (vaultId : VaultId) (vdk : VdkKey) (generation : EscrowGeneration) :
    Except StoreError EscrowTables :=
  if ¬ fitsI64 generation.epoch then
    .error (.corrupted "recovery_escrow.epoch overflows i64")
  else
    .ok {
      escrow := some ⟨generation.wrappedRecovery,
        generation.wrappedRecovery.context.schemaVersion, generation.threshold,
        generation.guardianCount, generation.epoch⟩
      guardians := generation.guardians.foldl
        (fun rows record =>
          Table.upsert GuardianRow.index rows
            (sealGuardian vaultId vdk generation.epoch record)) [] }

structure StoredGuardian where
  index : Nat
  guardianPub : X25519Pub
  signer : EvmAddress
  sealedShare : SealedBox
  deriving Repr, DecidableEq

structure StoredRecoveryEscrow where
  wrappedRecovery : WrappedVdkRecovery
  /-- The context readers pair the wrapper with: this vault's id. -/
  wrapContext : WrapContext
  threshold : Nat
  guardianCount : Nat
  epoch : Nat
  guardians : List StoredGuardian
  deriving Repr, DecidableEq

/-- `decode_guardian_row`. -/
def decodeGuardianRow (vaultId : VaultId) (vdk : VdkKey) (epoch : Nat) (row : GuardianRow) :
    Except StoreError StoredGuardian :=
  if row.signer = ⟨0⟩ then
    .error (.corrupted "recovery_guardians.guardian_signer is all-zero")
  else
    match row.encSealedShare.open? vdk ⟨vaultId, epoch, row.index⟩ with
    | none => .error .authenticationFailed
    | some sealedShare => .ok ⟨row.index, row.guardianPub, row.signer, sealedShare⟩

/-- `ORDER BY guardian_index ASC`. -/
def guardianRowsInOrder (rows : List GuardianRow) : List GuardianRow :=
  rows.insertionSort fun first second => first.index ≤ second.index

/-- `read_recovery_escrow`. -/
def readRecoveryEscrow (tables : EscrowTables) (vaultId : VaultId) (vdk : VdkKey) :
    Except StoreError (Option StoredRecoveryEscrow) :=
  match tables.escrow with
  | none => .ok none
  | some row => do
      let guardians ← (guardianRowsInOrder tables.guardians).mapM
        (decodeGuardianRow vaultId vdk row.epoch)
      return some ⟨row.wrappedRecovery, ⟨vaultId, row.wrapSchemaVersion⟩, row.threshold,
        row.guardianCount, row.epoch, guardians⟩

/-! ## What a written generation looks like -/

/-- The tables holding exactly one generation. -/
def EscrowGeneration.tables (generation : EscrowGeneration) (vaultId : VaultId)
    (vdk : VdkKey) : EscrowTables where
  escrow := some ⟨generation.wrappedRecovery, generation.wrappedRecovery.context.schemaVersion,
    generation.threshold, generation.guardianCount, generation.epoch⟩
  guardians := generation.guardians.map (sealGuardian vaultId vdk generation.epoch)

/-- Guardian slots numbered without repetition are stored one row each. -/
theorem writeRecoveryEscrow_eq_ok_iff {vaultId : VaultId} {vdk : VdkKey}
    {generation : EscrowGeneration} {tables : EscrowTables}
    (numbered : (generation.guardians.map GuardianRecord.index).Nodup) :
    writeRecoveryEscrow vaultId vdk generation = .ok tables ↔
      fitsI64 generation.epoch = true ∧ tables = generation.tables vaultId vdk := by
  have rows := Table.foldl_upsert GuardianRow.index []
    (sealGuardian vaultId vdk generation.epoch) generation.guardians
    (by simpa [Function.comp_def, sealGuardian] using numbered) (by simp)
  unfold writeRecoveryEscrow EscrowGeneration.tables
  rw [rows, List.nil_append]
  by_cases fits : fitsI64 generation.epoch = true
  · simp [fits, eq_comm]
  · simp [fits]

/-- Slots numbered in increasing order are read back in that order. -/
theorem guardianRowsInOrder_eq_self {rows : List GuardianRow}
    (ordered : (rows.map GuardianRow.index).Pairwise (· ≤ ·)) :
    guardianRowsInOrder rows = rows :=
  List.Pairwise.insertionSort_eq (List.pairwise_map.mp ordered)

/-- A generation reads back under the key it was written with, record by record. -/
theorem readRecoveryEscrow_tables {vaultId : VaultId} {vdk : VdkKey}
    {generation : EscrowGeneration}
    (ordered : (generation.guardians.map GuardianRecord.index).Pairwise (· ≤ ·))
    (signed : ∀ record ∈ generation.guardians, record.signer ≠ ⟨0⟩) :
    readRecoveryEscrow (generation.tables vaultId vdk) vaultId vdk =
      .ok (some ⟨generation.wrappedRecovery,
        ⟨vaultId, generation.wrappedRecovery.context.schemaVersion⟩, generation.threshold,
        generation.guardianCount, generation.epoch,
        generation.guardians.map fun record =>
          ⟨record.index, record.guardianPub, record.signer, record.sealedShare⟩⟩) := by
  have inOrder : guardianRowsInOrder (generation.tables vaultId vdk).guardians =
      (generation.tables vaultId vdk).guardians :=
    guardianRowsInOrder_eq_self (by
      simpa [EscrowGeneration.tables, Function.comp_def, sealGuardian] using ordered)
  have decoded : (generation.tables vaultId vdk).guardians.mapM
      (decodeGuardianRow vaultId vdk generation.epoch) =
        .ok ((generation.tables vaultId vdk).guardians.map fun row =>
          ⟨row.index, row.guardianPub, row.signer, row.encSealedShare.msg⟩) :=
    Fallible.mapM_eq_ok_map _ (by
      intro row member
      obtain ⟨record, recordMember, rfl⟩ := List.mem_map.mp member
      simp [decodeGuardianRow, sealGuardian, signed record recordMember, Sealed.open?])
  unfold readRecoveryEscrow
  rw [inOrder]
  simp only [EscrowGeneration.tables] at decoded ⊢
  rw [decoded]
  simp [bind, Except.bind, pure, Except.pure, sealGuardian, Function.comp_def]

/-- An escrow that reads back has no all-zero signer. -/
theorem signer_ne_zero_of_read {tables : EscrowTables} {vaultId : VaultId} {vdk : VdkKey}
    {stored : StoredRecoveryEscrow}
    (read : readRecoveryEscrow tables vaultId vdk = .ok (some stored)) {row : GuardianRow}
    (member : row ∈ tables.guardians) : row.signer ≠ ⟨0⟩ := by
  unfold readRecoveryEscrow at read
  cases header : tables.escrow with
  | none => simp [header] at read
  | some escrow =>
      simp only [header, Fallible.bind_eq_ok_iff] at read
      obtain ⟨guardians, decoded, -⟩ := read
      have listed : row ∈ guardianRowsInOrder tables.guardians :=
        (List.perm_insertionSort _ _).mem_iff.mpr member
      obtain ⟨guardian, opened⟩ := Fallible.step_ok_of_mapM decoded listed
      intro zero
      simp [decodeGuardianRow, zero] at opened

/-- Nor has any guardian it returns. -/
theorem storedSigner_ne_zero {tables : EscrowTables} {vaultId : VaultId} {vdk : VdkKey}
    {stored : StoredRecoveryEscrow}
    (read : readRecoveryEscrow tables vaultId vdk = .ok (some stored)) {guardian : StoredGuardian}
    (member : guardian ∈ stored.guardians) : guardian.signer ≠ ⟨0⟩ := by
  unfold readRecoveryEscrow at read
  cases header : tables.escrow with
  | none => simp [header] at read
  | some escrow =>
      simp only [header, Fallible.bind_eq_ok_iff] at read
      obtain ⟨guardians, decoded, equal⟩ := read
      obtain rfl := Option.some.inj (Except.ok.inj equal)
      obtain ⟨row, -, opened⟩ := Fallible.step_of_mem_mapM decoded member
      unfold decodeGuardianRow at opened
      split at opened
      · cases opened
      · next signed =>
          split at opened
          · cases opened
          · obtain rfl := Except.ok.inj opened
            exact signed

/-- Signers listed in slot order end up one per record. -/
theorem guardianRecords_map_signer {assignments : List EscrowAssignment}
    {signers : List EvmAddress}
    (numbered : assignments.map EscrowAssignment.index = List.range' 0 signers.length) :
    (guardianRecords assignments signers).map GuardianRecord.signer = signers := by
  have bySlot : (guardianRecords assignments signers).map GuardianRecord.signer =
      (assignments.map EscrowAssignment.index).map fun index => signers.getD index ⟨0⟩ := by
    simp [guardianRecords, Function.comp_def]
  rw [bySlot, numbered]
  apply List.ext_getElem
  · simp
  · intro index inRange inSigners
    simp [inSigners]

/-! ## Recovery recipients -/

/-- `write_recipient_tx`; one row per target vault. -/
def writeRecipient (recipients : List RecipientRow) (vdk : VdkKey) (target : VaultId)
    (attemptNonce : Nat) (secret : X25519Secret) (pub : X25519Pub) (createdAtUnix : Int) :
    Except StoreError (List RecipientRow) :=
  if ¬ fitsI64 attemptNonce then
    .error (.corrupted "recovery_recipient.attempt_nonce overflows i64")
  else
    .ok (Table.upsert RecipientRow.targetVaultId recipients
      ⟨target, attemptNonce, pub, ⟨vdk, (target, attemptNonce), secret⟩, createdAtUnix⟩)

/-- `peek_recipient_secret`. -/
def peekRecipientSecret (recipients : List RecipientRow) (vdk : VdkKey) (target : VaultId) :
    Except StoreError (Option (Nat × X25519Secret × X25519Pub)) :=
  match Table.lookup RecipientRow.targetVaultId recipients target with
  | none => .ok none
  | some row =>
      match row.encSecret.open? vdk (target, row.attemptNonce) with
      | none => .error .authenticationFailed
      | some secret => .ok (some (row.attemptNonce, secret, row.pub))

/-- `clear_recipient_tx`. -/
def clearRecipient (recipients : List RecipientRow) (target : VaultId) : List RecipientRow :=
  recipients.filter fun row => row.targetVaultId ≠ target

end Pangolin.Store
