import Pangolin.Lib.Reaches
import Pangolin.Runs.SyncInvariant
import Pangolin.System

/-!
# Does chain sync converge?

A sync reads every block once, in the call whose cursor passes it, and compares the blocks
it observed with the chain only while that call lasts.  What a reorg does to a block that
was read earlier is never looked at again; what it does to one read in the same call is
rolled back, but the cursor moves on and the new block is not read.  A checkpoint moved by
the socket, and a signer authorized after its events were skipped, leave events behind in
the same way.

As long as nothing of this kind happens, the anchored rows that are not revoked are the
events of the canonical chain.
-/

namespace Pangolin

open Crypto Store Transition

/-- A vault that never synced: its rows are its own, and the chain it is bound to has no
event of it up to the block where reading starts. -/
structure Unsynced (hash : CanonicalHash) (ledger : Set VerifiedRevisionEvent) (env : ChainEnv)
    (version : RevisionLogVersion) (vaultId : VaultId) (world : SyncWorld) : Prop where
  wellFormed : WellFormed ledger world.blocks
  deployed : ∀ log ∈ vaultEvents vaultId world.blocks, genesisCursor env version < log.blockNumber
  bound : revisionlogVersion world.vault = .ok version
  checkpoint : world.lastSyncedBlock = none
  idle : world.call = none
  unique : (world.vault.disk.log.revisions.map RevisionRow.revisionId).Nodup
  unpublished : ∀ row ∈ world.vault.disk.log.revisions,
    row.chainAnchor = none ∧ row.revoked = false ∧
      ∀ log ∈ ledger, row.revisionId ≠ hash log.event.content

section

variable {hash : CanonicalHash} {ledger : Set VerifiedRevisionEvent} {env : ChainEnv}
variable {version : RevisionLogVersion} {vaultId : VaultId} {world : SyncWorld}

theorem Unsynced.syncInv (start : Unsynced hash ledger env version vaultId world) :
    SyncInv hash ledger env version vaultId world := by
  have unanchored : ∀ row ∈ world.vault.disk.log.revisions, ¬ row.chainAnchor.isSome := by
    intro row stored
    simp [(start.unpublished row stored).1]
  refine ⟨start.wellFormed, start.bound, ⟨⟨start.unique, ?_, ?_, ?_⟩, ?_⟩, ?_, ?_, ?_⟩
  · exact fun row stored => .inr (start.unpublished row stored).2.2
  · intro row stored anchor anchored
    exact absurd (Option.isSome_of_eq_some anchored) (unanchored row stored)
  · exact fun row stored _ => (start.unpublished row stored).2.1
  · exact fun _ row stored anchored => absurd anchored (unanchored row stored)
  · exact fun row stored anchored => absurd anchored (unanchored row stored)
  · intro log onChain read _
    have after := start.deployed log onChain
    simp only [readUpTo, start.idle, Option.map_none, syncedUpTo, start.checkpoint,
      Option.getD_none, max_self] at read
    omega
  · intro call isCall
    rw [start.idle] at isCall
    cases isCall

/-- A sync that reached the head: its backfill is over, the checkpoint is at the last block,
and the device set it works with is still the chain's. -/
def ReachedHead (env : ChainEnv) (version : RevisionLogVersion) (world : SyncWorld) : Prop :=
  ∃ call ∈ world.call, isBackfilling call = false ∧
    currentBlockNumber world.blocks ≤ syncedUpTo env version world ∧
    (version = .v2 → ∀ signer, signer ∈ call.currentSet ↔ signer ∈ world.authorized)

/-- The signer of a row is the signer of its event. -/
theorem SyncInv.signer_of_row (identifies : Identifies hash ledger)
    (inv : SyncInv hash ledger env .v2 vaultId world) {row : RevisionRow}
    (stored : row ∈ world.vault.disk.log.revisions) (anchored : row.chainAnchor.isSome)
    {log : VerifiedRevisionEvent} (onChain : log ∈ vaultEvents vaultId world.blocks)
    (content : log.event.content = rowContent vaultId row) :
    row.recoveredSigner = some log.signer := by
  obtain ⟨other, otherOn, otherContent, signer⟩ := inv.synced.signed rfl row stored anchored
  rw [signer, identifies.signer other otherOn log (inv.wellFormed.onLedger onChain)
    (otherContent.trans content.symm)]

/-- An honoured row is one whose signer passes the gate. -/
theorem SyncInv.revoked_iff {call : SyncCall} (identifies : Identifies hash ledger)
    (inv : SyncInv hash ledger env version vaultId world) (isCall : call ∈ world.call)
    (past : isBackfilling call = false)
    (current : version = .v2 → ∀ signer, signer ∈ call.currentSet ↔ signer ∈ world.authorized)
    {row : RevisionRow} (stored : row ∈ world.vault.disk.log.revisions)
    (anchored : row.chainAnchor.isSome) {log : VerifiedRevisionEvent}
    (onChain : log ∈ vaultEvents vaultId world.blocks)
    (content : log.event.content = rowContent vaultId row) :
    row.revoked = false ↔ passesGate version world.authorized log.signer = true := by
  cases version with
  | v1 => exact iff_of_true (inv.synced.unrevoked row stored (.inl rfl)) rfl
  | v2 =>
      have evaluated := (inv.call call isCall).evaluated past rfl row stored anchored
      have signer := inv.signer_of_row identifies stored anchored onChain content
      rw [evaluated]
      simp [wantRevoked, signer, passesGate, isSignerHonored, current rfl]

/-- Along every run of undisturbed steps, a sync that reached the head holds exactly the
vault's events of the chain. -/
theorem sync_converges {start : SyncWorld} (identifies : Identifies hash ledger)
    (unsynced : Unsynced hash ledger env version vaultId start)
    (run : Reaches (SyncWorld.step hash env vaultId) (Undisturbed ledger env version vaultId)
      start world)
    (reached : ReachedHead env version world) :
    derivedRevisions vaultId world.vault.disk.log.revisions =
      canonicalRevisions version vaultId world.blocks world.authorized := by
  have inv : SyncInv hash ledger env version vaultId world :=
    run.invariant _ (fun _ _ before allowed => before.step identifies allowed) unsynced.syncInv
  obtain ⟨call, isCall, past, atHead, current⟩ := reached
  have onChain : StoredOnChain vaultId world.blocks world.vault.disk.log.revisions := by
    apply inv.storedOnChain
    apply not_holdsOrphan
    intro other isOther
    obtain rfl := Option.some.inj (isCall.symm.trans isOther)
    exact past
  ext content
  constructor
  · rintro ⟨row, stored, anchored, honoured, rfl⟩
    obtain ⟨log, canonical, content⟩ := onChain row stored anchored
    exact ⟨log, canonical,
      (inv.revoked_iff identifies isCall past current stored anchored canonical
        content).mp honoured,
      content⟩
  · rintro ⟨log, canonical, passes, rfl⟩
    have read : log.blockNumber ≤ readUpTo env version world :=
      ((inv.wellFormed.blockHashAt canonical).2.trans atHead).trans
        (syncedUpTo_le_readUpTo world)
    obtain ⟨row, stored, anchored, content⟩ := inv.complete log canonical read passes
    exact ⟨row, stored, anchored,
      (inv.revoked_iff identifies isCall past current stored anchored canonical
        content.symm).mpr passes,
      content⟩

end

namespace ConvergenceSample

/-- An event of vault 7 that creates an account. -/
def created (account blockNumber blockHash : Nat) : VerifiedRevisionEvent :=
  ⟨⟨⟨⟨7⟩, ⟨account⟩, .genesisParent, ⟨9⟩, 2, .bytes [1]⟩, ⟨account, blockNumber, 0⟩⟩, ⟨5⟩,
    blockHash⟩

/-- A new vault, and a chain with an event in its first block. -/
def start : SyncWorld :=
  ⟨Sample.vault, none, [⟨10, 0, []⟩, ⟨11, 10, [created 1 1 11]⟩, ⟨12, 11, []⟩], [], none⟩

/-- A sync whose blocks fit in one chunk. -/
def sync : List SyncWorld.SyncOp :=
  [.startSync ⟨false, none, false⟩, .callStep (.ingestChunk 0 0), .callStep .settleChunk,
    .callStep .endBackfill]

/-- While a sync runs, its blocks give way to three others; then it runs once more. -/
def watched : List SyncWorld.SyncOp :=
  [.startSync ⟨false, none, false⟩, .callStep (.ingestChunk 0 0),
    .reorg 2 [⟨21, 10, []⟩, ⟨22, 21, []⟩, ⟨23, 22, [created 2 3 23]⟩],
    .callStep .settleChunk, .callStep .endBackfill] ++ sync

/-- The same between two syncs, with the new event in a block that was read. -/
def unwatched : List SyncWorld.SyncOp :=
  sync ++ [.reorg 2 [⟨21, 10, [created 2 1 21]⟩, ⟨22, 21, []⟩, ⟨23, 22, []⟩]] ++ sync

def run (ops : List SyncWorld.SyncOp) : SyncWorld :=
  ops.foldl (SyncWorld.step Sample.hash .dev ⟨7⟩) start

def events : List VerifiedRevisionEvent := [created 1 1 11, created 2 3 23, created 2 1 21]

def ledger : Set VerifiedRevisionEvent := {log | log ∈ events}

theorem identifies : Identifies Sample.hash ledger :=
  ⟨show ∀ log ∈ events, ∀ other ∈ events, _ by decide,
    show ∀ log ∈ events, ∀ other ∈ events, _ by decide,
    show ∀ log ∈ events, ∀ other ∈ events, _ by decide,
    show ∀ log ∈ events, _ by decide⟩

theorem wellFormed {blocks : Blocks}
    (linked : blocks.IsChain fun block next => next.parentHash = block.hash)
    (placed : ∀ entry ∈ blocks.zipIdx, ∀ log ∈ entry.1.logs,
      log.blockNumber = entry.2 ∧ log.blockHash = entry.1.hash)
    (known : ∀ block ∈ blocks, ∀ log ∈ block.logs, log ∈ events) : WellFormed ledger blocks :=
  ⟨linked, placed, known⟩

theorem unsynced : Unsynced Sample.hash ledger .dev .v1 ⟨7⟩ start := by
  refine ⟨wellFormed (by decide) (by decide) (by decide), by decide, rfl, rfl, rfl, by decide, ?_⟩
  intro row member
  cases member

theorem possible : Allowed (SyncWorld.step Sample.hash .dev ⟨7⟩) (Possible ledger ⟨7⟩) start
    unwatched := by
  refine ⟨trivial, trivial, trivial, trivial, ⟨?_, ?_⟩, trivial, trivial, trivial, trivial,
    trivial⟩
  · decide
  · exact wellFormed (by decide +kernel) (by decide +kernel) (by decide +kernel)

/-- The row of the first fork is pending when its block goes. -/
theorem orphaned : ∀ row ∈ (run (watched.take 2)).vault.disk.log.revisions,
    row.status = .pending ∧ row.observedAtBlock = some 1 := by
  decide +kernel

theorem undisturbed : Allowed (SyncWorld.step Sample.hash .dev ⟨7⟩)
    (Undisturbed ledger .dev .v1 ⟨7⟩) start watched := by
  refine ⟨⟨trivial, trivial⟩, ⟨trivial, trivial⟩, ⟨⟨?_, ?_⟩, ⟨?_, ?_⟩⟩, ⟨trivial, ?_⟩,
    ⟨trivial, ?_⟩, ⟨trivial, trivial⟩, ⟨trivial, trivial⟩, ⟨trivial, ?_⟩, ⟨trivial, ?_⟩, trivial⟩
  · decide
  · exact wellFormed (by decide +kernel) (by decide +kernel) (by decide +kernel)
  · decide +kernel
  · intro row stored _
    obtain ⟨pending, observedAt⟩ := orphaned row stored
    exact .inr ⟨_, rfl, rfl, pending, 1, 11, observedAt, by decide +kernel, by decide +kernel,
      by decide +kernel⟩
  · unfold RollsBackGone
    decide +kernel
  · apply noOrphan_of_silent
    decide +kernel
  · unfold RollsBackGone
    decide +kernel
  · apply noOrphan_of_silent
    decide +kernel

theorem reachedHead (ops : List SyncWorld.SyncOp)
    (caughtUp : (run ops).call.any fun call => !isBackfilling call &&
      decide (currentBlockNumber (run ops).blocks ≤ syncedUpTo .dev .v1 (run ops))) :
    ReachedHead .dev .v1 (run ops) := by
  obtain ⟨call, isCall, holds⟩ := (Option.any_eq_true _ _).mp caughtUp
  simp only [Bool.and_eq_true, Bool.not_eq_true', decide_eq_true_eq] at holds
  exact ⟨call, isCall, holds.1, holds.2, fun second => nomatch second⟩

end ConvergenceSample

/-- The event of the abandoned fork is rolled back, the one of the new fork is read. -/
theorem sync_converges_watched :
    (ConvergenceSample.created 2 3 23).event.content ∈ derivedRevisions ⟨7⟩
        (ConvergenceSample.run ConvergenceSample.watched).vault.disk.log.revisions ∧
      (ConvergenceSample.created 1 1 11).event.content ∉ derivedRevisions ⟨7⟩
        (ConvergenceSample.run ConvergenceSample.watched).vault.disk.log.revisions := by
  have run : Reaches (SyncWorld.step Sample.hash .dev ⟨7⟩)
      (Undisturbed ConvergenceSample.ledger .dev .v1 ⟨7⟩) ConvergenceSample.start
      (ConvergenceSample.run ConvergenceSample.watched) :=
    .foldl ConvergenceSample.watched ConvergenceSample.undisturbed
  rw [sync_converges ConvergenceSample.identifies ConvergenceSample.unsynced run
    (ConvergenceSample.reachedHead ConvergenceSample.watched (by decide +kernel))]
  constructor
  · show ∃ log ∈ _, _
    decide +kernel
  · rintro ⟨log, canonical, -, content⟩
    revert log
    decide +kernel

/-- A reorg between two syncs: the second one keeps the event of the abandoned fork and
never reads the one in its place. -/
theorem sync_misses_reorged_event :
    Identifies Sample.hash ConvergenceSample.ledger ∧
      Unsynced Sample.hash ConvergenceSample.ledger .dev .v1 ⟨7⟩ ConvergenceSample.start ∧
      Reaches (SyncWorld.step Sample.hash .dev ⟨7⟩) (Possible ConvergenceSample.ledger ⟨7⟩)
        ConvergenceSample.start (ConvergenceSample.run ConvergenceSample.unwatched) ∧
      ReachedHead .dev .v1 (ConvergenceSample.run ConvergenceSample.unwatched) ∧
      derivedRevisions ⟨7⟩
          (ConvergenceSample.run ConvergenceSample.unwatched).vault.disk.log.revisions ≠
        canonicalRevisions .v1 ⟨7⟩ (ConvergenceSample.run ConvergenceSample.unwatched).blocks
          (ConvergenceSample.run ConvergenceSample.unwatched).authorized := by
  refine ⟨ConvergenceSample.identifies, ConvergenceSample.unsynced,
    .foldl ConvergenceSample.unwatched ConvergenceSample.possible,
    ConvergenceSample.reachedHead ConvergenceSample.unwatched (by decide +kernel), ?_⟩
  intro converged
  have abandoned : (ConvergenceSample.created 1 1 11).event.content ∈ derivedRevisions ⟨7⟩
      (ConvergenceSample.run ConvergenceSample.unwatched).vault.disk.log.revisions := by
    unfold derivedRevisions
    show ∃ row ∈ _, _
    decide +kernel
  rw [converged] at abandoned
  obtain ⟨log, canonical, -, content⟩ := abandoned
  revert log
  decide +kernel

end Pangolin
