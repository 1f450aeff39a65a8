import Pangolin.Runs.SyncedRows

/-!
# Chain sync over reorgs

The steps of a chain and of the calls that read it, and what holds after each of them: the
rows of blocks that are still there are complete up to the block that was read, and a row
of a block that is gone waits for the detector of the running backfill.
-/

namespace Pangolin

open Crypto Store

/-! ## Histories -/

/-- A chain of ledger events: every block names its parent and holds events of its own
number and hash. -/
structure WellFormed (ledger : Set VerifiedRevisionEvent) (blocks : Blocks) : Prop where
  linked : blocks.IsChain fun block next => next.parentHash = block.hash
  placed : ∀ entry ∈ blocks.zipIdx, ∀ log ∈ entry.1.logs,
    log.blockNumber = entry.2 ∧ log.blockHash = entry.1.hash
  known : ∀ block ∈ blocks, ∀ log ∈ block.logs, log ∈ ledger

/-- What the chain can do: reorgs within the confirmation depth, and a socket that delivers
events of the vault. -/
def Possible (ledger : Set VerifiedRevisionEvent) (vaultId : VaultId) (world : SyncWorld) :
    SyncWorld.SyncOp → Prop
  | .reorg depth fresh =>
      depth ≤ confirmationDepth ∧ WellFormed ledger (world.reorged depth fresh)
  | .callStep (.receive logs _ _) =>
      ∀ log ∈ logs, log ∈ ledger ∧ log.event.content.vaultId = vaultId
  | _ => True

/-- The block up to which a vault counts as synced. -/
def syncedUpTo (env : ChainEnv) (version : RevisionLogVersion) (world : SyncWorld) : Nat :=
  max (genesisCursor env version) (world.lastSyncedBlock.getD (genesisCursor env version))

/-- The block up to which it has read: a chunk may be stored with the checkpoint still
behind it. -/
def readUpTo (env : ChainEnv) (version : RevisionLogVersion) (world : SyncWorld) : Nat :=
  match world.call.map SyncCall.stage with
  | some (.ingested chunkEnd) => max (syncedUpTo env version world) chunkEnd
  | _ => syncedUpTo env version world

/-- The call still reads chunks. -/
def isBackfilling (call : SyncCall) : Bool :=
  match call.stage with
  | .backfill => true
  | .ingested _ => true
  | _ => false

/-- The event of a row is on the chain. -/
def OnChain (vaultId : VaultId) (blocks : Blocks) (row : RevisionRow) : Prop :=
  ∃ log ∈ vaultEvents vaultId blocks, log.event.content = rowContent vaultId row

/-- A pending row of a block that the running backfill has observed and the chain no longer
has, near enough to the head to be still observed when the detector looks. -/
structure Orphaned (blocks : Blocks) (call : SyncCall) (row : RevisionRow) : Prop where
  backfilling : isBackfilling call = true
  pending : row.status = .pending
  diverged : ∃ number blockHash, row.observedAtBlock = some number ∧
    (number, blockHash) ∈ call.detector.observed ∧
    blockHashAt blocks number ≠ some blockHash ∧ call.head ≤ number + confirmationDepth * 2

def HoldsOrphan (world : SyncWorld) : Prop :=
  ∃ row ∈ world.vault.disk.log.revisions, ∃ call ∈ world.call, Orphaned world.blocks call row

/-- A reorg that brings no event into a block that was read, and takes a stored event away
only with a block the running backfill has observed. -/
structure SparesRead (env : ChainEnv) (version : RevisionLogVersion) (vaultId : VaultId)
    (world : SyncWorld) (blocks : Blocks) : Prop where
  bringsNone : ∀ log ∈ vaultEvents vaultId blocks, log.blockNumber ≤ readUpTo env version world →
    ∃ old ∈ vaultEvents vaultId world.blocks, old.blockNumber ≤ readUpTo env version world ∧
      old.event.content = log.event.content
  takesObserved : ∀ row ∈ world.vault.disk.log.revisions, row.chainAnchor.isSome →
    OnChain vaultId blocks row ∨ ∃ call ∈ world.call, Orphaned blocks call row

/-- What the detector reports is gone: an event of a row that would be rolled back is on the
chain only where it is still to be read. -/
def RollsBackGone (env : ChainEnv) (version : RevisionLogVersion) (vaultId : VaultId)
    (world : SyncWorld) : Prop :=
  ∀ call ∈ world.call, ∀ info ∈ call.detector.detectReorg world.blocks,
    ∀ row ∈ world.vault.disk.log.revisions, row.chainAnchor.isSome →
    rolledBackBy info.affectedBlockLow info.affectedBlockHigh row = true →
    ∀ log ∈ vaultEvents vaultId world.blocks, log.event.content = rowContent vaultId row →
      readUpTo env version world < log.blockNumber

/-- A device set that makes no skipped event count: whatever its signers published in a
block that was read is stored, and a running call knows all of them. -/
structure SparesSkipped (env : ChainEnv) (version : RevisionLogVersion) (vaultId : VaultId)
    (world : SyncWorld) (authorized : List EvmAddress) : Prop where
  stored : ∀ log ∈ vaultEvents vaultId world.blocks, log.blockNumber ≤ readUpTo env version world →
    log.signer ∈ authorized →
      log.event.content ∈ storedContents vaultId world.vault.disk.log.revisions
  known : ∀ call ∈ world.call, call.stage ≠ .returned → ∀ signer ∈ authorized,
    signer ∈ call.currentSet

/-- The socket delivers canonical events, and leaves out none at or below their blocks that
the checkpoint has not passed. -/
structure DeliversAll (env : ChainEnv) (version : RevisionLogVersion) (vaultId : VaultId)
    (world : SyncWorld) (logs : List VerifiedRevisionEvent) : Prop where
  canonical : ∀ log ∈ logs, log ∈ vaultEvents vaultId world.blocks
  gapless : ∀ log ∈ vaultEvents vaultId world.blocks,
    passesGate version world.authorized log.signer = true →
    (∃ newest ∈ logs, log.blockNumber ≤ newest.blockNumber) →
      log ∈ logs ∨ log.blockNumber ≤ syncedUpTo env version world

/-- A step after which sync catches up: the chain changes nothing that was read except under
the eyes of the detector, the detector rolls back only what is gone, and a backfill does not
end while it still holds a row of a block that is gone. -/
def Undisturbed (ledger : Set VerifiedRevisionEvent) (env : ChainEnv)
    (version : RevisionLogVersion) (vaultId : VaultId) (world : SyncWorld)
    (op : SyncWorld.SyncOp) : Prop :=
  Possible ledger vaultId world op ∧
    match op with
    | .reorg depth fresh => SparesRead env version vaultId world (world.reorged depth fresh)
    | .authorize authorized =>
        version = .v2 → SparesSkipped env version vaultId world authorized
    | .callStep .settleChunk => RollsBackGone env version vaultId world
    | .callStep .endBackfill => ¬ HoldsOrphan world
    | .callStep .fail => ¬ HoldsOrphan world
    | .callStep (.receive logs _ _) => DeliversAll env version vaultId world logs
    | _ => True

/-- The rows a vault honours: anchored and not revoked. -/
def derivedRevisions (vaultId : VaultId) (revisions : List RevisionRow) : Set RevisionContent :=
  {content | ∃ row ∈ revisions, row.chainAnchor.isSome ∧ row.revoked = false ∧
    rowContent vaultId row = content}

/-- The vault's events on the chain; on the second log, those of authorized signers. -/
def canonicalRevisions (version : RevisionLogVersion) (vaultId : VaultId) (blocks : Blocks)
    (authorized : List EvmAddress) : Set RevisionContent :=
  {content | ∃ log ∈ vaultEvents vaultId blocks,
    passesGate version authorized log.signer = true ∧ log.event.content = content}

/-! ## The invariant -/

/-- The block up to which a backfill has read. -/
def lastRead (call : SyncCall) : Nat :=
  match call.stage with
  | .ingested chunkEnd => chunkEnd
  | _ => call.cursor

structure CallInv (env : ChainEnv) (version : RevisionLogVersion) (world : SyncWorld)
    (call : SyncCall) : Prop where
  ofVersion : call.version = version
  cursor : call.cursor ≤ syncedUpTo env version world
  known : call.stage ≠ .returned → version = .v2 →
    ∀ signer ∈ world.authorized, signer ∈ call.currentSet
  observed : isBackfilling call = true → call.detector.tip ≤ call.head ∧
    ∀ entry ∈ call.detector.observed, fitsI64 entry.1 = true ∧ entry.1 ≤ lastRead call
  evaluated : isBackfilling call = false → version = .v2 →
    Evaluated call.currentSet world.vault.disk.log.revisions

structure SyncInv (hash : CanonicalHash) (ledger : Set VerifiedRevisionEvent) (env : ChainEnv)
    (version : RevisionLogVersion) (vaultId : VaultId) (world : SyncWorld) : Prop where
  wellFormed : WellFormed ledger world.blocks
  bound : revisionlogVersion world.vault = .ok version
  synced : SyncedRows hash ledger version vaultId world.vault.disk.log.revisions
  sound : ∀ row ∈ world.vault.disk.log.revisions, row.chainAnchor.isSome →
    OnChain vaultId world.blocks row ∨ ∃ call ∈ world.call, Orphaned world.blocks call row
  complete : ∀ log ∈ vaultEvents vaultId world.blocks,
    log.blockNumber ≤ readUpTo env version world →
    passesGate version world.authorized log.signer = true →
      log.event.content ∈ storedContents vaultId world.vault.disk.log.revisions
  call : ∀ call ∈ world.call, CallInv env version world call

section

variable {hash : CanonicalHash} {ledger : Set VerifiedRevisionEvent} {env : ChainEnv}
variable {version : RevisionLogVersion} {vaultId : VaultId} {world : SyncWorld}

/-! ### Facts about the parts -/

theorem mem_vaultEvents {blocks : Blocks} {log : VerifiedRevisionEvent} :
    log ∈ vaultEvents vaultId blocks ↔
      (∃ block ∈ blocks, log ∈ block.logs) ∧ log.event.content.vaultId = vaultId := by
  simp [vaultEvents]

theorem WellFormed.onLedger {blocks : Blocks} (wellFormed : WellFormed ledger blocks)
    {log : VerifiedRevisionEvent} (canonical : log ∈ vaultEvents vaultId blocks) :
    log ∈ ledger := by
  obtain ⟨⟨block, member, inBlock⟩, -⟩ := mem_vaultEvents.mp canonical
  exact wellFormed.known block member log inBlock

/-- An event of the chain is in the block of its number. -/
theorem WellFormed.blockHashAt {blocks : Blocks} (wellFormed : WellFormed ledger blocks)
    {log : VerifiedRevisionEvent} (canonical : log ∈ vaultEvents vaultId blocks) :
    Store.blockHashAt blocks log.blockNumber = some log.blockHash ∧
      log.blockNumber ≤ currentBlockNumber blocks := by
  obtain ⟨⟨block, member, inBlock⟩, -⟩ := mem_vaultEvents.mp canonical
  obtain ⟨number, inRange, rfl⟩ := List.mem_iff_getElem.mp member
  have entry : (blocks[number], number) ∈ blocks.zipIdx := by
    rw [List.mem_zipIdx_iff_getElem?]
    exact List.getElem?_eq_getElem inRange
  obtain ⟨sameNumber, sameHash⟩ := wellFormed.placed _ entry log inBlock
  simp only at sameNumber sameHash
  rw [sameNumber]
  refine ⟨?_, ?_⟩
  · rw [Store.blockHashAt, List.getElem?_eq_getElem inRange, sameHash]
    rfl
  · unfold currentBlockNumber
    omega

theorem passesGate_mono {first second : List EvmAddress} {signer : EvmAddress}
    (known : version = .v2 → ∀ signer ∈ first, signer ∈ second)
    (passes : passesGate version first signer = true) :
    passesGate version second signer = true := by
  cases version with
  | v1 => rfl
  | v2 =>
      simp only [passesGate, isSignerHonored, List.contains_iff_mem] at passes ⊢
      exact known rfl signer passes

/-- What the detector reports spans every observed block that is not the chain's, and
begins and ends with one. -/
theorem detectReorg_eq_some {detector : ReorgDetector} {blocks : Blocks} {info : ReorgInfo}
    (reported : detector.detectReorg blocks = some info) :
    (∀ entry ∈ detector.observed, Store.blockHashAt blocks entry.1 ≠ some entry.2 →
      info.affectedBlockLow ≤ entry.1 ∧ entry.1 ≤ info.affectedBlockHigh) ∧
    (∃ entry ∈ detector.observed, entry.1 = info.affectedBlockLow) ∧
    ∃ entry ∈ detector.observed, entry.1 = info.affectedBlockHigh := by
  unfold ReorgDetector.detectReorg at reported
  simp only at reported
  split at reported
  · next low high lowest highest =>
      obtain rfl := Option.some.inj reported
      obtain ⟨lowMember, least⟩ := List.min?_eq_some_iff.mp lowest
      obtain ⟨highMember, greatest⟩ := List.max?_eq_some_iff.mp highest
      refine ⟨?_, ?_, ?_⟩
      · intro entry member diverged
        have listed : entry.1 ∈ (detector.observed.filter fun entry =>
            Store.blockHashAt blocks entry.1 ≠ some entry.2).map Prod.fst :=
          List.mem_map_of_mem (List.mem_filter.mpr ⟨member, by simpa using diverged⟩)
        exact ⟨least _ listed, greatest _ listed⟩
      · obtain ⟨entry, member, same⟩ := List.mem_map.mp lowMember
        exact ⟨entry, (List.mem_filter.mp member).1, same⟩
      · obtain ⟨entry, member, same⟩ := List.mem_map.mp highMember
        exact ⟨entry, (List.mem_filter.mp member).1, same⟩
  · cases reported

/-- A detector that reports nothing has observed blocks of the chain only. -/
theorem detectReorg_eq_none {detector : ReorgDetector} {blocks : Blocks}
    (silent : detector.detectReorg blocks = none) {entry : Nat × Nat}
    (member : entry ∈ detector.observed) :
    Store.blockHashAt blocks entry.1 = some entry.2 := by
  by_contra diverged
  have listed : entry.1 ∈ (detector.observed.filter fun entry =>
      Store.blockHashAt blocks entry.1 ≠ some entry.2).map Prod.fst :=
    List.mem_map_of_mem (List.mem_filter.mpr ⟨member, by simpa using diverged⟩)
  unfold ReorgDetector.detectReorg at silent
  simp only at silent
  split at silent
  · cases silent
  · next none =>
      obtain ⟨low, lowest⟩ := Option.isSome_iff_exists.mp
        (List.isSome_min?_of_mem listed)
      obtain ⟨high, highest⟩ := Option.isSome_iff_exists.mp
        (List.isSome_max?_of_mem listed)
      exact none low high lowest highest

theorem updateLastSyncedBlock_eq_ok {lastSyncedBlock updated : Option Nat} {newBlock : Nat}
    (stored : updateLastSyncedBlock lastSyncedBlock newBlock = .ok updated) :
    updated = some newBlock := by
  unfold updateLastSyncedBlock at stored
  split at stored
  · cases stored
  split at stored
  · next same =>
      obtain rfl := Except.ok.inj stored
      obtain ⟨value, isSome⟩ := Option.isSome_iff_exists.mp same.2
      rw [isSome] at same ⊢
      rw [same.1]
      rfl
  split at stored
  · cases stored
  · exact (Except.ok.inj stored).symm

/-- A promotion changes finality only. -/
theorem promoteFinalized_rows (vault : Vault) (head : Nat) :
    ∃ change : RevisionRow → RevisionRow,
      (promoteFinalizedRevisions vault head).1.disk.log.revisions =
        vault.disk.log.revisions.map change ∧
      ∀ row, SameTrace row (change row) ∧ (change row).recoveredSigner = row.recoveredSigner := by
  unfold promoteFinalizedRevisions promoteFinalizedLog
  simp only
  split
  · exact ⟨id, by simp [atomically], fun row => ⟨.refl row, rfl⟩⟩
  · refine ⟨_, rfl, ?_⟩
    intro row
    split
    · exact ⟨⟨rfl, fun _ => rfl, rfl, rfl⟩, rfl⟩
    · exact ⟨.refl row, rfl⟩

theorem promoteFinalized_reads {vault : Vault}
    (synced : SyncedRows hash ledger version vaultId vault.disk.log.revisions)
    (currentSet : List EvmAddress) (head : Nat) :
    Reads hash ledger version vaultId currentSet vault (promoteFinalizedRevisions vault head).1
      ∅ := by
  obtain ⟨change, revisions, same⟩ := promoteFinalized_rows vault head
  have keys := (promoteFinalized_logOnly vault head).keys
  refine ⟨?_, ?_, ?_, by rw [keys]⟩
  · rw [revisions]
    refine ⟨synced.toTracedRows.map fun row => (same row).1, ?_⟩
    intro second row member anchored
    obtain ⟨old, stored, rfl⟩ := List.mem_map.mp member
    rw [(same old).1.chainAnchor] at anchored
    rw [(same old).1.content, (same old).2]
    exact synced.signed second old stored anchored
  · rw [revisions, storedContents_map vaultId _ fun row => (same row).1, Set.empty_union]
  · intro second evaluated row member anchored
    rw [revisions] at member
    obtain ⟨old, stored, rfl⟩ := List.mem_map.mp member
    rw [(same old).1.chainAnchor] at anchored
    rw [(same old).1.revoked, evaluated old stored anchored]
    simp only [wantRevoked, (same old).2]

/-! ### Steps that read -/

theorem syncedUpTo_le_readUpTo (world : SyncWorld) :
    syncedUpTo env version world ≤ readUpTo env version world := by
  unfold readUpTo
  split
  · exact le_max_left _ _
  · exact le_rfl

theorem readUpTo_congr {world world' : SyncWorld}
    (checkpoint : world'.lastSyncedBlock = world.lastSyncedBlock)
    (stage : world'.call.map SyncCall.stage = world.call.map SyncCall.stage) :
    readUpTo env version world' = readUpTo env version world := by
  simp only [readUpTo, syncedUpTo, checkpoint, stage]

/-- Every stored event is on the chain. -/
def StoredOnChain (vaultId : VaultId) (blocks : Blocks) (revisions : List RevisionRow) : Prop :=
  ∀ row ∈ revisions, row.chainAnchor.isSome → OnChain vaultId blocks row

theorem SyncInv.storedOnChain (inv : SyncInv hash ledger env version vaultId world)
    (noOrphan : ¬ HoldsOrphan world) :
    StoredOnChain vaultId world.blocks world.vault.disk.log.revisions := by
  intro row stored anchored
  refine (inv.sound row stored anchored).resolve_right ?_
  rintro ⟨call, isCall, orphaned⟩
  exact noOrphan ⟨row, stored, call, isCall, orphaned⟩

/-- Only a backfill leaves orphans for later. -/
theorem not_holdsOrphan (past : ∀ call ∈ world.call, isBackfilling call = false) :
    ¬ HoldsOrphan world := by
  rintro ⟨row, -, call, isCall, orphaned⟩
  have backfilling := orphaned.backfilling
  rw [past call isCall] at backfilling
  cases backfilling

theorem noOrphan_of_following {call : SyncCall} (isCall : world.call = some call)
    (stage : call.stage = .following) : ¬ HoldsOrphan world := by
  apply not_holdsOrphan
  intro other isOther
  obtain rfl := Option.some.inj (isCall.symm.trans isOther)
  simp [isBackfilling, stage]

theorem noOrphan_of_silent
    (silent : ∀ call ∈ world.call, call.detector.detectReorg world.blocks = none) :
    ¬ HoldsOrphan world := by
  rintro ⟨row, -, call, isCall, orphaned⟩
  obtain ⟨number, blockHash, -, held, diverged, -⟩ := orphaned.diverged
  exact diverged (detectReorg_eq_none (silent call isCall) held)

/-- What is read from the chain is on the chain. -/
theorem Reads.storedOnChain {currentSet : List EvmAddress} {before after : Vault}
    {contents : Set RevisionContent} {blocks : Blocks}
    (reads : Reads hash ledger version vaultId currentSet before after contents)
    (canonical : ∀ content ∈ contents,
      ∃ log ∈ vaultEvents vaultId blocks, log.event.content = content)
    (settled : StoredOnChain vaultId blocks before.disk.log.revisions) :
    StoredOnChain vaultId blocks after.disk.log.revisions := by
  intro row stored anchored
  have content : rowContent vaultId row ∈ storedContents vaultId after.disk.log.revisions :=
    ⟨row, stored, anchored, rfl⟩
  rw [reads.stored] at content
  rcases content with new | ⟨old, oldStored, oldAnchored, same⟩
  · exact canonical _ new
  · obtain ⟨log, onChain, held⟩ := settled old oldStored oldAnchored
    exact ⟨log, onChain, held.trans same⟩

/-- Whatever is read from the chain keeps the part of the invariant that speaks of rows. -/
theorem SyncInv.of_reads {world' : SyncWorld} {currentSet : List EvmAddress}
    {contents : Set RevisionContent} (inv : SyncInv hash ledger env version vaultId world)
    (reads : Reads hash ledger version vaultId currentSet world.vault world'.vault contents)
    (blocks : world'.blocks = world.blocks)
    (sound : ∀ row ∈ world'.vault.disk.log.revisions, row.chainAnchor.isSome →
      OnChain vaultId world.blocks row ∨ ∃ call ∈ world'.call, Orphaned world.blocks call row)
    (complete : ∀ log ∈ vaultEvents vaultId world.blocks,
      log.blockNumber ≤ readUpTo env version world' →
      passesGate version world'.authorized log.signer = true →
        log.event.content ∈ contents ∨
          log.event.content ∈ storedContents vaultId world.vault.disk.log.revisions)
    (call : ∀ call ∈ world'.call, CallInv env version world' call) :
    SyncInv hash ledger env version vaultId world' := by
  refine ⟨?_, ?_, reads.synced, ?_, ?_, call⟩
  · rw [blocks]
    exact inv.wellFormed
  · rw [revisionlogVersion, reads.settings]
    exact inv.bound
  · rw [blocks]
    exact sound
  · intro log onChain read passes
    rw [blocks] at onChain
    rw [reads.stored]
    exact complete log onChain read passes

/-- A call that ends early leaves the checkpoint where it is. -/
theorem SyncInv.failed {vault : Vault} {currentSet : List EvmAddress}
    {contents : Set RevisionContent} (inv : SyncInv hash ledger env version vaultId world)
    (reads : Reads hash ledger version vaultId currentSet world.vault vault contents)
    (settled : StoredOnChain vaultId world.blocks vault.disk.log.revisions) :
    SyncInv hash ledger env version vaultId { world with vault }.failed := by
  apply inv.of_reads reads
  · rfl
  · exact fun row stored anchored => .inl (settled row stored anchored)
  · intro log onChain read passes
    exact .inr (inv.complete log onChain (read.trans (syncedUpTo_le_readUpTo world)) passes)
  · intro call isCall
    cases isCall

/-- The first half of a chunk. -/
theorem SyncInv.ingestChunk {call : SyncCall} (identifies : Identifies hash ledger)
    (inv : SyncInv hash ledger env version vaultId world) (isCall : world.call = some call)
    (stage : call.stage = .backfill) (more : call.cursor < call.head) (nowMs : Int) (now : Nat) :
    SyncInv hash ledger env version vaultId
      (world.ingestChunk hash vaultId call nowMs now) := by
  have callInv := inv.call call isCall
  obtain ⟨tip, observed⟩ := callInv.observed (by simp [isBackfilling, stage])
  simp only [lastRead, stage] at observed
  unfold SyncWorld.ingestChunk
  simp only [callInv.ofVersion]
  generalize chunk : min (call.cursor + 1 + (logBlockChunk - 1)) call.head = chunkEnd
  have below : chunkEnd ≤ call.head := by omega
  have ahead : call.cursor < chunkEnd := by omega
  generalize chunkLogs : fetchAndVerifyChunk world.blocks vaultId (call.cursor + 1) chunkEnd = logs
  have inChunk : ∀ log ∈ logs, log ∈ vaultEvents vaultId world.blocks ∧
      call.cursor < log.blockNumber ∧ log.blockNumber ≤ chunkEnd := by
    intro log member
    rw [← chunkLogs] at member
    obtain ⟨onChain, inRange⟩ := List.mem_filter.mp member
    simp only [Bool.and_eq_true, decide_eq_true_eq] at inRange
    exact ⟨onChain, inRange⟩
  obtain ⟨vault, detector, ingests, reads, rows, observes⟩ :=
    ingestEvents_reads call.currentSet call.detector inv.synced identifies
      (fun log member => inv.wellFormed.onLedger (inChunk log member).1)
      (fun log member => (mem_vaultEvents.mp (inChunk log member).1).2)
      (fun log member => (inChunk log member).2.2.trans below) nowMs now
  rw [ingests]
  simp only
  have knows : version = .v2 → ∀ signer ∈ world.authorized, signer ∈ call.currentSet :=
    callInv.known (by rw [stage]; exact SyncStage.noConfusion)
  apply inv.of_reads reads
  · rfl
  · intro row stored anchored
    rcases rows row stored with before | ⟨log, member, -, content⟩
    · refine (inv.sound row before anchored).imp id ?_
      -- What the detector held is older than the chunk, and near enough to be kept.
      rintro ⟨other, isOther, orphaned⟩
      obtain rfl := Option.some.inj (isCall.symm.trans isOther)
      obtain ⟨number, blockHash, observedAt, held, diverged, near⟩ := orphaned.diverged
      refine ⟨_, rfl, rfl, orphaned.pending, number, blockHash, observedAt, ?_, diverged, near⟩
      apply observes.kept tip _ held _ near
      exact fun log member => lt_of_le_of_lt (observed _ held).2 (inChunk log member).2.1
    · exact .inl ⟨log, (inChunk log member).1, content⟩
  · -- What the checkpoint has passed was stored before; the rest is in the chunk.
    intro log onChain read passes
    by_cases passed : log.blockNumber ≤ syncedUpTo env version world
    · exact .inr (inv.complete log onChain (passed.trans (syncedUpTo_le_readUpTo world)) passes)
    · refine .inl ⟨log, ?_, passesGate_mono knows passes, rfl⟩
      have behind := callInv.cursor
      simp only [readUpTo, Option.map_some, syncedUpTo] at read passed behind
      rw [← chunkLogs]
      refine List.mem_filter.mpr ⟨onChain, ?_⟩
      simp only [Bool.and_eq_true, decide_eq_true_eq]
      omega
  · intro running isRunning
    obtain rfl := Option.some.inj isRunning
    refine ⟨rfl, callInv.cursor, fun _ => knows, ?_, ?_⟩
    · refine fun _ => ⟨observes.tip tip, ?_⟩
      intro entry member
      rcases observes.members entry member with before | ⟨log, inLogs, rfl⟩
      · exact ⟨(observed entry before).1, (observed entry before).2.trans ahead.le⟩
      · have fits := identifies.fits log (inv.wellFormed.onLedger (inChunk log inLogs).1)
        simp only [fitsColumns, Bool.and_eq_true] at fits
        exact ⟨fits.1.1, (inChunk log inLogs).2.2⟩
    · intro notBackfilling
      simp [isBackfilling] at notBackfilling

theorem nothing_canonical {blocks : Blocks} : ∀ content ∈ (∅ : Set RevisionContent),
    ∃ log ∈ vaultEvents vaultId blocks, log.event.content = content := by
  intro content none
  cases none

theorem SyncedRows.filter {revisions : List RevisionRow}
    (synced : SyncedRows hash ledger version vaultId revisions) (keep : RevisionRow → Bool) :
    SyncedRows hash ledger version vaultId (revisions.filter keep) := by
  have stored : ∀ row ∈ revisions.filter keep, row ∈ revisions := fun row member =>
    (List.mem_filter.mp member).1
  refine ⟨⟨?_, ?_, ?_, ?_⟩, ?_⟩
  · exact synced.unique.sublist (List.filter_sublist.map RevisionRow.revisionId)
  · exact fun row member => synced.ids row (stored row member)
  · exact fun row member => synced.anchored row (stored row member)
  · exact fun row member => synced.unrevoked row (stored row member)
  · exact fun second row member => synced.signed second row (stored row member)

theorem rollbackPending_of_fits (vault : Vault) {low high : Nat} (lowFits : fitsI64 low = true)
    (highFits : fitsI64 high = true) :
    rollbackPendingRevisionsInRange vault low high =
      (withLog vault { vault.disk.log with
        revisions := vault.disk.log.revisions.filter fun row => !rolledBackBy low high row },
        .ok ()) := by
  simp [rollbackPendingRevisionsInRange, rollbackPendingLog, lowFits, highFits, atomically]

/-- The detector looks: every orphan is rolled back, and nothing else that was read. -/
theorem SyncInv.rollBackReorg {call : SyncCall} {chunkEnd : Nat}
    (inv : SyncInv hash ledger env version vaultId world) (isCall : world.call = some call)
    (stage : call.stage = .ingested chunkEnd)
    (gone : RollsBackGone env version vaultId world) :
    ∃ vault detector,
      SyncWorld.rollBackReorg world.vault call.detector world.blocks = (vault, .ok detector) ∧
      SyncInv hash ledger env version vaultId
        { world with vault, call := some { call with detector } } ∧
      StoredOnChain vaultId world.blocks vault.disk.log.revisions := by
  have callInv := inv.call call isCall
  have backfilling : isBackfilling call = true := by simp [isBackfilling, stage]
  obtain ⟨tip, observed⟩ := callInv.observed backfilling
  unfold SyncWorld.rollBackReorg
  cases reported : call.detector.detectReorg world.blocks with
  | none =>
      refine ⟨world.vault, call.detector, rfl, ?_, inv.storedOnChain ?_⟩
      · rw [← isCall]
        exact inv
      · apply noOrphan_of_silent
        intro other isOther
        obtain rfl := Option.some.inj (isCall.symm.trans isOther)
        exact reported
  | some info =>
      obtain ⟨spans, ⟨lowest, lowMember, low⟩, ⟨highest, highMember, high⟩⟩ :=
        detectReorg_eq_some reported
      have lowFits : fitsI64 info.affectedBlockLow = true := by
        rw [← low]
        exact (observed lowest lowMember).1
      have highFits : fitsI64 info.affectedBlockHigh = true := by
        rw [← high]
        exact (observed highest highMember).1
      simp only [rollbackPending_of_fits world.vault lowFits highFits]
      have settled : StoredOnChain vaultId world.blocks (world.vault.disk.log.revisions.filter
          fun row => !rolledBackBy info.affectedBlockLow info.affectedBlockHigh row) := by
        intro row member anchored
        obtain ⟨stored, kept⟩ := List.mem_filter.mp member
        refine (inv.sound row stored anchored).resolve_right ?_
        rintro ⟨other, isOther, orphaned⟩
        obtain rfl := Option.some.inj (isCall.symm.trans isOther)
        obtain ⟨number, blockHash, observedAt, held, diverged, -⟩ := orphaned.diverged
        have inWindow := spans _ held diverged
        simp [rolledBackBy, orphaned.pending, observedAt, inWindow] at kept
      refine ⟨_, _, rfl, ⟨inv.wellFormed, inv.bound, inv.synced.filter _, ?_, ?_, ?_⟩, settled⟩
      · exact fun row stored anchored => .inl (settled row stored anchored)
      · intro log onChain read passes
        have sameStage : world.call.map SyncCall.stage = some call.stage := by
          rw [isCall]
          rfl
        have read : log.blockNumber ≤ readUpTo env version world :=
          read.trans_eq (readUpTo_congr rfl sameStage.symm)
        obtain ⟨row, stored, anchored, content⟩ := inv.complete log onChain read passes
        refine ⟨row, List.mem_filter.mpr ⟨stored, ?_⟩, anchored, content⟩
        cases rolled : rolledBackBy info.affectedBlockLow info.affectedBlockHigh row with
        | false => rfl
        | true =>
            have unread := gone call isCall info reported row stored anchored rolled log onChain
              content.symm
            exact absurd read (Nat.not_le.mpr unread)
      · intro other isOther
        obtain rfl := Option.some.inj isOther
        refine ⟨callInv.ofVersion, callInv.cursor, callInv.known, ?_, ?_⟩
        · exact fun _ => ⟨tip, fun entry member => observed entry (List.mem_filter.mp member).1⟩
        · intro notBackfilling
          simp [isBackfilling, stage] at notBackfilling

/-- The second half: roll back what is gone, promote, move the checkpoint. -/
theorem SyncInv.settleChunk {call : SyncCall} {chunkEnd : Nat}
    (inv : SyncInv hash ledger env version vaultId world) (isCall : world.call = some call)
    (stage : call.stage = .ingested chunkEnd)
    (gone : RollsBackGone env version vaultId world) :
    SyncInv hash ledger env version vaultId (world.settleChunk call chunkEnd) := by
  obtain ⟨rolledBack, detector, rolls, rolledInv, settled⟩ :=
    inv.rollBackReorg isCall stage gone
  have callInv := rolledInv.call _ rfl
  obtain ⟨tip, observed⟩ := callInv.observed (by simp [isBackfilling, stage])
  have reads := promoteFinalized_reads rolledInv.synced call.currentSet call.head
  unfold SyncWorld.settleChunk
  rw [rolls]
  simp only at reads ⊢
  generalize promoteFinalizedRevisions rolledBack call.head = promoted at reads
  obtain ⟨vault, outcome⟩ := promoted
  have promotedSettled := reads.storedOnChain nothing_canonical settled
  cases outcome with
  | error error => exact rolledInv.failed reads promotedSettled
  | ok done =>
      simp only
      cases updated : updateLastSyncedBlock world.lastSyncedBlock chunkEnd with
      | error error => exact rolledInv.failed reads promotedSettled
      | ok lastSyncedBlock =>
          obtain rfl := updateLastSyncedBlock_eq_ok updated
          apply rolledInv.of_reads reads
          · rfl
          · exact fun row stored anchored => .inl (promotedSettled row stored anchored)
          · intro log onChain behind passes
            refine .inr (rolledInv.complete log onChain ?_ passes)
            simp only [readUpTo, Option.map_some, stage, syncedUpTo, Option.getD_some]
              at behind ⊢
            omega
          · intro running isRunning
            obtain rfl := Option.some.inj isRunning
            refine ⟨callInv.ofVersion, ?_, ?_, ?_, ?_⟩
            · exact le_max_right _ _
            · exact fun _ => callInv.known (by simp [stage])
            · simp only [lastRead, stage] at observed
              exact fun _ => ⟨tip, observed⟩
            · intro notBackfilling
              simp [isBackfilling] at notBackfilling

theorem rowContent_reevaluateRow (currentSet : List EvmAddress) (row : RevisionRow) :
    rowContent vaultId (reevaluateRow currentSet row) = rowContent vaultId row := by
  unfold reevaluateRow
  split <;> rfl

/-- The re-evaluation sets flags and nothing else. -/
theorem reevaluate_rows {revisions : List RevisionRow}
    (synced : SyncedRows hash ledger .v2 vaultId revisions) (currentSet : List EvmAddress) :
    SyncedRows hash ledger .v2 vaultId (revisions.map (reevaluateRow currentSet)) ∧
      storedContents vaultId (revisions.map (reevaluateRow currentSet)) =
        storedContents vaultId revisions ∧
      Evaluated currentSet (revisions.map (reevaluateRow currentSet)) := by
  refine ⟨⟨⟨?_, ?_, ?_, ?_⟩, ?_⟩, ?_, ?_⟩
  · have ids : RevisionRow.revisionId ∘ reevaluateRow currentSet = RevisionRow.revisionId := by
      funext row
      exact reevaluateRow_revisionId currentSet row
    rw [List.map_map, ids]
    exact synced.unique
  · intro row member
    obtain ⟨old, stored, rfl⟩ := List.mem_map.mp member
    rw [reevaluateRow_chainAnchor, reevaluateRow_revisionId, rowContent_reevaluateRow]
    exact synced.ids old stored
  · intro row member anchor held
    obtain ⟨old, stored, rfl⟩ := List.mem_map.mp member
    rw [reevaluateRow_chainAnchor] at held
    rw [rowContent_reevaluateRow]
    exact synced.anchored old stored anchor held
  · rintro row member (first | unanchored)
    · cases first
    · obtain ⟨old, stored, rfl⟩ := List.mem_map.mp member
      rw [reevaluateRow_chainAnchor] at unanchored
      rw [reevaluateRow, unanchored]
      exact synced.unrevoked old stored (.inr unanchored)
  · intro _ row member anchored
    obtain ⟨old, stored, rfl⟩ := List.mem_map.mp member
    rw [reevaluateRow_chainAnchor] at anchored
    rw [rowContent_reevaluateRow, reevaluateRow_recoveredSigner]
    exact synced.signed rfl old stored anchored
  · ext content
    constructor
    · rintro ⟨row, member, anchored, rfl⟩
      obtain ⟨old, stored, rfl⟩ := List.mem_map.mp member
      rw [reevaluateRow_chainAnchor] at anchored
      exact ⟨old, stored, anchored, (rowContent_reevaluateRow currentSet old).symm⟩
    · rintro ⟨row, stored, anchored, rfl⟩
      refine ⟨_, List.mem_map_of_mem stored, ?_, rowContent_reevaluateRow currentSet row⟩
      rw [reevaluateRow_chainAnchor]
      exact anchored
  · intro row member anchored
    obtain ⟨old, stored, rfl⟩ := List.mem_map.mp member
    rw [reevaluateRow_chainAnchor] at anchored
    simp [reevaluateRow, anchored, wantRevoked]

/-- A call past its backfill, with the flags of its set. -/
theorem SyncInv.pastBackfill {call : SyncCall} {vault : Vault} {stage : SyncStage}
    (inv : SyncInv hash ledger env version vaultId world) (isCall : world.call = some call)
    (reads : Reads hash ledger version vaultId call.currentSet world.vault vault ∅)
    (settled : StoredOnChain vaultId world.blocks vault.disk.log.revisions)
    (evaluated : version = .v2 → Evaluated call.currentSet vault.disk.log.revisions)
    (running : call.stage ≠ .returned) (past : stage = .following ∨ stage = .returned) :
    SyncInv hash ledger env version vaultId
      { world with vault, call := some { call with stage } } := by
  have callInv := inv.call call isCall
  have notBackfilling : isBackfilling { call with stage } = false := by
    rcases past with rfl | rfl <;> rfl
  apply inv.of_reads reads
  · rfl
  · exact fun row stored anchored => .inl (settled row stored anchored)
  · intro log onChain behind passes
    refine .inr (inv.complete log onChain (le_trans ?_ (syncedUpTo_le_readUpTo world)) passes)
    rcases past with rfl | rfl <;> exact behind
  · intro other isOther
    obtain rfl := Option.some.inj isOther
    refine ⟨callInv.ofVersion, callInv.cursor, fun _ => callInv.known running, ?_,
      fun _ => evaluated⟩
    intro backfilling
    rw [notBackfilling] at backfilling
    cases backfilling

/-- The end of the backfill: on the second log the flags are now those of the call's set. -/
theorem SyncInv.endBackfill {call : SyncCall}
    (inv : SyncInv hash ledger env version vaultId world) (isCall : world.call = some call)
    (stage : call.stage = .backfill) (noOrphan : ¬ HoldsOrphan world) :
    SyncInv hash ledger env version vaultId (world.endBackfill call) := by
  have running : call.stage ≠ .returned := by
    rw [stage]
    exact SyncStage.noConfusion
  have past : (if call.tipFollowEligible then SyncStage.following else .returned) = .following ∨
      (if call.tipFollowEligible then SyncStage.following else .returned) = .returned := by
    cases call.tipFollowEligible
    · exact .inr rfl
    · exact .inl rfl
  have reads := promoteFinalized_reads inv.synced call.currentSet call.head
  unfold SyncWorld.endBackfill
  generalize promoteFinalizedRevisions world.vault call.head = promoted at reads
  obtain ⟨vault, outcome⟩ := promoted
  have settled := reads.storedOnChain nothing_canonical (inv.storedOnChain noOrphan)
  cases outcome with
  | error error => exact inv.failed reads settled
  | ok done =>
      have ofVersion := (inv.call call isCall).ofVersion
      simp only
      split
      · next first =>
          obtain rfl : version = .v1 := ofVersion.symm.trans first
          exact inv.pastBackfill isCall reads settled (fun second => nomatch second) running past
      · next second =>
          obtain rfl : version = .v2 := ofVersion.symm.trans second
          obtain ⟨synced, stored, evaluated⟩ := reevaluate_rows reads.synced call.currentSet
          have reevaluated : Reads hash ledger .v2 vaultId call.currentSet world.vault
              (reevaluateRevocationAgainstSet vault call.currentSet).1 ∅ :=
            ⟨synced, stored.trans reads.stored, fun _ _ => evaluated, reads.settings⟩
          exact inv.pastBackfill isCall reevaluated
            (reevaluated.storedOnChain nothing_canonical (inv.storedOnChain noOrphan))
            (fun _ => evaluated) running past

/-- The call returns. -/
theorem SyncInv.returnSync {call : SyncCall}
    (inv : SyncInv hash ledger env version vaultId world) (isCall : world.call = some call)
    (stage : call.stage = .following) :
    SyncInv hash ledger env version vaultId (world.returnSync call) := by
  have running : call.stage ≠ .returned := by
    rw [stage]
    exact SyncStage.noConfusion
  have evaluated := (inv.call call isCall).evaluated (by simp [isBackfilling, stage])
  have before := inv.storedOnChain (noOrphan_of_following isCall stage)
  unfold SyncWorld.returnSync
  split
  · have reads := promoteFinalized_reads inv.synced call.currentSet call.head
    generalize promoteFinalizedRevisions world.vault call.head = promoted at reads
    obtain ⟨vault, outcome⟩ := promoted
    have settled := reads.storedOnChain nothing_canonical before
    cases outcome with
    | error error => exact inv.failed reads settled
    | ok done =>
        exact inv.pastBackfill isCall reads settled
          (fun second => reads.evaluated second (evaluated second)) running (.inr rfl)
  · exact inv.pastBackfill isCall (.refl inv.synced call.currentSet) before evaluated running
      (.inr rfl)

/-! ### The socket -/

/-- What events from the socket leave behind: either all that pass are stored, or the call
ended before the checkpoint moved. -/
structure Received (hash : CanonicalHash) (ledger : Set VerifiedRevisionEvent)
    (version : RevisionLogVersion) (vaultId : VaultId) (before : Option Nat) (call : SyncCall)
    (logs : List VerifiedRevisionEvent) (world world' : SyncWorld) : Prop where
  blocks : world'.blocks = world.blocks
  authorized : world'.authorized = world.authorized
  outcome :
    (world'.call = none ∧ world'.lastSyncedBlock = before ∧
      ∃ contents ⊆ passedContents version call.currentSet logs,
        Reads hash ledger version vaultId call.currentSet world.vault world'.vault contents) ∨
    ∃ call', world'.call = some call' ∧
      Reads hash ledger version vaultId call.currentSet world.vault world'.vault
        (passedContents version call.currentSet logs) ∧
      (call'.version = call.version ∧ call'.currentSet = call.currentSet ∧
        call'.stage = call.stage) ∧
      ((call'.cursor = call.cursor ∧ world'.lastSyncedBlock = world.lastSyncedBlock) ∨
        (world'.lastSyncedBlock = some call'.cursor ∧
          ∃ log ∈ logs, call'.cursor = log.blockNumber))

/-- One event, then the rest. -/
theorem Received.cons {before lastSyncedBlock : Option Nat} {call call' : SyncCall}
    {log : VerifiedRevisionEvent} {logs : List VerifiedRevisionEvent} {middle : Vault}
    {world' : SyncWorld}
    (rest : Received hash ledger version vaultId before call' logs
      { world with vault := middle, lastSyncedBlock } world')
    (first : Reads hash ledger version vaultId call.currentSet world.vault middle
      (passedContents version call.currentSet [log]))
    (same : call'.version = call.version ∧ call'.currentSet = call.currentSet ∧
      call'.stage = call.stage)
    (cursor : (call'.cursor = call.cursor ∧ lastSyncedBlock = world.lastSyncedBlock) ∨
      (lastSyncedBlock = some call'.cursor ∧ call'.cursor = log.blockNumber)) :
    Received hash ledger version vaultId before call (log :: logs) world world' := by
  obtain ⟨sameVersion, sameSet, sameStage⟩ := same
  refine ⟨rest.blocks, rest.authorized, ?_⟩
  rcases rest.outcome with ⟨ended, unmoved, contents, within, reads⟩ |
    ⟨later, isCall, reads, ⟨laterVersion, laterSet, laterStage⟩, moved⟩
  · rw [sameSet] at within reads
    refine .inl ⟨ended, unmoved, _, ?_, first.trans reads⟩
    rw [passedContents_cons call.currentSet log logs]
    exact Set.union_subset_union_right _ within
  · rw [sameSet] at reads
    refine .inr ⟨later, isCall, ?_, ⟨laterVersion.trans sameVersion, laterSet.trans sameSet,
      laterStage.trans sameStage⟩, ?_⟩
    · rw [passedContents_cons call.currentSet log logs]
      exact first.trans reads
    · rcases moved with ⟨sameCursor, sameBlock⟩ | ⟨block, newest, member, number⟩
      · rcases cursor with ⟨unmoved, unchanged⟩ | ⟨block, number⟩
        · exact .inl ⟨sameCursor.trans unmoved, sameBlock.trans unchanged⟩
        · refine .inr ⟨?_, log, List.mem_cons_self, sameCursor.trans number⟩
          rw [sameBlock, sameCursor]
          exact block
      · exact .inr ⟨block, newest, List.mem_cons_of_mem _ member, number⟩

/-- A checkpoint at the cursor can always move on. -/
theorem updateLastSyncedBlock_of_lt {cursor newBlock : Nat} (newer : cursor < newBlock)
    (fits : fitsI64 newBlock = true) :
    updateLastSyncedBlock (some cursor) newBlock = .ok (some newBlock) := by
  have notBack : ¬ newBlock < cursor := by omega
  have notSame : ¬ newBlock = cursor := by omega
  simp [updateLastSyncedBlock, notBack, notSame, fits]

theorem receiveEvents_received {before : Option Nat} {call : SyncCall}
    {logs : List VerifiedRevisionEvent} (identifies : Identifies hash ledger)
    (synced : SyncedRows hash ledger version vaultId world.vault.disk.log.revisions)
    (ofVersion : call.version = version) (onLedger : ∀ log ∈ logs, log ∈ ledger)
    (own : ∀ log ∈ logs, log.event.content.vaultId = vaultId)
    (checkpoint : world.lastSyncedBlock = some call.cursor ∨ world.lastSyncedBlock = before)
    (nowMs : Int) (now : Nat) :
    Received hash ledger version vaultId before call logs world
      (world.receiveEvents hash call nowMs now logs) := by
  induction logs generalizing world call with
  | nil =>
      refine ⟨rfl, rfl, .inr ⟨call, rfl, ⟨synced, ?_, fun _ held => held, rfl⟩,
        ⟨rfl, rfl, rfl⟩, .inl ⟨rfl, rfl⟩⟩⟩
      simp [passedContents, SyncWorld.receiveEvents]
  | cons log logs ih =>
      have logOnLedger := onLedger log List.mem_cons_self
      have restOnLedger := fun other member => onLedger other (List.mem_cons_of_mem log member)
      have restOwn := fun other member => own other (List.mem_cons_of_mem log member)
      obtain ⟨middle, ingests, first, -⟩ := ingestVerified_reads call.currentSet synced identifies
        logOnLedger (own log List.mem_cons_self) nowMs now
      rw [← ofVersion] at ingests
      unfold SyncWorld.receiveEvents
      rw [ingests]
      cases passes : passesGate call.version call.currentSet log.signer with
      | false =>
          simp only
          let later : SyncWorld := { world with vault := middle }
          have rest : Received hash ledger version vaultId before call logs later
              (later.receiveEvents hash call nowMs now logs) :=
            ih first.synced ofVersion restOnLedger restOwn checkpoint
          exact rest.cons first ⟨rfl, rfl, rfl⟩ (.inl ⟨rfl, rfl⟩)
      | true =>
          simp only
          split
          · next newer =>
              split
              · next failed =>
                  -- The checkpoint was ahead of the cursor, so no event has moved it yet.
                  have fits : fitsI64 log.blockNumber = true := by
                    have columns := identifies.fits log logOnLedger
                    simp only [fitsColumns, Bool.and_eq_true] at columns
                    exact columns.1.1
                  have unmoved : world.lastSyncedBlock = before := by
                    refine checkpoint.resolve_left ?_
                    intro atCursor
                    rw [atCursor, updateLastSyncedBlock_of_lt newer fits] at failed
                    cases failed
                  refine ⟨rfl, rfl, .inl ⟨rfl, unmoved, _, ?_, first⟩⟩
                  rw [passedContents_cons call.currentSet log logs]
                  exact Set.subset_union_left
              · next updated =>
                  obtain rfl := updateLastSyncedBlock_eq_ok updated
                  let moved : SyncCall :=
                    { call with
                      detector := call.detector.record log.blockNumber log.blockHash
                      wsPathUsed := true
                      cursor := log.blockNumber }
                  let later : SyncWorld :=
                    { world with vault := middle, lastSyncedBlock := some log.blockNumber }
                  have rest : Received hash ledger version vaultId before moved logs later
                      (later.receiveEvents hash moved nowMs now logs) :=
                    ih first.synced ofVersion restOnLedger restOwn (.inl rfl)
                  exact rest.cons first ⟨rfl, rfl, rfl⟩ (.inr ⟨rfl, rfl⟩)
          · let observed : SyncCall :=
              { call with
                detector := call.detector.record log.blockNumber log.blockHash
                wsPathUsed := true }
            let later : SyncWorld := { world with vault := middle }
            have rest : Received hash ledger version vaultId before observed logs later
                (later.receiveEvents hash observed nowMs now logs) :=
              ih first.synced ofVersion restOnLedger restOwn checkpoint
            exact rest.cons first ⟨rfl, rfl, rfl⟩ (.inl ⟨rfl, rfl⟩)

/-- Events from the socket, none of them left out. -/
theorem SyncInv.receive {call : SyncCall} {logs : List VerifiedRevisionEvent}
    (identifies : Identifies hash ledger) (inv : SyncInv hash ledger env version vaultId world)
    (isCall : world.call = some call) (stage : call.stage = .following)
    (delivers : DeliversAll env version vaultId world logs) (nowMs : Int) (now : Nat) :
    SyncInv hash ledger env version vaultId (world.receiveEvents hash call nowMs now logs) := by
  have callInv := inv.call call isCall
  have running : call.stage ≠ .returned := by
    rw [stage]
    exact SyncStage.noConfusion
  have received := receiveEvents_received identifies inv.synced callInv.ofVersion
    (fun log member => inv.wellFormed.onLedger (delivers.canonical log member))
    (fun log member => (mem_vaultEvents.mp (delivers.canonical log member)).2)
    (.inr rfl) nowMs now
  generalize world.receiveEvents hash call nowMs now logs = world' at received
  have canonical : ∀ content ∈ passedContents version call.currentSet logs,
      ∃ log ∈ vaultEvents vaultId world.blocks, log.event.content = content := by
    rintro content ⟨log, member, -, rfl⟩
    exact ⟨log, delivers.canonical log member, rfl⟩
  have before := inv.storedOnChain (noOrphan_of_following isCall stage)
  rcases received.outcome with ⟨ended, unmoved, contents, within, reads⟩ |
    ⟨later, isLater, reads, ⟨sameVersion, sameSet, sameStage⟩, moved⟩
  · have settled := reads.storedOnChain (fun content read => canonical content (within read)) before
    apply inv.of_reads reads received.blocks
    · exact fun row stored anchored => .inl (settled row stored anchored)
    · intro log onChain behind passes
      rw [received.authorized] at passes
      refine .inr (inv.complete log onChain (le_trans ?_ (syncedUpTo_le_readUpTo world)) passes)
      simp only [readUpTo, ended, Option.map_none, syncedUpTo, unmoved] at behind ⊢
      exact behind
    · intro other isOther
      rw [ended] at isOther
      cases isOther
  · have atCheckpoint : readUpTo env version world' = syncedUpTo env version world' := by
      simp [readUpTo, isLater, sameStage, stage]
    have settled := reads.storedOnChain canonical before
    apply inv.of_reads reads received.blocks
    · exact fun row stored anchored => .inl (settled row stored anchored)
    · intro log onChain behind passes
      rw [received.authorized] at passes
      rw [atCheckpoint] at behind
      have stored : log.blockNumber ≤ syncedUpTo env version world →
          log.event.content ∈ storedContents vaultId world.vault.disk.log.revisions :=
        fun synced => inv.complete log onChain
          (synced.trans (syncedUpTo_le_readUpTo world)) passes
      rcases moved with ⟨-, unmoved⟩ | ⟨atCursor, newest, delivered, number⟩
      · rw [syncedUpTo, unmoved] at behind
        exact .inr (stored behind)
      · by_cases synced : log.blockNumber ≤ syncedUpTo env version world
        · exact .inr (stored synced)
        · -- Past the old checkpoint, so it came with the newest event.
          have older : log.blockNumber ≤ newest.blockNumber := by
            simp only [syncedUpTo, atCursor, Option.getD_some] at behind synced
            omega
          have inLogs := (delivers.gapless log onChain passes
            ⟨newest, delivered, older⟩).resolve_right synced
          exact .inl ⟨log, inLogs, passesGate_mono (callInv.known running) passes, rfl⟩
    · intro other isOther
      obtain rfl := Option.some.inj (isLater.symm.trans isOther)
      refine ⟨sameVersion.trans callInv.ofVersion, ?_, ?_, ?_, ?_⟩
      · rcases moved with ⟨sameCursor, unmoved⟩ | ⟨atCursor, -⟩
        · rw [sameCursor, syncedUpTo, unmoved]
          exact callInv.cursor
        · rw [syncedUpTo, atCursor]
          exact le_max_right _ _
      · rw [received.authorized, sameSet]
        exact fun _ => callInv.known running
      · intro backfilling
        simp [isBackfilling, sameStage, stage] at backfilling
      · intro _ second
        rw [sameSet]
        exact reads.evaluated second
          (callInv.evaluated (by simp [isBackfilling, stage]) second)

/-! ### Starts and changes of the chain -/

/-- No call runs, so nothing is read past the checkpoint. -/
theorem readUpTo_of_idle (idle : world.running = none) :
    readUpTo env version world = syncedUpTo env version world := by
  unfold readUpTo
  split
  · next chunkEnd stage =>
      obtain ⟨call, isCall, ingested⟩ := Option.map_eq_some_iff.mp stage
      simp [SyncWorld.running, isCall, ingested] at idle
  · rfl

theorem noOrphan_of_idle (idle : world.running = none) : ¬ HoldsOrphan world := by
  apply not_holdsOrphan
  intro call isCall
  rw [SyncWorld.running, show world.call = some call from isCall] at idle
  have returned : call.stage = .returned := by simpa using idle
  simp [isBackfilling, returned]

/-- A call starts behind the checkpoint, with the set of the moment. -/
theorem SyncInv.startSync (inv : SyncInv hash ledger env version vaultId world)
    (idle : world.running = none) (options : SyncOptions) :
    SyncInv hash ledger env version vaultId (world.startSync env options) := by
  have unchanged := Reads.refl inv.synced world.authorized
  have settled := inv.storedOnChain (noOrphan_of_idle idle)
  have behind : (if options.fromGenesis = true then genesisCursor env version else
      world.lastSyncedBlock.getD (genesisCursor env version)) ≤ syncedUpTo env version world := by
    unfold syncedUpTo
    split <;> omega
  unfold SyncWorld.startSync
  rw [inv.bound]
  simp only
  generalize (if options.fromGenesis = true then genesisCursor env version else
    world.lastSyncedBlock.getD (genesisCursor env version)) = cursor at behind ⊢
  split
  · exact inv.failed unchanged settled
  · refine inv.of_reads unchanged rfl ?_ ?_ ?_
    · exact fun row stored anchored => .inl (settled row stored anchored)
    · intro log onChain read passes
      refine .inr (inv.complete log onChain ?_ passes)
      rw [readUpTo_of_idle idle]
      exact read
    · intro call isCall
      obtain rfl := Option.some.inj isCall
      refine ⟨rfl, behind, ?_, ?_, ?_⟩
      · exact fun _ _ signer member => member
      · exact fun _ => ⟨Nat.zero_le _, fun entry member => nomatch member⟩
      · intro notBackfilling
        simp [isBackfilling] at notBackfilling

/-- A reorg that takes away only what the detector will report. -/
theorem SyncInv.reorg {blocks : Blocks} (identifies : Identifies hash ledger)
    (inv : SyncInv hash ledger env version vaultId world)
    (wellFormed : WellFormed ledger blocks)
    (spares : SparesRead env version vaultId world blocks) :
    SyncInv hash ledger env version vaultId { world with blocks } := by
  refine ⟨wellFormed, inv.bound, inv.synced, ?_, ?_, ?_⟩
  · exact spares.takesObserved
  · intro log onChain read passes
    obtain ⟨old, onOld, oldRead, content⟩ := spares.bringsNone log onChain read
    have signer : old.signer = log.signer :=
      identifies.signer old (inv.wellFormed.onLedger onOld) log (wellFormed.onLedger onChain)
        content
    rw [← content]
    rw [← signer] at passes
    exact inv.complete old onOld oldRead passes
  · intro call isCall
    have callInv := inv.call call isCall
    exact ⟨callInv.ofVersion, callInv.cursor, callInv.known, callInv.observed,
      callInv.evaluated⟩

/-- A device set under which no skipped event counts. -/
theorem SyncInv.authorize {authorized : List EvmAddress}
    (inv : SyncInv hash ledger env version vaultId world)
    (spares : version = .v2 → SparesSkipped env version vaultId world authorized) :
    SyncInv hash ledger env version vaultId { world with authorized } := by
  refine ⟨inv.wellFormed, inv.bound, inv.synced, inv.sound, ?_, ?_⟩
  · intro log onChain read passes
    cases version with
    | v1 => exact inv.complete log onChain read rfl
    | v2 =>
        simp only [passesGate, isSignerHonored, List.contains_iff_mem] at passes
        exact (spares rfl).stored log onChain read passes
  · intro call isCall
    have callInv := inv.call call isCall
    exact ⟨callInv.ofVersion, callInv.cursor,
      fun running second => (spares second).known call isCall running,
      callInv.observed, callInv.evaluated⟩

/-- A step of a running call. -/
theorem SyncInv.callStep {call : SyncCall} {op : SyncWorld.CallOp}
    (identifies : Identifies hash ledger) (inv : SyncInv hash ledger env version vaultId world)
    (isCall : world.call = some call)
    (allowed : Undisturbed ledger env version vaultId world (.callStep op)) :
    SyncInv hash ledger env version vaultId (world.callStep hash vaultId call op) := by
  obtain ⟨-, spares⟩ := allowed
  cases op with
  | ingestChunk nowMs now =>
      unfold SyncWorld.callStep
      simp only
      split
      · next turn => exact inv.ingestChunk identifies isCall turn.1 turn.2 nowMs now
      · exact inv
  | settleChunk =>
      unfold SyncWorld.callStep
      simp only
      split
      · next chunkEnd stage => exact inv.settleChunk isCall stage spares
      · exact inv
  | endBackfill =>
      unfold SyncWorld.callStep
      simp only
      split
      · next turn => exact inv.endBackfill isCall turn.1 spares
      · exact inv
  | receive logs nowMs now =>
      unfold SyncWorld.callStep
      simp only
      split
      · next stage => exact inv.receive identifies isCall stage spares nowMs now
      · exact inv
  | returnSync =>
      unfold SyncWorld.callStep
      simp only
      split
      · next stage => exact inv.returnSync isCall stage
      · exact inv
  | fail =>
      unfold SyncWorld.callStep
      simp only
      split
      · exact inv
      · exact inv.failed (.refl inv.synced call.currentSet) (inv.storedOnChain spares)

theorem SyncInv.step {op : SyncWorld.SyncOp} (identifies : Identifies hash ledger)
    (inv : SyncInv hash ledger env version vaultId world)
    (allowed : Undisturbed ledger env version vaultId world op) :
    SyncInv hash ledger env version vaultId (world.step hash env vaultId op) := by
  cases op with
  | reorg depth fresh => exact inv.reorg identifies allowed.1.2 allowed.2
  | authorize authorized => exact inv.authorize allowed.2
  | startSync options =>
      unfold SyncWorld.step
      simp only
      split
      · exact inv
      · next idle => exact inv.startSync (by simpa using idle) options
  | callStep op =>
      unfold SyncWorld.step
      simp only
      split
      · exact inv
      · next call isCall => exact inv.callStep identifies isCall allowed

end

end Pangolin
