import Pangolin.Store.Revocation
import Pangolin.Store.Settings

/-!
# Chain sync

A sync call starts behind its checkpoint and reads the revision log chunk by chunk up to
the head it saw when it began: ingest the events of the chunk as pending, compare the
blocks observed so far with the chain, roll back what a reorg took, promote what is deep
enough, move the checkpoint to the end of the chunk.  Then it may follow the tip through a
socket, moving the checkpoint with every event.  On the second revision log, events of
signers outside the authorized set are skipped and stored rows re-evaluated against it.

The chain goes on while a call runs, so the call is a state between steps.  Any request to
the node may fail, which ends the call and keeps what is stored.
-/

namespace Pangolin.Store

open Crypto

/-! ## The chain -/

/-- A log of the revision contract that passed verification. -/
structure VerifiedRevisionEvent where
  event : RevisionEvent
  signer : EvmAddress
  blockHash : Nat
  deriving Repr, DecidableEq

structure Block where
  hash : Nat
  parentHash : Nat
  logs : List VerifiedRevisionEvent
  deriving Repr, DecidableEq

/-- The blocks of a chain, genesis first; the number of a block is its position. -/
abbrev Blocks := List Block

/-- `fetch_current_block_number`. -/
def currentBlockNumber (blocks : Blocks) : Nat := blocks.length - 1

/-- The hash `eth_getBlockByNumber` reports, if there is such a block. -/
def blockHashAt (blocks : Blocks) (blockNumber : Nat) : Option Nat :=
  blocks[blockNumber]?.map Block.hash

/-- The events of a vault on a chain. -/
def vaultEvents (vaultId : VaultId) (blocks : Blocks) : List VerifiedRevisionEvent :=
  (blocks.flatMap Block.logs).filter fun log => log.event.content.vaultId = vaultId

def VerifiedRevisionEvent.blockNumber (log : VerifiedRevisionEvent) : Nat :=
  log.event.anchor.blockNumber

/-- `fetch_and_verify_chunk`. -/
def fetchAndVerifyChunk (blocks : Blocks) (vaultId : VaultId) (fromBlock toBlock : Nat) :
    List VerifiedRevisionEvent :=
  (vaultEvents vaultId blocks).filter fun log =>
    fromBlock ≤ log.blockNumber && log.blockNumber ≤ toBlock

inductive ChainEnv where
  | baseSepolia
  | baseMainnet
  | dev
  deriving Repr, DecidableEq

def d017DeployBlock : ChainEnv → Nat
  | .baseSepolia => 41507120
  | _ => 0

/-- `CHAIN_SYNC_LOG_BLOCK_CHUNK`. -/
def logBlockChunk : Nat := 9000

/-- Where a vault that never synced starts; the second log has no pinned deploy block. -/
def genesisCursor (env : ChainEnv) : RevisionLogVersion → Nat
  | .v1 => d017DeployBlock env
  | .v2 => 0

/-! ## Reorg detection -/

/-- Blocks observed in this call, with their hashes. -/
structure ReorgDetector where
  observed : List (Nat × Nat)
  tip : Nat
  deriving Repr, DecidableEq

structure ReorgInfo where
  affectedBlockLow : Nat
  affectedBlockHigh : Nat
  deriving Repr, DecidableEq

namespace ReorgDetector

/-- A new call starts with nothing observed. -/
def default : ReorgDetector := ⟨[], 0⟩

/-- `record`, which evicts what is two confirmation depths behind the tip. -/
def record (detector : ReorgDetector) (blockNumber blockHash : Nat) : ReorgDetector :=
  let observed := (blockNumber, blockHash) ::
    detector.observed.filter fun entry => entry.1 ≠ blockNumber
  let tip := max detector.tip blockNumber
  ⟨observed.filter fun entry => tip - confirmationDepth * 2 ≤ entry.1, tip⟩

/-- `detect_reorg`: the window of observed blocks that are not the chain's, or that the
chain no longer has. -/
def detectReorg (detector : ReorgDetector) (blocks : Blocks) : Option ReorgInfo :=
  let diverged := (detector.observed.filter fun entry =>
    blockHashAt blocks entry.1 ≠ some entry.2).map Prod.fst
  match diverged.min?, diverged.max? with
  | some low, some high => some ⟨low, high⟩
  | _, _ => none

/-- `forget_window`. -/
def forgetWindow (detector : ReorgDetector) (info : ReorgInfo) : ReorgDetector :=
  { detector with observed := detector.observed.filter fun entry =>
      !(info.affectedBlockLow ≤ entry.1 && entry.1 ≤ info.affectedBlockHigh) }

end ReorgDetector

/-! ## Ingesting verified events -/

/-- `is_signer_honored`. -/
def isSignerHonored (signer : EvmAddress) (currentSet : List EvmAddress) : Bool :=
  currentSet.contains signer

/-- The gate of the second log; the first one takes every signer. -/
def passesGate (version : RevisionLogVersion) (currentSet : List EvmAddress)
    (signer : EvmAddress) : Bool :=
  match version with
  | .v1 => true
  | .v2 => isSignerHonored signer currentSet

def stampSigner (revisions : List RevisionRow) (event : RevisionEvent) (signer : EvmAddress) :
    List RevisionRow :=
  revisions.map fun row =>
    if hasAnchor event.content.accountId event.anchor row then
      { row with recoveredSigner := some signer }
    else
      row

/-- `stamp_recovered_signer`. -/
def stampRecoveredSigner (vault : Vault) (event : RevisionEvent) (signer : EvmAddress) :
    Call Unit :=
  if ¬ fitsI64 event.anchor.blockNumber then
    (vault, .error (.corrupted
      "RevisionEvent.anchor.block_number does not fit in i64; refusing to stamp signer"))
  else if ¬ fitsI64 event.anchor.logIndex then
    (vault, .error (.corrupted
      "RevisionEvent.anchor.log_index does not fit in i64; refusing to stamp signer"))
  else
    let revisions := stampSigner vault.disk.log.revisions event signer
    (withLog vault { vault.disk.log with revisions }, .ok ())

/-- One verified event: gate, register the signer, ingest as pending, stamp the signer.
Returns whether the event passed the gate. -/
def ingestVerified (hash : CanonicalHash) (version : RevisionLogVersion)
    (currentSet : List EvmAddress) (vault : Vault) (log : VerifiedRevisionEvent) (nowMs : Int)
    (now : Nat) : Call Bool :=
  if ¬ passesGate version currentSet log.signer then
    (vault, .ok false)
  else
    match autoRegisterDeviceFromChainSync vault.disk.keys log.signer log.blockNumber nowMs with
    | .error error => (vault, .error error)
    | .ok (keys, _) =>
        let vault := { vault with disk := { vault.disk with keys } }
        match ingestPendingChainRevision hash vault log.event log.blockNumber log.blockHash
            nowMs now with
        | (vault, .error error) => (vault, .error error)
        | (vault, .ok _) =>
            match version with
            | .v1 => (vault, .ok true)
            | .v2 =>
                match stampRecoveredSigner vault log.event log.signer with
                | (vault, .error error) => (vault, .error error)
                | (vault, .ok ()) => (vault, .ok true)

/-- The events of a chunk, in order; the detector observes the block of each that passed. -/
def ingestEvents (hash : CanonicalHash) (version : RevisionLogVersion)
    (currentSet : List EvmAddress) (nowMs : Int) (now : Nat) :
    Vault → ReorgDetector → List VerifiedRevisionEvent → Call ReorgDetector
  | vault, detector, [] => (vault, .ok detector)
  | vault, detector, log :: logs =>
      match ingestVerified hash version currentSet vault log nowMs now with
      | (vault, .error error) => (vault, .error error)
      | (vault, .ok passed) =>
          let detector :=
            if passed then detector.record log.blockNumber log.blockHash else detector
          ingestEvents hash version currentSet nowMs now vault detector logs

/-- `update_last_synced_block_v1` and its twin for the second log. -/
def updateLastSyncedBlock (lastSyncedBlock : Option Nat) (newBlock : Nat) :
    Except StoreError (Option Nat) :=
  if newBlock < lastSyncedBlock.getD 0 then
    .error (.corrupted "backward moves violate the monotonic-checkpoint contract")
  else if newBlock = lastSyncedBlock.getD 0 ∧ lastSyncedBlock.isSome then
    .ok lastSyncedBlock
  else if ¬ fitsI64 newBlock then
    .error (.corrupted "last_synced_block does not fit in i64; refusing to store")
  else
    .ok (some newBlock)

/-! ## A sync call -/

structure SyncOptions where
  fromGenesis : Bool
  untilBlock : Option Nat
  preferWebsocket : Bool
  deriving Repr, DecidableEq

/-- How far a call has come. -/
inductive SyncStage where
  | backfill
  /-- The events of the chunk up to here are stored, the checkpoint is not yet moved. -/
  | ingested (chunkEnd : Nat)
  /-- The backfill is over; the call may follow the tip. -/
  | following
  | returned
  deriving Repr, DecidableEq

/-- The locals of `sync_from_chain_with_ws_url`. -/
structure SyncCall where
  version : RevisionLogVersion
  head : Nat
  cursor : Nat
  detector : ReorgDetector
  currentSet : List EvmAddress
  tipFollowEligible : Bool
  wsPathUsed : Bool
  stage : SyncStage
  deriving Repr, DecidableEq

/-- A vault file with its checkpoint, the chain with its authorized set, and the call that
runs or was the last to return. -/
structure SyncWorld where
  vault : Vault
  lastSyncedBlock : Option Nat
  blocks : Blocks
  authorized : List EvmAddress
  call : Option SyncCall

namespace SyncWorld

/-- The call ends with an error; what is stored stays. -/
def failed (world : SyncWorld) : SyncWorld := { world with call := none }

/-- The head of `sync_from_chain_with_ws_url`, up to the backfill. -/
def startSync (env : ChainEnv) (world : SyncWorld) (options : SyncOptions) : SyncWorld :=
  match revisionlogVersion world.vault with
  | .error _ => world.failed
  | .ok version =>
      let genesis := genesisCursor env version
      let cursor :=
        if options.fromGenesis then genesis else world.lastSyncedBlock.getD genesis
      let head := options.untilBlock.getD (currentBlockNumber world.blocks)
      if head < cursor then
        world.failed
      else
        let call : SyncCall :=
          { version
            head
            cursor
            detector := .default
            currentSet := world.authorized
            tipFollowEligible := options.preferWebsocket && options.untilBlock.isNone
            wsPathUsed := false
            stage := .backfill }
        { world with call := some call }

/-- The first half of a chunk: read its events and ingest them. -/
def ingestChunk (hash : CanonicalHash) (vaultId : VaultId) (world : SyncWorld)
    (call : SyncCall) (nowMs : Int) (now : Nat) : SyncWorld :=
  let chunkStart := call.cursor + 1
  let chunkEnd := min (chunkStart + (logBlockChunk - 1)) call.head
  let events := fetchAndVerifyChunk world.blocks vaultId chunkStart chunkEnd
  match ingestEvents hash call.version call.currentSet nowMs now world.vault call.detector
      events with
  | (vault, .error _) => { world with vault }.failed
  | (vault, .ok detector) =>
      { world with vault, call := some { call with detector, stage := .ingested chunkEnd } }

/-- What the detector reports is rolled back and forgotten. -/
def rollBackReorg (vault : Vault) (detector : ReorgDetector) (blocks : Blocks) :
    Call ReorgDetector :=
  match detector.detectReorg blocks with
  | none => (vault, .ok detector)
  | some info =>
      match rollbackPendingRevisionsInRange vault info.affectedBlockLow
          info.affectedBlockHigh with
      | (vault, .error error) => (vault, .error error)
      | (vault, .ok ()) => (vault, .ok (detector.forgetWindow info))

/-- The second half: detect reorgs, promote, move the checkpoint. -/
def settleChunk (world : SyncWorld) (call : SyncCall) (chunkEnd : Nat) : SyncWorld :=
  match rollBackReorg world.vault call.detector world.blocks with
  | (vault, .error _) => { world with vault }.failed
  | (vault, .ok detector) =>
      match promoteFinalizedRevisions vault call.head with
      | (vault, .error _) => { world with vault }.failed
      | (vault, .ok ()) =>
          match updateLastSyncedBlock world.lastSyncedBlock chunkEnd with
          | .error _ => { world with vault }.failed
          | .ok lastSyncedBlock =>
              { world with
                vault
                lastSyncedBlock
                call := some { call with detector, cursor := chunkEnd, stage := .backfill } }

/-- The end of the backfill: promote, and on the second log re-evaluate the stored rows. -/
def endBackfill (world : SyncWorld) (call : SyncCall) : SyncWorld :=
  match promoteFinalizedRevisions world.vault call.head with
  | (vault, .error _) => { world with vault }.failed
  | (vault, .ok ()) =>
      let vault :=
        match call.version with
        | .v1 => vault
        | .v2 => (reevaluateRevocationAgainstSet vault call.currentSet).1
      let stage := if call.tipFollowEligible then SyncStage.following else .returned
      { world with vault, call := some { call with stage } }

/-- Events from the socket, in the order they arrive; each that is newer than the cursor
moves the checkpoint to its block. -/
def receiveEvents (hash : CanonicalHash) (world : SyncWorld) (call : SyncCall) (nowMs : Int)
    (now : Nat) : List VerifiedRevisionEvent → SyncWorld
  | [] => { world with call := some call }
  | log :: logs =>
      match ingestVerified hash call.version call.currentSet world.vault log nowMs now with
      | (vault, .error _) => { world with vault }.failed
      | (vault, .ok false) => receiveEvents hash { world with vault } call nowMs now logs
      | (vault, .ok true) =>
          let call :=
            { call with
              detector := call.detector.record log.blockNumber log.blockHash
              wsPathUsed := true }
          if call.cursor < log.blockNumber then
            match updateLastSyncedBlock world.lastSyncedBlock log.blockNumber with
            | .error _ => { world with vault }.failed
            | .ok lastSyncedBlock =>
                receiveEvents hash { world with vault, lastSyncedBlock }
                  { call with cursor := log.blockNumber } nowMs now logs
          else
            receiveEvents hash { world with vault } call nowMs now logs

/-- The call returns; a socket session that stored something promotes once more. -/
def returnSync (world : SyncWorld) (call : SyncCall) : SyncWorld :=
  if call.wsPathUsed then
    match promoteFinalizedRevisions world.vault call.head with
    | (vault, .error _) => { world with vault }.failed
    | (vault, .ok ()) => { world with vault, call := some { call with stage := .returned } }
  else
    { world with call := some { call with stage := .returned } }

/-- The steps of a call after its start. -/
inductive CallOp where
  | ingestChunk (nowMs : Int) (now : Nat)
  | settleChunk
  | endBackfill
  /-- Events of the vault arrive through the socket. -/
  | receive (logs : List VerifiedRevisionEvent) (nowMs : Int) (now : Nat)
  | returnSync
  /-- A request to the node fails. -/
  | fail

/-- A step of a call; one that is not its turn does nothing. -/
def callStep (hash : CanonicalHash) (vaultId : VaultId) (world : SyncWorld) (call : SyncCall) :
    CallOp → SyncWorld
  | .ingestChunk nowMs now =>
      if call.stage = .backfill ∧ call.cursor < call.head then
        world.ingestChunk hash vaultId call nowMs now
      else
        world
  | .settleChunk =>
      match call.stage with
      | .ingested chunkEnd => world.settleChunk call chunkEnd
      | _ => world
  | .endBackfill =>
      if call.stage = .backfill ∧ call.head ≤ call.cursor then world.endBackfill call else world
  | .receive logs nowMs now =>
      if call.stage = .following then world.receiveEvents hash call nowMs now logs else world
  | .returnSync => if call.stage = .following then world.returnSync call else world
  | .fail => if call.stage = .returned then world else world.failed

inductive SyncOp where
  /-- The last `depth` blocks give way to `fresh` ones; with none the chain just grows. -/
  | reorg (depth : Nat) (fresh : Blocks)
  | authorize (authorized : List EvmAddress)
  | startSync (options : SyncOptions)
  | callStep (op : CallOp)

def reorged (world : SyncWorld) (depth : Nat) (fresh : Blocks) : Blocks :=
  world.blocks.take (world.blocks.length - depth) ++ fresh

/-- The call, unless it has returned: a vault runs one at a time. -/
def running (world : SyncWorld) : Option SyncCall :=
  world.call.filter fun call => call.stage ≠ .returned

def step (hash : CanonicalHash) (env : ChainEnv) (vaultId : VaultId) (world : SyncWorld) :
    SyncOp → SyncWorld
  | .reorg depth fresh => { world with blocks := world.reorged depth fresh }
  | .authorize authorized => { world with authorized }
  | .startSync options => if world.running.isSome then world else world.startSync env options
  | .callStep op =>
      match world.call with
      | none => world
      | some call => world.callStep hash vaultId call op

end SyncWorld

end Pangolin.Store
