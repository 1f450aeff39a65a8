import Pangolin.Core.Composition
import Pangolin.Store.Ingest
import Pangolin.Lib.Reaches

/-!
# The vault as a state machine

Every modelled call is an operation of one machine whose state is a vault handle and
its file.  A step is total: a failing call leaves whatever the source leaves behind.
Statements about runs quantify over lists of these operations, restricted by guards
on the state before each step.
-/

namespace Pangolin

open Crypto Store Pangolin.Core Transition

/-- One call on the vault with all its inputs, drawn randomness and clocks. -/
inductive Op where
  | unlock (input : UnlockInput)
  | lock
  | reopen (placeholder : DeviceId) (sessionIdle : SessionDuration)
  | accountAdd (validated : Except StoreError AccountIdentity) (accountId : AccountId)
      (draw : WriteDraw)
  | accountUpdate (accountId : AccountId)
      (patch : AccountIdentity → Except StoreError AccountIdentity) (draw : WriteDraw)
  | deleteAccount (accountId : AccountId) (draw : WriteDraw)
  | resolveFork (accountId : AccountId) (keep : RevisionId) (draw : WriteDraw)
  | stashPendingMerge (merge : PendingMergeRow) (now : Nat)
  | onboardGuardians (threshold : Nat) (pubs : List X25519Pub) (signers : List EvmAddress)
      (draw : EscrowDraw)
  | persistRecoveryRecipient (target : VaultId) (attemptNonce : Nat) (secret : X25519Secret)
      (pub : X25519Pub) (nowUnix : Int)
  | clearRecoveryRecipient (target : VaultId)
  | recoverWithNewPassword (recovered : VdkKey) (password : Password) (salt : KdfSalt)
  | commitRecoveryRekey (recovered : VdkKey) (password : Password) (salt : KdfSalt)
      (reSplit : EscrowGeneration)
  | recoverFromShares (input : RecoveryInput)
  | commitVdkRotationFromActive (commit : RotationCommit)
  | completeRotation (password : Password) (onchain : List EvmAddress) (draw : RotationDraw)
  | installPairedVdk (received : VdkKey) (vaultId : VaultId) (password : Password)
      (salt : KdfSalt)
  | upsertDirectory (entry : DirectoryEntry)
  | queueRotationPending (pending : RotationPending)
  | markPublished (revisionId : RevisionId) (anchor : ChainAnchor) (now : Nat)
  | ingestPending (event : RevisionEvent) (observedAtBlock observedBlockHash : Nat)
      (nowMs : Int) (now : Nat)
  | promoteFinalized (head : Nat)
  | rollbackPending (low high : Nat)

section

variable (scheme : ShareScheme) (hash : CanonicalHash)

/-- The state a call leaves behind. -/
def step (vault : Vault) : Op → Vault
  | .unlock input => (unlock vault input).1
  | .lock => lock vault
  | .reopen placeholder sessionIdle => openVault vault.disk placeholder sessionIdle
  | .accountAdd validated accountId draw => (accountAdd vault validated accountId draw).1
  | .accountUpdate accountId patch draw => (accountUpdate vault accountId patch draw).1
  | .deleteAccount accountId draw => (deleteAccount vault accountId draw).1
  | .resolveFork accountId keep draw => (resolveFork vault accountId keep draw).1
  | .stashPendingMerge merge now => (stashPendingMerge vault merge now).1
  | .onboardGuardians threshold pubs signers draw =>
      (onboardGuardians scheme vault threshold pubs signers draw).1
  | .persistRecoveryRecipient target attemptNonce secret pub nowUnix =>
      (persistRecoveryRecipient vault target attemptNonce secret pub nowUnix).1
  | .clearRecoveryRecipient target => (clearRecoveryRecipient vault target).1
  | .recoverWithNewPassword recovered password salt =>
      (recoverWithNewPassword vault recovered password salt).1
  | .commitRecoveryRekey recovered password salt reSplit =>
      (commitRecoveryRekey vault recovered password salt reSplit).1
  | .recoverFromShares input => (recoverFromShares scheme vault input).1
  | .commitVdkRotationFromActive commit => (commitVdkRotationFromActive vault commit).1
  | .completeRotation password onchain draw =>
      (completeRotation scheme vault password onchain draw).1
  | .installPairedVdk received vaultId password salt =>
      (installPairedVdk vault received vaultId password salt).1
  | .upsertDirectory entry =>
      let directory := Table.upsert DirectoryEntry.signer vault.disk.deviceSet.directory entry
      { vault with disk := { vault.disk with
        deviceSet := { vault.disk.deviceSet with directory } } }
  | .queueRotationPending pending =>
      let rotationPending := Table.insertIgnore RotationPending.removedSigner
        vault.disk.deviceSet.rotationPending pending
      { vault with disk := { vault.disk with
        deviceSet := { vault.disk.deviceSet with rotationPending } } }
  | .markPublished revisionId anchor now => (markPublished vault revisionId anchor now).1
  | .ingestPending event observedAtBlock observedBlockHash nowMs now =>
      (ingestPendingChainRevision hash vault event observedAtBlock observedBlockHash nowMs
        now).1
  | .promoteFinalized head => (promoteFinalizedRevisions vault head).1
  | .rollbackPending low high => (rollbackPendingRevisionsInRange vault low high).1

/-- The state after a list of calls. -/
def runOps (vault : Vault) (ops : List Op) : Vault :=
  ops.foldl (step scheme hash) vault

end

/-! ## Small inputs

The pieces of the concrete runs that are evaluated below. -/

namespace Sample

def device : DeviceKey := ⟨10, ⟨11⟩, ⟨12⟩, ⟨13⟩, ⟨14⟩⟩

/-- A new vault with id 7, VDK 2 and password `[1]`. -/
def vault : Vault := create ⟨[1]⟩ ⟨⟨7⟩, ⟨1⟩, ⟨2⟩, ⟨3⟩, 0⟩

/-- A digest that tells accounts apart. -/
def hash : CanonicalHash := fun content => ⟨content.accountId.raw + 1⟩

def run (start : Vault) (ops : List Op) : Vault := runOps countingScheme hash start ops

def identity : AccountIdentity := ⟨[1], [], [], [], [], [], [], ⟨0, 6, 30⟩⟩

/-- The draw of a write: a revision id and a nonce that is not the placeholder. -/
def draw (revision : Nat) : WriteDraw :=
  ⟨⟨revision⟩, ⟨⟨revision + 1⟩, by simp [Nonce.placeholder]⟩, 0, 0⟩

def unlockInput (password : Password) : UnlockInput := ⟨true, password, device, 0⟩

def unlock (password : Password) : Op := .unlock (unlockInput password)

def add (account revision : Nat) : Op := .accountAdd (.ok identity) ⟨account⟩ (draw revision)

def onboard : Op :=
  .onboardGuardians 2 [⟨21⟩, ⟨22⟩, ⟨23⟩] [⟨31⟩, ⟨32⟩, ⟨33⟩] ⟨⟨5⟩, 0⟩

/-- A directory entry for a second device, and a rotation that keeps it. -/
def directory : Op := .upsertDirectory ⟨⟨41⟩, ⟨42⟩, ⟨43⟩⟩

def rotate (vdk salt : Nat) (password : Password) : Op :=
  .completeRotation password [⟨41⟩] ⟨⟨vdk⟩, ⟨salt⟩, ⟨⟨6⟩, 0⟩⟩

end Sample

end Pangolin
