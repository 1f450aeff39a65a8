import Pangolin.Store.Publish
import Pangolin.Store.Settings

/-!
# Session calls

The calls that manage the session, and those that use its keys without being account
calls.  Some of the latter check that the session is fresh, others only that one is in
memory.

A call reads the clock once; what the presence prompt answers is an input.
-/

namespace Pangolin.Store

open Crypto

/-! ## Freshness and presence -/

/-- `check_session_freshness`. -/
def checkSessionFreshness (vault : Vault) (now : Nat) : Call Unit :=
  match vault.session with
  | .locked => (vault, .error .notUnlocked)
  | .pendingAuthorization => (vault, .error .sessionPending)
  | .expired => (vault, .error .sessionExpired)
  | .active expiresAt _ _ =>
      if expiresAt < now then
        ({ vault with active := none, session := .expired }, .error .sessionExpired)
      else
        (vault, .ok ())

/-- What the presence check comes to: a recent or valid proof, a stale one, or another. -/
inductive PresenceCheck where
  | fresh
  | stale
  | refused
  deriving Repr, DecidableEq

/-- `reveal_site_auth_error` on a failed proof. -/
def PresenceCheck.verify : PresenceCheck → Except StoreError Unit
  | .fresh => .ok ()
  | .stale => .error .promptTimedOut
  | .refused => .error .authenticationFailed

/-- `ensure_presence_fresh`. -/
def ensurePresenceFresh (vault : Vault) (presence : PresenceCheck) : Except StoreError Unit :=
  match vault.active with
  | none => .error .notUnlocked
  | some _ => presence.verify

/-- `touch_session_explicit`. -/
def touchSessionExplicit (vault : Vault) (presence : PresenceCheck) (now : Nat) : Call Unit :=
  match checkSessionFreshness vault now with
  | (vault, .error error) => (vault, .error error)
  | (vault, .ok ()) =>
      match ensurePresenceFresh vault presence with
      | .error error => (vault, .error error)
      | .ok () => (touchSession vault now, .ok ())

/-- `device_locked`. -/
def deviceLocked (vault : Vault) : Vault :=
  match vault.session with
  | .active .. => { vault with active := none, session := .expired }
  | _ => vault

/-! ## The idle duration -/

/-- The rank `is_longer_than` compares by. -/
def SessionDuration.rank : SessionDuration → Nat
  | .min5 => 0
  | .min15 => 1
  | .min30 => 2
  | .hour1 => 3
  | .hour4 => 4
  | .untilDeviceLock => 5

/-- `is_longer_than`. -/
def SessionDuration.isLongerThan (duration other : SessionDuration) : Bool :=
  decide (other.rank < duration.rank)

/-- The gate in front of a longer duration: the session must be fresh if there is one,
and the proof must verify. -/
def authorizeLonger (vault : Vault) (presence : Option PresenceCheck) (now : Nat) : Call Unit :=
  match presence, vault.session with
  | none, _ => (vault, .error .presenceProofRequired)
  | some presence, .active .. =>
      match checkSessionFreshness vault now with
      | (vault, .error error) => (vault, .error error)
      | (vault, .ok ()) => (vault, ensurePresenceFresh vault presence)
  | some presence, _ => (vault, presence.verify)

/-- Store the choice and derive the deadline of a running session from it. -/
def applySessionIdle (vault : Vault) (choice : SessionDuration) (now : Nat) : Vault :=
  let settings := { vault.disk.keys.settings with sessionIdleSecs := some choice.toMetaSecs }
  let session := match vault.session with
    | .active _ _ startedAt => .active (nextIdleDeadline now startedAt choice) now startedAt
    | other => other
  { vault with
    disk := { vault.disk with keys := { vault.disk.keys with settings } }
    sessionIdle := choice
    session }

/-- `set_session_idle`. -/
def setSessionIdle (vault : Vault) (choice : SessionDuration) (presence : Option PresenceCheck)
    (now : Nat) : Call Unit :=
  if choice.isLongerThan vault.sessionIdle then
    match authorizeLonger vault presence now with
    | (vault, .error error) => (vault, .error error)
    | (vault, .ok ()) => (applySessionIdle vault choice now, .ok ())
  else
    (applySessionIdle vault choice now, .ok ())

/-! ## Reading in a session -/

/-- `reveal_secret_field`: the field comes from the session's cache. -/
def revealSecretField (vault : Vault) (accountId : AccountId) (presence : PresenceCheck)
    (extract : AccountIdentity → List UInt8) (now : Nat) : Call (List UInt8) :=
  withFreshSession vault now fun active => do
    refuseUneditable vault active accountId
    presence.verify
    match active.cache.find? fun entry => entry.1 = accountId with
    | none => .error .accountNotFound
    | some (_, identity) => .ok (vault, extract identity)

/-- The hits of `account_search` among the index's candidates: frozen, deleted and newer
accounts are skipped, the others are read at their head. -/
def searchHits (vault : Vault) (active : ActiveState) :
    List AccountId → Except StoreError (List (AccountId × RevisionId × AccountIdentity))
  | [] => .ok []
  | accountId :: candidates =>
      match findAccount vault.disk.log accountId with
      | none => searchHits vault active candidates
      | some account =>
          if account.frozenPendingResolve || account.tombstoned ||
              active.requiresUpgrade.any (fun id => id = accountId) then
            searchHits vault active candidates
          else do
            let head ← readableHead vault.disk.log account
            let identity ← readIdentityAt vault active accountId head
            let rest ← searchHits vault active candidates
            return (accountId, head, identity) :: rest

/-- `account_search`, given what the in-memory index returns for the query. -/
def accountSearch (vault : Vault) (candidates : List AccountId) (now : Nat) :
    Call (List (AccountId × RevisionId × AccountIdentity)) :=
  withFreshSession vault now fun active => do
    let hits ← searchHits vault active candidates
    return (vault, hits)

/-! ## Signing and sealing -/

/-- A revision signed by the device's EVM wallet. -/
structure SignedRevisionV1 where
  signer : EvmAddress
  content : RevisionContent
  deriving Repr, DecidableEq

/-- `sign_revision_v1`; `deployment` is whether the chain crate accepts the deployment
file. -/
def signRevisionV1 (vault : Vault) (content : RevisionContent) (deployment : Bool) :
    Except StoreError SignedRevisionV1 :=
  match vault.active with
  | none => .error .notUnlocked
  | some active =>
      if deployment then .ok ⟨active.deviceKey.evmAddress, content⟩ else .error .chainSignError

/-- `seal_vdk_for_new_device`. -/
def sealVdkForNewDevice (vault : Vault) (recipient : X25519Pub) (deviceId : DeviceId)
    (vaultId : VaultId) (epoch : Nat) : Except StoreError SealedBox :=
  match vault.active with
  | none => .error .notUnlocked
  | some active => .ok (sealVdkToDevice active.vdk recipient vaultId deviceId epoch)

/-- `open_paired_vdk_seal`: the session's device key names the recipient. -/
def openPairedVdkSeal (vault : Vault) (sealedVdk : SealedBox) (vaultId : VaultId)
    (epoch : Nat) : Except StoreError VdkKey :=
  match vault.active with
  | none => .error .notUnlocked
  | some active =>
      match openVdkFromPairing sealedVdk active.deviceKey.pairing vaultId
          active.deviceKey.deviceId epoch with
      | none => .error .authenticationFailed
      | some vdk => .ok vdk

/-- `record_device_directory_entry`. -/
def recordDeviceDirectoryEntry (vault : Vault) (entry : DirectoryEntry) : Vault :=
  { vault with disk := { vault.disk with deviceSet := { vault.disk.deviceSet with
    directory := Table.upsert DirectoryEntry.signer vault.disk.deviceSet.directory entry } } }

/-! ## Pulling -/

/-- An event a chain sync hands to `ingest_pending_chain_revision`. -/
structure Delivery where
  event : RevisionEvent
  observedAtBlock : Nat
  observedBlockHash : Nat
  nowMs : Int
  deriving Repr, DecidableEq

/-- The ingests of one sync, stopped by the first that fails. -/
def ingestDeliveries (hash : CanonicalHash) (now : Nat) : Vault → List Delivery → Call Unit
  | vault, [] => (vault, .ok ())
  | vault, delivery :: deliveries =>
      match ingestPendingChainRevision hash vault delivery.event delivery.observedAtBlock
          delivery.observedBlockHash delivery.nowMs now with
      | (vault, .error error) => (vault, .error error)
      | (vault, .ok _) => ingestDeliveries hash now vault deliveries

inductive PullError where
  | noActiveSession
  | chain
  | store (error : StoreError)
  deriving Repr, DecidableEq

/-- What the sync-mode picker and the chain bring to a pull: the slow mode's deliveries
and whether the sync ends well, or a signal to the host. -/
inductive Pulled where
  | slow (deliveries : List Delivery) (complete : Bool)
  | signal
  deriving Repr, DecidableEq

/-- `pull_once`, up to the conflict report.  It asks for a session, not for a fresh one. -/
def pullOnce (hash : CanonicalHash) (vault : Vault) (pulled : Pulled) (now : Nat) :
    Vault × Except PullError Unit :=
  if vault.active.isNone then
    (vault, .error .noActiveSession)
  else
    match pulled with
    | .signal => (vault, .ok ())
    | .slow deliveries complete =>
        match ingestDeliveries hash now vault deliveries with
        | (vault, .error error) => (vault, .error (.store error))
        | (vault, .ok ()) => (vault, if complete then .ok () else .error .chain)

end Pangolin.Store
