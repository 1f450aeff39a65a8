import Pangolin.Store.Hydrate
import Pangolin.Store.Device
import Pangolin.Store.RecoveryEscrow

/-!
# The vault handle

A vault is the file together with the handle's memory: a copy of the meta row, the
session state and, while unlocked, the decrypted session.  Calls that fail leave
the file as it was; what they leave in memory is part of their result.
-/

namespace Pangolin.Store

open Crypto

/-! ## Sessions -/

inductive SessionDuration where
  | min5
  | min15
  | min30
  | hour1
  | hour4
  | untilDeviceLock
  deriving Repr, DecidableEq

/-- Idle window in milliseconds; none for "until device lock". -/
def SessionDuration.idleWindow : SessionDuration → Option Nat
  | .min5 => some (5 * 60 * 1000)
  | .min15 => some (15 * 60 * 1000)
  | .min30 => some (30 * 60 * 1000)
  | .hour1 => some (60 * 60 * 1000)
  | .hour4 => some (4 * 3600 * 1000)
  | .untilDeviceLock => none

def absoluteMax : Nat := 4 * 3600 * 1000

def nextIdleDeadline (now sessionStartedAt : Nat) (idle : SessionDuration) : Nat :=
  match idle.idleWindow with
  | none => sessionStartedAt + absoluteMax
  | some window => min (now + window) (sessionStartedAt + absoluteMax)

inductive SessionState where
  | locked
  | pendingAuthorization
  | active (expiresAt lastProofAt sessionStartedAt : Nat)
  | expired
  deriving Repr, DecidableEq

/-- The decrypted session. -/
structure ActiveState where
  vdk : VdkKey
  chain : VdkChain
  cache : List (AccountId × AccountIdentity)
  deviceKey : DeviceKey
  requiresUpgrade : List AccountId
  deriving Repr, DecidableEq

structure Vault where
  disk : Disk
  /-- The handle's copy of the meta row. -/
  vaultMeta : VaultMeta
  deviceId : DeviceId
  session : SessionState
  active : Option ActiveState
  sessionIdle : SessionDuration
  deriving Repr, DecidableEq

/-- What a call on `&mut self` leaves behind and returns. -/
abbrev Call (α : Type) := Vault × Except StoreError α

/-- A call that touches nothing unless it succeeds. -/
def atomically {α : Type} (vault : Vault) (result : Except StoreError (Vault × α)) : Call α :=
  match result with
  | .ok (vault', value) => (vault', .ok value)
  | .error error => (vault, .error error)

/-! ## Create, open, lock -/

/-- The randomness and clock `create` draws on. -/
structure CreateDraw where
  vaultId : VaultId
  salt : KdfSalt
  vdk : VdkKey
  deviceId : DeviceId
  nowMs : Int
  deriving Repr, DecidableEq

/-- A meta row wrapping `vdk` under a password with a fresh salt and the recommended
KDF parameters. -/
def freshMeta (vaultId : VaultId) (createdAt : Int) (vdk : VdkKey) (password : Password)
    (salt : KdfSalt) : VaultMeta :=
  { vaultId
    createdAt
    kdfParams := .recommended
    kdfSalt := salt
    wrapContext := .new vaultId
    wrapped := vdk.wrap ⟨password, salt, .recommended⟩ (.new vaultId) }

/-- `Vault::create`; a new vault is bound to the first revision log. -/
def create (password : Password) (draw : CreateDraw) : Vault :=
  let vaultMeta := freshMeta draw.vaultId draw.nowMs draw.vdk password draw.salt
  { disk := {
      keys := ⟨vaultMeta, [], none, [], none, ⟨none, none, some 1⟩⟩
      escrow := ⟨none, []⟩
      recipients := []
      deviceSet := ⟨[], []⟩
      log := ⟨[], [], [], []⟩ }
    vaultMeta
    deviceId := draw.deviceId
    session := .locked
    active := none
    sessionIdle := .min15 }

/-- `Vault::open` on the file of a closed handle, with the idle duration its settings
decode to. -/
def openVault (disk : Disk) (placeholder : DeviceId) (sessionIdle : SessionDuration) : Vault :=
  { disk
    vaultMeta := disk.keys.vaultMeta
    deviceId := (readRegisteredDeviceId disk.keys).getD placeholder
    session := .locked
    active := none
    sessionIdle }

def lock (vault : Vault) : Vault :=
  { vault with active := none, session := .locked }

/-! ## Unlock -/

structure UnlockInput where
  /-- The presence proof verifies: unused and fresh. -/
  presence : Bool
  password : Password
  /-- The key generated if this unlock registers the device. -/
  generated : DeviceKey
  now : Nat
  deriving Repr, DecidableEq

/-- The keys an unlock derives from a password: the current VDK and the chain. -/
def openKeys (keys : KeyTables) (vaultMeta : VaultMeta) (password : Password) :
    Except StoreError (VdkKey × VdkChain) :=
  if password.bytes.isEmpty then
    .error .authenticationFailed
  else
    match deriveAuthority password vaultMeta.kdfSalt vaultMeta.kdfParams with
    | none => .error .authenticationFailed
    | some authority =>
        match unwrapWith vaultMeta.wrapped vaultMeta.wrapContext authority with
        | none => .error .authenticationFailed
        | some vdk => do
            let chain ← buildOnUnlock keys vaultMeta.vaultId authority
            return (vdk, chain)

def tryUnlock (vault : Vault) (input : UnlockInput) : Except StoreError (Vault × Unit) :=
  if ¬ input.presence then
    .error .authenticationFailed
  else do
    let (vdk, chain) ← openKeys vault.disk.keys vault.vaultMeta input.password
    let data ← buildActiveStateData vault.disk.log vault.vaultMeta.vaultId vdk chain
    let (deviceKey, keys) ← loadOrRegisterDevice vault.disk.keys vault.vaultMeta.vaultId vdk
      input.generated input.now
    return ({ vault with
      disk := { vault.disk with keys }
      deviceId := deviceKey.deviceId
      session := .active (nextIdleDeadline input.now input.now vault.sessionIdle)
        input.now input.now
      active := some ⟨vdk, chain, data.cache, deviceKey, data.requiresUpgrade⟩ }, ())

/-- `Vault::unlock`; a failed unlock leaves an existing session alone. -/
def unlock (vault : Vault) (input : UnlockInput) : Call Unit :=
  atomically vault (tryUnlock vault input)

/-! ## Session discipline of the account calls -/

/-- `touch_session`. -/
def touchSession (vault : Vault) (now : Nat) : Vault :=
  match vault.session with
  | .active _ _ startedAt =>
      let deadline := nextIdleDeadline now startedAt vault.sessionIdle
      { vault with session := .active deadline now startedAt }
  | _ => vault

@[simp] theorem touchSession_disk (vault : Vault) (now : Nat) :
    (touchSession vault now).disk = vault.disk := by
  unfold touchSession
  split <;> rfl

@[simp] theorem touchSession_vaultMeta (vault : Vault) (now : Nat) :
    (touchSession vault now).vaultMeta = vault.vaultMeta := by
  unfold touchSession
  split <;> rfl

@[simp] theorem touchSession_deviceId (vault : Vault) (now : Nat) :
    (touchSession vault now).deviceId = vault.deviceId := by
  unfold touchSession
  split <;> rfl

@[simp] theorem touchSession_active (vault : Vault) (now : Nat) :
    (touchSession vault now).active = vault.active := by
  unfold touchSession
  split <;> rfl

/-- `check_session_freshness`, `require_active`, the body, `touch_session`: the shape
of every session-class account call.  An expired session is dropped on the way. -/
def withFreshSession {α : Type} (vault : Vault) (now : Nat)
    (body : ActiveState → Except StoreError (Vault × α)) : Call α :=
  match vault.session with
  | .locked => (vault, .error .notUnlocked)
  | .pendingAuthorization => (vault, .error .sessionPending)
  | .expired => (vault, .error .sessionExpired)
  | .active expiresAt _ _ =>
      if expiresAt < now then
        ({ vault with active := none, session := .expired }, .error .sessionExpired)
      else
        match vault.active with
        | none => (vault, .error .notUnlocked)
        | some active =>
            match body active with
            | .error error => (vault, .error error)
            | .ok (vault', value) => (touchSession vault' now, .ok value)

/-- The calls that need a session but no freshness check. -/
def withActive {α : Type} (vault : Vault)
    (body : ActiveState → Except StoreError (Vault × α)) : Call α :=
  match vault.active with
  | none => (vault, .error .notUnlocked)
  | some active => atomically vault (body active)

/-- Such a call leaves the vault alone unless its body succeeds in the session. -/
theorem withActive_cases {α : Type} (vault : Vault)
    (body : ActiveState → Except StoreError (Vault × α)) :
    (∃ error, withActive vault body = (vault, .error error)) ∨
      ∃ active vault' value, vault.active = some active ∧ body active = .ok (vault', value) ∧
        withActive vault body = (vault', .ok value) := by
  unfold withActive atomically
  split
  · exact .inl ⟨_, rfl⟩
  · next active session =>
      split
      · next vault' value done => exact .inr ⟨active, vault', value, session, done, rfl⟩
      · next error _ => exact .inl ⟨error, rfl⟩

end Pangolin.Store
