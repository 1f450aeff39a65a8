import Pangolin.Store.Session

/-!
# Pairing a device

The calls a host makes to add a device to a vault.  The new device and the manager
exchange payloads, both derive a short code from them, and once a human has seen the
codes agree the manager authorises the new device on chain, seals the VDK to it and
remembers it.  The new device then opens the seal and adopts the vault.

A payload crosses the boundary as byte strings whose lengths are checked on the way in.
A byte string is named here by its length and its big-endian value.
-/

namespace Pangolin.Ffi

open Crypto Store

inductive FfiError where
  | session (message : String)
  | validation (kind message : String)
  | chain
  | store (error : StoreError)
  deriving Repr, DecidableEq

/-! ## Payloads -/

structure HostBytes where
  length : Nat
  value : Nat
  deriving Repr, DecidableEq

/-- `fixed_bytes`. -/
def fixedBytes (size : Nat) (bytes : HostBytes) (what : String) : Except FfiError Nat :=
  if bytes.length = size then
    .ok bytes.value
  else
    .error (.validation "argument" (what ++ " must be " ++ toString size ++ " bytes (got " ++
      toString bytes.length ++ ")"))

/-- A 16-byte freshness nonce. -/
structure FreshnessNonce where
  raw : Nat
  deriving Repr, DecidableEq

structure PairingPayload where
  schemaVersion : Nat
  vaultId : VaultId
  deviceId : DeviceId
  x25519PairingPub : X25519Pub
  signer : EvmAddress
  freshnessNonce : FreshnessNonce
  deriving Repr, DecidableEq

/-- The only payload version this build accepts. -/
def pairingPayloadSchemaVersion : Nat := 2

structure FfiPairingPayload where
  payloadSchemaVersion : Nat
  vaultId : HostBytes
  deviceId : HostBytes
  x25519PairingPub : HostBytes
  signer : HostBytes
  freshnessNonce : HostBytes
  deriving Repr, DecidableEq

namespace FfiPairingPayload

def fromPayload (payload : PairingPayload) : FfiPairingPayload where
  payloadSchemaVersion := payload.schemaVersion
  vaultId := ⟨32, payload.vaultId.raw⟩
  deviceId := ⟨32, payload.deviceId.raw⟩
  x25519PairingPub := ⟨32, payload.x25519PairingPub.raw⟩
  signer := ⟨20, payload.signer.raw⟩
  freshnessNonce := ⟨16, payload.freshnessNonce.raw⟩

/-- `to_payload`: the lengths first, the version's range last. -/
def toPayload (ffi : FfiPairingPayload) : Except FfiError PairingPayload := do
  let vaultId ← fixedBytes 32 ffi.vaultId "FfiPairingPayload.vault_id"
  let deviceId ← fixedBytes 32 ffi.deviceId "FfiPairingPayload.device_id"
  let pairingPub ← fixedBytes 32 ffi.x25519PairingPub "FfiPairingPayload.x25519_pairing_pub"
  let signer ← fixedBytes 20 ffi.signer "FfiPairingPayload.signer"
  let freshnessNonce ← fixedBytes 16 ffi.freshnessNonce "FfiPairingPayload.freshness_nonce"
  if 255 < ffi.payloadSchemaVersion then
    .error (.validation "argument"
      "FfiPairingPayload.payload_schema_version must fit in u8")
  else
    .ok ⟨ffi.payloadSchemaVersion, ⟨vaultId⟩, ⟨deviceId⟩, ⟨pairingPub⟩, ⟨signer⟩,
      ⟨freshnessNonce⟩⟩

/-- A payload a device built comes back unchanged. -/
theorem toPayload_fromPayload {payload : PairingPayload} (small : payload.schemaVersion ≤ 255) :
    (fromPayload payload).toPayload = .ok payload := by
  have fits : ¬ 255 < payload.schemaVersion := by omega
  simp [toPayload, fromPayload, fixedBytes, bind, Except.bind, fits]

end FfiPairingPayload

/-! ## Building payloads -/

/-- `Vault::state` is `Active`. -/
def isActive (vault : Vault) : Bool :=
  match vault.session with
  | .active .. => true
  | _ => false

/-- The body of the two payload builders: the session's own identity under a nonce. -/
def localPayload (vault : Vault) (freshnessNonce : FreshnessNonce) :
    Except FfiError PairingPayload :=
  if isActive vault then
    match vault.active with
    | none => .error (.store .notUnlocked)
    | some active =>
        .ok ⟨pairingPayloadSchemaVersion, vault.vaultMeta.vaultId, active.deviceKey.deviceId,
          active.deviceKey.pairing.publicKey, active.deviceKey.evmAddress, freshnessNonce⟩
  else
    .error (.session "vault is not unlocked")

/-- `pairing_begin_new_device`, given the nonce it draws. -/
def pairingBeginNewDevice (vault : Vault) (drawn : FreshnessNonce) :
    Except FfiError FfiPairingPayload := do
  let payload ← localPayload vault drawn
  return .fromPayload payload

/-- `pairing_local_payload`: the manager answers under the nonce it received. -/
def pairingLocalPayload (vault : Vault) (theirFreshnessNonce : HostBytes) :
    Except FfiError FfiPairingPayload := do
  let freshnessNonce ← fixedBytes 16 theirFreshnessNonce "freshness_nonce"
  let payload ← localPayload vault ⟨freshnessNonce⟩
  return .fromPayload payload

/-! ## The short code -/

/-- What the code's hash reads: the two pairing keys in byte order and the nonce. -/
structure SasInput where
  lo : X25519Pub
  hi : X25519Pub
  freshnessNonce : FreshnessNonce
  deriving Repr, DecidableEq

section

variable {Sas : Type} (hash : SasInput → Sas)

/-- `derive_sas`. -/
def deriveSas (pubA pubB : X25519Pub) (freshnessNonce : FreshnessNonce) : Sas :=
  if pubA.raw ≤ pubB.raw then
    hash ⟨pubA, pubB, freshnessNonce⟩
  else
    hash ⟨pubB, pubA, freshnessNonce⟩

/-- `pairing_derive_sas`. -/
def pairingDeriveSas (payloadA payloadB : FfiPairingPayload) : Except FfiError Sas := do
  let a ← payloadA.toPayload
  let b ← payloadB.toPayload
  if a.freshnessNonce ≠ b.freshnessNonce then
    .error (.validation "argument"
      ("pairing_derive_sas: both payloads must carry the same freshness_nonce " ++
        "(the manager binds the new device's nonce into its own payload)"))
  else
    .ok (deriveSas hash a.x25519PairingPub b.x25519PairingPub a.freshnessNonce)

variable {hash}

/-- Codes of an injective hash agree exactly on the same nonce and the same two keys. -/
theorem deriveSas_eq_iff (injective : Function.Injective hash) (a b c d : X25519Pub)
    (nonce nonce' : FreshnessNonce) :
    deriveSas hash a b nonce = deriveSas hash c d nonce' ↔
      nonce = nonce' ∧ (a = c ∧ b = d ∨ a = d ∧ b = c) := by
  obtain ⟨a⟩ := a
  obtain ⟨b⟩ := b
  obtain ⟨c⟩ := c
  obtain ⟨d⟩ := d
  unfold deriveSas
  split <;> split <;> rw [injective.eq_iff] <;>
    simp only [SasInput.mk.injEq, X25519Pub.mk.injEq] <;>
    constructor
  all_goals
    rintro ⟨first, second⟩
    grind

end

/-! ## Adding the device -/

/-- The fields of an `AddDevice` authorisation. -/
structure DeviceAuthFields where
  vaultId : VaultId
  subject : EvmAddress
  nonce : Nat
  schemaVersion : Nat
  deriving Repr, DecidableEq

/-- An `addDevice` transaction: who signed and sends it, whom it adds, and the signed
authorisation. -/
structure AddDeviceTx where
  sender : EvmAddress
  newSigner : EvmAddress
  authorization : DeviceAuthFields
  deriving Repr, DecidableEq

/-- What the chain answers: whether the deployment resolves, the device nonce of a
vault, and whether a transaction lands. -/
structure Chain where
  deployment : Bool
  deviceNonce : VaultId → Option Nat
  addDevice : AddDeviceTx → Bool

/-- `REVISIONLOG_V2_SCHEMA_VERSION`. -/
def revisionLogV2SchemaVersion : Nat := 1

/-- The checks of `vault_add_device` on the payload: the one it goes on to act on. -/
def acceptPayload (newDevicePayload : FfiPairingPayload) : Except FfiError PairingPayload := do
  let payload ← newDevicePayload.toPayload
  if payload.schemaVersion ≠ pairingPayloadSchemaVersion then
    .error (.validation "argument" ("unsupported pairing payload schema version " ++
      toString payload.schemaVersion ++ " (expected " ++
      toString pairingPayloadSchemaVersion ++ ")"))
  else
    .ok payload

/-- What `vault_add_device` leaves behind: the vault, the transaction it sent, and the
envelope or the error it returns. -/
structure AddDeviceOutcome where
  vault : Vault
  sent : Option AddDeviceTx
  result : Except FfiError SealedBox

/-- The transaction for a payload: its signer is the address added. -/
def addDeviceTx (vault : Vault) (sender : EvmAddress) (payload : PairingPayload)
    (nonce : Nat) : AddDeviceTx where
  sender := sender
  newSigner := payload.signer
  authorization := ⟨vault.vaultMeta.vaultId, payload.signer, nonce, revisionLogV2SchemaVersion⟩

def PairingPayload.directoryEntry (payload : PairingPayload) : DirectoryEntry :=
  ⟨payload.signer, payload.deviceId, payload.x25519PairingPub⟩

/-- `vault_add_device` after the transaction landed: seal the VDK at epoch 0 and record
the device. -/
def sealAndRecord (vault : Vault) (sent : AddDeviceTx) (payload : PairingPayload) :
    AddDeviceOutcome :=
  match sealVdkForNewDevice vault payload.x25519PairingPub payload.deviceId
      vault.vaultMeta.vaultId 0 with
  | .error error => ⟨vault, some sent, .error (.store error)⟩
  | .ok envelope =>
      ⟨recordDeviceDirectoryEntry vault payload.directoryEntry, some sent, .ok envelope⟩

/-- `vault_add_device`.  The payload's own vault id is not looked at. -/
def vaultAddDevice (vault : Vault) (chain : Chain) (newDevicePayload : FfiPairingPayload) :
    AddDeviceOutcome :=
  match acceptPayload newDevicePayload with
  | .error error => ⟨vault, none, .error error⟩
  | .ok payload =>
      if isActive vault then
        match vault.active with
        | none => ⟨vault, none, .error (.store .notUnlocked)⟩
        | some active =>
            match if chain.deployment then chain.deviceNonce vault.vaultMeta.vaultId
                else none with
            | none => ⟨vault, none, .error .chain⟩
            | some nonce =>
                let tx := addDeviceTx vault active.deviceKey.evmAddress payload nonce
                if chain.addDevice tx then
                  sealAndRecord vault tx payload
                else
                  ⟨vault, some tx, .error .chain⟩
      else
        ⟨vault, none, .error (.session "vault is not unlocked")⟩

/-! ## Joining -/

/-- The sealed bytes a host hands over: an empty buffer, or one that holds a box. -/
inductive SealedVdkBytes where
  | empty
  | sealedBox (box : SealedBox)
  deriving Repr, DecidableEq

/-- `pairing_open_and_join`, given the KDF salt the install draws. -/
def pairingOpenAndJoin (vault : Vault) (sealedVdkBytes : SealedVdkBytes) (vaultId : HostBytes)
    (epoch : Nat) (masterPassword : Password) (salt : KdfSalt) :
    Vault × Except FfiError Unit :=
  match fixedBytes 32 vaultId "vault_id" with
  | .error error => (vault, .error error)
  | .ok vaultId =>
      match sealedVdkBytes with
      | .empty =>
          (vault, .error (.validation "argument" "sealed_vdk_bytes must be non-empty"))
      | .sealedBox box =>
          if isActive vault then
            match openPairedVdkSeal vault box ⟨vaultId⟩ epoch with
            | .error error => (vault, .error (.store error))
            | .ok recovered =>
                match installPairedVdk vault recovered ⟨vaultId⟩ masterPassword salt with
                | (joined, .error error) => (joined, .error (.store error))
                | (joined, .ok ()) => (joined, .ok ())
          else
            (vault, .error (.session "vault is not unlocked"))

end Pangolin.Ffi
