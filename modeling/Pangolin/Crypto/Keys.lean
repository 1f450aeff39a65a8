import Pangolin.Lib.Sealed

/-!
# Keys, identifiers and the password authority

Identifiers and keys are 32-byte strings in the source; here each is a number in
its own type, so that byte-wise (big-endian) comparison is the comparison of
numbers.  The password KDF and the AEAD are ideal: an authority key is the triple
it was derived from, and a wrapped key opens only under the authority and the
context it was wrapped with.
-/

namespace Pangolin.Crypto

open Symbolic

structure VaultId where
  raw : Nat
  deriving Repr, DecidableEq

structure DeviceId where
  raw : Nat
  deriving Repr, DecidableEq

/-- A 20-byte secp256k1 address. -/
structure EvmAddress where
  raw : Nat
  deriving Repr, DecidableEq

/-- A 24-byte AEAD nonce. -/
structure Nonce where
  raw : Nat
  deriving Repr, DecidableEq

/-- The all-zero nonce stored beside payloads this device did not seal. -/
def Nonce.placeholder : Nonce := ⟨0⟩

/-- A nonce from `Nonce::random`: the all-zero value is never drawn. -/
structure DrawnNonce where
  value : Nonce
  notPlaceholder : value ≠ Nonce.placeholder
  deriving Repr, DecidableEq

/-! ## Password authority -/

structure Password where
  bytes : List UInt8
  deriving Repr, DecidableEq

structure KdfSalt where
  raw : Nat
  deriving Repr, DecidableEq

structure KdfParams where
  memoryKib : Nat
  timeCost : Nat
  parallelism : Nat
  deriving Repr, DecidableEq

namespace KdfParams

def recommended : KdfParams := ⟨256 * 1024, 3, 1⟩

/-- The floor below which `derive_seed` refuses to run. -/
def validate (params : KdfParams) : Bool :=
  decide (64 * 1024 ≤ params.memoryKib) && decide (3 ≤ params.timeCost) &&
    decide (1 ≤ params.parallelism)

@[simp] theorem validate_recommended : recommended.validate = true := rfl

end KdfParams

/-- The key `AuthorityKey::from_seed` builds from a KDF output.  The KDF is
injective, so the key is identified with what it was derived from. -/
structure AuthorityKey where
  password : Password
  salt : KdfSalt
  params : KdfParams
  deriving Repr, DecidableEq

/-- `kdf::derive_seed` followed by `AuthorityKey::from_seed`. -/
def deriveAuthority (password : Password) (salt : KdfSalt) (params : KdfParams) :
    Option AuthorityKey :=
  if params.validate then some ⟨password, salt, params⟩ else none

@[simp] theorem deriveAuthority_recommended (password : Password) (salt : KdfSalt) :
    deriveAuthority password salt .recommended =
      some ⟨password, salt, .recommended⟩ := rfl

/-! ## The vault data key and its wrappers -/

/-- The vault data key; it doubles as the column-AEAD key of every sealed row. -/
structure VdkKey where
  raw : Nat
  deriving Repr, DecidableEq

/-- What a wrapped VDK is bound to. -/
structure WrapContext where
  vaultId : VaultId
  schemaVersion : Nat
  deriving Repr, DecidableEq

def WrapContext.new (vaultId : VaultId) : WrapContext := ⟨vaultId, 0⟩

/-- The stored columns of a VDK wrapped under the password authority.  The nonce
column travels with the ciphertext; the context does not, and readers rebuild it. -/
abbrev WrappedVdk := Sealed AuthorityKey WrapContext VdkKey

def VdkKey.wrap (vdk : VdkKey) (authority : AuthorityKey) (context : WrapContext) :
    WrappedVdk :=
  ⟨authority, context, vdk⟩

/-- `WrappedVdk::unwrap_with` on columns paired with a rebuilt context. -/
def unwrapWith (wrapped : WrappedVdk) (context : WrapContext) (authority : AuthorityKey) :
    Option VdkKey :=
  wrapped.open? authority context

theorem unwrapWith_eq_some_iff (wrapped : WrappedVdk) (context : WrapContext)
    (authority : AuthorityKey) (vdk : VdkKey) :
    unwrapWith wrapped context authority = some vdk ↔
      wrapped.key = authority ∧ wrapped.context = context ∧ wrapped.msg = vdk :=
  Sealed.open?_eq_some_iff wrapped authority context vdk

@[simp] theorem unwrapWith_wrap (vdk : VdkKey) (authority : AuthorityKey)
    (context : WrapContext) :
    unwrapWith (vdk.wrap authority context) context authority = some vdk :=
  (unwrapWith_eq_some_iff _ _ _ _).mpr ⟨rfl, rfl, rfl⟩

/-! ## Device keys -/

/-- An X25519 key pair, named by its secret half. -/
structure X25519Secret where
  raw : Nat
  deriving Repr, DecidableEq

structure X25519Pub where
  raw : Nat
  deriving Repr, DecidableEq

/-- Distinct secrets have distinct public keys. -/
def X25519Secret.publicKey (secret : X25519Secret) : X25519Pub := ⟨secret.raw⟩

/-- A device's Ed25519 seed together with everything the source derives from it:
the device id (its verifying key), the EVM address, and the two X25519 key pairs
used as guardian and as pairing recipient. -/
structure DeviceKey where
  seed : Nat
  deviceId : DeviceId
  evmAddress : EvmAddress
  sealing : X25519Secret
  pairing : X25519Secret
  deriving Repr, DecidableEq

/-- A VDK wrapped for one device's at-rest fast unlock. -/
abbrev DeviceWrappedVdk := Sealed DeviceKey WrapContext VdkKey

def wrapVdkForDevice (vdk : VdkKey) (device : DeviceKey) (context : WrapContext) :
    DeviceWrappedVdk :=
  ⟨device, context, vdk⟩

end Pangolin.Crypto
