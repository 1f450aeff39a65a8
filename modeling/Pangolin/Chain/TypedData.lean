import Pangolin.Chain.GuardianTree
import Pangolin.Contracts.DeviceSet
import Pangolin.Contracts.RecoveryV1

/-!
# What the client signs

The EIP-712 messages of the client: revisions, device management and guardian approvals.  Each is
a struct of 32-byte slots, hashed and signed under the domain of one deployment.

The digest and the precompile are the machine's.  The domain separator, the signer and the
recovery of alloy are parameters.
-/

namespace Pangolin.Chain

open Evm

/-! ## The libraries -/

/-- alloy's `Signature`. -/
structure EcdsaSignature where
  r : Bytes32
  s : Bytes32
  yParity : Bool
  deriving Repr, DecidableEq

/-- What the client calls of alloy. -/
structure Alloy where
  /-- `separator` of an `eip712_domain!` with a name, a version, a chain and a contract. -/
  separator : String → String → UInt64 → Address → Bytes32
  normalizeS : EcdsaSignature → Option EcdsaSignature
  asBytes : EcdsaSignature → Vector UInt8 65
  recoverAddressFromPrehash : EcdsaSignature → Bytes32 → Except String Address

/-- A `PrivateKeySigner`. -/
structure Wallet where
  address : Address
  signHashSync : Bytes32 → Except String EcdsaSignature

/-- The machine as a contract at an address of a chain sees it. -/
def deployedAt (machine : Machine) (chainId : UInt64) (contract : Address) : Machine :=
  { machine with chainid := BitVec.ofNat 256 chainId.toNat, self := contract }

/-- The `v` byte of a parity. -/
def recoveryByte (yParity : Bool) : UInt8 := if yParity then 28 else 27

/-- An address other than zero, which stands for a failure of the precompile. -/
def nonzero (addr : Address) : Option Address := if addr = 0 then none else some addr

/-- EIP-712's domain separator, and alloy's documented signatures: 65 bytes, low `s` after
normalisation, and the precompile's recovery. -/
structure Alloy.Documented (alloy : Alloy) (machine : Machine) : Prop where
  separator : ∀ name version chainId contract,
    alloy.separator name version chainId contract = machine.keccak256 (abiEncode [
      (machine.keccakString
        "EIP712Domain(string name,string version,uint256 chainId,address verifyingContract)").toNat,
      (machine.keccakString name).toNat, (machine.keccakString version).toNat,
      chainId.toNat, contract.toNat])
  asBytes : ∀ signature, (alloy.asBytes signature).toList =
    bigEndian 32 signature.r.toNat ++ bigEndian 32 signature.s.toNat ++
      [recoveryByte signature.yParity]
  low : ∀ signature, alloy.normalizeS signature = none → signature.s.toNat ≤ lowSMax
  normalized : ∀ signature lower, alloy.normalizeS signature = some lower →
    lower.s.toNat ≤ lowSMax ∧ ∀ digest,
      alloy.recoverAddressFromPrehash lower digest =
        alloy.recoverAddressFromPrehash signature digest
  recovers : ∀ signature digest, (alloy.recoverAddressFromPrehash signature digest).toOption =
    nonzero (machine.ecrecover digest (recoveryByte signature.yParity) signature.r signature.s)

/-- What a wallet signs recovers to its address. -/
def Wallet.Sound (wallet : Wallet) (alloy : Alloy) : Prop :=
  ∀ digest signature, wallet.signHashSync digest = .ok signature →
    alloy.recoverAddressFromPrehash signature digest = .ok wallet.address

/-! ## Struct hashes -/

/-- A right-aligned value in a zeroed slot of 32 bytes. -/
def slot (bytes : Bytes) : Bytes := List.replicate (32 - bytes.length) 0 ++ bytes

/-- `REVISION_TYPEHASH_V1`. -/
def revisionTypehashV1 : Nat := 0x240c1b72b1e92476cf861a8c19ed0f617734c55e97342ad6f99ed18467b8d211

/-- `ADD_DEVICE_TYPEHASH_V2`. -/
def addDeviceTypehashV2 : Nat := 0x279755e7721a61f392c6808f60242717f80776f95a7a209bbcece753e878465b

/-- `REMOVE_DEVICE_TYPEHASH_V2`. -/
def removeDeviceTypehashV2 : Nat :=
  0x747a3f87853a374441ba222dac7e7cda1a2b79f37db2af06c1a7d64f025ebb69

/-- `PROMOTE_TYPEHASH_V2`. -/
def promoteTypehashV2 : Nat := 0x843d7972ce26d17fc4887717ffd5efe23ff95263d4dc8a7dd733c71486c3be4b

/-- `APPROVE_TYPEHASH_V1`. -/
def approveTypehashV1 : Nat := 0x2d50d9bb83a24b2700f4d752384ad02f0b24549ca3d91247428f3b54eaa24113

/-- `APPROVE_TYPEHASH_V2`. -/
def approveTypehashV2 : Nat := 0x8035ba2c3e373fe0071228b32e9b133bd20163069315c2af924dc620245d0f28

structure RevisionFieldsV1 where
  vaultId : Bytes32
  accountId : Bytes32
  parentRevision : Bytes32
  deviceId : Bytes32
  schemaVersion : UInt16
  encPayloadHash : Bytes32
  deriving Repr, DecidableEq

inductive DeviceAuthKind where
  | addDevice
  | removeDevice
  | promote
  deriving Repr, DecidableEq

/-- `DeviceAuthKind::typehash`. -/
def DeviceAuthKind.typehash : DeviceAuthKind → Nat
  | .addDevice => addDeviceTypehashV2
  | .removeDevice => removeDeviceTypehashV2
  | .promote => promoteTypehashV2

structure DeviceAuthFields where
  kind : DeviceAuthKind
  vaultId : Bytes32
  subject : Address
  nonce : UInt64
  schemaVersion : UInt16
  deriving Repr, DecidableEq

structure ApproveFieldsV1 where
  vaultId : Bytes32
  proposedAuthority : Address
  attemptNonce : UInt64
  expiresAt : UInt64
  schemaVersion : UInt16
  deriving Repr, DecidableEq

structure ApproveFieldsV2 where
  vaultId : Bytes32
  proposedAuthority : Address
  attemptNonce : UInt64
  expiresAt : UInt64
  recipientCommitment : Bytes32
  schemaVersion : UInt16
  deriving Repr, DecidableEq

/-- The buffer of `struct_hash`. -/
def revisionBuffer (fields : RevisionFieldsV1) : Bytes :=
  bigEndian 32 revisionTypehashV1 ++ bigEndian 32 fields.vaultId.toNat ++
    bigEndian 32 fields.accountId.toNat ++ bigEndian 32 fields.parentRevision.toNat ++
    bigEndian 32 fields.deviceId.toNat ++ slot (bigEndian 2 fields.schemaVersion.toNat) ++
    bigEndian 32 fields.encPayloadHash.toNat

/-- The buffer of `device_auth_struct_hash`. -/
def deviceAuthBuffer (fields : DeviceAuthFields) : Bytes :=
  bigEndian 32 fields.kind.typehash ++ bigEndian 32 fields.vaultId.toNat ++
    slot (bigEndian 20 fields.subject.toNat) ++ slot (bigEndian 8 fields.nonce.toNat) ++
    slot (bigEndian 2 fields.schemaVersion.toNat)

/-- The buffer of `approve_struct_hash`. -/
def approveBuffer (fields : ApproveFieldsV1) : Bytes :=
  bigEndian 32 approveTypehashV1 ++ bigEndian 32 fields.vaultId.toNat ++
    slot (bigEndian 20 fields.proposedAuthority.toNat) ++
    slot (bigEndian 8 fields.attemptNonce.toNat) ++ slot (bigEndian 8 fields.expiresAt.toNat) ++
    slot (bigEndian 2 fields.schemaVersion.toNat)

/-- The buffer of `approve_struct_hash_v2`. -/
def approveBufferV2 (fields : ApproveFieldsV2) : Bytes :=
  bigEndian 32 approveTypehashV2 ++ bigEndian 32 fields.vaultId.toNat ++
    slot (bigEndian 20 fields.proposedAuthority.toNat) ++
    slot (bigEndian 8 fields.attemptNonce.toNat) ++ slot (bigEndian 8 fields.expiresAt.toNat) ++
    bigEndian 32 fields.recipientCommitment.toNat ++
    slot (bigEndian 2 fields.schemaVersion.toNat)

/-- A message of one of the client's types. -/
inductive Message where
  | revision (fields : RevisionFieldsV1)
  | deviceAuth (fields : DeviceAuthFields)
  | approveV1 (fields : ApproveFieldsV1)
  | approveV2 (fields : ApproveFieldsV2)
  deriving Repr, DecidableEq

def Message.buffer : Message → Bytes
  | .revision fields => revisionBuffer fields
  | .deviceAuth fields => deviceAuthBuffer fields
  | .approveV1 fields => approveBuffer fields
  | .approveV2 fields => approveBufferV2 fields

/-! ## Digests -/

/-- The contracts the client signs for, by the name and version of their domain. -/
inductive Deployment where
  | revisionLogV1
  | revisionLogV2
  | recovery
  deriving Repr, DecidableEq

def Deployment.domainName : Deployment → String
  | .revisionLogV1 | .revisionLogV2 => "Pangolin RevisionLog"
  | .recovery => "Pangolin Recovery"

def Deployment.domainVersion : Deployment → String
  | .revisionLogV2 => "2"
  | .revisionLogV1 | .recovery => "1"

section

variable (alloy : Alloy) (keccak256 : Bytes → Bytes32)

/-- `build_domain`, `build_domain_revisionlog_v2` and `build_domain_recovery`, with their
separators. -/
def Deployment.separator (deployment : Deployment) (contract : Address) (chainId : UInt64) :
    Bytes32 :=
  alloy.separator deployment.domainName deployment.domainVersion chainId contract

/-- `eip712_digest`. -/
def eip712Digest (domainSep structHash : Bytes32) : Bytes32 :=
  keccak256 ([0x19, 0x01] ++ bigEndian 32 domainSep.toNat ++ bigEndian 32 structHash.toNat)

/-- The digest of a message for a deployment. -/
def typedDigest (deployment : Deployment) (contract : Address) (chainId : UInt64)
    (message : Message) : Bytes32 :=
  eip712Digest keccak256 (deployment.separator alloy contract chainId)
    (keccak256 message.buffer)

/-- `revision_v2_digest`. -/
def revisionV2Digest (contract : Address) (chainId : UInt64) (fields : RevisionFieldsV1) :
    Bytes32 :=
  typedDigest alloy keccak256 .revisionLogV2 contract chainId (.revision fields)

/-- `device_auth_digest`. -/
def deviceAuthDigest (contract : Address) (chainId : UInt64) (fields : DeviceAuthFields) :
    Bytes32 :=
  typedDigest alloy keccak256 .revisionLogV2 contract chainId (.deviceAuth fields)

/-- `approve_digest`. -/
def approveDigest (contract : Address) (chainId : UInt64) (fields : ApproveFieldsV1) : Bytes32 :=
  typedDigest alloy keccak256 .recovery contract chainId (.approveV1 fields)

/-- `approve_digest_v2`. -/
def approveDigestV2 (contract : Address) (chainId : UInt64) (fields : ApproveFieldsV2) :
    Bytes32 :=
  typedDigest alloy keccak256 .recovery contract chainId (.approveV2 fields)

/-! ## Signatures -/

/-- `ChainError::SignerRecoveryFailed` and `ChainError::Wallet`. -/
inductive SigningError where
  | signerRecoveryFailed (detail : String)
  | wallet (detail : String)
  deriving Repr, DecidableEq

/-- `SECP256K1_HALF_N`. -/
def secp256k1HalfN : Bytes :=
  bigEndian 32 0x7FFFFFFFFFFFFFFFFFFFFFFFFFFFFFFF5D576E7357A4501DDFE92F46681B20A0

/-- The comparison of `is_canonical_s`, from the first byte that differs. -/
def isAtMost : Bytes → Bytes → Bool
  | byte :: bytes, bound :: bounds =>
      if byte < bound then true else if bound < byte then false else isAtMost bytes bounds
  | _, _ => true

/-- `is_canonical_s`. -/
def isCanonicalS (sBe : Bytes) : Bool := isAtMost sBe secp256k1HalfN

/-- Signing a digest: a failure with one text, and a signature with low `s`. -/
def signDigest (wallet : Wallet) (failure : String) (digest : Bytes32) :
    Except SigningError (Vector UInt8 65) :=
  match wallet.signHashSync digest with
  | .error _ => .error (.wallet failure)
  | .ok signature => .ok (alloy.asBytes ((alloy.normalizeS signature).getD signature))

/-- Recovery from a digest: the checks and their texts, which begin with what is signed. -/
def recoverFrom (what : String) (digest : Bytes32) (signature : Vector UInt8 65) :
    Except SigningError Address :=
  let sBe := (signature.toList.drop 32).take 32
  let vByte := signature.toList.getD 64 0
  if ¬ isCanonicalS sBe then
    .error (.signerRecoveryFailed (what ++ "signature s component is non-canonical (high-s)"))
  else if vByte ≠ 27 ∧ vByte ≠ 28 then
    .error (.signerRecoveryFailed
      (what ++ "signature v byte not in \x7b27,28\x7d: got " ++ toString vByte))
  else
    let r := BitVec.ofNat 256 (ofBigEndian (signature.toList.take 32))
    let s := BitVec.ofNat 256 (ofBigEndian sBe)
    match alloy.recoverAddressFromPrehash ⟨r, s, vByte == 28⟩ digest with
    | .error error => .error (.signerRecoveryFailed
        ("alloy recover_address_from_prehash failed: " ++ error))
    | .ok addr => .ok addr

/-- `build_signed_revision_v2`, the signature. -/
def buildSignedRevisionV2 (wallet : Wallet) (fields : RevisionFieldsV1) (contract : Address)
    (chainId : UInt64) : Except SigningError (Vector UInt8 65) :=
  signDigest alloy wallet "alloy signer error signing v2 revision digest"
    (revisionV2Digest alloy keccak256 contract chainId fields)

/-- `recover_signer_v2_raw`. -/
def recoverSignerV2Raw (fields : RevisionFieldsV1) (signature : Vector UInt8 65)
    (contract : Address) (chainId : UInt64) : Except SigningError Address :=
  recoverFrom alloy "v2 revision " (revisionV2Digest alloy keccak256 contract chainId fields)
    signature

/-- `build_signed_device_auth`. -/
def buildSignedDeviceAuth (signer : Wallet) (fields : DeviceAuthFields) (contract : Address)
    (chainId : UInt64) : Except SigningError (Vector UInt8 65) :=
  signDigest alloy signer "alloy signer error signing device-auth digest"
    (deviceAuthDigest alloy keccak256 contract chainId fields)

/-- `recover_device_auth_signer`. -/
def recoverDeviceAuthSigner (fields : DeviceAuthFields) (signature : Vector UInt8 65)
    (contract : Address) (chainId : UInt64) : Except SigningError Address :=
  recoverFrom alloy "device-auth " (deviceAuthDigest alloy keccak256 contract chainId fields)
    signature

/-- `build_signed_approval_v1`. -/
def buildSignedApprovalV1 (signer : Wallet) (fields : ApproveFieldsV1) (contract : Address)
    (chainId : UInt64) : Except SigningError (Vector UInt8 65) :=
  signDigest alloy signer "alloy signer error signing Approve digest"
    (approveDigest alloy keccak256 contract chainId fields)

/-- `recover_approver_v1`. -/
def recoverApproverV1 (fields : ApproveFieldsV1) (signature : Vector UInt8 65)
    (contract : Address) (chainId : UInt64) : Except SigningError Address :=
  recoverFrom alloy "Approve " (approveDigest alloy keccak256 contract chainId fields) signature

/-- `build_signed_approval_v2`. -/
def buildSignedApprovalV2 (signer : Wallet) (fields : ApproveFieldsV2) (contract : Address)
    (chainId : UInt64) : Except SigningError (Vector UInt8 65) :=
  signDigest alloy signer "alloy signer error signing V2 Approve digest"
    (approveDigestV2 alloy keccak256 contract chainId fields)

/-- `recover_approver_v2`. -/
def recoverApproverV2 (fields : ApproveFieldsV2) (signature : Vector UInt8 65)
    (contract : Address) (chainId : UInt64) : Except SigningError Address :=
  recoverFrom alloy "V2 Approve " (approveDigestV2 alloy keccak256 contract chainId fields)
    signature

end

end Pangolin.Chain
