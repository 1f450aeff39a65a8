import Pangolin.Chain.TypedData
import Mathlib.Tactic.Ring

/-!
# Digests of the client and of the contracts

The client's digests are the contracts', its recovery is theirs, and one digest is that of one
message for one contract of one chain.
-/

namespace Pangolin.Chain

open Evm

/-! ## Slots and words -/

theorem slot_bigEndian {count value : Nat} (narrow : count ≤ 32) (fits : value < 256 ^ count) :
    slot (bigEndian count value) = abiWord value := by
  have high : value / 256 ^ count = 0 := Nat.div_eq_of_lt fits
  have split := bigEndian_add (32 - count) count value
  rw [Nat.sub_add_cancel narrow, high, bigEndian_zero] at split
  rw [slot, length_bigEndian, abiWord, split]

theorem slot_address (addr : Address) : slot (bigEndian 20 addr.toNat) = abiWord addr.toNat := by
  apply slot_bigEndian (by decide)
  have width : 256 ^ 20 = 2 ^ 160 := by decide
  rw [width]
  exact addr.isLt

theorem slot_uint64 (value : UInt64) : slot (bigEndian 8 value.toNat) = abiWord value.toNat :=
  slot_bigEndian (by decide) value.toNat_lt

theorem slot_uint16 (value : UInt16) : slot (bigEndian 2 value.toNat) = abiWord value.toNat :=
  slot_bigEndian (by decide) value.toNat_lt

/-- The words of a struct, its type first. -/
def Message.words : Message → List Nat
  | .revision fields =>
      [revisionTypehashV1, fields.vaultId.toNat, fields.accountId.toNat,
        fields.parentRevision.toNat, fields.deviceId.toNat, fields.schemaVersion.toNat,
        fields.encPayloadHash.toNat]
  | .deviceAuth fields =>
      [fields.kind.typehash, fields.vaultId.toNat, fields.subject.toNat, fields.nonce.toNat,
        fields.schemaVersion.toNat]
  | .approveV1 fields =>
      [approveTypehashV1, fields.vaultId.toNat, fields.proposedAuthority.toNat,
        fields.attemptNonce.toNat, fields.expiresAt.toNat, fields.schemaVersion.toNat]
  | .approveV2 fields =>
      [approveTypehashV2, fields.vaultId.toNat, fields.proposedAuthority.toNat,
        fields.attemptNonce.toNat, fields.expiresAt.toNat, fields.recipientCommitment.toNat,
        fields.schemaVersion.toNat]

/-- The buffers the client fills are the ABI encodings the contracts hash. -/
theorem Message.buffer_eq (message : Message) : message.buffer = abiEncode message.words := by
  cases message with
  | revision fields => simp [buffer, revisionBuffer, words, abiEncode, abiWord, slot_uint16]
  | deviceAuth fields =>
      simp [buffer, deviceAuthBuffer, words, abiEncode, slot_uint16, slot_uint64, slot_address,
        abiWord]
  | approveV1 fields =>
      simp [buffer, approveBuffer, words, abiEncode, slot_uint16, slot_uint64, slot_address,
        abiWord]
  | approveV2 fields =>
      simp [buffer, approveBufferV2, words, abiEncode, slot_uint16, slot_uint64, slot_address,
        abiWord]

/-- A sequence of words is determined by its encoding. -/
theorem abiEncode_inj {values values' : List Nat} (fits : ∀ value ∈ values, value < 2 ^ 256)
    (fits' : ∀ value ∈ values', value < 2 ^ 256) (same : abiEncode values = abiEncode values') :
    values = values' := by
  induction values generalizing values' with
  | nil =>
      cases values' with
      | nil => rfl
      | cons value values' =>
          have lengths := congrArg List.length same
          simp only [abiEncode, List.flatMap_nil, List.flatMap_cons, List.length_nil,
            List.length_append, length_abiWord] at lengths
          omega
  | cons value values ih =>
      cases values' with
      | nil =>
          have lengths := congrArg List.length same
          simp [abiEncode, length_abiWord] at lengths
      | cons value' values' =>
          have sized : (abiWord value).length = (abiWord value').length := by
            rw [length_abiWord, length_abiWord]
          obtain ⟨first, rest⟩ := List.append_inj same sized
          have head := abiWord_inj (fits value List.mem_cons_self)
            (fits' value' List.mem_cons_self) first
          have tail := ih (fun other member => fits other (List.mem_cons_of_mem _ member))
            (fun other member => fits' other (List.mem_cons_of_mem _ member)) rest
          rw [head, tail]

/-! ## The contracts' digests -/

/-- The typehashes of the client are the digests of the contracts' struct types. -/
structure Pinned (machine : Machine) : Prop where
  revision : (machine.keccakString <|
    "Revision(bytes32 vaultId,bytes32 accountId,bytes32 parentRevision,bytes32 deviceId," ++
      "uint16 schemaVersion,bytes32 encPayloadHash)").toNat = revisionTypehashV1
  addDevice : (machine.keccakString
    "AddDevice(bytes32 vaultId,address newSigner,uint64 nonce,uint16 schemaVersion)").toNat =
      addDeviceTypehashV2
  removeDevice : (machine.keccakString
    "RemoveDevice(bytes32 vaultId,address signer,uint64 nonce,uint16 schemaVersion)").toNat =
      removeDeviceTypehashV2
  promote : (machine.keccakString
    "Promote(bytes32 vaultId,address candidate,uint64 nonce,uint16 schemaVersion)").toNat =
      promoteTypehashV2
  approveV1 : (machine.keccakString <|
    "Approve(bytes32 vaultId,address proposedAuthority,uint64 attemptNonce," ++
      "uint64 expiresAt,uint16 schemaVersion)").toNat = approveTypehashV1
  approveV2 : (machine.keccakString <|
    "Approve(bytes32 vaultId,address proposedAuthority,uint64 attemptNonce," ++
      "uint64 expiresAt,bytes32 recipientCommitment,uint16 schemaVersion)").toNat =
        approveTypehashV2

/-- The digest a contract checks a message against. -/
def Message.contractDigest (machine : Machine) : Message → Bytes32
  | .revision fields => RevisionLogV2.hashRevision machine fields.vaultId fields.accountId
      fields.parentRevision fields.deviceId fields.schemaVersion fields.encPayloadHash
  | .deviceAuth fields =>
      match fields.kind with
      | .addDevice => RevisionLogV2.hashAddDevice machine fields.vaultId fields.subject
          fields.nonce fields.schemaVersion
      | .removeDevice => RevisionLogV2.hashRemoveDevice machine fields.vaultId fields.subject
          fields.nonce fields.schemaVersion
      | .promote => RevisionLogV2.hashPromote machine fields.vaultId fields.subject
          fields.nonce fields.schemaVersion
  | .approveV1 fields => RecoveryV1.hashApprove machine fields.vaultId fields.proposedAuthority
      fields.attemptNonce fields.expiresAt fields.schemaVersion
  | .approveV2 fields => RecoveryV2.hashApprove machine fields.vaultId fields.proposedAuthority
      fields.attemptNonce fields.expiresAt fields.recipientCommitment fields.schemaVersion

/-- The deployment whose contract checks a message. -/
def Message.deployment : Message → Deployment
  | .revision _ | .deviceAuth _ => .revisionLogV2
  | .approveV1 _ | .approveV2 _ => .recovery

section

variable {alloy : Alloy} {machine : Machine} {contract : Address} {chainId : UInt64}

theorem separator_eq (documented : alloy.Documented machine) (deployment : Deployment) :
    deployment.separator alloy contract chainId =
      (deployedAt machine chainId contract).domainSeparator deployment.domainName
        deployment.domainVersion := by
  have chain : (BitVec.ofNat 256 chainId.toNat).toNat = chainId.toNat := by
    rw [BitVec.toNat_ofNat]
    exact Nat.mod_eq_of_lt (Nat.lt_trans chainId.toNat_lt (by decide))
  rw [Deployment.separator, documented.separator, Machine.domainSeparator]
  simp only [deployedAt, chain]
  rfl

/-- The client signs the digest that the contract computes. -/
theorem typedDigest_eq (documented : alloy.Documented machine) (pinned : Pinned machine)
    (message : Message) :
    typedDigest alloy machine.keccak256 message.deployment contract chainId message =
      message.contractDigest (deployedAt machine chainId contract) := by
  rw [typedDigest, separator_eq documented, Message.buffer_eq]
  cases message with
  | revision fields =>
      rw [Message.words, ← pinned.revision]
      rfl
  | deviceAuth fields =>
      cases kind : fields.kind with
      | addDevice =>
          simp only [Message.words, Message.contractDigest, kind, DeviceAuthKind.typehash,
            ← pinned.addDevice]
          rfl
      | removeDevice =>
          simp only [Message.words, Message.contractDigest, kind, DeviceAuthKind.typehash,
            ← pinned.removeDevice]
          rfl
      | promote =>
          simp only [Message.words, Message.contractDigest, kind, DeviceAuthKind.typehash,
            ← pinned.promote]
          rfl
  | approveV1 fields =>
      rw [Message.words, ← pinned.approveV1]
      rfl
  | approveV2 fields =>
      rw [Message.words, ← pinned.approveV2]
      rfl

/-! ## Recovery -/

theorem foldl_bigEndian (bytes : Bytes) (start : Nat) :
    bytes.foldl (fun value byte => value * 256 + byte.toNat) start =
      start * 256 ^ bytes.length + ofBigEndian bytes := by
  induction bytes generalizing start with
  | nil => simp [ofBigEndian]
  | cons byte bytes ih =>
      rw [ofBigEndian, List.foldl_cons, List.foldl_cons, ih, ih (0 * 256 + byte.toNat),
        List.length_cons, Nat.pow_succ]
      ring

theorem ofBigEndian_cons (byte : UInt8) (bytes : Bytes) :
    ofBigEndian (byte :: bytes) = byte.toNat * 256 ^ bytes.length + ofBigEndian bytes := by
  rw [ofBigEndian, List.foldl_cons, foldl_bigEndian, Nat.zero_mul, Nat.zero_add]

theorem ofBigEndian_lt (bytes : Bytes) : ofBigEndian bytes < 256 ^ bytes.length := by
  induction bytes with
  | nil => simp [ofBigEndian]
  | cons byte bytes ih =>
      have small : byte.toNat + 1 ≤ 256 := byte.toNat_lt
      have scaled := Nat.mul_le_mul_right (256 ^ bytes.length) small
      rw [ofBigEndian_cons, List.length_cons, Nat.pow_succ, Nat.mul_comm (256 ^ bytes.length)]
      rw [Nat.add_mul, Nat.one_mul] at scaled
      omega

/-- Byte by byte from the first, numbers of one width compare as they do. -/
theorem isAtMost_iff {bytes bounds : Bytes} (sized : bytes.length = bounds.length) :
    isAtMost bytes bounds = true ↔ ofBigEndian bytes ≤ ofBigEndian bounds := by
  induction bytes generalizing bounds with
  | nil =>
      cases List.length_eq_zero_iff.mp sized.symm
      simp [isAtMost]
  | cons byte bytes ih =>
      cases bounds with
      | nil => cases sized
      | cons bound bounds =>
          have same := Nat.succ.inj sized
          have below := ofBigEndian_lt bytes
          have below' := ofBigEndian_lt bounds
          rw [ofBigEndian_cons, ofBigEndian_cons, isAtMost, same]
          rw [same] at below
          rcases Nat.lt_trichotomy byte.toNat bound.toNat with less | equal | greater
          · have scaled := Nat.mul_le_mul_right (256 ^ bounds.length) less
            rw [Nat.succ_mul] at scaled
            rw [if_pos (UInt8.lt_iff_toNat_lt.mpr less)]
            exact iff_of_true rfl (by omega)
          · cases UInt8.toNat_inj.mp equal
            rw [if_neg (UInt8.lt_irrefl byte), if_neg (UInt8.lt_irrefl byte), ih same]
            exact Nat.add_le_add_iff_left.symm
          · have scaled := Nat.mul_le_mul_right (256 ^ bounds.length) greater
            rw [Nat.succ_mul] at scaled
            rw [if_neg (fun less => Nat.lt_asymm greater (UInt8.lt_iff_toNat_lt.mp less)),
              if_pos (UInt8.lt_iff_toNat_lt.mpr greater)]
            exact iff_of_false Bool.false_ne_true (by omega)

theorem isCanonicalS_iff {sBe : Bytes} (sized : sBe.length = 32) :
    isCanonicalS sBe = true ↔ ofBigEndian sBe ≤ lowSMax := by
  have bound : ofBigEndian secp256k1HalfN = lowSMax := by
    rw [secp256k1HalfN, ofBigEndian_bigEndian]
    decide
  have halves : sBe.length = secp256k1HalfN.length := by
    rw [sized, secp256k1HalfN, length_bigEndian]
  rw [isCanonicalS, isAtMost_iff halves, bound]

/-- Client and contract recover the same signer from the same bytes. -/
theorem recoverFrom_eq (documented : alloy.Documented machine) (what : String) (digest : Bytes32)
    (signature : Vector UInt8 65) :
    (recoverFrom alloy what digest signature).toOption =
      nonzero (machine.recover digest signature.toList) := by
  have sized : signature.toList.length = 65 := by simp
  have half : ((signature.toList.drop 32).take 32).length = 32 := by simp
  have width : ofBigEndian ((signature.toList.drop 32).take 32) < 2 ^ 256 := by
    have below := ofBigEndian_lt ((signature.toList.drop 32).take 32)
    rw [half] at below
    exact below
  have word : (BitVec.ofNat 256 (ofBigEndian ((signature.toList.drop 32).take 32))).toNat =
      ofBigEndian ((signature.toList.drop 32).take 32) := by
    rw [BitVec.toNat_ofNat, Nat.mod_eq_of_lt width]
  simp only [recoverFrom, Machine.recover, isCanonicalS_iff half, sized, word, ne_eq,
    not_true_eq_false, if_false]
  by_cases canonical : ofBigEndian ((signature.toList.drop 32).take 32) ≤ lowSMax
  · rw [if_neg (not_not.mpr canonical), if_neg (Nat.not_lt.mpr canonical)]
    by_cases legal : signature.toList.getD 64 0 ≠ 27 ∧ signature.toList.getD 64 0 ≠ 28
    · rw [if_pos legal, if_pos legal]
      rfl
    · rw [if_neg legal, if_neg legal]
      have byte : recoveryByte (signature.toList.getD 64 0 == 28) = signature.toList.getD 64 0 := by
        by_cases upper : signature.toList.getD 64 0 = 28
        · rw [upper]
          rfl
        · rw [recoveryByte, beq_false_of_ne upper]
          exact (not_not.mp fun lower => legal ⟨lower, upper⟩).symm
      have recovered := documented.recovers ⟨BitVec.ofNat 256 (ofBigEndian
        (signature.toList.take 32)), BitVec.ofNat 256 (ofBigEndian
          ((signature.toList.drop 32).take 32)), signature.toList.getD 64 0 == 28⟩ digest
      rw [byte] at recovered
      rw [← recovered]
      split
      · next failed =>
          rw [failed]
          rfl
      · next found =>
          rw [found]
          rfl
  · rw [if_pos canonical, if_pos (Nat.not_le.mp canonical)]
    split <;> rfl

/-- The contract takes the bytes of a signature apart again. -/
theorem recover_bytes (digest : Bytes32) (signature : EcdsaSignature)
    (canonical : signature.s.toNat ≤ lowSMax) :
    machine.recover digest (bigEndian 32 signature.r.toNat ++ bigEndian 32 signature.s.toNat ++
        [recoveryByte signature.yParity]) =
      machine.ecrecover digest (recoveryByte signature.yParity) signature.r signature.s := by
  have width : 256 ^ 32 = 2 ^ 256 := by decide
  have word (value : Bytes32) : BitVec.ofNat 256 (ofBigEndian (bigEndian 32 value.toNat)) =
      value := by
    rw [ofBigEndian_bigEndian, width, Nat.mod_eq_of_lt value.isLt, BitVec.ofNat_toNat,
      BitVec.setWidth_eq]
  have first : (bigEndian 32 signature.r.toNat ++ bigEndian 32 signature.s.toNat ++
      [recoveryByte signature.yParity]).take 32 = bigEndian 32 signature.r.toNat := by
    rw [List.append_assoc]
    exact List.take_left' (length_bigEndian 32 _)
  have second : ((bigEndian 32 signature.r.toNat ++ bigEndian 32 signature.s.toNat ++
      [recoveryByte signature.yParity]).drop 32).take 32 = bigEndian 32 signature.s.toNat := by
    rw [List.append_assoc, List.drop_left' (length_bigEndian 32 _)]
    exact List.take_left' (length_bigEndian 32 _)
  have last : (bigEndian 32 signature.r.toNat ++ bigEndian 32 signature.s.toNat ++
      [recoveryByte signature.yParity]).getD 64 0 = recoveryByte signature.yParity := by
    simp [List.getD_eq_getElem?_getD, length_bigEndian]
  have sized : (bigEndian 32 signature.r.toNat ++ bigEndian 32 signature.s.toNat ++
      [recoveryByte signature.yParity]).length = 65 := by
    simp [length_bigEndian]
  have legal : ¬ (recoveryByte signature.yParity ≠ 27 ∧ recoveryByte signature.yParity ≠ 28) := by
    cases signature.yParity <;> decide
  rw [Machine.recover, if_neg (not_not.mpr sized)]
  simp only [first, second, last, word]
  rw [if_neg legal, if_neg (Nat.not_lt.mpr canonical)]

/-- What the client signs, the contract recovers to the wallet. -/
theorem signDigest_recovers (documented : alloy.Documented machine) {wallet : Wallet}
    (sound : wallet.Sound alloy) {failure : String} {digest : Bytes32}
    {signature : Vector UInt8 65}
    (signed : signDigest alloy wallet failure digest = .ok signature) :
    machine.recover digest signature.toList = wallet.address ∧ wallet.address ≠ 0 := by
  unfold signDigest at signed
  cases drawn : wallet.signHashSync digest with
  | error failed =>
      rw [drawn] at signed
      cases signed
  | ok raw =>
      rw [drawn] at signed
      cases signed
      have lower : ((alloy.normalizeS raw).getD raw).s.toNat ≤ lowSMax ∧
          alloy.recoverAddressFromPrehash ((alloy.normalizeS raw).getD raw) digest =
            .ok wallet.address := by
        cases normal : alloy.normalizeS raw with
        | none => exact ⟨documented.low raw normal, sound digest raw drawn⟩
        | some low =>
            obtain ⟨canonical, same⟩ := documented.normalized raw low normal
            exact ⟨canonical, (same digest).trans (sound digest raw drawn)⟩
      have recovered := documented.recovers ((alloy.normalizeS raw).getD raw) digest
      rw [lower.2] at recovered
      rw [documented.asBytes, recover_bytes digest _ lower.1]
      by_cases zero : machine.ecrecover digest
          (recoveryByte ((alloy.normalizeS raw).getD raw).yParity)
          ((alloy.normalizeS raw).getD raw).r ((alloy.normalizeS raw).getD raw).s = 0
      · rw [nonzero, if_pos zero] at recovered
        cases recovered
      · rw [nonzero, if_neg zero] at recovered
        have same := Option.some.inj recovered
        rw [← same] at zero
        exact ⟨same.symm, zero⟩

end

/-! ## A wallet and a machine -/

namespace SigningSample

/-- The published digests of the struct types; every other text is its number. -/
def keccak256 (text : Bytes) : Bytes32 :=
  let pinned : List (String × Nat) :=
    [("Revision(bytes32 vaultId,bytes32 accountId,bytes32 parentRevision,bytes32 deviceId," ++
        "uint16 schemaVersion,bytes32 encPayloadHash)", revisionTypehashV1),
      ("AddDevice(bytes32 vaultId,address newSigner,uint64 nonce,uint16 schemaVersion)",
        addDeviceTypehashV2),
      ("RemoveDevice(bytes32 vaultId,address signer,uint64 nonce,uint16 schemaVersion)",
        removeDeviceTypehashV2),
      ("Promote(bytes32 vaultId,address candidate,uint64 nonce,uint16 schemaVersion)",
        promoteTypehashV2),
      ("Approve(bytes32 vaultId,address proposedAuthority,uint64 attemptNonce," ++
        "uint64 expiresAt,uint16 schemaVersion)", approveTypehashV1),
      ("Approve(bytes32 vaultId,address proposedAuthority,uint64 attemptNonce," ++
        "uint64 expiresAt,bytes32 recipientCommitment,uint16 schemaVersion)", approveTypehashV2)]
  match pinned.find? fun entry => entry.1.toUTF8.data.toList = text with
  | some entry => BitVec.ofNat 256 entry.2
  | none => BitVec.ofNat 256 (ofBigEndian text)

/-- Signer 7 puts the digest where `r` stands. -/
def machine : Machine where
  keccak256 := keccak256
  ecrecover digest _ r _ := if r = digest then 7 else 0
  chainid := 84532
  self := 5

def alloy : Alloy where
  separator name version chainId contract := keccak256 (abiEncode [
    (machine.keccakString
      "EIP712Domain(string name,string version,uint256 chainId,address verifyingContract)").toNat,
    (machine.keccakString name).toNat, (machine.keccakString version).toNat,
    chainId.toNat, contract.toNat])
  normalizeS signature :=
    if signature.s.toNat ≤ lowSMax then none else some { signature with s := 0 }
  asBytes signature := ⟨(bigEndian 32 signature.r.toNat ++ bigEndian 32 signature.s.toNat ++
    [recoveryByte signature.yParity]).toArray, by simp [length_bigEndian]⟩
  recoverAddressFromPrehash signature digest :=
    if signature.r = digest then .ok 7 else .error "signature error"

def wallet : Wallet := ⟨7, fun digest => .ok ⟨digest, 1, false⟩⟩

theorem documented : alloy.Documented machine where
  separator _ _ _ _ := rfl
  asBytes _ := rfl
  low signature normal := by
    by_contra high
    simp only [alloy, if_neg high] at normal
    cases normal
  normalized signature lower normal := by
    by_cases canonical : signature.s.toNat ≤ lowSMax
    · simp only [alloy, if_pos canonical] at normal
      cases normal
    · simp only [alloy, if_neg canonical] at normal
      cases normal
      exact ⟨Nat.zero_le _, fun _ => rfl⟩
  recovers signature digest := by
    by_cases same : signature.r = digest
    · simp only [alloy, machine, if_pos same]
      rfl
    · simp only [alloy, machine, if_neg same]
      rfl

theorem pinned : Pinned machine where
  revision := by decide +kernel
  addDevice := by decide +kernel
  removeDevice := by decide +kernel
  promote := by decide +kernel
  approveV1 := by decide +kernel
  approveV2 := by decide +kernel

theorem sound : wallet.Sound alloy := by
  intro digest signature signed
  cases signed
  exact if_pos rfl

/-- What the wallet makes of a digest. -/
def signature (digest : Bytes32) : Vector UInt8 65 := alloy.asBytes ⟨digest, 1, false⟩

/-- A signature of the wallet stands for its digest only. -/
theorem recover_signature {digest digest' : Bytes32}
    (recovered : machine.recover digest' (signature digest).toList = 7) : digest = digest' := by
  have canonical : (1 : Bytes32).toNat ≤ lowSMax := by decide
  rw [signature, documented.asBytes, recover_bytes digest' ⟨digest, 1, false⟩ canonical]
    at recovered
  by_contra different
  rw [machine] at recovered
  simp only [if_neg different] at recovered
  exact absurd recovered (by decide)

end SigningSample

/-! ## Messages -/

section

variable (alloy : Alloy) (keccak256 : Bytes → Bytes32)

/-- The digest the client signs for a message. -/
def Message.digest (contract : Address) (chainId : UInt64) : Message → Bytes32
  | .revision fields => revisionV2Digest alloy keccak256 contract chainId fields
  | .deviceAuth fields => deviceAuthDigest alloy keccak256 contract chainId fields
  | .approveV1 fields => approveDigest alloy keccak256 contract chainId fields
  | .approveV2 fields => approveDigestV2 alloy keccak256 contract chainId fields

/-- The function that signs a message of this type. -/
def Message.build (wallet : Wallet) (contract : Address) (chainId : UInt64) :
    Message → Except SigningError (Vector UInt8 65)
  | .revision fields => buildSignedRevisionV2 alloy keccak256 wallet fields contract chainId
  | .deviceAuth fields => buildSignedDeviceAuth alloy keccak256 wallet fields contract chainId
  | .approveV1 fields => buildSignedApprovalV1 alloy keccak256 wallet fields contract chainId
  | .approveV2 fields => buildSignedApprovalV2 alloy keccak256 wallet fields contract chainId

/-- The function that recovers the signer of a message of this type. -/
def Message.recover (signature : Vector UInt8 65) (contract : Address) (chainId : UInt64) :
    Message → Except SigningError Address
  | .revision fields => recoverSignerV2Raw alloy keccak256 fields signature contract chainId
  | .deviceAuth fields => recoverDeviceAuthSigner alloy keccak256 fields signature contract chainId
  | .approveV1 fields => recoverApproverV1 alloy keccak256 fields signature contract chainId
  | .approveV2 fields => recoverApproverV2 alloy keccak256 fields signature contract chainId

end

section

variable {alloy : Alloy} {machine : Machine} {contract : Address} {chainId : UInt64}

theorem digest_eq (documented : alloy.Documented machine) (pinned : Pinned machine)
    (message : Message) :
    message.digest alloy machine.keccak256 contract chainId =
      message.contractDigest (deployedAt machine chainId contract) := by
  rw [← typedDigest_eq documented pinned]
  cases message <;> rfl

theorem build_recovers (documented : alloy.Documented machine) (pinned : Pinned machine)
    {wallet : Wallet} (sound : wallet.Sound alloy) {message : Message}
    {signature : Vector UInt8 65}
    (built : message.build alloy machine.keccak256 wallet contract chainId = .ok signature) :
    (deployedAt machine chainId contract).recover
        (message.contractDigest (deployedAt machine chainId contract)) signature.toList =
      wallet.address ∧ wallet.address ≠ 0 := by
  rw [← digest_eq documented pinned]
  cases message with
  | revision fields => exact signDigest_recovers documented sound built
  | deviceAuth fields => exact signDigest_recovers documented sound built
  | approveV1 fields => exact signDigest_recovers documented sound built
  | approveV2 fields => exact signDigest_recovers documented sound built

/-- For every message the client signs the digest its contract checks, and recovers from any 65
bytes the signer that the contract recovers, or fails where the contract has the zero address. -/
theorem client_recovers_as_contract (documented : alloy.Documented machine)
    (pinned : Pinned machine) (contract : Address) (chainId : UInt64) (message : Message)
    (signature : Vector UInt8 65) :
    message.digest alloy machine.keccak256 contract chainId =
        message.contractDigest (deployedAt machine chainId contract) ∧
      (message.recover alloy machine.keccak256 signature contract chainId).toOption =
        nonzero ((deployedAt machine chainId contract).recover
          (message.contractDigest (deployedAt machine chainId contract)) signature.toList) := by
  constructor
  · exact digest_eq documented pinned message
  · rw [← digest_eq documented pinned]
    cases message with
    | revision fields => exact recoverFrom_eq documented _ _ signature
    | deviceAuth fields => exact recoverFrom_eq documented _ _ signature
    | approveV1 fields => exact recoverFrom_eq documented _ _ signature
    | approveV2 fields => exact recoverFrom_eq documented _ _ signature

end

namespace SigningSample

def addition : DeviceAuthFields := ⟨.addDevice, 1, 7, 0, 1⟩

def revision : RevisionFieldsV1 := ⟨1, 2, 0, 9, 1, machine.keccak256 [4, 5]⟩

theorem addition_recovered :
    (recoverDeviceAuthSigner alloy machine.keccak256 addition
      (signature (deviceAuthDigest alloy machine.keccak256 5 84532 addition)) 5 84532).toOption =
        some 7 := by
  have agreed := client_recovers_as_contract documented pinned 5 84532 (.deviceAuth addition)
    (signature (deviceAuthDigest alloy machine.keccak256 5 84532 addition))
  exact agreed.2.trans (by decide +kernel)

end SigningSample

/-! ## One digest, one message -/

theorem DeviceAuthKind.typehash_inj {kind kind' : DeviceAuthKind}
    (same : kind.typehash = kind'.typehash) : kind = kind' := by
  cases kind <;> cases kind' <;> first | rfl | exact absurd same (by decide)

theorem Message.words_fit (message : Message) : ∀ word ∈ message.words, word < 2 ^ 256 := by
  have nonce (value : UInt64) : value.toNat < 2 ^ 256 := Nat.lt_trans value.toNat_lt (by decide)
  have version (value : UInt16) : value.toNat < 2 ^ 256 := Nat.lt_trans value.toNat_lt (by decide)
  have addr (value : Address) : value.toNat < 2 ^ 256 := Nat.lt_trans value.isLt (by decide)
  have kinds (kind : DeviceAuthKind) : kind.typehash < 2 ^ 256 := by cases kind <;> decide
  have word (value : Bytes32) : value.toNat < 2 ^ 256 := value.isLt
  cases message with
  | revision fields =>
      have typed : revisionTypehashV1 < 2 ^ 256 := by decide
      simp only [words, List.forall_mem_cons, List.not_mem_nil, false_imp_iff, implies_true,
        and_true]
      exact ⟨typed, word _, word _, word _, word _, version _, word _⟩
  | deviceAuth fields =>
      simp only [words, List.forall_mem_cons, List.not_mem_nil, false_imp_iff, implies_true,
        and_true]
      exact ⟨kinds _, word _, addr _, nonce _, version _⟩
  | approveV1 fields =>
      have typed : approveTypehashV1 < 2 ^ 256 := by decide
      simp only [words, List.forall_mem_cons, List.not_mem_nil, false_imp_iff, implies_true,
        and_true]
      exact ⟨typed, word _, addr _, nonce _, nonce _, version _⟩
  | approveV2 fields =>
      have typed : approveTypehashV2 < 2 ^ 256 := by decide
      simp only [words, List.forall_mem_cons, List.not_mem_nil, false_imp_iff, implies_true,
        and_true]
      exact ⟨typed, word _, addr _, nonce _, nonce _, word _, version _⟩

/-- The words of a struct tell its type and its fields. -/
theorem Message.words_inj {message message' : Message} (same : message.words = message'.words) :
    message = message' := by
  cases message with
  | revision fields =>
      cases message' with
      | revision fields' =>
          cases fields
          cases fields'
          simp only [words, List.cons.injEq, BitVec.toNat_inj, UInt16.toNat_inj, true_and,
            and_true] at same
          simp only [same]
      | deviceAuth fields' => exact absurd (congrArg List.length same) (by simp [words])
      | approveV1 fields' => exact absurd (congrArg List.length same) (by simp [words])
      | approveV2 fields' =>
          exact absurd (List.cons.inj same).1 (by decide)
  | deviceAuth fields =>
      cases message' with
      | revision fields' => exact absurd (congrArg List.length same) (by simp [words])
      | deviceAuth fields' =>
          have kind := DeviceAuthKind.typehash_inj (List.cons.inj same).1
          cases fields
          cases fields'
          simp only [words, List.cons.injEq, BitVec.toNat_inj, UInt16.toNat_inj, UInt64.toNat_inj,
            and_true] at same
          simp only [same, Message.deviceAuth.injEq, DeviceAuthFields.mk.injEq, and_true]
          exact kind
      | approveV1 fields' => exact absurd (congrArg List.length same) (by simp [words])
      | approveV2 fields' => exact absurd (congrArg List.length same) (by simp [words])
  | approveV1 fields =>
      cases message' with
      | revision fields' => exact absurd (congrArg List.length same) (by simp [words])
      | deviceAuth fields' => exact absurd (congrArg List.length same) (by simp [words])
      | approveV1 fields' =>
          cases fields
          cases fields'
          simp only [words, List.cons.injEq, BitVec.toNat_inj, UInt16.toNat_inj, UInt64.toNat_inj,
            true_and, and_true] at same
          simp only [same]
      | approveV2 fields' => exact absurd (congrArg List.length same) (by simp [words])
  | approveV2 fields =>
      cases message' with
      | revision fields' => exact absurd (List.cons.inj same).1 (by decide)
      | deviceAuth fields' => exact absurd (congrArg List.length same) (by simp [words])
      | approveV1 fields' => exact absurd (congrArg List.length same) (by simp [words])
      | approveV2 fields' =>
          cases fields
          cases fields'
          simp only [words, List.cons.injEq, BitVec.toNat_inj, UInt16.toNat_inj, UInt64.toNat_inj,
            true_and, and_true] at same
          simp only [same]

/-- A message and the contract it is signed for. -/
structure Signed where
  deployment : Deployment
  contract : Address
  chainId : UInt64
  message : Message
  deriving Repr, DecidableEq

section

variable (machine : Machine)

/-- The bytes of a string literal. -/
def utf8 (text : String) : Bytes := text.toUTF8.data.toList

/-- The words of an EIP-712 domain. -/
def Signed.domain (signed : Signed) : List Nat :=
  [(machine.keccakString
    "EIP712Domain(string name,string version,uint256 chainId,address verifyingContract)").toNat,
    (machine.keccakString signed.deployment.domainName).toNat,
    (machine.keccakString signed.deployment.domainVersion).toNat,
    signed.chainId.toNat, signed.contract.toNat]

/-- The envelope of a message: the prefix, its domain and its struct. -/
def Signed.envelope (signed : Signed) : Bytes :=
  [0x19, 0x01] ++ bigEndian 32 (machine.keccak256 (abiEncode (signed.domain machine))).toNat ++
    bigEndian 32 (machine.keccak256 signed.message.buffer).toNat

/-- Everything that is hashed on the way to the digest. -/
def Signed.hashed (signed : Signed) : List Bytes :=
  [utf8 signed.deployment.domainName, utf8 signed.deployment.domainVersion,
    abiEncode (signed.domain machine), signed.message.buffer, signed.envelope machine]

/-- Two inputs with one hash, each hashed for one of two messages. -/
def Collide (signed signed' : Signed) : Prop :=
  ∃ input ∈ signed.hashed machine, ∃ input' ∈ signed'.hashed machine,
    input ≠ input' ∧ machine.keccak256 input = machine.keccak256 input'

end

section

variable {alloy : Alloy} {machine : Machine} {signed signed' : Signed}

theorem typedDigest_envelope (documented : alloy.Documented machine) (signed : Signed) :
    typedDigest alloy machine.keccak256 signed.deployment signed.contract signed.chainId
      signed.message = machine.keccak256 (signed.envelope machine) := by
  rw [typedDigest, Deployment.separator, documented.separator]
  rfl

theorem eq_of_not_collide (apart : ¬ Collide machine signed signed') {input input' : Bytes}
    (member : input ∈ signed.hashed machine) (member' : input' ∈ signed'.hashed machine)
    (same : machine.keccak256 input = machine.keccak256 input') : input = input' := by
  by_contra different
  exact apart ⟨input, member, input', member', different, same⟩

theorem Deployment.eq_of_domain {deployment deployment' : Deployment}
    (name : utf8 deployment.domainName = utf8 deployment'.domainName)
    (version : utf8 deployment.domainVersion = utf8 deployment'.domainVersion) :
    deployment = deployment' := by
  have names : utf8 "Pangolin RevisionLog" ≠ utf8 "Pangolin Recovery" := by decide +kernel
  have versions : utf8 "1" ≠ utf8 "2" := by decide +kernel
  cases deployment with
  | revisionLogV1 =>
      cases deployment' with
      | revisionLogV1 => rfl
      | revisionLogV2 => exact absurd version versions
      | recovery => exact absurd name names
  | revisionLogV2 =>
      cases deployment' with
      | revisionLogV1 => exact absurd version versions.symm
      | revisionLogV2 => rfl
      | recovery => exact absurd name names
  | recovery =>
      cases deployment' with
      | revisionLogV1 => exact absurd name names.symm
      | revisionLogV2 => exact absurd name names.symm
      | recovery => rfl

theorem Signed.domain_fits (signed : Signed) : ∀ word ∈ signed.domain machine, word < 2 ^ 256 := by
  have chain : signed.chainId.toNat < 2 ^ 256 := Nat.lt_trans signed.chainId.toNat_lt (by decide)
  have addr : signed.contract.toNat < 2 ^ 256 := Nat.lt_trans signed.contract.isLt (by decide)
  have hash (value : Bytes32) : value.toNat < 2 ^ 256 := value.isLt
  simp only [domain, List.forall_mem_cons, List.not_mem_nil, false_imp_iff, implies_true, and_true]
  exact ⟨hash _, hash _, hash _, chain, addr⟩

theorem word_inj {word word' : Bytes32}
    (same : bigEndian 32 word.toNat = bigEndian 32 word'.toNat) : word = word' :=
  BitVec.eq_of_toNat_eq (abiWord_inj word.isLt word'.isLt same)

/-- One digest is that of one message for one contract, unless two of the inputs collide. -/
theorem eq_or_collide (documented : alloy.Documented machine)
    (same : typedDigest alloy machine.keccak256 signed.deployment signed.contract signed.chainId
        signed.message =
      typedDigest alloy machine.keccak256 signed'.deployment signed'.contract signed'.chainId
        signed'.message) :
    signed = signed' ∨ Collide machine signed signed' := by
  by_cases apart : Collide machine signed signed'
  · exact .inr apart
  · left
    rw [typedDigest_envelope documented, typedDigest_envelope documented] at same
    have envelopes := eq_of_not_collide apart (by simp [Signed.hashed]) (by simp [Signed.hashed])
      same
    simp only [Signed.envelope, List.append_assoc] at envelopes
    obtain ⟨separators, structs⟩ := List.append_inj (List.append_cancel_left envelopes)
      (by rw [length_bigEndian, length_bigEndian])
    have domains := eq_of_not_collide apart (by simp [Signed.hashed]) (by simp [Signed.hashed])
      (word_inj separators)
    have buffers := eq_of_not_collide apart (by simp [Signed.hashed]) (by simp [Signed.hashed])
      (word_inj structs)
    have words := abiEncode_inj signed.domain_fits signed'.domain_fits domains
    simp only [Signed.domain, List.cons.injEq, BitVec.toNat_inj, UInt64.toNat_inj, true_and,
      and_true] at words
    obtain ⟨name, version, chain, contract⟩ := words
    have deployment := Deployment.eq_of_domain
      (eq_of_not_collide apart (by simp [Signed.hashed]) (by simp [Signed.hashed]) name)
      (eq_of_not_collide apart (by simp [Signed.hashed]) (by simp [Signed.hashed]) version)
    rw [Message.buffer_eq, Message.buffer_eq] at buffers
    have message := Message.words_inj
      (abiEncode_inj signed.message.words_fit signed'.message.words_fit buffers)
    cases signed
    cases signed'
    simp only [Signed.mk.injEq]
    exact ⟨deployment, contract, chain, message⟩

/-- Of the digests a signature could stand for, the address signed those of these messages only. -/
def Unforged (alloy : Alloy) (machine : Machine) (addr : Address) (messages : List Signed)
    (signature : Bytes) : Prop :=
  ∀ digest, machine.recover digest signature = addr → ∃ signed ∈ messages,
    typedDigest alloy machine.keccak256 signed.deployment signed.contract signed.chainId
      signed.message = digest

/-- The message was signed for this contract of this chain, or its digest is not one of a kind. -/
def SignedFor (machine : Machine) (messages : List Signed) (signed : Signed) : Prop :=
  signed ∈ messages ∨ ∃ other ∈ messages, Collide machine other signed

/-- What a contract takes as signed by an address, the address signed. -/
theorem signed_of_recover (documented : alloy.Documented machine) (pinned : Pinned machine)
    {contract addr : Address} {chainId : UInt64} {messages : List Signed} {message : Message}
    {signature : Bytes} (unforged : Unforged alloy machine addr messages signature)
    (recovered : (deployedAt machine chainId contract).recover
      (message.contractDigest (deployedAt machine chainId contract)) signature = addr) :
    SignedFor machine messages ⟨message.deployment, contract, chainId, message⟩ := by
  obtain ⟨signed, member, same⟩ := unforged _ recovered
  rw [← typedDigest_eq documented pinned] at same
  have single : signed = ⟨message.deployment, contract, chainId, message⟩ ∨
      Collide machine signed ⟨message.deployment, contract, chainId, message⟩ :=
    eq_or_collide documented same
  rcases single with rfl | collide
  · exact .inl member
  · exact .inr ⟨signed, member, collide⟩

end

end Pangolin.Chain
