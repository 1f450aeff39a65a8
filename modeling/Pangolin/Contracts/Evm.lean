import Mathlib.Algebra.Ring.Nat
import Mathlib.Data.List.Nodup

/-!
# What the contracts use of the machine

Words and addresses are bit vectors, calldata a list of bytes.  `keccak256` and the
`ecrecover` precompile are parameters of everything that uses them; the ABI encodings
around them are spelled out.
-/

namespace Pangolin.Evm

abbrev Bytes32 := BitVec 256

abbrev Address := BitVec 160

abbrev Bytes := List UInt8

/-- The digest, the precompile and what the deployed contract knows of itself. -/
structure Machine where
  keccak256 : Bytes → Bytes32
  ecrecover : Bytes32 → UInt8 → Bytes32 → Bytes32 → Address
  chainid : Bytes32
  /-- `address(this)`. -/
  self : Address

/-- `msg.sender` and `block.timestamp` of one call. -/
structure Context where
  sender : Address
  timestamp : Nat
  deriving Repr, DecidableEq

/-- The low `count` bytes of a number, most significant first. -/
def bigEndian : Nat → Nat → Bytes
  | 0, _ => []
  | count + 1, value => bigEndian count (value / 256) ++ [UInt8.ofNat value]

def ofBigEndian (bytes : Bytes) : Nat :=
  bytes.foldl (fun value byte => value * 256 + byte.toNat) 0

/-- `abi.encode` of one static value: a left-padded word. -/
def abiWord (value : Nat) : Bytes := bigEndian 32 value

theorem length_bigEndian (count value : Nat) : (bigEndian count value).length = count := by
  induction count generalizing value with
  | zero => rfl
  | succ count ih => simp [bigEndian, ih]

theorem ofBigEndian_bigEndian (count value : Nat) :
    ofBigEndian (bigEndian count value) = value % 256 ^ count := by
  induction count generalizing value with
  | zero => simp [bigEndian, ofBigEndian, Nat.mod_one]
  | succ count ih =>
      have higher := ih (value / 256)
      simp only [ofBigEndian] at higher
      rw [bigEndian, ofBigEndian, List.foldl_append, higher, Nat.pow_succ', Nat.mod_mul]
      simp only [List.foldl_cons, List.foldl_nil, UInt8.toNat_ofNat']
      omega

theorem length_abiWord (value : Nat) : (abiWord value).length = 32 := length_bigEndian 32 value

/-- A word's encoding determines it. -/
theorem abiWord_inj {left right : Nat} (leftFits : left < 2 ^ 256) (rightFits : right < 2 ^ 256)
    (same : abiWord left = abiWord right) : left = right := by
  have decoded := congrArg ofBigEndian same
  have width : 256 ^ 32 = 2 ^ 256 := by decide
  simp only [abiWord, ofBigEndian_bigEndian] at decoded
  rwa [width, Nat.mod_eq_of_lt leftFits, Nat.mod_eq_of_lt rightFits] at decoded

/-- `abi.encode` of static values. -/
def abiEncode (values : List Nat) : Bytes := values.flatMap abiWord

/-- `keccak256` of a string literal. -/
def Machine.keccakString (machine : Machine) (text : String) : Bytes32 :=
  machine.keccak256 text.toUTF8.data.toList

/-- The EIP-712 envelope: `0x1901`, the domain separator, the struct hash. -/
def Machine.typedDataHash (machine : Machine) (domainSeparator structHash : Bytes32) : Bytes32 :=
  machine.keccak256 ([0x19, 0x01] ++ abiWord domainSeparator.toNat ++ abiWord structHash.toNat)

/-- The constructors' `DOMAIN_SEPARATOR`. -/
def Machine.domainSeparator (machine : Machine) (name version : String) : Bytes32 :=
  machine.keccak256 (abiEncode [
    (machine.keccakString
      "EIP712Domain(string name,string version,uint256 chainId,address verifyingContract)").toNat,
    (machine.keccakString name).toNat, (machine.keccakString version).toNat,
    machine.chainid.toNat, machine.self.toNat])

/-- Half the order of secp256k1: the largest `s` of a low-s signature. -/
def lowSMax : Nat := 0x7FFFFFFFFFFFFFFFFFFFFFFFFFFFFFFF5D576E7357A4501DDFE92F46681B20A0

/-- `_recover`: a 65-byte signature with canonical `v` and low `s`, else the zero
address. -/
def Machine.recover (machine : Machine) (digest : Bytes32) (signature : Bytes) : Address :=
  if signature.length ≠ 65 then
    0
  else
    let r := BitVec.ofNat 256 (ofBigEndian (signature.take 32))
    let s := BitVec.ofNat 256 (ofBigEndian ((signature.drop 32).take 32))
    let v := signature.getD 64 0
    if v ≠ 27 ∧ v ≠ 28 then
      0
    else if lowSMax < s.toNat then
      0
    else
      machine.ecrecover digest v r s

/-- `_verifyMerkleProof`: fold sorted pairs up to the root. -/
def Machine.verifyMerkleProof (machine : Machine) (proof : List Bytes32) (root leaf : Bytes32) :
    Bool :=
  let pair (left right : Bytes32) : Bytes32 :=
    machine.keccak256 (abiWord left.toNat ++ abiWord right.toNat)
  let computed := proof.foldl
    (fun computed sibling =>
      if computed.toNat ≤ sibling.toNat then pair computed sibling else pair sibling computed)
    leaf
  decide (computed = root)

/-- Messages whose nonces count up from zero are distinct while the nonces do not wrap. -/
theorem nodup_of_nonces {Message : Type} {nonce : Message → UInt64} {messages : List Message}
    (counted : messages.map nonce = (List.range messages.length).map UInt64.ofNat)
    (below : messages.length ≤ 2 ^ 64) : messages.Nodup := by
  apply List.Nodup.of_map nonce
  rw [counted]
  apply List.Nodup.map_on ?_ List.nodup_range
  intro first firstIn second secondIn same
  have firstBelow := List.mem_range.mp firstIn
  have secondBelow := List.mem_range.mp secondIn
  have equal := congrArg UInt64.toNat same
  simp only [UInt64.toNat_ofNat'] at equal
  rwa [Nat.mod_eq_of_lt (by omega), Nat.mod_eq_of_lt (by omega)] at equal

end Pangolin.Evm
