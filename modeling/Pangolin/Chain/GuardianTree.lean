import Mathlib.Data.List.Sort
import Pangolin.Contracts.RecoveryV2
import Pangolin.Lib.Merkle

/-!
# The guardian tree

The client commits to a guardian set by a tree over the hashed addresses, and the contract
checks a guardian's path against its root.  The two were written apart: the client compares
nodes byte by byte where the contract compares words, and builds paths by index where the
contract folds sorted pairs.
-/

namespace Pangolin.Chain

open Evm

/-! ## The client -/

/-- `guardian_leaf`: the hash of the address in a word of 12 zero bytes and its own 20. -/
def guardianLeaf (machine : Machine) (addr : Address) : Bytes32 :=
  machine.keccak256 (List.replicate 12 0 ++ bigEndian 20 addr.toNat)

/-- `hash_pair`, the node whose bytes come first in front. -/
def hashPair (machine : Machine) (left right : Bytes32) : Bytes32 :=
  if bigEndian 32 left.toNat ≤ bigEndian 32 right.toNat then
    machine.keccak256 (bigEndian 32 left.toNat ++ bigEndian 32 right.toNat)
  else
    machine.keccak256 (bigEndian 32 right.toNat ++ bigEndian 32 left.toNat)

/-- The leaves, sorted as byte arrays. -/
def sortedLeaves (machine : Machine) (addresses : List Address) : List Bytes32 :=
  (addresses.map (guardianLeaf machine)).insertionSort fun left right =>
    bigEndian 32 left.toNat ≤ bigEndian 32 right.toNat

/-- `build_guardian_root`; an empty set fails its assertion. -/
def buildGuardianRoot (machine : Machine) (addresses : List Address) : Option Bytes32 :=
  let leaves := sortedLeaves machine addresses
  (Merkle.climb (hashPair machine) leaves.length leaves).head?

/-- `build_membership_proof`. -/
def buildMembershipProof (machine : Machine) (addresses : List Address) (guardian : Address) :
    Option (List Bytes32) :=
  let leaves := sortedLeaves machine addresses
  (leaves.findIdx? fun leaf => leaf = guardianLeaf machine guardian).map fun idx =>
    Merkle.path (hashPair machine) leaves.length leaves idx

/-- `verify_membership_proof`. -/
def verifyMembershipProof (machine : Machine) (proof : List Bytes32) (root leaf : Bytes32) :
    Bool :=
  decide (proof.foldl (hashPair machine) leaf = root)

/-! ## Bytes and words -/

theorem lt_concat_iff {left right : Bytes} (sameLength : left.length = right.length)
    (last other : UInt8) :
    left ++ [last] < right ++ [other] ↔ left < right ∨ left = right ∧ last < other := by
  induction left generalizing right with
  | nil =>
      obtain rfl := List.length_eq_zero_iff.mp sameLength.symm
      simp [List.cons_lt_cons_iff]
  | cons first left ih =>
      cases right with
      | nil => cases sameLength
      | cons head right =>
          have tails := ih (Nat.succ.inj sameLength)
          simp only [List.cons_append, List.cons_lt_cons_iff, tails, List.cons.injEq]
          constructor
          · rintro (smaller | ⟨same, smaller | ⟨rfl, less⟩⟩)
            · exact .inl (.inl smaller)
            · exact .inl (.inr ⟨same, smaller⟩)
            · exact .inr ⟨⟨same, rfl⟩, less⟩
          · rintro ((smaller | ⟨same, smaller⟩) | ⟨⟨same, rfl⟩, less⟩)
            · exact .inl smaller
            · exact .inr ⟨same, .inl smaller⟩
            · exact .inr ⟨same, .inr ⟨rfl, less⟩⟩

/-- Numbers of one width compare as their bytes do. -/
theorem bigEndian_lt_iff (count : Nat) {left right : Nat} (leftFits : left < 256 ^ count)
    (rightFits : right < 256 ^ count) :
    bigEndian count left < bigEndian count right ↔ left < right := by
  induction count generalizing left right with
  | zero =>
      simp only [Nat.pow_zero, Nat.lt_one_iff] at leftFits rightFits
      simp [bigEndian, leftFits, rightFits]
  | succ count ih =>
      rw [Nat.pow_succ] at leftFits rightFits
      have leftHigh : left / 256 < 256 ^ count := Nat.div_lt_of_lt_mul (by omega)
      have rightHigh : right / 256 < 256 ^ count := Nat.div_lt_of_lt_mul (by omega)
      have sameLength : (bigEndian count (left / 256)).length =
          (bigEndian count (right / 256)).length := by
        rw [length_bigEndian, length_bigEndian]
      have sameHigh : bigEndian count (left / 256) = bigEndian count (right / 256) ↔
          left / 256 = right / 256 := by
        constructor
        · intro same
          have decoded := congrArg ofBigEndian same
          rwa [ofBigEndian_bigEndian, ofBigEndian_bigEndian, Nat.mod_eq_of_lt leftHigh,
            Nat.mod_eq_of_lt rightHigh] at decoded
        · intro same
          rw [same]
      rw [bigEndian, bigEndian, lt_concat_iff sameLength, ih leftHigh rightHigh, sameHigh,
        UInt8.lt_iff_toNat_lt, UInt8.toNat_ofNat', UInt8.toNat_ofNat']
      omega

theorem word_le_iff (left right : Bytes32) :
    bigEndian 32 left.toNat ≤ bigEndian 32 right.toNat ↔ left.toNat ≤ right.toNat := by
  have width : 256 ^ 32 = 2 ^ 256 := by decide
  have leftFits : left.toNat < 256 ^ 32 := by
    rw [width]
    exact left.isLt
  have rightFits : right.toNat < 256 ^ 32 := by
    rw [width]
    exact right.isLt
  rw [← Nat.not_lt]
  exact not_congr (bigEndian_lt_iff 32 rightFits leftFits)

/-- The bytes of a number, high and low part. -/
theorem bigEndian_add (high low value : Nat) :
    bigEndian (high + low) value = bigEndian high (value / 256 ^ low) ++ bigEndian low value := by
  induction low generalizing value with
  | zero => simp [bigEndian]
  | succ low ih =>
      rw [← Nat.add_assoc, bigEndian, ih, bigEndian, List.append_assoc, Nat.div_div_eq_div_mul,
        Nat.pow_succ']

theorem bigEndian_zero (count : Nat) : bigEndian count 0 = List.replicate count 0 := by
  induction count with
  | zero => rfl
  | succ count ih =>
      rw [bigEndian, Nat.zero_div, ih, List.replicate_succ']
      rfl

/-- The client's leaf is the contract's. -/
theorem guardianLeaf_eq (machine : Machine) (addr : Address) :
    guardianLeaf machine addr = RecoveryV2.guardianLeaf machine addr := by
  have small : addr.toNat / 256 ^ 20 = 0 := by
    apply Nat.div_eq_of_lt
    have width : 256 ^ 20 = 2 ^ 160 := by decide
    rw [width]
    exact addr.isLt
  have word : abiWord addr.toNat = List.replicate 12 0 ++ bigEndian 20 addr.toNat := by
    rw [abiWord, bigEndian_add 12 20, small, bigEndian_zero]
  rw [guardianLeaf, RecoveryV2.guardianLeaf, abiEncode, List.flatMap_singleton, word]

/-- The client's pair hash sorts as the contract does. -/
theorem hashPair_eq (machine : Machine) (left right : Bytes32) :
    hashPair machine left right =
      if left.toNat ≤ right.toNat then
        machine.keccak256 (abiWord left.toNat ++ abiWord right.toNat)
      else
        machine.keccak256 (abiWord right.toNat ++ abiWord left.toNat) := by
  simp only [hashPair, word_le_iff, abiWord]

/-- Client and contract accept the same proofs. -/
theorem verifyMembershipProof_eq (machine : Machine) (proof : List Bytes32)
    (root leaf : Bytes32) :
    verifyMembershipProof machine proof root leaf = machine.verifyMerkleProof proof root leaf := by
  have step : hashPair machine = fun computed sibling =>
      if computed.toNat ≤ sibling.toNat then
        machine.keccak256 (abiWord computed.toNat ++ abiWord sibling.toNat)
      else
        machine.keccak256 (abiWord sibling.toNat ++ abiWord computed.toNat) := by
    funext computed sibling
    exact hashPair_eq machine computed sibling
  rw [verifyMembershipProof, Machine.verifyMerkleProof, step]

/-! ## Agreement -/

theorem hashPair_symm (machine : Machine) (left right : Bytes32) :
    hashPair machine left right = hashPair machine right left := by
  rw [hashPair_eq, hashPair_eq]
  split
  · next leftFirst =>
      split
      · next rightFirst =>
          obtain rfl : left = right := BitVec.eq_of_toNat_eq (Nat.le_antisymm leftFirst rightFirst)
          rfl
      · rfl
  · next rightFirst => rw [if_pos (Nat.le_of_not_le rightFirst)]

/-- The two nodes of a pair in the order they are hashed. -/
def packed (left right : Bytes32) : Bytes :=
  if left.toNat ≤ right.toNat then abiWord left.toNat ++ abiWord right.toNat
  else abiWord right.toNat ++ abiWord left.toNat

theorem hashPair_packed (machine : Machine) (left right : Bytes32) :
    hashPair machine left right = machine.keccak256 (packed left right) := by
  rw [hashPair_eq, packed]
  split <;> rfl

/-- What is hashed when the tree of a guardian set is built. -/
def treeInputs (machine : Machine) (addresses : List Address) : List Bytes :=
  let leaves := sortedLeaves machine addresses
  (addresses.map fun addr => abiWord addr.toNat) ++
    (Merkle.treePairs (hashPair machine) leaves.length leaves).map fun nodes =>
      packed nodes.1 nodes.2

/-- What is hashed when a proof is checked. -/
def proofInputs (machine : Machine) (guardian : Address) (proof : List Bytes32) : List Bytes :=
  abiWord guardian.toNat ::
    (Merkle.combined (hashPair machine) (guardianLeaf machine guardian) proof).map fun nodes =>
      packed nodes.1 nodes.2

def NoCollision (hash : Bytes → Bytes32) (inputs : List Bytes) : Prop :=
  ∀ left ∈ inputs, ∀ right ∈ inputs, hash left = hash right → left = right

instance (hash : Bytes → Bytes32) (inputs : List Bytes) : Decidable (NoCollision hash inputs) :=
  inferInstanceAs (Decidable (∀ left ∈ inputs, ∀ right ∈ inputs, _ → _))

theorem mem_sortedLeaves {machine : Machine} {addresses : List Address} {leaf : Bytes32} :
    leaf ∈ sortedLeaves machine addresses ↔ leaf ∈ addresses.map (guardianLeaf machine) :=
  (List.perm_insertionSort _ _).mem_iff

theorem sortedLeaves_perm (machine : Machine) {addresses reordered : List Address}
    (same : reordered.Perm addresses) :
    sortedLeaves machine reordered = sortedLeaves machine addresses := by
  have total : Std.Total fun left right : Bytes32 =>
      bigEndian 32 left.toNat ≤ bigEndian 32 right.toNat := by
    constructor
    intro left right
    rw [word_le_iff, word_le_iff]
    exact Nat.le_total _ _
  have transitive : IsTrans Bytes32 fun left right =>
      bigEndian 32 left.toNat ≤ bigEndian 32 right.toNat := by
    constructor
    intro first second third
    rw [word_le_iff, word_le_iff, word_le_iff]
    exact Nat.le_trans
  have sorted : ∀ leaves : List Bytes32, (leaves.insertionSort fun left right =>
      bigEndian 32 left.toNat ≤ bigEndian 32 right.toNat).Pairwise fun left right =>
        bigEndian 32 left.toNat ≤ bigEndian 32 right.toNat := fun leaves =>
    List.pairwise_insertionSort _ leaves
  refine List.Perm.eq_of_pairwise ?_ (sorted _) (sorted _) ?_
  · intro left right _ _ leftFirst rightFirst
    rw [word_le_iff] at leftFirst rightFirst
    exact BitVec.eq_of_toNat_eq (Nat.le_antisymm leftFirst rightFirst)
  · exact ((List.perm_insertionSort _ _).trans (same.map _)).trans
      (List.perm_insertionSort _ _).symm

/-- A non-empty set has a root, the one node its tree ends in. -/
theorem exists_root (machine : Machine) {addresses : List Address} (nonempty : addresses ≠ []) :
    ∃ root, buildGuardianRoot machine addresses = some root ∧
      Merkle.climb (hashPair machine) (sortedLeaves machine addresses).length
        (sortedLeaves machine addresses) = [root] := by
  have leaves : sortedLeaves machine addresses ≠ [] := by
    intro empty
    have length := (List.perm_insertionSort
      (fun left right : Bytes32 => bigEndian 32 left.toNat ≤ bigEndian 32 right.toNat)
      (addresses.map (guardianLeaf machine))).length_eq
    rw [show List.insertionSort _ _ = sortedLeaves machine addresses from rfl, empty,
      List.length_map] at length
    exact nonempty (List.length_eq_zero_iff.mp length.symm)
  obtain ⟨root, climbed⟩ := List.length_eq_one_iff.mp
    (Merkle.length_climb (hashPair machine) leaves le_rfl)
  exact ⟨root, by rw [buildGuardianRoot, climbed, List.head?_cons], climbed⟩

theorem isSome_buildMembershipProof (machine : Machine) (addresses : List Address)
    (guardian : Address) :
    (buildMembershipProof machine addresses guardian).isSome ↔
      guardianLeaf machine guardian ∈ addresses.map (guardianLeaf machine) := by
  rw [← mem_sortedLeaves, buildMembershipProof, Option.isSome_map, List.findIdx?_isSome,
    List.any_eq_true]
  simp

/-- A proof that was built leads to the root. -/
theorem verify_buildMembershipProof {machine : Machine} {addresses : List Address}
    {guardian : Address} {proof : List Bytes32} {root : Bytes32}
    (climbed : Merkle.climb (hashPair machine) (sortedLeaves machine addresses).length
      (sortedLeaves machine addresses) = [root])
    (built : buildMembershipProof machine addresses guardian = some proof) :
    verifyMembershipProof machine proof root (guardianLeaf machine guardian) = true := by
  obtain ⟨idx, located, rfl⟩ := Option.map_eq_some_iff.mp built
  obtain ⟨inRange, isTarget, -⟩ := List.findIdx?_eq_some_iff_getElem.mp located
  have found : (sortedLeaves machine addresses)[idx]? = some (guardianLeaf machine guardian) := by
    rw [List.getElem?_eq_getElem inRange, of_decide_eq_true isTarget]
  have reached := Merkle.ascend_path (hashPair_symm machine) le_rfl found
  rw [climbed] at reached
  exact decide_eq_true (List.cons.inj reached).1.symm

theorem packed_inj {left right first second : Bytes32}
    (same : packed left right = packed first second) : left = first ∨ left = second := by
  have words : ∀ {one two three four : Bytes32},
      abiWord one.toNat ++ abiWord two.toNat = abiWord three.toNat ++ abiWord four.toNat →
        one = three ∧ two = four := by
    intro one two three four equal
    obtain ⟨high, low⟩ := List.append_inj equal (by rw [length_abiWord, length_abiWord])
    exact ⟨BitVec.eq_of_toNat_eq (abiWord_inj one.isLt three.isLt high),
      BitVec.eq_of_toNat_eq (abiWord_inj two.isLt four.isLt low)⟩
  unfold packed at same
  split at same
  · split at same
    · exact .inl (words same).1
    · exact .inr (words same).1
  · split at same
    · exact .inr (words same).2
    · exact .inl (words same).2

theorem packed_ne_word (left right : Bytes32) (value : Nat) : packed left right ≠ abiWord value := by
  intro same
  have lengths := congrArg List.length same
  unfold packed at lengths
  split at lengths <;> simp [length_abiWord] at lengths

/-- Without collisions among what is hashed, a guardian outside the set has no proof. -/
theorem mem_of_verify {machine : Machine} {addresses : List Address} {guardian : Address}
    {proof : List Bytes32} {root : Bytes32}
    (climbed : Merkle.climb (hashPair machine) (sortedLeaves machine addresses).length
      (sortedLeaves machine addresses) = [root])
    (noCollision : NoCollision machine.keccak256
      (treeInputs machine addresses ++ proofInputs machine guardian proof))
    (verified : verifyMembershipProof machine proof root (guardianLeaf machine guardian) = true) :
    guardian ∈ addresses := by
  have leafInput : ∀ addr ∈ addresses, abiWord addr.toNat ∈
      treeInputs machine addresses ++ proofInputs machine guardian proof := fun addr listed =>
    List.mem_append_left _ (List.mem_append_left _ (List.mem_map.mpr ⟨addr, listed, rfl⟩))
  have pairInput : ∀ nodes ∈ Merkle.treePairs (hashPair machine)
      (sortedLeaves machine addresses).length (sortedLeaves machine addresses),
      packed nodes.1 nodes.2 ∈
        treeInputs machine addresses ++ proofInputs machine guardian proof := fun nodes inTree =>
    List.mem_append_left _ (List.mem_append_right _ (List.mem_map.mpr ⟨nodes, inTree, rfl⟩))
  have ownInput : abiWord guardian.toNat ∈
      treeInputs machine addresses ++ proofInputs machine guardian proof :=
    List.mem_append_right _ List.mem_cons_self
  have stepInput : ∀ nodes ∈ Merkle.combined (hashPair machine) (guardianLeaf machine guardian)
      proof, packed nodes.1 nodes.2 ∈
        treeInputs machine addresses ++ proofInputs machine guardian proof := fun nodes inProof =>
    List.mem_append_right _ (List.mem_cons_of_mem _ (List.mem_map.mpr ⟨nodes, inProof, rfl⟩))
  have leafHash : ∀ addr, guardianLeaf machine addr = machine.keccak256 (abiWord addr.toNat) := by
    intro addr
    rw [guardianLeaf_eq, RecoveryV2.guardianLeaf, abiEncode, List.flatMap_singleton]
  have built : Merkle.Built (hashPair machine) (Merkle.treePairs (hashPair machine)
      (sortedLeaves machine addresses).length (sortedLeaves machine addresses))
      (sortedLeaves machine addresses) root := by
    apply Merkle.built_of_mem_climb
    rw [climbed]
    exact List.mem_singleton.mpr rfl
  have isLeaf : guardianLeaf machine guardian ∈ sortedLeaves machine addresses := by
    apply Merkle.mem_of_ascend built (of_decide_eq_true verified)
    · intro nodes inTree same
      rw [hashPair_packed, leafHash] at same
      exact packed_ne_word _ _ _ (noCollision _ (pairInput nodes inTree) _ ownInput same)
    · intro nodes inProof leaf member same
      obtain ⟨addr, listed, rfl⟩ := List.mem_map.mp (mem_sortedLeaves.mp member)
      rw [hashPair_packed, leafHash] at same
      exact packed_ne_word _ _ _
        (noCollision _ (stepInput nodes inProof) _ (leafInput addr listed) same)
    · intro nodes inProof entry inTree same
      rw [hashPair_packed, hashPair_packed] at same
      exact packed_inj (noCollision _ (stepInput nodes inProof) _ (pairInput entry inTree) same)
  obtain ⟨addr, listed, same⟩ := List.mem_map.mp (mem_sortedLeaves.mp isLeaf)
  rw [leafHash, leafHash] at same
  have words := noCollision _ (leafInput addr listed) _ ownInput same
  have fits : ∀ addr : Address, addr.toNat < 2 ^ 256 := fun addr =>
    addr.isLt.trans (by decide)
  rwa [BitVec.eq_of_toNat_eq (abiWord_inj (fits addr) (fits guardian) words)] at listed

/-- Whatever the hash: the client proves exactly the leaves of its list, the contract accepts
these proofs, and the order of the list does not matter.  Where what is hashed does not
collide, nobody else has a proof of any length. -/
theorem guardian_tree_agrees (machine : Machine) (addresses : List Address)
    (nonempty : addresses ≠ []) :
    ∃ root, buildGuardianRoot machine addresses = some root ∧
      (∀ guardian, (buildMembershipProof machine addresses guardian).isSome ↔
        guardianLeaf machine guardian ∈ addresses.map (guardianLeaf machine)) ∧
      (∀ guardian proof, buildMembershipProof machine addresses guardian = some proof →
        verifyMembershipProof machine proof root (guardianLeaf machine guardian) = true ∧
          machine.verifyMerkleProof proof root (RecoveryV2.guardianLeaf machine guardian) =
            true) ∧
      (∀ reordered : List Address, reordered.Perm addresses →
        buildGuardianRoot machine reordered = some root) ∧
      ∀ guardian ∉ addresses, ∀ proof,
        NoCollision machine.keccak256
            (treeInputs machine addresses ++ proofInputs machine guardian proof) →
          verifyMembershipProof machine proof root (guardianLeaf machine guardian) = false ∧
            machine.verifyMerkleProof proof root (RecoveryV2.guardianLeaf machine guardian) =
              false := by
  obtain ⟨root, isRoot, climbed⟩ := exists_root machine nonempty
  refine ⟨root, isRoot, isSome_buildMembershipProof machine addresses, ?_, ?_, ?_⟩
  · intro guardian proof built
    have verified := verify_buildMembershipProof climbed built
    refine ⟨verified, ?_⟩
    rw [← guardianLeaf_eq, ← verifyMembershipProof_eq]
    exact verified
  · intro reordered same
    rw [buildGuardianRoot, sortedLeaves_perm machine same]
    exact isRoot
  · intro guardian outside proof noCollision
    have rejected :
        verifyMembershipProof machine proof root (guardianLeaf machine guardian) = false := by
      rw [Bool.eq_false_iff]
      intro verified
      exact outside (mem_of_verify climbed noCollision verified)
    refine ⟨rejected, ?_⟩
    rw [← guardianLeaf_eq, ← verifyMembershipProof_eq]
    exact rejected

namespace GuardianSample

/-- A digest that mixes the bytes of its input. -/
def machine : Machine :=
  ⟨fun bytes => BitVec.ofNat 256 (bytes.foldl (fun sum byte => 257 * sum + byte.toNat) 1),
    fun _ _ _ _ => 0, 1, 2⟩

end GuardianSample

/-- Guardians 21, 22 and 23: the proof of the last verifies, one of a stranger does not. -/
theorem guardian_tree_agrees_three :
    ∃ root, buildGuardianRoot GuardianSample.machine [21, 22, 23] = some root ∧
      (∀ proof, buildMembershipProof GuardianSample.machine [21, 22, 23] 23 = some proof →
        GuardianSample.machine.verifyMerkleProof proof root
          (RecoveryV2.guardianLeaf GuardianSample.machine 23) = true) ∧
      GuardianSample.machine.verifyMerkleProof [5] root
        (RecoveryV2.guardianLeaf GuardianSample.machine 99) = false := by
  obtain ⟨root, isRoot, -, proofs, -, rejects⟩ :=
    guardian_tree_agrees GuardianSample.machine [21, 22, 23] (by decide)
  refine ⟨root, isRoot, fun proof built => (proofs 23 proof built).2, ?_⟩
  exact (rejects 99 (by decide) [5] (by decide +kernel)).2

end Pangolin.Chain
