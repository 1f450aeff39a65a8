import Pangolin.Crypto.Keys
import Pangolin.Lib.Threshold

/-!
# Guardian escrow and device pairing

The recovery wrap key (RWK) wraps the VDK a second time and is split among the
guardians; each share is sealed to one guardian's X25519 key.  Pairing seals a VDK
to a device the same way.  Both sealed plaintexts start with a header naming the
vault and the epoch, and the openers compare it with what they expect.

The Shamir split itself is a third-party primitive and stays a parameter.
-/

namespace Pangolin.Crypto

open Symbolic

structure RecoveryWrapKey where
  raw : Nat
  deriving Repr, DecidableEq

structure Share where
  raw : Nat
  deriving Repr, DecidableEq

/-- The splitting primitive `split_rwk` and `reconstruct_rwk` call. -/
abbrev ShareScheme := ThresholdScheme RecoveryWrapKey Share Nat

/-- A scheme that satisfies the law: each share carries the threshold, its own index and
the secret, and recombination only counts the shares.  It stands in for the primitive
where a statement is evaluated on a concrete input. -/
def countingScheme : ShareScheme where
  split threshold count secret _ :=
    if threshold < 256 ∧ count ≤ 256 then
      some ((List.range count).map fun index => ⟨(secret.raw * 256 + index) * 256 + threshold⟩)
    else
      none
  combine shares :=
    match shares with
    | [] => none
    | share :: _ =>
        if share.raw % 256 ≤ shares.length then some ⟨share.raw / 256 / 256⟩ else none
  length_split := by
    intro threshold count secret coins shares split
    split at split
    · obtain rfl := Option.some.inj split
      simp
    · cases split
  combine_of_subperm := by
    intro threshold count secret coins shares chosen split among enough positive
    split at split
    · next small =>
        obtain rfl := Option.some.inj split
        cases chosen with
        | nil => exact absurd enough (by simp; omega)
        | cons share others =>
            obtain ⟨index, inRange, rfl⟩ :=
              List.mem_map.mp (among.subset List.mem_cons_self)
            rw [List.mem_range] at inRange
            have marked : ((secret.raw * 256 + index) * 256 + threshold) % 256 = threshold := by
              omega
            have carried : ((secret.raw * 256 + index) * 256 + threshold) / 256 / 256 =
                secret.raw := by
              omega
            simp only [marked, enough, carried, if_true]
    · cases split

/-- What an anonymous sealed box carries, header first. -/
inductive BoxPlaintext where
  | share (vaultId : VaultId) (epoch : Nat) (share : Share)
  | vdk (vaultId : VaultId) (deviceId : DeviceId) (epoch : Nat) (vdk : VdkKey)
  deriving Repr, DecidableEq

/-- A `crypto_box` sealed box; the type of both `SealedShare` and
`SealedVdkForDevice`. -/
structure SealedBox where
  recipient : X25519Pub
  plaintext : BoxPlaintext
  deriving Repr, DecidableEq

def SealedBox.unseal (box : SealedBox) (secret : X25519Secret) : Option BoxPlaintext :=
  if box.recipient = secret.publicKey then some box.plaintext else none

def sealShare (share : Share) (guardian : X25519Pub) (vaultId : VaultId) (epoch : Nat) :
    SealedBox :=
  ⟨guardian, .share vaultId epoch share⟩

def openSealedShare (sealedShare : SealedBox) (secret : X25519Secret) (vaultId : VaultId)
    (epoch : Nat) : Option Share :=
  match sealedShare.unseal secret with
  | some (.share headerVault headerEpoch share) =>
      if headerVault = vaultId ∧ headerEpoch = epoch then some share else none
  | _ => none

/-- A sealed share opens for its guardian exactly at the vault and epoch in its
header. -/
theorem openSealedShare_sealShare_eq_some_iff (share opened : Share)
    (guardian : X25519Pub) (headerVault vaultId : VaultId) (headerEpoch epoch : Nat)
    (secret : X25519Secret) :
    openSealedShare (sealShare share guardian headerVault headerEpoch) secret vaultId epoch =
        some opened ↔
      guardian = secret.publicKey ∧ headerVault = vaultId ∧ headerEpoch = epoch ∧
        share = opened := by
  unfold openSealedShare sealShare SealedBox.unseal
  by_cases recipient : guardian = secret.publicKey
  · by_cases header : headerVault = vaultId ∧ headerEpoch = epoch
    · simp [recipient, header]
    · simp [recipient, header]
      intro sameVault sameEpoch
      exact absurd ⟨sameVault, sameEpoch⟩ header
  · simp [recipient]

/-- The VDK under the recovery wrap key, bound to a vault context. -/
abbrev WrappedVdkRecovery := Sealed RecoveryWrapKey WrapContext VdkKey

def wrapVdkUnderRwk (vdk : VdkKey) (rwk : RecoveryWrapKey) (context : WrapContext) :
    WrappedVdkRecovery :=
  ⟨rwk, context, vdk⟩

def unwrapVdkUnderRwk (wrapped : WrappedVdkRecovery) (context : WrapContext)
    (rwk : RecoveryWrapKey) : Option VdkKey :=
  wrapped.open? rwk context

/-- `check_bounds`: threshold in 2..=9, guardians in 3..=15, threshold at most the
number of guardians. -/
def checkBounds (threshold guardianCount : Nat) : Bool :=
  decide (2 ≤ threshold ∧ threshold ≤ 9) && decide (3 ≤ guardianCount ∧ guardianCount ≤ 15) &&
    decide (threshold ≤ guardianCount)

structure EscrowAssignment where
  index : Nat
  guardianPub : X25519Pub
  sealedShare : SealedBox
  deriving Repr, DecidableEq

structure EscrowOnboarding where
  wrappedRecovery : WrappedVdkRecovery
  assignments : List EscrowAssignment
  deriving Repr, DecidableEq

/-- The randomness one onboarding draws: the wrap key and the split's coins. -/
structure EscrowDraw where
  rwk : RecoveryWrapKey
  coins : Nat
  deriving Repr, DecidableEq

section

variable (scheme : ShareScheme)

def splitRwk (rwk : RecoveryWrapKey) (threshold guardianCount : Nat) (coins : Nat) :
    Option (List Share) :=
  if checkBounds threshold guardianCount then
    scheme.split threshold guardianCount rwk coins
  else
    none

/-- The seals of `shares` to `pubs`, numbered from zero; `zip` stops at the
shorter list. -/
def sealAssignments (vaultId : VaultId) (epoch : Nat) (shares : List Share)
    (pubs : List X25519Pub) : List EscrowAssignment :=
  (shares.zip pubs).zipIdx.map fun entry =>
    ⟨entry.2, entry.1.2, sealShare entry.1.1 entry.1.2 vaultId epoch⟩

/-- The slots are numbered from zero. -/
theorem sealAssignments_map_index (vaultId : VaultId) (epoch : Nat) (shares : List Share)
    (pubs : List X25519Pub) :
    (sealAssignments vaultId epoch shares pubs).map EscrowAssignment.index =
      List.range' 0 (shares.zip pubs).length := by
  rw [sealAssignments, List.map_map, ← List.zipIdx_map_snd]
  rfl

def onboardEscrow (vdk : VdkKey) (vaultId : VaultId) (threshold guardianCount : Nat)
    (pubs : List X25519Pub) (epoch : Nat) (draw : EscrowDraw) : Option EscrowOnboarding := do
  let shares ← splitRwk scheme draw.rwk threshold guardianCount draw.coins
  return {
    wrappedRecovery := wrapVdkUnderRwk vdk draw.rwk (.new vaultId)
    assignments := sealAssignments vaultId epoch shares pubs
  }

/-- Everything a successful onboarding produced. -/
theorem onboardEscrow_eq_some {vdk : VdkKey} {vaultId : VaultId}
    {threshold guardianCount epoch : Nat} {pubs : List X25519Pub} {draw : EscrowDraw}
    {onboarding : EscrowOnboarding}
    (onboarded : onboardEscrow scheme vdk vaultId threshold guardianCount pubs epoch draw =
      some onboarding) :
    ∃ shares, checkBounds threshold guardianCount = true ∧
      scheme.split threshold guardianCount draw.rwk draw.coins = some shares ∧
      onboarding.wrappedRecovery = wrapVdkUnderRwk vdk draw.rwk (.new vaultId) ∧
      onboarding.assignments = sealAssignments vaultId epoch shares pubs := by
  unfold onboardEscrow splitRwk at onboarded
  by_cases bounds : checkBounds threshold guardianCount = true
  · cases split : scheme.split threshold guardianCount draw.rwk draw.coins with
    | none => simp [bounds, split] at onboarded
    | some shares =>
        simp [bounds, split] at onboarded
        subst onboarded
        exact ⟨shares, bounds, rfl, rfl, rfl⟩
  · simp [bounds] at onboarded

end

/-- Distinct slots in range select a sub-permutation of the shares. -/
theorem slots_map_subperm {slots : List Nat} {shares : List Share} (distinct : slots.Nodup)
    (inRange : ∀ slot ∈ slots, slot < shares.length) :
    (slots.map fun slot => shares.getD slot ⟨0⟩).Subperm shares := by
  have all : (List.range shares.length).map (fun slot => shares.getD slot ⟨0⟩) = shares := by
    apply List.ext_getElem
    · simp
    · intro index inList inShares
      simp [inShares]
  have chosen : slots.Subperm (List.range shares.length) := by
    apply distinct.subperm
    intro slot member
    exact List.mem_range.mpr (inRange slot member)
  obtain ⟨ordered, perm, sublist⟩ := chosen
  refine ⟨ordered.map fun slot => shares.getD slot ⟨0⟩, perm.map _, ?_⟩
  have mapped := sublist.map fun slot => shares.getD slot ⟨0⟩
  rw [all] at mapped
  exact mapped

/-! ## Pairing -/

def sealVdkToDevice (vdk : VdkKey) (recipient : X25519Pub) (vaultId : VaultId)
    (deviceId : DeviceId) (epoch : Nat) : SealedBox :=
  ⟨recipient, .vdk vaultId deviceId epoch vdk⟩

def openVdkFromPairing (sealedVdk : SealedBox) (secret : X25519Secret) (vaultId : VaultId)
    (deviceId : DeviceId) (epoch : Nat) : Option VdkKey :=
  match sealedVdk.unseal secret with
  | some (.vdk headerVault headerDevice headerEpoch vdk) =>
      if headerVault = vaultId ∧ headerDevice = deviceId ∧ headerEpoch = epoch then
        some vdk
      else
        none
  | _ => none

/-- A box that carries a share is no pairing box. -/
theorem openVdkFromPairing_sealShare (share : Share) (guardian : X25519Pub)
    (headerVault vaultId : VaultId) (headerEpoch epoch : Nat) (secret : X25519Secret)
    (deviceId : DeviceId) :
    openVdkFromPairing (sealShare share guardian headerVault headerEpoch) secret vaultId
      deviceId epoch = none := by
  unfold openVdkFromPairing sealShare SealedBox.unseal
  split
  · next equal => split at equal <;> simp at equal
  · rfl

end Pangolin.Crypto
