import Pangolin.Contracts.Evm
import Pangolin.Core.Composition

/-!
# Generations of guardian shares

Onboarding splits a wrap key among the guardians at some epoch, and every recovery splits a
fresh one at the next.  A chain of recoveries hands the same VDK from generation to
generation; the epoch in the header of a share ties the share to its own.
-/

namespace Pangolin.Core

open Symbolic Crypto

/-! ## The epoch as bytes -/

/-- `RecoveryEpoch::to_escrow_bytes`: eight reserved bytes and the counter, big-endian. -/
def toEscrowBytes (epoch : Nat) : List UInt8 := List.replicate 8 0 ++ Evm.bigEndian 8 epoch

/-- The bytes `onboard_escrow` puts into the header, by its own code. -/
def headerEpochBytes (epoch : Nat) : List UInt8 := List.replicate 8 0 ++ Evm.bigEndian 8 epoch

/-- `RecoveryEpoch::from_escrow_bytes`, which ignores the reserved bytes. -/
def fromEscrowBytes (bytes : List UInt8) : Nat := Evm.ofBigEndian (bytes.drop 8)

theorem fromEscrowBytes_toEscrowBytes {epoch : Nat} (fits : epoch < 2 ^ 64) :
    fromEscrowBytes (toEscrowBytes epoch) = epoch := by
  have width : 256 ^ 8 = 2 ^ 64 := by decide
  rw [fromEscrowBytes, toEscrowBytes, List.drop_left' List.length_replicate,
    Evm.ofBigEndian_bigEndian, width, Nat.mod_eq_of_lt fits]

/-- The opener's bytes are those of the header exactly at the same epoch. -/
theorem headerEpochBytes_eq_iff {header epoch : Nat} (headerFits : header < 2 ^ 64)
    (fits : epoch < 2 ^ 64) : headerEpochBytes header = toEscrowBytes epoch ↔ header = epoch := by
  constructor
  · intro same
    have decoded := congrArg fromEscrowBytes same
    change fromEscrowBytes (toEscrowBytes header) = fromEscrowBytes (toEscrowBytes epoch) at decoded
    rwa [fromEscrowBytes_toEscrowBytes headerFits, fromEscrowBytes_toEscrowBytes fits] at decoded
  · rintro rfl
    rfl

/-- `open_sealed_share` as it is called, with the epoch as bytes. -/
def openSealedShareAt (sealedShare : SealedBox) (secret : X25519Secret) (vaultId : VaultId)
    (epochBytes : List UInt8) : Option Share :=
  match sealedShare.unseal secret with
  | some (.share headerVault headerEpoch share) =>
      if headerVault = vaultId ∧ headerEpochBytes headerEpoch = epochBytes then some share else none
  | _ => none

theorem openSealedShareAt_eq_some_iff {share opened : Share} {guardian : X25519Pub}
    {headerVault vaultId : VaultId} {headerEpoch epoch : Nat} {secret : X25519Secret}
    (headerFits : headerEpoch < 2 ^ 64) (fits : epoch < 2 ^ 64) :
    openSealedShareAt (sealShare share guardian headerVault headerEpoch) secret vaultId
        (toEscrowBytes epoch) = some opened ↔
      guardian = secret.publicKey ∧ headerVault = vaultId ∧ headerEpoch = epoch ∧
        share = opened := by
  rw [← openSealedShare_sealShare_eq_some_iff share opened guardian headerVault vaultId
    headerEpoch epoch secret]
  unfold openSealedShareAt openSealedShare sealShare SealedBox.unseal
  by_cases recipient : guardian = secret.publicKey
  · simp only [recipient, if_true, headerEpochBytes_eq_iff headerFits fits]
  · simp only [recipient, if_false]

/-! ## A chain of recoveries -/

/-- What a vault's guardians were set up with. -/
structure GuardianCircle where
  vaultId : VaultId
  config : GuardianSetConfig
  /-- The guardians' keys, in the order of the set. -/
  guardians : List X25519Secret
  deriving Repr, DecidableEq

def GuardianCircle.pubs (circle : GuardianCircle) : List X25519Pub :=
  circle.guardians.map X25519Secret.publicKey

/-- Which guardians take part in a recovery, and what its re-split draws. -/
structure RecoveryStep where
  slots : List Nat
  draw : EscrowDraw
  deriving Repr, DecidableEq

/-- A guardian opens its own share at the generation's epoch. -/
def GuardianCircle.openedShare (circle : GuardianCircle) (current : OnboardingArtifacts)
    (slot : Nat) : Option Share := do
  let assignment ← current.assignments[slot]?
  let secret ← circle.guardians[slot]?
  openSealedShareAt assignment.sealedShare secret circle.vaultId (toEscrowBytes current.epoch)

/-- The call of `recover_vdk_from_shares` with a wrapper, which carries its own context.  The
fields that only `recover_from_shares` reads are left empty. -/
def driverInput (wrapped : WrappedVdkRecovery) (openedShares : List Share) (vaultId : VaultId)
    (config : GuardianSetConfig) (pubs : List X25519Pub) (currentEpoch : Nat)
    (draw : EscrowDraw) : RecoveryInput where
  wrappedRecovery := wrapped
  wrapContext := wrapped.context
  openedShares := openedShares
  roster := ⟨config.threshold, config.guardianCount, pubs, []⟩
  password := ⟨[]⟩
  currentEpoch := currentEpoch
  vaultId := vaultId
  salt := ⟨0⟩
  escrow := draw

/-- One recovery: the chosen guardians open their shares, the driver recovers and re-splits. -/
def GuardianCircle.recover (circle : GuardianCircle) (scheme : ShareScheme)
    (current : OnboardingArtifacts) (step : RecoveryStep) :
    Option (VdkKey × OnboardingArtifacts) := do
  let opened ← step.slots.mapM (circle.openedShare current)
  recoverVdkFromShares scheme (driverInput current.wrappedRecovery opened circle.vaultId
    circle.config circle.pubs current.epoch step.draw)

/-- Recovery after recovery, with what each returned. -/
def GuardianCircle.recoverAll (circle : GuardianCircle) (scheme : ShareScheme) :
    OnboardingArtifacts → List RecoveryStep → Option (List (VdkKey × OnboardingArtifacts))
  | _, [] => some []
  | current, step :: steps => do
      let recovered ← circle.recover scheme current step
      let others ← circle.recoverAll scheme recovered.2 steps
      return recovered :: others

/-- Enough guardians of the set, each of them once. -/
structure GuardianCircle.Quorum (circle : GuardianCircle) (step : RecoveryStep) : Prop where
  distinct : step.slots.Nodup
  inSet : ∀ slot ∈ step.slots, slot < circle.guardians.length
  enough : circle.config.threshold ≤ step.slots.length

/-- The artifacts are one split of a wrap key around the VDK, sealed at their epoch. -/
def GuardianCircle.Holds (circle : GuardianCircle) (scheme : ShareScheme) (vdk : VdkKey)
    (artifacts : OnboardingArtifacts) : Prop :=
  artifacts.epoch < 2 ^ 64 ∧ ∃ (draw : EscrowDraw) (shares : List Share),
    scheme.split circle.config.threshold circle.config.guardianCount draw.rwk draw.coins =
      some shares ∧
    shares.length = circle.guardians.length ∧
    artifacts.wrappedRecovery = wrapVdkUnderRwk vdk draw.rwk (.new circle.vaultId) ∧
    artifacts.assignments = sealAssignments circle.vaultId artifacts.epoch shares circle.pubs

/-! ## One generation -/

section

variable {circle : GuardianCircle} {scheme : ShareScheme} {vdk : VdkKey}
variable {current : OnboardingArtifacts}

theorem checkBounds_of_validate {config : GuardianSetConfig} (valid : config.validate = true) :
    checkBounds config.threshold config.guardianCount = true := by
  simp only [GuardianSetConfig.validate, Bool.and_eq_true, decide_eq_true_eq] at valid
  simp only [checkBounds, Bool.and_eq_true, decide_eq_true_eq]
  omega

/-- The splitting primitive takes every set that passes the bounds. -/
def Splits (scheme : ShareScheme) : Prop :=
  ∀ threshold count secret coins, checkBounds threshold count = true →
    ∃ shares, scheme.split threshold count secret coins = some shares

/-- Onboarding a valid set succeeds. -/
theorem onboardGuardianEscrow_holds (splits : Splits scheme) (vdk : VdkKey)
    (valid : circle.config.validate = true)
    (full : circle.guardians.length = circle.config.guardianCount) {epoch : Nat}
    (fits : epoch < 2 ^ 64) (draw : EscrowDraw) :
    ∃ artifacts, onboardGuardianEscrow scheme vdk circle.vaultId circle.config circle.pubs epoch
        draw = some artifacts ∧
      circle.Holds scheme vdk artifacts ∧ artifacts.epoch = epoch := by
  have bounds := checkBounds_of_validate valid
  have named : circle.pubs.length = circle.config.guardianCount := by
    rw [GuardianCircle.pubs, List.length_map, full]
  obtain ⟨shares, split⟩ := splits circle.config.threshold circle.config.guardianCount draw.rwk
    draw.coins bounds
  refine ⟨⟨wrapVdkUnderRwk vdk draw.rwk (.new circle.vaultId), circle.config, epoch,
    sealAssignments circle.vaultId epoch shares circle.pubs⟩, ?_, ?_, rfl⟩
  · simp [onboardGuardianEscrow, valid, named, onboardEscrow, splitRwk, bounds, split]
  · exact ⟨fits, draw, shares, split, (scheme.length_split split).trans full.symm, rfl, rfl⟩

theorem sealAssignments_getElem? {vaultId : VaultId} {epoch : Nat} {shares : List Share}
    {pubs : List X25519Pub} {slot : Nat} {share : Share} {pub : X25519Pub}
    (shareAt : shares[slot]? = some share) (pubAt : pubs[slot]? = some pub) :
    (sealAssignments vaultId epoch shares pubs)[slot]? =
      some ⟨slot, pub, sealShare share pub vaultId epoch⟩ := by
  have paired : (shares.zip pubs)[slot]? = some (share, pub) :=
    List.getElem?_zip_eq_some.mpr ⟨shareAt, pubAt⟩
  rw [sealAssignments, List.getElem?_map, List.getElem?_zipIdx, paired]
  simp

/-- Each guardian of the set opens its share. -/
theorem GuardianCircle.openedShare_eq_some {shares : List Share}
    (fits : current.epoch < 2 ^ 64) (counted : shares.length = circle.guardians.length)
    (boxes : current.assignments =
      sealAssignments circle.vaultId current.epoch shares circle.pubs)
    {slot : Nat} (inSet : slot < circle.guardians.length) :
    circle.openedShare current slot = some (shares.getD slot ⟨0⟩) := by
  have shareAt : shares[slot]? = some (shares.getD slot ⟨0⟩) := by
    rw [List.getD_eq_getElem?_getD, List.getElem?_eq_getElem (counted ▸ inSet)]
    rfl
  have secretAt : circle.guardians[slot]? = some circle.guardians[slot] :=
    List.getElem?_eq_getElem inSet
  have pubAt : circle.pubs[slot]? = some circle.guardians[slot].publicKey := by
    rw [GuardianCircle.pubs, List.getElem?_map, secretAt]
    rfl
  rw [GuardianCircle.openedShare, boxes, sealAssignments_getElem? shareAt pubAt, secretAt]
  exact (openSealedShareAt_eq_some_iff fits fits).mpr ⟨rfl, rfl, rfl, rfl⟩

theorem mapM_eq_some_map {α β : Type} {attempt : α → Option β} {total : α → β} {items : List α}
    (defined : ∀ item ∈ items, attempt item = some (total item)) :
    items.mapM attempt = some (items.map total) := by
  induction items with
  | nil => rfl
  | cons item items ih =>
      rw [List.forall_mem_cons] at defined
      simp [List.mapM_cons, defined.1, ih defined.2]

/-- A recovery by enough guardians returns the VDK and leaves the next generation. -/
theorem GuardianCircle.Holds.recover (held : circle.Holds scheme vdk current)
    (splits : Splits scheme) (valid : circle.config.validate = true)
    (full : circle.guardians.length = circle.config.guardianCount) {step : RecoveryStep}
    (quorum : circle.Quorum step) :
    ∃ next, circle.recover scheme current step = some (vdk, next) ∧
      circle.Holds scheme vdk next ∧ next.epoch = nextEpoch current.epoch := by
  obtain ⟨fits, draw, shares, split, counted, wrapped, boxes⟩ := held
  have nextFits : nextEpoch current.epoch < 2 ^ 64 := by
    unfold nextEpoch
    omega
  obtain ⟨next, onboarded, nextHeld, nextAt⟩ :=
    onboardGuardianEscrow_holds splits vdk valid full nextFits step.draw
  refine ⟨next, ?_, nextHeld, nextAt⟩
  have opened : step.slots.mapM (circle.openedShare current) =
      some (step.slots.map fun slot => shares.getD slot ⟨0⟩) := by
    apply mapM_eq_some_map
    intro slot member
    exact GuardianCircle.openedShare_eq_some fits counted boxes (quorum.inSet slot member)
  have combined : scheme.combine (step.slots.map fun slot => shares.getD slot ⟨0⟩) =
      some draw.rwk := by
    apply scheme.combine_of_subperm split
    · apply slots_map_subperm quorum.distinct
      intro slot member
      rw [counted]
      exact quorum.inSet slot member
    · rw [List.length_map]
      exact quorum.enough
    · simp only [GuardianSetConfig.validate, Bool.and_eq_true, decide_eq_true_eq] at valid
      omega
  have unwrapped : unwrapVdkUnderRwk current.wrappedRecovery current.wrappedRecovery.context
      draw.rwk = some vdk := by
    rw [wrapped]
    exact (Sealed.open?_eq_some_iff _ _ _ _).mpr ⟨rfl, rfl, rfl⟩
  have enough : ¬ (step.slots.map fun slot => shares.getD slot ⟨0⟩).length <
      circle.config.threshold := by
    rw [List.length_map]
    exact Nat.not_lt.mpr quorum.enough
  simp only [GuardianCircle.recover, opened, Option.bind_eq_bind, Option.bind_some,
    recoverVdkFromShares, driverInput, enough, if_false, combined, unwrapped, onboarded]
  rfl

/-- Whatever the shares, a recovery that returns a key returns the wrapped one. -/
theorem GuardianCircle.Holds.recovered_key (held : circle.Holds scheme vdk current)
    {shares : List Share} {vaultId : VaultId} {config : GuardianSetConfig}
    {pubs : List X25519Pub} {epoch : Nat} {draw : EscrowDraw}
    {result : VdkKey × OnboardingArtifacts}
    (recovered : recoverVdkFromShares scheme (driverInput current.wrappedRecovery shares vaultId
      config pubs epoch draw) = some result) : result.1 = vdk := by
  obtain ⟨-, sealing, -, -, -, wrapped, -⟩ := held
  unfold recoverVdkFromShares at recovered
  split at recovered
  · cases recovered
  · simp only [bind, Option.bind_eq_some_iff, pure, Option.some.injEq] at recovered
    obtain ⟨rwk, -, key, unwrapped, reSplit, -, rfl⟩ := recovered
    obtain ⟨-, -, same⟩ := (Sealed.open?_eq_some_iff _ _ _ _).mp unwrapped
    rw [← same]
    exact congrArg Sealed.msg wrapped

/-- A box of a generation carries its epoch, and opens at no other. -/
theorem GuardianCircle.Holds.opens_only_there (held : circle.Holds scheme vdk current)
    {assignment : EscrowAssignment} (listed : assignment ∈ current.assignments) {epoch : Nat}
    (fits : epoch < 2 ^ 64) (different : current.epoch ≠ epoch) (secret : X25519Secret)
    (vaultId : VaultId) :
    openSealedShareAt assignment.sealedShare secret vaultId (toEscrowBytes epoch) = none := by
  obtain ⟨currentFits, draw, shares, -, -, -, boxes⟩ := held
  rw [boxes, sealAssignments] at listed
  obtain ⟨entry, -, rfl⟩ := List.mem_map.mp listed
  rw [Option.eq_none_iff_forall_ne_some]
  intro opened same
  exact different ((openSealedShareAt_eq_some_iff currentFits fits).mp same).2.2.1

/-- Share by share, a generation is sealed to the guardians in their order. -/
theorem GuardianCircle.Holds.assigned (held : circle.Holds scheme vdk current) :
    current.assignments.map EscrowAssignment.index = List.range circle.guardians.length ∧
      current.assignments.map EscrowAssignment.guardianPub = circle.pubs ∧
      current.assignments.map (fun assignment => assignment.sealedShare.recipient) =
        circle.pubs := by
  obtain ⟨-, draw, shares, -, counted, -, boxes⟩ := held
  have named : circle.pubs.length = shares.length := by
    rw [GuardianCircle.pubs, List.length_map, counted]
  have pubs : ((shares.zip circle.pubs).zipIdx.map fun entry => entry.1.2) = circle.pubs := by
    calc (shares.zip circle.pubs).zipIdx.map (fun entry => entry.1.2)
        = ((shares.zip circle.pubs).zipIdx.map Prod.fst).map Prod.snd := by
          rw [List.map_map]
          rfl
      _ = circle.pubs := by
          rw [List.zipIdx_map_fst, List.map_snd_zip named.le]
  rw [boxes]
  refine ⟨?_, ?_, ?_⟩
  · rw [sealAssignments_map_index, List.length_zip, named, Nat.min_self, counted,
      List.range_eq_range']
  · rw [sealAssignments, List.map_map]
    exact pubs
  · rw [sealAssignments, List.map_map]
    exact pubs

end

/-! ## Every generation -/

/-- What every generation of a chain has to satisfy. -/
structure GenerationLaws (circle : GuardianCircle) (scheme : ShareScheme) (vdk : VdkKey)
    (generations : List OnboardingArtifacts) : Prop where
  /-- Epochs count up by one, below `u64::MAX`. -/
  counts : ∀ (number : Nat) (current next : OnboardingArtifacts),
    generations[number]? = some current → generations[number + 1]? = some next →
    current.epoch < 2 ^ 64 - 1 →
      next.epoch = current.epoch + 1
  /-- Share `i` is sealed to guardian `i`. -/
  sealedTo : ∀ generation ∈ generations,
    generation.assignments.map EscrowAssignment.index = List.range circle.guardians.length ∧
      generation.assignments.map EscrowAssignment.guardianPub = circle.pubs ∧
      generation.assignments.map (fun assignment => assignment.sealedShare.recipient) =
        circle.pubs
  /-- A share opens at the epoch of no other generation. -/
  separate : ∀ (number other : Nat) (generation elsewhere : OnboardingArtifacts),
    generations[number]? = some generation → generations[other]? = some elsewhere →
    number ≠ other →
    generation.epoch < 2 ^ 64 - 1 ∨ elsewhere.epoch < 2 ^ 64 - 1 →
    ∀ assignment ∈ generation.assignments, ∀ secret vaultId,
      openSealedShareAt assignment.sealedShare secret vaultId (toEscrowBytes elsewhere.epoch) =
        none
  /-- No shares make the driver return another key. -/
  onlyKey : ∀ generation ∈ generations, ∀ shares vaultId config pubs epoch draw result,
    recoverVdkFromShares scheme (driverInput generation.wrappedRecovery shares vaultId config pubs
      epoch draw) = some result → result.1 = vdk

section

variable {circle : GuardianCircle} {scheme : ShareScheme} {vdk : VdkKey}

/-- Generations that hold the VDK at consecutive epochs satisfy the laws. -/
theorem GenerationLaws.of_holds {epoch : Nat} {generations : List OnboardingArtifacts}
    (held : ∀ number generation, generations[number]? = some generation →
      circle.Holds scheme vdk generation ∧ generation.epoch = min (epoch + number) (2 ^ 64 - 1)) :
    GenerationLaws circle scheme vdk generations := by
  have each : ∀ generation ∈ generations, circle.Holds scheme vdk generation := by
    intro generation listed
    obtain ⟨number, found⟩ := List.mem_iff_getElem?.mp listed
    exact (held number generation found).1
  constructor
  · intro number current next here there below
    rw [(held _ _ here).2] at below
    rw [(held _ _ here).2, (held _ _ there).2]
    omega
  · exact fun generation listed => (each generation listed).assigned
  · intro number other generation elsewhere here there different below assignment listed secret
      vaultId
    refine (held _ _ here).1.opens_only_there listed (held _ _ there).1.1 ?_ secret vaultId
    rw [(held _ _ here).2, (held _ _ there).2] at below ⊢
    omega
  · intro generation listed shares vaultId config pubs epoch draw result recovered
    exact (each generation listed).recovered_key recovered

theorem min_nextEpoch_add (epoch number : Nat) :
    min (nextEpoch epoch + number) (2 ^ 64 - 1) = min (epoch + (number + 1)) (2 ^ 64 - 1) := by
  unfold nextEpoch
  generalize 2 ^ 64 - 1 = top
  omega

/-- Recovery after recovery succeeds, returns the VDK and moves one epoch on. -/
theorem recoverAll_holds (splits : Splits scheme) (valid : circle.config.validate = true)
    (full : circle.guardians.length = circle.config.guardianCount) {steps : List RecoveryStep}
    (quorums : ∀ step ∈ steps, circle.Quorum step) {current : OnboardingArtifacts}
    (held : circle.Holds scheme vdk current) :
    ∃ recovered, circle.recoverAll scheme current steps = some recovered ∧
      recovered.length = steps.length ∧ (∀ result ∈ recovered, result.1 = vdk) ∧
      ∀ number generation, (current :: recovered.map Prod.snd)[number]? = some generation →
        circle.Holds scheme vdk generation ∧
          generation.epoch = min (current.epoch + number) (2 ^ 64 - 1) := by
  have firstEpoch : current.epoch = min (current.epoch + 0) (2 ^ 64 - 1) := by
    have := held.1
    omega
  induction steps generalizing current with
  | nil =>
      refine ⟨[], rfl, rfl, nofun, ?_⟩
      intro number generation found
      cases number with
      | zero =>
          obtain rfl := Option.some.inj found
          exact ⟨held, firstEpoch⟩
      | succ number => cases found
  | cons step steps ih =>
      rw [List.forall_mem_cons] at quorums
      obtain ⟨next, stepped, nextHeld, nextAt⟩ := held.recover splits valid full quorums.1
      have nextFirst : next.epoch = min (next.epoch + 0) (2 ^ 64 - 1) := by
        have := nextHeld.1
        omega
      obtain ⟨others, went, counted, keys, later⟩ := ih quorums.2 nextHeld nextFirst
      refine ⟨(vdk, next) :: others, ?_, ?_, ?_, ?_⟩
      · simp [GuardianCircle.recoverAll, stepped, went]
      · rw [List.length_cons, List.length_cons, counted]
      · rw [List.forall_mem_cons]
        exact ⟨rfl, keys⟩
      · intro number generation found
        cases number with
        | zero =>
            obtain rfl := Option.some.inj found
            exact ⟨held, firstEpoch⟩
        | succ number =>
            obtain ⟨holds, there⟩ := later number generation found
            refine ⟨holds, ?_⟩
            rw [there, nextAt, min_nextEpoch_add]

end

/-- Onboarding and every chain of recoveries by quorums succeed; every recovery returns the
VDK that was onboarded, and the generations satisfy their laws. -/
theorem recovery_generations {scheme : ShareScheme} (splits : Splits scheme)
    (circle : GuardianCircle) (valid : circle.config.validate = true)
    (full : circle.guardians.length = circle.config.guardianCount) (vdk : VdkKey) {epoch : Nat}
    (fits : epoch < 2 ^ 64) (draw : EscrowDraw) (steps : List RecoveryStep)
    (quorums : ∀ step ∈ steps, circle.Quorum step) :
    ∃ first recovered,
      onboardGuardianEscrow scheme vdk circle.vaultId circle.config circle.pubs epoch draw =
        some first ∧
      circle.recoverAll scheme first steps = some recovered ∧
      recovered.length = steps.length ∧ (∀ result ∈ recovered, result.1 = vdk) ∧
      first.epoch = epoch ∧
      GenerationLaws circle scheme vdk (first :: recovered.map Prod.snd) := by
  obtain ⟨first, onboarded, held, firstAt⟩ :=
    onboardGuardianEscrow_holds splits vdk valid full fits draw
  obtain ⟨recovered, went, counted, keys, later⟩ := recoverAll_holds splits valid full quorums held
  exact ⟨first, recovered, onboarded, went, counted, keys, firstAt, .of_holds later⟩

namespace GenerationsSample

/-- Two of three guardians. -/
def circle : GuardianCircle := ⟨⟨7⟩, ⟨2, 3⟩, [⟨21⟩, ⟨22⟩, ⟨23⟩]⟩

/-- The first two recover, then the last two, in the other order. -/
def steps : List RecoveryStep := [⟨[0, 1], ⟨⟨5⟩, 0⟩⟩, ⟨[2, 1], ⟨⟨6⟩, 0⟩⟩]

theorem splits : Splits countingScheme := by
  intro threshold count secret coins bounds
  simp only [checkBounds, Bool.and_eq_true, decide_eq_true_eq] at bounds
  have small : threshold < 256 ∧ count ≤ 256 := by omega
  exact ⟨_, if_pos small⟩

end GenerationsSample

theorem recovery_generations_twice :
    ∃ first recovered,
      onboardGuardianEscrow countingScheme ⟨50⟩ ⟨7⟩ ⟨2, 3⟩ [⟨21⟩, ⟨22⟩, ⟨23⟩] 0 ⟨⟨4⟩, 0⟩ =
        some first ∧
      GenerationsSample.circle.recoverAll countingScheme first GenerationsSample.steps =
        some recovered ∧
      recovered.length = 2 ∧ ∀ result ∈ recovered, result.1 = ⟨50⟩ := by
  have quorums : ∀ step ∈ GenerationsSample.steps, GenerationsSample.circle.Quorum step := by
    rw [GenerationsSample.steps, List.forall_mem_cons, List.forall_mem_singleton]
    exact ⟨⟨by decide, by decide, by decide⟩, ⟨by decide, by decide, by decide⟩⟩
  obtain ⟨first, recovered, onboarded, went, counted, keys, -, -⟩ :=
    recovery_generations GenerationsSample.splits GenerationsSample.circle (by decide) rfl ⟨50⟩
      (by decide : 0 < 2 ^ 64) ⟨⟨4⟩, 0⟩ GenerationsSample.steps quorums
  exact ⟨first, recovered, onboarded, went, counted, keys⟩

end Pangolin.Core
