import Pangolin.Runs.KeyInvariant

/-!
# Backups and the two epoch counters

A backup names the epoch of the VDK chain.  The guardians' shares are sealed to the
epoch of the escrow, which onboarding always sets to 0, rotation sets to the chain's
next epoch, and recovery sets to the epoch after one the host supplies.  The guardians
can open their shares exactly as long as the two counters meet: onboarding before the
first rotation, and recoveries whose supplied epoch leads to the chain's.
-/

namespace Pangolin

open Symbolic Crypto Store Pangolin.Core Transition

/-- Any `threshold` of the guardians named in a backup, each in a session of the device
that holds the named key, open their boxes at the backup's epoch, and what they get
recombines to the key that opens the backup to `vdk`. -/
def BackupRecovers (scheme : ShareScheme) (backup : BackupContents) (vdk : VdkKey) : Prop :=
  ∀ (slots : List Nat) (guardian : Nat → Vault), slots.Nodup →
    (∀ slot ∈ slots, ∃ active, (guardian slot).active = some active ∧
      backup.guardianPubs[slot]? = some active.deviceKey.sealing.publicKey) →
    backup.threshold ≤ slots.length →
    ∃ (share : Nat → Share) (rwk : RecoveryWrapKey),
      (∀ slot ∈ slots, ∃ box, backup.sealedShares[slot]? = some box ∧
        guardianOpenSealedShare (guardian slot) box backup.vaultId backup.epoch =
          .ok (share slot)) ∧
      scheme.combine (slots.map share) = some rwk ∧
      unwrapVdkUnderRwk backup.wrappedRecovery ⟨backup.vaultId, backup.wrapSchemaVersion⟩ rwk =
        some vdk

/-- The escrow tables hold one split of the file's current VDK, for the file's vault id
and its current epoch. -/
def HoldsCurrentSplit (scheme : ShareScheme) (keys : KeyTables) (tables : EscrowTables) : Prop :=
  ∃ (threshold : Nat) (draw : EscrowDraw) (shares : List Share) (pubs : List X25519Pub)
      (signers : List EvmAddress),
    0 < threshold ∧ scheme.split threshold pubs.length draw.rwk draw.coins = some shares ∧
    tables = EscrowGeneration.tables
      ⟨wrapVdkUnderRwk keys.vaultMeta.wrapped.msg draw.rwk (.new keys.vaultMeta.vaultId),
        threshold, pubs.length, readCurrentEpoch keys,
        guardianRecords (sealAssignments keys.vaultMeta.vaultId (readCurrentEpoch keys) shares
          pubs) signers⟩
      keys.vaultMeta.vaultId keys.vaultMeta.wrapped.msg

structure BackupInv (scheme : ShareScheme) (vault : Vault) : Prop where
  metaSynced : vault.vaultMeta = vault.disk.keys.vaultMeta
  session : ∀ active, vault.active = some active →
    active.vdk = vault.disk.keys.vaultMeta.wrapped.msg
  escrow : vault.disk.escrow.escrow = none ∨
    HoldsCurrentSplit scheme vault.disk.keys vault.disk.escrow

/-! ## From the invariant to the backup -/

/-- What a successful backup of a current split contains. -/
theorem createRecoveryBackup_of_split {scheme : ShareScheme} {vault : Vault}
    {active : ActiveState} {backup : BackupContents} (inv : BackupInv scheme vault)
    (session : vault.active = some active)
    (made : createRecoveryBackup vault = .ok (some backup)) :
    ∃ (draw : EscrowDraw) (shares : List Share) (pubs : List X25519Pub),
      0 < backup.threshold ∧
      scheme.split backup.threshold pubs.length draw.rwk draw.coins = some shares ∧
      backup.wrappedRecovery = wrapVdkUnderRwk active.vdk draw.rwk (.new backup.vaultId) ∧
      backup.wrapSchemaVersion = 0 ∧
      backup.guardianPubs = (shares.zip pubs).map Prod.snd ∧
      backup.sealedShares = (shares.zip pubs).map fun entry =>
        sealShare entry.1 entry.2 backup.vaultId backup.epoch := by
  have held := inv.session active session
  unfold createRecoveryBackup at made
  simp only [session, Fallible.bind_eq_ok_iff] at made
  obtain ⟨stored, read, equal⟩ := made
  obtain ⟨escrow, rfl, rfl⟩ := Option.map_eq_some_iff.mp (Except.ok.inj equal)
  cases inv.escrow with
  | inl absent => simp [readRecoveryEscrow, absent] at read
  | inr split =>
      obtain ⟨threshold, draw, shares, pubs, signers, positive, splits, tables⟩ := split
      rw [inv.metaSynced, held, tables] at read
      have signed : ∀ record ∈ guardianRecords (sealAssignments
          vault.disk.keys.vaultMeta.vaultId (readCurrentEpoch vault.disk.keys) shares pubs) signers,
            record.signer ≠ ⟨0⟩ := by
        intro record member
        exact signer_ne_zero_of_read read (List.mem_map_of_mem member)
      have ordered : ((guardianRecords (sealAssignments vault.disk.keys.vaultMeta.vaultId
          (readCurrentEpoch vault.disk.keys) shares pubs) signers).map
            GuardianRecord.index).Pairwise (· ≤ ·) := by
        rw [guardianRecords_map_index, sealAssignments_map_index]
        exact List.pairwise_le_range'
      rw [readRecoveryEscrow_tables ordered signed] at read
      obtain rfl := Option.some.inj (Except.ok.inj read)
      refine ⟨draw, shares, pubs, positive, splits, ?_, rfl, ?_, ?_⟩
      · rw [inv.metaSynced, held]
      · rw [List.map_map]
        exact guardianRecords_map_guardianPub _ _ shares pubs signers
      · simp only [List.map_map, inv.metaSynced]
        exact guardianRecords_map_sealedShare _ _ shares pubs signers

/-- A backup of a current split recovers the session's VDK. -/
theorem BackupInv.recovers {scheme : ShareScheme} {vault : Vault} {active : ActiveState}
    {backup : BackupContents} (inv : BackupInv scheme vault)
    (session : vault.active = some active)
    (made : createRecoveryBackup vault = .ok (some backup)) :
    BackupRecovers scheme backup active.vdk := by
  obtain ⟨draw, shares, pubs, positive, splits, wrapped, schema, guardianPubs, sealedShares⟩ :=
    createRecoveryBackup_of_split inv session made
  intro slots guardian distinct holders enough
  have named : ∀ slot ∈ slots, ∃ share pub, (shares.zip pubs)[slot]? = some (share, pub) ∧
      ∃ holder, (guardian slot).active = some holder ∧
        holder.deviceKey.sealing.publicKey = pub := by
    intro slot member
    obtain ⟨holder, holderSession, holderPub⟩ := holders slot member
    rw [guardianPubs, List.getElem?_map] at holderPub
    obtain ⟨⟨share, pub⟩, found, samePub⟩ := Option.map_eq_some_iff.mp holderPub
    exact ⟨share, pub, found, holder, holderSession, samePub.symm⟩
  refine ⟨fun slot => shares.getD slot ⟨0⟩, draw.rwk, ?_, ?_, ?_⟩
  · intro slot member
    obtain ⟨share, pub, found, holder, holderSession, holderPub⟩ := named slot member
    obtain ⟨shareAt, -⟩ := List.getElem?_zip_eq_some.mp found
    refine ⟨sealShare share pub backup.vaultId backup.epoch, ?_, ?_⟩
    · rw [sealedShares, List.getElem?_map, found]
      rfl
    · have opened := (openSealedShare_sealShare_eq_some_iff share share pub backup.vaultId
        backup.vaultId backup.epoch backup.epoch holder.deviceKey.sealing).mpr
          ⟨holderPub.symm, rfl, rfl, rfl⟩
      simp [guardianOpenSealedShare, holderSession, opened, shareAt]
  · apply scheme.combine_of_subperm splits
    · apply slots_map_subperm distinct
      intro slot member
      obtain ⟨share, pub, found, -⟩ := named slot member
      obtain ⟨shareAt, -⟩ := List.getElem?_zip_eq_some.mp found
      exact (List.getElem?_eq_some_iff.mp shareAt).1
    · rw [List.length_map]
      exact enough
    · exact positive
  · rw [wrapped, schema]
    exact (Sealed.open?_eq_some_iff _ _ _ _).mpr ⟨rfl, rfl, rfl⟩

/-! ## Steps -/

theorem HoldsCurrentSplit.congr {scheme : ShareScheme} {keys keys' : KeyTables}
    {tables : EscrowTables} (held : HoldsCurrentSplit scheme keys tables)
    (vaultMeta : keys'.vaultMeta = keys.vaultMeta)
    (vdkChainState : keys'.vdkChainState = keys.vdkChainState) :
    HoldsCurrentSplit scheme keys' tables := by
  unfold HoldsCurrentSplit readCurrentEpoch at held ⊢
  rw [vaultMeta, vdkChainState]
  exact held

/-- A split of the current VDK by a guardian set that passed the bounds. -/
theorem HoldsCurrentSplit.of_tables {scheme : ShareScheme} {keys : KeyTables}
    {threshold : Nat} {draw : EscrowDraw} {shares : List Share} {pubs : List X25519Pub}
    {signers : List EvmAddress} {vaultId : VaultId} {vdk : VdkKey} {epoch : Nat}
    (positive : 0 < threshold)
    (splits : scheme.split threshold pubs.length draw.rwk draw.coins = some shares)
    (sameVault : keys.vaultMeta.vaultId = vaultId) (sameVdk : keys.vaultMeta.wrapped.msg = vdk)
    (sameEpoch : readCurrentEpoch keys = epoch) :
    HoldsCurrentSplit scheme keys (EscrowGeneration.tables
      ⟨wrapVdkUnderRwk vdk draw.rwk (.new vaultId), threshold, pubs.length, epoch,
        guardianRecords (sealAssignments vaultId epoch shares pubs) signers⟩ vaultId vdk) := by
  subst sameVault sameVdk sameEpoch
  exact ⟨threshold, draw, shares, pubs, signers, positive, splits, rfl⟩

theorem BackupInv.create (scheme : ShareScheme) (password : Password) (draw : CreateDraw) :
    BackupInv scheme (create password draw) where
  metaSynced := rfl
  session := by simp [Store.create]
  escrow := .inl rfl

/-- The ordinary calls other than onboarding leave the escrow alone. -/
theorem ordinary_escrow (scheme : ShareScheme) (hash : CanonicalHash) (vault : Vault) {op : Op}
    (ordinary : op.Ordinary)
    (notOnboarding : ∀ threshold pubs signers draw,
      op ≠ .onboardGuardians threshold pubs signers draw) :
    (step scheme hash vault op).disk.escrow = vault.disk.escrow := by
  have ofWrite : ∀ {vault' : Vault} {drawn : RevisionId}, WriteCall vault vault' drawn →
      vault'.disk.escrow = vault.disk.escrow := by
    intro vault' drawn call
    obtain ⟨log, written⟩ := call.disk
    rw [written]
  cases op with
  | unlock input =>
      obtain ⟨keys, written⟩ := unlock_disk vault input
      rw [step, written]
  | lock => rfl
  | reopen placeholder sessionIdle => rfl
  | accountAdd validated accountId draw =>
      exact ofWrite (accountAdd_writes vault validated accountId draw)
  | accountUpdate accountId patch draw =>
      exact ofWrite (accountUpdate_writes vault accountId patch draw)
  | deleteAccount accountId draw => exact ofWrite (deleteAccount_writes vault accountId draw)
  | resolveFork accountId keep draw => exact ofWrite (resolveFork_writes vault accountId keep draw)
  | stashPendingMerge merge now => simp [step, stashPendingMerge]
  | onboardGuardians threshold pubs signers draw =>
      exact absurd rfl (notOnboarding threshold pubs signers draw)
  | persistRecoveryRecipient target attemptNonce secret pub nowUnix =>
      obtain ⟨recipients, result⟩ :=
        persistRecoveryRecipient_frame vault target attemptNonce secret pub nowUnix
      rw [step, result]
  | clearRecoveryRecipient target => rfl
  | upsertDirectory entry => rfl
  | queueRotationPending pending => rfl
  | _ => exact absurd ordinary id

/-- An ordinary call that leaves the escrow alone keeps the invariant. -/
theorem BackupInv.effect {scheme : ShareScheme} {vault vault' : Vault}
    (inv : BackupInv scheme vault) (effect : Effect vault vault')
    (escrow : vault'.disk.escrow = vault.disk.escrow) : BackupInv scheme vault' := by
  cases effect with
  | rest vaultMeta keys accounts revisions active =>
      constructor
      · rw [keys]
        exact vaultMeta.elim (fun same => same.trans inv.metaSynced) id
      · intro session opened
        rw [keys]
        cases active with
        | inl same => exact inv.session session (same ▸ opened)
        | inr dropped =>
            rw [dropped] at opened
            cases opened
      · rw [keys, escrow]
        exact inv.escrow
  | wrote active row payload wrote =>
      have keys : vault'.disk.keys = vault.disk.keys := by rw [wrote.disk]
      constructor
      · rw [wrote.vaultMeta, keys]
        exact inv.metaSynced
      · intro session opened
        obtain ⟨active', session', sameVdk, -⟩ := wrote.active'
        obtain rfl := Option.some.inj (opened.symm.trans session')
        rw [keys, sameVdk]
        exact inv.session active wrote.session
      · rw [keys, escrow]
        exact inv.escrow
  | unlocked input vdk chain data deviceKey keys found =>
      obtain ⟨-, -, -, -, sameVdk, -⟩ := openKeys_eq_ok_iff.mp found.opened
      obtain ⟨sameMeta, -, sameState, -, -, -⟩ := loadOrRegisterDevice_eq_ok found.device
      obtain rfl := found.result
      constructor
      · exact inv.metaSynced.trans sameMeta.symm
      · intro session opened
        obtain rfl := Option.some.inj opened
        rw [sameMeta, ← inv.metaSynced]
        exact sameVdk.symm
      · exact inv.escrow.imp id fun held => held.congr sameMeta sameState

/-- Onboarding at epoch 0 while that is the chain's epoch. -/
theorem BackupInv.onboarded {scheme : ShareScheme} {vault : Vault} (inv : BackupInv scheme vault)
    (genesis : readCurrentEpoch vault.disk.keys = 0) (threshold : Nat) (pubs : List X25519Pub)
    (signers : List EvmAddress) (draw : EscrowDraw) :
    BackupInv scheme (onboardGuardians scheme vault threshold pubs signers draw).1 := by
  rcases onboardGuardians_cases scheme vault threshold pubs signers draw with
    unchanged | ⟨active, onboarding, escrow, session, onboarded, written, result⟩
  · rw [unchanged]
    exact inv
  · rw [result]
    obtain ⟨shares, bounds, splits, wrapped, assignments⟩ := onboardEscrow_eq_some scheme onboarded
    have numbered : ((EscrowGeneration.ofOnboarding onboarding threshold pubs.length 0
        signers).guardians.map GuardianRecord.index).Nodup := by
      simp only [EscrowGeneration.ofOnboarding, guardianRecords_map_index, assignments,
        sealAssignments_map_index]
      exact List.nodup_range'
    obtain ⟨-, rfl⟩ := (writeRecoveryEscrow_eq_ok_iff numbered).mp written
    refine ⟨inv.metaSynced, inv.session, .inr ?_⟩
    simp only [EscrowGeneration.ofOnboarding, wrapped, assignments]
    apply HoldsCurrentSplit.of_tables _ splits
    · rw [inv.metaSynced]
    · exact (inv.session active session).symm
    · exact genesis
    · simp only [checkBounds, Bool.and_eq_true, decide_eq_true_eq] at bounds
      omega

/-- The generation a validated re-split stores is a split of its VDK. -/
theorem HoldsCurrentSplit.of_reSplit {scheme : ShareScheme} {keys : KeyTables} {vdk : VdkKey}
    {vaultId : VaultId} {config : GuardianSetConfig} {pubs : List X25519Pub} {epoch : Nat}
    {draw : EscrowDraw} {reSplit : OnboardingArtifacts} {signers : List EvmAddress}
    {escrow : EscrowTables}
    (onboarded : onboardGuardianEscrow scheme vdk vaultId config pubs epoch draw = some reSplit)
    (written : writeRecoveryEscrow vaultId vdk (reSplit.generation signers) = .ok escrow)
    (sameVault : keys.vaultMeta.vaultId = vaultId) (sameVdk : keys.vaultMeta.wrapped.msg = vdk)
    (sameEpoch : readCurrentEpoch keys = epoch) : HoldsCurrentSplit scheme keys escrow := by
  have numbered := (generation_numbered onboarded signers).imp ne_of_lt
  obtain ⟨-, rfl⟩ := (writeRecoveryEscrow_eq_ok_iff numbered).mp written
  obtain ⟨shares, valid, pubCount, splits, rfl⟩ := onboardGuardianEscrow_eq_some onboarded
  have positive : 0 < config.threshold := by
    simp only [GuardianSetConfig.validate, Bool.and_eq_true, decide_eq_true_eq] at valid
    omega
  rw [← pubCount] at splits
  simp only [OnboardingArtifacts.generation]
  rw [← pubCount]
  apply HoldsCurrentSplit.of_tables positive splits sameVault sameVdk sameEpoch

/-- A rotation re-splits the new VDK at the epoch it moves the chain to. -/
theorem BackupInv.rotated {scheme : ShareScheme} {vault : Vault} (inv : BackupInv scheme vault)
    (password : Password) (onchain : List EvmAddress) (draw : RotationDraw) :
    BackupInv scheme (completeRotation scheme vault password onchain draw).1 := by
  cases rotated : completeRotation scheme vault password onchain draw with
  | mk vault' result =>
      cases result with
      | error error =>
          obtain ⟨disk, vaultMeta, active⟩ := completeRotation_error rotated
          constructor
          · rw [vaultMeta, disk]
            exact inv.metaSynced
          · intro session opened
            rw [disk]
            cases active with
            | inl same => exact inv.session session (same ▸ opened)
            | inr dropped =>
                rw [dropped] at opened
                cases opened
          · rw [disk]
            exact inv.escrow
      | ok outcome =>
          obtain ⟨artifacts, commit, committed, planned, done, rfl, -⟩ :=
            completeRotation_eq_ok_iff.mp rotated
          obtain ⟨params, reSplit, read, -, onboarded, -, rfl⟩ := planRotation_eq_ok planned
          obtain ⟨active, disk, session, transacted, rfl⟩ :=
            commitVdkRotationFromActive_eq_ok_iff.mp done
          obtain ⟨-, -, escrow, written, rfl⟩ := rotationTx_eq_ok_iff.mp transacted
          constructor
          · rfl
          · intro opened absent
            cases absent
          · apply Or.inr
            apply HoldsCurrentSplit.of_reSplit onboarded written
            · simp [lockedWith, rotatedKeys, freshMeta]
            · simp [lockedWith, rotatedKeys, freshMeta, VdkKey.wrap]
            · simp [lockedWith]

/-- A recovery for this vault whose next epoch is the chain's. -/
theorem BackupInv.recovered {scheme : ShareScheme} {vault : Vault} (inv : BackupInv scheme vault)
    {input : RecoveryInput} (sameVault : input.vaultId = vault.vaultMeta.vaultId)
    (meets : nextEpoch input.currentEpoch = readCurrentEpoch vault.disk.keys) :
    BackupInv scheme (recoverFromShares scheme vault input).1 := by
  cases recovered : recoverFromShares scheme vault input with
  | mk vault' result =>
      cases result with
      | error error =>
          rw [recoverFromShares_error recovered]
          exact inv
      | ok epoch =>
          obtain ⟨reSplit, escrow, -, -, onboarded, written, rfl⟩ :=
            recoverFromShares_eq_ok recovered
          constructor
          · rfl
          · intro opened absent
            cases absent
          · apply Or.inr
            rw [sameVault] at onboarded
            apply HoldsCurrentSplit.of_reSplit onboarded written
            · rfl
            · rfl
            · exact meets.symm

/-! ## Every run -/

/-- Calls that keep the two counters together: onboarding before the first rotation, and
recoveries of this vault that lead to the chain's epoch.  Rotations always do. -/
def BackupSafe (vault : Vault) : Op → Prop
  | .onboardGuardians _ _ _ _ => readCurrentEpoch vault.disk.keys = 0
  | .completeRotation _ _ _ => True
  | .recoverFromShares input =>
      input.vaultId = vault.vaultMeta.vaultId ∧
        nextEpoch input.currentEpoch = readCurrentEpoch vault.disk.keys
  | op => op.Ordinary

theorem BackupInv.step {scheme : ShareScheme} {vault : Vault} {op : Op} (hash : CanonicalHash)
    (inv : BackupInv scheme vault) (safe : BackupSafe vault op) :
    BackupInv scheme (step scheme hash vault op) := by
  -- everything but the three escrow writers is ordinary and leaves the escrow alone
  have rest : op.Ordinary → (∀ threshold pubs signers draw,
      op ≠ .onboardGuardians threshold pubs signers draw) →
        BackupInv scheme (Pangolin.step scheme hash vault op) := by
    intro ordinary notOnboarding
    apply inv.effect
    · exact ordinary_effect scheme hash vault ordinary
    · exact ordinary_escrow scheme hash vault ordinary notOnboarding
  cases op with
  | onboardGuardians threshold pubs signers draw =>
      exact inv.onboarded safe threshold pubs signers draw
  | completeRotation password onchain draw => exact inv.rotated password onchain draw
  | recoverFromShares input => exact inv.recovered safe.1 safe.2
  | _ =>
      apply rest safe
      intro threshold pubs signers draw same
      cases same

/-- Along every run from a new vault whose onboardings come before the first rotation and
whose recoveries lead to the chain's epoch, every backup recovers the VDK of the session
that makes it. -/
theorem backups_recover (scheme : ShareScheme) (hash : CanonicalHash) (password : Password)
    (created : CreateDraw) {vault : Vault} {active : ActiveState} {backup : BackupContents}
    (run : Reaches (step scheme hash) BackupSafe (create password created) vault)
    (session : vault.active = some active)
    (made : createRecoveryBackup vault = .ok (some backup)) :
    BackupRecovers scheme backup active.vdk := by
  have inv : BackupInv scheme vault := by
    apply run.invariant (BackupInv scheme)
    · intro state op held safe
      exact held.step hash safe
    · exact BackupInv.create scheme password created
  exact inv.recovers session made

/-- The session of the guardian whose sealing key is `21 + slot`. -/
def guardianVault (slot : Nat) : Vault :=
  (unlock Sample.vault ⟨true, ⟨[1]⟩, ⟨10, ⟨11⟩, ⟨12⟩, ⟨21 + slot⟩, ⟨14⟩⟩, 0⟩).1

/-- Onboarding, a rotation, and the backup made after the next unlock. -/
def rotatedOnce : Vault :=
  Sample.run Sample.vault [Sample.unlock ⟨[1]⟩, Sample.onboard, Sample.directory,
    Sample.rotate 8 9 ⟨[2]⟩, Sample.unlock ⟨[2]⟩]

/-- The backup of a vault that names guardians 21, 22 and 23, whose RWK is `rwk` and whose
shares are sealed at `sealedAt`. -/
def sampleBackup (vdk : VdkKey) (rwk sealedAt epoch : Nat) : BackupContents :=
  { wrappedRecovery := ⟨⟨rwk⟩, .new ⟨7⟩, vdk⟩
    wrapSchemaVersion := 0
    vaultId := ⟨7⟩
    epoch
    threshold := 2
    guardianCount := 3
    guardianPubs := [⟨21⟩, ⟨22⟩, ⟨23⟩]
    sealedShares := (List.range 3).map fun slot =>
      sealShare ⟨(rwk * 256 + slot) * 256 + 2⟩ ⟨21 + slot⟩ ⟨7⟩ sealedAt
    guardianEvmAddrs := [⟨31⟩, ⟨32⟩, ⟨33⟩] }

/-- The backup made after a rotation recovers the new VDK. -/
theorem backups_recover_after_rotation :
    BackupRecovers countingScheme (sampleBackup ⟨8⟩ 6 1 1) ⟨8⟩ := by
  have run : Reaches (step countingScheme Sample.hash) BackupSafe
      (create ⟨[1]⟩ ⟨⟨7⟩, ⟨1⟩, ⟨2⟩, ⟨3⟩, 0⟩) rotatedOnce := by
    apply Reaches.foldl
    exact ⟨trivial, rfl, trivial, trivial, trivial, trivial⟩
  have session : rotatedOnce.active = some ⟨⟨8⟩, ⟨[(0, ⟨2⟩)], 1⟩, [], Sample.device, []⟩ := by
    decide
  exact backups_recover countingScheme Sample.hash ⟨[1]⟩ _ run session (by decide)

/-- After a rotation the user changes the guardians.  The backup names epoch 1, the shares
are sealed at epoch 0, and no guardian can open one. -/
theorem reonboarded_backup_unusable :
    (Sample.run rotatedOnce [Sample.onboard]).active.map ActiveState.vdk = some ⟨8⟩ ∧
      createRecoveryBackup (Sample.run rotatedOnce [Sample.onboard]) =
        .ok (some (sampleBackup ⟨8⟩ 5 0 1)) ∧
      ¬ BackupRecovers countingScheme (sampleBackup ⟨8⟩ 5 0 1) ⟨8⟩ := by
  refine ⟨by decide, by decide, ?_⟩
  intro recovers
  obtain ⟨share, -, opened, -⟩ := recovers [0, 1] guardianVault (by decide)
    (by
      intro slot member
      refine ⟨⟨⟨2⟩, ⟨[], 0⟩, [], ⟨10, ⟨11⟩, ⟨12⟩, ⟨21 + slot⟩, ⟨14⟩⟩, []⟩, ?_, ?_⟩
      · rcases (by simpa using member : slot = 0 ∨ slot = 1) with rfl | rfl
        · decide
        · decide
      · rcases (by simpa using member : slot = 0 ∨ slot = 1) with rfl | rfl
        · rfl
        · rfl)
    (by decide)
  obtain ⟨box, found, openedBox⟩ := opened 0 (by decide)
  have refused : guardianOpenSealedShare (guardianVault 0)
      (sealShare ⟨(5 * 256 + 0) * 256 + 2⟩ ⟨21⟩ ⟨7⟩ 0) ⟨7⟩ 1 = .error .authenticationFailed := by
    decide
  obtain rfl := Option.some.inj found
  cases refused.symm.trans openedBox

end Pangolin
