import Pangolin.Store.Rekey

/-!
# Settings in the meta row

Three columns of the meta row hold choices that are not key material: the idle duration,
the sync mode and the revision log the vault is bound to.  Each has its own read and
write.  The calls that re-key a vault write the row through `meta::write`, which does not
name these columns.
-/

namespace Pangolin.Store

open Crypto

/-! ## The idle duration -/

/-- `to_meta_secs`; `-1` stands for "until device lock". -/
def SessionDuration.toMetaSecs : SessionDuration → Int
  | .min5 => 300
  | .min15 => 900
  | .min30 => 1800
  | .hour1 => 3600
  | .hour4 => 14400
  | .untilDeviceLock => -1

/-- `from_meta_secs`: an absent or unknown value is the default. -/
def SessionDuration.fromMetaSecs : Option Int → SessionDuration
  | some (-1) => .untilDeviceLock
  | some 300 => .min5
  | some 900 => .min15
  | some 1800 => .min30
  | some 3600 => .hour1
  | some 14400 => .hour4
  | _ => .min15

@[simp] theorem fromMetaSecs_toMetaSecs (duration : SessionDuration) :
    SessionDuration.fromMetaSecs (some duration.toMetaSecs) = duration := by
  cases duration <;> rfl

/-! ## The sync mode -/

inductive SyncModePreference where
  | auto
  | alwaysSlow
  | alwaysFast
  deriving Repr, DecidableEq

/-- `from_meta_str`; an unknown text is refused. -/
def SyncModePreference.fromMetaStr : Option String → Except StoreError SyncModePreference
  | none => .ok .auto
  | some "always_slow" => .ok .alwaysSlow
  | some "always_fast" => .ok .alwaysFast
  | some other =>
      .error (.corrupted ("meta.sync_mode_preference contains unrecognized value " ++
        other.quote ++ "; expected NULL, 'always_slow', or 'always_fast'"))

/-! ## The revision log -/

inductive RevisionLogVersion where
  | v1
  | v2
  deriving Repr, DecidableEq

/-- `from_meta_int`; an unknown number is refused. -/
def RevisionLogVersion.fromMetaInt : Option Int → Except StoreError RevisionLogVersion
  | none => .ok .v1
  | some 1 => .ok .v1
  | some 2 => .ok .v2
  | some other =>
      .error (.corrupted ("meta.revisionlog_version contains unrecognized value " ++
        toString other ++ "; expected NULL, 1 (V1), or 2 (V2)"))

/-! ## What the vault reads back -/

/-- `Vault::open`. -/
def openFile (disk : Disk) (placeholder : DeviceId) : Vault :=
  openVault disk placeholder (.fromMetaSecs disk.keys.settings.sessionIdleSecs)

/-- `sync_mode_preference`. -/
def syncModePreference (vault : Vault) : Except StoreError SyncModePreference :=
  SyncModePreference.fromMetaStr vault.disk.keys.settings.syncModePreference

/-- `revisionlog_version`. -/
def revisionlogVersion (vault : Vault) : Except StoreError RevisionLogVersion :=
  RevisionLogVersion.fromMetaInt vault.disk.keys.settings.revisionlogVersion

/-- Every setting reads as in a file whose columns are `NULL`. -/
def MetaSettings.ReadsUnset (settings : MetaSettings) : Prop :=
  SessionDuration.fromMetaSecs settings.sessionIdleSecs = .min15 ∧
    settings.syncModePreference = none ∧
    (settings.revisionlogVersion = none ∨ settings.revisionlogVersion = some 1)

theorem fromMetaStr_eq_auto_iff {stored : Option String} :
    SyncModePreference.fromMetaStr stored = .ok .auto ↔ stored = none := by
  constructor
  · intro decoded
    unfold SyncModePreference.fromMetaStr at decoded
    split at decoded
    · rfl
    all_goals cases decoded
  · rintro rfl
    rfl

theorem fromMetaInt_eq_v1_iff {stored : Option Int} :
    RevisionLogVersion.fromMetaInt stored = .ok .v1 ↔ stored = none ∨ stored = some 1 := by
  constructor
  · intro decoded
    unfold RevisionLogVersion.fromMetaInt at decoded
    split at decoded
    · exact .inl rfl
    · exact .inr rfl
    all_goals cases decoded
  · rintro (rfl | rfl)
    · rfl
    · rfl

/-! ## Re-keying -/

/-- The calls that re-key the vault in place, where they succeed. -/
inductive Rekeys (vault vault' : Vault) : Prop where
  | recoverWithNewPassword (recovered : VdkKey) (password : Password) (salt : KdfSalt) :
      recoverWithNewPassword vault recovered password salt = (vault', .ok ()) →
      Rekeys vault vault'
  | commitRecoveryRekey (recovered : VdkKey) (password : Password) (salt : KdfSalt)
      (reSplit : EscrowGeneration) :
      commitRecoveryRekey vault recovered password salt reSplit = (vault', .ok ()) →
      Rekeys vault vault'
  | commitVdkRotation (oldVdk : VdkKey) (localDevice : DeviceKey) (commit : RotationCommit) :
      commitVdkRotation vault oldVdk localDevice commit = (vault', .ok ()) →
      Rekeys vault vault'

/-- Only the salt, the KDF parameters and the wrapped VDK of the meta row differ: the
reopened file has the identity and reads the settings it had. -/
def KeepsSettings (vault vault' : Vault) : Prop :=
  vault'.disk.keys.vaultMeta.vaultId = vault.vaultMeta.vaultId ∧
    vault'.disk.keys.vaultMeta.createdAt = vault.vaultMeta.createdAt ∧
    ∀ placeholder,
      (openFile vault'.disk placeholder).sessionIdle =
          (openFile vault.disk placeholder).sessionIdle ∧
        syncModePreference (openFile vault'.disk placeholder) =
          syncModePreference (openFile vault.disk placeholder) ∧
        revisionlogVersion (openFile vault'.disk placeholder) =
          revisionlogVersion (openFile vault.disk placeholder)

/-- Every re-key writes a row of the same vault and leaves the settings `NULL`. -/
theorem Rekeys.effect {vault vault' : Vault} (rekeyed : Rekeys vault vault') :
    vault'.disk.keys.vaultMeta.vaultId = vault.vaultMeta.vaultId ∧
      vault'.disk.keys.vaultMeta.createdAt = vault.vaultMeta.createdAt ∧
      vault'.disk.keys.settings = .unset := by
  cases rekeyed with
  | recoverWithNewPassword recovered password salt done =>
      obtain rfl := (Prod.mk.inj done).1
      exact ⟨rfl, rfl, rfl⟩
  | commitRecoveryRekey recovered password salt reSplit done =>
      rcases commitRecoveryRekey_cases vault recovered password salt reSplit with
        ⟨error, failed⟩ | ⟨escrow, -, committed⟩
      · rw [failed] at done
        cases (Prod.mk.inj done).2
      · rw [committed] at done
        obtain rfl := (Prod.mk.inj done).1
        exact ⟨rfl, rfl, rfl⟩
  | commitVdkRotation oldVdk localDevice commit done =>
      unfold Store.commitVdkRotation atomically at done
      cases committed : rotationTx vault.disk vault.vaultMeta oldVdk localDevice commit with
      | error error =>
          rw [committed] at done
          cases (Prod.mk.inj done).2
      | ok disk =>
          rw [committed] at done
          obtain rfl := (Prod.mk.inj done).1
          obtain ⟨-, -, escrow, -, rfl⟩ := rotationTx_eq_ok_iff.mp committed
          simp only [lockedWith, rotatedKeys, resealDeviceKey]
          split
          · exact ⟨rfl, rfl, rfl⟩
          · exact ⟨rfl, rfl, rfl⟩

/-- A re-key keeps the settings exactly when there are none to lose. -/
theorem rekey_keeps_settings_iff {vault vault' : Vault} (rekeyed : Rekeys vault vault') :
    KeepsSettings vault vault' ↔ vault.disk.keys.settings.ReadsUnset := by
  obtain ⟨sameId, sameTime, cleared⟩ := rekeyed.effect
  have after : ∀ placeholder, syncModePreference (openFile vault'.disk placeholder) = .ok .auto ∧
      revisionlogVersion (openFile vault'.disk placeholder) = .ok .v1 := by
    intro placeholder
    simp only [syncModePreference, revisionlogVersion, openFile, openVault, cleared]
    exact ⟨rfl, rfl⟩
  constructor
  · rintro ⟨-, -, same⟩
    obtain ⟨idle, mode, version⟩ := same ⟨0⟩
    refine ⟨?_, ?_, ?_⟩
    · simp only [openFile, openVault, cleared] at idle
      exact idle.symm
    · exact fromMetaStr_eq_auto_iff.mp (mode.symm.trans (after ⟨0⟩).1)
    · exact fromMetaInt_eq_v1_iff.mp (version.symm.trans (after ⟨0⟩).2)
  · rintro ⟨idle, mode, version⟩
    refine ⟨sameId, sameTime, ?_⟩
    intro placeholder
    refine ⟨?_, ?_, ?_⟩
    · simp only [openFile, openVault, cleared]
      exact idle.symm
    · rw [(after placeholder).1]
      exact (fromMetaStr_eq_auto_iff.mpr mode).symm
    · rw [(after placeholder).2]
      exact (fromMetaInt_eq_v1_iff.mpr version).symm

namespace SettingsSample

/-- A new vault, bound to the first revision log. -/
def fresh : Vault := create ⟨[1]⟩ ⟨⟨7⟩, ⟨1⟩, ⟨2⟩, ⟨3⟩, 0⟩

/-- The same vault with a five-minute session, fast sync and the second revision log. -/
def chosen : Vault :=
  { fresh with
    sessionIdle := .min5
    disk := { fresh.disk with
      keys := { fresh.disk.keys with settings := ⟨some 300, some "always_fast", some 2⟩ } } }

def recovered (vault : Vault) : Vault := (recoverWithNewPassword vault ⟨2⟩ ⟨[2]⟩ ⟨9⟩).1

end SettingsSample

theorem rekey_keeps_settings_fresh :
    KeepsSettings SettingsSample.fresh (SettingsSample.recovered SettingsSample.fresh) :=
  (rekey_keeps_settings_iff (.recoverWithNewPassword ⟨2⟩ ⟨[2]⟩ ⟨9⟩ rfl)).mpr
    ⟨rfl, rfl, .inr rfl⟩

/-- A recovery sends a vault of the second revision log back to the first. -/
theorem rekey_resets_chosen_settings :
    ¬ ∀ vault vault', Rekeys vault vault' → KeepsSettings vault vault' := by
  intro always
  have rekeyed : Rekeys SettingsSample.chosen
      (SettingsSample.recovered SettingsSample.chosen) :=
    .recoverWithNewPassword ⟨2⟩ ⟨[2]⟩ ⟨9⟩ rfl
  obtain ⟨-, -, same⟩ := always _ _ rekeyed
  have version := (same ⟨0⟩).2.2
  exact absurd version (by decide)

end Pangolin.Store
