import Pangolin.Store.Session

/-!
# Gathering an archive

An export reads every selected account that is not deleted at its stored head and lays
the identities out in a snapshot.  An account that needs a newer build is left out; any
other account that does not open fails the export.
-/

namespace Pangolin.Store

open Crypto

/-- One archived account: its identity with the ids and times it had. -/
structure ArchivedAccount where
  accountId : AccountId
  createdAtMs : Int
  displayName : List UInt8
  tags : List (List UInt8)
  urls : List (List UInt8)
  usernames : List (List UInt8)
  notes : List UInt8
  passwordHistory : List PasswordEntry
  totpSecret : List UInt8
  totpParams : TotpParams
  deriving Repr, DecidableEq

structure ArchivedDevice where
  deviceId : DeviceId
  label : String
  addedAtMs : Int
  deriving Repr, DecidableEq

/-- One row of the capture-authority registry. -/
structure CaptureAuthority where
  contextKind : Int
  platformHint : String
  authorityKind : Int
  componentId : String
  componentVersion : String
  registeredAt : Int
  schemaVersion : Nat
  deriving Repr, DecidableEq

structure ArchiveSnapshot where
  schemaVersion : Nat
  exportedAt : Int
  sourceDeviceId : DeviceId
  vaultId : VaultId
  sessionIdleSecs : Option Int
  accounts : List ArchivedAccount
  devices : List ArchivedDevice
  captureAuthorities : List CaptureAuthority
  deriving Repr, DecidableEq

/-- `ARCHIVE_SNAPSHOT_SCHEMA_VERSION`. -/
def archiveSnapshotSchemaVersion : Nat := 2

inductive AccountSelection where
  | all
  | subset (ids : List AccountId)
  deriving Repr, DecidableEq

def AccountSelection.includes : AccountSelection → AccountId → Bool
  | .all, _ => true
  | .subset ids, accountId => ids.any fun id => id = accountId

/-- An identity as the archive lays it out. -/
def archiveAccount (account : AccountRow) (identity : AccountIdentity) : ArchivedAccount :=
  { accountId := account.accountId
    createdAtMs := account.createdAt
    displayName := identity.displayName
    tags := identity.tags
    urls := identity.urls
    usernames := identity.usernames
    notes := identity.notes
    passwordHistory := identity.passwordHistory
    totpSecret := identity.totpSecret
    totpParams := identity.totpParams }

/-- The account rows an export visits, in id order. -/
def exportedRows (log : RevisionTables) (selection : AccountSelection) : List AccountRow :=
  ((log.accounts.filter fun account => !account.tombstoned).insertionSort
    fun first second => first.accountId.raw ≤ second.accountId.raw).filter
      fun account => selection.includes account.accountId

/-- The loop of `gather_archive_snapshot`. -/
def gatherAccounts (vault : Vault) (active : ActiveState) :
    List AccountRow → Except StoreError (List ArchivedAccount)
  | [] => .ok []
  | account :: accounts =>
      if active.requiresUpgrade.any (fun id => id = account.accountId) then
        gatherAccounts vault active accounts
      else
        match readHeadIdentity vault active account.accountId with
        | .error .accountTombstoned => gatherAccounts vault active accounts
        | .error error => .error error
        | .ok identity => do
            let rest ← gatherAccounts vault active accounts
            return archiveAccount account identity :: rest

/-- The clock and the registry table an export reads besides. -/
structure ExportInput where
  exportedAt : Int
  captureAuthorities : List CaptureAuthority
  deriving Repr, DecidableEq

/-- `gather_archive_snapshot`. -/
def gatherArchiveSnapshot (vault : Vault) (active : ActiveState) (selection : AccountSelection)
    (input : ExportInput) : Except StoreError ArchiveSnapshot := do
  let accounts ← gatherAccounts vault active (exportedRows vault.disk.log selection)
  return {
    schemaVersion := archiveSnapshotSchemaVersion
    exportedAt := input.exportedAt
    sourceDeviceId := vault.deviceId
    vaultId := vault.vaultMeta.vaultId
    sessionIdleSecs := vault.disk.keys.settings.sessionIdleSecs
    accounts
    devices := (vault.disk.keys.devices.insertionSort
      fun first second => first.before second = true).map
        fun row => ⟨row.deviceId, row.label, row.addedAt⟩
    captureAuthorities := input.captureAuthorities }

/-- The session gate of the export entries around the gathering. -/
def exportSnapshot (vault : Vault) (selection : AccountSelection) (presence : PresenceCheck)
    (input : ExportInput) (now : Nat) : Call ArchiveSnapshot :=
  withFreshSession vault now fun active => do
    presence.verify
    let snapshot ← gatherArchiveSnapshot vault active selection input
    return (vault, snapshot)

end Pangolin.Store
