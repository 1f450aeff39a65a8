import Pangolin.Lib.Sealed
import Pangolin.Lib.Reaches
import Pangolin.Lib.Journal
import Pangolin.Lib.Table
import Pangolin.Lib.KeyMap
import Pangolin.Lib.Fallible
import Pangolin.Lib.Threshold
import Pangolin.Lib.Utf8
import Pangolin.Lib.Reader
import Pangolin.Lib.Metered
import Pangolin.Lib.Cbor
import Pangolin.Lib.CborItems
import Pangolin.Lib.Merkle
import Pangolin.Lib.Ranges
import Pangolin.Lib.Tasks
import Pangolin.Lib.Shuffle
import Pangolin.Lib.Radix
import Pangolin.Lib.Rfc4648
import Pangolin.Lib.Search
import Pangolin.Lib.Patterns
import Pangolin.Lib.Forest
import Pangolin.Lib.Calendar
import Pangolin.Lib.Xml
import Pangolin.Crypto.Keys
import Pangolin.Crypto.PasswordCipher
import Pangolin.Crypto.Escrow
import Pangolin.Store.Schema
import Pangolin.Store.SeedPhrase
import Pangolin.Store.VdkChain
import Pangolin.Store.Device
import Pangolin.Store.RevisionGraph
import Pangolin.Store.Hydrate
import Pangolin.Store.RecoveryEscrow
import Pangolin.Store.Vault
import Pangolin.Store.Accounts
import Pangolin.Store.Rekey
import Pangolin.Store.Settings
import Pangolin.Store.Ingest
import Pangolin.Store.Keyring
import Pangolin.Store.Writes
import Pangolin.Store.ChainCalls
import Pangolin.Store.Publish
import Pangolin.Store.Session
import Pangolin.Store.Export
import Pangolin.Store.Revocation
import Pangolin.Store.MultiDevice
import Pangolin.Store.Lineage
import Pangolin.Store.GraphWalk
import Pangolin.Store.CanonicalHead
import Pangolin.Store.RevisionIndex
import Pangolin.Store.Conflicts
import Pangolin.Store.ForkedLog
import Pangolin.Store.BackupFile
import Pangolin.Store.Blob
import Pangolin.Store.BlobGrammar
import Pangolin.Store.BlobRoundTrip
import Pangolin.Store.Bip39Wordlist
import Pangolin.Store.Cached
import Pangolin.Store.MixedRows
import Pangolin.Store.ChainSync
import Pangolin.Store.HeadWrites
import Pangolin.Store.RowChanges
import Pangolin.Store.Identity
import Pangolin.Store.Archive
import Pangolin.Store.ArchiveBytes
import Pangolin.Store.Restore
import Pangolin.Store.SearchQuery
import Pangolin.Store.SearchIndex
import Pangolin.Store.SearchResults
import Pangolin.Store.LockFile
import Pangolin.Contracts.Evm
import Pangolin.Contracts.RecoveryV2
import Pangolin.Contracts.RecoverySafety
import Pangolin.Contracts.ApprovalCount
import Pangolin.Contracts.RecoveryLiveness
import Pangolin.Contracts.RecoveryV1
import Pangolin.Contracts.RevisionLogV2
import Pangolin.Contracts.DeviceSet
import Pangolin.Contracts.Authorizations
import Pangolin.Contracts.Promotions
import Pangolin.Contracts.ManagerAuthority
import Pangolin.Contracts.EntitlementRegistry
import Pangolin.Core.Composition
import Pangolin.Core.Generations
import Pangolin.Core.Pwgen
import Pangolin.Core.PwgenCounts
import Pangolin.Core.TextCodec
import Pangolin.System
import Pangolin.Core.SurvivorSeals
import Pangolin.Core.RecoveryUnlock
import Pangolin.Runs.Finality
import Pangolin.Runs.KeyInvariant
import Pangolin.Runs.RekeyChain
import Pangolin.Runs.EpochAliasing
import Pangolin.Runs.ReadPaths
import Pangolin.Runs.Backups
import Pangolin.Runs.SyncedRows
import Pangolin.Runs.SyncInvariant
import Pangolin.Runs.ChainConvergence
import Pangolin.Runs.SealedRows
import Pangolin.Runs.Reorgs
import Pangolin.Runs.PendingRotations
import Pangolin.Runs.PublishQueue
import Pangolin.Runs.SessionExpiry
import Pangolin.Runs.SessionCoherence
import Pangolin.Runs.SharedLog
import Pangolin.Runs.RevokedReads
import Pangolin.Runs.Coherence
import Pangolin.Runs.ForkResolution
import Pangolin.Runs.MixedUnlock
import Pangolin.Runs.ConflictExits
import Pangolin.Runs.DeviceElection
import Pangolin.Runs.Restores
import Pangolin.Runs.Archives
import Pangolin.Chain.GuardianTree
import Pangolin.Chain.Broadcast
import Pangolin.Chain.AuthorizedSet
import Pangolin.Chain.DeviceFold
import Pangolin.Chain.TypedData
import Pangolin.Chain.TypedDigests
import Pangolin.Chain.SignedCalls
import Pangolin.Funder.Ledger
import Pangolin.Funder.Service
import Pangolin.Funder.Protocol
import Pangolin.Funder.Payouts
import Pangolin.Funder.Refunds
import Pangolin.Funder.RateLimit
import Pangolin.Funder.RateLimitRuns
import Pangolin.Funder.RateGuarantees
import Pangolin.Ffi.Pairing
import Pangolin.Ffi.PairingCode
import Pangolin.Runs.PairedReads
import Pangolin.Runs.ForeignIngest
import Pangolin.Runs.OwnEvents
import Pangolin.Indexer.Session
import Pangolin.Indexer.Delivery
import Pangolin.Indexer.StartRuns
import Pangolin.Indexer.ChunkLoop
import Pangolin.Indexer.Handshake
import Pangolin.Indexer.Tampering
import Pangolin.Kdbx.Totp
import Pangolin.Kdbx.Xml
import Pangolin.Kdbx.XmlWalk
import Pangolin.Kdbx.XmlDocument
import Pangolin.Kdbx.XmlReading
import Pangolin.Kdbx.XmlGroups
import Pangolin.Kdbx.ProtectedValues
import Pangolin.Kdbx.RecycleBin
import Pangolin.Kdbx.RecycleBinSurvey
import Pangolin.Kdbx.RecycledEntries
import Pangolin.Kdbx.Base32
import Pangolin.Kdbx.Time
import Pangolin.Kdbx.Header
import Pangolin.Kdbx.BlockStream
import Pangolin.Kdbx.Map
import Pangolin.Kdbx.Accepted
import Pangolin.Runs.KdbxImports
import Pangolin.Store.CaptureAuthority
import Pangolin.Runs.CaptureRegistry
import Pangolin.Lib.Framing
import Pangolin.Native.Host
import Pangolin.Native.Relay
import Pangolin.Native.Dispatch
import Pangolin.Native.Secrecy
