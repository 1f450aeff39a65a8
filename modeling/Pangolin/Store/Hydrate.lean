import Pangolin.Store.RevisionGraph
import Pangolin.Store.VdkChain

/-!
# Decoding heads at unlock

Unlock decrypts the head of every live account.  A row is opened with the VDK of
its own epoch; a row of an epoch this device does not hold, and a row with the
placeholder nonce, is skipped rather than refused.  Everything else that fails
aborts the unlock.
-/

namespace Pangolin.Store

open Crypto

/-- `REVISION_SCHEMA_VERSION_MAX`. -/
def revisionSchemaVersionMax : Nat := 2

inductive HeadDecodeOutcome where
  | live (identity : AccountIdentity)
  | tombstone
  | futureVersion
  | placeholderNonce
  deriving Repr, DecidableEq

/-- `SELECT … WHERE account_id = ?1 AND revision_id = ?2`. -/
def findRevision (revisions : List RevisionRow) (accountId : AccountId)
    (revisionId : RevisionId) : Option RevisionRow :=
  revisions.find? fun row => row.accountId = accountId && row.revisionId = revisionId

/-- The AAD a stored row is opened with: everything but the vault id comes from the
row's own columns. -/
def RevisionRow.aad (row : RevisionRow) (vaultId : VaultId) : RevisionAad :=
  ⟨vaultId, row.accountId, row.parent, row.schemaVersion⟩

/-- The key for a row's epoch: the session VDK for the current epoch, the chain's
for a retained one. -/
def entryKey (vdk : VdkKey) (chain : VdkChain) (epoch : Nat) : Option VdkKey :=
  if epoch = chain.currentEpoch then some vdk else chain.aeadForEpoch epoch

/-- Decode one stored row with the key selected for its epoch. -/
def decodeRow (vaultId : VaultId) (vdk : VdkKey) (chain : VdkChain) (row : RevisionRow) :
    Except StoreError HeadDecodeOutcome :=
  match entryKey vdk chain row.vdkEpoch with
  | none => .ok .placeholderNonce
  | some key =>
      if row.encNonce = .placeholder then
        .ok .placeholderNonce
      else
        match row.encPayload.open? key row.encNonce (row.aad vaultId) with
        | none => .error .authenticationFailed
        | some (.future _) => .ok .futureVersion
        | some payload =>
            if revisionSchemaVersionMax < row.schemaVersion then
              .ok .futureVersion
            else
              match payload with
              | .live identity => .ok (.live identity)
              | _ => .ok .tombstone

/-- `decode_head_row`. -/
def decodeHeadRow (revisions : List RevisionRow) (vaultId : VaultId) (vdk : VdkKey)
    (chain : VdkChain) (accountId : AccountId) (revisionId : RevisionId) :
    Except StoreError HeadDecodeOutcome :=
  match findRevision revisions accountId revisionId with
  | none =>
      .error (.corrupted "account_identities head_revision_id has no matching revisions row")
  | some row => decodeRow vaultId vdk chain row

/-! ## Hydrating an account -/

/-- The canonical head of a live account and the leaves to authenticate: for a fork
the graph's, otherwise the stored head alone. -/
def headsToDecode (revisions : List RevisionRow) (account : AccountRow) :
    Except StoreError (RevisionId × List RevisionId) :=
  if 1 < (accountHeadRows revisions account.accountId).length then do
    let graph ← RevisionGraph.build (readRevisionRows revisions account.accountId)
    return (graph.canonicalHead.getD account.headRevisionId, graph.heads)
  else
    .ok (account.headRevisionId, [account.headRevisionId])

/-- Decode every leaf; report whether one is of a future version, and the canonical
head's outcome when it is not. -/
def decodeLeaves (decode : RevisionId → Except StoreError HeadDecodeOutcome)
    (canonical : RevisionId) :
    List RevisionId → Except StoreError (Bool × Option HeadDecodeOutcome)
  | [] => .ok (false, none)
  | leaf :: leaves => do
      let outcome ← decode leaf
      let (upgrade, later) ← decodeLeaves decode canonical leaves
      return match outcome with
        | .futureVersion => (true, later)
        | outcome => (upgrade, later <|> if leaf = canonical then some outcome else none)

/-- What hydrating one account adds to the session. -/
structure Hydrated where
  requiresUpgrade : Bool
  cached : Option AccountIdentity
  deriving Repr, DecidableEq

/-- `hydrate_account_into_state`.  A canonical head this device cannot decrypt
falls back to the stored head pointer. -/
def hydrateAccount (revisions : List RevisionRow) (vaultId : VaultId) (vdk : VdkKey)
    (chain : VdkChain) (account : AccountRow) : Except StoreError Hydrated := do
  let (canonical, leaves) ← headsToDecode revisions account
  let decode := decodeHeadRow revisions vaultId vdk chain account.accountId
  let (upgrade, outcome) ← decodeLeaves decode canonical leaves
  let outcome ←
    if outcome = some .placeholderNonce then
      if account.headRevisionId = canonical then
        pure none
      else do
        let fallback ← decode account.headRevisionId
        pure (some fallback)
    else
      pure outcome
  match outcome with
  | some (.live identity) => return ⟨upgrade, some identity⟩
  | some .futureVersion => .error .unreachableCode
  | _ => return ⟨upgrade, none⟩

/-- The flag of a hydrated account is the leaves', and a live outcome is what it caches. -/
theorem hydrated_of_final {upgrade : Bool} {final : Option HeadDecodeOutcome}
    {hydrated : Hydrated}
    (finished : (match final with
      | some (.live identity) => pure ⟨upgrade, some identity⟩
      | some .futureVersion => .error .unreachableCode
      | _ => pure ⟨upgrade, none⟩ : Except StoreError Hydrated) = .ok hydrated) :
    hydrated.requiresUpgrade = upgrade ∧
      ∀ identity, hydrated.cached = some identity → final = some (.live identity) := by
  split at finished
  · obtain rfl := Except.ok.inj finished
    refine ⟨rfl, ?_⟩
    intro identity cached
    obtain rfl := Option.some.inj cached
    rfl
  · cases finished
  · obtain rfl := Except.ok.inj finished
    refine ⟨rfl, ?_⟩
    intro identity cached
    cases cached

/-- What `build_active_state_data` returns: the decrypted cache and the accounts
that need a newer build. -/
structure ActiveStateData where
  cache : List (AccountId × AccountIdentity)
  requiresUpgrade : List AccountId
  deriving Repr, DecidableEq

/-- The loop of `build_active_state_data` over the live accounts. -/
def hydrateAll (revisions : List RevisionRow) (vaultId : VaultId) (vdk : VdkKey)
    (chain : VdkChain) : List AccountRow → Except StoreError ActiveStateData
  | [] => .ok ⟨[], []⟩
  | account :: accounts => do
      let hydrated ← hydrateAccount revisions vaultId vdk chain account
      let rest ← hydrateAll revisions vaultId vdk chain accounts
      return {
        cache := (hydrated.cached.map fun identity => (account.accountId, identity)).toList ++
          rest.cache
        requiresUpgrade :=
          (if hydrated.requiresUpgrade then [account.accountId] else []) ++
            rest.requiresUpgrade }

def buildActiveStateData (log : RevisionTables) (vaultId : VaultId) (vdk : VdkKey)
    (chain : VdkChain) : Except StoreError ActiveStateData :=
  hydrateAll log.revisions vaultId vdk chain
    (log.accounts.filter fun account => !account.tombstoned)

end Pangolin.Store
