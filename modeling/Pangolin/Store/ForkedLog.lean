import Pangolin.Store.GraphWalk
import Pangolin.Store.Ingest
import Pangolin.Store.Lineage

/-!
# Logs with foreign rows

A log that has ingested chain events may be forked.  What unlock needs of it is less
than linearity: unique ids, parents that lead to no cycle, a stored row behind every
head pointer, and rows that are sealed under the session's keys or carry the placeholder
nonce.  The rules here say how each kind of change keeps that: bookkeeping columns,
appended rows, moved heads, deleted rows.
-/

namespace Pangolin.Store

open Symbolic Crypto

/-- A row that unlock can decode or skips. -/
def Readable (ring : Nat → Option VdkKey) (vaultId : VaultId) (row : RevisionRow) : Prop :=
  row.encNonce = .placeholder ∨ ∃ key payload, SealedRow ring vaultId row key payload

/-- Two rows that differ in bookkeeping columns only: anchor, supersession, revocation,
finality. -/
structure SameContent (old new : RevisionRow) : Prop where
  revisionId : new.revisionId = old.revisionId
  accountId : new.accountId = old.accountId
  parent : new.parent = old.parent
  schemaVersion : new.schemaVersion = old.schemaVersion
  encPayload : new.encPayload = old.encPayload
  encNonce : new.encNonce = old.encNonce
  vdkEpoch : new.vdkEpoch = old.vdkEpoch

theorem SameContent.refl (row : RevisionRow) : SameContent row row :=
  ⟨rfl, rfl, rfl, rfl, rfl, rfl, rfl⟩

theorem SameContent.trans {first second third : RevisionRow} (one : SameContent first second)
    (two : SameContent second third) : SameContent first third :=
  ⟨two.revisionId.trans one.revisionId, two.accountId.trans one.accountId,
    two.parent.trans one.parent, two.schemaVersion.trans one.schemaVersion,
    two.encPayload.trans one.encPayload, two.encNonce.trans one.encNonce,
    two.vdkEpoch.trans one.vdkEpoch⟩

theorem stampAnchor_sameContent (revisionId : RevisionId) (anchor : ChainAnchor)
    (row : RevisionRow) :
    SameContent row
      (if row.revisionId = revisionId then { row with chainAnchor := some anchor } else row) := by
  split
  · exact ⟨rfl, rfl, rfl, rfl, rfl, rfl, rfl⟩
  · exact .refl row

theorem SameContent.readable {ring : Nat → Option VdkKey} {vaultId : VaultId}
    {old new : RevisionRow} (same : SameContent old new) (readable : Readable ring vaultId old) :
    Readable ring vaultId new := by
  cases readable with
  | inl placeholder =>
      apply Or.inl
      rw [same.encNonce]
      exact placeholder
  | inr sealedRow =>
      obtain ⟨key, payload, sealedRow⟩ := sealedRow
      have aad : new.aad vaultId = old.aad vaultId := by
        rw [RevisionRow.aad, same.accountId, same.parent, same.schemaVersion]
        rfl
      refine .inr ⟨key, payload, ?_, ?_, ?_, sealedRow.payloadLocal, ?_⟩
      · rw [same.vdkEpoch]
        exact sealedRow.selected
      · rw [same.encNonce]
        exact sealedRow.nonce
      · rw [same.encPayload, same.encNonce, aad]
        exact sealedRow.encPayload
      · rw [same.schemaVersion]
        exact sealedRow.version

/-! ## The rows -/

structure RowsInv (rank : RevisionId → Nat) (ring : Nat → Option VdkKey) (vaultId : VaultId)
    (revisions : List RevisionRow) : Prop where
  unique : (revisions.map RevisionRow.revisionId).Nodup
  readable : ∀ row ∈ revisions, Readable ring vaultId row
  ranked : ∀ row ∈ revisions, Ranked rank row

namespace RowsInv

variable {rank : RevisionId → Nat} {ring : Nat → Option VdkKey} {vaultId : VaultId}
variable {revisions : List RevisionRow}

theorem map (inv : RowsInv rank ring vaultId revisions) {change : RevisionRow → RevisionRow}
    (same : ∀ row, SameContent row (change row)) :
    RowsInv rank ring vaultId (revisions.map change) := by
  constructor
  · rw [List.map_map]
    have ids : RevisionRow.revisionId ∘ change = RevisionRow.revisionId := by
      funext row
      exact (same row).revisionId
    rw [ids]
    exact inv.unique
  · intro row member
    obtain ⟨old, stored, rfl⟩ := List.mem_map.mp member
    exact (same old).readable (inv.readable old stored)
  · intro row member
    obtain ⟨old, stored, rfl⟩ := List.mem_map.mp member
    have ranked := inv.ranked old stored
    unfold Ranked at ranked ⊢
    rw [(same old).parent, (same old).revisionId]
    exact ranked

theorem append (inv : RowsInv rank ring vaultId revisions) {row : RevisionRow}
    (fresh : ∀ old ∈ revisions, old.revisionId ≠ row.revisionId)
    (readable : Readable ring vaultId row) (ranked : Ranked rank row) :
    RowsInv rank ring vaultId (revisions ++ [row]) := by
  constructor
  · exact nodup_append_fresh inv.unique fresh
  · intro candidate member
    cases List.mem_append.mp member with
    | inl old => exact inv.readable candidate old
    | inr new =>
        obtain rfl := List.mem_singleton.mp new
        exact readable
  · intro candidate member
    cases List.mem_append.mp member with
    | inl old => exact inv.ranked candidate old
    | inr new =>
        obtain rfl := List.mem_singleton.mp new
        exact ranked

theorem filter (inv : RowsInv rank ring vaultId revisions) (keep : RevisionRow → Bool) :
    RowsInv rank ring vaultId (revisions.filter keep) := by
  constructor
  · exact inv.unique.sublist (List.filter_sublist.map _)
  · intro row member
    exact inv.readable row (List.mem_filter.mp member).1
  · intro row member
    exact inv.ranked row (List.mem_filter.mp member).1

end RowsInv

/-! ## The heads -/

/-- Every head pointer names a stored row of its account. -/
def HeadsStored (accounts : List AccountRow) (revisions : List RevisionRow) : Prop :=
  ∀ account ∈ accounts, ∃ row ∈ revisions, row.accountId = account.accountId ∧
    row.revisionId = account.headRevisionId

namespace HeadsStored

variable {accounts : List AccountRow} {revisions revisions' : List RevisionRow}

/-- Rows may change their bookkeeping columns, and more may come. -/
theorem mono (stored : HeadsStored accounts revisions)
    (kept : ∀ row ∈ revisions, ∃ row' ∈ revisions', SameContent row row') :
    HeadsStored accounts revisions' := by
  intro account member
  obtain ⟨row, rowStored, sameAccount, isHead⟩ := stored account member
  obtain ⟨row', rowStored', same⟩ := kept row rowStored
  refine ⟨row', rowStored', ?_, ?_⟩
  · rw [same.accountId, sameAccount]
  · rw [same.revisionId, isHead]

theorem append (stored : HeadsStored accounts revisions) (row : RevisionRow) :
    HeadsStored accounts (revisions ++ [row]) := by
  apply stored.mono
  intro old member
  exact ⟨old, List.mem_append_left _ member, .refl old⟩

theorem map (stored : HeadsStored accounts revisions) {change : RevisionRow → RevisionRow}
    (same : ∀ row, SameContent row (change row)) :
    HeadsStored accounts (revisions.map change) := by
  apply stored.mono
  intro old member
  exact ⟨change old, List.mem_map_of_mem member, same old⟩

/-- A new account comes with its row. -/
theorem addAccount (stored : HeadsStored accounts revisions) {account : AccountRow}
    {row : RevisionRow} (rowStored : row ∈ revisions)
    (sameAccount : account.accountId = row.accountId)
    (isHead : account.headRevisionId = row.revisionId) :
    HeadsStored (accounts ++ [account]) revisions := by
  intro candidate member
  cases List.mem_append.mp member with
  | inl old => exact stored candidate old
  | inr new =>
      obtain rfl := List.mem_singleton.mp new
      exact ⟨row, rowStored, sameAccount.symm, isHead.symm⟩

/-- An account's head moves to a stored row. -/
theorem moveHead (stored : HeadsStored accounts revisions) {row : RevisionRow}
    (rowStored : row ∈ revisions) {change : AccountRow → AccountRow}
    (sameId : ∀ old, (change old).accountId = old.accountId)
    (newHead : ∀ old, (change old).headRevisionId = row.revisionId) :
    HeadsStored (updateAccountRow accounts row.accountId change) revisions := by
  intro candidate member
  obtain ⟨old, oldMember, rfl⟩ := List.mem_map.mp member
  split
  · next isThis =>
      refine ⟨row, rowStored, ?_, (newHead old).symm⟩
      rw [sameId, isThis]
  · exact stored old oldMember

/-- An update that moves no head. -/
theorem keepHead (stored : HeadsStored accounts revisions) (accountId : AccountId)
    {change : AccountRow → AccountRow}
    (sameId : ∀ old, (change old).accountId = old.accountId)
    (sameHead : ∀ old, (change old).headRevisionId = old.headRevisionId) :
    HeadsStored (updateAccountRow accounts accountId change) revisions := by
  intro candidate member
  obtain ⟨old, oldMember, rfl⟩ := List.mem_map.mp member
  split
  · rw [sameId, sameHead]
    exact stored old oldMember
  · exact stored old oldMember

end HeadsStored

/-! ## Unlock on such a log -/

theorem decodeRow_ok {vaultId : VaultId} {vdk : VdkKey} {chain : VdkChain} {row : RevisionRow}
    (readable : Readable (entryKey vdk chain) vaultId row) :
    ∃ outcome, decodeRow vaultId vdk chain row = .ok outcome ∧ outcome ≠ .futureVersion := by
  cases readable with
  | inl placeholder =>
      refine ⟨.placeholderNonce, ?_, by simp⟩
      unfold decodeRow
      split
      · rfl
      · rw [if_pos placeholder]
  | inr sealedRow =>
      obtain ⟨key, payload, sealedRow⟩ := sealedRow
      refine ⟨.ofPayload payload, decodeRow_sealedRow sealedRow, ?_⟩
      have payloadLocal := sealedRow.payloadLocal
      cases payload with
      | live identity => simp [HeadDecodeOutcome.ofPayload]
      | tombstone accountId tombstonedAtMs => simp [HeadDecodeOutcome.ofPayload]
      | future payloadVersion => exact absurd payloadLocal id

/-- Leaves that all decode to known versions. -/
theorem decodeLeaves_ok {decode : RevisionId → Except StoreError HeadDecodeOutcome}
    (canonical : RevisionId) {leaves : List RevisionId}
    (each : ∀ leaf ∈ leaves, ∃ outcome, decode leaf = .ok outcome ∧ outcome ≠ .futureVersion) :
    ∃ outcome, decodeLeaves decode canonical leaves = .ok (false, outcome) ∧
      outcome ≠ some .futureVersion := by
  induction leaves with
  | nil => exact ⟨none, rfl, by simp⟩
  | cons leaf leaves ih =>
      obtain ⟨first, decoded, known⟩ := each leaf List.mem_cons_self
      obtain ⟨later, rest, laterKnown⟩ :=
        ih fun other member => each other (List.mem_cons_of_mem _ member)
      refine ⟨later <|> if leaf = canonical then some first else none, ?_, ?_⟩
      · cases first with
        | futureVersion => exact absurd rfl known
        | live _ | tombstone | placeholderNonce =>
            simp only [decodeLeaves, decoded, rest, bind, Except.bind, pure, Except.pure]
      · cases later with
        | some outcome => exact laterKnown
        | none =>
            by_cases isCanonical : leaf = canonical
            · simpa [isCanonical] using known
            · simp [isCanonical]

section

variable {rank : RevisionId → Nat} {vaultId : VaultId} {vdk : VdkKey} {chain : VdkChain}
variable {revisions : List RevisionRow}

/-- A stored row of the account decodes. -/
theorem decodeHeadRow_ok (inv : RowsInv rank (entryKey vdk chain) vaultId revisions)
    {row : RevisionRow} (stored : row ∈ revisions) :
    ∃ outcome, decodeHeadRow revisions vaultId vdk chain row.accountId row.revisionId =
      .ok outcome ∧ outcome ≠ .futureVersion := by
  unfold decodeHeadRow
  rw [findRevision_of_mem inv.unique stored]
  exact decodeRow_ok (inv.readable row stored)

/-- The heads a hydration decodes are stored rows of the account. -/
theorem headsToDecode_ok (inv : RowsInv rank (entryKey vdk chain) vaultId revisions)
    {account : AccountRow}
    (head : ∃ row ∈ revisions, row.accountId = account.accountId ∧
      row.revisionId = account.headRevisionId) :
    ∃ canonical leaves, headsToDecode revisions account = .ok (canonical, leaves) ∧
      ∀ leaf ∈ leaves, ∃ row ∈ revisions, row.accountId = account.accountId ∧
        row.revisionId = leaf := by
  unfold headsToDecode
  split
  · have mem_rows : ∀ row, row ∈ readRevisionRows revisions account.accountId ↔
        row ∈ revisions ∧ row.accountId = account.accountId ∧ row.revoked = false := by
      intro row
      unfold readRevisionRows
      rw [List.mem_insertionSort, List.mem_filter]
      simp
    have unique : ((readRevisionRows revisions account.accountId).map
        RevisionRow.revisionId).Nodup := by
      apply ((List.perm_insertionSort _ _).map _).nodup_iff.mpr
      exact inv.unique.sublist (List.filter_sublist.map _)
    have ranked : ∀ row ∈ readRevisionRows revisions account.accountId, Ranked rank row := by
      intro row member
      exact inv.ranked row ((mem_rows row).mp member).1
    obtain ⟨graph, built, heads⟩ := RevisionGraph.build_ok unique ranked
    refine ⟨_, graph.heads, Fallible.bind_eq_ok_iff.mpr ⟨graph, built, rfl⟩, ?_⟩
    intro leaf member
    obtain ⟨row, listed, isLeaf⟩ := heads leaf member
    obtain ⟨stored, sameAccount, -⟩ := (mem_rows row).mp listed
    exact ⟨row, stored, sameAccount, isLeaf⟩
  · refine ⟨account.headRevisionId, [account.headRevisionId], rfl, ?_⟩
    intro leaf member
    obtain rfl := List.mem_singleton.mp member
    exact head

/-- Every account with a stored head hydrates, forked or not. -/
theorem hydrateAccount_ok (inv : RowsInv rank (entryKey vdk chain) vaultId revisions)
    {account : AccountRow}
    (head : ∃ row ∈ revisions, row.accountId = account.accountId ∧
      row.revisionId = account.headRevisionId) :
    ∃ hydrated, hydrateAccount revisions vaultId vdk chain account = .ok hydrated := by
  have decodes : ∀ id, (∃ row ∈ revisions, row.accountId = account.accountId ∧
      row.revisionId = id) → ∃ outcome, decodeHeadRow revisions vaultId vdk chain
        account.accountId id = .ok outcome ∧ outcome ≠ .futureVersion := by
    rintro id ⟨row, stored, sameAccount, rfl⟩
    rw [← sameAccount]
    exact decodeHeadRow_ok inv stored
  obtain ⟨canonical, leaves, chosen, stored⟩ := headsToDecode_ok inv head
  obtain ⟨outcome, decoded, known⟩ := decodeLeaves_ok canonical
    fun leaf member => decodes leaf (stored leaf member)
  obtain ⟨fallback, decodedHead, knownHead⟩ := decodes _ head
  unfold hydrateAccount
  simp only [chosen, decoded, decodedHead, bind, Except.bind, pure, Except.pure]
  by_cases skipped : outcome = some .placeholderNonce
  · rw [if_pos skipped]
    by_cases isHead : account.headRevisionId = canonical
    · simp [isHead]
    · rw [if_neg isHead]
      cases fallback with
      | futureVersion => exact absurd rfl knownHead
      | live identity => exact ⟨_, rfl⟩
      | tombstone => exact ⟨_, rfl⟩
      | placeholderNonce => exact ⟨_, rfl⟩
  · rw [if_neg skipped]
    cases outcome with
    | none => exact ⟨_, rfl⟩
    | some outcome =>
        cases outcome with
        | futureVersion => exact absurd rfl known
        | live identity => exact ⟨_, rfl⟩
        | tombstone => exact ⟨_, rfl⟩
        | placeholderNonce => exact ⟨_, rfl⟩

end

/-- Leaves of known versions ask for no newer build. -/
theorem decodeLeaves_upToDate {decode : RevisionId → Except StoreError HeadDecodeOutcome}
    (known : ∀ id, decode id ≠ .ok .futureVersion) {canonical : RevisionId}
    {leaves : List RevisionId} {result : Bool × Option HeadDecodeOutcome}
    (done : decodeLeaves decode canonical leaves = .ok result) : result.1 = false := by
  induction leaves generalizing result with
  | nil =>
      obtain rfl := Except.ok.inj done
      rfl
  | cons leaf leaves ih =>
      obtain ⟨outcome, decoded, rest⟩ := Fallible.bind_eq_ok_iff.mp done
      obtain ⟨later, decodedLater, equal⟩ := Fallible.bind_eq_ok_iff.mp rest
      have upToDate := ih decodedLater
      obtain rfl := Except.ok.inj equal
      cases outcome with
      | futureVersion => exact absurd decoded (known leaf)
      | live _ | tombstone | placeholderNonce => exact upToDate

theorem hydrateAccount_upToDate {revisions : List RevisionRow} {vaultId : VaultId}
    {vdk : VdkKey} {chain : VdkChain} {account : AccountRow} {hydrated : Hydrated}
    (known : ∀ id, decodeHeadRow revisions vaultId vdk chain account.accountId id ≠
      .ok .futureVersion)
    (done : hydrateAccount revisions vaultId vdk chain account = .ok hydrated) :
    hydrated.requiresUpgrade = false := by
  obtain ⟨⟨canonical, leaves⟩, -, rest⟩ := Fallible.bind_eq_ok_iff.mp done
  obtain ⟨⟨upgrade, outcome⟩, decoded, rest⟩ := Fallible.bind_eq_ok_iff.mp rest
  obtain rfl : upgrade = false := decodeLeaves_upToDate known decoded
  simp only [pure_bind] at rest
  split at rest
  · split at rest
    · obtain rfl := Except.ok.inj rest
      rfl
    · obtain ⟨fallback, -, finished⟩ := Fallible.bind_eq_ok_iff.mp rest
      exact (hydrated_of_final finished).1
  · exact (hydrated_of_final rest).1

/-- Hydrating readable rows finds no account that needs a newer build. -/
theorem hydrateAll_upToDate {revisions : List RevisionRow} {vaultId : VaultId} {vdk : VdkKey}
    {chain : VdkChain} {accounts : List AccountRow} {data : ActiveStateData}
    (readable : ∀ row ∈ revisions, Readable (entryKey vdk chain) vaultId row)
    (done : hydrateAll revisions vaultId vdk chain accounts = .ok data) :
    data.requiresUpgrade = [] := by
  have known : ∀ accountId id,
      decodeHeadRow revisions vaultId vdk chain accountId id ≠ .ok .futureVersion := by
    intro accountId id future
    unfold decodeHeadRow at future
    split at future
    · cases future
    · next row found =>
        have stored : row ∈ revisions := List.mem_of_find?_eq_some found
        obtain ⟨outcome, decoded, isKnown⟩ := decodeRow_ok (readable row stored)
        exact isKnown (Except.ok.inj (decoded.symm.trans future))
  induction accounts generalizing data with
  | nil =>
      obtain rfl := Except.ok.inj done
      rfl
  | cons account accounts ih =>
      obtain ⟨hydrated, first, rest⟩ := Fallible.bind_eq_ok_iff.mp done
      obtain ⟨later, hydratedLater, equal⟩ := Fallible.bind_eq_ok_iff.mp rest
      obtain rfl := Except.ok.inj equal
      have upToDate := hydrateAccount_upToDate (known account.accountId) first
      simp [upToDate, ih hydratedLater]

/-- Unlock's hydration succeeds on such a log. -/
theorem buildActiveStateData_of_rowsInv {rank : RevisionId → Nat} {log : RevisionTables}
    {vaultId : VaultId} {vdk : VdkKey} {chain : VdkChain}
    (inv : RowsInv rank (entryKey vdk chain) vaultId log.revisions)
    (heads : HeadsStored log.accounts log.revisions) :
    ∃ data, buildActiveStateData log vaultId vdk chain = .ok data := by
  apply hydrateAll_ok
  intro account member
  exact hydrateAccount_ok inv (heads account (List.mem_filter.mp member).1)

end Pangolin.Store
