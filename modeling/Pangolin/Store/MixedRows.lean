import Pangolin.Store.Cached
import Pangolin.Store.CanonicalHead
import Pangolin.Store.Conflicts

/-!
# Rows of every kind

A revisions table mixes rows this build wrote, rows of newer builds, tombstones, rows of
epochs whose VDK this device never received and placeholders of rows other devices wrote.
Each row says one thing to a session, and hydration is a function of what the leaves of an
account and its stored head say.
-/

namespace Pangolin.Store

open Symbolic Crypto

/-- A row some version of the program sealed under the VDK of the row's epoch, or the
placeholder of a row another device wrote. -/
def WrittenRow (ring : Nat → VdkKey) (vaultId : VaultId) (row : RevisionRow) : Prop :=
  row.encNonce = .placeholder ∨ ∃ payload, row.encPayload =
    sealPayload (ring row.vdkEpoch) row.encNonce (row.aad vaultId) payload

/-- The session holds the VDKs of some epochs, and no other key for any. -/
def TrueKeys (ring : Nat → VdkKey) (vdk : VdkKey) (chain : VdkChain) : Prop :=
  ∀ epoch key, entryKey vdk chain epoch = some key → key = ring epoch

/-- What a row says to a session with these keys. -/
def RevisionRow.meaning (vdk : VdkKey) (chain : VdkChain) (row : RevisionRow) :
    HeadDecodeOutcome :=
  if (entryKey vdk chain row.vdkEpoch).isNone || row.encNonce = .placeholder then
    .placeholderNonce
  else
    match row.encPayload.plaintext with
    | none => .placeholderNonce
    | some payload =>
        if revisionSchemaVersionMax < row.schemaVersion then .futureVersion
        else .ofPayload payload

section

variable {ring : Nat → VdkKey} {vaultId : VaultId} {vdk : VdkKey} {chain : VdkChain}

/-- Unlock decodes a written row to what it says. -/
theorem decodeRow_meaning (keys : TrueKeys ring vdk chain) {row : RevisionRow}
    (written : WrittenRow ring vaultId row) :
    decodeRow vaultId vdk chain row = .ok (row.meaning vdk chain) := by
  unfold decodeRow RevisionRow.meaning
  cases selected : entryKey vdk chain row.vdkEpoch with
  | none => simp
  | some key =>
      obtain rfl := keys _ _ selected
      by_cases placeholder : row.encNonce = .placeholder
      · simp [placeholder]
      · obtain ⟨payload, encPayload⟩ := written.resolve_left placeholder
        simp only [placeholder, if_false, encPayload, open?_sealPayload, Option.isNone_some,
          Bool.false_or, decide_false, Bool.false_eq_true]
        by_cases newer : revisionSchemaVersionMax < row.schemaVersion
        · cases payload <;> simp [newer, sealPayload, Ciphertext.plaintext]
        · cases payload <;>
            simp [newer, sealPayload, Ciphertext.plaintext, HeadDecodeOutcome.ofPayload]

/-- A table that unlock may meet: one row an id, each row written, and a stored row behind
the head pointer of the account. -/
structure MixedTable (ring : Nat → VdkKey) (vaultId : VaultId) (revisions : List RevisionRow)
    (account : AccountRow) : Prop where
  unique : (revisions.map RevisionRow.revisionId).Nodup
  written : ∀ row ∈ revisions, WrittenRow ring vaultId row
  headStored : ∃ row ∈ revisions, row.accountId = account.accountId ∧
    row.revisionId = account.headRevisionId

/-! ## The leaf an account shows -/

namespace RevisionGraph

/-- The leaf with the largest id. -/
def CanonicalLeaf (rows : List RevisionRow) (row : RevisionRow) : Prop :=
  IsLeaf rows row ∧ ∀ other, IsLeaf rows other → other.revisionId.raw ≤ row.revisionId.raw

theorem CanonicalLeaf.eq {rows : List RevisionRow}
    (unique : (rows.map RevisionRow.revisionId).Nodup) {first second : RevisionRow}
    (one : CanonicalLeaf rows first) (two : CanonicalLeaf rows second) : first = second := by
  apply List.inj_on_of_nodup_map unique one.1.1 two.1.1
  have above := two.2 first one.1
  have below := one.2 second two.1
  have equal := Nat.le_antisymm above below
  cases firstId : first.revisionId
  cases secondId : second.revisionId
  rw [firstId, secondId] at equal
  exact congrArg RevisionId.mk equal

/-- A graph that builds elects its largest leaf, when it has one. -/
theorem canonicalLeaf_of_build {rows : List RevisionRow} {graph : RevisionGraph}
    (heads : ∀ id, id ∈ graph.heads ↔ ∃ row, IsLeaf rows row ∧ row.revisionId = id)
    {leaf : RevisionRow} (isLeaf : IsLeaf rows leaf) :
    ∃ row, CanonicalLeaf rows row ∧ graph.canonicalHead = some row.revisionId := by
  have listed : leaf.revisionId ∈ graph.heads := (heads _).mpr ⟨leaf, isLeaf, rfl⟩
  have some? : graph.canonicalHead.isSome = true :=
    newest_isSome graph.heads none (.inl (List.ne_nil_of_mem listed))
  obtain ⟨head, elected⟩ := Option.isSome_iff_exists.mp some?
  obtain ⟨row, rowLeaf, rfl⟩ := (heads head).mp (canonicalHead_mem elected)
  refine ⟨row, ⟨rowLeaf, ?_⟩, elected⟩
  intro other otherLeaf
  exact (newest_le graph.heads none elected).2 _ ((heads _).mpr ⟨other, otherLeaf, rfl⟩)

end RevisionGraph

open RevisionGraph (Rooted IsLeaf CanonicalLeaf)

/-- The row an account's stored head pointer names. -/
def IsStoredHead (revisions : List RevisionRow) (account : AccountRow) (row : RevisionRow) :
    Prop :=
  row ∈ revisions ∧ row.accountId = account.accountId ∧ row.revisionId = account.headRevisionId

/-- The row an account is shown from: its stored head when it is not forked, otherwise its
canonical leaf, or the stored head when this device cannot decrypt that leaf. -/
inductive Shown (vdk : VdkKey) (chain : VdkChain) (revisions : List RevisionRow)
    (account : AccountRow) : RevisionRow → Prop where
  | single {row : RevisionRow} :
      (accountHeadRows revisions account.accountId).length ≤ 1 →
      IsStoredHead revisions account row → Shown vdk chain revisions account row
  | canonical {row : RevisionRow} :
      1 < (accountHeadRows revisions account.accountId).length →
      CanonicalLeaf (readRevisionRows revisions account.accountId) row →
      row.meaning vdk chain ≠ .placeholderNonce → Shown vdk chain revisions account row
  | fallback {leaf row : RevisionRow} :
      1 < (accountHeadRows revisions account.accountId).length →
      CanonicalLeaf (readRevisionRows revisions account.accountId) leaf →
      leaf.meaning vdk chain = .placeholderNonce →
      IsStoredHead revisions account row → Shown vdk chain revisions account row

/-- A hydration that shows the row: flagged exactly when the row is of a newer version, and
caching exactly the identity the row holds. -/
def Hydrated.Shows (hydrated : Hydrated) (meaning : HeadDecodeOutcome) : Prop :=
  (hydrated.requiresUpgrade = true ↔ meaning = .futureVersion) ∧
    ∀ identity, hydrated.cached = some identity ↔ meaning = .live identity

/-- A forked account whose rows have no cycle, and whose leaves and stored head leave no
doubt about the version: the leaf elected is of a newer one, or no leaf is, and neither is
the stored head where it stands in for a leaf this device cannot decrypt. -/
def UnmixedFork (vdk : VdkKey) (chain : VdkChain) (revisions : List RevisionRow)
    (account : AccountRow) : Prop :=
  (∀ row ∈ readRevisionRows revisions account.accountId,
      Rooted (readRevisionRows revisions account.accountId) row) ∧
    ∀ canonical, CanonicalLeaf (readRevisionRows revisions account.accountId) canonical →
      canonical.meaning vdk chain = .futureVersion ∨
      (∀ leaf, IsLeaf (readRevisionRows revisions account.accountId) leaf →
          leaf.meaning vdk chain ≠ .futureVersion) ∧
        (canonical.meaning vdk chain = .placeholderNonce → ∀ head,
          IsStoredHead revisions account head → head.meaning vdk chain ≠ .futureVersion)

/-- The accounts hydration gets right. -/
def Unmixed (vdk : VdkKey) (chain : VdkChain) (revisions : List RevisionRow)
    (account : AccountRow) : Prop :=
  1 < (accountHeadRows revisions account.accountId).length →
    UnmixedFork vdk chain revisions account

/-! ## What hydration does with the leaves -/

variable {revisions : List RevisionRow} {account : AccountRow}

theorem readRevisionRows_nodup (unique : (revisions.map RevisionRow.revisionId).Nodup)
    (accountId : AccountId) :
    ((readRevisionRows revisions accountId).map RevisionRow.revisionId).Nodup := by
  apply ((List.perm_insertionSort _ _).map _).nodup_iff.mpr
  exact unique.sublist (List.filter_sublist.map _)

/-- A head of the head query is a leaf of the graph. -/
theorem isLeaf_of_headRow {accountId : AccountId} {row : RevisionRow}
    (head : row ∈ accountHeadRows revisions accountId) :
    IsLeaf (readRevisionRows revisions accountId) row := by
  simp only [accountHeadRows, isHeadRow, List.mem_filter, Bool.and_eq_true, decide_eq_true_eq,
    Bool.not_eq_true', Option.isNone_iff_eq_none] at head
  obtain ⟨stored, sameAccount, ⟨kept, unrevoked⟩, childless⟩ := head
  refine ⟨mem_readRevisionRows.mpr ⟨stored, sameAccount, unrevoked⟩, kept, ?_⟩
  rw [List.eq_nil_iff_forall_not_mem]
  intro child member
  rw [RevisionGraph.mem_children] at member
  obtain ⟨listed, parent, -⟩ := member
  obtain ⟨childStored, childAccount, childUnrevoked⟩ := mem_readRevisionRows.mp listed
  have impossible := (List.any_eq_false.mp childless) child childStored
  simp [parent, childAccount, childUnrevoked, sameAccount] at impossible

/-- Decoding leaves that all decode: whether one is of a newer version, and the canonical
leaf's outcome when that one is not. -/
theorem decodeLeaves_eq {decode : RevisionId → Except StoreError HeadDecodeOutcome}
    {means : RevisionId → HeadDecodeOutcome} {canonical : RevisionId}
    {leaves : List RevisionId} (decodes : ∀ leaf ∈ leaves, decode leaf = .ok (means leaf)) :
    decodeLeaves decode canonical leaves =
      .ok (leaves.any fun leaf => means leaf = .futureVersion,
        if canonical ∈ leaves ∧ means canonical ≠ .futureVersion then some (means canonical)
        else none) := by
  induction leaves with
  | nil => rfl
  | cons leaf leaves ih =>
      have first := decodes leaf List.mem_cons_self
      have rest := ih fun later member => decodes later (List.mem_cons_of_mem _ member)
      simp only [decodeLeaves, first, rest, bind, Except.bind, pure, Except.pure]
      apply congrArg Except.ok
      by_cases isCanonical : leaf = canonical
      · subst isCanonical
        by_cases listed : leaf ∈ leaves
        · cases outcome : means leaf <;> simp [outcome, listed]
        · cases outcome : means leaf <;> simp [outcome, listed]
      · have notFirst : canonical ∈ leaf :: leaves ↔ canonical ∈ leaves := by
          simp [Ne.symm isCanonical]
        cases outcome : means leaf <;> simp [outcome, notFirst, isCanonical]

/-- The rows of the account decode to what they say. -/
theorem decodeHeadRow_meaning (keys : TrueKeys ring vdk chain)
    (table : MixedTable ring vaultId revisions account) {row : RevisionRow}
    (stored : row ∈ revisions) (sameAccount : row.accountId = account.accountId) :
    decodeHeadRow revisions vaultId vdk chain account.accountId row.revisionId =
      .ok (row.meaning vdk chain) := by
  rw [decodeHeadRow, ← sameAccount, findRevision_of_mem table.unique stored]
  exact decodeRow_meaning keys (table.written row stored)

/-- How hydration ends, by what the canonical leaf and the stored head say. -/
def settle (upgrade : Bool) : (canonical head : HeadDecodeOutcome) → Except StoreError Hydrated
  | .live identity, _ => .ok ⟨upgrade, some identity⟩
  | .placeholderNonce, .live identity => .ok ⟨upgrade, some identity⟩
  | .placeholderNonce, .futureVersion => .error .unreachableCode
  | _, _ => .ok ⟨upgrade, none⟩

/-- An account with one head hydrates to what its stored head says. -/
theorem hydrateAccount_unforked (keys : TrueKeys ring vdk chain)
    (table : MixedTable ring vaultId revisions account)
    (single : (accountHeadRows revisions account.accountId).length ≤ 1) {head : RevisionRow}
    (isHead : IsStoredHead revisions account head) :
    ∃ hydrated, hydrateAccount revisions vaultId vdk chain account = .ok hydrated ∧
      hydrated.Shows (head.meaning vdk chain) := by
  obtain ⟨stored, sameAccount, pointer⟩ := isHead
  have decoded := decodeHeadRow_meaning keys table stored sameAccount
  rw [pointer] at decoded
  have heads : headsToDecode revisions account =
      .ok (account.headRevisionId, [account.headRevisionId]) := by
    rw [headsToDecode, if_neg (by omega)]
  unfold hydrateAccount
  simp only [heads, decodeLeaves, decoded, bind, Except.bind, pure, Except.pure]
  cases meaning : head.meaning vdk chain <;>
    simp [Hydrated.Shows]

/-- A forked account without a cycle is settled by its canonical leaf and its stored head,
and flagged when any leaf is of a newer version. -/
theorem hydrateAccount_forked (keys : TrueKeys ring vdk chain)
    (table : MixedTable ring vaultId revisions account)
    (forked : 1 < (accountHeadRows revisions account.accountId).length)
    (rooted : ∀ row ∈ readRevisionRows revisions account.accountId,
      Rooted (readRevisionRows revisions account.accountId) row)
    {head : RevisionRow} (isHead : IsStoredHead revisions account head) :
    ∃ canonical upgrade,
      CanonicalLeaf (readRevisionRows revisions account.accountId) canonical ∧
      (upgrade = true ↔ ∃ leaf, IsLeaf (readRevisionRows revisions account.accountId) leaf ∧
        leaf.meaning vdk chain = .futureVersion) ∧
      hydrateAccount revisions vaultId vdk chain account =
        settle upgrade (canonical.meaning vdk chain) (head.meaning vdk chain) := by
  have uniqueRows := readRevisionRows_nodup table.unique account.accountId
  rcases RevisionGraph.build_cases (readRevisionRows revisions account.accountId) with
    ⟨repeated, -⟩ | ⟨-, cyclic, -⟩ | ⟨-, -, graph, built, heads⟩
  · exact absurd uniqueRows repeated
  · exact absurd rooted cyclic
  obtain ⟨headRow, listed⟩ := List.exists_mem_of_length_pos (Nat.zero_lt_of_lt forked)
  obtain ⟨canonical, isCanonical, elected⟩ :=
    RevisionGraph.canonicalLeaf_of_build heads (isLeaf_of_headRow listed)
  have chosen : headsToDecode revisions account = .ok (canonical.revisionId, graph.heads) := by
    rw [headsToDecode, if_pos forked, built]
    simp [elected, bind, Except.bind, pure, Except.pure]
  -- Ids are looked up once: each leaf's id says what its row says.
  let means : RevisionId → HeadDecodeOutcome := fun id =>
    ((findRevision revisions account.accountId id).map
      (RevisionRow.meaning vdk chain)).getD .placeholderNonce
  have means_row : ∀ row ∈ revisions, row.accountId = account.accountId →
      means row.revisionId = row.meaning vdk chain := by
    intro row stored sameAccount
    have found := findRevision_of_mem table.unique stored
    rw [sameAccount] at found
    simp only [means, found, Option.map_some, Option.getD_some]
  have decodes : ∀ leaf ∈ graph.heads,
      decodeHeadRow revisions vaultId vdk chain account.accountId leaf = .ok (means leaf) := by
    intro leaf member
    obtain ⟨row, ⟨inRows, -⟩, rfl⟩ := (heads leaf).mp member
    obtain ⟨stored, sameAccount, -⟩ := mem_readRevisionRows.mp inRows
    rw [means_row row stored sameAccount]
    exact decodeHeadRow_meaning keys table stored sameAccount
  obtain ⟨canonicalStored, canonicalAccount, -⟩ :=
    mem_readRevisionRows.mp isCanonical.1.1
  obtain ⟨stored, sameAccount, pointer⟩ := isHead
  have decodedHead := decodeHeadRow_meaning keys table stored sameAccount
  rw [pointer] at decodedHead
  refine ⟨canonical, graph.heads.any fun leaf => means leaf = .futureVersion, isCanonical, ?_, ?_⟩
  · rw [List.any_eq_true]
    constructor
    · rintro ⟨leaf, member, future⟩
      obtain ⟨row, isLeaf, rfl⟩ := (heads leaf).mp member
      obtain ⟨rowStored, rowAccount, -⟩ := mem_readRevisionRows.mp isLeaf.1
      refine ⟨row, isLeaf, ?_⟩
      rw [← means_row row rowStored rowAccount]
      exact of_decide_eq_true future
    · rintro ⟨row, isLeaf, future⟩
      obtain ⟨rowStored, rowAccount, -⟩ := mem_readRevisionRows.mp isLeaf.1
      refine ⟨row.revisionId, (heads _).mpr ⟨row, isLeaf, rfl⟩, ?_⟩
      rw [means_row row rowStored rowAccount, future]
      rfl
  · have inHeads : canonical.revisionId ∈ graph.heads :=
      (heads _).mpr ⟨canonical, isCanonical.1, rfl⟩
    have canonicalMeans := means_row canonical canonicalStored canonicalAccount
    unfold hydrateAccount
    simp only [chosen, decodeLeaves_eq decodes, inHeads, canonicalMeans, true_and, bind,
      Except.bind]
    generalize (graph.heads.any fun leaf => decide (means leaf = .futureVersion)) = upgrade
    by_cases same : account.headRevisionId = canonical.revisionId
    · -- The stored head is the canonical leaf, so both say the same.
      have sameRow : head = canonical :=
        List.inj_on_of_nodup_map table.unique stored canonicalStored (pointer.trans same)
      subst sameRow
      cases head.meaning vdk chain <;> simp [settle, same, pure, Except.pure]
    · cases canonical.meaning vdk chain with
      | placeholderNonce =>
          cases meaning : head.meaning vdk chain <;>
            simp [settle, same, decodedHead, meaning, pure, Except.pure]
      | live identity => simp [settle, pure, Except.pure]
      | tombstone => simp [settle, pure, Except.pure]
      | futureVersion => simp [settle, pure, Except.pure]

theorem IsStoredHead.eq (table : MixedTable ring vaultId revisions account)
    {first second : RevisionRow} (one : IsStoredHead revisions account first)
    (two : IsStoredHead revisions account second) : first = second :=
  List.inj_on_of_nodup_map table.unique one.1 two.1 (one.2.2.trans two.2.2.symm)

/-- A forked account is shown from one row. -/
theorem shown_forked (table : MixedTable ring vaultId revisions account)
    (forked : 1 < (accountHeadRows revisions account.accountId).length)
    {canonical head row : RevisionRow}
    (isCanonical : CanonicalLeaf (readRevisionRows revisions account.accountId) canonical)
    (isHead : IsStoredHead revisions account head) :
    Shown vdk chain revisions account row ↔
      row = if canonical.meaning vdk chain = .placeholderNonce then head else canonical := by
  have unique := readRevisionRows_nodup table.unique account.accountId
  constructor
  · intro shown
    cases shown with
    | single one _ => omega
    | canonical _ isLeaf decodes =>
        obtain rfl := isLeaf.eq unique isCanonical
        rw [if_neg decodes]
    | fallback _ isLeaf skipped isStored =>
        obtain rfl := isLeaf.eq unique isCanonical
        rw [if_pos skipped]
        exact isStored.eq table isHead
  · intro equal
    subst equal
    split
    · next skipped => exact .fallback forked isCanonical skipped isHead
    · next decodes => exact .canonical forked isCanonical decodes

/-- Hydration with a cycle among the rows of a forked account is refused. -/
theorem hydrateAccount_cyclic
    (forked : 1 < (accountHeadRows revisions account.accountId).length)
    (cyclic : ¬ ∀ row ∈ readRevisionRows revisions account.accountId,
      Rooted (readRevisionRows revisions account.accountId) row) (hydrated : Hydrated) :
    hydrateAccount revisions vaultId vdk chain account ≠ .ok hydrated := by
  intro done
  obtain ⟨chosen, listed, -⟩ := Fallible.bind_eq_ok_iff.mp done
  rw [headsToDecode, if_pos forked] at listed
  obtain ⟨graph, built, -⟩ := Fallible.bind_eq_ok_iff.mp listed
  rcases RevisionGraph.build_cases (readRevisionRows revisions account.accountId) with
    ⟨-, refused⟩ | ⟨-, -, refused⟩ | ⟨-, rooted, -⟩
  · rw [refused] at built
    cases built
  · rw [refused] at built
    cases built
  · exact cyclic rooted

/-- A settled hydration shows the row when its flag is that row's. -/
theorem settle_shows_iff (upgrade : Bool) (canonical head : HeadDecodeOutcome) :
    (∃ hydrated, settle upgrade canonical head = .ok hydrated ∧
      hydrated.Shows (if canonical = .placeholderNonce then head else canonical)) ↔
      (canonical = .futureVersion ∧ upgrade = true) ∨
        (canonical ≠ .futureVersion ∧ upgrade = false ∧
          (canonical = .placeholderNonce → head ≠ .futureVersion)) := by
  cases canonical with
  | placeholderNonce => cases head <;> simp [settle, Hydrated.Shows]
  | live identity => simp [settle, Hydrated.Shows]
  | tombstone => simp [settle, Hydrated.Shows]
  | futureVersion => simp [settle, Hydrated.Shows]

/-- An account hydrates to the row it is shown from exactly when nothing about its version
is in doubt. -/
theorem hydrateAccount_shows_iff (keys : TrueKeys ring vdk chain)
    (table : MixedTable ring vaultId revisions account) :
    (∃ hydrated, hydrateAccount revisions vaultId vdk chain account = .ok hydrated ∧
      ∃ row, Shown vdk chain revisions account row ∧
        hydrated.Shows (row.meaning vdk chain)) ↔
      Unmixed vdk chain revisions account := by
  obtain ⟨head, isHead⟩ := table.headStored
  by_cases forked : 1 < (accountHeadRows revisions account.accountId).length
  · by_cases rooted : ∀ row ∈ readRevisionRows revisions account.accountId,
        Rooted (readRevisionRows revisions account.accountId) row
    · obtain ⟨canonical, upgrade, isCanonical, flag, settled⟩ :=
        hydrateAccount_forked keys table forked rooted isHead
      have unique := readRevisionRows_nodup table.unique account.accountId
      have shownMeaning : ∀ row, Shown vdk chain revisions account row →
          row.meaning vdk chain = if canonical.meaning vdk chain = .placeholderNonce then
            head.meaning vdk chain else canonical.meaning vdk chain := by
        intro row shown
        rw [(shown_forked table forked isCanonical isHead).mp shown]
        split <;> rfl
      have shows : (∃ hydrated, hydrateAccount revisions vaultId vdk chain account =
          .ok hydrated ∧ ∃ row, Shown vdk chain revisions account row ∧
            hydrated.Shows (row.meaning vdk chain)) ↔
          ∃ hydrated, settle upgrade (canonical.meaning vdk chain) (head.meaning vdk chain) =
            .ok hydrated ∧ hydrated.Shows (if canonical.meaning vdk chain = .placeholderNonce
              then head.meaning vdk chain else canonical.meaning vdk chain) := by
        rw [settled]
        constructor
        · rintro ⟨hydrated, done, row, shown, right⟩
          rw [shownMeaning row shown] at right
          exact ⟨hydrated, done, right⟩
        · rintro ⟨hydrated, done, right⟩
          obtain ⟨row, shown⟩ : ∃ row, Shown vdk chain revisions account row :=
            ⟨_, (shown_forked table forked isCanonical isHead).mpr rfl⟩
          refine ⟨hydrated, done, row, shown, ?_⟩
          rw [shownMeaning row shown]
          exact right
      rw [shows, settle_shows_iff]
      constructor
      · intro settledRight _
        refine ⟨rooted, ?_⟩
        intro other isOther
        obtain rfl := isOther.eq unique isCanonical
        rcases settledRight with ⟨future, -⟩ | ⟨-, unflagged, known⟩
        · exact .inl future
        · refine .inr ⟨?_, ?_⟩
          · intro leaf isLeaf future
            rw [flag.mpr ⟨leaf, isLeaf, future⟩] at unflagged
            cases unflagged
          · intro skipped stored isStored
            obtain rfl := isStored.eq table isHead
            exact known skipped
      · intro unmixed
        rcases (unmixed forked).2 canonical isCanonical with future | ⟨leavesKnown, headKnown⟩
        · exact .inl ⟨future, flag.mpr ⟨canonical, isCanonical.1, future⟩⟩
        · refine .inr ⟨leavesKnown canonical isCanonical.1, ?_, fun skipped =>
            headKnown skipped head isHead⟩
          apply Bool.eq_false_iff.mpr
          intro flagged
          obtain ⟨leaf, isLeaf, future⟩ := flag.mp flagged
          exact leavesKnown leaf isLeaf future
    · constructor
      · intro good
        obtain ⟨hydrated, done, -⟩ := good
        exact absurd done (hydrateAccount_cyclic forked rooted hydrated)
      · intro unmixed
        exact absurd (unmixed forked).1 rooted
  · have single : (accountHeadRows revisions account.accountId).length ≤ 1 := by omega
    constructor
    · intro _ impossible
      exact absurd impossible forked
    · intro _
      obtain ⟨hydrated, done, shows⟩ := hydrateAccount_unforked keys table single isHead
      exact ⟨hydrated, done, head, .single single isHead, shows⟩

end

end Pangolin.Store
