import Mathlib.Data.List.Dedup
import Pangolin.Lib.Fallible
import Pangolin.Store.Ingest
import Pangolin.Store.RevisionIndex

/-!
# Conflicts

The head query stands in the source five times, and beside it the graph computes heads of its
own.  `list_conflicts` takes the accounts from the query and their branches from the graph.
The two agree on every table, but for one corner: the graph takes the all-zero parent for no
parent, and the query takes it for the row with the all-zero id, should there be one.
-/

namespace Pangolin.Store

open Symbolic Crypto

/-! ## The conflict list -/

/-- Ids in byte order. -/
def AccountId.before (first second : AccountId) : Prop := first.raw ≤ second.raw

instance : DecidableRel AccountId.before := fun first second =>
  inferInstanceAs (Decidable (first.raw ≤ second.raw))

def RevisionId.before (first second : RevisionId) : Prop := first.raw ≤ second.raw

instance : DecidableRel RevisionId.before := fun first second =>
  inferInstanceAs (Decidable (first.raw ≤ second.raw))

/-- `all_forked_accounts`: the head rows grouped by account, the groups of more than one. -/
def allForkedAccounts (log : RevisionTables) : List AccountId :=
  let heads := log.revisions.filter (isHeadRow log.revisions)
  ((heads.map RevisionRow.accountId).dedup.filter fun accountId =>
    1 < (heads.filter fun row => row.accountId = accountId).length).insertionSort
      AccountId.before

/-- `list_frozen_accounts`. -/
def listFrozenAccounts (log : RevisionTables) : List AccountId :=
  ((log.accounts.filter AccountRow.frozenPendingResolve).map AccountRow.accountId).insertionSort
    AccountId.before

/-- `revision_graph`. -/
def revisionGraph (log : RevisionTables) (accountId : AccountId) :
    Except StoreError RevisionIndex :=
  RevisionIndex.build (readRevisionRows log.revisions accountId)

structure ConflictBranchSummary where
  revisionId : RevisionId
  parent : Option RevisionId
  deviceId : DeviceId
  observedAtBlock : Option Nat
  schemaVersion : Nat
  isTombstone : Bool
  onCanonicalChain : Bool
  deriving Repr, DecidableEq

structure ConflictReport where
  accountId : AccountId
  branches : List ConflictBranchSummary
  frozen : Bool
  deriving Repr, DecidableEq

/-- `read_observed_at_block`. -/
def readObservedAtBlock (log : RevisionTables) (accountId : AccountId)
    (revisionId : RevisionId) : Option Nat :=
  match findRevision log.revisions accountId revisionId with
  | none => none
  | some row => row.observedAtBlock.or (row.chainAnchor.map ChainAnchor.blockNumber)

/-- The head is the canonical one or above it. -/
def onCanonicalChain (index : RevisionIndex) (headId : RevisionId) : Bool :=
  match index.canonicalHead with
  | none => false
  | some head => headId = head || ((index.ancestors head).getD []).contains headId

/-- The summary of one head. -/
def branchSummary (log : RevisionTables) (accountId : AccountId) (index : RevisionIndex)
    (headId : RevisionId) : Except StoreError ConflictBranchSummary :=
  match index.get headId with
  | none => .error (.corrupted "head revision_id missing from graph index")
  | some row => .ok {
      revisionId := headId
      parent := if row.parent = .genesisParent then none else some row.parent
      deviceId := row.deviceId
      observedAtBlock := readObservedAtBlock log accountId headId
      schemaVersion := row.schemaVersion
      isTombstone := row.isTombstone
      onCanonicalChain := onCanonicalChain index headId }

/-- One round of the loop of `list_conflicts`. -/
def conflictReport (log : RevisionTables) (frozen : List AccountId) (accountId : AccountId) :
    Except StoreError ConflictReport := do
  let index ← revisionGraph log accountId
  let branches ← (index.heads.insertionSort RevisionId.before).mapM
    (branchSummary log accountId index)
  return ⟨accountId, branches, frozen.contains accountId⟩

/-- `list_conflicts`. -/
def listConflicts (log : RevisionTables) : Except StoreError (List ConflictReport) :=
  let forked := allForkedAccounts log
  let frozen := listFrozenAccounts log
  ((forked ++ frozen).dedup.insertionSort AccountId.before).mapM (conflictReport log frozen)

/-! ## One head set -/

/-- A row of the account that has not been revoked. -/
def Live (accountId : AccountId) (row : RevisionRow) : Prop :=
  row.accountId = accountId ∧ row.revoked = false

/-- The reserved id of the genesis parent is not a live head that a genesis row would hang
below. -/
def GenesisIdFree (revisions : List RevisionRow) (accountId : AccountId) : Prop :=
  (∃ row ∈ revisions, Live accountId row ∧ row.supersededBy = none ∧
    row.revisionId = .genesisParent) →
    ∀ row ∈ revisions, Live accountId row → row.parent ≠ .genesisParent

theorem mem_readRevisionRows {revisions : List RevisionRow} {accountId : AccountId}
    {row : RevisionRow} :
    row ∈ readRevisionRows revisions accountId ↔ row ∈ revisions ∧ Live accountId row := by
  rw [readRevisionRows, List.mem_insertionSort, List.mem_filter, Live]
  simp

section Account

variable {log : RevisionTables} {accountId : AccountId} {index : RevisionIndex}

/-- The query and the graph see the same children of a live head. -/
theorem children_eq_nil_iff (free : GenesisIdFree log.revisions accountId) {row : RevisionRow}
    (stored : row ∈ log.revisions) (live : Live accountId row) (kept : row.supersededBy = none) :
    RevisionGraph.children (readRevisionRows log.revisions accountId) row.revisionId = [] ↔
      hasUnrevokedChild log.revisions row = false := by
  have member := mem_readRevisionRows.mpr ⟨stored, live⟩
  rw [List.eq_nil_iff_forall_not_mem, hasUnrevokedChild, List.any_eq_false]
  simp only [RevisionIndex.mem_children_iff member]
  constructor
  · intro childless child childStored isChild
    simp only [Bool.and_eq_true, decide_eq_true_eq, Bool.not_eq_true'] at isChild
    obtain ⟨⟨isParent, sameAccount⟩, unrevoked⟩ := isChild
    have childLive : Live accountId child := ⟨sameAccount.trans live.1, unrevoked⟩
    apply childless child
    refine ⟨member, mem_readRevisionRows.mpr ⟨childStored, childLive⟩, ?_, isParent.symm⟩
    intro genesis
    exact free ⟨row, stored, live, kept, isParent.symm.trans genesis⟩ child childStored childLive
      genesis
  · intro childless child edge
    obtain ⟨childStored, childLive⟩ := mem_readRevisionRows.mp edge.2.1
    apply childless child childStored
    simp only [Bool.and_eq_true, decide_eq_true_eq, Bool.not_eq_true']
    exact ⟨⟨edge.2.2.2.symm, childLive.1.trans live.1.symm⟩, childLive.2⟩

/-- The rows of the head query are the leaves of the graph. -/
theorem accountHeadRows_perm (free : GenesisIdFree log.revisions accountId)
    (built : revisionGraph log accountId = .ok index) :
    (accountHeadRows log.revisions accountId).Perm
      (RevisionGraph.leaves (readRevisionRows log.revisions accountId) index.revisions) := by
  have facts := RevisionIndex.built_of_build built
  have topo : index.revisions.Perm
      (log.revisions.filter fun row => row.accountId = accountId && !row.revoked) :=
    facts.perm.trans (List.perm_insertionSort _ _)
  refine List.Perm.symm ((List.perm_insertionSort _ _).trans ((topo.filter _).trans ?_))
  rw [List.filter_filter, accountHeadRows]
  refine List.Perm.of_eq (List.filter_congr fun row stored => ?_)
  by_cases live : Live accountId row
  · by_cases kept : row.supersededBy = none
    · have same := children_eq_nil_iff free stored live kept
      rw [← List.isEmpty_iff] at same
      cases childless : hasUnrevokedChild log.revisions row with
      | false => simp [isHeadRow, live.1, live.2, kept, childless, same.mpr childless]
      | true =>
          have notEmpty : (RevisionGraph.children (readRevisionRows log.revisions accountId)
              row.revisionId).isEmpty = false := by
            rw [Bool.eq_false_iff]
            intro empty
            rw [same.mp empty] at childless
            cases childless
          simp [isHeadRow, childless, notEmpty]
    · have superseded : row.supersededBy.isNone = false := by
        rw [Bool.eq_false_iff, ne_eq, Option.isNone_iff_eq_none]
        exact kept
      simp [isHeadRow, superseded]
  · by_cases same : row.accountId = accountId
    · have revoked : row.revoked = true := by
        cases flag : row.revoked with
        | true => rfl
        | false => exact absurd ⟨same, flag⟩ live
      simp [isHeadRow, revoked]
    · simp [same]

/-- The sorted query lists the heads of the graph, in their order. -/
theorem sorted_heads_eq (free : GenesisIdFree log.revisions accountId)
    (built : revisionGraph log accountId = .ok index) :
    ((accountHeadRows log.revisions accountId).insertionSort RevisionRow.before).map
      RevisionRow.revisionId = index.heads := by
  have facts := RevisionIndex.built_of_build built
  have perm := accountHeadRows_perm free built
  have unique : ((RevisionGraph.leaves (readRevisionRows log.revisions accountId)
      index.revisions).map RevisionRow.revisionId).Nodup := by
    rw [← facts.heads_eq]
    exact facts.nodup_heads
  have sorted := RevisionIndex.sort_eq_of_perm unique perm.symm
  rw [facts.heads_eq, ← sorted, RevisionGraph.leaves]
  have total : Std.Total RevisionRow.before := ⟨RevisionIndex.before_total⟩
  have transitive : IsTrans RevisionRow RevisionRow.before :=
    ⟨fun _ _ _ => RevisionIndex.before_trans⟩
  rw [(List.pairwise_insertionSort RevisionRow.before _).insertionSort_eq]

theorem accountHeads_eq (free : GenesisIdFree log.revisions accountId)
    (built : revisionGraph log accountId = .ok index)
    (known : (log.accounts.any fun account => account.accountId = accountId) = true) :
    accountHeads log accountId = .ok index.heads := by
  rw [accountHeads, if_pos known, sorted_heads_eq free built]

/-- The unsorted copies of the query give the same set. -/
theorem mem_accountHeadRows_iff (free : GenesisIdFree log.revisions accountId)
    (built : revisionGraph log accountId = .ok index) (id : RevisionId) :
    id ∈ (accountHeadRows log.revisions accountId).map RevisionRow.revisionId ↔
      id ∈ index.heads := by
  rw [← sorted_heads_eq free built]
  simp only [List.mem_map, List.mem_insertionSort]

theorem length_accountHeadRows (free : GenesisIdFree log.revisions accountId)
    (built : revisionGraph log accountId = .ok index) :
    (accountHeadRows log.revisions accountId).length = index.heads.length := by
  rw [← sorted_heads_eq free built, List.length_map, List.length_insertionSort]

/-! ## Branches -/

/-- Whatever is on the way to a row, but for the row itself, has a child. -/
theorem child_of_mem_chain {rows : List RevisionRow} {chain : List RevisionId}
    {id above : RevisionId} (down : RevisionIndex.ParentChain rows chain id)
    (member : above ∈ chain) :
    above = id ∨ ∃ row child, row.revisionId = above ∧ RevisionIndex.InListParent rows row child := by
  induction down with
  | root _ _ => exact .inl (List.mem_singleton.mp member)
  | @child chain parent row _ edge ih =>
      rcases List.mem_append.mp member with earlier | last
      · rcases ih earlier with rfl | hasChild
        · exact .inr ⟨parent, row, rfl, edge⟩
        · exact .inr hasChild
      · exact .inl (List.mem_singleton.mp last)

/-- Among the heads only the canonical one is on the canonical chain. -/
theorem onCanonicalChain_iff {rows : List RevisionRow} (facts : RevisionIndex.Built rows index)
    {head canonical : RevisionId} (elected : index.canonicalHead = some canonical)
    (isHead : head ∈ index.heads) : onCanonicalChain index head = true ↔ head = canonical := by
  have reached := facts.ancestors_ends canonical
  obtain ⟨chain, ends, down | ⟨-, rfl⟩⟩ := reached
  · simp only [onCanonicalChain, elected, ends, Option.getD_some, Bool.or_eq_true,
      decide_eq_true_eq, List.contains_iff_mem]
    constructor
    · rintro (same | above)
      · exact same
      · rcases child_of_mem_chain down.2 above with same | ⟨row, child, same, edge⟩
        · exact same
        · obtain ⟨leaf, stored, isLeaf, -, childless⟩ := (facts.mem_heads_iff head).mp isHead
          have leafRow : row = leaf :=
            RevisionGraph.eq_of_revisionId facts.unique edge.1 stored (same.trans isLeaf.symm)
          rw [leafRow] at edge
          exact absurd edge (childless child)
    · exact .inl
  · simp [onCanonicalChain, elected, ends]

/-- The report on an account whose graph builds: its branches are the heads, and one of them
is on the canonical chain. -/
theorem conflictReport_ok (built : revisionGraph log accountId = .ok index)
    (frozen : List AccountId) :
    ∃ branches, conflictReport log frozen accountId =
        .ok ⟨accountId, branches, frozen.contains accountId⟩ ∧
      (branches.map ConflictBranchSummary.revisionId).Perm index.heads ∧
      (branches ≠ [] → (branches.filter ConflictBranchSummary.onCanonicalChain).length = 1) := by
  have facts := RevisionIndex.built_of_build built
  have sorted := List.perm_insertionSort RevisionId.before index.heads
  obtain ⟨branches, looped, each⟩ : ∃ branches,
      (index.heads.insertionSort RevisionId.before).mapM (branchSummary log accountId index) =
        .ok branches ∧
      List.Forall₂ (fun head branch => branch.revisionId = head ∧
        branch.onCanonicalChain = onCanonicalChain index head)
        (index.heads.insertionSort RevisionId.before) branches := by
    apply Fallible.exists_mapM_ok
    intro head member
    obtain ⟨row, stored, rfl, -⟩ := (facts.mem_heads_iff head).mp (sorted.mem_iff.mp member)
    simp only [branchSummary, facts.get_of_mem stored]
    exact ⟨_, rfl, rfl, rfl⟩
  have ids : branches.map ConflictBranchSummary.revisionId =
      index.heads.insertionSort RevisionId.before := by
    apply Eq.symm
    rw [← List.forall₂_eq_eq_eq, List.forall₂_map_right_iff]
    exact each.imp fun _ _ facts => facts.1.symm
  have flags : branches.map ConflictBranchSummary.onCanonicalChain =
      (index.heads.insertionSort RevisionId.before).map (onCanonicalChain index) := by
    apply Eq.symm
    rw [← List.forall₂_eq_eq_eq, List.forall₂_map_right_iff, List.forall₂_map_left_iff]
    exact each.imp fun _ _ facts => facts.2.symm
  refine ⟨branches, ?_, ids ▸ sorted, ?_⟩
  · unfold conflictReport
    rw [built]
    simp only [bind, Except.bind, looped]
    rfl
  · intro some_
    have headed : index.heads ≠ [] := by
      intro empty
      rw [empty] at ids
      exact some_ (List.map_eq_nil_iff.mp ids)
    obtain ⟨canonical, elected⟩ : ∃ canonical, index.canonicalHead = some canonical := by
      rw [← Option.ne_none_iff_exists']
      exact (RevisionIndex.canonicalHead_eq_none_iff _).not.mpr headed
    have member := RevisionGraph.canonicalHead_mem elected
    calc (branches.filter ConflictBranchSummary.onCanonicalChain).length
        = (branches.map ConflictBranchSummary.onCanonicalChain).countP id := by
          rw [List.countP_map, List.countP_eq_length_filter]
          rfl
      _ = (index.heads.insertionSort RevisionId.before).countP (onCanonicalChain index) := by
          rw [flags, List.countP_map]
          rfl
      _ = index.heads.countP (onCanonicalChain index) := sorted.countP_eq _
      _ = index.heads.count canonical := by
          rw [List.count]
          apply List.countP_congr
          intro head isHead
          rw [onCanonicalChain_iff facts elected isHead, beq_iff_eq]
      _ = 1 := List.count_eq_one_of_mem facts.nodup_heads member

end Account

/-! ## The whole table -/

/-- Sorting ids that differ leaves them in strictly ascending order. -/
theorem sorted_lt {ids : List AccountId} (unique : ids.Nodup) :
    (ids.insertionSort AccountId.before).Pairwise fun first second => first.raw < second.raw := by
  have total : Std.Total AccountId.before := ⟨fun first second => Nat.le_total first.raw second.raw⟩
  have transitive : IsTrans AccountId AccountId.before := ⟨fun _ _ _ => Nat.le_trans⟩
  have sorted := List.pairwise_insertionSort AccountId.before ids
  have apart := (List.perm_insertionSort AccountId.before ids).nodup_iff.mpr unique
  apply (sorted.and apart).imp
  intro first second facts
  apply Nat.lt_of_le_of_ne facts.1
  intro same
  apply facts.2
  cases first
  cases second
  exact congrArg _ same

theorem allForkedAccounts_sorted (log : RevisionTables) :
    (allForkedAccounts log).Pairwise fun first second => first.raw < second.raw :=
  sorted_lt ((List.nodup_dedup _).filter _)

/-- The accounts the grouping keeps have more than one head row. -/
theorem mem_allForkedAccounts {log : RevisionTables} {accountId : AccountId} :
    accountId ∈ allForkedAccounts log ↔
      1 < (accountHeadRows log.revisions accountId).length := by
  have group : (log.revisions.filter (isHeadRow log.revisions)).filter
      (fun row => row.accountId = accountId) = accountHeadRows log.revisions accountId := by
    rw [List.filter_filter, accountHeadRows]
  rw [allForkedAccounts, List.mem_insertionSort, List.mem_filter, group, List.mem_dedup,
    decide_eq_true_eq]
  constructor
  · exact And.right
  · intro several
    refine ⟨?_, several⟩
    obtain ⟨row, member⟩ := List.exists_mem_of_length_pos (Nat.zero_lt_of_lt several)
    obtain ⟨isHead, same⟩ := List.mem_filter.mp (group ▸ member)
    exact List.mem_map.mpr ⟨row, isHead, of_decide_eq_true same⟩

/-- The account is marked frozen. -/
def Frozen (log : RevisionTables) (accountId : AccountId) : Prop :=
  ∃ account ∈ log.accounts, account.frozenPendingResolve = true ∧ account.accountId = accountId

theorem mem_listFrozenAccounts {log : RevisionTables} {accountId : AccountId} :
    accountId ∈ listFrozenAccounts log ↔ Frozen log accountId := by
  simp only [listFrozenAccounts, List.mem_insertionSort, List.mem_map, List.mem_filter, Frozen,
    and_assoc]

/-! ## Agreement -/

/-- What the copies of the head query and the graph of one account agree on. -/
structure HeadsAgree (log : RevisionTables) (accountId : AccountId) (index : RevisionIndex) :
    Prop where
  /-- `account_heads`, in order. -/
  listed : accountHeads log accountId =
    if log.accounts.any fun account => account.accountId = accountId then .ok index.heads
    else .error .accountNotFound
  /-- `account_heads_inline`. -/
  inline : ((accountHeadRows log.revisions accountId).map RevisionRow.revisionId).Perm index.heads
  /-- `clear_frozen` takes a head. -/
  cleared : ∀ (vault : Vault) (chosen : RevisionId) (nowMs : Int) (now : Nat),
    vault.disk.log = log →
      ((clearFrozen vault accountId chosen nowMs now).2 = .ok () ↔
        (findAccount log accountId).isSome ∧ chosen ∈ index.heads)
  /-- `resolve_fork_commit` marks the heads it does not keep. -/
  superseded : ∀ keep merge : RevisionId, supersedeLosers log.revisions accountId keep merge =
    log.revisions.map fun row =>
      if row.accountId = accountId ∧ row.revisionId ∈ index.heads ∧ row.revisionId ≠ keep then
        { row with supersededBy := some merge }
      else
        row
  /-- `all_forked_accounts`. -/
  forked : accountId ∈ allForkedAccounts log ↔ 1 < index.heads.length

/-- What `list_conflicts` reports, in the terms of the graphs. -/
structure ReportsAgree (log : RevisionTables) (reports : List ConflictReport) : Prop where
  sorted : (reports.map ConflictReport.accountId).Pairwise
    fun first second => first.raw < second.raw
  reported : ∀ accountId, accountId ∈ reports.map ConflictReport.accountId ↔
    (∃ index, revisionGraph log accountId = .ok index ∧ 1 < index.heads.length) ∨
      Frozen log accountId
  flagged : ∀ report ∈ reports, report.frozen = true ↔ Frozen log report.accountId
  branches : ∀ report ∈ reports, ∃ index, revisionGraph log report.accountId = .ok index ∧
    (report.branches.map ConflictBranchSummary.revisionId).Perm index.heads ∧
    (report.branches ≠ [] →
      (report.branches.filter ConflictBranchSummary.onCanonicalChain).length = 1)

section Agreement

variable {log : RevisionTables} {accountId : AccountId} {index : RevisionIndex}

theorem findRevision_isSome_of_head {id : RevisionId}
    (isHead : id ∈ (accountHeadRows log.revisions accountId).map RevisionRow.revisionId) :
    (findRevision log.revisions accountId id).isSome = true := by
  obtain ⟨row, member, rfl⟩ := List.mem_map.mp isHead
  rw [accountHeadRows, List.mem_filter] at member
  rw [findRevision, List.find?_isSome]
  refine ⟨row, member.1, ?_⟩
  simp_all

/-- `clear_frozen` succeeds on the rows of its own copy of the query. -/
theorem clearFrozen_ok_iff (vault : Vault) (accountId : AccountId) (chosen : RevisionId)
    (nowMs : Int) (now : Nat) :
    (clearFrozen vault accountId chosen nowMs now).2 = .ok () ↔
      (findAccount vault.disk.log accountId).isSome ∧
        chosen ∈ (accountHeadRows vault.disk.log.revisions accountId).map
          RevisionRow.revisionId := by
  unfold clearFrozen
  simp only [maybeExpireActiveSession_disk]
  constructor
  · intro cleared
    split_ifs at cleared with unknown missing notHead
    rw [Option.isNone_iff_eq_none, ← ne_eq, Option.ne_none_iff_isSome] at unknown
    exact ⟨unknown, notHead⟩
  · intro facts
    have stored := findRevision_isSome_of_head facts.2
    rw [if_neg (by simp [Option.isNone_iff_eq_none, ← Option.isSome_iff_ne_none, facts.1]),
      if_neg (by simp [Option.isNone_iff_eq_none, ← Option.isSome_iff_ne_none, stored]),
      if_neg (not_not.mpr facts.2)]

theorem headsAgree (free : GenesisIdFree log.revisions accountId)
    (built : revisionGraph log accountId = .ok index) : HeadsAgree log accountId index := by
  have same := mem_accountHeadRows_iff free built
  constructor
  case listed => rw [accountHeads, sorted_heads_eq free built]
  case inline =>
      rw [← sorted_heads_eq free built]
      exact ((List.perm_insertionSort _ _).map _).symm
  case cleared =>
      intro vault chosen nowMs now stored
      rw [clearFrozen_ok_iff, stored, same]
  case superseded =>
      intro keep merge
      simp only [supersedeLosers, same]
  case forked => rw [mem_allForkedAccounts, length_accountHeadRows free built]

/-- A live head with the reserved id is one for the graph alone as soon as the account has a
genesis row. -/
theorem genesisIdFree_of_headsAgree (built : revisionGraph log accountId = .ok index)
    (agree : HeadsAgree log accountId index) : GenesisIdFree log.revisions accountId := by
  rintro ⟨head, stored, live, kept, reserved⟩ row rowStored rowLive genesis
  have facts := RevisionIndex.built_of_build built
  have isLeaf : head.revisionId ∈ index.heads := by
    rw [facts.mem_heads_iff]
    refine ⟨head, mem_readRevisionRows.mpr ⟨stored, live⟩, rfl, kept, ?_⟩
    intro child edge
    exact edge.2.2.1 (edge.2.2.2.symm.trans reserved)
  obtain ⟨listed, member, sameId⟩ := List.mem_map.mp (agree.inline.mem_iff.mpr isLeaf)
  rw [accountHeadRows, List.mem_filter] at member
  obtain ⟨-, isHead⟩ := member
  simp only [isHeadRow, Bool.and_eq_true, decide_eq_true_eq, Bool.not_eq_true'] at isHead
  obtain ⟨ofAccount, -, childless⟩ := isHead
  rw [hasUnrevokedChild, List.any_eq_false] at childless
  apply childless row rowStored
  simp only [Bool.and_eq_true, decide_eq_true_eq, Bool.not_eq_true']
  exact ⟨⟨genesis.trans (reserved.symm.trans sameId.symm), rowLive.1.trans ofAccount.symm⟩,
    rowLive.2⟩

end Agreement

theorem mem_union_iff {log : RevisionTables} {accountId : AccountId} :
    accountId ∈ ((allForkedAccounts log ++ listFrozenAccounts log).dedup.insertionSort
        AccountId.before) ↔
      accountId ∈ allForkedAccounts log ∨ Frozen log accountId := by
  rw [List.mem_insertionSort, List.mem_dedup, List.mem_append, mem_listFrozenAccounts]

/-- Only accounts of the union are reported. -/
theorem mem_union_of_listConflicts {log : RevisionTables} {reports : List ConflictReport}
    (listed : listConflicts log = .ok reports) {accountId : AccountId}
    (reported : accountId ∈ reports.map ConflictReport.accountId) :
    accountId ∈ allForkedAccounts log ∨ Frozen log accountId := by
  obtain ⟨report, member, rfl⟩ := List.mem_map.mp reported
  obtain ⟨source, inUnion, made⟩ := Fallible.step_of_mem_mapM listed member
  obtain ⟨index, -, rest⟩ := Fallible.bind_eq_ok_iff.mp made
  obtain ⟨branches, -, rest⟩ := Fallible.bind_eq_ok_iff.mp rest
  obtain rfl := Except.ok.inj rest
  exact mem_union_iff.mp inUnion

/-- `list_conflicts` where the graphs of all accounts it has to report build. -/
theorem listConflicts_ok {log : RevisionTables}
    (agree : ∀ accountId index, revisionGraph log accountId = .ok index →
      HeadsAgree log accountId index)
    (builds : ∀ accountId, accountId ∈ allForkedAccounts log ∨ Frozen log accountId →
      ∃ index, revisionGraph log accountId = .ok index) :
    ∃ reports, listConflicts log = .ok reports ∧ ReportsAgree log reports := by
  obtain ⟨reports, looped, each⟩ : ∃ reports, listConflicts log = .ok reports ∧
      List.Forall₂ (fun accountId report => report.accountId = accountId)
        ((allForkedAccounts log ++ listFrozenAccounts log).dedup.insertionSort AccountId.before)
        reports := by
    apply Fallible.exists_mapM_ok
    intro accountId member
    obtain ⟨index, built⟩ := builds accountId (mem_union_iff.mp member)
    obtain ⟨branches, reported, -⟩ := conflictReport_ok built (listFrozenAccounts log)
    exact ⟨_, reported, rfl⟩
  have ids : reports.map ConflictReport.accountId =
      (allForkedAccounts log ++ listFrozenAccounts log).dedup.insertionSort
        AccountId.before := by
    apply Eq.symm
    rw [← List.forall₂_eq_eq_eq, List.forall₂_map_right_iff]
    exact each.imp fun _ _ same => same.symm
  have about : ∀ report ∈ reports, report.frozen =
        (listFrozenAccounts log).contains report.accountId ∧
      ∃ index, revisionGraph log report.accountId = .ok index ∧
        (report.branches.map ConflictBranchSummary.revisionId).Perm index.heads ∧
        (report.branches ≠ [] →
          (report.branches.filter ConflictBranchSummary.onCanonicalChain).length = 1) := by
    intro report member
    obtain ⟨accountId, listed, reported⟩ := Fallible.step_of_mem_mapM looped member
    obtain ⟨index, built⟩ := builds accountId (mem_union_iff.mp listed)
    obtain ⟨branches, made, facts⟩ := conflictReport_ok built (listFrozenAccounts log)
    obtain rfl := Except.ok.inj (made.symm.trans reported)
    exact ⟨rfl, index, built, facts⟩
  refine ⟨reports, looped, ?_⟩
  constructor
  case sorted =>
      rw [ids]
      exact sorted_lt (List.nodup_dedup _)
  case reported =>
      intro accountId
      rw [ids, mem_union_iff]
      constructor
      · rintro (forked | frozen)
        · obtain ⟨index, built⟩ := builds accountId (.inl forked)
          exact .inl ⟨index, built, (agree accountId index built).forked.mp forked⟩
        · exact .inr frozen
      · rintro (⟨index, built, several⟩ | frozen)
        · exact .inl ((agree accountId index built).forked.mpr several)
        · exact .inr frozen
  case flagged =>
      intro report member
      rw [(about report member).1, List.contains_iff_mem, mem_listFrozenAccounts]
  case branches =>
      intro report member
      exact (about report member).2

/-- The head query and the graph agree on every table, for every account whose graph builds,
exactly where no such account has a live head with the reserved id beside a live genesis row. -/
theorem head_detectors_agree_iff (log : RevisionTables) :
    ((∀ accountId index, revisionGraph log accountId = .ok index →
        HeadsAgree log accountId index) ∧
      ((allForkedAccounts log).Pairwise fun first second => first.raw < second.raw) ∧
      ((∀ accountId, accountId ∈ allForkedAccounts log ∨ Frozen log accountId →
          ∃ index, revisionGraph log accountId = .ok index) →
        ∃ reports, listConflicts log = .ok reports ∧ ReportsAgree log reports)) ↔
      ∀ accountId index, revisionGraph log accountId = .ok index →
        GenesisIdFree log.revisions accountId := by
  constructor
  · rintro ⟨agree, -⟩ accountId index built
    exact genesisIdFree_of_headsAgree built (agree accountId index built)
  · intro free
    have agree : ∀ accountId index, revisionGraph log accountId = .ok index →
        HeadsAgree log accountId index := fun accountId index built =>
      headsAgree (free accountId index built) built
    exact ⟨agree, allForkedAccounts_sorted log, listConflicts_ok agree⟩

namespace ConflictSample

/-- One account whose only row has the reserved id, and itself for a parent. -/
def reserved : RevisionTables :=
  ⟨[⟨⟨1⟩, 0, 0, false, .genesisParent, false⟩],
    [{ revisionId := .genesisParent, accountId := ⟨1⟩, parent := .genesisParent,
       deviceId := ⟨4⟩, schemaVersion := 1, createdAt := 0, encPayload := .bytes [1],
       encNonce := .placeholder, isTombstone := false }],
    [], []⟩

end ConflictSample

/-- For the query the row is its own child, for the graph it is a genesis row and a head. -/
theorem head_detectors_differ :
    accountHeads ConflictSample.reserved ⟨1⟩ = .ok [] ∧
      (revisionGraph ConflictSample.reserved ⟨1⟩).map (fun index => index.heads) =
        .ok [RevisionId.genesisParent] := by
  decide

end Pangolin.Store
