import Mathlib.Data.Multiset.Basic
import Pangolin.Store.GraphWalk

/-!
# Heads do not read the clock

`created_at` is stamped by the device that writes the row, so two devices that hold the
same revisions hold them under different times and in different orders.  Neither matters
to the head set or to the canonical head: heads are a filter, and a graph is refused or
accepted by which rows its roots reach, whatever the order of the walk.
-/

namespace Pangolin.Store

/-- A row without its `created_at`. -/
def RevisionRow.undated (row : RevisionRow) : RevisionRow := { row with createdAt := 0 }

/-- Rows that differ in `created_at` only share what the graph reads. -/
theorem RevisionRow.fields_of_undated {first second : RevisionRow}
    (alike : first.undated = second.undated) :
    first.revisionId = second.revisionId ∧ first.parent = second.parent ∧
      first.supersededBy = second.supersededBy := by
  have ids := congrArg RevisionRow.revisionId alike
  have parents := congrArg RevisionRow.parent alike
  have marks := congrArg RevisionRow.supersededBy alike
  exact ⟨ids, parents, marks⟩

/-- The same rows, in any order and under any `created_at`. -/
def SameRows (first second : List RevisionRow) : Prop :=
  (first.map RevisionRow.undated).Perm (second.map RevisionRow.undated)

/-- A predicate that does not read `created_at`. -/
def ClockFree (test : RevisionRow → Bool) : Prop := ∀ row, test row.undated = test row

theorem ClockFree.map_filter {test : RevisionRow → Bool} (blind : ClockFree test)
    (rows : List RevisionRow) :
    (rows.filter test).map RevisionRow.undated = (rows.map RevisionRow.undated).filter test := by
  rw [List.filter_map]
  congr 1
  apply List.filter_congr
  intro row _
  exact (blind row).symm

namespace SameRows

variable {first second : List RevisionRow}

theorem symm (same : SameRows first second) : SameRows second first := List.Perm.symm same

/-- Each row of the one list is in the other. -/
theorem mem (same : SameRows first second) {row : RevisionRow} (member : row ∈ first) :
    ∃ other ∈ second, other.undated = row.undated :=
  List.mem_map.mp (same.mem_iff.mp (List.mem_map_of_mem member))

theorem length (same : SameRows first second) : first.length = second.length := by
  simpa using List.Perm.length_eq same

theorem revisionIds (same : SameRows first second) :
    (first.map RevisionRow.revisionId).Perm (second.map RevisionRow.revisionId) := by
  have ids := List.Perm.map RevisionRow.revisionId same
  rw [List.map_map, List.map_map] at ids
  exact ids

theorem any (same : SameRows first second) {test : RevisionRow → Bool}
    (blind : ClockFree test) : first.any test = second.any test := by
  have one : ∀ rows : List RevisionRow, (rows.map RevisionRow.undated).any test =
      rows.any test := by
    intro rows
    rw [List.any_map]
    congr 1
    funext row
    exact blind row
  rw [← one first, ← one second]
  exact List.Perm.any_eq same

theorem filter (same : SameRows first second) {test : RevisionRow → Bool}
    (blind : ClockFree test) : SameRows (first.filter test) (second.filter test) := by
  unfold SameRows
  rw [blind.map_filter, blind.map_filter]
  exact List.Perm.filter _ same

theorem sorted (same : SameRows first second) :
    SameRows (first.insertionSort RevisionRow.before)
      (second.insertionSort RevisionRow.before) := by
  have one := (List.perm_insertionSort RevisionRow.before first).map RevisionRow.undated
  have two := (List.perm_insertionSort RevisionRow.before second).map RevisionRow.undated
  exact (one.trans same).trans two.symm

/-! ## The head queries -/

theorem hasUnrevokedChild (same : SameRows first second) (row : RevisionRow) :
    Store.hasUnrevokedChild first row = Store.hasUnrevokedChild second row := by
  apply same.any
  intro child
  rfl

theorem isHeadRow (same : SameRows first second) :
    Store.isHeadRow first = Store.isHeadRow second := by
  funext row
  unfold Store.isHeadRow
  rw [same.hasUnrevokedChild]

theorem accountHeadRows (same : SameRows first second) (accountId : AccountId) :
    SameRows (Store.accountHeadRows first accountId)
      (Store.accountHeadRows second accountId) := by
  unfold Store.accountHeadRows
  rw [same.isHeadRow]
  apply same.filter
  intro row
  rfl

theorem readRevisionRows (same : SameRows first second) (accountId : AccountId) :
    SameRows (Store.readRevisionRows first accountId)
      (Store.readRevisionRows second accountId) := by
  apply SameRows.sorted
  apply same.filter
  intro row
  rfl

end SameRows

namespace RevisionGraph

/-! ## What the walk reaches -/

/-- The rows below the roots. -/
inductive Rooted (rows : List RevisionRow) : RevisionRow → Prop where
  | root {row : RevisionRow} : row ∈ rows → isRoot rows row = true → Rooted rows row
  | child {parent row : RevisionRow} :
      Rooted rows parent → row ∈ children rows parent.revisionId → Rooted rows row

theorem Rooted.mem {rows : List RevisionRow} {row : RevisionRow} (rooted : Rooted rows row) :
    row ∈ rows := by
  cases rooted with
  | root stored _ => exact stored
  | child _ isChild => exact (mem_children.mp isChild).1

/-- A walk takes only rooted rows off its queue. -/
theorem rooted_of_walk {rows : List RevisionRow} {rounds : Nat}
    {queue seen topo all : List RevisionRow}
    (walked : walk rows rounds queue seen topo = .ok all)
    (queued : ∀ row ∈ queue, Rooted rows row) (taken : ∀ row ∈ topo, Rooted rows row) :
    ∀ row ∈ all, Rooted rows row := by
  induction rounds generalizing queue seen topo with
  | zero =>
      cases queue with
      | nil =>
          obtain rfl := Except.ok.inj walked
          exact taken
      | cons row queue =>
          obtain rfl := Except.ok.inj walked
          exact taken
  | succ rounds ih =>
      cases queue with
      | nil =>
          obtain rfl := Except.ok.inj walked
          exact taken
      | cons row queue =>
          have rooted := queued row List.mem_cons_self
          rw [walk] at walked
          split at walked
          · cases walked
          · apply ih walked
            · intro candidate member
              rcases List.mem_append.mp member with old | child
              · exact queued candidate (List.mem_cons_of_mem _ old)
              · exact .child rooted child
            · intro candidate member
              rcases List.mem_append.mp member with old | new
              · exact taken candidate old
              · rw [List.mem_singleton.mp new]
                exact rooted

/-- A finished walk has met every rooted row. -/
theorem WalkInv.met {rows topo : List RevisionRow} (inv : WalkInv rows [] topo)
    {row : RevisionRow} (rooted : Rooted rows row) : row ∈ topo := by
  induction rooted with
  | root stored root => simpa using inv.roots _ stored root
  | child _ isChild ih => simpa using inv.closed _ ih _ isChild

/-- An unsuperseded row without children. -/
def IsLeaf (rows : List RevisionRow) (row : RevisionRow) : Prop :=
  row ∈ rows ∧ row.supersededBy = none ∧ children rows row.revisionId = []

/-- Everything `build` can answer: it refuses duplicates and rows no root reaches, and
otherwise the heads are the leaves. -/
theorem build_cases (rows : List RevisionRow) :
    (¬ (rows.map RevisionRow.revisionId).Nodup ∧
      build rows = .error (.corrupted "duplicate revision_id in graph input")) ∨
    ((rows.map RevisionRow.revisionId).Nodup ∧ (¬ ∀ row ∈ rows, Rooted rows row) ∧
      build rows =
        .error (.corrupted "revision lineage contains a cycle (unreachable component)")) ∨
    ((rows.map RevisionRow.revisionId).Nodup ∧ (∀ row ∈ rows, Rooted rows row) ∧
      ∃ graph, build rows = .ok graph ∧
        ∀ id, id ∈ graph.heads ↔ ∃ row, IsLeaf rows row ∧ row.revisionId = id) := by
  by_cases unique : (rows.map RevisionRow.revisionId).Nodup
  · have nodup := List.Nodup.of_map _ unique
    have enough : rows.length + ([] : List RevisionRow).length = rows.length := Nat.add_zero _
    obtain ⟨topo, walked, done⟩ := walk_ok unique (.start unique) enough
    rw [List.nil_append] at walked
    have topoNodup : topo.Nodup := by simpa using done.nodup
    have rooted : ∀ row, row ∈ topo ↔ Rooted rows row := by
      intro row
      constructor
      · apply rooted_of_walk walked
        · intro root member
          rw [List.mem_insertionSort, List.mem_filter] at member
          exact .root member.1 member.2
        · intro taken impossible
          cases impossible
      · exact done.met
    have topoStored : ∀ row ∈ topo, row ∈ rows := fun row met => ((rooted row).mp met).mem
    by_cases all : ∀ row ∈ rows, Rooted rows row
    · have sameLength : topo.length = rows.length := by
        apply Nat.le_antisymm
        · exact (topoNodup.subperm topoStored).length_le
        · apply (nodup.subperm _).length_le
          intro row stored
          exact (rooted row).mpr (all row stored)
      refine .inr (.inr ⟨unique, all, ⟨topo, (leaves rows topo).map RevisionRow.revisionId⟩,
        ?_, ?_⟩)
      · simp only [build, unique, walked, sameLength, not_true_eq_false, if_false, ne_eq]
      · intro id
        have met : ∀ row, row ∈ topo ↔ row ∈ rows := fun row =>
          ⟨topoStored row, fun stored => (rooted row).mpr (all row stored)⟩
        simp only [leaves, List.mem_map, List.mem_insertionSort, List.mem_filter, met,
          IsLeaf, Bool.and_eq_true, Option.isNone_iff_eq_none, List.isEmpty_iff]
    · refine .inr (.inl ⟨unique, all, ?_⟩)
      have shorter : topo.length ≠ rows.length := by
        intro sameLength
        apply all
        intro row stored
        apply (rooted row).mp
        exact ((topoNodup.subperm topoStored).perm_of_length_le sameLength.ge).mem_iff.mpr stored
      simp only [build, unique, walked, shorter, not_true_eq_false, not_false_eq_true, if_false,
        if_true, ne_eq]
  · refine .inl ⟨unique, ?_⟩
    simp only [build, unique, not_false_eq_true, if_true]

/-! ## Graphs of the same rows -/

section

variable {first second : List RevisionRow} (same : SameRows first second)
include same

theorem isRoot_eq (row : RevisionRow) : isRoot first row = isRoot second row := by
  unfold isRoot
  congr 2
  apply same.any
  intro other
  rfl

theorem children_sameRows (id : RevisionId) :
    SameRows (children first id) (children second id) := by
  unfold children
  rw [funext (isRoot_eq same)]
  apply SameRows.sorted
  apply same.filter
  intro row
  rfl

/-- The same rows hang below the same roots. -/
theorem Rooted.transfer {row : RevisionRow} (rooted : Rooted first row) :
    ∀ other ∈ second, other.undated = row.undated → Rooted second other := by
  induction rooted with
  | @root row stored root =>
      intro other member alike
      apply Rooted.root member
      have parents := (RevisionRow.fields_of_undated alike).2.1
      rw [← isRoot_eq same]
      unfold isRoot at root ⊢
      rw [parents]
      exact root
  | @child parent row rooted isChild ih =>
      intro other member alike
      obtain ⟨otherParent, parentMember, parentAlike⟩ := same.mem rooted.mem
      apply Rooted.child (ih otherParent parentMember parentAlike)
      obtain ⟨_, isParent, notRoot⟩ := mem_children.mp isChild
      have parents := (RevisionRow.fields_of_undated alike).2.1
      have ids := (RevisionRow.fields_of_undated parentAlike).1
      apply mem_children.mpr
      refine ⟨member, ?_, ?_⟩
      · rw [parents, ids]
        exact isParent
      · rw [← isRoot_eq same]
        unfold isRoot at notRoot ⊢
        rw [parents]
        exact notRoot

theorem allRooted_of_sameRows (all : ∀ row ∈ first, Rooted first row) :
    ∀ row ∈ second, Rooted second row := by
  intro row stored
  obtain ⟨other, member, alike⟩ := same.symm.mem stored
  exact (all other member).transfer same row stored alike.symm

theorem leaf_of_sameRows {row : RevisionRow} (leaf : IsLeaf first row) :
    ∃ other, IsLeaf second other ∧ other.revisionId = row.revisionId := by
  obtain ⟨stored, kept, childless⟩ := leaf
  obtain ⟨other, member, alike⟩ := same.mem stored
  obtain ⟨ids, _, marks⟩ := RevisionRow.fields_of_undated alike
  refine ⟨other, ⟨member, ?_, ?_⟩, ids⟩
  · exact marks.trans kept
  · rw [ids, ← List.length_eq_zero_iff, ← (children_sameRows same row.revisionId).length,
      childless]
    rfl

end

/-! ## The largest head -/

/-- The head a search ends with is at least every head it passed. -/
theorem newest_le {head : RevisionId} (heads : List RevisionId) (best : Option RevisionId)
    (result : heads.foldl (fun best id =>
      match best with
      | none => some id
      | some old => if old.raw ≤ id.raw then some id else some old) best = some head) :
    (∀ old, best = some old → old.raw ≤ head.raw) ∧ ∀ id ∈ heads, id.raw ≤ head.raw := by
  induction heads generalizing best with
  | nil =>
      refine ⟨?_, by simp⟩
      intro old started
      obtain rfl := Option.some.inj (result.symm.trans started)
      exact Nat.le_refl _
  | cons id heads ih =>
      obtain ⟨fromBest, fromTail⟩ := ih _ result
      have atLeast : id.raw ≤ head.raw ∧ ∀ old, best = some old → old.raw ≤ head.raw := by
        cases best with
        | none => exact ⟨fromBest id rfl, nofun⟩
        | some old =>
            by_cases larger : old.raw ≤ id.raw
            · have below := fromBest id (by simp [larger])
              refine ⟨below, ?_⟩
              intro started same
              obtain rfl := Option.some.inj same
              exact Nat.le_trans larger below
            · have below := fromBest old (by simp [larger])
              refine ⟨by omega, ?_⟩
              intro started same
              obtain rfl := Option.some.inj same
              exact below
      refine ⟨atLeast.2, ?_⟩
      intro candidate member
      rcases List.mem_cons.mp member with rfl | inTail
      · exact atLeast.1
      · exact fromTail candidate inTail

theorem newest_isSome (heads : List RevisionId) (best : Option RevisionId)
    (something : heads ≠ [] ∨ best.isSome = true) :
    (heads.foldl (fun best id =>
      match best with
      | none => some id
      | some old => if old.raw ≤ id.raw then some id else some old) best).isSome = true := by
  induction heads generalizing best with
  | nil => simpa using something
  | cons id heads ih =>
      rw [List.foldl_cons]
      apply ih
      apply Or.inr
      cases best with
      | none => rfl
      | some old => dsimp only; split <;> rfl

/-- Equal head sets elect the same canonical head. -/
theorem canonicalHead_congr {first second : RevisionGraph}
    (same : ∀ id, id ∈ first.heads ↔ id ∈ second.heads) :
    first.canonicalHead = second.canonicalHead := by
  cases one : first.canonicalHead with
  | none =>
      cases two : second.canonicalHead with
      | none => rfl
      | some head =>
          have member := (same head).mpr (canonicalHead_mem two)
          have elected : first.canonicalHead.isSome = true :=
            newest_isSome first.heads none (.inl (List.ne_nil_of_mem member))
          rw [one] at elected
          cases elected
  | some head =>
      have member := (same head).mp (canonicalHead_mem one)
      cases two : second.canonicalHead with
      | none =>
          have elected : second.canonicalHead.isSome = true :=
            newest_isSome second.heads none (.inl (List.ne_nil_of_mem member))
          rw [two] at elected
          cases elected
      | some other =>
          have above := (newest_le second.heads none two).2 head member
          have below := (newest_le first.heads none one).2 other
            ((same other).mpr (canonicalHead_mem two))
          have equal : head.raw = other.raw := Nat.le_antisymm above below
          cases head
          cases other
          exact congrArg (fun raw => some (RevisionId.mk raw)) equal

/-- What `build` answers about the canonical head does not depend on the clocks. -/
theorem canonicalHead_sameRows {first second : List RevisionRow}
    (same : SameRows first second) :
    (build first).map canonicalHead = (build second).map canonicalHead := by
  have uniqueIff := same.revisionIds.nodup_iff
  rcases build_cases first with
    ⟨dup, built⟩ | ⟨unique, stray, built⟩ | ⟨unique, all, graph, built, heads⟩
  · rcases build_cases second with ⟨_, built'⟩ | ⟨unique', _⟩ | ⟨unique', _⟩
    · rw [built, built']
    · exact absurd (uniqueIff.mpr unique') dup
    · exact absurd (uniqueIff.mpr unique') dup
  · rcases build_cases second with ⟨dup', _⟩ | ⟨_, _, built'⟩ | ⟨_, all', _⟩
    · exact absurd (uniqueIff.mp unique) dup'
    · rw [built, built']
    · exact absurd (allRooted_of_sameRows same.symm all') stray
  · rcases build_cases second with ⟨dup', _⟩ | ⟨_, stray', _⟩ | ⟨_, _, graph', built', heads'⟩
    · exact absurd (uniqueIff.mp unique) dup'
    · exact absurd (allRooted_of_sameRows same all) stray'
    · rw [built, built']
      apply congrArg Except.ok
      apply canonicalHead_congr
      intro id
      rw [heads, heads']
      constructor
      · rintro ⟨row, leaf, rfl⟩
        exact leaf_of_sameRows same leaf
      · rintro ⟨row, leaf, rfl⟩
        exact leaf_of_sameRows same.symm leaf

end RevisionGraph

/-! ## The vault's queries -/

/-- `is_forked`. -/
def RevisionTables.isForked (log : RevisionTables) (accountId : AccountId) :
    Except StoreError Bool := do
  let heads ← accountHeads log accountId
  return 1 < heads.length

/-- `canonical_head`. -/
def RevisionTables.canonicalHead (log : RevisionTables) (accountId : AccountId) :
    Except StoreError RevisionId :=
  if log.accounts.any fun account => account.accountId = accountId then do
    let graph ← RevisionGraph.build (readRevisionRows log.revisions accountId)
    match graph.canonicalHead with
    | some head => .ok head
    | none => .error (.corrupted "account has no revisions")
  else
    .error .accountNotFound

section

variable {first second : RevisionTables} {accountId : AccountId}
variable (same : SameRows first.revisions second.revisions)
variable (known : (first.accounts.any fun account => account.accountId = accountId) =
  second.accounts.any fun account => account.accountId = accountId)
include same known

/-- The head set, as `account_heads` lists it. -/
theorem accountHeads_sameRows :
    (accountHeads first accountId).map Multiset.ofList =
      (accountHeads second accountId).map Multiset.ofList := by
  unfold accountHeads
  rw [known]
  split
  · apply congrArg Except.ok
    exact Multiset.coe_eq_coe.mpr (same.accountHeadRows accountId).sorted.revisionIds
  · rfl

theorem isForked_sameRows : first.isForked accountId = second.isForked accountId := by
  unfold RevisionTables.isForked accountHeads
  rw [known]
  split
  · have lengths := (same.accountHeadRows accountId).sorted.revisionIds.length_eq
    simp only [bind, Except.bind, lengths]
  · rfl

theorem canonicalHead_known_sameRows :
    first.canonicalHead accountId = second.canonicalHead accountId := by
  have elected := RevisionGraph.canonicalHead_sameRows (same.readRevisionRows accountId)
  unfold RevisionTables.canonicalHead
  rw [known]
  split
  · cases one : RevisionGraph.build (readRevisionRows first.revisions accountId) with
    | error error =>
        cases two : RevisionGraph.build (readRevisionRows second.revisions accountId) with
        | error other =>
            rw [one, two] at elected
            exact congrArg Except.error (Except.error.inj elected)
        | ok graph =>
            rw [one, two] at elected
            cases elected
    | ok graph =>
        cases two : RevisionGraph.build (readRevisionRows second.revisions accountId) with
        | error other =>
            rw [one, two] at elected
            cases elected
        | ok other =>
            rw [one, two] at elected
            have heads := Except.ok.inj elected
            simp only [bind, Except.bind, heads]
  · rfl

end

end Pangolin.Store
