import Pangolin.Store.RevisionGraph
import Mathlib.Data.List.Nodup
import Mathlib.Data.List.Perm.Subperm

/-!
# The walk on a forest

Rows whose parent pointers lead strictly downwards in some rank have no cycle.  On such
rows, with unique ids, the breadth-first walk meets every row exactly once: it never
queues a row again, because a queued row's parent has already been taken off the queue,
and it reaches every row, by induction on the rank.
-/

namespace Pangolin.Store

/-- Parents come before their children in the rank; a genesis row has no parent. -/
def Ranked (rank : RevisionId → Nat) (row : RevisionRow) : Prop :=
  row.parent = .genesisParent ∨ rank row.parent < rank row.revisionId

namespace RevisionGraph

theorem mem_children {rows : List RevisionRow} {id : RevisionId} {row : RevisionRow} :
    row ∈ children rows id ↔ row ∈ rows ∧ row.parent = id ∧ isRoot rows row = false := by
  unfold children
  rw [List.mem_insertionSort]
  simp [List.mem_filter]

theorem nodup_children {rows : List RevisionRow} (nodup : rows.Nodup) (id : RevisionId) :
    (children rows id).Nodup :=
  (List.perm_insertionSort _ _).nodup_iff.mpr (nodup.filter _)

/-- The state of the walk: what has been taken off the queue, and what is on it. -/
structure WalkInv (rows queue topo : List RevisionRow) : Prop where
  nodup : (topo ++ queue).Nodup
  stored : ∀ row ∈ topo ++ queue, row ∈ rows
  roots : ∀ row ∈ rows, isRoot rows row = true → row ∈ topo ++ queue
  /-- Every row met is a root or the child of a row taken off the queue. -/
  reached : ∀ row ∈ topo ++ queue, isRoot rows row = true ∨
    ∃ parent ∈ topo, parent.revisionId = row.parent
  /-- The children of a row taken off the queue have been met. -/
  closed : ∀ row ∈ topo, ∀ child ∈ children rows row.revisionId, child ∈ topo ++ queue

section

variable {rows : List RevisionRow} (unique : (rows.map RevisionRow.revisionId).Nodup)
include unique

theorem eq_of_revisionId {first second : RevisionRow} (firstStored : first ∈ rows)
    (secondStored : second ∈ rows) (same : first.revisionId = second.revisionId) :
    first = second :=
  List.inj_on_of_nodup_map unique firstStored secondStored same

/-- The children of the next row have not been met. -/
theorem WalkInv.children_new {row : RevisionRow} {queue topo : List RevisionRow}
    (inv : WalkInv rows (row :: queue) topo) {child old : RevisionRow}
    (isChild : child ∈ children rows row.revisionId) (met : old ∈ topo ++ row :: queue) :
    old.revisionId ≠ child.revisionId := by
  intro same
  obtain ⟨childStored, parent, notRoot⟩ := mem_children.mp isChild
  obtain rfl := eq_of_revisionId unique (inv.stored old met) childStored same
  cases inv.reached old met with
  | inl root =>
      rw [notRoot] at root
      cases root
  | inr later =>
      -- its parent is the row still on the queue
      obtain ⟨taken, inTopo, isParent⟩ := later
      have stillQueued : taken = row := by
        apply eq_of_revisionId unique
        · exact inv.stored taken (List.mem_append_left _ inTopo)
        · exact inv.stored row (List.mem_append_right _ List.mem_cons_self)
        · rw [isParent, parent]
      subst stillQueued
      exact List.disjoint_of_nodup_append inv.nodup inTopo List.mem_cons_self

/-- One round keeps the invariant. -/
theorem WalkInv.next {row : RevisionRow} {queue topo : List RevisionRow}
    (inv : WalkInv rows (row :: queue) topo) :
    WalkInv rows (queue ++ children rows row.revisionId) (topo ++ [row]) := by
  have split : topo ++ [row] ++ (queue ++ children rows row.revisionId) =
      topo ++ row :: queue ++ children rows row.revisionId := by
    simp
  constructor
  · rw [split]
    apply inv.nodup.append (nodup_children (List.Nodup.of_map _ unique) _)
    intro old met isChild
    exact inv.children_new unique isChild met rfl
  · intro candidate met
    rw [split] at met
    cases List.mem_append.mp met with
    | inl old => exact inv.stored candidate old
    | inr child => exact (mem_children.mp child).1
  · intro candidate stored root
    rw [split]
    exact List.mem_append_left _ (inv.roots candidate stored root)
  · intro candidate met
    rw [split] at met
    cases List.mem_append.mp met with
    | inl old =>
        apply (inv.reached candidate old).imp id
        rintro ⟨parent, inTopo, isParent⟩
        exact ⟨parent, List.mem_append_left _ inTopo, isParent⟩
    | inr child =>
        apply Or.inr
        exact ⟨row, by simp, (mem_children.mp child).2.1.symm⟩
  · intro taken inTopo child isChild
    rw [split]
    cases List.mem_append.mp inTopo with
    | inl old => exact List.mem_append_left _ (inv.closed taken old child isChild)
    | inr new =>
        obtain rfl := List.mem_singleton.mp new
        exact List.mem_append_right _ isChild

/-- The walk ends with an empty queue. -/
theorem walk_ok {rounds : Nat} {queue topo : List RevisionRow} (inv : WalkInv rows queue topo)
    (enough : rounds + topo.length = rows.length) :
    ∃ all, walk rows rounds queue (topo ++ queue) topo = .ok all ∧ WalkInv rows [] all := by
  induction rounds generalizing queue topo with
  | zero =>
      cases queue with
      | nil => exact ⟨topo, rfl, inv⟩
      | cons row queue =>
          have bound := (inv.nodup.subperm inv.stored).length_le
          simp at bound enough
          omega
  | succ rounds ih =>
      cases queue with
      | nil => exact ⟨topo, rfl, inv⟩
      | cons row queue =>
          have fresh : ((children rows row.revisionId).any fun kid =>
              (topo ++ row :: queue).any fun old => old.revisionId = kid.revisionId) = false := by
            rw [List.any_eq_false]
            intro kid isChild
            rw [Bool.not_eq_true, List.any_eq_false]
            intro old met
            simpa using inv.children_new unique isChild met
          have next := inv.next unique
          have split : topo ++ row :: queue ++ children rows row.revisionId =
              topo ++ [row] ++ (queue ++ children rows row.revisionId) := by
            simp
          obtain ⟨all, walked, done⟩ := ih next (by simp; omega)
          refine ⟨all, ?_, done⟩
          rw [walk]
          simp only [fresh, Bool.false_eq_true, if_false]
          rw [split]
          exact walked

omit unique in
/-- A finished walk has met every row. -/
theorem WalkInv.complete {rank : RevisionId → Nat} {topo : List RevisionRow}
    (inv : WalkInv rows [] topo) (ranked : ∀ row ∈ rows, Ranked rank row) :
    ∀ row ∈ rows, row ∈ topo := by
  -- induction on the rank of the row; a row that is no root hangs below a stored parent
  have byRank : ∀ bound, ∀ row ∈ rows, rank row.revisionId = bound → row ∈ topo := by
    intro bound
    induction bound using Nat.strong_induction_on with
    | _ bound ih =>
        intro row stored sameRank
        by_cases root : isRoot rows row = true
        · simpa using inv.roots row stored root
        · have notRoot : isRoot rows row = false := by simpa using root
          obtain ⟨notGenesis, parent, parentStored, isParent⟩ : row.parent ≠ .genesisParent ∧
              ∃ parent ∈ rows, parent.revisionId = row.parent := by
            simpa [isRoot] using notRoot
          have lower : rank parent.revisionId < bound := by
            rw [isParent, ← sameRank]
            exact (ranked row stored).resolve_left notGenesis
          have parentMet := ih _ lower parent parentStored rfl
          have isChild : row ∈ children rows parent.revisionId :=
            mem_children.mpr ⟨stored, isParent.symm, notRoot⟩
          simpa using inv.closed parent parentMet row isChild
  intro row stored
  exact byRank _ row stored rfl

/-- The walk begins at the roots. -/
theorem WalkInv.start :
    WalkInv rows ((rows.filter (isRoot rows)).insertionSort RevisionRow.before) [] := by
  have nodup := List.Nodup.of_map _ unique
  have rootsStored : ∀ row, row ∈ (rows.filter (isRoot rows)).insertionSort RevisionRow.before ↔
      row ∈ rows ∧ isRoot rows row = true := by
    intro row
    rw [List.mem_insertionSort, List.mem_filter]
  constructor
  · exact (List.perm_insertionSort _ _).nodup_iff.mpr (nodup.filter _)
  · intro row met
    exact ((rootsStored row).mp met).1
  · intro row stored root
    exact (rootsStored row).mpr ⟨stored, root⟩
  · intro row met
    exact .inl ((rootsStored row).mp met).2
  · intro row taken
    cases taken

/-- Ranked rows with unique ids build a graph, whose heads are among them. -/
theorem build_ok {rank : RevisionId → Nat} (ranked : ∀ row ∈ rows, Ranked rank row) :
    ∃ graph, build rows = .ok graph ∧
      ∀ head ∈ graph.heads, ∃ row ∈ rows, row.revisionId = head := by
  have nodup := List.Nodup.of_map _ unique
  have enough : rows.length + ([] : List RevisionRow).length = rows.length := Nat.add_zero _
  obtain ⟨topo, walked, done⟩ := walk_ok unique (.start unique) enough
  have topoNodup : topo.Nodup := by simpa using done.nodup
  have topoStored : ∀ row ∈ topo, row ∈ rows := by simpa using done.stored
  have sameLength : topo.length = rows.length := by
    apply Nat.le_antisymm
    · exact (topoNodup.subperm topoStored).length_le
    · exact (nodup.subperm (done.complete ranked)).length_le
  rw [List.nil_append] at walked
  refine ⟨⟨topo, (leaves rows topo).map RevisionRow.revisionId⟩, ?_, ?_⟩
  · simp only [build, unique, walked, sameLength, not_true_eq_false, if_false, ne_eq]
  · intro head member
    obtain ⟨row, leaf, rfl⟩ := List.mem_map.mp member
    unfold leaves at leaf
    rw [List.mem_insertionSort, List.mem_filter] at leaf
    exact ⟨row, topoStored row leaf.1, rfl⟩

end

/-! ## The heads of a built graph -/

/-- A walk visits rows of the input only. -/
theorem mem_of_walk {rows : List RevisionRow} {rounds : Nat}
    {queue seen topo all : List RevisionRow}
    (walked : walk rows rounds queue seen topo = .ok all)
    (queued : ∀ row ∈ queue, row ∈ rows) (taken : ∀ row ∈ topo, row ∈ rows) :
    ∀ row ∈ all, row ∈ rows := by
  induction rounds generalizing queue seen topo with
  | zero =>
      cases queue with
      | nil =>
          obtain rfl := Except.ok.inj walked
          exact taken
      | cons row queue =>
          obtain rfl := Except.ok.inj walked
          exact taken
  | succ rounds ih =>
      cases queue with
      | nil =>
          obtain rfl := Except.ok.inj walked
          exact taken
      | cons row queue =>
          rw [walk] at walked
          split at walked
          · cases walked
          · apply ih walked
            · intro candidate member
              rcases List.mem_append.mp member with old | child
              · exact queued candidate (List.mem_cons_of_mem _ old)
              · exact (mem_children.mp child).1
            · intro candidate member
              rcases List.mem_append.mp member with old | new
              · exact taken candidate old
              · rw [List.mem_singleton.mp new]
                exact queued row List.mem_cons_self

/-- The heads of a graph are rows it was built from. -/
theorem mem_of_build {rows : List RevisionRow} {graph : RevisionGraph}
    (built : build rows = .ok graph) {id : RevisionId} (head : id ∈ graph.heads) :
    ∃ row ∈ rows, row.revisionId = id := by
  unfold build at built
  split at built
  · cases built
  simp only at built
  split at built
  · cases built
  · next topo walked =>
      split at built
      · cases built
      · obtain rfl := Except.ok.inj built
        obtain ⟨row, leaf, rfl⟩ := List.mem_map.mp head
        rw [leaves, List.mem_insertionSort, List.mem_filter] at leaf
        refine ⟨row, mem_of_walk walked ?_ (by simp) row leaf.1, rfl⟩
        intro root member
        rw [List.mem_insertionSort, List.mem_filter] at member
        exact member.1

/-- The head a search ends with is one of the list, or the one it started with. -/
theorem mem_of_newest {head : RevisionId} (heads : List RevisionId) (best : Option RevisionId)
    (result : heads.foldl (fun best id =>
      match best with
      | none => some id
      | some old => if old.raw ≤ id.raw then some id else some old) best = some head) :
    head ∈ heads ∨ best = some head := by
  induction heads generalizing best with
  | nil => exact .inr result
  | cons id heads ih =>
      rcases ih _ result with inTail | picked
      · exact .inl (List.mem_cons_of_mem _ inTail)
      · cases best with
        | none =>
            obtain rfl := Option.some.inj picked
            exact .inl List.mem_cons_self
        | some old =>
            simp only at picked
            split at picked
            · obtain rfl := Option.some.inj picked
              exact .inl List.mem_cons_self
            · exact .inr picked

/-- The canonical head is one of the heads. -/
theorem canonicalHead_mem {graph : RevisionGraph} {head : RevisionId}
    (canonical : graph.canonicalHead = some head) : head ∈ graph.heads := by
  rcases mem_of_newest graph.heads none canonical with member | impossible
  · exact member
  · cases impossible

end RevisionGraph

end Pangolin.Store
