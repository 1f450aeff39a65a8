import Mathlib.Data.Fintype.List
import Mathlib.Order.WellFounded
import Mathlib.Data.Fintype.Order
import Pangolin.Lib.Forest
import Pangolin.Store.CanonicalHead

/-!
# The index a graph is built into

Beside the rows and the heads, `RevisionGraph::build` keeps the edges in both directions, a
position for each id, and the roots.  `ancestors` and `common_ancestor` climb the parent
edges; they end because what `build` accepts has no cycle.
-/

namespace Pangolin.Store

open Forest

/-- The whole result of `RevisionGraph::build`. -/
structure RevisionIndex extends RevisionGraph where
  parents : RevisionId → Option RevisionId
  children : RevisionId → List RevisionId
  genesis : Option RevisionId
  genesisExtra : List RevisionId
  byId : RevisionId → Option Nat

namespace RevisionIndex

/-- The edges up: only between rows of the input, and none from a root. -/
def parentEdge (rows : List RevisionRow) (id : RevisionId) : Option RevisionId :=
  match rows.find? fun row => row.revisionId = id with
  | some row => if RevisionGraph.isRoot rows row then none else some row.parent
  | none => none

/-- `min_by_key` over `(created_at, revision_id)`. -/
def earliest (rows : List RevisionRow) : Option RevisionRow :=
  rows.foldl (fun best row =>
    match best with
    | none => some row
    | some old => if old.before row then some old else some row) none

/-- `compute_genesis_extra`. -/
def computeGenesisExtra (revisions : List RevisionRow) : List RevisionId :=
  ((revisions.filter fun row => row.parent ≠ .genesisParent &&
    !(revisions.any fun other => other.revisionId = row.parent)).insertionSort
      RevisionRow.before).map RevisionRow.revisionId

/-- `RevisionGraph::build`, with everything it returns. -/
def build (rows : List RevisionRow) : Except StoreError RevisionIndex :=
  match RevisionGraph.build rows with
  | .error error => .error error
  | .ok graph =>
      .ok { graph with
        parents := parentEdge rows
        children := fun id => (RevisionGraph.children rows id).map RevisionRow.revisionId
        genesis := (earliest (graph.revisions.filter fun row =>
          row.parent = .genesisParent)).map RevisionRow.revisionId
        genesisExtra := computeGenesisExtra graph.revisions
        byId := fun id => graph.revisions.findIdx? fun row => row.revisionId = id }

/-- `RevisionGraph::get`. -/
def get (index : RevisionIndex) (id : RevisionId) : Option RevisionRow :=
  (index.byId id).bind fun position => index.revisions[position]?

def contains (index : RevisionIndex) (id : RevisionId) : Bool := (index.byId id).isSome

/-- The loop of `ancestors`; `none` when it is still climbing after so many rounds. -/
def ancestorsLoop (parents : RevisionId → Option RevisionId) :
    (rounds : Nat) → (cursor : RevisionId) → (chain : List RevisionId) → Option (List RevisionId)
  | 0, _, _ => none
  | rounds + 1, cursor, chain =>
      match parents cursor with
      | some parent => ancestorsLoop parents rounds parent (chain ++ [cursor])
      | none => some (chain ++ [cursor])

/-- `ancestors`, oldest first. -/
def ancestors (index : RevisionIndex) (id : RevisionId) : Option (List RevisionId) :=
  if index.contains id then
    (ancestorsLoop index.parents index.revisions.length id []).map List.reverse
  else
    some []

/-- The loop of `common_ancestor`; `none` when it is still climbing after so many rounds. -/
def commonAncestorLoop (parents : RevisionId → Option RevisionId) (aChain : List RevisionId) :
    (rounds : Nat) → (cursor : RevisionId) → Option (Option RevisionId)
  | 0, _ => none
  | rounds + 1, cursor =>
      if cursor ∈ aChain then
        some (some cursor)
      else
        match parents cursor with
        | some parent => commonAncestorLoop parents aChain rounds parent
        | none => some none

/-- `common_ancestor`. -/
def commonAncestor (index : RevisionIndex) (a b : RevisionId) : Option (Option RevisionId) :=
  if !index.contains a || !index.contains b then
    some none
  else if a = b then
    some (some a)
  else
    match index.ancestors a with
    | none => none
    | some aChain => commonAncestorLoop index.parents aChain index.revisions.length b

/-! ## Parents inside the list -/

/-- The row's parent is in the list; a genesis row has no parent. -/
def InListParent (rows : List RevisionRow) (parent row : RevisionRow) : Prop :=
  parent ∈ rows ∧ row ∈ rows ∧ row.parent ≠ .genesisParent ∧ parent.revisionId = row.parent

/-- Following parents never comes back. -/
def Acyclic (rows : List RevisionRow) : Prop :=
  ∀ row, ¬ Relation.TransGen (InListParent rows) row row

/-- The ids from a root down to one of its descendants. -/
inductive ParentChain (rows : List RevisionRow) : List RevisionId → RevisionId → Prop where
  | root {row : RevisionRow} : row ∈ rows → (∀ parent, ¬ InListParent rows parent row) →
      ParentChain rows [row.revisionId] row.revisionId
  | child {chain : List RevisionId} {parent row : RevisionRow} :
      ParentChain rows chain parent.revisionId → InListParent rows parent row →
      ParentChain rows (chain ++ [row.revisionId]) row.revisionId

theorem isRoot_iff {rows : List RevisionRow} {row : RevisionRow} (stored : row ∈ rows) :
    RevisionGraph.isRoot rows row = true ↔ ∀ parent, ¬ InListParent rows parent row := by
  simp only [RevisionGraph.isRoot, InListParent, Bool.or_eq_true, decide_eq_true_eq,
    Bool.not_eq_true', List.any_eq_false]
  constructor
  · rintro (genesis | orphan) parent ⟨member, -, notGenesis, isParent⟩
    · exact notGenesis genesis
    · exact orphan parent member isParent
  · intro none
    by_cases genesis : row.parent = .genesisParent
    · exact .inl genesis
    · exact .inr fun parent member isParent => none parent ⟨member, stored, genesis, isParent⟩

theorem mem_children_iff {rows : List RevisionRow} {parent row : RevisionRow}
    (stored : parent ∈ rows) :
    row ∈ RevisionGraph.children rows parent.revisionId ↔ InListParent rows parent row := by
  rw [RevisionGraph.mem_children, InListParent]
  constructor
  · rintro ⟨member, isParent, notRoot⟩
    refine ⟨stored, member, ?_, isParent.symm⟩
    rintro genesis
    rw [RevisionGraph.isRoot, genesis] at notRoot
    simp at notRoot
  · rintro ⟨-, member, notGenesis, isParent⟩
    refine ⟨member, isParent.symm, ?_⟩
    rw [RevisionGraph.isRoot, Bool.or_eq_false_iff]
    refine ⟨by simpa using notGenesis, ?_⟩
    rw [Bool.not_eq_false', List.any_eq_true]
    exact ⟨parent, stored, by simpa using isParent⟩

/-! ## What is accepted -/

section Accepted

variable {rows : List RevisionRow} (unique : (rows.map RevisionRow.revisionId).Nodup)
include unique

theorem inListParent_unique {parent parent' row : RevisionRow}
    (edge : InListParent rows parent row) (edge' : InListParent rows parent' row) :
    parent = parent' :=
  RevisionGraph.eq_of_revisionId unique edge.1 edge'.1 (edge.2.2.2.trans edge'.2.2.2.symm)

/-- No row below a root is on a cycle. -/
theorem not_cyclic_of_rooted {row : RevisionRow} (rooted : RevisionGraph.Rooted rows row) :
    ¬ Relation.TransGen (InListParent rows) row row := by
  induction rooted with
  | root stored root =>
      intro cycle
      obtain ⟨parent, -, edge⟩ := Relation.TransGen.tail'_iff.mp cycle
      exact (isRoot_iff stored).mp root parent edge
  | @child parent row rooted isChild ih =>
      intro cycle
      have edge := (mem_children_iff rooted.mem).mp isChild
      obtain ⟨parent', up, edge'⟩ := Relation.TransGen.tail'_iff.mp cycle
      obtain rfl := inListParent_unique unique edge edge'
      exact ih (Relation.TransGen.head' edge up)

omit unique in
/-- Without a cycle every row hangs below a root. -/
theorem rooted_of_acyclic (acyclic : Acyclic rows) :
    ∀ row ∈ rows, RevisionGraph.Rooted rows row := by
  let above : { row // row ∈ rows } → { row // row ∈ rows } → Prop := fun parent row =>
    Relation.TransGen (InListParent rows) parent.val row.val
  have founded : WellFounded above := by
    have : IsTrans _ above := ⟨fun _ _ _ first second => first.trans second⟩
    have : Std.Irrefl above := ⟨fun row => acyclic row.val⟩
    exact Finite.wellFounded_of_trans_of_irrefl above
  intro row stored
  have byParent : ∀ row : { row // row ∈ rows }, RevisionGraph.Rooted rows row.val := by
    intro row
    induction row using founded.induction with
    | _ row ih =>
        by_cases root : RevisionGraph.isRoot rows row.val = true
        · exact .root row.property root
        · have edges := (isRoot_iff row.property).not.mp root
          simp only [not_forall, Classical.not_not] at edges
          obtain ⟨parent, edge⟩ := edges
          have rooted := ih ⟨parent, edge.1⟩ (Relation.TransGen.single edge)
          exact .child rooted ((mem_children_iff edge.1).mpr edge)
  exact byParent ⟨row, stored⟩

theorem acyclic_iff_rooted : Acyclic rows ↔ ∀ row ∈ rows, RevisionGraph.Rooted rows row := by
  constructor
  · exact rooted_of_acyclic
  · intro rooted row cycle
    obtain ⟨parent, -, edge⟩ := Relation.TransGen.tail'_iff.mp cycle
    exact not_cyclic_of_rooted unique (rooted row edge.2.1) cycle

end Accepted

theorem build_ok_iff (rows : List RevisionRow) :
    (∃ index, build rows = .ok index) ↔
      (rows.map RevisionRow.revisionId).Nodup ∧ Acyclic rows := by
  unfold build
  rcases RevisionGraph.build_cases rows with
    ⟨dup, built⟩ | ⟨unique, stray, built⟩ | ⟨unique, all, graph, built, -⟩
  · rw [built]
    simp [dup]
  · rw [built]
    simp [unique, acyclic_iff_rooted unique, stray]
  · rw [built]
    simp only [unique, acyclic_iff_rooted unique, true_and]
    exact ⟨fun _ => all, fun _ => ⟨_, rfl⟩⟩

/-! ## The order of the input -/

section Permuted

variable {first second : List RevisionRow}

theorem before_total (left right : RevisionRow) : left.before right ∨ right.before left := by
  unfold RevisionRow.before
  omega

theorem before_trans {left middle right : RevisionRow} (one : left.before middle)
    (two : middle.before right) : left.before right := by
  unfold RevisionRow.before at *
  omega

/-- Sorting forgets the order of rows with different ids. -/
theorem sort_eq_of_perm (unique : (first.map RevisionRow.revisionId).Nodup)
    (perm : first.Perm second) :
    first.insertionSort RevisionRow.before = second.insertionSort RevisionRow.before := by
  have total : Std.Total RevisionRow.before := ⟨before_total⟩
  have transitive : IsTrans RevisionRow RevisionRow.before := ⟨fun _ _ _ => before_trans⟩
  refine List.Perm.eq_of_pairwise ?_ (List.pairwise_insertionSort RevisionRow.before _)
    (List.pairwise_insertionSort RevisionRow.before _) ?_
  · intro left right leftMember rightMember one two
    rw [List.mem_insertionSort] at leftMember rightMember
    apply List.inj_on_of_nodup_map unique leftMember (perm.mem_iff.mpr rightMember)
    have same : left.revisionId.raw = right.revisionId.raw := by
      unfold RevisionRow.before at one two
      omega
    exact congrArg RevisionId.mk same
  · exact ((List.perm_insertionSort _ _).trans perm).trans (List.perm_insertionSort _ _).symm

theorem isRoot_perm (perm : first.Perm second) :
    RevisionGraph.isRoot first = RevisionGraph.isRoot second := by
  funext row
  unfold RevisionGraph.isRoot
  rw [perm.any_eq]

theorem filter_unique (unique : (first.map RevisionRow.revisionId).Nodup)
    (test : RevisionRow → Bool) : ((first.filter test).map RevisionRow.revisionId).Nodup :=
  unique.sublist (List.filter_sublist.map _)

theorem children_perm (unique : (first.map RevisionRow.revisionId).Nodup)
    (perm : first.Perm second) : RevisionGraph.children first = RevisionGraph.children second := by
  funext id
  unfold RevisionGraph.children
  rw [isRoot_perm perm]
  exact sort_eq_of_perm (filter_unique unique _) (perm.filter _)

theorem walk_congr (same : RevisionGraph.children first = RevisionGraph.children second) :
    RevisionGraph.walk first = RevisionGraph.walk second := by
  funext rounds
  induction rounds with
  | zero =>
      funext queue seen topo
      cases queue with
      | nil => rfl
      | cons row queue => rfl
  | succ rounds ih =>
      funext queue seen topo
      cases queue with
      | nil => rfl
      | cons row queue => rw [RevisionGraph.walk, RevisionGraph.walk, same, ih]

theorem find?_eq_some_of_mem (unique : (first.map RevisionRow.revisionId).Nodup)
    {row : RevisionRow} (stored : row ∈ first) :
    (first.find? fun other => other.revisionId = row.revisionId) = some row := by
  have found : (first.find? fun other => other.revisionId = row.revisionId).isSome := by
    rw [List.find?_isSome]
    exact ⟨row, stored, by simp⟩
  obtain ⟨other, isOther⟩ := Option.isSome_iff_exists.mp found
  have same : other.revisionId = row.revisionId := by simpa using List.find?_some isOther
  rw [isOther, RevisionGraph.eq_of_revisionId unique (List.mem_of_find?_eq_some isOther) stored same]

theorem parentEdge_of_mem (unique : (first.map RevisionRow.revisionId).Nodup)
    {row : RevisionRow} (stored : row ∈ first) :
    parentEdge first row.revisionId =
      if RevisionGraph.isRoot first row then none else some row.parent := by
  rw [parentEdge, find?_eq_some_of_mem unique stored]

theorem parentEdge_of_unknown {id : RevisionId} (unknown : ∀ row ∈ first, row.revisionId ≠ id) :
    parentEdge first id = none := by
  have none : (first.find? fun row => row.revisionId = id) = none := by
    rw [List.find?_eq_none]
    intro row stored
    simpa using unknown row stored
  rw [parentEdge, none]

theorem parentEdge_perm (unique : (first.map RevisionRow.revisionId).Nodup)
    (perm : first.Perm second) : parentEdge first = parentEdge second := by
  have unique' : (second.map RevisionRow.revisionId).Nodup := (perm.map _).nodup_iff.mp unique
  funext id
  by_cases known : ∃ row ∈ first, row.revisionId = id
  · obtain ⟨row, stored, rfl⟩ := known
    rw [parentEdge_of_mem unique stored, parentEdge_of_mem unique' (perm.mem_iff.mp stored),
      isRoot_perm perm]
  · have unknown : ∀ row ∈ first, row.revisionId ≠ id := fun row stored same =>
      known ⟨row, stored, same⟩
    rw [parentEdge_of_unknown unknown,
      parentEdge_of_unknown fun row stored => unknown row (perm.mem_iff.mpr stored)]

theorem graph_build_perm (perm : first.Perm second) :
    RevisionGraph.build first = RevisionGraph.build second := by
  have uniqueIff := (perm.map RevisionRow.revisionId).nodup_iff
  unfold RevisionGraph.build
  by_cases unique : (first.map RevisionRow.revisionId).Nodup
  · have children := children_perm unique perm
    have roots : (first.filter (RevisionGraph.isRoot first)).insertionSort RevisionRow.before =
        (second.filter (RevisionGraph.isRoot second)).insertionSort RevisionRow.before := by
      rw [isRoot_perm perm]
      exact sort_eq_of_perm (filter_unique unique _) (perm.filter _)
    have leaves : RevisionGraph.leaves first = RevisionGraph.leaves second := by
      funext topo
      unfold RevisionGraph.leaves
      rw [children]
    rw [if_neg (by simpa using unique), if_neg (by simpa using uniqueIff.mp unique), roots,
      walk_congr children, perm.length_eq, leaves]
  · rw [if_pos unique, if_pos (uniqueIff.not.mp unique)]

theorem build_perm (perm : first.Perm second) : build first = build second := by
  unfold build
  rw [graph_build_perm perm]
  cases built : RevisionGraph.build second with
  | error error => rfl
  | ok graph =>
      have unique : (first.map RevisionRow.revisionId).Nodup := by
        apply (perm.map RevisionRow.revisionId).nodup_iff.mpr
        by_contra dup
        rw [RevisionGraph.build, if_pos dup] at built
        cases built
      rw [parentEdge_perm unique perm, children_perm unique perm]

end Permuted

/-! ## The rows in order -/

/-- Every row that has a parent comes after it. -/
def ParentsFirst (rows topo : List RevisionRow) : Prop :=
  ∀ front row back, topo = front ++ row :: back →
    ∀ parent, InListParent rows parent row → parent ∈ front

theorem ParentsFirst.concat {rows topo : List RevisionRow} {row : RevisionRow}
    (ordered : ParentsFirst rows topo)
    (after : ∀ parent, InListParent rows parent row → parent ∈ topo) :
    ParentsFirst rows (topo ++ [row]) := by
  intro front other back split
  rcases List.eq_nil_or_concat back with rfl | ⟨rest, last, rfl⟩
  · obtain ⟨rfl, same⟩ := List.append_inj' split rfl
    obtain rfl := List.cons.inj same |>.1
    exact after
  · rw [List.concat_eq_append, ← List.cons_append, ← List.append_assoc] at split
    exact ordered front other rest (List.append_inj' split rfl).1

section Ordered

variable {rows : List RevisionRow} (unique : (rows.map RevisionRow.revisionId).Nodup)
include unique

/-- The next row of the queue comes after its parent. -/
theorem parent_taken {row : RevisionRow} {queue topo : List RevisionRow}
    (inv : RevisionGraph.WalkInv rows (row :: queue) topo) {parent : RevisionRow}
    (edge : InListParent rows parent row) : parent ∈ topo := by
  have queued : row ∈ topo ++ row :: queue := List.mem_append_right _ List.mem_cons_self
  rcases inv.reached row queued with root | ⟨taken, inTopo, isParent⟩
  · exact absurd edge ((isRoot_iff edge.2.1).mp root parent)
  · have stored := inv.stored taken (List.mem_append_left _ inTopo)
    rwa [RevisionGraph.eq_of_revisionId unique edge.1 stored (edge.2.2.2.trans isParent.symm)]

theorem walk_parentsFirst {rounds : Nat} {queue topo all : List RevisionRow}
    (inv : RevisionGraph.WalkInv rows queue topo) (ordered : ParentsFirst rows topo)
    (walked : RevisionGraph.walk rows rounds queue (topo ++ queue) topo = .ok all) :
    ParentsFirst rows all := by
  induction rounds generalizing queue topo with
  | zero =>
      cases queue with
      | nil =>
          obtain rfl := Except.ok.inj walked
          exact ordered
      | cons row queue =>
          obtain rfl := Except.ok.inj walked
          exact ordered
  | succ rounds ih =>
      cases queue with
      | nil =>
          obtain rfl := Except.ok.inj walked
          exact ordered
      | cons row queue =>
          rw [RevisionGraph.walk] at walked
          split at walked
          · cases walked
          · have split : topo ++ row :: queue ++ RevisionGraph.children rows row.revisionId =
                topo ++ [row] ++ (queue ++ RevisionGraph.children rows row.revisionId) := by
              simp
            rw [split] at walked
            exact ih (inv.next unique)
              (ordered.concat fun parent edge => parent_taken unique inv edge) walked

end Ordered

/-- What `build` returns when it does. -/
structure Built (rows : List RevisionRow) (index : RevisionIndex) : Prop where
  unique : (rows.map RevisionRow.revisionId).Nodup
  rooted : ∀ row ∈ rows, RevisionGraph.Rooted rows row
  perm : index.revisions.Perm rows
  parentsFirst : ParentsFirst rows index.revisions
  heads_eq : index.heads =
    (RevisionGraph.leaves rows index.revisions).map RevisionRow.revisionId
  parents_eq : index.parents = parentEdge rows
  byId_eq : index.byId = fun id => index.revisions.findIdx? fun row => row.revisionId = id

theorem built_of_build {rows : List RevisionRow} {index : RevisionIndex}
    (built : build rows = .ok index) : Built rows index := by
  obtain ⟨unique, acyclic⟩ := (build_ok_iff rows).mp ⟨index, built⟩
  have enough : rows.length + ([] : List RevisionRow).length = rows.length := Nat.add_zero _
  have start := RevisionGraph.WalkInv.start unique
  obtain ⟨topo, walked, done⟩ := RevisionGraph.walk_ok unique start enough
  have ordered : ParentsFirst rows topo := by
    apply walk_parentsFirst unique start _ walked
    intro front row back split
    simp at split
  rw [List.nil_append] at walked
  unfold build RevisionGraph.build at built
  rw [if_neg (by simpa using unique)] at built
  simp only [walked] at built
  split at built
  · next error failed =>
      split at failed
      · cases built
      · cases failed
  · next graph succeeded =>
      split at succeeded
      · cases succeeded
      · next sameLength =>
          obtain rfl := Except.ok.inj succeeded
          obtain rfl := Except.ok.inj built
          have nodup : topo.Nodup := by simpa using done.nodup
          have stored : ∀ row ∈ topo, row ∈ rows := by simpa using done.stored
          have perm : topo.Perm rows := (nodup.subperm stored).perm_of_length_le
            (Classical.not_not.mp sameLength).ge
          exact ⟨unique, (acyclic_iff_rooted unique).mp acyclic, perm, ordered, rfl, rfl, rfl⟩

namespace Built

variable {rows : List RevisionRow} {index : RevisionIndex} (built : Built rows index)
include built

/-- The heads are the unsuperseded rows without a child in the list. -/
theorem mem_heads_iff (id : RevisionId) :
    id ∈ index.heads ↔ ∃ row ∈ rows, row.revisionId = id ∧ row.supersededBy = none ∧
      ∀ child, ¬ InListParent rows row child := by
  rw [built.heads_eq]
  simp only [RevisionGraph.leaves, List.mem_map, List.mem_insertionSort, List.mem_filter,
    built.perm.mem_iff, Bool.and_eq_true, Option.isNone_iff_eq_none, List.isEmpty_iff,
    List.eq_nil_iff_forall_not_mem]
  constructor
  · rintro ⟨row, ⟨stored, kept, childless⟩, rfl⟩
    exact ⟨row, stored, rfl, kept, fun child edge =>
      childless child ((mem_children_iff stored).mpr edge)⟩
  · rintro ⟨row, stored, rfl, kept, childless⟩
    exact ⟨row, ⟨stored, kept, fun child isChild =>
      childless child ((mem_children_iff stored).mp isChild)⟩, rfl⟩

theorem nodup_heads : index.heads.Nodup := by
  rw [built.heads_eq, RevisionGraph.leaves]
  have sorted := List.perm_insertionSort RevisionRow.before
    (index.revisions.filter fun row => row.supersededBy.isNone &&
      (RevisionGraph.children rows row.revisionId).isEmpty)
  rw [(sorted.map RevisionRow.revisionId).nodup_iff]
  have unique := (built.perm.map RevisionRow.revisionId).nodup_iff.mpr built.unique
  exact filter_unique unique _

theorem contains_iff (id : RevisionId) :
    index.contains id = true ↔ ∃ row ∈ rows, row.revisionId = id := by
  rw [contains, built.byId_eq, List.findIdx?_isSome, List.any_eq_true]
  simp only [decide_eq_true_eq, built.perm.mem_iff]

theorem get_of_mem {row : RevisionRow} (stored : row ∈ rows) :
    index.get row.revisionId = some row := by
  have inside := (built.contains_iff row.revisionId).mpr ⟨row, stored, rfl⟩
  obtain ⟨position, found⟩ := Option.isSome_iff_exists.mp inside
  rw [get, found, Option.bind_some]
  rw [built.byId_eq, List.findIdx?_eq_some_iff_getElem] at found
  obtain ⟨bound, same, -⟩ := found
  have member := built.perm.mem_iff.mp (List.getElem_mem bound)
  rw [List.getElem?_eq_getElem bound,
    RevisionGraph.eq_of_revisionId built.unique member stored (by simpa using same)]

/-! ### Climbing -/

/-- A rooted row has a way up, which read down is its chain of parents. -/
theorem exists_climb {row : RevisionRow} (rooted : RevisionGraph.Rooted rows row) :
    ∃ chain, Climb index.parents row.revisionId chain ∧
      ParentChain rows chain.reverse row.revisionId ∧
      ∀ id ∈ chain, id ∈ rows.map RevisionRow.revisionId := by
  rw [built.parents_eq]
  induction rooted with
  | @root row stored root =>
      refine ⟨[row.revisionId], .root ?_, .root stored ((isRoot_iff stored).mp root), ?_⟩
      · rw [parentEdge_of_mem built.unique stored, if_pos root]
      · intro id member
        rw [List.mem_singleton.mp member]
        exact List.mem_map_of_mem stored
  | @child parent row rooted isChild ih =>
      obtain ⟨chain, climb, down, known⟩ := ih
      have edge := (mem_children_iff rooted.mem).mp isChild
      have notRoot := (RevisionGraph.mem_children.mp isChild).2.2
      refine ⟨row.revisionId :: chain, .step ?_ climb, ?_, ?_⟩
      · rw [parentEdge_of_mem built.unique edge.2.1, notRoot, edge.2.2.2]
        rfl
      · rw [List.reverse_cons]
        exact .child down edge
      · intro id member
        rcases List.mem_cons.mp member with rfl | later
        · exact List.mem_map_of_mem edge.2.1
        · exact known id later

/-- A way up visits each row once at most. -/
theorem length_climb {id : RevisionId} {chain : List RevisionId}
    (climb : Climb index.parents id chain)
    (known : ∀ id ∈ chain, id ∈ rows.map RevisionRow.revisionId) :
    chain.length ≤ index.revisions.length := by
  have bound := (climb.nodup.subperm known).length_le
  rwa [List.length_map, ← built.perm.length_eq] at bound

omit built in
theorem ancestorsLoop_of_climb {parents : RevisionId → Option RevisionId} {cursor : RevisionId}
    {chain : List RevisionId} (climb : Climb parents cursor chain) :
    ∀ rounds front, chain.length ≤ rounds →
      ancestorsLoop parents rounds cursor front = some (front ++ chain) := by
  induction climb with
  | root top =>
      intro rounds front enough
      cases rounds with
      | zero => simp at enough
      | succ rounds => simp only [ancestorsLoop, top]
  | step parent _ ih =>
      intro rounds front enough
      cases rounds with
      | zero => simp at enough
      | succ rounds =>
          simp only [ancestorsLoop, parent]
          rw [ih rounds _ (by simpa using enough), List.append_assoc]
          rfl

omit built in
theorem commonAncestorLoop_of_climb {parents : RevisionId → Option RevisionId}
    {cursor : RevisionId} {chain : List RevisionId} (aChain : List RevisionId)
    (climb : Climb parents cursor chain) :
    ∀ rounds, chain.length ≤ rounds →
      commonAncestorLoop parents aChain rounds cursor = some (meeting aChain chain) := by
  induction climb with
  | @root cursor top =>
      intro rounds enough
      cases rounds with
      | zero => simp at enough
      | succ rounds =>
          by_cases met : cursor ∈ aChain
          · simp [commonAncestorLoop, meeting, met]
          · simp [commonAncestorLoop, meeting, met, top]
  | @step cursor parent chain isParent _ ih =>
      intro rounds enough
      cases rounds with
      | zero => simp at enough
      | succ rounds =>
          by_cases met : cursor ∈ aChain
          · simp [commonAncestorLoop, meeting, met]
          · simp only [commonAncestorLoop, met, if_false, isParent]
            rw [ih rounds (by simpa using enough)]
            simp [meeting, met]

/-- `ancestors` of a row ends with the way up, read down. -/
theorem ancestors_of_known {id : RevisionId} (known : ∃ row ∈ rows, row.revisionId = id) :
    ∃ chain, Climb index.parents id chain ∧ index.ancestors id = some chain.reverse ∧
      ParentChain rows chain.reverse id ∧ chain.length ≤ index.revisions.length ∧
      ∀ id ∈ chain, ∃ row ∈ rows, row.revisionId = id := by
  have inside := (built.contains_iff id).mpr known
  obtain ⟨row, stored, rfl⟩ := known
  obtain ⟨chain, climb, down, inRows⟩ := built.exists_climb (built.rooted row stored)
  have bound := built.length_climb climb inRows
  refine ⟨chain, climb, ?_, down, bound, fun id member => List.mem_map.mp (inRows id member)⟩
  rw [ancestors, if_pos inside, ancestorsLoop_of_climb climb _ _ bound, List.nil_append]
  rfl

theorem ancestors_of_unknown {id : RevisionId} (unknown : ¬ ∃ row ∈ rows, row.revisionId = id) :
    index.ancestors id = some [] := by
  rw [ancestors, if_neg ((built.contains_iff id).not.mpr unknown)]

/-- `ancestors` ends for every id. -/
theorem ancestors_ends (id : RevisionId) : ∃ chain, index.ancestors id = some chain ∧
    ((∃ row ∈ rows, row.revisionId = id) ∧ ParentChain rows chain id ∨
      (¬ ∃ row ∈ rows, row.revisionId = id) ∧ chain = []) := by
  by_cases known : ∃ row ∈ rows, row.revisionId = id
  · obtain ⟨chain, -, reached, down, -⟩ := built.ancestors_of_known known
    exact ⟨chain.reverse, reached, .inl ⟨known, down⟩⟩
  · exact ⟨[], built.ancestors_of_unknown known, .inr ⟨known, rfl⟩⟩

/-- The common ancestor is where the two ways up meet. -/
theorem commonAncestor_of_known {a b : RevisionId} (aKnown : ∃ row ∈ rows, row.revisionId = a)
    (bKnown : ∃ row ∈ rows, row.revisionId = b) {aChain bChain : List RevisionId}
    (aClimb : Climb index.parents a aChain) (bClimb : Climb index.parents b bChain) :
    index.commonAncestor a b = some (meeting aChain bChain) := by
  have aInside := (built.contains_iff a).mpr aKnown
  have bInside := (built.contains_iff b).mpr bKnown
  rw [commonAncestor, aInside, bInside, if_neg (by decide)]
  by_cases same : a = b
  · subst same
    obtain rfl := aClimb.unique bClimb
    rw [if_pos rfl]
    cases aClimb with
    | root _ => simp [meeting]
    | step _ _ => simp [meeting]
  · obtain ⟨chain, climb, reached, -⟩ := built.ancestors_of_known aKnown
    obtain ⟨chain', climb', -, -, bound, -⟩ := built.ancestors_of_known bKnown
    obtain rfl := climb.unique aClimb
    obtain rfl := climb'.unique bClimb
    rw [if_neg same, reached]
    dsimp only
    rw [commonAncestorLoop_of_climb _ climb' _ bound]
    simp only [meeting, List.mem_reverse]

theorem commonAncestor_of_unknown {a b : RevisionId}
    (unknown : ¬ ((∃ row ∈ rows, row.revisionId = a) ∧ ∃ row ∈ rows, row.revisionId = b)) :
    index.commonAncestor a b = some none := by
  rw [← built.contains_iff, ← built.contains_iff] at unknown
  rw [commonAncestor, if_pos]
  cases aInside : index.contains a with
  | false => rfl
  | true =>
      cases bInside : index.contains b with
      | false => rfl
      | true => exact absurd ⟨aInside, bInside⟩ unknown

end Built

/-! ## The index -/

theorem map_canonicalHead_build (rows : List RevisionRow) :
    (build rows).map (·.canonicalHead) = (RevisionGraph.build rows).map (·.canonicalHead) := by
  unfold build
  cases RevisionGraph.build rows with
  | error error => rfl
  | ok graph => rfl

theorem canonicalHead_eq_none_iff (graph : RevisionGraph) :
    graph.canonicalHead = none ↔ graph.heads = [] := by
  constructor
  · intro none_
    by_contra some_
    have elected : graph.canonicalHead.isSome = true :=
      RevisionGraph.newest_isSome graph.heads none (.inl some_)
    rw [none_] at elected
    cases elected
  · intro empty
    rw [RevisionGraph.canonicalHead, empty]
    rfl

/-- `a` and `b` have the common ancestor `result`: the same from both sides, an ancestor of
both, and below every other. -/
structure Meets (index : RevisionIndex) (a b : RevisionId) (result : Option RevisionId) :
    Prop where
  eq : index.commonAncestor a b = some result
  comm : index.commonAncestor b a = some result
  lowest : ∃ aChain bChain, index.ancestors a = some aChain ∧ index.ancestors b = some bChain ∧
    (∀ met, result = some met → met ∈ aChain ∧ met ∈ bChain) ∧
    ∀ shared ∈ aChain, shared ∈ bChain →
      ∃ met above, result = some met ∧ index.ancestors met = some above ∧ shared ∈ above

theorem Built.meets {rows : List RevisionRow} {index : RevisionIndex} (built : Built rows index)
    (a b : RevisionId) : ∃ result, Meets index a b result := by
  by_cases known : (∃ row ∈ rows, row.revisionId = a) ∧ ∃ row ∈ rows, row.revisionId = b
  · obtain ⟨aChain, aClimb, aReached, -, -, aKnown⟩ := built.ancestors_of_known known.1
    obtain ⟨bChain, bClimb, bReached, -⟩ := built.ancestors_of_known known.2
    refine ⟨meeting aChain bChain, built.commonAncestor_of_known known.1 known.2 aClimb bClimb,
      ?_, aChain.reverse, bChain.reverse, aReached, bReached, ?_, ?_⟩
    · rw [built.commonAncestor_of_known known.2 known.1 bClimb aClimb,
        aClimb.meeting_comm bClimb]
    · intro met found
      simpa using mem_of_meeting found
    · intro shared inA inB
      rw [List.mem_reverse] at inA inB
      obtain ⟨met, found⟩ : ∃ met, meeting aChain bChain = some met := by
        rw [← Option.isSome_iff_exists, meeting, List.find?_isSome]
        exact ⟨shared, inB, by simpa using inA⟩
      obtain ⟨above, climb, below⟩ := bClimb.above_meeting found
      obtain ⟨chain, climb', reached, -⟩ :=
        built.ancestors_of_known (aKnown met (mem_of_meeting found).1)
      obtain rfl := climb.unique climb'
      exact ⟨met, above.reverse, found, reached, List.mem_reverse.mpr (below shared inA inB)⟩
  · obtain ⟨aChain, aReached, aCases⟩ := built.ancestors_ends a
    obtain ⟨bChain, bReached, bCases⟩ := built.ancestors_ends b
    refine ⟨none, built.commonAncestor_of_unknown known,
      built.commonAncestor_of_unknown fun both => known both.symm, aChain, bChain, aReached,
      bReached, nofun, ?_⟩
    intro shared inA inB
    rcases aCases with ⟨aKnown, -⟩ | ⟨-, rfl⟩
    · rcases bCases with ⟨bKnown, -⟩ | ⟨-, rfl⟩
      · exact absurd ⟨aKnown, bKnown⟩ known
      · cases inB
    · cases inA

/-- The index is right for every list of rows, and does not depend on their order. -/
theorem revision_index_correct (rows : List RevisionRow) :
    ((∃ index, build rows = .ok index) ↔
      (rows.map RevisionRow.revisionId).Nodup ∧ Acyclic rows) ∧
    (∀ other, other.Perm rows → build other = build rows) ∧
    (∀ redated, SameRows redated rows →
      (build redated).map (·.canonicalHead) = (build rows).map (·.canonicalHead)) ∧
    ∀ index, build rows = .ok index →
      index.revisions.Perm rows ∧ ParentsFirst rows index.revisions ∧
      (index.heads.Nodup ∧ ∀ id, id ∈ index.heads ↔ ∃ row ∈ rows, row.revisionId = id ∧
        row.supersededBy = none ∧ ∀ child, ¬ InListParent rows row child) ∧
      ((index.canonicalHead = none ↔ index.heads = []) ∧
        ∀ head, index.canonicalHead = some head →
          head ∈ index.heads ∧ ∀ other ∈ index.heads, other.raw ≤ head.raw) ∧
      (∀ id, ∃ chain, index.ancestors id = some chain ∧
        ((∃ row ∈ rows, row.revisionId = id) ∧ ParentChain rows chain id ∨
          (¬ ∃ row ∈ rows, row.revisionId = id) ∧ chain = [])) ∧
      ∀ a b, ∃ result, Meets index a b result := by
  refine ⟨build_ok_iff rows, fun other perm => build_perm perm, ?_, ?_⟩
  · intro redated same
    rw [map_canonicalHead_build, map_canonicalHead_build]
    exact RevisionGraph.canonicalHead_sameRows same
  · intro index accepted
    have built := built_of_build accepted
    exact ⟨built.perm, built.parentsFirst, ⟨built.nodup_heads, built.mem_heads_iff⟩,
      ⟨canonicalHead_eq_none_iff _, fun head elected =>
        ⟨RevisionGraph.canonicalHead_mem elected,
          (RevisionGraph.newest_le index.heads none elected).2⟩⟩,
      built.ancestors_ends, built.meets⟩

end RevisionIndex

end Pangolin.Store
