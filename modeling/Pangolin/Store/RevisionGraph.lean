import Pangolin.Store.Schema
import Mathlib.Data.List.Sort

/-!
# The revision graph of one account

Revisions of an account form a forest by parent pointers.  Heads are the leaves
that no fork resolution superseded.  `RevisionGraph.build` re-derives the forest
from the rows by a breadth-first walk from the roots and refuses duplicate ids and
cycles.
-/

namespace Pangolin.Store

/-- `ORDER BY created_at ASC, revision_id ASC`. -/
def RevisionRow.before (first second : RevisionRow) : Prop :=
  first.createdAt < second.createdAt ∨
    (first.createdAt = second.createdAt ∧ first.revisionId.raw ≤ second.revisionId.raw)

instance : DecidableRel RevisionRow.before := fun first second =>
  inferInstanceAs (Decidable (first.createdAt < second.createdAt ∨
    (first.createdAt = second.createdAt ∧ first.revisionId.raw ≤ second.revisionId.raw)))

/-! ## Heads in SQL -/

/-- `NOT EXISTS` an unrevoked child of the row in the same account. -/
def hasUnrevokedChild (revisions : List RevisionRow) (row : RevisionRow) : Bool :=
  revisions.any fun child =>
    child.parent = row.revisionId && child.accountId = row.accountId && !child.revoked

/-- The head predicate of the head queries. -/
def isHeadRow (revisions : List RevisionRow) (row : RevisionRow) : Bool :=
  row.supersededBy.isNone && !row.revoked && !hasUnrevokedChild revisions row

/-- `account_heads_inline`. -/
def accountHeadRows (revisions : List RevisionRow) (accountId : AccountId) :
    List RevisionRow :=
  revisions.filter fun row => row.accountId = accountId && isHeadRow revisions row

/-- `account_heads`, in `created_at, revision_id` order. -/
def accountHeads (log : RevisionTables) (accountId : AccountId) :
    Except StoreError (List RevisionId) :=
  if log.accounts.any fun account => account.accountId = accountId then
    .ok (((accountHeadRows log.revisions accountId).insertionSort RevisionRow.before).map
      RevisionRow.revisionId)
  else
    .error .accountNotFound

/-- `read_revision_rows_inline`: the unrevoked rows of an account, in order. -/
def readRevisionRows (revisions : List RevisionRow) (accountId : AccountId) :
    List RevisionRow :=
  (revisions.filter fun row => row.accountId = accountId && !row.revoked).insertionSort
    RevisionRow.before

/-! ## The graph -/

structure RevisionGraph where
  /-- Every row, parents before children. -/
  revisions : List RevisionRow
  heads : List RevisionId
  deriving Repr, DecidableEq

namespace RevisionGraph

/-- A genesis row or an orphan whose parent is not in the input. -/
def isRoot (rows : List RevisionRow) (row : RevisionRow) : Bool :=
  row.parent = .genesisParent || !(rows.any fun other => other.revisionId = row.parent)

/-- The edges out of `id`, oldest child first. -/
def children (rows : List RevisionRow) (id : RevisionId) : List RevisionRow :=
  (rows.filter fun row => row.parent = id && !isRoot rows row).insertionSort
    RevisionRow.before

/-- The breadth-first walk.  `seen` holds every row ever queued; queueing one twice
is a cycle.  Each round takes one row off the queue, so as many rounds as there are
rows suffice. -/
def walk (rows : List RevisionRow) :
    (rounds : Nat) → (queue seen topo : List RevisionRow) →
      Except StoreError (List RevisionRow)
  | _, [], _, topo => .ok topo
  | 0, _ :: _, _, topo => .ok topo
  | rounds + 1, row :: queue, seen, topo =>
      let kids := children rows row.revisionId
      if kids.any fun kid => seen.any fun old => old.revisionId = kid.revisionId then
        .error (.corrupted "revision lineage contains a cycle")
      else
        walk rows rounds (queue ++ kids) (seen ++ kids) (topo ++ [row])

/-- The heads of a walked graph: unsuperseded rows without children, in
`created_at, revision_id` order. -/
def leaves (rows topo : List RevisionRow) : List RevisionRow :=
  (topo.filter fun row => row.supersededBy.isNone && (children rows row.revisionId).isEmpty)
    |>.insertionSort RevisionRow.before

def build (rows : List RevisionRow) : Except StoreError RevisionGraph :=
  if ¬ (rows.map RevisionRow.revisionId).Nodup then
    .error (.corrupted "duplicate revision_id in graph input")
  else
    let roots := (rows.filter (isRoot rows)).insertionSort RevisionRow.before
    match walk rows rows.length roots roots [] with
    | .error error => .error error
    | .ok topo =>
        if topo.length ≠ rows.length then
          .error (.corrupted "revision lineage contains a cycle (unreachable component)")
        else
          .ok ⟨topo, (leaves rows topo).map RevisionRow.revisionId⟩

/-- The canonical head: the leaf with the largest id, whatever the clocks say. -/
def canonicalHead (graph : RevisionGraph) : Option RevisionId :=
  graph.heads.foldl (fun best id =>
    match best with
    | none => some id
    | some old => if old.raw ≤ id.raw then some id else some old) none

end RevisionGraph

end Pangolin.Store
