import Mathlib.Data.List.Induction

/-!
# Trees over a list of leaves

The leaves are paired off level by level; an odd last node moves up as it is.  The path of
a leaf holds the siblings met on the way to the top, and folding the leaf with its path
gives the top again when pairing is symmetric.  No other node reaches the top, as long as
the pairs along its path are told apart from those of the tree.
-/

namespace Merkle

universe u

variable {Node : Type u} (pair : Node → Node → Node)

/-- One level up. -/
def nextLevel : List Node → List Node
  | [] => []
  | [node] => [node]
  | left :: right :: rest => pair left right :: nextLevel rest

/-- The sibling of the node at `index`, in a level that begins at `position`; an odd last
node has none. -/
def siblings (index : Nat) : Nat → List Node → List Node
  | _, [] => []
  | _, [_] => []
  | position, left :: right :: rest =>
      (if position = index then [right] else if position + 1 = index then [left] else []) ++
        siblings index (position + 2) rest

/-- Level by level up to a single node. -/
def climb : Nat → List Node → List Node
  | fuel + 1, left :: right :: rest => climb fuel (nextLevel pair (left :: right :: rest))
  | _, level => level

/-- The siblings of a node on its way to the top. -/
def path : Nat → List Node → Nat → List Node
  | fuel + 1, left :: right :: rest, index =>
      siblings index 0 (left :: right :: rest) ++
        path fuel (nextLevel pair (left :: right :: rest)) (index / 2)
  | _, _, _ => []

/-- The node a path leads to. -/
def ascend (node : Node) (path : List Node) : Node := path.foldl pair node

/-- The pairs a path combines on the way. -/
def combined (node : Node) : List Node → List (Node × Node)
  | [] => []
  | sibling :: path => (node, sibling) :: combined (pair node sibling) path

/-- The pairs of one level. -/
def levelPairs : List Node → List (Node × Node)
  | [] => []
  | [_] => []
  | left :: right :: rest => (left, right) :: levelPairs rest

/-- The pairs of the tree. -/
def treePairs : Nat → List Node → List (Node × Node)
  | fuel + 1, left :: right :: rest =>
      levelPairs (left :: right :: rest) ++
        treePairs fuel (nextLevel pair (left :: right :: rest))
  | _, _ => []

theorem length_nextLevel (level : List Node) :
    (nextLevel pair level).length = (level.length + 1) / 2 := by
  induction level using nextLevel.induct with
  | case1 => simp [nextLevel]
  | case2 node => simp [nextLevel]
  | case3 left right rest ih =>
      simp only [nextLevel, List.length_cons, ih]
      omega

/-- With enough fuel a level shrinks to one node. -/
theorem length_climb {fuel : Nat} {level : List Node} (nonempty : level ≠ [])
    (enough : level.length ≤ fuel) : (climb pair fuel level).length = 1 := by
  induction fuel generalizing level with
  | zero =>
      have empty := List.length_eq_zero_iff.mp (Nat.le_zero.mp enough)
      exact absurd empty nonempty
  | succ fuel ih =>
      match level with
      | [] => exact absurd rfl nonempty
      | [node] => rfl
      | left :: right :: rest =>
          rw [climb]
          have length := length_nextLevel pair (left :: right :: rest)
          simp only [List.length_cons] at length enough
          apply ih
          · exact List.ne_nil_of_length_pos (by omega)
          · omega

theorem siblings_add_two (index position : Nat) (level : List Node) :
    siblings (index + 2) (position + 2) level = siblings index position level := by
  induction position, level using siblings.induct with
  | case1 position => rfl
  | case2 position node => rfl
  | case3 position left right rest ih =>
      have shifted : position + 2 + 1 = position + 1 + 2 := by omega
      simp only [siblings, ih, shifted, Nat.add_right_cancel_iff]

theorem siblings_of_lt {index position : Nat} (passed : index < position) (level : List Node) :
    siblings index position level = [] := by
  induction position, level using siblings.induct with
  | case1 position => rfl
  | case2 position node => rfl
  | case3 position left right rest ih =>
      have here : position ≠ index := by omega
      have next : position + 1 ≠ index := by omega
      simp [siblings, here, next, ih (by omega)]

section

variable {pair} (symmetric : ∀ left right, pair left right = pair right left)
include symmetric

/-- A node and its sibling make the node above. -/
theorem getElem?_nextLevel {level : List Node} {index : Nat} {node : Node}
    (found : level[index]? = some node) :
    (nextLevel pair level)[index / 2]? = some (ascend pair node (siblings index 0 level)) := by
  induction level using nextLevel.induct generalizing index with
  | case1 => cases found
  | case2 single =>
      cases index with
      | zero => exact found
      | succ index => cases found
  | case3 left right rest ih =>
      match index with
      | 0 =>
          obtain rfl := Option.some.inj found
          simp [nextLevel, siblings, ascend, siblings_of_lt]
      | 1 =>
          obtain rfl := Option.some.inj found
          simp [nextLevel, siblings, ascend, siblings_of_lt, symmetric]
      | index + 2 =>
          have above := ih (show rest[index]? = some node from found)
          have half : (index + 2) / 2 = index / 2 + 1 := by omega
          rw [half, nextLevel, List.getElem?_cons_succ, above, siblings]
          simp [siblings_add_two]

/-- The path of a node leads to the top. -/
theorem ascend_path {fuel : Nat} {level : List Node} {index : Nat} {node : Node}
    (enough : level.length ≤ fuel) (found : level[index]? = some node) :
    climb pair fuel level = [ascend pair node (path pair fuel level index)] := by
  induction fuel generalizing level index node with
  | zero =>
      have empty := List.length_eq_zero_iff.mp (Nat.le_zero.mp enough)
      rw [empty] at found
      cases found
  | succ fuel ih =>
      match level with
      | [] => cases found
      | [single] =>
          cases index with
          | zero =>
              obtain rfl := Option.some.inj found
              rfl
          | succ index => cases found
      | left :: right :: rest =>
          have above := getElem?_nextLevel symmetric found
          have length := length_nextLevel pair (left :: right :: rest)
          simp only [List.length_cons] at length enough
          rw [climb, ih (by omega) above, path, ascend, ascend, ascend, List.foldl_append]

end

/-! ## What reaches the top -/

/-- A leaf, or a pair that the tree combines. -/
inductive Built (pairs : List (Node × Node)) (leaves : List Node) : Node → Prop where
  | leaf {node : Node} : node ∈ leaves → Built pairs leaves node
  | pair {left right : Node} : (left, right) ∈ pairs → Built pairs leaves left →
      Built pairs leaves right → Built pairs leaves (pair left right)

section

variable {pair} {pairs : List (Node × Node)} {leaves : List Node}

theorem Built.nextLevel {level : List Node}
    (built : ∀ node ∈ level, Built pair pairs leaves node)
    (combines : ∀ entry ∈ levelPairs level, entry ∈ pairs) :
    ∀ node ∈ Merkle.nextLevel pair level, Built pair pairs leaves node := by
  induction level using Merkle.nextLevel.induct with
  | case1 => exact built
  | case2 single => exact built
  | case3 left right rest ih =>
      intro node member
      rcases List.mem_cons.mp member with rfl | later
      · apply Built.pair
        · exact combines _ List.mem_cons_self
        · exact built left List.mem_cons_self
        · exact built right (List.mem_cons_of_mem _ List.mem_cons_self)
      · apply ih _ _ node later
        · exact fun other inRest =>
            built other (List.mem_cons_of_mem _ (List.mem_cons_of_mem _ inRest))
        · exact fun entry inRest => combines entry (List.mem_cons_of_mem _ inRest)

theorem Built.climb {fuel : Nat} {level : List Node}
    (built : ∀ node ∈ level, Built pair pairs leaves node)
    (combines : ∀ entry ∈ treePairs pair fuel level, entry ∈ pairs) :
    ∀ node ∈ Merkle.climb pair fuel level, Built pair pairs leaves node := by
  induction fuel generalizing level with
  | zero => exact built
  | succ fuel ih =>
      match level with
      | [] => exact built
      | [single] => exact built
      | left :: right :: rest =>
          rw [Merkle.climb]
          apply ih
          · apply Built.nextLevel built
            exact fun entry inLevel => combines entry (List.mem_append_left _ inLevel)
          · exact fun entry above => combines entry (List.mem_append_right _ above)

/-- Every node of the tree is built from its leaves. -/
theorem built_of_mem_climb (fuel : Nat) (leaves : List Node) {node : Node}
    (member : node ∈ climb pair fuel leaves) :
    Built pair (treePairs pair fuel leaves) leaves node := by
  apply Built.climb (fun leaf inLeaves => Built.leaf inLeaves) (fun _ inTree => inTree)
  exact member

theorem combined_concat (node last : Node) (path : List Node) :
    combined pair node (path ++ [last]) =
      combined pair node path ++ [(ascend pair node path, last)] := by
  induction path generalizing node with
  | nil => rfl
  | cons sibling path ih =>
      rw [List.cons_append, combined, combined, ih]
      rfl

/-- A node that reaches the top is a leaf, unless one of its pairs is that of two other
nodes, or a leaf. -/
theorem mem_of_ascend {node top : Node} {path : List Node} (built : Built pair pairs leaves top)
    (reaches : ascend pair node path = top)
    (noPair : ∀ entry ∈ pairs, pair entry.1 entry.2 ≠ node)
    (noLeaf : ∀ step ∈ combined pair node path, ∀ leaf ∈ leaves, pair step.1 step.2 ≠ leaf)
    (separate : ∀ step ∈ combined pair node path, ∀ entry ∈ pairs,
      pair step.1 step.2 = pair entry.1 entry.2 → step.1 = entry.1 ∨ step.1 = entry.2) :
    node ∈ leaves := by
  -- The last pair of the path is the top's, so the path before it leads to one of its two.
  induction path using List.reverseRecOn generalizing top with
  | nil =>
      cases built with
      | leaf member =>
          rw [← reaches] at member
          exact member
      | pair inPairs _ _ => exact absurd reaches.symm (noPair _ inPairs)
  | append_singleton path last ih =>
      rw [combined_concat] at noLeaf separate
      have lastStep : (ascend pair node path, last) ∈
          combined pair node path ++ [(ascend pair node path, last)] :=
        List.mem_append_right _ (List.mem_singleton.mpr rfl)
      have earlier : ∀ step ∈ combined pair node path, step ∈
          combined pair node path ++ [(ascend pair node path, last)] :=
        fun step member => List.mem_append_left _ member
      have paired : pair (ascend pair node path) last = top := by
        rw [← reaches, ascend, ascend, List.foldl_append]
        rfl
      have rest : ∀ {middle : Node}, Built pair pairs leaves middle →
          ascend pair node path = middle → node ∈ leaves := by
        intro middle middleBuilt middleReached
        apply ih middleBuilt middleReached
        · exact fun step member => noLeaf step (earlier step member)
        · exact fun step member => separate step (earlier step member)
      cases built with
      | leaf member => exact absurd paired (noLeaf _ lastStep _ member)
      | pair inPairs leftBuilt rightBuilt =>
          rcases separate _ lastStep _ inPairs paired with isLeft | isRight
          · exact rest leftBuilt isLeft
          · exact rest rightBuilt isRight

end

end Merkle
