import Mathlib.Data.List.Nodup

/-!
# Climbing a forest

A forest given by the parent of each element.  The chain from an element up to its root
is unique and has no repetitions, the chain of an element met on the way is its end, and
two chains that meet at all meet at one lowest element, from whichever side one climbs.
-/

namespace Forest

universe u

variable {α : Type u} {up : α → Option α}

/-- The chain from an element up to its root. -/
inductive Climb (up : α → Option α) : α → List α → Prop where
  | root {element : α} : up element = none → Climb up element [element]
  | step {element parent : α} {chain : List α} :
      up element = some parent → Climb up parent chain → Climb up element (element :: chain)

theorem Climb.unique {element : α} {chain chain' : List α} (climb : Climb up element chain)
    (climb' : Climb up element chain') : chain = chain' := by
  induction climb generalizing chain' with
  | root top =>
      cases climb' with
      | root _ => rfl
      | step parent _ =>
          rw [top] at parent
          cases parent
  | step parent _ ih =>
      cases climb' with
      | root top =>
          rw [parent] at top
          cases top
      | step parent' rest =>
          obtain rfl := Option.some.inj (parent.symm.trans parent')
          rw [ih rest]

theorem Climb.head?_eq {element : α} {chain : List α} (climb : Climb up element chain) :
    chain.head? = some element := by
  cases climb with
  | root _ => rfl
  | step _ _ => rfl

theorem Climb.self_mem {element : α} {chain : List α} (climb : Climb up element chain) :
    element ∈ chain := List.mem_of_head? climb.head?_eq

/-- The chain of an element on the way is the rest of the way. -/
theorem Climb.split {element met : α} {chain : List α} (climb : Climb up element chain)
    (member : met ∈ chain) : ∃ front rest, chain = front ++ rest ∧ Climb up met rest := by
  induction climb with
  | root top =>
      obtain rfl := List.mem_singleton.mp member
      exact ⟨[], _, rfl, .root top⟩
  | step parent climb ih =>
      rcases List.mem_cons.mp member with rfl | later
      · exact ⟨[], _, rfl, .step parent climb⟩
      · obtain ⟨front, rest, rfl, above⟩ := ih later
        exact ⟨_ :: front, rest, rfl, above⟩

theorem Climb.nodup {element : α} {chain : List α} (climb : Climb up element chain) :
    chain.Nodup := by
  induction climb with
  | root _ => exact List.nodup_singleton _
  | step parent climb ih =>
      refine List.nodup_cons.mpr ⟨?_, ih⟩
      intro again
      obtain ⟨front, rest, chain, above⟩ := climb.split again
      -- the element's own chain would be longer than itself
      have longer := congrArg List.length (above.unique (.step parent climb))
      rw [chain, List.length_cons, List.length_append] at longer
      omega

/-- What is above an element on the way is on the way. -/
theorem Climb.subset {element met : α} {chain rest : List α} (climb : Climb up element chain)
    (member : met ∈ chain) (above : Climb up met rest) : ∀ higher ∈ rest, higher ∈ chain := by
  obtain ⟨front, rest', rfl, above'⟩ := climb.split member
  obtain rfl := above.unique above'
  intro higher inRest
  exact List.mem_append_right _ inRest

/-- Two elements on each other's way are the same. -/
theorem Climb.antisymm {first second : α} {chain chain' : List α} (climb : Climb up first chain)
    (climb' : Climb up second chain') (member : second ∈ chain) (member' : first ∈ chain') :
    first = second := by
  obtain ⟨front, rest, split, above⟩ := climb.split member
  obtain ⟨front', rest', split', above'⟩ := climb'.split member'
  rw [above.unique climb'] at split
  rw [above'.unique climb] at split'
  have shorter := congrArg List.length split
  have shorter' := congrArg List.length split'
  rw [List.length_append] at shorter shorter'
  have none : front = [] := List.length_eq_zero_iff.mp (by omega)
  rw [none, List.nil_append] at split
  have heads := climb.head?_eq
  rw [split, climb'.head?_eq] at heads
  exact (Option.some.inj heads).symm

/-- The rest of the way, from a place on it. -/
theorem Climb.rest {met : α} (front : List α) {back : List α} :
    ∀ {element : α}, Climb up element (front ++ met :: back) → Climb up met (met :: back) := by
  induction front with
  | nil =>
      intro element climb
      obtain rfl := Option.some.inj climb.head?_eq
      exact climb
  | cons first front ih =>
      intro element climb
      generalize way : first :: front ++ met :: back = chain at climb
      cases climb with
      | root _ =>
          have length := congrArg List.length way
          simp at length
      | step _ above =>
          obtain ⟨rfl, rfl⟩ := List.cons.inj way
          exact ih above

section Meeting

variable [DecidableEq α] {first second met : α} {chain chain' : List α}

/-- The first element of a way that is on another one as well. -/
def meeting (chain chain' : List α) : Option α := chain'.find? fun element => element ∈ chain

theorem mem_of_meeting (found : meeting chain chain' = some met) :
    met ∈ chain ∧ met ∈ chain' := by
  have test : decide (met ∈ chain) = true :=
    List.find?_some (p := fun element => decide (element ∈ chain)) found
  exact ⟨of_decide_eq_true test, List.mem_of_find?_eq_some found⟩

/-- Every shared element is above the first one met. -/
theorem Climb.above_meeting (climb' : Climb up second chain')
    (found : meeting chain chain' = some met) :
    ∃ above, Climb up met above ∧ ∀ shared ∈ chain, shared ∈ chain' → shared ∈ above := by
  obtain ⟨-, front, back, rfl, before⟩ := List.find?_eq_some_iff_append.mp found
  refine ⟨met :: back, climb'.rest front, ?_⟩
  intro shared member member'
  rcases List.mem_append.mp member' with early | late
  · have missing := before shared early
    simp [member] at missing
  · exact late

/-- The two ways meet in the same element from both sides. -/
theorem Climb.meeting_comm (climb : Climb up first chain) (climb' : Climb up second chain') :
    meeting chain chain' = meeting chain' chain := by
  cases found : meeting chain chain' with
  | none =>
      cases found' : meeting chain' chain with
      | none => rfl
      | some met =>
          obtain ⟨member', member⟩ := mem_of_meeting found'
          have missing := List.find?_eq_none.mp found met member'
          simp [member] at missing
  | some met =>
      obtain ⟨member, member'⟩ := mem_of_meeting found
      cases found' : meeting chain' chain with
      | none =>
          have missing := List.find?_eq_none.mp found' met member
          simp [member'] at missing
      | some met' =>
          obtain ⟨other', other⟩ := mem_of_meeting found'
          obtain ⟨above, climbMet, below⟩ := climb'.above_meeting found
          obtain ⟨above', climbMet', below'⟩ := climb.above_meeting found'
          rw [climbMet.antisymm climbMet' (below met' other other') (below' met member' member)]

end Meeting

end Forest
