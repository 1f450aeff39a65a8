import Mathlib.Data.List.Basic

/-!
# Runs of a state machine

A machine is a total step function: an operation that fails still leaves a state
behind.  A run is a chain of steps, each of which may be required to satisfy a
guard on the state before the step and on the operation.  The rules below turn a
statement about one guarded step into one about every run.
-/

namespace Transition

universe u v

variable {State : Type u} {Op : Type v}

/-- `Reaches step guard s t`: some run of guarded steps leads from `s` to `t`. -/
inductive Reaches (step : State → Op → State) (guard : State → Op → Prop) (start : State) :
    State → Prop where
  | refl : Reaches step guard start start
  | tail {middle : State} (op : Op) :
      Reaches step guard start middle → guard middle op →
        Reaches step guard start (step middle op)

/-- Every operation of a list meets the guard where its turn comes. -/
def Allowed (step : State → Op → State) (guard : State → Op → Prop) : State → List Op → Prop
  | _, [] => True
  | state, op :: ops => guard state op ∧ Allowed step guard (step state op) ops

/-- With a decidable guard, a list of operations can be checked by running it. -/
instance Allowed.decidable (step : State → Op → State) (guard : State → Op → Prop)
    [∀ state op, Decidable (guard state op)] :
    (state : State) → (ops : List Op) → Decidable (Allowed step guard state ops)
  | _, [] => .isTrue trivial
  | state, op :: ops =>
      have := decidable step guard (step state op) ops
      inferInstanceAs (Decidable (guard state op ∧ Allowed step guard (step state op) ops))

theorem allowed_append {step : State → Op → State} {guard : State → Op → Prop} {state : State}
    (first second : List Op) :
    Allowed step guard state (first ++ second) ↔
      Allowed step guard state first ∧ Allowed step guard (first.foldl step state) second := by
  induction first generalizing state with
  | nil => simp [Allowed]
  | cons op first ih => simp [Allowed, ih, and_assoc]

namespace Reaches

variable {step : State → Op → State} {guard weaker : State → Op → Prop}
variable {start middle finish : State}

/-- Runs compose. -/
theorem trans (first : Reaches step guard start middle)
    (second : Reaches step guard middle finish) : Reaches step guard start finish := by
  induction second with
  | refl => exact first
  | tail op _ allowed ih => exact .tail op ih allowed

/-- A list of allowed operations is a run. -/
theorem foldl (ops : List Op) (allowed : Allowed step guard start ops) :
    Reaches step guard start (ops.foldl step start) := by
  induction ops generalizing start with
  | nil => exact .refl
  | cons op ops ih =>
      exact (tail op refl allowed.1).trans (ih allowed.2)

/-- A run under a guard is a run under every guard it implies. -/
theorem mono (implies : ∀ state op, guard state op → weaker state op)
    (run : Reaches step guard start finish) : Reaches step weaker start finish := by
  induction run with
  | refl => exact .refl
  | tail op _ allowed ih => exact .tail op ih (implies _ op allowed)

/-- An invariant of one guarded step is an invariant of every run. -/
theorem invariant (Inv : State → Prop)
    (preserved : ∀ state op, Inv state → guard state op → Inv (step state op))
    (initial : Inv start) (run : Reaches step guard start finish) : Inv finish := by
  induction run with
  | refl => exact initial
  | tail op _ allowed ih => exact preserved _ op ih allowed

/-- A reflexive relation that each guarded step extends on the right relates the
two ends of every run.  The invariant is available at each intermediate state. -/
theorem relates (Inv : State → Prop) (Rel : State → State → Prop)
    (preserved : ∀ state op, Inv state → guard state op → Inv (step state op))
    (extended : ∀ origin state op, Inv state → guard state op → Rel origin state →
      Rel origin (step state op))
    (initial : Inv start) (reflexive : Rel start start)
    (run : Reaches step guard start finish) : Rel start finish := by
  induction run with
  | refl => exact reflexive
  | tail op before allowed ih =>
      exact extended _ _ op (before.invariant Inv preserved initial) allowed ih

end Reaches

end Transition
