import Mathlib.Data.List.Basic

/-!
# Fallible computations

Inversion rules for `Except`: what a successful sequence of fallible steps says about
the steps.  Proofs about a call take it apart with these instead of unfolding `bind`.
-/

namespace Fallible

universe u v

variable {ε : Type u} {α β : Type v}

/-- A sequence succeeds exactly when both parts do. -/
theorem bind_eq_ok_iff {first : Except ε α} {next : α → Except ε β} {result : β} :
    (first >>= next) = .ok result ↔ ∃ value, first = .ok value ∧ next value = .ok result := by
  cases first with
  | error error => simp [bind, Except.bind]
  | ok value => simp [bind, Except.bind]

/-- A sequence fails in its first part or after it. -/
theorem bind_eq_error_iff {first : Except ε α} {next : α → Except ε β} {error : ε} :
    (first >>= next) = .error error ↔
      first = .error error ∨ ∃ value, first = .ok value ∧ next value = .error error := by
  cases first with
  | error error => simp [bind, Except.bind]
  | ok value => simp [bind, Except.bind]

/-- A guard lets a call succeed exactly when it passes. -/
theorem guard_ok_iff {stop : Prop} [Decidable stop] {error : ε} {rest : Except ε α} :
    (∃ result, (if stop then .error error else rest) = .ok result) ↔
      ¬ stop ∧ ∃ result, rest = .ok result := by
  by_cases stops : stop
  · rw [if_pos stops]
    exact iff_of_false nofun fun both => both.1 stops
  · rw [if_neg stops]
    exact (and_iff_right stops).symm

/-- A failure is no success. -/
theorem not_exists_ok {error : ε} : ¬ ∃ result, (Except.error error : Except ε α) = .ok result := by
  rintro ⟨result, same⟩
  cases same

theorem exists_ok_eq (value : α) : ∃ result, (Except.ok value : Except ε α) = .ok result :=
  ⟨value, rfl⟩

/-- A loop whose steps all succeed with a known function. -/
theorem mapM_eq_ok_map {step : α → Except ε β} (result : α → β) {inputs : List α}
    (succeeds : ∀ input ∈ inputs, step input = .ok (result input)) :
    inputs.mapM step = .ok (inputs.map result) := by
  induction inputs with
  | nil => rfl
  | cons input inputs ih =>
      have rest := ih fun later member => succeeds later (List.mem_cons_of_mem _ member)
      rw [List.mapM_cons, succeeds input List.mem_cons_self, rest]
      rfl

/-- A loop whose steps all succeed with a function that is known where they do. -/
theorem mapM_eq_ok_filterMap {step : α → Except ε β} {result : α → Option β} {inputs : List α}
    (succeeds : ∀ input ∈ inputs, ∃ value, step input = .ok value ∧ result input = some value) :
    inputs.mapM step = .ok (inputs.filterMap result) := by
  induction inputs with
  | nil => rfl
  | cons input inputs ih =>
      obtain ⟨value, stepped, known⟩ := succeeds input List.mem_cons_self
      have rest := ih fun later member => succeeds later (List.mem_cons_of_mem _ member)
      rw [List.mapM_cons, stepped, rest, List.filterMap_cons_some known]
      rfl

/-- A loop whose steps all succeed, with what is known of each result. -/
theorem exists_mapM_ok {step : α → Except ε β} {known : α → β → Prop} {inputs : List α}
    (succeeds : ∀ input ∈ inputs, ∃ value, step input = .ok value ∧ known input value) :
    ∃ results, inputs.mapM step = .ok results ∧ List.Forall₂ known inputs results := by
  induction inputs with
  | nil => exact ⟨[], rfl, .nil⟩
  | cons input inputs ih =>
      obtain ⟨value, stepped, about⟩ := succeeds input List.mem_cons_self
      obtain ⟨values, looped, rest⟩ :=
        ih fun later member => succeeds later (List.mem_cons_of_mem _ member)
      refine ⟨value :: values, ?_, .cons about rest⟩
      rw [List.mapM_cons, stepped, looped]
      rfl

/-- Every step of a loop that succeeds does. -/
theorem step_ok_of_mapM {step : α → Except ε β} {inputs : List α} {results : List β}
    (looped : inputs.mapM step = .ok results) {input : α} (member : input ∈ inputs) :
    ∃ result, step input = .ok result := by
  induction inputs generalizing results with
  | nil => cases member
  | cons head tail ih =>
      rw [List.mapM_cons, bind_eq_ok_iff] at looped
      obtain ⟨first, stepped, rest⟩ := looped
      rw [bind_eq_ok_iff] at rest
      obtain ⟨others, loopedTail, -⟩ := rest
      cases List.mem_cons.mp member with
      | inl isHead =>
          subst isHead
          exact ⟨first, stepped⟩
      | inr inTail => exact ih loopedTail inTail

/-- Every result of a loop that succeeds is one of its steps'. -/
theorem step_of_mem_mapM {step : α → Except ε β} {inputs : List α} {results : List β}
    (looped : inputs.mapM step = .ok results) {result : β} (member : result ∈ results) :
    ∃ input ∈ inputs, step input = .ok result := by
  induction inputs generalizing results with
  | nil =>
      obtain rfl := Except.ok.inj looped
      cases member
  | cons head tail ih =>
      rw [List.mapM_cons, bind_eq_ok_iff] at looped
      obtain ⟨first, stepped, rest⟩ := looped
      rw [bind_eq_ok_iff] at rest
      obtain ⟨others, loopedTail, equal⟩ := rest
      obtain rfl := Except.ok.inj equal
      cases List.mem_cons.mp member with
      | inl isFirst =>
          subst isFirst
          exact ⟨head, List.mem_cons_self, stepped⟩
      | inr inOthers =>
          obtain ⟨input, inTail, opened⟩ := ih loopedTail inOthers
          exact ⟨input, List.mem_cons_of_mem _ inTail, opened⟩

/-- A loop that succeeds returns one result for each input. -/
theorem length_of_mapM {step : α → Except ε β} {inputs : List α} {results : List β}
    (looped : inputs.mapM step = .ok results) : results.length = inputs.length := by
  induction inputs generalizing results with
  | nil =>
      obtain rfl := Except.ok.inj looped
      rfl
  | cons head tail ih =>
      rw [List.mapM_cons, bind_eq_ok_iff] at looped
      obtain ⟨first, -, rest⟩ := looped
      rw [bind_eq_ok_iff] at rest
      obtain ⟨others, loopedTail, equal⟩ := rest
      obtain rfl := Except.ok.inj equal
      rw [List.length_cons, List.length_cons, ih loopedTail]

end Fallible
