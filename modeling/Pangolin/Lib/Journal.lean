import Mathlib.Data.List.Basic
import Mathlib.Data.List.Infix

/-!
# Journals of transactions

A machine that either accepts a transaction, with a new state and an event, or reverts and
keeps its state.  The journal of a run is the list of accepted transactions with their
events; a property of the state and the journal that every accepted transaction keeps
holds after every run.
-/

namespace Journal

universe u v w x

variable {State : Type u} {Tx : Type v} {Revert : Type w} {Event : Type x}
variable (execute : State → Tx → Except Revert (State × Event))

/-- Submit one transaction; a revert leaves the state as it was. -/
def submit (state : State) (tx : Tx) : State :=
  match execute state tx with
  | .ok (state', _) => state'
  | .error _ => state

/-- Submit transactions in order. -/
def run (start : State) (txs : List Tx) : State := txs.foldl (submit execute) start

/-- The accepted transactions of a run with their events, oldest first. -/
def accepted (start : State) : List Tx → List (Tx × Event)
  | [] => []
  | tx :: txs =>
      match execute start tx with
      | .ok (state, event) => (tx, event) :: accepted state txs
      | .error _ => accepted start txs

/-- The events of a run, oldest first. -/
def events (start : State) (txs : List Tx) : List Event :=
  (accepted execute start txs).map Prod.snd

variable {execute} {start state state' : State} {tx : Tx} {event : Event} {revert : Revert}

theorem submit_of_ok (done : execute state tx = .ok (state', event)) :
    submit execute state tx = state' := by
  simp only [submit, done]

theorem submit_of_error (failed : execute state tx = .error revert) :
    submit execute state tx = state := by
  simp only [submit, failed]

theorem run_append (first second : List Tx) :
    run execute start (first ++ second) = run execute (run execute start first) second :=
  List.foldl_append

theorem run_singleton : run execute state [tx] = submit execute state tx := rfl

theorem accepted_append (first second : List Tx) :
    accepted execute start (first ++ second) =
      accepted execute start first ++ accepted execute (run execute start first) second := by
  induction first generalizing start with
  | nil => rfl
  | cons tx first ih =>
      simp only [List.cons_append, accepted, run, List.foldl_cons, submit]
      cases execute start tx with
      | error revert => exact ih
      | ok result =>
          simp only [List.cons_append]
          rw [ih]
          rfl

theorem accepted_singleton_of_ok (done : execute state tx = .ok (state', event)) :
    accepted execute state [tx] = [(tx, event)] := by
  simp only [accepted, done]

theorem accepted_singleton_of_error (failed : execute state tx = .error revert) :
    accepted execute state [tx] = [] := by
  simp only [accepted, failed]

/-- What every accepted transaction keeps, of the state and of the journal, holds after
every run. -/
theorem run_invariant (Inv : State → List (Tx × Event) → Prop) (initial : Inv start [])
    (kept : ∀ state history tx state' event, Inv state history →
      execute state tx = .ok (state', event) → Inv state' (history ++ [(tx, event)]))
    (txs : List Tx) : Inv (run execute start txs) (accepted execute start txs) := by
  induction txs using List.reverseRecOn with
  | nil => exact initial
  | append_singleton txs tx ih =>
      rw [run_append, accepted_append]
      cases outcome : execute (run execute start txs) tx with
      | error revert =>
          rw [accepted_singleton_of_error outcome, List.append_nil, run_singleton,
            submit_of_error outcome]
          exact ih
      | ok result =>
          obtain ⟨state', event⟩ := result
          rw [accepted_singleton_of_ok outcome, run_singleton, submit_of_ok outcome]
          exact kept _ _ tx state' event ih outcome

/-- Where an entry of the journal comes from. -/
theorem accepted_split {txs : List Tx} {before after : List (Tx × Event)}
    (entries : accepted execute start txs = before ++ (tx, event) :: after) :
    ∃ earlier later state', txs = earlier ++ tx :: later ∧
      accepted execute start earlier = before ∧
      execute (run execute start earlier) tx = .ok (state', event) ∧
      accepted execute state' later = after := by
  induction txs generalizing start before with
  | nil => simp [accepted] at entries
  | cons first txs ih =>
      simp only [accepted] at entries
      cases outcome : execute start first with
      | error revert =>
          simp only [outcome] at entries
          obtain ⟨earlier, later, state', split, known, done, rest⟩ := ih entries
          refine ⟨first :: earlier, later, state', ?_, ?_, ?_, rest⟩
          · rw [split, List.cons_append]
          · simpa only [accepted, outcome] using known
          · simpa only [run, List.foldl_cons, submit_of_error outcome] using done
      | ok result =>
          obtain ⟨middle, emitted⟩ := result
          simp only [outcome] at entries
          cases before with
          | nil =>
              simp only [List.nil_append, List.cons.injEq, Prod.mk.injEq] at entries
              obtain ⟨⟨rfl, rfl⟩, rest⟩ := entries
              exact ⟨[], txs, middle, rfl, rfl, outcome, rest⟩
          | cons entry before =>
              simp only [List.cons_append, List.cons.injEq] at entries
              obtain ⟨rfl, entries⟩ := entries
              obtain ⟨earlier, later, state', split, known, done, rest⟩ := ih entries
              refine ⟨first :: earlier, later, state', ?_, ?_, ?_, rest⟩
              · rw [split, List.cons_append]
              · simp only [accepted, outcome, known]
              · simpa only [run, List.foldl_cons, submit_of_ok outcome] using done

end Journal
