import Mathlib.Logic.Function.Basic

/-!
# Interleaved tasks

A program is a tree of calls: each call is atomic, what comes after it depends on the
answer.  Tasks run programs over one shared state; between two calls of a task any other
task may move.  Every task works for a key.  A protocol says which calls a task may make in
which phase and how an answer changes the phase.  The rule at the end is of the
rely-guarantee kind: what a task knows in a phase survives the calls of the others, because
at most one task owns a key and the others can do nothing to what it knows.
-/

namespace Tasks

inductive Program (Call : Type) (Answer : Call → Type) (Value : Type) where
  | done (value : Value)
  | call (request : Call) (next : Answer request → Program Call Answer Value)

section

variable {Key Phase Call : Type} {Answer : Call → Type} {Value Value' : Type}

namespace Program

def bind : Program Call Answer Value → (Value → Program Call Answer Value') →
    Program Call Answer Value'
  | done value, rest => rest value
  | call request next, rest => .call request fun answer => (next answer).bind rest

instance : Monad (Program Call Answer) where
  pure := done
  bind := bind

/-- One call whose answer is the result. -/
def perform (call : Call) : Program Call Answer (Answer call) := .call call done

@[simp] theorem pure_eq (value : Value) :
    (pure value : Program Call Answer Value) = done value := rfl

@[simp] theorem done_bind (value : Value) (rest : Value → Program Call Answer Value') :
    (done value >>= rest : Program Call Answer Value') = rest value := rfl

@[simp] theorem perform_bind (call : Call) (rest : Answer call → Program Call Answer Value') :
    (perform call >>= rest : Program Call Answer Value') = .call call rest := rfl

end Program

/-- The calls a task may make for its key, phase by phase. -/
structure Protocol (Key Phase Call : Type) (Answer : Call → Type) where
  Allows : Key → Phase → Call → Prop
  after : Phase → (call : Call) → Answer call → Phase

/-- From `phase` on, whatever the answers are, the program makes allowed calls only, and
where it ends the postcondition holds. -/
def Follows (protocol : Protocol Key Phase Call Answer) (key : Key)
    (Post : Phase → Value → Prop) : Phase → Program Call Answer Value → Prop
  | phase, .done value => Post phase value
  | phase, .call call next => protocol.Allows key phase call ∧
      ∀ answer, Follows protocol key Post (protocol.after phase call answer) (next answer)

variable {protocol : Protocol Key Phase Call Answer} {key : Key} {phase : Phase}

theorem Follows.bind {Middle : Phase → Value → Prop} {Post : Phase → Value' → Prop}
    {program : Program Call Answer Value} {rest : Value → Program Call Answer Value'}
    (first : Follows protocol key Middle phase program)
    (second : ∀ phase value, Middle phase value → Follows protocol key Post phase (rest value)) :
    Follows protocol key Post phase (program >>= rest) := by
  induction program generalizing phase with
  | done value => exact second phase value first
  | call call next ih =>
      constructor
      · exact first.1
      · intro answer
        exact ih answer (first.2 answer)

end

/-! ## Tasks over a shared state -/

structure Task (Key Call : Type) (Answer : Call → Type) where
  key : Key
  program : Program Call Answer Unit

abbrev Pool (Key Call : Type) (Answer : Call → Type) := Nat → Option (Task Key Call Answer)

section

variable {Shared Key Phase Call Outcome : Type} {Answer : Call → Type}

/-- One call of one task; what the environment contributes is its outcome. -/
def advance (perform : Shared → Key → (call : Call) → Outcome → Shared × Answer call)
    (shared : Shared) (pool : Pool Key Call Answer) (id : Nat) (outcome : Outcome) :
    Shared × Pool Key Call Answer :=
  match pool id with
  | some ⟨key, .call call next⟩ =>
      let result := perform shared key call outcome
      (result.1, Function.update pool id (some ⟨key, next result.2⟩))
  | some ⟨_, .done ()⟩ => (shared, pool)
  | none => (shared, pool)

/-- A protocol with what a task knows in each phase.  `Inv` may speak of which keys have a
task in which phase. -/
structure Discipline (Shared Key Phase Call : Type) (Answer : Call → Type) extends
    Protocol Key Phase Call Answer where
  MayEnd : Phase → Prop
  Owner : Phase → Prop
  Holds : Shared → Key → Phase → Prop
  Inv : Shared → (Key → Phase → Prop) → Prop

/-- The key has a task in the phase. -/
def Held (pool : Pool Key Call Answer) (phases : Nat → Phase) (key : Key) (phase : Phase) :
    Prop :=
  ∃ id task, pool id = some task ∧ task.key = key ∧ phases id = phase

structure Coherent (discipline : Discipline Shared Key Phase Call Answer) (shared : Shared)
    (pool : Pool Key Call Answer) (phases : Nat → Phase) : Prop where
  follows : ∀ id task, pool id = some task →
    Follows discipline.toProtocol task.key (fun phase _ => discipline.MayEnd phase) (phases id)
      task.program
  holds : ∀ id task, pool id = some task → discipline.Holds shared task.key (phases id)
  single : ∀ id id' task task', pool id = some task → pool id' = some task' →
    task.key = task'.key → discipline.Owner (phases id) → discipline.Owner (phases id') → id = id'
  inv : discipline.Inv shared (Held pool phases)

/-- One allowed call, made where the caller's assertion and the invariant hold. -/
structure Move (discipline : Discipline Shared Key Phase Call Answer)
    (guard : Shared → Key → Call → Outcome → Prop) (shared : Shared)
    (held : Key → Phase → Prop) (key : Key) (phase : Phase) (call : Call)
    (outcome : Outcome) : Prop where
  allowed : discipline.Allows key phase call
  knows : discipline.Holds shared key phase
  inv : discipline.Inv shared held
  guarded : guard shared key call outcome

/-- What has to be shown about one call. -/
structure Sound (discipline : Discipline Shared Key Phase Call Answer)
    (perform : Shared → Key → (call : Call) → Outcome → Shared × Answer call)
    (guard : Shared → Key → Call → Outcome → Prop) : Prop where
  step : ∀ shared held key phase call outcome,
    Move discipline guard shared held key phase call outcome →
      discipline.Holds (perform shared key call outcome).1 key
        (discipline.after phase call (perform shared key call outcome).2)
  inv : ∀ shared held held' key phase call outcome,
    Move discipline guard shared held key phase call outcome →
      (∀ other since, held other since → held' other since ∨ other = key ∧ since = phase) →
      held' key (discipline.after phase call (perform shared key call outcome).2) →
        discipline.Inv (perform shared key call outcome).1 held'
  /-- Calls for another key change nothing a task knows. -/
  apart : ∀ shared held key phase call outcome,
    Move discipline guard shared held key phase call outcome →
      ∀ other since, other ≠ key → discipline.Holds shared other since →
        discipline.Holds (perform shared key call outcome).1 other since
  /-- Nor do the calls of an owner change what the others know of its key. -/
  bystander : ∀ shared held key phase call outcome,
    Move discipline guard shared held key phase call outcome →
      ∀ since, ¬ discipline.Owner since → discipline.Holds shared key since →
        discipline.Holds (perform shared key call outcome).1 key since
  /-- Who does not own a key cannot get it from its owner. -/
  intruder : ∀ shared held key phase call outcome,
    Move discipline guard shared held key phase call outcome → ¬ discipline.Owner phase →
      ∀ since, discipline.Owner since → discipline.Holds shared key since →
        discipline.Holds (perform shared key call outcome).1 key since ∧
          ¬ discipline.Owner (discipline.after phase call (perform shared key call outcome).2)
  mono : ∀ shared held held', (∀ key phase, held key phase → held' key phase) →
    discipline.Inv shared held → discipline.Inv shared held'

variable {discipline : Discipline Shared Key Phase Call Answer} {shared shared' : Shared}
variable {perform : Shared → Key → (call : Call) → Outcome → Shared × Answer call}
variable {guard : Shared → Key → Call → Outcome → Prop}
variable {pool : Pool Key Call Answer} {phases : Nat → Phase}

/-- The guard of the call the task is about to make. -/
def GuardedAt (guard : Shared → Key → Call → Outcome → Prop) (shared : Shared)
    (outcome : Outcome) : Option (Task Key Call Answer) → Prop
  | some ⟨key, .call call _⟩ => guard shared key call outcome
  | some ⟨_, .done ()⟩ => True
  | none => True

def Guarded (guard : Shared → Key → Call → Outcome → Prop) (shared : Shared)
    (pool : Pool Key Call Answer) (id : Nat) (outcome : Outcome) : Prop :=
  GuardedAt guard shared outcome (pool id)

instance [∀ shared key call outcome, Decidable (guard shared key call outcome)]
    (shared : Shared) (outcome : Outcome) :
    (slot : Option (Task Key Call Answer)) → Decidable (GuardedAt guard shared outcome slot)
  | some ⟨key, .call call _⟩ => inferInstanceAs (Decidable (guard shared key call outcome))
  | some ⟨_, .done ()⟩ => .isTrue trivial
  | none => .isTrue trivial

instance [∀ shared key call outcome, Decidable (guard shared key call outcome)]
    (shared : Shared) (pool : Pool Key Call Answer) (id : Nat) (outcome : Outcome) :
    Decidable (Guarded guard shared pool id outcome) :=
  inferInstanceAs (Decidable (GuardedAt guard shared outcome (pool id)))

/-- One call of one task keeps the tasks coherent. -/
theorem Coherent.advance (coherent : Coherent discipline shared pool phases)
    (sound : Sound discipline perform guard) {id : Nat} {outcome : Outcome}
    (guarded : Guarded guard shared pool id outcome) :
    ∃ phases', Coherent discipline (advance perform shared pool id outcome).1
      (advance perform shared pool id outcome).2 phases' := by
  rcases running : pool id with _ | ⟨key, ⟨⟨⟩⟩ | ⟨call, next⟩⟩
  · simp only [Tasks.advance, running]
    exact ⟨phases, coherent⟩
  · simp only [Tasks.advance, running]
    exact ⟨phases, coherent⟩
  · simp only [Guarded, GuardedAt, running] at guarded
    simp only [Tasks.advance, running]
    have follows := coherent.follows id _ running
    have move : Move discipline guard shared (Held pool phases) key (phases id) call outcome :=
      ⟨follows.1, coherent.holds id _ running, coherent.inv, guarded⟩
    generalize result : perform shared key call outcome = made
    have step := sound.step _ _ _ _ _ _ move
    have keeps := sound.inv _ _ (Held (Function.update pool id (some ⟨key, next made.2⟩))
      (Function.update phases id (discipline.after (phases id) call made.2))) _ _ _ _ move
    have apart := sound.apart _ _ _ _ _ _ move
    have bystander := sound.bystander _ _ _ _ _ _ move
    have intruder := sound.intruder _ _ _ _ _ _ move
    rw [result] at step keeps apart bystander intruder
    refine ⟨Function.update phases id (discipline.after (phases id) call made.2), ?_, ?_, ?_, ?_⟩
    · intro id' task found
      by_cases same : id' = id
      · subst same
        rw [Function.update_self] at found ⊢
        cases found
        exact follows.2 made.2
      · rw [Function.update_of_ne same] at found ⊢
        exact coherent.follows id' task found
    · intro id' task found
      by_cases same : id' = id
      · subst same
        rw [Function.update_self] at found ⊢
        cases found
        exact step
      · rw [Function.update_of_ne same] at found ⊢
        have known := coherent.holds id' task found
        by_cases shares : task.key = key
        · rw [shares] at known ⊢
          by_cases owns : discipline.Owner (phases id')
          · have foreign : ¬ discipline.Owner (phases id) := by
              intro also
              exact same (coherent.single id' id task _ found running shares owns also)
            exact (intruder foreign (phases id') owns known).1
          · exact bystander (phases id') owns known
        · exact apart task.key (phases id') shares known
    · -- an owner after the call was an owner before it, or there was none
      have becomes : ∀ id' task, id' ≠ id → pool id' = some task → task.key = key →
          discipline.Owner (phases id') →
          ¬ discipline.Owner (discipline.after (phases id) call made.2) := by
        intro id' task other found shares owns
        have known := coherent.holds id' task found
        rw [shares] at known
        have foreign : ¬ discipline.Owner (phases id) := by
          intro also
          exact other (coherent.single id' id task _ found running shares owns also)
        exact (intruder foreign (phases id') owns known).2
      intro first second task task' found found' shares owns owns'
      by_cases isFirst : first = id
      · by_cases isSecond : second = id
        · rw [isFirst, isSecond]
        · subst isFirst
          rw [Function.update_self] at found owns
          rw [Function.update_of_ne isSecond] at found' owns'
          cases found
          exact absurd owns (becomes second task' isSecond found' shares.symm owns')
      · rw [Function.update_of_ne isFirst] at found owns
        by_cases isSecond : second = id
        · subst isSecond
          rw [Function.update_self] at found' owns'
          cases found'
          exact absurd owns' (becomes first task isFirst found shares owns)
        · rw [Function.update_of_ne isSecond] at found' owns'
          exact coherent.single first second task task' found found' shares owns owns'
    · apply keeps
      · rintro other since ⟨id', task, found, rfl, rfl⟩
        by_cases same : id' = id
        · subst same
          rw [running] at found
          cases found
          exact Or.inr ⟨rfl, rfl⟩
        · refine Or.inl ⟨id', task, ?_, rfl, ?_⟩
          · rw [Function.update_of_ne same, found]
          · rw [Function.update_of_ne same]
      · refine ⟨id, ⟨key, next made.2⟩, ?_, rfl, ?_⟩
        · rw [Function.update_self]
        · rw [Function.update_self]

/-- A new task that owns nothing may start at any time. -/
theorem Coherent.spawn (coherent : Coherent discipline shared pool phases)
    (sound : Sound discipline perform guard) {id : Nat} (free : pool id = none)
    {task : Task Key Call Answer} {phase : Phase}
    (follows : Follows discipline.toProtocol task.key (fun phase _ => discipline.MayEnd phase)
      phase task.program)
    (knows : discipline.Holds shared task.key phase) (foreign : ¬ discipline.Owner phase) :
    Coherent discipline shared (Function.update pool id (some task))
      (Function.update phases id phase) := by
  refine ⟨?_, ?_, ?_, ?_⟩
  · intro id' task' found
    by_cases same : id' = id
    · subst same
      rw [Function.update_self] at found ⊢
      cases found
      exact follows
    · rw [Function.update_of_ne same] at found ⊢
      exact coherent.follows id' task' found
  · intro id' task' found
    by_cases same : id' = id
    · subst same
      rw [Function.update_self] at found ⊢
      cases found
      exact knows
    · rw [Function.update_of_ne same] at found ⊢
      exact coherent.holds id' task' found
  · intro first second task' task'' found found' shares owns owns'
    have isFirst : first ≠ id := by
      rintro rfl
      rw [Function.update_self] at owns
      exact foreign owns
    have isSecond : second ≠ id := by
      rintro rfl
      rw [Function.update_self] at owns'
      exact foreign owns'
    rw [Function.update_of_ne isFirst] at found owns
    rw [Function.update_of_ne isSecond] at found' owns'
    exact coherent.single first second task' task'' found found' shares owns owns'
  · apply sound.mono _ _ _ ?_ coherent.inv
    rintro key since ⟨id', task', found, shares, at'⟩
    have other : id' ≠ id := by
      rintro rfl
      rw [free] at found
      cases found
    refine ⟨id', task', ?_, shares, ?_⟩
    · rw [Function.update_of_ne other, found]
    · rw [Function.update_of_ne other, at']

/-- A change of the shared state that no assertion notices. -/
theorem Coherent.frame (coherent : Coherent discipline shared pool phases)
    (holds : ∀ key phase, discipline.Holds shared key phase → discipline.Holds shared' key phase)
    (inv : ∀ held, discipline.Inv shared held → discipline.Inv shared' held) :
    Coherent discipline shared' pool phases where
  follows := coherent.follows
  holds := fun id task found => holds _ _ (coherent.holds id task found)
  single := coherent.single
  inv := inv _ coherent.inv

/-! ## One program by itself -/

/-- The shared state after the first calls of a program, one for each outcome. -/
def drive {Value : Type}
    (perform : Shared → Key → (call : Call) → Outcome → Shared × Answer call) (key : Key) :
    Program Call Answer Value → Shared → List Outcome → Shared
  | .done _, shared, _ => shared
  | .call _ _, shared, [] => shared
  | .call call next, shared, outcome :: outcomes =>
      drive perform key (next (perform shared key call outcome).2)
        (perform shared key call outcome).1 outcomes

/-- What every allowed call keeps, phase by phase, holds of the program's state at any time. -/
theorem Follows.drive {Value : Type} {protocol : Protocol Key Phase Call Answer} {key : Key}
    {Post : Phase → Value → Prop} {phase : Phase} {program : Program Call Answer Value}
    {shared : Shared} (follows : Follows protocol key Post phase program)
    (perform : Shared → Key → (call : Call) → Outcome → Shared × Answer call)
    (outcomes : List Outcome) (Holds : Phase → Shared → Prop) (initial : Holds phase shared)
    (kept : ∀ phase shared call outcome, outcome ∈ outcomes → protocol.Allows key phase call →
      Holds phase shared → Holds (protocol.after phase call (perform shared key call outcome).2)
        (perform shared key call outcome).1) :
    ∃ phase, Holds phase (Tasks.drive perform key program shared outcomes) := by
  induction program generalizing phase shared outcomes with
  | done value =>
      cases outcomes <;> exact ⟨phase, initial⟩
  | call call next ih =>
      cases outcomes with
      | nil => exact ⟨phase, initial⟩
      | cons outcome outcomes =>
          apply ih _ (follows.2 _) outcomes (kept phase shared call outcome List.mem_cons_self
            follows.1 initial)
          intro phase shared call outcome member
          exact kept phase shared call outcome (List.mem_cons_of_mem _ member)

/-- What becomes of the result does not matter. -/
theorem drive_bind_done {Value : Type} (key : Key) (program : Program Call Answer Value)
    (shared : Shared) (outcomes : List Outcome) :
    drive perform key (program >>= fun _ => (.done () : Program Call Answer Unit)) shared
      outcomes = drive perform key program shared outcomes := by
  induction program generalizing shared outcomes with
  | done value => cases outcomes <;> rfl
  | call call next ih =>
      cases outcomes with
      | nil => rfl
      | cons outcome outcomes => exact ih _ _ outcomes

/-- A task that is the only one to move runs its program. -/
theorem foldl_advance {id : Nat} {key : Key} {program : Program Call Answer Unit}
    (outcomes : List Outcome) (running : pool id = some ⟨key, program⟩) :
    (outcomes.foldl (fun world outcome => Tasks.advance perform world.1 world.2 id outcome)
      (shared, pool)).1 = drive perform key program shared outcomes := by
  induction outcomes generalizing shared pool program with
  | nil => cases program <;> rfl
  | cons outcome outcomes ih =>
      cases program with
      | done value =>
          have same : Tasks.advance perform shared pool id outcome = (shared, pool) := by
            simp only [Tasks.advance, running]
          rw [List.foldl_cons, same, ih running]
          cases outcomes <;> rfl
      | call call next =>
          have moved : Tasks.advance perform shared pool id outcome =
              ((perform shared key call outcome).1, Function.update pool id
                (some ⟨key, next (perform shared key call outcome).2⟩)) := by
            simp only [Tasks.advance, running]
          rw [List.foldl_cons, moved, ih (Function.update_self id _ pool)]
          rfl

end

end Tasks
