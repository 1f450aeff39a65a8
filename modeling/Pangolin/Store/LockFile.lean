import Mathlib.Data.List.Basic
import Mathlib.Logic.Function.Basic
import Pangolin.Lib.Reaches
import Mathlib.Algebra.Ring.Nat

/-!
# The lock file

A vault is opened by the process that creates the sidecar file next to it.  The file holds
the id of its creator, so that a lock whose holder is gone can be taken over: the next
process reads the id, looks whether it is alive, removes the file and creates it anew.
These are separate steps on one path, and other processes run in between.
-/

namespace Pangolin.Store

open Transition

/-- A process id as the system hands them out, a positive `pid_t`. -/
structure Pid where
  raw : Nat
  positive : 0 < raw
  fits : raw < 2 ^ 31
  deriving Repr, DecidableEq

/-- A line of the lock file: one that begins with `pid=`, with the number after it if it
parses, or any other. -/
inductive LockLine where
  | pid (value : Option Nat)
  | text
  deriving Repr, DecidableEq

/-- A file that was created at the path.  The path may be unlinked and created again, so a
file is known by its own number. -/
structure LockFile where
  inode : Nat
  creator : Pid
  lines : List LockLine
  deriving Repr, DecidableEq

/-- The writes of `stamp_lock_file`. -/
def stampLines (pid : Pid) : List LockLine := [.text, .pid (some pid.raw), .text]

/-- `parse_lock_pid`: the first line that begins with `pid=` decides. -/
def parseLockPid : List LockLine → Option Nat
  | [] => none
  | .pid value :: _ => value
  | .text :: lines => parseLockPid lines

/-- Where a process is in `acquire_lock` or `release_lock`. -/
inductive LockPhase where
  | idle
  /-- About to create the file. -/
  | opening
  /-- The file exists. -/
  | inspecting
  /-- What was read from it. -/
  | testing (owner : Option Nat)
  /-- Judged stale. -/
  | reclaiming
  /-- Removed, about to create it once more. -/
  | reopening
  /-- Created, with the writes that are left. -/
  | stamping (inode : Nat) (left : List LockLine)
  /-- `acquire_lock` has returned `Ok`. -/
  | holding (inode : Nat)
  /-- `release_lock` was called. -/
  | releasing (inode : Nat)
  /-- Crashed or exited. -/
  | exited
  deriving Repr, DecidableEq

structure LockWorld where
  file : Option LockFile
  nextInode : Nat
  phase : Pid → LockPhase

inductive LockOp where
  /-- A process calls `acquire_lock`. -/
  | acquire (pid : Pid)
  /-- Its next step on the file system, which may fail. -/
  | advance (pid : Pid) (succeeds : Bool)
  | release (pid : Pid)
  | exit (pid : Pid)
  deriving Repr, DecidableEq

namespace LockWorld

/-- No file, and every process yet to start. -/
def start : LockWorld := ⟨none, 0, fun _ => .idle⟩

def withPhase (world : LockWorld) (pid : Pid) (phase : LockPhase) : LockWorld :=
  { world with phase := Function.update world.phase pid phase }

/-- `is_pid_alive`: a number that is no process id is dead. -/
def isPidAlive (world : LockWorld) (value : Nat) : Bool :=
  if valid : 0 < value ∧ value < 2 ^ 31 then
    world.phase ⟨value, valid.1, valid.2⟩ ≠ .exited
  else
    false

/-- `create_new` on the path; what follows when the file exists is up to the caller. -/
def createNew (world : LockWorld) (pid : Pid) (found : LockPhase) (succeeds : Bool) :
    LockWorld :=
  if succeeds then
    match world.file with
    | some _ => world.withPhase pid found
    | none =>
        { file := some ⟨world.nextInode, pid, []⟩
          nextInode := world.nextInode + 1
          phase := Function.update world.phase pid (.stamping world.nextInode (stampLines pid)) }
  else
    world.withPhase pid .idle

/-- A write through the handle; it shows at the path only if the file is still there. -/
def writeLine (world : LockWorld) (inode : Nat) (line : LockLine) : LockWorld :=
  { world with file := world.file.map fun file =>
      if file.inode = inode then { file with lines := file.lines ++ [line] } else file }

/-- `remove_file` on the path. -/
def removeFile (world : LockWorld) (succeeds : Bool) : LockWorld :=
  if succeeds then { world with file := none } else world

/-- The next step of a process.  A read that fails counts as a missing id, and the writes and
removals ignore their errors. -/
def advance (world : LockWorld) (pid : Pid) (succeeds : Bool) : LockWorld :=
  match world.phase pid with
  | .opening => world.createNew pid .inspecting succeeds
  | .inspecting =>
      world.withPhase pid (.testing
        (if succeeds then world.file.bind fun file => parseLockPid file.lines else none))
  | .testing owner =>
      world.withPhase pid (if owner.any world.isPidAlive then .idle else .reclaiming)
  | .reclaiming => (world.removeFile succeeds).withPhase pid .reopening
  | .reopening => world.createNew pid .idle succeeds
  | .stamping inode [] => world.withPhase pid (.holding inode)
  | .stamping inode (line :: left) =>
      (if succeeds then world.writeLine inode line else world).withPhase pid (.stamping inode left)
  | .releasing _ => (world.removeFile succeeds).withPhase pid .idle
  | .idle | .holding _ | .exited => world

def step (world : LockWorld) : LockOp → LockWorld
  | .acquire pid => if world.phase pid = .idle then world.withPhase pid .opening else world
  | .advance pid succeeds => world.advance pid succeeds
  | .release pid =>
      match world.phase pid with
      | .holding inode => world.withPhase pid (.releasing inode)
      | _ => world
  | .exit pid => world.withPhase pid .exited

/-- The process holds the lock. -/
def holds (world : LockWorld) (pid : Pid) : Bool :=
  match world.phase pid with
  | .holding _ => true
  | _ => false

end LockWorld

/-! ## Who has which file open -/

/-- The file a process has open. -/
def LockPhase.opened : LockPhase → Option Nat
  | .stamping inode _ | .holding inode | .releasing inode => some inode
  | _ => none

/-- The writes a process has left. -/
def LockPhase.unwritten : LockPhase → List LockLine
  | .stamping _ left => left
  | _ => []

/-- Whatever happens: an open file at the path is the creator's, and so is what it says. -/
structure LockInv (world : LockWorld) : Prop where
  fresh : ∀ file ∈ world.file, file.inode < world.nextInode
  opened : ∀ pid inode, (world.phase pid).opened = some inode →
    inode < world.nextInode ∧ ∀ file ∈ world.file, file.inode = inode → file.creator = pid
  lines : ∀ file ∈ world.file, ∀ line ∈ file.lines, line ∈ stampLines file.creator
  unwritten : ∀ pid, ∀ line ∈ (world.phase pid).unwritten, line ∈ stampLines pid

section

variable {world : LockWorld}

@[simp] theorem LockWorld.withPhase_file (pid : Pid) (phase : LockPhase) :
    (world.withPhase pid phase).file = world.file := rfl

@[simp] theorem LockWorld.withPhase_nextInode (pid : Pid) (phase : LockPhase) :
    (world.withPhase pid phase).nextInode = world.nextInode := rfl

theorem LockWorld.withPhase_phase (pid other : Pid) (phase : LockPhase) :
    (world.withPhase pid phase).phase other = if other = pid then phase else world.phase other := by
  simp only [withPhase, Function.update_apply]

/-- A process moves on with the file it has open, or with none. -/
theorem LockInv.withPhase (inv : LockInv world) {pid : Pid} {phase : LockPhase}
    (opened : phase.opened = none ∨ phase.opened = (world.phase pid).opened)
    (unwritten : phase.unwritten ⊆ (world.phase pid).unwritten) :
    LockInv (world.withPhase pid phase) := by
  refine ⟨inv.fresh, ?_, inv.lines, ?_⟩
  · intro other inode isOpen
    rw [LockWorld.withPhase_phase] at isOpen
    split at isOpen
    · next same =>
        subst same
        rcases opened with none | before
        · rw [none] at isOpen
          cases isOpen
        · rw [before] at isOpen
          exact inv.opened other inode isOpen
    · exact inv.opened other inode isOpen
  · intro other line member
    rw [LockWorld.withPhase_phase] at member
    split at member
    · next same =>
        subst same
        exact inv.unwritten other line (unwritten member)
    · exact inv.unwritten other line member

theorem LockInv.createNew (inv : LockInv world) {pid : Pid} {found : LockPhase}
    (opened : found.opened = none) (unwritten : found.unwritten = []) (succeeds : Bool) :
    LockInv (world.createNew pid found succeeds) := by
  unfold LockWorld.createNew
  split
  · split
    · exact inv.withPhase (.inl opened) (by rw [unwritten]; exact List.nil_subset _)
    · next absent =>
        refine ⟨?_, ?_, ?_, ?_⟩
        · rintro file ⟨⟩
          exact Nat.lt_succ_self _
        · intro other inode isOpen
          simp only [Function.update_apply] at isOpen
          split at isOpen
          · next same =>
              subst same
              obtain rfl := Option.some.inj isOpen
              refine ⟨Nat.lt_succ_self _, ?_⟩
              rintro file ⟨⟩ -
              rfl
          · obtain ⟨older, -⟩ := inv.opened other inode isOpen
            refine ⟨Nat.lt_succ_of_lt older, ?_⟩
            rintro file ⟨⟩ same
            exact absurd same (Nat.ne_of_gt older)
        · rintro file ⟨⟩ line member
          cases member
        · intro other line member
          simp only [Function.update_apply] at member
          split at member
          · next same =>
              subst same
              exact member
          · exact inv.unwritten other line member
  · exact inv.withPhase (.inl rfl) (List.nil_subset _)

theorem LockInv.removeFile (inv : LockInv world) (succeeds : Bool) :
    LockInv (world.removeFile succeeds) := by
  unfold LockWorld.removeFile
  split
  · refine ⟨?_, ?_, ?_, inv.unwritten⟩
    · rintro file ⟨⟩
    · intro pid inode isOpen
      refine ⟨(inv.opened pid inode isOpen).1, ?_⟩
      rintro file ⟨⟩
    · rintro file ⟨⟩
  · exact inv

/-- The file after a write has one line more, if it is the one written to. -/
theorem mem_writeLine {inode : Nat} {line : LockLine} {file : LockFile}
    (member : file ∈ (world.writeLine inode line).file) :
    ∃ old ∈ world.file, file.inode = old.inode ∧ file.creator = old.creator ∧
      ∀ other ∈ file.lines, other ∈ old.lines ∨ old.inode = inode ∧ other = line := by
  obtain ⟨old, stored, rfl⟩ := Option.map_eq_some_iff.mp member
  refine ⟨old, stored, ?_, ?_, ?_⟩
  · split <;> rfl
  · split <;> rfl
  · intro other inLines
    split at inLines
    · next same =>
        refine (List.mem_append.mp inLines).imp id ?_
        exact fun new => ⟨same, List.mem_singleton.mp new⟩
    · exact .inl inLines

theorem LockInv.writeLine (inv : LockInv world) {pid : Pid} {inode : Nat} {line : LockLine}
    (isOpen : (world.phase pid).opened = some inode) (own : line ∈ stampLines pid) :
    LockInv (world.writeLine inode line) := by
  refine ⟨?_, ?_, ?_, inv.unwritten⟩
  · intro file member
    obtain ⟨old, stored, sameInode, -⟩ := mem_writeLine member
    rw [sameInode]
    exact inv.fresh old stored
  · intro other otherInode otherOpen
    refine ⟨(inv.opened other otherInode otherOpen).1, ?_⟩
    intro file member same
    obtain ⟨old, stored, sameInode, sameCreator, -⟩ := mem_writeLine member
    rw [sameCreator]
    exact (inv.opened other otherInode otherOpen).2 old stored (sameInode.symm.trans same)
  · intro file member other inLines
    obtain ⟨old, stored, -, sameCreator, written⟩ := mem_writeLine member
    rw [sameCreator]
    rcases written other inLines with before | ⟨sameInode, rfl⟩
    · exact inv.lines old stored other before
    · rw [(inv.opened pid inode isOpen).2 old stored sameInode]
      exact own

theorem LockInv.advance (inv : LockInv world) (pid : Pid) (succeeds : Bool) :
    LockInv (world.advance pid succeeds) := by
  unfold LockWorld.advance
  split
  · exact inv.createNew rfl rfl succeeds
  · exact inv.withPhase (.inl rfl) (List.nil_subset _)
  · split
    · exact inv.withPhase (.inl rfl) (List.nil_subset _)
    · exact inv.withPhase (.inl rfl) (List.nil_subset _)
  · exact (inv.removeFile succeeds).withPhase (.inl rfl) (List.nil_subset _)
  · exact inv.createNew rfl rfl succeeds
  · next inode stage =>
      refine inv.withPhase (.inr ?_) (List.nil_subset _)
      rw [stage]
      rfl
  · next inode line left stage =>
      have isOpen : (world.phase pid).opened = some inode := by
        rw [stage]
        rfl
      have own : line ∈ stampLines pid := by
        apply inv.unwritten pid
        rw [stage]
        exact List.mem_cons_self
      split
      · apply (inv.writeLine isOpen own).withPhase
        · exact .inr isOpen.symm
        · show left ⊆ (world.phase pid).unwritten
          rw [stage]
          exact List.subset_cons_self line left
      · apply inv.withPhase
        · exact .inr isOpen.symm
        · rw [stage]
          exact List.subset_cons_self line left
  · exact (inv.removeFile succeeds).withPhase (.inl rfl) (List.nil_subset _)
  · exact inv
  · exact inv
  · exact inv

theorem LockInv.step (inv : LockInv world) (op : LockOp) : LockInv (world.step op) := by
  cases op with
  | acquire pid =>
      unfold LockWorld.step
      simp only
      split
      · exact inv.withPhase (.inl rfl) (List.nil_subset _)
      · exact inv
  | advance pid succeeds => exact inv.advance pid succeeds
  | release pid =>
      unfold LockWorld.step
      simp only
      split
      · next inode stage =>
          refine inv.withPhase (.inr ?_) (List.nil_subset _)
          rw [stage]
          rfl
      · exact inv
  | exit pid => exact inv.withPhase (.inl rfl) (List.nil_subset _)

theorem LockInv.start : LockInv .start := by
  refine ⟨?_, ?_, ?_, ?_⟩
  · rintro file ⟨⟩
  · rintro pid inode ⟨⟩
  · rintro file ⟨⟩
  · intro pid line member
    cases member

end

/-! ## Mutual exclusion -/

/-- A process that judged the lock stale removes no file that its creator still has open. -/
def LockWorld.SafeRemoval (world : LockWorld) : LockOp → Prop
  | .advance pid true =>
      world.phase pid = .reclaiming →
        ∀ file ∈ world.file, (world.phase file.creator).opened ≠ some file.inode
  | _ => True

instance (world : LockWorld) : (op : LockOp) → Decidable (world.SafeRemoval op)
  | .advance pid true => inferInstanceAs (Decidable (world.phase pid = .reclaiming →
      ∀ file ∈ world.file, (world.phase file.creator).opened ≠ some file.inode))
  | .advance _ false | .acquire _ | .release _ | .exit _ => .isTrue trivial

/-- What a process has open is at the path. -/
def LockWorld.Owned (world : LockWorld) : Prop :=
  ∀ pid inode, (world.phase pid).opened = some inode → ∃ file ∈ world.file, file.inode = inode

namespace LockWorld

variable {world : LockWorld}

theorem Owned.withPhase (owned : world.Owned) {pid : Pid} {phase : LockPhase}
    (opened : phase.opened = none ∨ phase.opened = (world.phase pid).opened) :
    (world.withPhase pid phase).Owned := by
  intro other inode isOpen
  rw [withPhase_phase] at isOpen
  split at isOpen
  · next same =>
      subst same
      rcases opened with none | before
      · rw [none] at isOpen
        cases isOpen
      · rw [before] at isOpen
        exact owned other inode isOpen
  · exact owned other inode isOpen

theorem Owned.createNew (owned : world.Owned) {pid : Pid} {found : LockPhase}
    (opened : found.opened = none) (succeeds : Bool) :
    (world.createNew pid found succeeds).Owned := by
  unfold LockWorld.createNew
  split
  · split
    · exact owned.withPhase (.inl opened)
    · next absent =>
        intro other inode isOpen
        simp only [Function.update_apply] at isOpen
        split at isOpen
        · exact ⟨_, rfl, Option.some.inj isOpen⟩
        · obtain ⟨file, stored, -⟩ := owned other inode isOpen
          rw [absent] at stored
          cases stored
  · exact owned.withPhase (.inl rfl)

/-- Removing a file hurts nobody when only the process that removes it may have it open. -/
theorem Owned.removeFile (owned : world.Owned) {pid : Pid} {phase : LockPhase} {succeeds : Bool}
    (closed : phase.opened = none)
    (unused : succeeds = true → ∀ other, other ≠ pid → (world.phase other).opened = none) :
    ((world.removeFile succeeds).withPhase pid phase).Owned := by
  cases succeeds with
  | false => exact owned.withPhase (.inl closed)
  | true =>
      intro other inode isOpen
      rw [withPhase_phase] at isOpen
      split at isOpen
      · rw [closed] at isOpen
        cases isOpen
      · next different =>
          have := unused rfl other different
          rw [show ((world.removeFile true).phase other).opened = (world.phase other).opened from rfl,
            this] at isOpen
          cases isOpen

theorem Owned.writeLine (owned : world.Owned) (inode : Nat) (line : LockLine) :
    (world.writeLine inode line).Owned := by
  intro pid other isOpen
  obtain ⟨file, stored, same⟩ := owned pid other isOpen
  refine ⟨_, Option.map_eq_some_iff.mpr ⟨file, stored, rfl⟩, ?_⟩
  split <;> exact same

/-- With a file at the path, only its creator can have anything open. -/
theorem Owned.creator (owned : world.Owned) (inv : LockInv world) {pid : Pid} {inode : Nat}
    (isOpen : (world.phase pid).opened = some inode) :
    ∃ file ∈ world.file, file.inode = inode ∧ file.creator = pid := by
  obtain ⟨file, stored, same⟩ := owned pid inode isOpen
  exact ⟨file, stored, same, (inv.opened pid inode isOpen).2 file stored same⟩

/-- At most one process has the lock file open. -/
theorem Owned.unique (owned : world.Owned) (inv : LockInv world) {first second : Pid}
    {inode other : Nat} (firstOpen : (world.phase first).opened = some inode)
    (secondOpen : (world.phase second).opened = some other) : first = second := by
  obtain ⟨file, stored, -, rfl⟩ := owned.creator inv firstOpen
  obtain ⟨again, storedAgain, -, rfl⟩ := owned.creator inv secondOpen
  rw [Option.mem_unique stored storedAgain]

theorem Owned.advance (owned : world.Owned) (inv : LockInv world) {pid : Pid} {succeeds : Bool}
    (safe : world.SafeRemoval (.advance pid succeeds)) : (world.advance pid succeeds).Owned := by
  unfold LockWorld.advance
  split
  · exact owned.createNew rfl succeeds
  · exact owned.withPhase (.inl rfl)
  · split <;> exact owned.withPhase (.inl rfl)
  · next stage =>
      apply owned.removeFile rfl
      rintro rfl other -
      -- an open file would be the one at the path, open in its creator
      by_contra someOpen
      obtain ⟨inode, isOpen⟩ := Option.ne_none_iff_exists'.mp someOpen
      obtain ⟨file, stored, rfl, rfl⟩ := owned.creator inv isOpen
      exact safe stage file stored isOpen
  · exact owned.createNew rfl succeeds
  · next inode stage =>
      refine owned.withPhase (.inr ?_)
      rw [stage]
      rfl
  · next inode line left stage =>
      have same : (LockPhase.stamping inode left).opened = (world.phase pid).opened := by
        rw [stage]
        rfl
      split
      · exact (owned.writeLine inode line).withPhase (.inr same)
      · exact owned.withPhase (.inr same)
  · next inode stage =>
      apply owned.removeFile rfl
      intro _ other different
      by_contra someOpen
      obtain ⟨otherInode, isOpen⟩ := Option.ne_none_iff_exists'.mp someOpen
      exact different (owned.unique inv isOpen (by rw [stage]; rfl))
  · exact owned
  · exact owned
  · exact owned

theorem Owned.step (owned : world.Owned) (inv : LockInv world) {op : LockOp}
    (safe : world.SafeRemoval op) : (world.step op).Owned := by
  cases op with
  | acquire pid =>
      unfold LockWorld.step
      simp only
      split
      · exact owned.withPhase (.inl rfl)
      · exact owned
  | advance pid succeeds => exact owned.advance inv safe
  | release pid =>
      unfold LockWorld.step
      simp only
      split
      · next inode stage =>
          refine owned.withPhase (.inr ?_)
          rw [stage]
          rfl
      · exact owned
  | exit pid => exact owned.withPhase (.inl rfl)

theorem holds_opened {pid : Pid} (holding : world.holds pid = true) :
    ∃ inode, (world.phase pid).opened = some inode := by
  unfold holds at holding
  split at holding
  · next inode stage => exact ⟨inode, by rw [stage]; rfl⟩
  · cases holding

/-! ## Taking over a lock whose creator is gone -/

theorem withPhase_withPhase (pid : Pid) (first second : LockPhase) :
    (world.withPhase pid first).withPhase pid second = world.withPhase pid second := by
  simp only [withPhase, Function.update_idem]

/-- The id in the file is its creator's, if there is one yet. -/
theorem parseLockPid_stamp {pid : Pid} {lines : List LockLine}
    (own : ∀ line ∈ lines, line ∈ stampLines pid) :
    parseLockPid lines = none ∨ parseLockPid lines = some pid.raw := by
  induction lines with
  | nil => exact .inl rfl
  | cons line lines ih =>
      have first := own line List.mem_cons_self
      have rest := ih fun other member => own other (List.mem_cons_of_mem _ member)
      simp only [stampLines, List.mem_cons, List.not_mem_nil, or_false] at first
      rcases first with rfl | rfl | rfl
      · exact rest
      · exact .inr rfl
      · exact rest

theorem isPidAlive_exited {pid : Pid} (gone : world.phase pid = .exited) :
    world.isPidAlive pid.raw = false := by
  unfold isPidAlive
  rw [dif_pos ⟨pid.positive, pid.fits⟩]
  exact decide_eq_false (not_not_intro gone)

/-- A step that reclaims nothing is safe. -/
theorem reaches_advance {pid : Pid} (stage : world.phase pid ≠ .reclaiming) :
    Reaches step SafeRemoval world (world.advance pid true) :=
  .tail (LockOp.advance pid true) .refl fun reclaiming => absurd reclaiming stage

/-- The writes end, and the process holds the lock. -/
theorem reaches_stamped {pid : Pid} {inode : Nat} {left : List LockLine}
    (stage : world.phase pid = .stamping inode left) :
    ∃ next, Reaches step SafeRemoval world next ∧ next.holds pid = true := by
  induction left generalizing world with
  | nil =>
      have returned : Reaches step SafeRemoval world (world.advance pid true) :=
        reaches_advance (by rw [stage]; nofun)
      refine ⟨_, returned, ?_⟩
      simp [LockWorld.advance, stage, holds, withPhase_phase]
  | cons line left ih =>
      have written : Reaches step SafeRemoval world (world.advance pid true) :=
        reaches_advance (by rw [stage]; nofun)
      have next : (world.advance pid true).phase pid = .stamping inode left := by
        simp [LockWorld.advance, stage, withPhase_phase]
      obtain ⟨last, run, holding⟩ := ih next
      exact ⟨last, written.trans run, holding⟩

theorem reaches_created {pid : Pid} (absent : world.file = none)
    (stage : world.phase pid = .reopening) :
    ∃ next, Reaches step SafeRemoval world next ∧ next.holds pid = true := by
  have created : Reaches step SafeRemoval world (world.advance pid true) :=
    reaches_advance (by rw [stage]; nofun)
  have next : (world.advance pid true).phase pid =
      .stamping world.nextInode (stampLines pid) := by
    simp [LockWorld.advance, stage, LockWorld.createNew, absent]
  obtain ⟨last, run, holding⟩ := reaches_stamped next
  exact ⟨last, created.trans run, holding⟩

/-- A process that runs alone takes over the lock of one that is gone. -/
theorem reacquires (inv : LockInv world) {file : LockFile} (stored : world.file = some file)
    (gone : world.phase file.creator = .exited) {pid : Pid} (idle : world.phase pid = .idle) :
    ∃ next, Reaches step SafeRemoval world next ∧ next.holds pid = true := by
  have different : file.creator ≠ pid := by
    rintro rfl
    rw [idle] at gone
    cases gone
  have stillGone (phase : LockPhase) :
      (world.withPhase pid phase).phase file.creator = .exited := by
    rw [withPhase_phase, if_neg different, gone]
  have self (phase : LockPhase) : (world.withPhase pid phase).phase pid = phase := by
    rw [withPhase_phase, if_pos rfl]
  have opening : Reaches step SafeRemoval world (world.withPhase pid .opening) := by
    have called : world.step (.acquire pid) = world.withPhase pid .opening := if_pos idle
    rw [← called]
    exact .tail (LockOp.acquire pid) .refl trivial
  have inspecting : Reaches step SafeRemoval (world.withPhase pid .opening)
      (world.withPhase pid .inspecting) := by
    have found : (world.withPhase pid .opening).advance pid true =
        world.withPhase pid .inspecting := by
      simp [LockWorld.advance, self, LockWorld.createNew, stored, withPhase_withPhase]
    rw [← found]
    exact reaches_advance (by rw [self]; nofun)
  have testing : Reaches step SafeRemoval (world.withPhase pid .inspecting)
      (world.withPhase pid (.testing (parseLockPid file.lines))) := by
    have read : (world.withPhase pid .inspecting).advance pid true =
        world.withPhase pid (.testing (parseLockPid file.lines)) := by
      simp [LockWorld.advance, self, stored, withPhase_withPhase]
    rw [← read]
    exact reaches_advance (by rw [self]; nofun)
  have reclaiming : Reaches step SafeRemoval
      (world.withPhase pid (.testing (parseLockPid file.lines)))
      (world.withPhase pid .reclaiming) := by
    have stale : (parseLockPid file.lines).any
        (world.withPhase pid (.testing (parseLockPid file.lines))).isPidAlive = false := by
      rcases parseLockPid_stamp (inv.lines file stored) with missing | owner
      · rw [missing]
        rfl
      · rw [owner]
        exact isPidAlive_exited (stillGone _)
    have judged : (world.withPhase pid (.testing (parseLockPid file.lines))).advance pid true =
        world.withPhase pid .reclaiming := by
      simp [LockWorld.advance, self, stale, withPhase_withPhase]
    rw [← judged]
    exact reaches_advance (by rw [self]; nofun)
  have reopening : Reaches step SafeRemoval (world.withPhase pid .reclaiming)
      ((world.withPhase pid .reclaiming).advance pid true) := by
    refine .tail (LockOp.advance pid true) .refl fun _ other present => ?_
    obtain rfl := Option.some.inj (stored.symm.trans present)
    rw [stillGone]
    nofun
  have removed : ((world.withPhase pid .reclaiming).advance pid true).file = none := by
    simp [LockWorld.advance, self, LockWorld.removeFile]
  have again : ((world.withPhase pid .reclaiming).advance pid true).phase pid = .reopening := by
    simp [LockWorld.advance, self, withPhase_phase]
  obtain ⟨next, run, holding⟩ := reaches_created removed again
  exact ⟨next, opening.trans (inspecting.trans (testing.trans (reclaiming.trans
    (reopening.trans run)))), holding⟩

end LockWorld

/-- The lock file excludes other holders as long as nobody removes, as stale, a file that a
live process has open, and a lock whose creator is gone can always be taken over. -/
theorem lock_file_excludes (world : LockWorld) :
    (Reaches LockWorld.step LockWorld.SafeRemoval .start world →
      ∀ first second, world.holds first = true → world.holds second = true → first = second) ∧
    (Reaches LockWorld.step (fun _ _ => True) .start world →
      ∀ file ∈ world.file, world.phase file.creator = .exited →
      ∀ pid, world.phase pid = .idle →
        ∃ next, Reaches LockWorld.step LockWorld.SafeRemoval world next ∧
          next.holds pid = true) := by
  constructor
  · intro run first second firstHolds secondHolds
    have both : LockInv world ∧ world.Owned := by
      refine run.invariant (fun state => LockInv state ∧ state.Owned) ?_ ⟨.start, nofun⟩
      rintro state op ⟨inv, owned⟩ safe
      exact ⟨inv.step op, owned.step inv safe⟩
    obtain ⟨inode, firstOpen⟩ := LockWorld.holds_opened firstHolds
    obtain ⟨other, secondOpen⟩ := LockWorld.holds_opened secondHolds
    exact both.2.unique both.1 firstOpen secondOpen
  · intro run file stored gone pid idle
    have inv : LockInv world := run.invariant LockInv (fun _ op inv _ => inv.step op) .start
    exact LockWorld.reacquires inv stored gone idle

namespace LockSample

def slow : Pid := ⟨1, by decide, by decide⟩

def quick : Pid := ⟨2, by decide, by decide⟩

/-- A call of `acquire_lock` whose every step succeeds, up to where it returns `Ok`. -/
def acquired (pid : Pid) : List LockOp :=
  .acquire pid :: List.replicate 5 (.advance pid true)

/-- The holder crashes. -/
def crashed : List LockOp := acquired slow ++ [.exit slow]

/-- The second process finds the file of the first before the id is in it, takes it for a
leftover and puts its own in its place; then the first one goes on with its writes. -/
def overtaken : List LockOp :=
  [.acquire slow, .advance slow true, .acquire quick] ++
    List.replicate 9 (.advance quick true) ++ List.replicate 4 (.advance slow true)

def run (ops : List LockOp) : LockWorld := ops.foldl LockWorld.step .start

end LockSample

theorem lock_file_excludes_crashed :
    (∀ first second, (LockSample.run LockSample.crashed).holds first = true →
      (LockSample.run LockSample.crashed).holds second = true → first = second) ∧
    ∃ next, Reaches LockWorld.step LockWorld.SafeRemoval
        (LockSample.run LockSample.crashed) next ∧
      next.holds LockSample.quick = true := by
  have safe : Reaches LockWorld.step LockWorld.SafeRemoval .start
      (LockSample.run LockSample.crashed) := .foldl LockSample.crashed (by decide)
  refine ⟨(lock_file_excludes _).1 safe, ?_⟩
  exact (lock_file_excludes _).2 (safe.mono fun _ _ _ => trivial)
    ⟨0, LockSample.slow, stampLines LockSample.slow⟩ (by decide) (by decide) LockSample.quick (by decide)

/-- Two live processes hold the lock. -/
theorem lock_file_held_twice :
    ¬ ∀ world, Reaches LockWorld.step (fun _ _ => True) .start world →
      ∀ first second, world.holds first = true → world.holds second = true → first = second := by
  intro excludes
  have run : Reaches LockWorld.step (fun _ _ => True) .start
      (LockSample.run LockSample.overtaken) := .foldl LockSample.overtaken (by decide)
  have same : LockSample.slow = LockSample.quick :=
    excludes _ run LockSample.slow LockSample.quick (by decide) (by decide)
  exact absurd same (by decide)

end Pangolin.Store
