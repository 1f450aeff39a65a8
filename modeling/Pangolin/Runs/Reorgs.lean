import Pangolin.Store.ForkedLog
import Pangolin.Runs.KeyInvariant

/-!
# Reorgs and local work

Ingest marks every row that carries the event's anchor as pending, also a row this
device authored, when it meets the echo of its own publication.  A rollback deletes the
pending rows of a block range with one statement that looks neither at the author nor at
the head pointers.

A vault therefore stays whole exactly as long as no rollback covers a pending row that
was authored here or that an account's head points to.  Then unlock always succeeds:
forked accounts hydrate because revision ids lead to no cycle, and foreign rows are
skipped.
-/

namespace Pangolin

open Symbolic Crypto Store Pangolin.Core Transition

/-- Only local edits store a drawn nonce: an ingest stores the placeholder. -/
def AuthoredHere (row : RevisionRow) : Prop := row.encNonce ≠ .placeholder

/-- Every row authored here is still there, with its content. -/
def KeepsAuthored (before after : List RevisionRow) : Prop :=
  ∀ row ∈ before, AuthoredHere row → ∃ kept ∈ after, SameContent row kept

namespace KeepsAuthored

variable {first second third : List RevisionRow}

theorem refl (rows : List RevisionRow) : KeepsAuthored rows rows :=
  fun row member _ => ⟨row, member, .refl row⟩

theorem trans (one : KeepsAuthored first second) (two : KeepsAuthored second third) :
    KeepsAuthored first third := by
  intro row member authored
  obtain ⟨kept, keptMember, same⟩ := one row member authored
  have stillAuthored : AuthoredHere kept := by
    unfold AuthoredHere
    rw [same.encNonce]
    exact authored
  obtain ⟨last, lastMember, sameLast⟩ := two kept keptMember stillAuthored
  exact ⟨last, lastMember, same.trans sameLast⟩

theorem map (rows : List RevisionRow) {change : RevisionRow → RevisionRow}
    (same : ∀ row, SameContent row (change row)) : KeepsAuthored rows (rows.map change) :=
  fun row member _ => ⟨change row, List.mem_map_of_mem member, same row⟩

theorem append (rows more : List RevisionRow) : KeepsAuthored rows (rows ++ more) :=
  fun row member _ => ⟨row, List.mem_append_left _ member, .refl row⟩

end KeepsAuthored

/-! ## Changes of the log -/

structure LogInv (rank : RevisionId → Nat) (ring : Nat → Option VdkKey) (vaultId : VaultId)
    (log : RevisionTables) : Prop where
  rows : RowsInv rank ring vaultId log.revisions
  heads : HeadsStored log.accounts log.revisions

section

variable {rank : RevisionId → Nat} {ring : Nat → Option VdkKey} {vaultId : VaultId}
variable {log log' : RevisionTables}

theorem LogInv.mapRows (inv : LogInv rank ring vaultId log) {change : RevisionRow → RevisionRow}
    (same : ∀ row, SameContent row (change row)) :
    LogInv rank ring vaultId { log with revisions := log.revisions.map change } :=
  ⟨inv.rows.map same, inv.heads.map same⟩

/-- An ingest stores at most a foreign row, and moves no head. -/
theorem LogInv.ingest {hash : CanonicalHash} {event : RevisionEvent} {isTombstone : Bool}
    {nowMs : Int} {outcome : IngestOutcome} (inv : LogInv rank ring vaultId log)
    (ranked : event.content.parent = .genesisParent ∨
      rank event.content.parent < rank (hash event.content))
    (ingested : ingestLog hash log event isTombstone nowMs = .ok (log', outcome)) :
    LogInv rank ring vaultId log' ∧ KeepsAuthored log.revisions log'.revisions := by
  rcases ingestLog_cases ingested with
    ⟨rfl, -, -⟩ | ⟨newId, -, -, -, ⟨twin, -, rfl, -⟩ | ⟨-, rfl, -⟩⟩
  · exact ⟨inv, .refl _⟩
  · have same := stampAnchor_sameContent twin.revisionId event.anchor
    exact ⟨inv.mapRows same, .map _ same⟩
  · refine ⟨⟨?_, ?_⟩, .append _ _⟩
    · exact inv.rows.append newId (.inl rfl) ranked
    · simp only [freezeAccount]
      split
      · apply HeadsStored.keepHead (inv.heads.append _)
        · exact fun _ => rfl
        · exact fun _ => rfl
      · exact (inv.heads.append _).addAccount (List.mem_append_right _ List.mem_cons_self) rfl rfl

theorem stampPending_sameContent (anchor : ChainAnchor) (observedAtBlock observedBlockHash : Nat)
    (row : RevisionRow) :
    SameContent row
      (if row.chainAnchor = some anchor then
        { row with
          status := .pending
          observedAtBlock := some observedAtBlock
          observedBlockHash := some observedBlockHash }
      else
        row) := by
  split <;> exact ⟨rfl, rfl, rfl, rfl, rfl, rfl, rfl⟩

theorem LogInv.promote {head : Nat} (inv : LogInv rank ring vaultId log)
    (promoted : promoteFinalizedLog log head = .ok log') :
    LogInv rank ring vaultId log' ∧ KeepsAuthored log.revisions log'.revisions := by
  unfold promoteFinalizedLog at promoted
  simp only at promoted
  split at promoted
  · cases promoted
  · obtain rfl := Except.ok.inj promoted
    have same : ∀ row : RevisionRow, SameContent row
        (if confirmedBy (head - confirmationDepth) row then
          { row with status := .finalized } else row) := by
      intro row
      split <;> exact ⟨rfl, rfl, rfl, rfl, rfl, rfl, rfl⟩
    exact ⟨inv.mapRows same, .map _ same⟩

/-- A rollback covers no row that was authored here or is an account's head. -/
def RollbackSafe (log : RevisionTables) (low high : Nat) : Prop :=
  ∀ row ∈ log.revisions, rolledBackBy low high row = true →
    ¬ AuthoredHere row ∧ ∀ account ∈ log.accounts,
      ¬ (account.accountId = row.accountId ∧ account.headRevisionId = row.revisionId)

theorem LogInv.rollback {low high : Nat} (inv : LogInv rank ring vaultId log)
    (safe : RollbackSafe log low high)
    (rolledBack : rollbackPendingLog log low high = .ok log') :
    LogInv rank ring vaultId log' ∧ KeepsAuthored log.revisions log'.revisions := by
  have kept : ∀ row ∈ log.revisions, ¬ rolledBackBy low high row = true →
      row ∈ log.revisions.filter fun row => !rolledBackBy low high row := by
    intro row member spared
    exact List.mem_filter.mpr ⟨member, by simpa using spared⟩
  unfold rollbackPendingLog at rolledBack
  split at rolledBack
  · cases rolledBack
  split at rolledBack
  · cases rolledBack
  obtain rfl := Except.ok.inj rolledBack
  refine ⟨⟨inv.rows.filter _, ?_⟩, ?_⟩
  · intro account member
    obtain ⟨row, stored, sameAccount, isHead⟩ := inv.heads account member
    refine ⟨row, kept row stored ?_, sameAccount, isHead⟩
    intro covered
    exact (safe row stored covered).2 account member ⟨sameAccount.symm, isHead.symm⟩
  · intro row member authored
    refine ⟨row, kept row member ?_, .refl row⟩
    intro covered
    exact (safe row member covered).1 authored

/-- The condition is exact: a rollback that covers an authored row deletes it, and one
that covers a head leaves the pointer dangling. -/
theorem rollbackSafe_iff {low high : Nat} (inv : LogInv rank ring vaultId log)
    (rolledBack : rollbackPendingLog log low high = .ok log') :
    RollbackSafe log low high ↔ KeepsAuthored log.revisions log'.revisions ∧
      HeadsStored log'.accounts log'.revisions := by
  constructor
  · intro safe
    obtain ⟨inv', kept⟩ := inv.rollback safe rolledBack
    exact ⟨kept, inv'.heads⟩
  · rintro ⟨kept, heads⟩ row member covered
    unfold rollbackPendingLog at rolledBack
    split at rolledBack
    · cases rolledBack
    split at rolledBack
    · cases rolledBack
    obtain rfl := Except.ok.inj rolledBack
    have gone : ∀ other ∈ log.revisions.filter (fun row => !rolledBackBy low high row),
        other.revisionId ≠ row.revisionId := by
      intro other otherMember sameId
      obtain ⟨stored, spared⟩ := List.mem_filter.mp otherMember
      obtain rfl := List.inj_on_of_nodup_map inv.rows.unique stored member sameId
      simp [covered] at spared
    constructor
    · intro authored
      obtain ⟨other, otherMember, same⟩ := kept row member authored
      exact gone other otherMember same.revisionId
    · rintro account accountMember ⟨-, isHead⟩
      obtain ⟨other, otherMember, -, otherHead⟩ := heads account accountMember
      exact gone other otherMember (otherHead.trans isHead)

/-- A local edit whose id outranks the stored ones. -/
theorem LogInv.write {row : RevisionRow} (inv : LogInv rank ring vaultId log)
    (fresh : ∀ old ∈ log.revisions, old.revisionId ≠ row.revisionId)
    (readable : Readable ring vaultId row)
    (outranks : ∀ old ∈ log.revisions, rank old.revisionId < rank row.revisionId)
    (wrote : LogWrite log row log') :
    LogInv rank ring vaultId log' ∧ KeepsAuthored log.revisions log'.revisions := by
  cases wrote with
  | added account genesis _ sameId head accounts revisions _ =>
      have rows := inv.rows.append fresh readable (.inl genesis)
      refine ⟨⟨?_, ?_⟩, ?_⟩
      · rw [revisions]
        exact rows
      · rw [accounts, revisions]
        exact (inv.heads.append row).addAccount (by simp) sameId head
      · rw [revisions]
        exact .append _ _
  | extended account change found next sameId newHead accounts revisions _ =>
      obtain ⟨parent, stored, -, isHead⟩ := inv.heads account (Table.mem_of_lookup found)
      have ranked : rank row.parent < rank row.revisionId := by
        rw [next, ← isHead]
        exact outranks parent stored
      refine ⟨⟨?_, ?_⟩, ?_⟩
      · rw [revisions]
        exact inv.rows.append fresh readable (.inr ranked)
      · rw [accounts, revisions]
        exact (inv.heads.append row).moveHead (by simp) sameId newHead
      · rw [revisions]
        exact .append _ _
  | resolved change _ isHead sameId newHead accounts revisions _ =>
      have same : ∀ old : RevisionRow, SameContent old
          (if old.accountId = row.accountId ∧ old.revisionId ∈ (accountHeadRows log.revisions
              row.accountId).map RevisionRow.revisionId ∧ old.revisionId ≠ row.parent then
            { old with supersededBy := some row.revisionId } else old) := by
        intro old
        split <;> exact ⟨rfl, rfl, rfl, rfl, rfl, rfl, rfl⟩
      have marked := inv.mapRows same
      have freshMarked : ∀ old ∈ supersedeLosers log.revisions row.accountId row.parent
          row.revisionId, old.revisionId ≠ row.revisionId := by
        intro old member
        obtain ⟨unmarked, stored, rfl⟩ := List.mem_map.mp member
        rw [(same unmarked).revisionId]
        exact fresh unmarked stored
      obtain ⟨parent, listed, isParent⟩ := List.mem_map.mp isHead
      have ranked : rank row.parent < rank row.revisionId := by
        rw [← isParent]
        exact outranks parent (List.mem_filter.mp listed).1
      refine ⟨⟨?_, ?_⟩, ?_⟩
      · rw [revisions]
        exact marked.rows.append freshMarked readable (.inr ranked)
      · rw [accounts, revisions]
        exact (marked.heads.append row).moveHead (by simp) sameId newHead
      · rw [revisions]
        exact (KeepsAuthored.map _ same).trans (.append _ _)

end

/-! ## Every run -/

/-- The calls of a run with reorgs.  Ids come into being in the order of the rank: a
drawn id after everything stored, an event's digest after the parent it covers.  A
rollback spares authored rows and heads. -/
def ReorgSafe (hash : CanonicalHash) (rank : RevisionId → Nat) (vault : Vault) : Op → Prop
  | .accountAdd _ _ draw | .accountUpdate _ _ draw | .deleteAccount _ draw
  | .resolveFork _ _ draw =>
      ∀ row ∈ vault.disk.log.revisions, rank row.revisionId < rank draw.revisionId
  | .ingestPending event .. =>
      event.content.parent = .genesisParent ∨
        rank event.content.parent < rank (hash event.content)
  | .markPublished .. => True
  | .promoteFinalized _ => True
  | .rollbackPending low high => RollbackSafe vault.disk.log low high
  | op => op.Ordinary

structure ReorgInv (rank : RevisionId → Nat) (password : Password) (vault : Vault) : Prop where
  core : KeyCore vault
  openable : Openable vault.disk.keys password
  log : LogInv rank (keyring vault.disk.keys) vault.vaultMeta.vaultId vault.disk.log

section

variable {rank : RevisionId → Nat} {password : Password} {vault vault' : Vault}

theorem ReorgInv.create (rank : RevisionId → Nat) {password : Password}
    (nonempty : password.bytes ≠ []) (draw : CreateDraw) :
    ReorgInv rank password (create password draw) where
  core := .create password draw
  openable := .fresh nonempty rfl (by simp [Store.create])
  log := by
    constructor
    · constructor <;> simp [Store.create]
    · simp [HeadsStored, Store.create]

/-- The invariant after a call, from what it did to the keys and to the log. -/
theorem ReorgInv.of_log (inv : ReorgInv rank password vault) (core : KeyCore vault')
    (same : SameRing vault vault')
    (log : LogInv rank (keyring vault.disk.keys) vault.vaultMeta.vaultId vault'.disk.log) :
    ReorgInv rank password vault' := by
  constructor
  · exact core
  · exact inv.openable.congr same.vaultMeta same.vdkChain
  · rw [same.keyring, core.metaSynced, same.vaultMeta, ← inv.core.metaSynced]
    exact log

theorem ReorgInv.logOnly (inv : ReorgInv rank password vault) (call : LogOnly vault vault')
    (log : LogInv rank (keyring vault.disk.keys) vault.vaultMeta.vaultId vault'.disk.log) :
    ReorgInv rank password vault' :=
  inv.of_log (inv.core.frame call.vaultMeta call.keys call.active) (.of_keys call.keys) log

/-- A local edit with a fresh id. -/
theorem ReorgInv.write {drawn : RevisionId} (inv : ReorgInv rank password vault)
    (outranks : ∀ row ∈ vault.disk.log.revisions, rank row.revisionId < rank drawn)
    (call : WriteCall vault vault' drawn) :
    ReorgInv rank password vault' ∧
      KeepsAuthored vault.disk.log.revisions vault'.disk.log.revisions := by
  obtain ⟨core, same⟩ := inv.core.effect (.of_writeCall call)
  rcases call with idle | ⟨active, row, payload, wrote, rfl⟩
  · rw [idle.disk]
    refine ⟨inv.of_log core same ?_, .refl _⟩
    rw [idle.disk]
    exact inv.log
  · obtain ⟨-, sealedRow⟩ := inv.core.sealedRow_of_write wrote
    obtain ⟨log, kept⟩ := inv.log.write wrote.fresh (.inr ⟨active.vdk, payload, sealedRow⟩)
      outranks wrote.log
    exact ⟨inv.of_log core same log, kept⟩

/-- A call that writes neither accounts nor revisions. -/
theorem ReorgInv.rest (inv : ReorgInv rank password vault) (effect : Effect vault vault')
    (accounts : vault'.disk.log.accounts = vault.disk.log.accounts)
    (revisions : vault'.disk.log.revisions = vault.disk.log.revisions) :
    ReorgInv rank password vault' ∧
      KeepsAuthored vault.disk.log.revisions vault'.disk.log.revisions := by
  obtain ⟨core, same⟩ := inv.core.effect effect
  rw [revisions]
  refine ⟨inv.of_log core same ⟨?_, ?_⟩, .refl _⟩
  · rw [revisions]
    exact inv.log.rows
  · rw [accounts, revisions]
    exact inv.log.heads

theorem ReorgInv.ingestPending {hash : CanonicalHash} {event : RevisionEvent}
    (inv : ReorgInv rank password vault)
    (ranked : event.content.parent = .genesisParent ∨
      rank event.content.parent < rank (hash event.content))
    (observedAtBlock observedBlockHash : Nat) (nowMs : Int) (now : Nat) :
    ReorgInv rank password (ingestPendingChainRevision hash vault event observedAtBlock
        observedBlockHash nowMs now).1 ∧
      KeepsAuthored vault.disk.log.revisions (ingestPendingChainRevision hash vault event
        observedAtBlock observedBlockHash nowMs now).1.disk.log.revisions := by
  have call := ingestPending_logOnly hash vault event observedAtBlock observedBlockHash nowMs now
  have log := ingestPendingChainRevision_log hash vault event observedAtBlock observedBlockHash
    nowMs now
  split at log
  · refine ⟨inv.logOnly call ?_, ?_⟩
    · rw [log]
      exact inv.log
    · rw [log]
      exact .refl _
  · next stored outcome ingested =>
      obtain ⟨inv', kept⟩ := inv.log.ingest ranked ingested
      split at log
      · have same := stampPending_sameContent event.anchor observedAtBlock observedBlockHash
        refine ⟨inv.logOnly call ?_, ?_⟩
        · rw [log]
          exact inv'.mapRows same
        · rw [log]
          exact kept.trans (.map _ same)
      · refine ⟨inv.logOnly call ?_, ?_⟩
        · rw [log]
          exact inv'
        · rw [log]
          exact kept

theorem ReorgInv.step {scheme : ShareScheme} {hash : CanonicalHash} {op : Op}
    (inv : ReorgInv rank password vault) (safe : ReorgSafe hash rank vault op) :
    ReorgInv rank password (step scheme hash vault op) ∧
      KeepsAuthored vault.disk.log.revisions
        (step scheme hash vault op).disk.log.revisions := by
  have rest := fun ordinary : op.Ordinary =>
    inv.rest (ordinary_effect scheme hash vault ordinary)
  cases op with
  | accountAdd validated accountId draw =>
      exact inv.write safe (accountAdd_writes vault validated accountId draw)
  | accountUpdate accountId patch draw =>
      exact inv.write safe (accountUpdate_writes vault accountId patch draw)
  | deleteAccount accountId draw =>
      exact inv.write safe (deleteAccount_writes vault accountId draw)
  | resolveFork accountId keep draw =>
      exact inv.write safe (resolveFork_writes vault accountId keep draw)
  | ingestPending event observedAtBlock observedBlockHash nowMs now =>
      exact inv.ingestPending safe observedAtBlock observedBlockHash nowMs now
  | markPublished revisionId anchor now =>
      have call := markPublished_logOnly vault revisionId anchor now
      cases markPublished_log vault revisionId anchor now with
      | inl unchanged =>
          rw [Pangolin.step, unchanged]
          refine ⟨inv.logOnly call ?_, .refl _⟩
          rw [unchanged]
          exact inv.log
      | inr stamped =>
          have same := stampAnchor_sameContent revisionId anchor
          rw [Pangolin.step, stamped]
          refine ⟨inv.logOnly call ?_, .map _ same⟩
          rw [stamped]
          exact inv.log.mapRows same
  | promoteFinalized head =>
      have call := atomically_logOnly vault (promoteFinalizedLog vault.disk.log head)
      have log := promoteFinalizedRevisions_log vault head
      rw [Pangolin.step, log]
      split at log
      · refine ⟨inv.logOnly call ?_, .refl _⟩
        rw [log]
        exact inv.log
      · next promoted =>
          obtain ⟨inv', kept⟩ := inv.log.promote promoted
          refine ⟨inv.logOnly call ?_, kept⟩
          rw [log]
          exact inv'
  | rollbackPending low high =>
      have call := atomically_logOnly vault (rollbackPendingLog vault.disk.log low high)
      have log := rollbackPendingRevisionsInRange_log vault low high
      rw [Pangolin.step, log]
      split at log
      · refine ⟨inv.logOnly call ?_, .refl _⟩
        rw [log]
        exact inv.log
      · next rolledBack =>
          obtain ⟨inv', kept⟩ := inv.log.rollback safe rolledBack
          refine ⟨inv.logOnly call ?_, kept⟩
          rw [log]
          exact inv'
  | unlock input =>
      obtain ⟨keys, written⟩ := unlock_disk vault input
      apply rest safe
      · rw [Pangolin.step, written]
      · rw [Pangolin.step, written]
  | lock | reopen _ _ | clearRecoveryRecipient _ | upsertDirectory _ | queueRotationPending _ =>
      exact rest safe rfl rfl
  | stashPendingMerge merge now =>
      apply rest safe
      · simp [Pangolin.step, stashPendingMerge]
      · simp [Pangolin.step, stashPendingMerge]
  | onboardGuardians threshold pubs signers draw =>
      obtain ⟨escrow, result⟩ := onboardGuardians_frame scheme vault threshold pubs signers draw
      apply rest safe
      · rw [Pangolin.step, result]
      · rw [Pangolin.step, result]
  | persistRecoveryRecipient target attemptNonce secret pub nowUnix =>
      obtain ⟨recipients, result⟩ :=
        persistRecoveryRecipient_frame vault target attemptNonce secret pub nowUnix
      apply rest safe
      · rw [Pangolin.step, result]
      · rw [Pangolin.step, result]
  | _ => exact absurd safe id

/-- Such a vault unlocks with its password. -/
theorem ReorgInv.unlock_ok (inv : ReorgInv rank password vault) {input : UnlockInput}
    (presence : input.presence = true) (samePassword : input.password = password) :
    ∃ unlocked, unlock vault input = (unlocked, .ok ()) := by
  subst samePassword
  have hydrates : ∀ chain : VdkChain, (∀ epoch,
      entryKey vault.disk.keys.vaultMeta.wrapped.msg chain epoch =
        keyring vault.disk.keys epoch) →
      ∃ data, buildActiveStateData vault.disk.log vault.vaultMeta.vaultId
        vault.disk.keys.vaultMeta.wrapped.msg chain = .ok data := by
    intro chain selects
    have ring : entryKey vault.disk.keys.vaultMeta.wrapped.msg chain =
        keyring vault.disk.keys := funext selects
    have rows := inv.log.rows
    rw [← ring] at rows
    exact buildActiveStateData_of_rowsInv rows inv.log.heads
  obtain ⟨unlocked, active, opened, -⟩ := inv.core.unlock_ok inv.openable presence hydrates
  exact ⟨unlocked, opened⟩

end

/-- Over every run of local edits, publications, ingests, promotions and rollbacks that
spare authored rows and heads: every head pointer names a stored row of its account,
every row authored before any point of the run is still there at the end, and the vault
unlocks with its password. -/
theorem reorgs_keep_local_work {scheme : ShareScheme} {hash : CanonicalHash}
    {rank : RevisionId → Nat} {password : Password} {created : CreateDraw}
    {middle vault : Vault} (nonempty : password.bytes ≠ [])
    (before : Reaches (step scheme hash) (ReorgSafe hash rank) (create password created) middle)
    (after : Reaches (step scheme hash) (ReorgSafe hash rank) middle vault) :
    HeadsStored vault.disk.log.accounts vault.disk.log.revisions ∧
      KeepsAuthored middle.disk.log.revisions vault.disk.log.revisions ∧
      ∀ input : UnlockInput, input.presence = true → input.password = password →
        ∃ unlocked, unlock vault input = (unlocked, .ok ()) := by
  have preserved : ∀ state op, ReorgInv rank password state → ReorgSafe hash rank state op →
      ReorgInv rank password (step scheme hash state op) := by
    intro state op inv safe
    exact (inv.step safe).1
  have middleInv : ReorgInv rank password middle := by
    apply before.invariant _ preserved
    exact ReorgInv.create rank nonempty created
  have inv : ReorgInv rank password vault := after.invariant _ preserved middleInv
  have kept : KeepsAuthored middle.disk.log.revisions vault.disk.log.revisions := by
    apply after.relates (ReorgInv rank password)
      (fun first second : Vault =>
        KeepsAuthored first.disk.log.revisions second.disk.log.revisions) preserved
    · intro origin state op inv safe kept
      exact kept.trans (inv.step safe).2
    · exact middleInv
    · exact .refl _
  refine ⟨inv.log.heads, kept, ?_⟩
  intro input presence samePassword
  exact inv.unlock_ok presence samePassword

/-! ## A reorg over one's own event -/

/-- A digest that comes after the parent it covers. -/
def rankedHash : CanonicalHash := fun content => ⟨content.parent.raw + content.accountId.raw⟩

/-- An event of another device on account 1. -/
def rivalEvent (parent block : Nat) : RevisionEvent :=
  ⟨⟨⟨7⟩, ⟨1⟩, ⟨parent⟩, ⟨9⟩, 2, .bytes [1]⟩, ⟨5, block, 0⟩⟩

/-- The echo of the account this device added. -/
def ownEvent (block : Nat) : RevisionEvent :=
  ⟨⟨⟨7⟩, ⟨1⟩, .genesisParent, ⟨11⟩, 0,
    sealPayload ⟨2⟩ ⟨11⟩ ⟨⟨7⟩, ⟨1⟩, .genesisParent, 0⟩ (.live Sample.identity)⟩, ⟨4, block, 0⟩⟩

/-- A vault whose account was added here and echoed back, with a rival revision next to
it; the echo is finalized, the rival is pending. -/
def echoedVault : Vault :=
  runOps countingScheme rankedHash Sample.vault [Sample.unlock ⟨[1]⟩, Sample.add 1 10,
    .ingestPending (ownEvent 100) 100 70 0 0, .ingestPending (rivalEvent 10 101) 101 71 0 0,
    .promoteFinalized 112]

theorem echoedVault_reaches :
    Reaches (step countingScheme rankedHash) (ReorgSafe rankedHash RevisionId.raw)
      (create ⟨[1]⟩ ⟨⟨7⟩, ⟨1⟩, ⟨2⟩, ⟨3⟩, 0⟩) echoedVault := by
  apply Reaches.foldl
  refine ⟨trivial, ?_, .inl rfl, .inr ?_, trivial, trivial⟩
  · intro row member
    cases member
  · decide

/-- The rival's block is reorganised away: the account's own row stays, and the vault
opens. -/
theorem reorgs_keep_local_work_rival :
    HeadsStored (runOps countingScheme rankedHash echoedVault
        [.rollbackPending 101 101]).disk.log.accounts
      (runOps countingScheme rankedHash echoedVault
        [.rollbackPending 101 101]).disk.log.revisions ∧
    KeepsAuthored echoedVault.disk.log.revisions
      (runOps countingScheme rankedHash echoedVault
        [.rollbackPending 101 101]).disk.log.revisions ∧
    ∀ input : UnlockInput, input.presence = true → input.password = ⟨[1]⟩ →
      ∃ unlocked, unlock (runOps countingScheme rankedHash echoedVault
        [.rollbackPending 101 101]) input = (unlocked, .ok ()) := by
  have run : Reaches (step countingScheme rankedHash) (ReorgSafe rankedHash RevisionId.raw)
      echoedVault (runOps countingScheme rankedHash echoedVault [.rollbackPending 101 101]) := by
    apply Reaches.foldl
    refine ⟨?_, trivial⟩
    show ∀ row ∈ echoedVault.disk.log.revisions, _
    unfold AuthoredHere
    decide
  exact reorgs_keep_local_work (by decide) echoedVault_reaches run

/-- The calls of the runs, with no condition on the rollbacks. -/
def IsReorgCall (_ : Vault) : Op → Prop
  | .accountAdd .. | .accountUpdate .. | .deleteAccount .. | .resolveFork ..
  | .ingestPending .. | .markPublished .. | .promoteFinalized _ | .rollbackPending .. => True
  | op => op.Ordinary

/-- An added account, its echo at block 100, and a reorg of that block. -/
def reorgedVault : Vault :=
  Sample.run Sample.vault [Sample.unlock ⟨[1]⟩, Sample.add 1 10,
    .ingestPending (ownEvent 100) 100 70 0 0, .rollbackPending 100 100]

/-- The reorg deletes the account's only row; the head pointer dangles and unlock fails. -/
theorem own_echo_rolled_back :
    Reaches (step countingScheme Sample.hash) IsReorgCall Sample.vault reorgedVault ∧
      reorgedVault.disk.log.revisions = [] ∧
      reorgedVault.disk.log.accounts.map AccountRow.headRevisionId = [⟨10⟩] ∧
      (unlock reorgedVault (Sample.unlockInput ⟨[1]⟩)).2 = .error (.corrupted
        "account_identities head_revision_id has no matching revisions row") := by
  refine ⟨?_, by decide, by decide, by decide⟩
  apply Reaches.foldl
  exact ⟨trivial, trivial, trivial, trivial, trivial⟩

end Pangolin
