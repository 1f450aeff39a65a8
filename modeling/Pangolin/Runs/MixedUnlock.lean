import Pangolin.Runs.ForkResolution
import Pangolin.Store.MixedRows

/-!
# Unlocking a table of every kind of row

Unlock hydrates each live account in turn.  The session it ends with lists an account as
one that needs a newer build, or caches its identity, by the one row the account is shown
from, as long as no account forks into leaves that disagree about the version.
-/

namespace Pangolin

open Symbolic Crypto Store
open Store.RevisionGraph (Rooted IsLeaf CanonicalLeaf)

section

variable {revisions : List RevisionRow} {vaultId : VaultId} {vdk : VdkKey} {chain : VdkChain}

/-- What the finished loop holds about each account is what that account hydrated to. -/
theorem hydrateAll_entries {accounts : List AccountRow} {data : ActiveStateData}
    (done : hydrateAll revisions vaultId vdk chain accounts = .ok data)
    (unique : (accounts.map AccountRow.accountId).Nodup) {account : AccountRow}
    (member : account ∈ accounts) {hydrated : Hydrated}
    (result : hydrateAccount revisions vaultId vdk chain account = .ok hydrated) :
    (account.accountId ∈ data.requiresUpgrade ↔ hydrated.requiresUpgrade = true) ∧
      ∀ identity, (account.accountId, identity) ∈ data.cache ↔
        hydrated.cached = some identity := by
  induction accounts generalizing data with
  | nil => cases member
  | cons first accounts ih =>
      obtain ⟨firstHydrated, firstDone, rest⟩ := Fallible.bind_eq_ok_iff.mp done
      obtain ⟨later, others, equal⟩ := Fallible.bind_eq_ok_iff.mp rest
      obtain rfl := Except.ok.inj equal
      obtain ⟨absent, uniqueRest⟩ := List.nodup_cons.mp unique
      rcases List.mem_cons.mp member with rfl | there
      · -- No later account has this id, so only its own entry can be found.
        obtain rfl := Except.ok.inj (firstDone.symm.trans result)
        have notFlagged : account.accountId ∉ later.requiresUpgrade := by
          intro flagged
          obtain ⟨other, otherMember, sameId, -⟩ :=
            hydrated_of_mem_requiresUpgrade others flagged
          exact absent (List.mem_map.mpr ⟨other, otherMember, sameId⟩)
        have notCached : ∀ identity, (account.accountId, identity) ∉ later.cache := by
          intro identity cached
          obtain ⟨other, otherMember, sameId, -⟩ := hydrateAll_source others cached
          exact absent (List.mem_map.mpr ⟨other, otherMember, sameId⟩)
        constructor
        · cases flag : firstHydrated.requiresUpgrade <;> simp [notFlagged]
        · intro identity
          cases kept : firstHydrated.cached with
          | none => simp [notCached]
          | some found => simp [notCached, eq_comm]
      · obtain ⟨flags, caches⟩ := ih others uniqueRest there
        have other : account.accountId ≠ first.accountId := by
          intro sameId
          exact absent (List.mem_map.mpr ⟨account, there, sameId⟩)
        constructor
        · rw [List.mem_append, flags]
          cases firstHydrated.requiresUpgrade <;> simp [other]
        · intro identity
          rw [List.mem_append, caches]
          cases firstHydrated.cached <;> simp [other]

/-- The session shows each account from its row. -/
def ActiveStateData.ShowsAccount (data : ActiveStateData) (vdk : VdkKey) (chain : VdkChain)
    (revisions : List RevisionRow) (account : AccountRow) : Prop :=
  ∃ row, Shown vdk chain revisions account row ∧
    (account.accountId ∈ data.requiresUpgrade ↔ row.meaning vdk chain = .futureVersion) ∧
    ∀ identity, (account.accountId, identity) ∈ data.cache ↔
      row.meaning vdk chain = .live identity

end

section

variable {ring : Nat → VdkKey} {vaultId : VaultId} {vdk : VdkKey} {chain : VdkChain}
variable {log : RevisionTables}

/-- Unlock ends in a session that shows every live account from its row exactly when no live
account is in doubt about its version. -/
theorem hydration_shows_accounts_iff (keys : TrueKeys ring vdk chain)
    (unique : (log.accounts.map AccountRow.accountId).Nodup)
    (table : ∀ account ∈ log.accounts, account.tombstoned = false →
      MixedTable ring vaultId log.revisions account) :
    (∃ data, buildActiveStateData log vaultId vdk chain = .ok data ∧
      ∀ account ∈ log.accounts, account.tombstoned = false →
        ActiveStateData.ShowsAccount data vdk chain log.revisions account) ↔
      ∀ account ∈ log.accounts, account.tombstoned = false →
        Unmixed vdk chain log.revisions account := by
  have live : ∀ account, account ∈ log.accounts.filter (fun account => !account.tombstoned) ↔
      account ∈ log.accounts ∧ account.tombstoned = false := by
    intro account
    rw [List.mem_filter, Bool.not_eq_true']
  have uniqueLive : ((log.accounts.filter fun account => !account.tombstoned).map
      AccountRow.accountId).Nodup :=
    unique.sublist (List.filter_sublist.map _)
  constructor
  · rintro ⟨data, done, shows⟩ account member alive
    apply (hydrateAccount_shows_iff keys (table account member alive)).mp
    have listed := (live account).mpr ⟨member, alive⟩
    obtain ⟨hydrated, result⟩ := hydrated_of_hydrateAll done listed
    obtain ⟨flags, caches⟩ := hydrateAll_entries done uniqueLive listed result
    obtain ⟨row, shown, flagged, cached⟩ := shows account member alive
    refine ⟨hydrated, result, row, shown, flags.symm.trans flagged, ?_⟩
    intro identity
    exact (caches identity).symm.trans (cached identity)
  · intro unmixed
    have each : ∀ account ∈ log.accounts.filter (fun account => !account.tombstoned),
        ∃ hydrated, hydrateAccount log.revisions vaultId vdk chain account = .ok hydrated := by
      intro account listed
      obtain ⟨member, alive⟩ := (live account).mp listed
      obtain ⟨hydrated, result, -⟩ :=
        (hydrateAccount_shows_iff keys (table account member alive)).mpr
          (unmixed account member alive)
      exact ⟨hydrated, result⟩
    obtain ⟨data, done⟩ := hydrateAll_ok each
    refine ⟨data, done, ?_⟩
    intro account member alive
    obtain ⟨hydrated, result, row, shown, flagged, cached⟩ :=
      (hydrateAccount_shows_iff keys (table account member alive)).mpr
        (unmixed account member alive)
    obtain ⟨flags, caches⟩ :=
      hydrateAll_entries done uniqueLive ((live account).mpr ⟨member, alive⟩) result
    refine ⟨row, shown, flags.trans flagged, ?_⟩
    intro identity
    exact (caches identity).trans (cached identity)

end

/-! ## Concrete tables -/

namespace MixedSample

/-- The one VDK of a vault that never rotated. -/
def ring : Nat → VdkKey := fun _ => ⟨2⟩

def chain : VdkChain := ⟨[], 0⟩

/-- A revision of account 1 sealed under that VDK. -/
def revision (id parent : RevisionId) (payload : IdentityPayload) : RevisionRow :=
  { revisionId := id
    accountId := ⟨1⟩
    parent := parent
    deviceId := ⟨11⟩
    schemaVersion := 2
    createdAt := 0
    encPayload := sealPayload ⟨2⟩ ⟨id.raw + 100⟩ ⟨⟨7⟩, ⟨1⟩, parent, 2⟩ payload
    encNonce := ⟨id.raw + 100⟩
    isTombstone := false }

/-- A revision another device published. -/
def foreign (id parent : RevisionId) : RevisionRow :=
  { revision id parent (.future 0) with encPayload := .bytes [1], encNonce := .placeholder }

/-- Account 1, whose head is revision 2, with these revisions of its own and of others. -/
def table (edits : List (RevisionId × RevisionId × IdentityPayload))
    (others : List (RevisionId × RevisionId)) : RevisionTables :=
  ⟨[⟨⟨1⟩, 0, 0, false, ⟨2⟩, true⟩],
    edits.map (fun edit => revision edit.1 edit.2.1 edit.2.2) ++
      others.map (fun other => foreign other.1 other.2), [], []⟩

/-- An edit by a newer build, then a foreign sibling with a larger id. -/
def newerHead : RevisionTables :=
  table [(⟨1⟩, .genesisParent, .live Sample.identity), (⟨2⟩, ⟨1⟩, .future 3)] [(⟨3⟩, ⟨1⟩)]

/-- An edit by a newer build, then a sibling this build wrote. -/
def newerSibling : RevisionTables :=
  table [(⟨1⟩, .genesisParent, .live Sample.identity), (⟨2⟩, ⟨1⟩, .future 3),
    (⟨3⟩, ⟨1⟩, .live Sample.identity)] []

/-- A foreign sibling, and two foreign revisions that name each other as parent. -/
def parentCycle : RevisionTables :=
  table [(⟨1⟩, .genesisParent, .live Sample.identity), (⟨2⟩, ⟨1⟩, .live Sample.identity)]
    [(⟨3⟩, ⟨1⟩), (⟨4⟩, ⟨5⟩), (⟨5⟩, ⟨4⟩)]

/-- An edit of this build and a foreign sibling. -/
def foreignSibling : RevisionTables :=
  table [(⟨1⟩, .genesisParent, .live Sample.identity), (⟨2⟩, ⟨1⟩, .live Sample.identity)]
    [(⟨3⟩, ⟨1⟩)]

theorem trueKeys : TrueKeys ring ⟨2⟩ chain := by
  intro epoch key selected
  unfold entryKey at selected
  split at selected
  · exact (Option.some.inj selected).symm
  · cases selected

/-- Such tables are of written rows. -/
theorem mixedTable (payload : IdentityPayload)
    {edits : List (RevisionId × RevisionId × IdentityPayload)}
    {others : List (RevisionId × RevisionId)}
    (unique : ((table edits others).revisions.map RevisionRow.revisionId).Nodup)
    (head : (⟨2⟩, ⟨1⟩, payload) ∈ edits) :
    ∀ account ∈ (table edits others).accounts,
      MixedTable ring ⟨7⟩ (table edits others).revisions account := by
  intro account member
  obtain rfl := List.mem_singleton.mp member
  refine ⟨unique, ?_, revision ⟨2⟩ ⟨1⟩ payload, ?_, rfl, rfl⟩
  · intro row stored
    rcases List.mem_append.mp stored with own | other
    · obtain ⟨edit, -, rfl⟩ := List.mem_map.mp own
      exact .inr ⟨edit.2.2, rfl⟩
    · obtain ⟨event, -, rfl⟩ := List.mem_map.mp other
      exact .inl rfl
  · exact List.mem_append_left _ (List.mem_map.mpr ⟨_, head, rfl⟩)

end MixedSample

open MixedSample in
/-- A local head and a foreign sibling are hydrated as they are shown. -/
theorem foreign_sibling_shown :
    ∃ data, buildActiveStateData foreignSibling ⟨7⟩ ⟨2⟩ chain = .ok data ∧
      ∀ account ∈ foreignSibling.accounts, account.tombstoned = false →
        ActiveStateData.ShowsAccount data ⟨2⟩ chain foreignSibling.revisions account := by
  have tables : ∀ account ∈ foreignSibling.accounts,
      MixedTable ring ⟨7⟩ foreignSibling.revisions account :=
    mixedTable (.live Sample.identity) (by decide) (by decide)
  apply (hydration_shows_accounts_iff trueKeys (by decide)
    fun account member _ => tables account member).mpr
  intro account member _ _
  obtain rfl := List.mem_singleton.mp member
  have known : ∀ row ∈ foreignSibling.revisions, row.meaning ⟨2⟩ chain ≠ .futureVersion := by
    decide +kernel
  refine ⟨?_, ?_⟩
  · -- The first revision is the root, and the parent of the other two.
    have root : Rooted (readRevisionRows foreignSibling.revisions ⟨1⟩)
        (revision ⟨1⟩ .genesisParent (.live Sample.identity)) :=
      .root (by decide +kernel) (by decide +kernel)
    have cases : ∀ row ∈ readRevisionRows foreignSibling.revisions ⟨1⟩,
        row = revision ⟨1⟩ .genesisParent (.live Sample.identity) ∨
        row ∈ RevisionGraph.children (readRevisionRows foreignSibling.revisions ⟨1⟩) ⟨1⟩ := by
      decide +kernel
    intro row listed
    rcases cases row listed with rfl | child
    · exact root
    · exact .child root child
  · intro canonical _
    refine .inr ⟨?_, ?_⟩
    · intro leaf isLeaf
      exact known leaf (mem_readRevisionRows.mp isLeaf.1).1
    · intro _ head isHead
      exact known head isHead.1

open MixedSample in
/-- A stored head of a newer build, forked by a foreign event with a larger id, ends unlock
in the branch that is not to be reached; a leaf of a newer build flags an account that is
shown from another leaf; and a cycle among foreign rows refuses the unlock. -/
theorem mixed_forks_not_shown :
    (∀ log ∈ [newerHead, newerSibling, parentCycle], ∀ account ∈ log.accounts,
        MixedTable ring ⟨7⟩ log.revisions account) ∧
      buildActiveStateData newerHead ⟨7⟩ ⟨2⟩ chain = .error .unreachableCode ∧
      buildActiveStateData newerSibling ⟨7⟩ ⟨2⟩ chain =
        .ok ⟨[(⟨1⟩, Sample.identity)], [⟨1⟩]⟩ ∧
      buildActiveStateData parentCycle ⟨7⟩ ⟨2⟩ chain =
        .error (.corrupted "revision lineage contains a cycle (unreachable component)") := by
  refine ⟨?_, ?_, ?_, ?_⟩
  · intro log member
    have shapes : log = newerHead ∨ log = newerSibling ∨ log = parentCycle := by
      simpa using member
    rcases shapes with rfl | rfl | rfl
    · exact mixedTable (.future 3) (by decide) (by decide)
    · exact mixedTable (.future 3) (by decide) (by decide)
    · exact mixedTable (.live Sample.identity) (by decide) (by decide)
  · decide +kernel
  · decide +kernel
  · decide +kernel

end Pangolin
