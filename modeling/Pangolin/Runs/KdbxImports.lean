import Pangolin.Kdbx.Accepted
import Pangolin.Runs.Archives
import Pangolin.Runs.SessionCoherence
import Pangolin.Store.HeadWrites
import Pangolin.Store.RowChanges

/-!
# Importing an entry

An entry with a history is added with its oldest password; the later ones are replayed as
updates, each committed on its own, and the current password is applied last.  A failing
update of the replay only cuts the history short, while a failing last update is reported and
leaves the account with an earlier password.

Each call may fail at any of its steps in the environment.  The loop keeps that the new
account's head holds the passwords applied so far.
-/

namespace Pangolin.Kdbx

open Crypto Store Utf8

/-! ## The import of one entry -/

/-- A call and the step the environment fails, if it does. -/
def exposedTo {α : Type} (fault : Option Nat) (vault : Vault) (now : Nat) (call : Call α) :
    Call α :=
  match fault.bind fun step => (freshStops vault now (indexStops vault call))[step]? with
  | some left => (left, .error .sqlite)
  | none => call

/-- The draws of an import and the faults of its calls, numbered from the `account_add`. -/
structure ImportDraw where
  accountId : AccountId
  write : Nat → WriteDraw
  fault : Nat → Option Nat

section

variable (tools : TextTools) (draw : ImportDraw)

/-- One `account_update` of the import. -/
def updatePassword (turn : Nat) (password : List UInt8) (vault : Vault) : Call RevisionId :=
  exposedTo (draw.fault turn) vault (draw.write turn).now
    (accountUpdate vault draw.accountId
      ((passwordPatch password).apply tools (draw.write turn).nowMs vault.deviceId)
      (draw.write turn))

/-- The replay of the earlier passwords ends with the first that fails; the flag says whether
all went through. -/
def replayRotations : Nat → List (List UInt8) → Vault → Vault × Bool
  | _, [], vault => (vault, true)
  | turn, password :: rotations, vault =>
      match updatePassword tools draw turn password vault with
      | (vault, .error _) => (vault, false)
      | (vault, .ok _) => replayRotations (turn + 1) rotations vault

/-- The first call of `ingest_one`. -/
def addEntry (mapped : MappedEntry) (genesis : List UInt8) (vault : Vault) : Call AccountId :=
  exposedTo (draw.fault 0) vault (draw.write 0).now
    (accountAdd vault
      ((mapped.draft genesis).validateIntoIdentity tools (draw.write 0).nowMs vault.deviceId)
      draw.accountId (draw.write 0))

/-- `ingest_one`. -/
def ingestOne (mapped : MappedEntry) (vault : Vault) : Call Unit :=
  match mapped.historyPasswords.map Prod.fst with
  | [] =>
      match addEntry tools draw mapped mapped.password vault with
      | (vault, .error error) => (vault, .error error)
      | (vault, .ok _) => (vault, .ok ())
  | genesis :: rotations =>
      match addEntry tools draw mapped genesis vault with
      | (vault, .error error) => (vault, .error error)
      | (vault, .ok _) =>
          let vault := (replayRotations tools draw 1 rotations vault).1
          match updatePassword tools draw (1 + rotations.length) mapped.password vault with
          | (vault, .error error) => (vault, .error error)
          | (vault, .ok _) => (vault, .ok ())

end

/-! ## What an account holds -/

/-- The head of the account seals, under this key, an identity with these passwords, current
one first. -/
def HoldsPasswords (vault : Vault) (vdk : VdkKey) (accountId : AccountId)
    (passwords : List (List UInt8)) : Prop :=
  ∃ account row identity, findAccount vault.disk.log accountId = some account ∧
    account.tombstoned = false ∧
    findRevision vault.disk.log.revisions accountId account.headRevisionId = some row ∧
    row.encPayload =
      sealPayload vdk row.encNonce (row.aad vault.vaultMeta.vaultId) (.live identity) ∧
    identity.passwordHistory.map PasswordEntry.password = passwords

/-- The vault in the middle of an import. -/
structure Importing (start : Vault) (vdk : VdkKey) (accountId : AccountId) (vault : Vault)
    (passwords : List (List UInt8)) : Prop where
  holds : HoldsPasswords vault vdk accountId passwords
  session : ∀ active, vault.active = some active → active.vdk = vdk
  others : ∀ other, other ≠ accountId →
    findAccount vault.disk.log other = findAccount start.disk.log other

/-! ## One call -/

/-- A call wrote this row and payload to the file, whether or not it got to say so. -/
structure Committed (vault left : Vault) (active : ActiveState) (row : RevisionRow)
    (identity : AccountIdentity) : Prop where
  session : vault.active = some active
  encPayload : row.encPayload =
    sealPayload active.vdk row.encNonce (row.aad vault.vaultMeta.vaultId) (.live identity)
  stored : findRevision left.disk.log.revisions row.accountId row.revisionId = some row
  account : ∃ account, findAccount left.disk.log row.accountId = some account ∧
    account.headRevisionId = row.revisionId ∧ account.tombstoned = false
  others : ∀ other, other ≠ row.accountId →
    findAccount left.disk.log other = findAccount vault.disk.log other
  vaultMeta : left.vaultMeta = vault.vaultMeta
  active' : ∃ active', left.active = some active' ∧ active'.vdk = active.vdk

/-- How a call on an account ends: without a write, or with one. -/
inductive WriteEnd {α : Type} (vault : Vault) (accountId : AccountId)
    (written : ActiveState → IdentityPayload → Prop) : Call α → Prop where
  | idle (left : Vault) (error : StoreError) :
      Idle vault left → WriteEnd vault accountId written (left, .error error)
  | committed (left : Vault) (result : Except StoreError α) (active : ActiveState)
      (row : RevisionRow) (identity : AccountIdentity) :
      Committed vault left active row identity → row.accountId = accountId →
      written active (.live identity) → WriteEnd vault accountId written (left, result)

section

variable {vault done : Vault} {active : ActiveState} {row : RevisionRow}
variable {identity : AccountIdentity}

/-- The row that was written is found under its id. -/
theorem findRevision_of_write {payload : IdentityPayload}
    (write : HeadWrite vault done active row payload) :
    findRevision done.disk.log.revisions row.accountId row.revisionId = some row := by
  obtain ⟨change, rows⟩ := LogWrite.rowsAfter write.log
  have absent : (vault.disk.log.revisions.map change).find? (fun other =>
      decide (other.accountId = row.accountId) && decide (other.revisionId = row.revisionId)) =
        none := by
    apply List.find?_eq_none.mpr
    intro other member
    obtain ⟨old, stored, rfl⟩ := List.mem_map.mp member
    have different := write.fresh old stored
    rw [← (rows.same old stored).toSameContent.revisionId] at different
    simp [different]
  rw [rows.revisions, findRevision, List.find?_append, absent]
  simp

/-- The file of a write that went through, under either handle. -/
theorem committed_of_write (write : HeadWrite vault done active row (.live identity))
    {left : Vault} (disk : left.disk = done.disk) (vaultMeta : left.vaultMeta = vault.vaultMeta)
    (session : ∃ active', left.active = some active' ∧ active'.vdk = active.vdk) :
    Committed vault left active row identity where
  session := write.session
  encPayload := write.encPayload
  stored := by rw [disk]; exact findRevision_of_write write
  account := by
    obtain ⟨account, found, head, -, tombstoned⟩ := write.accountAt
    refine ⟨account, by rw [disk]; exact found, head, ?_⟩
    rw [tombstoned, write.kind]
    rfl
  others := by rw [disk]; exact write.others
  vaultMeta := vaultMeta
  active' := session

/-- A call in which a step fails has written nothing, or all but its cache entry. -/
theorem writeEnd_exposedTo {α : Type} {accountId : AccountId} {drawn : RevisionId}
    {written : ActiveState → IdentityPayload → Prop} {call : Call α}
    (known : PayloadCall vault accountId drawn written call)
    (live : ∀ active payload, written active payload → ∃ identity, payload = .live identity)
    (fault : Option Nat) (now : Nat) :
    WriteEnd vault accountId written (exposedTo fault vault now call) := by
  unfold exposedTo
  cases stop : fault.bind fun step => (freshStops vault now (indexStops vault call))[step]? with
  | none =>
      cases known with
      | failed left error idle => exact .idle left error idle
      | wrote left value active row payload write sameId drawnId sealedAs =>
          obtain ⟨identity, rfl⟩ := live active payload sealedAs
          obtain ⟨active', session, vdk, -⟩ := write.active'
          exact .committed left _ active row identity
            (committed_of_write write rfl write.vaultMeta ⟨active', session, vdk⟩) sameId sealedAs
  | some left =>
      obtain ⟨step, -, found⟩ := Option.bind_eq_some_iff.mp stop
      have member := List.mem_of_getElem? found
      unfold freshStops at member
      split at member
      · cases member
      rcases List.mem_cons.mp member with rfl | indexed
      · exact .idle left _ (.refl left)
      · cases known with
        | failed after error idle => cases indexed
        | wrote after value active row payload write sameId drawnId sealedAs =>
            obtain ⟨identity, rfl⟩ := live active payload sealedAs
            rw [List.mem_singleton.mp indexed]
            exact .committed _ _ active row identity
              (committed_of_write write rfl rfl ⟨active, write.session, rfl⟩) sameId sealedAs

/-- A row sealed under the session's key reads as what was sealed. -/
theorem eq_of_readRow {vaultId : VaultId} {vdk : VdkKey} {current : AccountIdentity}
    (encPayload : row.encPayload =
      sealPayload vdk row.encNonce (row.aad vaultId) (.live identity))
    (read : readRow vaultId vdk row = .ok current) : current = identity := by
  unfold readRow at read
  rw [encPayload, open?_sealPayload] at read
  dsimp only at read
  split at read
  · cases read
  · exact (Except.ok.inj read).symm

end

/-! ## The invariant -/

section

variable {tools : TextTools} {draw : ImportDraw} {start vault left : Vault} {vdk : VdkKey}
variable {passwords : List (List UInt8)} {active : ActiveState} {row : RevisionRow}
variable {identity : AccountIdentity}

theorem Importing.of_idle {accountId : AccountId}
    (importing : Importing start vdk accountId vault passwords) (idle : Idle vault left) :
    Importing start vdk accountId left passwords where
  holds := by
    rw [HoldsPasswords, idle.disk, idle.vaultMeta]
    exact importing.holds
  session := by
    intro active opened
    rcases idle.active with same | none
    · exact importing.session active (same ▸ opened)
    · rw [none] at opened
      cases opened
  others := by
    rw [idle.disk]
    exact importing.others

/-- A committed write leaves the passwords it sealed. -/
theorem Committed.importing (committed : Committed vault left active row identity)
    (vdkEq : active.vdk = vdk)
    (others : ∀ other, other ≠ row.accountId →
      findAccount vault.disk.log other = findAccount start.disk.log other) :
    Importing start vdk row.accountId left
      (identity.passwordHistory.map PasswordEntry.password) := by
  obtain ⟨account, found, head, alive⟩ := committed.account
  obtain ⟨active', session, sameVdk⟩ := committed.active'
  refine ⟨⟨account, row, identity, found, alive, ?_, ?_, rfl⟩, ?_, ?_⟩
  · rw [head]
    exact committed.stored
  · rw [committed.vaultMeta, ← vdkEq]
    exact committed.encPayload
  · intro other opened
    rw [← vdkEq, ← sameVdk, Option.some.inj (session.symm.trans opened)]
  · intro other different
    exact (committed.others other different).trans (others other different)

/-- An update puts its password in front, and if it fails it may have done so. -/
theorem updatePassword_importing (tools : TextTools)
    (importing : Importing start vdk draw.accountId vault passwords) {password : List UInt8}
    (usable : Validate.password password = .ok ()) (turn : Nat) :
    (∀ value, (updatePassword tools draw turn password vault).2 = .ok value →
      Importing start vdk draw.accountId (updatePassword tools draw turn password vault).1
        (password :: passwords)) ∧
    (Importing start vdk draw.accountId (updatePassword tools draw turn password vault).1
        passwords ∨
      Importing start vdk draw.accountId (updatePassword tools draw turn password vault).1
        (password :: passwords)) := by
  have ends := writeEnd_exposedTo (accountUpdate_payloadCall vault draw.accountId
    ((passwordPatch password).apply tools (draw.write turn).nowMs vault.deviceId)
    (draw.write turn))
    (fun active payload sealedAs => by
      obtain ⟨account, current, identity, -, -, -, same⟩ := sealedAs
      exact ⟨identity, same⟩)
    (draw.fault turn) (draw.write turn).now
  unfold updatePassword
  generalize exposedTo (draw.fault turn) vault (draw.write turn).now
    (accountUpdate vault draw.accountId
      ((passwordPatch password).apply tools (draw.write turn).nowMs vault.deviceId)
      (draw.write turn)) = call at ends ⊢
  cases ends with
  | idle left error idle => exact ⟨nofun, .inl (importing.of_idle idle)⟩
  | committed left result active row identity committed sameId sealedAs =>
      have vdkEq := importing.session active committed.session
      obtain ⟨account, other, before, found, -, stored, encPayload, history⟩ := importing.holds
      obtain ⟨account', current, identity', lookup, read, patched, same⟩ := sealedAs
      have sameAccount : account = account' :=
        Option.some.inj (found.symm.trans (liveAccount_eq_ok lookup).1)
      subst sameAccount
      have current' : current = before := by
        rw [readIdentityAt, stored, vdkEq] at read
        exact eq_of_readRow encPayload read
      have sealed : identity.passwordHistory.map PasswordEntry.password =
          password :: passwords := by
        rw [passwordPatch_apply usable] at patched
        rw [IdentityPayload.live.inj same, ← Except.ok.inj patched, current', List.map_cons,
          history]
      have next := committed.importing vdkEq (sameId ▸ importing.others)
      rw [sameId, sealed] at next
      exact ⟨fun _ _ => next, .inr next⟩

/-- The replay puts some of its passwords in front, the later the further; all of them if no
update fails. -/
theorem replayRotations_importing (tools : TextTools) {rotations : List (List UInt8)}
    (usable : ∀ password ∈ rotations, Validate.password password = .ok ())
    (importing : Importing start vdk draw.accountId vault passwords) (turn : Nat) :
    ∃ trail, trail <+: rotations ∧
      Importing start vdk draw.accountId (replayRotations tools draw turn rotations vault).1
        (trail.reverse ++ passwords) ∧
      ((replayRotations tools draw turn rotations vault).2 = true → trail = rotations) := by
  induction rotations generalizing vault passwords turn with
  | nil => exact ⟨[], List.prefix_rfl, importing, fun _ => rfl⟩
  | cons password rotations ih =>
      obtain ⟨applied, attempted⟩ := updatePassword_importing tools importing
        (usable password List.mem_cons_self) turn
      rw [replayRotations]
      cases updated : updatePassword tools draw turn password vault with
      | mk left result =>
          rw [updated] at applied attempted
          cases result with
          | error error =>
              rcases attempted with unchanged | written
              · exact ⟨[], List.nil_prefix, unchanged, nofun⟩
              · exact ⟨[password], by simp, written, nofun⟩
          | ok value =>
              obtain ⟨trail, early, finish, complete⟩ :=
                ih (fun other member => usable other (List.mem_cons_of_mem _ member))
                  (applied value rfl) (turn + 1)
              refine ⟨password :: trail, List.prefix_cons_inj password |>.mpr early, ?_, ?_⟩
              · rw [List.reverse_cons, List.append_assoc]
                exact finish
              · intro whole
                rw [complete whole]

/-- The first call writes the account with its first password, or nothing. -/
theorem addEntry_importing (tools : TextTools) (draw : ImportDraw) (mapped : MappedEntry)
    (genesis : List UInt8) (session : vault.active = some active) :
    (∀ value, (addEntry tools draw mapped genesis vault).2 = .ok value →
      Importing vault active.vdk draw.accountId (addEntry tools draw mapped genesis vault).1
        [genesis]) ∧
    ((addEntry tools draw mapped genesis vault).1.disk = vault.disk ∨
      Importing vault active.vdk draw.accountId (addEntry tools draw mapped genesis vault).1
        [genesis]) := by
  have ends := writeEnd_exposedTo (accountAdd_payloadCall vault
    ((mapped.draft genesis).validateIntoIdentity tools (draw.write 0).nowMs vault.deviceId)
    draw.accountId (draw.write 0))
    (fun active payload sealedAs => by
      obtain ⟨identity, -, same⟩ := sealedAs
      exact ⟨identity, same⟩)
    (draw.fault 0) (draw.write 0).now
  unfold addEntry
  generalize exposedTo (draw.fault 0) vault (draw.write 0).now
    (accountAdd vault
      ((mapped.draft genesis).validateIntoIdentity tools (draw.write 0).nowMs vault.deviceId)
      draw.accountId (draw.write 0)) = call at ends ⊢
  cases ends with
  | idle left error idle => exact ⟨nofun, .inl idle.disk⟩
  | committed left result active' row identity committed sameId sealedAs =>
      obtain ⟨identity', valid, same⟩ := sealedAs
      have sameActive : active = active' := Option.some.inj (session.symm.trans committed.session)
      have history : identity.passwordHistory.map PasswordEntry.password = [genesis] := by
        rw [IdentityPayload.live.inj same, validate_passwordHistory valid]
        rfl
      have next := committed.importing (congrArg ActiveState.vdk sameActive.symm)
        (fun other _ => rfl : ∀ other, other ≠ row.accountId →
          findAccount vault.disk.log other = findAccount vault.disk.log other)
      rw [sameId, history] at next
      exact ⟨fun _ _ => next, .inr next⟩

end

/-! ## Errors of validators -/

section

variable {vault : Vault} {accountId : AccountId} {draw : WriteDraw} {kind message : String}

/-- A call in the session fails with what its body fails with, or for want of a session. -/
theorem withFreshSession_validation {α : Type} {now : Nat}
    {body : ActiveState → Except StoreError (Vault × α)}
    (failed : (withFreshSession vault now body).2 = .error (.validation kind message)) :
    ∃ active, body active = .error (.validation kind message) := by
  unfold withFreshSession at failed
  split at failed
  · cases failed
  · cases failed
  · cases failed
  · split at failed
    · cases failed
    split at failed
    · cases failed
    · next active _ =>
        cases done : body active with
        | error error =>
            rw [done] at failed
            exact ⟨active, by rw [done, Except.error.inj failed]⟩
        | ok result =>
            rw [done] at failed
            cases failed

theorem insertRevision_validation {log : RevisionTables} {row : RevisionRow} :
    insertRevision log row ≠ .error (.validation kind message) := by
  unfold insertRevision
  split
  · nofun
  · nofun

/-- A validation error of `account_add` is its draft's. -/
theorem accountAdd_validation {validated : Except StoreError AccountIdentity}
    (failed : (accountAdd vault validated accountId draw).2 = .error (.validation kind message)) :
    validated = .error (.validation kind message) := by
  obtain ⟨active, failed⟩ := withFreshSession_validation failed
  rcases Fallible.bind_eq_error_iff.mp failed with draft | ⟨identity, -, failed⟩
  · exact draft
  dsimp only at failed
  split at failed
  · cases failed
  · rcases Fallible.bind_eq_error_iff.mp failed with inserted | ⟨log, -, failed⟩
    · exact absurd inserted insertRevision_validation
    · cases failed

theorem readIdentityAt_validation {active : ActiveState} {revisionId : RevisionId} :
    readIdentityAt vault active accountId revisionId ≠ .error (.validation kind message) := by
  unfold readIdentityAt readRow
  split
  · nofun
  split
  · nofun
  · nofun
  split
  · nofun
  split
  · nofun
  · nofun

/-- A validation error of `account_update` is its patch's. -/
theorem accountUpdate_validation {patch : AccountIdentity → Except StoreError AccountIdentity}
    (failed : (accountUpdate vault accountId patch draw).2 = .error (.validation kind message)) :
    ∃ current, patch current = .error (.validation kind message) := by
  obtain ⟨active, failed⟩ := withFreshSession_validation failed
  rcases Fallible.bind_eq_error_iff.mp failed with refused | ⟨-, -, failed⟩
  · unfold refuseUneditable at refused
    dsimp only at refused
    split at refused
    · cases refused
    split at refused
    · cases refused
    · cases refused
  rcases Fallible.bind_eq_error_iff.mp failed with missing | ⟨account, -, failed⟩
  · unfold liveAccount at missing
    split at missing
    · cases missing
    split at missing
    · cases missing
    · cases missing
  rcases Fallible.bind_eq_error_iff.mp failed with unread | ⟨current, -, failed⟩
  · exact absurd unread readIdentityAt_validation
  rcases Fallible.bind_eq_error_iff.mp failed with patched | ⟨identity, -, failed⟩
  · exact ⟨current, patched⟩
  rcases Fallible.bind_eq_error_iff.mp failed with appended | ⟨log, -, failed⟩
  · rcases Fallible.bind_eq_error_iff.mp appended with inserted | ⟨log, -, failed⟩
    · exact absurd inserted insertRevision_validation
    · cases failed
  · cases failed

theorem exposedTo_validation {α : Type} {fault : Option Nat} {now : Nat} {call : Call α}
    (failed : (exposedTo fault vault now call).2 = .error (.validation kind message)) :
    call.2 = .error (.validation kind message) := by
  unfold exposedTo at failed
  split at failed
  · cases failed
  · exact failed

/-- An update with a usable password has no validation error. -/
theorem updatePassword_validation (tools : TextTools) {draw : ImportDraw} {turn : Nat}
    {password : List UInt8} (usable : Validate.password password = .ok ()) :
    (updatePassword tools draw turn password vault).2 ≠ .error (.validation kind message) := by
  intro failed
  obtain ⟨current, patched⟩ := accountUpdate_validation (exposedTo_validation failed)
  rw [passwordPatch_apply usable] at patched
  cases patched

end

/-! ## Imports -/

/-- Every update of the replay goes through. -/
def ReplayComplete (tools : TextTools) (draw : ImportDraw) (mapped : MappedEntry)
    (vault : Vault) : Prop :=
  match mapped.historyPasswords.map Prod.fst with
  | [] => True
  | genesis :: rotations =>
      (replayRotations tools draw 1 rotations (addEntry tools draw mapped genesis vault).1).2 = true

/-- What the import of an entry does to a vault whose session has this key.  An import that
succeeds leaves the current password in front of earlier ones, in their order; one that fails
leaves no account, or one with the passwords applied so far. -/
structure Imports (mapped : MappedEntry) (vault : Vault) (vdk : VdkKey) (accountId : AccountId)
    (complete : Prop) (result : Call Unit) : Prop where
  succeeded : result.2 = .ok () →
    ∃ trail, trail <+: mapped.historyPasswords.map Prod.fst ∧
      (trail = [] → mapped.historyPasswords = []) ∧
      (complete → trail = mapped.historyPasswords.map Prod.fst) ∧
      HoldsPasswords result.1 vdk accountId (mapped.password :: trail.reverse)
  failed : ∀ error, result.2 = .error error → result.1.disk = vault.disk ∨
    ∃ trail, trail <+: mapped.historyPasswords.map Prod.fst ∧
      (trail = [] → mapped.historyPasswords = []) ∧
      (HoldsPasswords result.1 vdk accountId (mapped.password :: trail.reverse) ∨
        trail ≠ [] ∧ HoldsPasswords result.1 vdk accountId trail.reverse)
  others : ∀ other, other ≠ accountId →
    findAccount result.1.disk.log other = findAccount vault.disk.log other

section

variable {tools : TextTools} {draw : ImportDraw} {vault : Vault} {active : ActiveState}
variable {mapped : MappedEntry}

/-- An entry without a history is one call. -/
theorem imports_of_add {left : Vault} {result : Except StoreError Unit}
    (history : mapped.historyPasswords = [])
    (applied : result = .ok () → Importing vault active.vdk draw.accountId left [mapped.password])
    (attempted : left.disk = vault.disk ∨
      Importing vault active.vdk draw.accountId left [mapped.password]) :
    Imports mapped vault active.vdk draw.accountId True (left, result) := by
  refine ⟨fun succeeded => ⟨[], ?_⟩, fun _ _ => ?_, ?_⟩
  · rw [history]
    exact ⟨List.prefix_rfl, fun _ => rfl, fun _ => rfl, (applied succeeded).holds⟩
  · apply attempted.imp id
    intro written
    rw [history]
    exact ⟨[], List.prefix_rfl, fun _ => rfl, .inl written.holds⟩
  · rcases attempted with unchanged | written
    · intro other _
      rw [unchanged]
    · exact written.others

/-- A first call that fails leaves nothing or the oldest password. -/
theorem imports_of_failed_add {left : Vault} {error : StoreError} {genesis : List UInt8}
    {rotations : List (List UInt8)} {complete : Prop}
    (history : mapped.historyPasswords.map Prod.fst = genesis :: rotations)
    (attempted : left.disk = vault.disk ∨
      Importing vault active.vdk draw.accountId left [genesis]) :
    Imports mapped vault active.vdk draw.accountId complete (left, .error error) := by
  refine ⟨nofun, fun _ _ => ?_, ?_⟩
  · apply attempted.imp id
    intro written
    refine ⟨[genesis], ?_, nofun, .inr ⟨nofun, written.holds⟩⟩
    rw [history]
    simp
  · rcases attempted with unchanged | written
    · intro other _
      rw [unchanged]
    · exact written.others

/-- The last update after a replay that applied some of the history. -/
theorem imports_of_update {left : Vault} {result : Except StoreError Unit}
    {genesis : List UInt8} {rotations trail : List (List UInt8)} {complete : Prop}
    (history : mapped.historyPasswords.map Prod.fst = genesis :: rotations)
    (early : trail <+: rotations) (whole : complete → trail = rotations)
    (applied : result = .ok () → Importing vault active.vdk draw.accountId left
      (mapped.password :: (genesis :: trail).reverse))
    (attempted : Importing vault active.vdk draw.accountId left (genesis :: trail).reverse ∨
      Importing vault active.vdk draw.accountId left
        (mapped.password :: (genesis :: trail).reverse)) :
    Imports mapped vault active.vdk draw.accountId complete (left, result) := by
  have inside : genesis :: trail <+: mapped.historyPasswords.map Prod.fst := by
    rw [history]
    exact (List.prefix_cons_inj genesis).mpr early
  refine ⟨fun succeeded => ⟨genesis :: trail, inside, nofun, ?_, (applied succeeded).holds⟩,
    fun _ _ => .inr ⟨genesis :: trail, inside, nofun, ?_⟩, ?_⟩
  · intro replayed
    rw [history, whole replayed]
  · rcases attempted with earlier | written
    · exact .inr ⟨nofun, earlier.holds⟩
    · exact .inl written.holds
  · rcases attempted with earlier | written
    · exact earlier.others
    · exact written.others

/-- The import of a prepared entry, whatever fails. -/
theorem ingestOne_imports (tools : TextTools) (draw : ImportDraw)
    (prepared : Prepared mapped) (session : vault.active = some active) :
    Imports mapped vault active.vdk draw.accountId (ReplayComplete tools draw mapped vault)
      (ingestOne tools draw mapped vault) := by
  unfold ingestOne ReplayComplete
  cases history : mapped.historyPasswords.map Prod.fst with
  | nil =>
      obtain ⟨applied, attempted⟩ :=
        addEntry_importing tools draw mapped mapped.password session
      have empty := List.map_eq_nil_iff.mp history
      dsimp only
      cases added : addEntry tools draw mapped mapped.password vault with
      | mk left result =>
          rw [added] at applied attempted
          cases result with
          | error error => exact imports_of_add empty nofun attempted
          | ok value => exact imports_of_add empty (fun _ => applied value rfl) attempted
  | cons genesis rotations =>
      obtain ⟨applied, attempted⟩ := addEntry_importing tools draw mapped genesis session
      dsimp only
      cases added : addEntry tools draw mapped genesis vault with
      | mk left result =>
          rw [added] at applied attempted
          cases result with
          | error error => exact imports_of_failed_add history attempted
          | ok value =>
              have usable : ∀ password ∈ rotations, Validate.password password = .ok () := by
                intro password member
                have listed : password ∈ mapped.historyPasswords.map Prod.fst := by
                  rw [history]
                  exact List.mem_cons_of_mem _ member
                obtain ⟨kept, stored, rfl⟩ := List.mem_map.mp listed
                exact prepared.history kept stored
              obtain ⟨trail, early, replayed, whole⟩ :=
                replayRotations_importing tools usable (applied value rfl) 1
              rw [← List.reverse_cons] at replayed
              obtain ⟨renewed, tried⟩ := updatePassword_importing tools replayed
                prepared.password (1 + rotations.length)
              dsimp only
              cases updated : updatePassword tools draw (1 + rotations.length) mapped.password
                  (replayRotations tools draw 1 rotations left).1 with
              | mk last result =>
                  rw [updated] at renewed tried
                  cases result with
                  | error error => exact imports_of_update history early whole nofun tried
                  | ok value =>
                      exact imports_of_update history early whole
                        (fun _ => renewed value rfl) tried

/-- With an acceptable draft no call has a validation error. -/
theorem ingestOne_validation (draw : ImportDraw) (keepsInk : KeepsInk tools)
    (prepared : Prepared mapped) (acceptable : Acceptable tools mapped) (vault : Vault)
    (kind message : String) :
    (ingestOne tools draw mapped vault).2 ≠ .error (.validation kind message) := by
  have first (genesis : List UInt8) (usable : Validate.password genesis = .ok ()) :
      (addEntry tools draw mapped genesis vault).2 ≠ .error (.validation kind message) := by
    intro failed
    obtain ⟨identity, valid⟩ := draft_valid keepsInk prepared acceptable usable
      (draw.write 0).nowMs vault.deviceId
    have refused := accountAdd_validation (exposedTo_validation failed)
    rw [valid] at refused
    cases refused
  unfold ingestOne
  intro failed
  split at failed
  · split at failed
    · next left error added =>
        apply first mapped.password prepared.password
        rw [added]
        exact congrArg Except.error (Except.error.inj failed)
    · cases failed
  · next genesis rotations history =>
      split at failed
      · next left error added =>
          have listed : genesis ∈ mapped.historyPasswords.map Prod.fst := by
            rw [history]
            exact List.mem_cons_self
          obtain ⟨kept, stored, rfl⟩ := List.mem_map.mp listed
          apply first kept.1 (prepared.history kept stored)
          rw [added]
          exact congrArg Except.error (Except.error.inj failed)
      · next left value added =>
          dsimp only at failed
          split at failed
          · next last error updated =>
              apply updatePassword_validation tools prepared.password
              rw [updated]
              exact congrArg Except.error (Except.error.inj failed)
          · cases failed

end

/-- A mapped entry and its import.  The draft is valid if the store takes the names and the
URL; the current password goes on top of a replayed part of the history; an import that fails
leaves the file alone or an account with what was applied. -/
theorem kdbx_import_faithful (tools : TextTools) (keepsInk : KeepsInk tools) (draw : ImportDraw)
    {entry : KdbxEntry} {attachmentNote : Option Text} {now : Int} {mapped : MappedEntry}
    (maps : mapEntry entry attachmentNote now = .ok mapped) {vault : Vault}
    {active : ActiveState} (session : vault.active = some active) :
    (Acceptable tools mapped →
      (∀ password, Validate.password password = .ok () → ∀ nowMs device, ∃ identity,
        (mapped.draft password).validateIntoIdentity tools nowMs device = .ok identity) ∧
      ∀ kind message, (ingestOne tools draw mapped vault).2 ≠ .error (.validation kind message)) ∧
    (∃ string, entry.field "Password" = some string ∧
      mapped.password = string.value.take passwordMax) ∧
    Imports mapped vault active.vdk draw.accountId (ReplayComplete tools draw mapped vault)
      (ingestOne tools draw mapped vault) := by
  obtain ⟨prepared, password⟩ := mapEntry_prepared maps
  refine ⟨fun acceptable => ⟨?_, ?_⟩, password, ingestOne_imports tools draw prepared session⟩
  · intro password usable nowMs device
    exact draft_valid keepsInk prepared acceptable usable nowMs device
  · exact ingestOne_validation draw keepsInk prepared acceptable vault

/-! ## Small imports -/

namespace ImportSample

def tools : TextTools := ArchiveSample.tools

def vault : Vault := Sample.run Sample.vault [Sample.unlock ⟨[1]⟩]

/-- The draws of an import in which one call fails at its first step. -/
def draw (failing : Option Nat) : ImportDraw where
  accountId := ⟨1⟩
  write turn := Sample.draw (turn + 1)
  fault turn := if failing = some turn then some 0 else none

def string (key : String) (value : Text) : KdbxStringValue := ⟨key.toList, encode value⟩

/-- An entry with a password, a URL and earlier passwords. -/
def entry (password : Text) (url : String) (history : List (List UInt8)) : KdbxEntry where
  strings := [string "Title" "Mail".toList, string "UserName" "ann".toList,
    string "Password" password, string "URL" url.toList]
  tags := []
  groupPath := []
  expires := false
  expiryTimeUnix := none
  historyPasswords := history.map fun password => (password, none)

def mapped (urls : List String) (history : List (List UInt8)) : MappedEntry where
  displayName := "Mail".toList
  usernames := ["ann".toList]
  urls := urls.map String.toList
  notes := []
  password := [49]
  totp := none
  tags := []
  historyPasswords := history.map fun password => (password, none)

/-- A long password is cut. -/
theorem cut_password {password : Text} (inked : Inked password)
    (long : passwordMax < password.length) :
    ∃ mapped, mapEntry (entry password "" []) none 0 = .ok mapped ∧
      mapped.password ≠ (string "Password" password).value := by
  have shown : valStr (entry password "" []) "Password" = password := decodeLossy_encode password
  obtain ⟨mapped, maps⟩ := mapEntry_maps (shown.symm ▸ inked) none 0
  obtain ⟨-, stored, -, cut⟩ := mapEntry_prepared maps
  have short : mapped.password.length ≤ passwordMax := by
    rw [cut]
    exact List.length_take_le _ _
  refine ⟨mapped, maps, fun same => ?_⟩
  rw [same] at short
  exact Nat.not_lt.mpr short (long.trans_le (length_le_encode password))

/-- The passwords an open vault shows for an account. -/
def shownPasswords (vault : Vault) (accountId : AccountId) : Option (List (List UInt8)) := do
  let active ← vault.active
  let account ← findAccount vault.disk.log accountId
  let identity ← (readIdentityAt vault active accountId account.headRevisionId).toOption
  return identity.passwordHistory.map PasswordEntry.password

end ImportSample

open ImportSample in
/-- Two earlier passwords and a URL with a scheme. -/
theorem kdbx_import_faithful_two :
    let imported := mapped ["https://example.com/"] [[50], [51]]
    ∃ active, vault.active = some active ∧
      ((imported.draft [50]).validateIntoIdentity tools 0 Sample.device.deviceId).toOption.isSome ∧
      (ingestOne tools (draw none) imported vault).2 = .ok () ∧
      (∃ string, (entry ['1'] "https://example.com/" [[50], [51]]).field "Password" = some string ∧
        imported.password = string.value.take passwordMax) ∧
      Imports imported vault active.vdk ⟨1⟩ (ReplayComplete tools (draw none) imported vault)
        (ingestOne tools (draw none) imported vault) := by
  obtain ⟨active, opened⟩ := Option.isSome_iff_exists.mp (by decide +kernel :
    vault.active.isSome)
  have maps : mapEntry (entry ['1'] "https://example.com/" [[50], [51]]) none 0 =
      .ok (mapped ["https://example.com/"] [[50], [51]]) := by decide +kernel
  have acceptable : Acceptable tools (mapped ["https://example.com/"] [[50], [51]]) := by
    constructor
    · exact ⟨by decide +kernel, by decide +kernel⟩
    · nofun
    · intro username member
      rw [List.mem_singleton.mp member]
      exact ⟨by decide +kernel, by decide +kernel⟩
    · decide +kernel
  obtain ⟨accepts, password, imports⟩ :=
    kdbx_import_faithful tools (fun _ inked => inked) (draw none) maps opened
  obtain ⟨identity, valid⟩ := (accepts acceptable).1 [50] rfl 0 Sample.device.deviceId
  exact ⟨active, opened, by rw [valid]; rfl, by decide +kernel, password, imports⟩

open ImportSample in
/-- A URL without a scheme fails the import; a replay that fails is cut short; a last update
that fails leaves the account with an earlier password; a long password is cut. -/
theorem kdbx_import_refused_and_cut :
    (mapEntry (entry ['1'] "example.com" []) none 0 = .ok (mapped ["example.com"] []) ∧
      (ingestOne tools (draw none) (mapped ["example.com"] []) vault).2 =
        .error (.validation "url" "URL did not parse")) ∧
    mapEntry (entry ['1'] "" [[50], [51]]) none 0 = .ok (mapped [] [[50], [51]]) ∧
    ((ingestOne tools (draw (some 1)) (mapped [] [[50], [51]]) vault).2 = .ok () ∧
      shownPasswords (ingestOne tools (draw (some 1)) (mapped [] [[50], [51]]) vault).1 ⟨1⟩ =
        some [[49], [50]]) ∧
    ((ingestOne tools (draw (some 2)) (mapped [] [[50], [51]]) vault).2 = .error .sqlite ∧
      shownPasswords (ingestOne tools (draw (some 2)) (mapped [] [[50], [51]]) vault).1 ⟨1⟩ =
        some [[51], [50]]) ∧
    ∃ mapped, mapEntry (entry (.replicate 4097 '1') "" []) none 0 = .ok mapped ∧
      mapped.password ≠ (string "Password" (.replicate 4097 '1')).value := by
  refine ⟨⟨?_, ?_⟩, ?_, ⟨?_, ?_⟩, ⟨?_, ?_⟩, ?_⟩
  · decide +kernel
  · decide +kernel
  · decide +kernel
  · decide +kernel
  · decide +kernel
  · decide +kernel
  · decide +kernel
  · apply cut_password
    · exact ⟨'1', List.mem_replicate.mpr ⟨by decide, rfl⟩, by decide⟩
    · rw [List.length_replicate]
      decide

end Pangolin.Kdbx
