import Pangolin.Store.CaptureAuthority
import Pangolin.Runs.Archives

/-!
# Who captures

Over runs of the session's calls and the registry's, the table is a map from contexts to
components: a first registration names one, another one takes its place only by a replacement
behind a presence proof of the same session, and a query finds the last one named.
-/

namespace Pangolin.Store.Capture

open Crypto Utf8

/-- A component, as a row names it. -/
structure Component where
  kind : Int
  componentId : Text
  componentVersion : Text
  deriving Repr, DecidableEq

def CaptureRow.component (row : CaptureRow) : Component :=
  ⟨row.authorityKind, row.componentId, row.componentVersion⟩

def CaptureAuthority.component (authority : CaptureAuthority) : Component :=
  ⟨authority.kind.toRepr, authority.componentId, authority.componentVersion⟩

namespace CaptureRegistry

/-- The component that owns the captures of a context. -/
def owner (registry : CaptureRegistry) (key : Int × Text) : Option Component :=
  (Table.lookup CaptureRow.key registry.rows key).map CaptureRow.component

/-- One call, without its time. -/
inductive Operation where
  | unlock (input : UnlockInput)
  | lock
  | deviceLocked
  | touchSessionExplicit (presence : PresenceCheck)
  | register (presence : PresenceCheck) (authority : CaptureAuthority) (context : CaptureContext)
      (replaceExisting : Bool) (nowMs : Int)
  | query (context : CaptureContext)
  | list
  | clear (context : CaptureContext)

/-- `touch_session_explicit`, with the record of the last proof. -/
def touchSessionExplicit (registry : CaptureRegistry) (presence : PresenceCheck) (now : Nat) :
    CaptureRegistry × Except StoreError Unit :=
  match checkSessionFreshness registry.vault now with
  | (vault, .error error) => (registry.withVault vault, .error error)
  | (_, .ok ()) =>
      match registry.ensurePresence presence now with
      | (registry, .error error) => (registry, .error error)
      | (registry, .ok ()) => (registry.touch now, .ok ())

/-- A session begins with the presence proof of its unlock. -/
def unlock (registry : CaptureRegistry) (input : UnlockInput) :
    CaptureRegistry × Except StoreError Unit :=
  match Store.unlock registry.vault input with
  | (vault, .error error) => ({ registry with vault }, .error error)
  | (vault, .ok ()) => ({ registry with vault, lastPresenceAt := some input.now }, .ok ())

variable (tools : TextTools)

/-- Perform a call at a time. -/
def perform (registry : CaptureRegistry) : Nat × Operation → CaptureRegistry
  | (now, .unlock input) => (registry.unlock { input with now }).1
  | (_, .lock) => registry.withVault (Store.lock registry.vault)
  | (_, .deviceLocked) => registry.withVault (Store.deviceLocked registry.vault)
  | (now, .touchSessionExplicit presence) => (registry.touchSessionExplicit presence now).1
  | (now, .register presence authority context replaceExisting nowMs) =>
      (register tools registry presence authority context replaceExisting now nowMs).1
  | (now, .query context) => (registry.query context now).1
  | (now, .list) => (registry.list now).1
  | (now, .clear context) => (registry.clear context now).1

/-- The context and the component a registration names, once validated. -/
def Operation.named : Operation → Option ((Int × Text) × Component)
  | .register _ authority context _ _ =>
      match validateAuthority tools authority, validateContext context with
      | .ok authority, .ok context => some (context.key, authority.component)
      | _, _ => none
  | _ => none

/-- What a call says of a context if it succeeds: a component, or that there is none. -/
def word (registry : CaptureRegistry) (key : Int × Text) :
    Nat × Operation → Option (Option Component)
  | (now, .register presence authority context replaceExisting nowMs) =>
      match (register tools registry presence authority context replaceExisting now nowMs).2,
        (Operation.register presence authority context replaceExisting nowMs).named tools with
      | .ok _, some (named, component) => if named = key then some (some component) else none
      | _, _ => none
  | (now, .clear context) =>
      match (registry.clear context now).2, validateContext context with
      | .ok _, .ok context => if context.key = key then some none else none
      | _, _ => none
  | _ => none

/-- The last word of a run on a context, over the one before it. -/
def lastWord (key : Int × Text) :
    CaptureRegistry → Option Component → List (Nat × Operation) → Option Component
  | _, before, [] => before
  | registry, before, call :: calls =>
      lastWord key (perform tools registry call) ((word tools registry key call).getD before) calls

/-! ## What a call can do to the table -/

section

variable {tools} {registry : CaptureRegistry} {now : Nat} {key : Int × Text}

@[simp] theorem withVault_rows (vault : Vault) : (registry.withVault vault).rows = registry.rows :=
  rfl

@[simp] theorem touch_rows : (registry.touch now).rows = registry.rows := rfl

@[simp] theorem touch_lastPresenceAt : (registry.touch now).lastPresenceAt =
    registry.lastPresenceAt := rfl

@[simp] theorem ensurePresence_rows (presence : PresenceCheck) :
    (registry.ensurePresence presence now).1.rows = registry.rows := by
  unfold ensurePresence
  split
  · rfl
  · split
    · rfl
    · split <;> rfl

/-- A presence check passes on a recent proof of the session or on the proof it is given. -/
theorem ensurePresence_ok {presence : PresenceCheck}
    (passed : (registry.ensurePresence presence now).2 = .ok ()) :
    registry.recent now = true ∨ presence = .fresh := by
  unfold ensurePresence at passed
  split at passed
  · cases passed
  · split at passed
    · next recent => exact .inl recent
    · cases presence with
      | fresh => exact .inr rfl
      | stale => cases passed
      | refused => cases passed

theorem recent_recorded (recent : registry.recent now = true) :
    ∃ time, registry.lastPresenceAt = some time ∧ now - time ≤ presenceFreshness := by
  unfold CaptureRegistry.recent at recent
  cases recorded : registry.lastPresenceAt with
  | none =>
      rw [recorded] at recent
      cases recent
  | some time =>
      rw [recorded, Option.any_some] at recent
      exact ⟨time, rfl, of_decide_eq_true recent⟩

/-- How a registration of validated input ends. -/
inductive Registered (registry : CaptureRegistry) (presence : PresenceCheck)
    (authority : CaptureAuthority) (context : CaptureContext) (replaceExisting : Bool)
    (now : Nat) (nowMs : Int) :
    List CaptureRow → Except CaptureError RegistrationOutcome → Prop where
  | created : Table.lookup CaptureRow.key registry.rows context.key = none →
      Registered registry presence authority context replaceExisting now nowMs
        (registry.rows ++ [rowOf authority context nowMs]) (.ok .created)
  | noOp (row : CaptureRow) (existing : CaptureAuthority) :
      Table.lookup CaptureRow.key registry.rows context.key = some row →
      row.component = authority.component →
      Registered registry presence authority context replaceExisting now nowMs registry.rows
        (.ok (.noOp existing))
  | replaced (existing : CaptureAuthority) :
      replaceExisting = true → registry.recent now = true ∨ presence = .fresh →
      Registered registry presence authority context replaceExisting now nowMs
        (Table.upsert CaptureRow.key registry.rows (rowOf authority context nowMs))
        (.ok (.replaced existing))
  | failed (error : CaptureError) :
      Registered registry presence authority context replaceExisting now nowMs registry.rows
        (.error error)

theorem CaptureAuthorityKind.toRepr_of_fromRepr {value : Int} {kind : CaptureAuthorityKind}
    (known : CaptureAuthorityKind.fromRepr value = .ok kind) : kind.toRepr = value := by
  unfold CaptureAuthorityKind.fromRepr at known
  split_ifs at known with desktop extension mobile
  · cases known
    exact desktop.symm
  · cases known
    exact extension.symm
  · cases known
    exact mobile.symm

/-- A decoded row names the component that is stored in it. -/
theorem existingAuthority_component {row : CaptureRow} {existing : CaptureAuthority}
    (decoded : existingAuthority row = .ok existing) : existing.component = row.component := by
  unfold existingAuthority at decoded
  split_ifs at decoded
  obtain ⟨kind, known, same⟩ := Fallible.bind_eq_ok_iff.mp decoded
  cases same
  rw [CaptureAuthority.component, CaptureRow.component,
    CaptureAuthorityKind.toRepr_of_fromRepr known]

theorem decodeCaptureRow_component {row : CaptureRow} {entry : CaptureAuthorityEntry}
    (decoded : decodeCaptureRow row = .ok entry) : entry.authority.component = row.component := by
  unfold decodeCaptureRow at decoded
  split_ifs at decoded
  obtain ⟨contextKind, _, rest⟩ := Fallible.bind_eq_ok_iff.mp decoded
  obtain ⟨kind, known, same⟩ := Fallible.bind_eq_ok_iff.mp rest
  cases same
  rw [CaptureAuthority.component, CaptureRow.component,
    CaptureAuthorityKind.toRepr_of_fromRepr known]

theorem registerInTx_registered (presence : PresenceCheck) (authority : CaptureAuthority)
    (context : CaptureContext) (replaceExisting : Bool) (nowMs : Int) :
    Registered registry presence authority context replaceExisting now nowMs
      (registry.registerInTx presence authority context replaceExisting now nowMs).1.rows
      (registry.registerInTx presence authority context replaceExisting now nowMs).2 := by
  unfold registerInTx
  cases found : Table.lookup CaptureRow.key registry.rows context.key with
  | none => exact .created found
  | some row =>
      cases decoded : existingAuthority row with
      | error error =>
          simp only [decoded]
          exact .failed error
      | ok existing =>
          have stored := existingAuthority_component decoded
          by_cases same : existing.kind = authority.kind ∧
              existing.componentId = authority.componentId ∧
              existing.componentVersion = authority.componentVersion
          · simp only [decoded, if_pos same]
            refine .noOp row existing found (stored.symm.trans ?_)
            rw [CaptureAuthority.component, same.1, same.2.1, same.2.2]
            rfl
          · simp only [decoded, if_neg same]
            cases replaceExisting with
            | false => exact .failed _
            | true =>
                cases checked : registry.ensurePresence presence now with
                | mk after passed =>
                    have rows : after.rows = registry.rows :=
                      (congrArg (·.1.rows) checked).symm.trans (ensurePresence_rows presence)
                    cases passed with
                    | error error =>
                        simp only [not_true_eq_false, if_false, rows]
                        exact .failed _
                    | ok done =>
                        simp only [not_true_eq_false, if_false, rows]
                        exact .replaced existing rfl (ensurePresence_ok (congrArg Prod.snd checked))

/-- A registration fails and leaves the table, or its input is valid and the table says so. -/
theorem register_cases (tools : TextTools) (registry : CaptureRegistry) (now : Nat)
    (presence : PresenceCheck) (authority : CaptureAuthority) (context : CaptureContext)
    (replaceExisting : Bool) (nowMs : Int) :
    (∃ error, (register tools registry presence authority context replaceExisting now nowMs).2 =
        .error error ∧
      (register tools registry presence authority context replaceExisting now nowMs).1.rows =
        registry.rows) ∨
    ∃ valid place outcome, validateAuthority tools authority = .ok valid ∧
      validateContext context = .ok place ∧
      (register tools registry presence authority context replaceExisting now nowMs).2 =
        .ok outcome ∧
      Registered registry presence valid place replaceExisting now nowMs
        (register tools registry presence authority context replaceExisting now nowMs).1.rows
        (.ok outcome) := by
  unfold register
  cases checkSessionFreshness registry.vault now with
  | mk vault fresh =>
      cases fresh with
      | error error => exact .inl ⟨.store error, rfl, rfl⟩
      | ok live =>
          cases validateAuthority tools authority with
          | error error => exact .inl ⟨error, rfl, rfl⟩
          | ok valid =>
              cases validateContext context with
              | error error => exact .inl ⟨error, rfl, rfl⟩
              | ok place =>
                  have registered : Registered registry presence valid place replaceExisting now
                      nowMs
                      (registry.registerInTx presence valid place replaceExisting now nowMs).1.rows
                      (registry.registerInTx presence valid place replaceExisting now nowMs).2 :=
                    registerInTx_registered presence valid place replaceExisting nowMs
                  revert registered
                  dsimp only
                  cases registry.registerInTx presence valid place replaceExisting now nowMs with
                  | mk done result =>
                      intro registered
                      cases result with
                      | error error => exact .inl ⟨error, rfl, rfl⟩
                      | ok outcome => exact .inr ⟨valid, place, outcome, rfl, rfl, rfl, registered⟩

theorem register_fresh {presence : PresenceCheck} {authority : CaptureAuthority}
    {context : CaptureContext} {replaceExisting : Bool} {nowMs : Int}
    {outcome : RegistrationOutcome}
    (succeeded : (register tools registry presence authority context replaceExisting now nowMs).2 =
      .ok outcome) : (checkSessionFreshness registry.vault now).2 = .ok () := by
  unfold register at succeeded
  split at succeeded
  · cases succeeded
  · next fresh => exact congrArg Prod.snd fresh

/-- A registration that succeeds names the component of its context and of no other. -/
theorem Registered.lookup {presence : PresenceCheck} {authority : CaptureAuthority}
    {context : CaptureContext} {replaceExisting : Bool} {nowMs : Int} {rows : List CaptureRow}
    {outcome : RegistrationOutcome}
    (registered : Registered registry presence authority context replaceExisting now nowMs rows
      (.ok outcome)) (key : Int × Text) :
    (Table.lookup CaptureRow.key rows key).map CaptureRow.component =
      if context.key = key then some authority.component else registry.owner key := by
  have written : (rowOf authority context nowMs).key = context.key := rfl
  cases registered with
  | created absent =>
      rw [Table.lookup_append_singleton _ _ _ fun row member =>
        Table.lookup_eq_none_iff.mp absent row member, written]
      by_cases same : context.key = key
      · rw [if_pos same.symm, if_pos same]
        rfl
      · rw [if_neg fun equal => same equal.symm, if_neg same]
        rfl
  | noOp row existing found stored =>
      by_cases same : context.key = key
      · rw [if_pos same, ← same, found, Option.map_some, stored]
      · rw [if_neg same]
        rfl
  | replaced existing asked proven =>
      rw [Table.lookup_upsert, written]
      by_cases same : context.key = key
      · rw [if_pos same.symm, if_pos same]
        rfl
      · rw [if_neg fun equal => same equal.symm, if_neg same]
        rfl

/-- To take a context from its component takes a replacement behind a presence proof. -/
theorem Registered.replaces {presence : PresenceCheck} {authority : CaptureAuthority}
    {context : CaptureContext} {replaceExisting : Bool} {nowMs : Int} {rows : List CaptureRow}
    {outcome : RegistrationOutcome} {old : Component}
    (registered : Registered registry presence authority context replaceExisting now nowMs rows
      (.ok outcome))
    (owned : registry.owner context.key = some old) (different : authority.component ≠ old) :
    replaceExisting = true ∧ (registry.recent now = true ∨ presence = .fresh) := by
  cases registered with
  | created absent =>
      rw [owner, absent] at owned
      cases owned
  | noOp row existing found stored =>
      rw [owner, found, Option.map_some, stored] at owned
      exact absurd (Option.some.inj owned) different
  | replaced existing asked proven => exact ⟨asked, proven⟩

theorem query_rows (context : CaptureContext) :
    (registry.query context now).1.rows = registry.rows := by
  unfold query
  split
  · rfl
  · split
    · rfl
    · split
      · rfl
      · split <;> rfl

theorem list_rows : (registry.list now).1.rows = registry.rows := by
  unfold list
  split
  · rfl
  · split <;> rfl

/-- A clearing fails and leaves the table, or takes the context's row out. -/
theorem clear_cases (registry : CaptureRegistry) (now : Nat) (context : CaptureContext) :
    (∃ error, (registry.clear context now).2 = .error error ∧
      (registry.clear context now).1.rows = registry.rows) ∨
    ∃ place removed, validateContext context = .ok place ∧
      (registry.clear context now).2 = .ok removed ∧
      (registry.clear context now).1.rows =
        registry.rows.filter fun row => row.key ≠ place.key := by
  unfold clear
  split
  · next error _ => exact .inl ⟨_, rfl, rfl⟩
  · split
    · next error _ => exact .inl ⟨error, rfl, rfl⟩
    · next place valid => exact .inr ⟨place, _, valid, rfl, rfl⟩

theorem lookup_filter_key (rows : List CaptureRow) (cleared key : Int × Text) :
    Table.lookup CaptureRow.key (rows.filter fun row => row.key ≠ cleared) key =
      if cleared = key then none else Table.lookup CaptureRow.key rows key := by
  unfold Table.lookup
  rw [List.find?_filter]
  by_cases same : cleared = key
  · subst same
    simp
  · rw [if_neg same]
    apply congrArg fun test => rows.find? test
    funext row
    by_cases found : row.key = key
    · have apart : ¬key = cleared := fun equal => same equal.symm
      simp [found, apart]
    · simp [found]

/-! ## One call -/

theorem touchSessionExplicit_rows (presence : PresenceCheck) :
    (registry.touchSessionExplicit presence now).1.rows = registry.rows := by
  unfold touchSessionExplicit
  split
  · rfl
  · have kept : (registry.ensurePresence presence now).1.rows = registry.rows :=
      ensurePresence_rows presence
    split
    · next after error checked => exact (congrArg (·.1.rows) checked).symm.trans kept
    · next after checked => exact (congrArg (·.1.rows) checked).symm.trans kept

theorem unlock_rows (input : UnlockInput) : (registry.unlock input).1.rows = registry.rows := by
  unfold unlock
  split <;> rfl

/-- After a call, a context belongs to whom the call names, or to whom it belonged. -/
theorem perform_owner (call : Nat × Operation) (key : Int × Text) :
    (perform tools registry call).owner key =
      (word tools registry key call).getD (registry.owner key) := by
  obtain ⟨now, operation⟩ := call
  cases operation with
  | unlock input => exact congrArg (fun rows => (Table.lookup _ rows key).map _) (unlock_rows _)
  | lock => rfl
  | deviceLocked => rfl
  | touchSessionExplicit presence =>
      exact congrArg (fun rows => (Table.lookup _ rows key).map _) (touchSessionExplicit_rows _)
  | query context =>
      exact congrArg (fun rows => (Table.lookup _ rows key).map _) (query_rows context)
  | list => exact congrArg (fun rows => (Table.lookup _ rows key).map _) list_rows
  | register presence authority context replaceExisting nowMs =>
      simp only [owner, perform, word]
      rcases register_cases tools registry now presence authority context
        replaceExisting nowMs with
        ⟨error, failed, rows⟩ | ⟨valid, place, outcome, validated, placed, succeeded, registered⟩
      · rw [failed, rows]
        rfl
      · rw [succeeded, registered.lookup key, Operation.named, validated, placed]
        by_cases same : place.key = key
        · simp [same]
        · simp [same, owner]
  | clear context =>
      simp only [owner, perform, word]
      rcases clear_cases registry now context with
        ⟨error, failed, rows⟩ | ⟨place, removed, placed, succeeded, rows⟩
      · rw [failed, rows]
        rfl
      · rw [succeeded, rows, placed, lookup_filter_key]
        by_cases same : place.key = key
        · simp [same]
        · simp [same]

/-- A query that succeeds answers with the owner of its context. -/
theorem query_owner {context : CaptureContext} {answer : Option CaptureAuthorityEntry}
    (succeeded : (registry.query context now).2 = .ok answer) :
    ∃ place, validateContext context = .ok place ∧
      answer.map (fun entry => entry.authority.component) = registry.owner place.key := by
  unfold query at succeeded
  split at succeeded
  · cases succeeded
  · split at succeeded
    · cases succeeded
    · next place valid =>
        refine ⟨place, valid, ?_⟩
        unfold owner
        split at succeeded
        · next absent =>
            cases succeeded
            rw [absent]
            rfl
        · next row found =>
            split at succeeded
            · cases succeeded
            · next entry decoded =>
                cases succeeded
                rw [found]
                exact congrArg some (decodeCaptureRow_component decoded)

/-- A registration that takes a context from one component to another asks for it, in a fresh
session and behind a presence proof. -/
theorem word_replaces {operation : Operation} {old new : Component}
    (owned : registry.owner key = some old) (different : new ≠ old)
    (said : word tools registry key (now, operation) = some (some new)) :
    (checkSessionFreshness registry.vault now).2 = .ok () ∧
    ∃ presence authority context nowMs,
      operation = .register presence authority context true nowMs ∧
      operation.named tools = some (key, new) ∧
      (registry.recent now = true ∨ presence = .fresh) := by
  cases operation with
  | unlock input => cases said
  | lock => cases said
  | deviceLocked => cases said
  | touchSessionExplicit presence => cases said
  | query context => cases said
  | list => cases said
  | clear context =>
      simp only [word] at said
      split at said
      · split_ifs at said
        cases said
      · cases said
  | register presence authority context replaceExisting nowMs =>
      simp only [word] at said
      rcases register_cases tools registry now presence authority context
        replaceExisting nowMs with
        ⟨error, failed, _⟩ | ⟨valid, place, outcome, validated, placed, succeeded, registered⟩
      · rw [failed] at said
        cases said
      · have names : (Operation.register presence authority context replaceExisting nowMs).named
            tools = some (place.key, valid.component) := by
          simp only [Operation.named, validated, placed]
        rw [succeeded, names] at said
        by_cases same : place.key = key
        · simp only [if_pos same, Option.some.injEq] at said
          subst same
          subst said
          obtain ⟨asked, proven⟩ := registered.replaces owned different
          subst asked
          exact ⟨register_fresh succeeded, presence, authority, context, nowMs, rfl, names, proven⟩
        · simp [same] at said

/-! ## Presence proofs over a run -/

/-- The call brings a presence proof that verifies. -/
def Operation.presents : Operation → Bool
  | .unlock input => input.presence
  | .touchSessionExplicit presence => presence = .fresh
  | .register presence .. => presence = .fresh
  | _ => false

/-- The record of the last proof belongs to a session in memory. -/
def Held (registry : CaptureRegistry) : Prop :=
  registry.lastPresenceAt.isSome = true → registry.vault.active.isSome = true

/-- What a call leaves of the record: it belongs to a session, and it is older than the call or
the proof the call brings. -/
structure Stamped (registry : CaptureRegistry) (now : Nat) (proven : Bool)
    (after : CaptureRegistry) : Prop where
  held : after.Held
  origin (time : Nat) : after.lastPresenceAt = some time →
    registry.lastPresenceAt = some time ∨ time = now ∧ proven = true

theorem Stamped.same (held : registry.Held) {proven : Bool} :
    Stamped registry now proven registry where
  held := held
  origin _ recorded := .inl recorded

theorem withVault_stamped (vault : Vault) {proven : Bool} :
    Stamped registry now proven (registry.withVault vault) where
  held := by
    intro recorded
    by_cases live : vault.active.isSome = true
    · exact live
    · simp [withVault, live] at recorded
  origin time recorded := by
    by_cases live : vault.active.isSome = true
    · simp only [withVault, if_pos live] at recorded
      exact .inl recorded
    · simp [withVault, live] at recorded

theorem Stamped.at {proven : Bool} {after after' : CaptureRegistry}
    (stamped : Stamped registry now proven after) (same : after = after') :
    Stamped registry now proven after' := same ▸ stamped

theorem Stamped.touch {proven : Bool} {after : CaptureRegistry}
    (stamped : Stamped registry now proven after) :
    Stamped registry now proven (after.touch now) where
  held recorded := by
    rw [CaptureRegistry.touch, touchSession_active]
    exact stamped.held recorded
  origin := stamped.origin

theorem Stamped.withRows {proven : Bool} {after : CaptureRegistry} (rows : List CaptureRow)
    (stamped : Stamped registry now proven after) :
    Stamped registry now proven { after with rows } where
  held := stamped.held
  origin := stamped.origin

theorem ensurePresence_stamped (held : registry.Held) (presence : PresenceCheck) :
    Stamped registry now (decide (presence = .fresh)) (registry.ensurePresence presence now).1 := by
  unfold ensurePresence
  split
  · exact .same held
  · next active live =>
      split
      · exact .same held
      · cases presence with
        | fresh =>
            exact ⟨fun _ => congrArg Option.isSome live, fun time recorded =>
              .inr ⟨(Option.some.inj recorded).symm, rfl⟩⟩
        | stale => exact .same held
        | refused => exact .same held

theorem register_stamped (held : registry.Held) (presence : PresenceCheck)
    (authority : CaptureAuthority) (context : CaptureContext) (replaceExisting : Bool)
    (nowMs : Int) :
    Stamped registry now (decide (presence = .fresh))
      (register tools registry presence authority context replaceExisting now nowMs).1 := by
  have tried (valid : CaptureAuthority) (place : CaptureContext) :
      Stamped registry now (decide (presence = .fresh))
        (registry.registerInTx presence valid place replaceExisting now nowMs).1 := by
    have proven : Stamped registry now (decide (presence = .fresh))
        (registry.ensurePresence presence now).1 := ensurePresence_stamped held presence
    unfold registerInTx
    split
    · exact .withRows _ (.same held)
    · split
      · exact .same held
      · split_ifs
        · exact .same held
        · split
          · next after error checked => exact proven.at (congrArg Prod.fst checked)
          · next after checked => exact .withRows _ (proven.at (congrArg Prod.fst checked))
        · exact .same held
  unfold register
  split
  · exact withVault_stamped _
  · split
    · exact .same held
    · exact .same held
    · next valid place _ _ =>
        split
        · next done outcome finished =>
            exact .touch ((tried valid place).at (congrArg Prod.fst finished))
        · next done error finished =>
            exact .withRows _ ((tried valid place).at (congrArg Prod.fst finished))

theorem query_stamped (held : registry.Held) (context : CaptureContext) :
    Stamped registry now false (registry.query context now).1 := by
  unfold query
  split
  · exact withVault_stamped _
  · split
    · exact .same held
    · split
      · exact .touch (.same held)
      · split
        · exact .same held
        · exact .touch (.same held)

theorem list_stamped (held : registry.Held) :
    Stamped registry now false (registry.list now).1 := by
  unfold list
  split
  · exact withVault_stamped _
  · split
    · exact .same held
    · exact .touch (.same held)

theorem clear_stamped (held : registry.Held) (context : CaptureContext) :
    Stamped registry now false (registry.clear context now).1 := by
  unfold clear
  split
  · exact withVault_stamped _
  · split
    · exact .same held
    · exact .touch (.withRows _ (.same held))

theorem touchSessionExplicit_stamped (held : registry.Held) (presence : PresenceCheck) :
    Stamped registry now (decide (presence = .fresh))
      (registry.touchSessionExplicit presence now).1 := by
  have proven : Stamped registry now (decide (presence = .fresh))
        (registry.ensurePresence presence now).1 := ensurePresence_stamped held presence
  unfold touchSessionExplicit
  split
  · exact withVault_stamped _
  · split
    · next after error checked => exact proven.at (congrArg Prod.fst checked)
    · next after checked => exact .touch (proven.at (congrArg Prod.fst checked))

theorem unlock_stamped (held : registry.Held) (input : UnlockInput) :
    Stamped registry input.now input.presence (registry.unlock input).1 := by
  unfold unlock Store.unlock atomically
  cases begun : tryUnlock registry.vault input with
  | error error => exact .same held
  | ok opened =>
      unfold tryUnlock at begun
      split_ifs at begun with presented
      obtain ⟨keys, _, begun⟩ := Fallible.bind_eq_ok_iff.mp begun
      obtain ⟨data, _, begun⟩ := Fallible.bind_eq_ok_iff.mp begun
      obtain ⟨device, _, begun⟩ := Fallible.bind_eq_ok_iff.mp begun
      cases begun
      exact ⟨fun _ => rfl, fun time recorded => .inr ⟨(Option.some.inj recorded).symm, presented⟩⟩

/-- The record of the last proof after a call. -/
theorem perform_stamped (held : registry.Held) (call : Nat × Operation) :
    Stamped registry call.1 call.2.presents (perform tools registry call) := by
  obtain ⟨now, operation⟩ := call
  cases operation with
  | unlock input => exact unlock_stamped held { input with now }
  | lock => exact withVault_stamped _
  | deviceLocked => exact withVault_stamped _
  | touchSessionExplicit presence => exact touchSessionExplicit_stamped held presence
  | register presence authority context replaceExisting nowMs =>
      exact register_stamped held presence authority context replaceExisting nowMs
  | query context => exact query_stamped held context
  | list => exact list_stamped held
  | clear context => exact clear_stamped held context

theorem run_held (held : registry.Held) (calls : List (Nat × Operation)) :
    (calls.foldl (perform tools) registry).Held := by
  induction calls generalizing registry with
  | nil => exact held
  | cons call calls ih => exact ih (perform_stamped held call).held

/-- In the run, a call at that time brought a presence proof, and its session is still in memory. -/
def Proven (tools : TextTools) (start : CaptureRegistry) (calls : List (Nat × Operation))
    (time : Nat) : Prop :=
  ∃ before operation after, calls = before ++ (time, operation) :: after ∧
    operation.presents = true ∧
    ∀ middle rest, after = middle ++ rest →
      ((before ++ (time, operation) :: middle).foldl (perform tools) start).vault.active.isSome =
        true

/-- The record of the last proof is the time of a proof of the same session. -/
theorem recorded_proven {start : CaptureRegistry} (fresh : start.lastPresenceAt = none)
    (calls : List (Nat × Operation)) {time : Nat}
    (recorded : (calls.foldl (perform tools) start).lastPresenceAt = some time) :
    Proven tools start calls time := by
  have none_held : start.Held := by
    intro recorded
    rw [fresh] at recorded
    cases recorded
  induction calls using List.reverseRecOn with
  | nil =>
      rw [List.foldl_nil, fresh] at recorded
      cases recorded
  | append_singleton calls call ih =>
      have stamped : Stamped (calls.foldl (perform tools) start) call.1 call.2.presents
          (perform tools (calls.foldl (perform tools) start) call) :=
        perform_stamped (run_held none_held calls) call
      have step : (calls ++ [call]).foldl (perform tools) start =
          perform tools (calls.foldl (perform tools) start) call := by
        rw [List.foldl_append, List.foldl_cons, List.foldl_nil]
      rw [step] at recorded
      have live : ((calls ++ [call]).foldl (perform tools) start).vault.active.isSome = true := by
        rw [step]
        exact stamped.held (by rw [recorded]; rfl)
      rcases stamped.origin time recorded with earlier | ⟨same, presents⟩
      · obtain ⟨before, operation, after, split, presents, kept⟩ := ih earlier
        refine ⟨before, operation, after ++ [call], ?_, presents, ?_⟩
        · rw [split, List.append_assoc, List.cons_append]
        · intro middle rest parts
          rcases List.eq_nil_or_concat rest with rfl | ⟨rest, last, rfl⟩
          · rw [List.append_nil] at parts
            rwa [← parts, ← List.cons_append, ← List.append_assoc, ← split]
          · rw [List.concat_eq_append, ← List.append_assoc] at parts
            exact kept middle rest (List.append_inj_left' parts rfl)
      · refine ⟨calls, call.2, [], ?_, presents, ?_⟩
        · rw [same]
        · intro middle rest parts
          obtain ⟨rfl, rfl⟩ := List.append_eq_nil_iff.mp parts.symm
          rwa [same]

/-! ## Runs -/

/-- The table over a run is the map its successful calls describe. -/
theorem run_owner (calls : List (Nat × Operation)) (key : Int × Text) :
    (calls.foldl (perform tools) registry).owner key =
      lastWord tools key registry (registry.owner key) calls := by
  induction calls generalizing registry with
  | nil => rfl
  | cons call calls ih =>
      rw [List.foldl_cons, ih, perform_owner]
      rfl

/-- A query that succeeds after a run answers with the last component its calls named. -/
theorem query_answers_last_word (start : CaptureRegistry) (calls : List (Nat × Operation))
    (context : CaptureContext) (now : Nat) (answer : Option CaptureAuthorityEntry)
    (succeeded : ((calls.foldl (perform tools) start).query context now).2 = .ok answer) :
    ∃ place, validateContext context = .ok place ∧
      answer.map (fun entry => entry.authority.component) =
        lastWord tools place.key start (start.owner place.key) calls := by
  obtain ⟨place, valid, same⟩ := query_owner succeeded
  exact ⟨place, valid, same.trans (run_owner calls place.key)⟩

namespace Sample

def desktop : CaptureContext := ⟨1, .desktop, none⟩

def unlocked : CaptureRegistry := ⟨Pangolin.Sample.vault, none, []⟩

/-- Register a component of this version in the desktop context. -/
def registers (version : Char) (replaceExisting : Bool) : Operation :=
  .register .refused ⟨1, .desktop, ['p'], [version]⟩ desktop replaceExisting 0

/-- An unlock, and a first registration. -/
def first : List (Nat × Operation) :=
  [(0, .unlock (Pangolin.Sample.unlockInput ⟨[1]⟩)), (1000, registers '1' false)]

/-- A replacement on the strength of the unlock's proof. -/
def replacing : List (Nat × Operation) := [(50000, registers '2' true)]

end Sample

theorem replaced_component_answers :
    ∃ place, validateContext Sample.desktop = .ok place ∧
      some (⟨0, ['p'], ['2']⟩ : Component) = lastWord ArchiveSample.tools place.key Sample.unlocked
        (Sample.unlocked.owner place.key) (Sample.first ++ Sample.replacing) :=
  query_answers_last_word Sample.unlocked (Sample.first ++ Sample.replacing) Sample.desktop 50001
    (some ⟨1, ⟨1, .desktop, none⟩, ⟨1, .desktop, ['p'], ['2']⟩, 0⟩) (by decide +kernel)

/-- Between two different owners of a context lies a clearing of it, or a replacement that a
fresh session asked for behind a presence proof, its own or a recent one of the session. -/
theorem owner_changes_proven (start : CaptureRegistry) (fresh : start.lastPresenceAt = none)
    (first run : List (Nat × Operation)) (key : Int × Text) (old new : Component)
    (owned : (first.foldl (perform tools) start).owner key = some old)
    (later : ((first ++ run).foldl (perform tools) start).owner key = some new)
    (different : new ≠ old) :
    ∃ before now operation after, run = before ++ (now, operation) :: after ∧
      let registry := (first ++ before).foldl (perform tools) start
      registry.owner key = some old ∧
      (word tools registry key (now, operation) = some none ∨
        ∃ next presence authority context nowMs, next ≠ old ∧
          word tools registry key (now, operation) = some (some next) ∧
          operation = .register presence authority context true nowMs ∧
          (checkSessionFreshness registry.vault now).2 = .ok () ∧
          (presence = .fresh ∨
            ∃ time, now - time ≤ presenceFreshness ∧
              Proven tools start (first ++ before) time)) := by
  induction run generalizing first with
  | nil =>
      rw [List.append_nil, owned] at later
      exact absurd (Option.some.inj later).symm different
  | cons call run ih =>
      obtain ⟨now, operation⟩ := call
      have step : (first ++ [(now, operation)]).foldl (perform tools) start =
          perform tools (first.foldl (perform tools) start) (now, operation) := by
        rw [List.foldl_append, List.foldl_cons, List.foldl_nil]
      have said : (perform tools (first.foldl (perform tools) start) (now, operation)).owner key =
          (word tools (first.foldl (perform tools) start) key (now, operation)).getD
            ((first.foldl (perform tools) start).owner key) := perform_owner (now, operation) key
      -- the first call after which the owner is another one
      by_cases kept :
          ((first ++ [(now, operation)]).foldl (perform tools) start).owner key = some old
      · obtain ⟨before, now', operation', after, split, change⟩ :=
          ih (first ++ [(now, operation)]) kept (by rwa [List.append_assoc])
        refine ⟨(now, operation) :: before, now', operation', after, by rw [split]; rfl, ?_⟩
        rwa [List.append_assoc] at change
      · refine ⟨[], now, operation, run, rfl, ?_⟩
        rw [List.append_nil]
        refine ⟨owned, ?_⟩
        rw [step, said] at kept
        cases word_now : word tools (first.foldl (perform tools) start) key (now, operation) with
        | none =>
            rw [word_now, owned] at kept
            exact absurd rfl kept
        | some spoken =>
            cases spoken with
            | none => exact .inl rfl
            | some next =>
                rw [word_now] at kept
                have other : next ≠ old := fun equal => kept (by rw [equal]; rfl)
                obtain ⟨live, presence, authority, context, nowMs, asked, _, proven⟩ :=
                  word_replaces owned other word_now
                refine .inr ⟨next, presence, authority, context, nowMs, other, rfl, asked, live, ?_⟩
                rcases proven with recent | supplied
                · obtain ⟨time, recorded, within⟩ := recent_recorded recent
                  exact .inr ⟨time, within, recorded_proven fresh first recorded⟩
                · exact .inl supplied

theorem replacement_proven :
    ∃ before now operation after, Sample.replacing = before ++ (now, operation) :: after ∧
      let registry := (Sample.first ++ before).foldl (perform ArchiveSample.tools) Sample.unlocked
      registry.owner (0, []) = some ⟨0, ['p'], ['1']⟩ ∧
      (word ArchiveSample.tools registry (0, []) (now, operation) = some none ∨
        ∃ next presence authority context nowMs, next ≠ ⟨0, ['p'], ['1']⟩ ∧
          word ArchiveSample.tools registry (0, []) (now, operation) = some (some next) ∧
          operation = .register presence authority context true nowMs ∧
          (checkSessionFreshness registry.vault now).2 = .ok () ∧
          (presence = .fresh ∨ ∃ time, now - time ≤ presenceFreshness ∧
            Proven ArchiveSample.tools Sample.unlocked (Sample.first ++ before) time)) :=
  owner_changes_proven Sample.unlocked rfl Sample.first Sample.replacing (0, [])
    ⟨0, ['p'], ['1']⟩ ⟨0, ['p'], ['2']⟩ (by decide +kernel) (by decide +kernel) (by decide)

end

end CaptureRegistry

end Pangolin.Store.Capture
