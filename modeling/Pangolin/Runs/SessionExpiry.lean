import Pangolin.System
import Pangolin.Store.Session

/-!
# Session expiry

An unlocked session ends at an idle deadline that a touch moves, as long as it has not
passed, and that never moves beyond four hours after the unlock.  Calls that check
freshness respect it.  Those that only ask whether a session is in memory do not, and a
change of the idle duration derives a new deadline whether or not the old one has passed.

The machine below runs the calls against a record of the session kept beside the vault:
the unlock sets it, and only touches made in time move its deadline.
-/

namespace Pangolin

open Crypto Store Transition

/-- One call of the vault, without its time. -/
inductive SessionCall where
  | unlock (input : UnlockInput)
  | lock
  | reopen (placeholder : DeviceId) (sessionIdle : SessionDuration)
  | deviceLocked
  | setSessionIdle (choice : SessionDuration) (presence : Option PresenceCheck)
  | touchSessionExplicit (presence : PresenceCheck)
  | accountAdd (validated : Except StoreError AccountIdentity) (accountId : AccountId)
      (draw : WriteDraw)
  | accountUpdate (accountId : AccountId)
      (patch : AccountIdentity → Except StoreError AccountIdentity) (draw : WriteDraw)
  | deleteAccount (accountId : AccountId) (draw : WriteDraw)
  | resolveFork (accountId : AccountId) (keep : RevisionId) (draw : WriteDraw)
  | accountGet (accountId : AccountId)
  | accountSearch (candidates : List AccountId)
  | revealSecretField (accountId : AccountId) (presence : PresenceCheck)
      (extract : AccountIdentity → List UInt8)
  | signRevisionV1 (content : RevisionContent) (deployment : Bool)
  | onboardGuardians (threshold : Nat) (pubs : List X25519Pub) (signers : List EvmAddress)
      (draw : EscrowDraw)
  | commitVdkRotationFromActive (commit : RotationCommit)
  | createRecoveryBackup
  | recoveryEscrowParams
  | guardianOpenSealedShare (sealedShare : SealedBox) (vaultId : VaultId) (epoch : Nat)
  | sealVdkForNewDevice (recipient : X25519Pub) (deviceId : DeviceId) (vaultId : VaultId)
      (epoch : Nat)
  | persistRecoveryRecipient (target : VaultId) (attemptNonce : Nat) (secret : X25519Secret)
      (pub : X25519Pub) (nowUnix : Int)
  | peekRecoveryRecipientSecret (target : VaultId)
  | flushPublishQueue (deviceKey : DeviceKey) (conditions : FlushConditions)
  | pullOnce (pulled : Pulled)
  | markPublished (revisionId : RevisionId) (anchor : ChainAnchor)
  | ingestPending (delivery : Delivery)
  | stashPendingMerge (merge : PendingMergeRow)

/-- How a call stands to the session's keys. -/
inductive Discipline where
  /-- Uses them after a freshness check. -/
  | gated
  /-- Uses them if a session is in memory. -/
  | ungated
  /-- Does not use them. -/
  | keyless
  deriving Repr, DecidableEq

def SessionCall.discipline : SessionCall → Discipline
  | .accountAdd .. | .accountUpdate .. | .deleteAccount .. | .resolveFork .. | .accountGet _
  | .accountSearch _ | .revealSecretField .. => .gated
  | .signRevisionV1 .. | .onboardGuardians .. | .commitVdkRotationFromActive _
  | .createRecoveryBackup | .recoveryEscrowParams | .guardianOpenSealedShare ..
  | .sealVdkForNewDevice .. | .persistRecoveryRecipient .. | .peekRecoveryRecipientSecret _
  | .flushPublishQueue .. | .pullOnce _ => .ungated
  | _ => .keyless

/-- What a call leaves behind, and whether it succeeded. -/
def outcome {α : Type} (call : Call α) : Vault × Bool := (call.1, call.2.isOk)

/-- The entries of a flush read the clock of the flush. -/
def flushAt (conditions : FlushConditions) (now : Nat) : FlushConditions :=
  { conditions with entry := fun marker => { conditions.entry marker with now } }

section

variable (scheme : ShareScheme) (hash : CanonicalHash)

/-- Perform a call at a time. -/
def perform (vault : Vault) (now : Nat) : SessionCall → Vault × Bool
  | .unlock input => outcome (unlock vault { input with now })
  | .lock => (lock vault, true)
  | .reopen placeholder sessionIdle => (openVault vault.disk placeholder sessionIdle, true)
  | .deviceLocked => (deviceLocked vault, true)
  | .setSessionIdle choice presence => outcome (setSessionIdle vault choice presence now)
  | .touchSessionExplicit presence => outcome (touchSessionExplicit vault presence now)
  | .accountAdd validated accountId draw =>
      outcome (accountAdd vault validated accountId { draw with now })
  | .accountUpdate accountId patch draw =>
      outcome (accountUpdate vault accountId patch { draw with now })
  | .deleteAccount accountId draw => outcome (deleteAccount vault accountId { draw with now })
  | .resolveFork accountId keep draw =>
      outcome (resolveFork vault accountId keep { draw with now })
  | .accountGet accountId => outcome (accountGet vault accountId now)
  | .accountSearch candidates => outcome (accountSearch vault candidates now)
  | .revealSecretField accountId presence extract =>
      outcome (revealSecretField vault accountId presence extract now)
  | .signRevisionV1 content deployment =>
      (vault, (signRevisionV1 vault content deployment).isOk)
  | .onboardGuardians threshold pubs signers draw =>
      outcome (onboardGuardians scheme vault threshold pubs signers draw)
  | .commitVdkRotationFromActive commit => outcome (commitVdkRotationFromActive vault commit)
  | .createRecoveryBackup => (vault, (createRecoveryBackup vault).isOk)
  | .recoveryEscrowParams => (vault, (recoveryEscrowParams vault).isOk)
  | .guardianOpenSealedShare sealedShare vaultId epoch =>
      (vault, (guardianOpenSealedShare vault sealedShare vaultId epoch).isOk)
  | .sealVdkForNewDevice recipient deviceId vaultId epoch =>
      (vault, (sealVdkForNewDevice vault recipient deviceId vaultId epoch).isOk)
  | .persistRecoveryRecipient target attemptNonce secret pub nowUnix =>
      outcome (persistRecoveryRecipient vault target attemptNonce secret pub nowUnix)
  | .peekRecoveryRecipientSecret target =>
      (vault, (peekRecoveryRecipientSecret vault target).isOk)
  | .flushPublishQueue deviceKey conditions =>
      let flushed := flushPublishQueue hash vault deviceKey (flushAt conditions now)
      (flushed.vault, flushed.result.isOk)
  | .pullOnce pulled =>
      let result := pullOnce hash vault pulled now
      (result.1, result.2.isOk)
  | .markPublished revisionId anchor => outcome (markPublished vault revisionId anchor now)
  | .ingestPending delivery =>
      outcome (ingestPendingChainRevision hash vault delivery.event delivery.observedAtBlock
        delivery.observedBlockHash delivery.nowMs now)
  | .stashPendingMerge merge => outcome (stashPendingMerge vault merge now)

end

/-! ## The session as it should be -/

/-- A session: when it was unlocked, and until when it lasts. -/
structure Running where
  startedAt : Nat
  deadline : Nat
  deriving Repr, DecidableEq

/-- The session state says it was touched at this time. -/
def touchedAt (now : Nat) : SessionState → Bool
  | .active _ lastProofAt _ => lastProofAt = now
  | _ => false

/-- A touch moves the deadline if it has not passed. -/
def Running.afterCall (running : Running) (now : Nat) (vault : Vault) : Running :=
  if touchedAt now vault.session && decide (now ≤ running.deadline) then
    { running with
      deadline := nextIdleDeadline now running.startedAt vault.sessionIdle }
  else
    running

/-- The vault, and the session since the last unlock. -/
structure SessionWorld where
  vault : Vault
  running : Option Running
  deriving Repr, DecidableEq

/-- A call and the time it is made at. -/
structure TimedCall where
  now : Nat
  call : SessionCall

def SessionWorld.step (scheme : ShareScheme) (hash : CanonicalHash) (world : SessionWorld)
    (timed : TimedCall) : SessionWorld :=
  let (vault, succeeded) := perform scheme hash world.vault timed.now timed.call
  match timed.call, succeeded with
  | .unlock _, true =>
      ⟨vault, some ⟨timed.now, nextIdleDeadline timed.now timed.now world.vault.sessionIdle⟩⟩
  | _, _ => ⟨vault, world.running.map fun running => running.afterCall timed.now vault⟩

/-- A call that needs the keys succeeds. -/
def UsesKeys (scheme : ShareScheme) (hash : CanonicalHash) (vault : Vault)
    (timed : TimedCall) : Prop :=
  timed.call.discipline ≠ .keyless ∧
    (perform scheme hash vault timed.now timed.call).2 = true

/-- The time is within the session: it was unlocked, and neither the deadline nor the
absolute maximum has passed. -/
def Within (running : Option Running) (now : Nat) : Prop :=
  ∃ session, running = some session ∧ now ≤ session.deadline ∧
    session.deadline ≤ session.startedAt + absoluteMax

/-- No session that has passed its deadline is left. -/
def NotPassed (vault : Vault) (now : Nat) : Prop :=
  ∀ expiresAt lastProofAt startedAt,
    vault.session = .active expiresAt lastProofAt startedAt → now ≤ expiresAt

/-- The calls that do not look at the clock come in time: the ones that use the keys in
memory, and a choice of an idle duration that is not longer than the current one. -/
def InTime (world : SessionWorld) (timed : TimedCall) : Prop :=
  (timed.call.discipline = .ungated → world.vault.active.isSome →
      NotPassed world.vault timed.now) ∧
    ∀ choice presence, timed.call = .setSessionIdle choice presence →
      choice.isLongerThan world.vault.sessionIdle = false → NotPassed world.vault timed.now

/-! ## What a call can do to the session -/

/-- What a call other than an unlock does to the session: nothing, end it, or touch it in
time. -/
inductive SessionStep (now : Nat) (vault vault' : Vault) : Prop where
  | kept : vault'.session = vault.session →
      (∀ expiresAt lastProofAt startedAt,
        vault.session = .active expiresAt lastProofAt startedAt →
          vault'.sessionIdle = vault.sessionIdle) →
      (vault'.active.isSome → vault.active.isSome) → SessionStep now vault vault'
  | ended : vault'.active = none →
      (∀ expiresAt lastProofAt startedAt,
        vault'.session ≠ .active expiresAt lastProofAt startedAt) → SessionStep now vault vault'
  | touched (expiresAt lastProofAt startedAt : Nat) :
      vault.session = .active expiresAt lastProofAt startedAt → now ≤ expiresAt →
      vault'.session =
        .active (nextIdleDeadline now startedAt vault'.sessionIdle) now startedAt →
      (vault'.active.isSome → vault.active.isSome) → SessionStep now vault vault'

namespace SessionStep

variable {now : Nat} {vault middle vault' : Vault}

theorem refl (now : Nat) (vault : Vault) : SessionStep now vault vault :=
  .kept rfl (fun _ _ _ _ => rfl) id

theorem trans (first : SessionStep now vault middle) (second : SessionStep now middle vault') :
    SessionStep now vault vault' := by
  cases second with
  | ended none lapsed => exact .ended none lapsed
  | kept session idle active =>
      cases first with
      | kept session₁ idle₁ active₁ =>
          refine .kept (session.trans session₁) ?_ (active₁ ∘ active)
          intro expiresAt lastProofAt startedAt stored
          exact (idle _ _ _ (session₁.trans stored)).trans (idle₁ _ _ _ stored)
      | ended none lapsed =>
          refine .ended ?_ (session ▸ lapsed)
          simpa [none] using active
      | touched expiresAt lastProofAt startedAt before inTime after active₁ =>
          refine .touched expiresAt lastProofAt startedAt before inTime ?_ (active₁ ∘ active)
          rw [session, after, idle _ _ _ after]
  | touched expiresAt lastProofAt startedAt before inTime after active =>
      cases first with
      | kept session₁ idle₁ active₁ =>
          exact .touched expiresAt lastProofAt startedAt (session₁ ▸ before) inTime after
            (active₁ ∘ active)
      | ended _ lapsed => exact absurd before (lapsed _ _ _)
      | touched expiresAt₁ lastProofAt₁ startedAt₁ before₁ inTime₁ after₁ active₁ =>
          have sameStart : startedAt₁ = startedAt := by
            rw [before] at after₁
            exact (SessionState.active.inj after₁).2.2.symm
          exact .touched expiresAt₁ lastProofAt₁ startedAt₁ before₁ inTime₁
            (sameStart ▸ after) (active₁ ∘ active)

/-- Writing other parts of the vault. -/
theorem frame (first : SessionStep now vault middle) (session : vault'.session = middle.session)
    (idle : vault'.sessionIdle = middle.sessionIdle) (active : vault'.active = middle.active) :
    SessionStep now vault vault' :=
  first.trans (.kept session (fun _ _ _ _ => idle) (active ▸ id))

end SessionStep

theorem touchSession_sessionStep {vault : Vault} {now : Nat} (inTime : NotPassed vault now) :
    SessionStep now vault (touchSession vault now) := by
  unfold touchSession
  split
  · next expiresAt lastProofAt startedAt session =>
      exact .touched expiresAt lastProofAt startedAt session (inTime _ _ _ session) rfl id
  · exact .refl now vault

/-- The soft check: afterwards no passed session is left. -/
theorem maybeExpire_sessionStep (vault : Vault) (now : Nat) :
    SessionStep now vault (maybeExpireActiveSession vault now) ∧
      NotPassed (maybeExpireActiveSession vault now) now := by
  unfold maybeExpireActiveSession
  split
  · next expiresAt _ _ session =>
      split
      · refine ⟨.ended rfl (by simp), ?_⟩
        intro _ _ _ impossible
        cases impossible
      · next inTime =>
          refine ⟨.refl now vault, ?_⟩
          intro _ _ _ same
          rw [session] at same
          obtain ⟨rfl, -, -⟩ := SessionState.active.inj same
          omega
  · next lapsed =>
      refine ⟨.refl now vault, ?_⟩
      intro expiresAt lastProofAt startedAt session
      exact absurd session (lapsed expiresAt lastProofAt startedAt)

/-- A call that expires softly, writes, and touches. -/
theorem softCall_sessionStep {vault middle : Vault} {now : Nat}
    (session : middle.session = (maybeExpireActiveSession vault now).session)
    (idle : middle.sessionIdle = (maybeExpireActiveSession vault now).sessionIdle)
    (active : middle.active = (maybeExpireActiveSession vault now).active) :
    SessionStep now vault (touchSession middle now) := by
  obtain ⟨expired, inTime⟩ := maybeExpire_sessionStep vault now
  refine (expired.frame session idle active).trans (touchSession_sessionStep ?_)
  intro expiresAt lastProofAt startedAt stored
  exact inTime expiresAt lastProofAt startedAt (session ▸ stored)

/-- The writes of a body that leave the session's times and the meta row alone. -/
structure InSession (vault vault' : Vault) : Prop where
  session : vault'.session = vault.session
  sessionIdle : vault'.sessionIdle = vault.sessionIdle
  vaultMeta : vault'.vaultMeta = vault.vaultMeta
  active : vault'.active.isSome

/-- The outcomes of a session-class call: it is refused, it drops a session that has passed,
or it works in a fresh one and touches it. -/
inductive FreshCall {α : Type} (vault : Vault) (now : Nat) : Call α → Prop where
  | refused (error : StoreError) : FreshCall vault now (vault, .error error)
  | expired : FreshCall vault now
      ({ vault with active := none, session := .expired }, .error .sessionExpired)
  | done {after : Vault} {value : α} (expiresAt lastProofAt startedAt : Nat) :
      vault.session = .active expiresAt lastProofAt startedAt → now ≤ expiresAt →
      vault.active.isSome → InSession vault after →
      FreshCall vault now (touchSession after now, .ok value)

theorem withFreshSession_freshCall {α : Type} {vault : Vault} {now : Nat}
    {body : ActiveState → Except StoreError (Vault × α)}
    (frame : ∀ active vault' value, vault.active = some active →
      body active = .ok (vault', value) → InSession vault vault') :
    FreshCall vault now (withFreshSession vault now body) := by
  unfold withFreshSession
  split
  · exact .refused _
  · exact .refused _
  · exact .refused _
  · next expiresAt lastProofAt startedAt session =>
      split
      · exact .expired
      next inTime =>
      split
      · exact .refused _
      · next active present =>
          split
          · exact .refused _
          · next vault' value done =>
              exact .done expiresAt lastProofAt startedAt session (by omega) (by simp [present])
                (frame active vault' value present done)

/-! ## The calls -/

/-- A gated call: it touches in time or not at all, and succeeds only in time. -/
def Gated (now : Nat) (vault : Vault) (result : Vault × Bool) : Prop :=
  SessionStep now vault result.1 ∧
    (result.2 = true → ∃ expiresAt lastProofAt startedAt,
      vault.session = .active expiresAt lastProofAt startedAt ∧ now ≤ expiresAt)

/-- The session-class calls touch only when fresh, and succeed only then. -/
theorem FreshCall.gated {α : Type} {vault : Vault} {now : Nat} {call : Call α}
    (fresh : FreshCall vault now call) : Gated now vault (outcome call) := by
  cases fresh with
  | refused error => exact ⟨.refl now vault, by simp [outcome, Except.isOk, Except.toBool]⟩
  | expired => exact ⟨.ended rfl (by simp [outcome]), by simp [outcome, Except.isOk, Except.toBool]⟩
  | @done after value expiresAt lastProofAt startedAt session inTime present kept =>
      refine ⟨?_, fun _ => ⟨expiresAt, lastProofAt, startedAt, session, inTime⟩⟩
      have written : SessionStep now vault after :=
        .kept kept.session (fun _ _ _ _ => kept.sessionIdle) (fun _ => present)
      refine written.trans (touchSession_sessionStep ?_)
      intro _ _ _ stored
      rw [kept.session, session] at stored
      obtain ⟨rfl, -, -⟩ := SessionState.active.inj stored
      exact inTime

theorem accountAdd_freshCall (vault : Vault) (validated : Except StoreError AccountIdentity)
    (accountId : AccountId) (draw : WriteDraw) :
    FreshCall vault draw.now (accountAdd vault validated accountId draw) := by
  apply withFreshSession_freshCall
  intro active vault' value _ done
  obtain ⟨identity, -, rest⟩ := Fallible.bind_eq_ok_iff.mp done
  split at rest
  · cases rest
  · obtain ⟨log, -, equal⟩ := Fallible.bind_eq_ok_iff.mp rest
    obtain ⟨rfl, -⟩ := Prod.mk.inj (Except.ok.inj equal)
    exact ⟨rfl, rfl, rfl, rfl⟩

theorem accountUpdate_freshCall (vault : Vault) (accountId : AccountId)
    (patch : AccountIdentity → Except StoreError AccountIdentity) (draw : WriteDraw) :
    FreshCall vault draw.now (accountUpdate vault accountId patch draw) := by
  apply withFreshSession_freshCall
  intro active vault' value _ done
  obtain ⟨-, -, rest⟩ := Fallible.bind_eq_ok_iff.mp done
  obtain ⟨account, -, rest⟩ := Fallible.bind_eq_ok_iff.mp rest
  obtain ⟨current, -, rest⟩ := Fallible.bind_eq_ok_iff.mp rest
  obtain ⟨identity, -, rest⟩ := Fallible.bind_eq_ok_iff.mp rest
  obtain ⟨log, -, equal⟩ := Fallible.bind_eq_ok_iff.mp rest
  obtain ⟨rfl, -⟩ := Prod.mk.inj (Except.ok.inj equal)
  exact ⟨rfl, rfl, rfl, rfl⟩

theorem deleteAccount_freshCall (vault : Vault) (accountId : AccountId) (draw : WriteDraw) :
    FreshCall vault draw.now (deleteAccount vault accountId draw) := by
  apply withFreshSession_freshCall
  intro active vault' value _ done
  obtain ⟨-, -, rest⟩ := Fallible.bind_eq_ok_iff.mp done
  obtain ⟨account, -, rest⟩ := Fallible.bind_eq_ok_iff.mp rest
  obtain ⟨log, -, equal⟩ := Fallible.bind_eq_ok_iff.mp rest
  obtain ⟨rfl, -⟩ := Prod.mk.inj (Except.ok.inj equal)
  exact ⟨rfl, rfl, rfl, rfl⟩

theorem resolveFork_freshCall (vault : Vault) (accountId : AccountId) (keep : RevisionId)
    (draw : WriteDraw) :
    FreshCall vault draw.now (resolveFork vault accountId keep draw) := by
  apply withFreshSession_freshCall
  intro active vault' value _ done
  obtain ⟨chosen, -, rest⟩ := Fallible.bind_eq_ok_iff.mp done
  obtain ⟨payload, -, rest⟩ := Fallible.bind_eq_ok_iff.mp rest
  obtain ⟨log, -, equal⟩ := Fallible.bind_eq_ok_iff.mp rest
  obtain ⟨rfl, -⟩ := Prod.mk.inj (Except.ok.inj equal)
  exact ⟨rfl, rfl, rfl, rfl⟩

theorem accountGet_freshCall (vault : Vault) (accountId : AccountId) (now : Nat) :
    FreshCall vault now (accountGet vault accountId now) := by
  apply withFreshSession_freshCall
  intro active vault' value present done
  obtain ⟨-, -, rest⟩ := Fallible.bind_eq_ok_iff.mp done
  obtain ⟨account, -, rest⟩ := Fallible.bind_eq_ok_iff.mp rest
  obtain ⟨head, -, rest⟩ := Fallible.bind_eq_ok_iff.mp rest
  obtain ⟨identity, -, equal⟩ := Fallible.bind_eq_ok_iff.mp rest
  obtain ⟨rfl, -⟩ := Prod.mk.inj (Except.ok.inj equal)
  exact ⟨rfl, rfl, rfl, by simp [present]⟩

theorem accountSearch_freshCall (vault : Vault) (candidates : List AccountId) (now : Nat) :
    FreshCall vault now (accountSearch vault candidates now) := by
  apply withFreshSession_freshCall
  intro active vault' value present done
  obtain ⟨hits, -, equal⟩ := Fallible.bind_eq_ok_iff.mp done
  obtain ⟨rfl, -⟩ := Prod.mk.inj (Except.ok.inj equal)
  exact ⟨rfl, rfl, rfl, by simp [present]⟩

theorem revealSecretField_freshCall (vault : Vault) (accountId : AccountId)
    (presence : PresenceCheck) (extract : AccountIdentity → List UInt8) (now : Nat) :
    FreshCall vault now (revealSecretField vault accountId presence extract now) := by
  apply withFreshSession_freshCall
  intro active vault' value present done
  obtain ⟨-, -, rest⟩ := Fallible.bind_eq_ok_iff.mp done
  obtain ⟨-, -, rest⟩ := Fallible.bind_eq_ok_iff.mp rest
  split at rest
  · cases rest
  · obtain ⟨rfl, -⟩ := Prod.mk.inj (Except.ok.inj rest)
    exact ⟨rfl, rfl, rfl, by simp [present]⟩

/-- The gated calls. -/
theorem perform_gated (scheme : ShareScheme) (hash : CanonicalHash) (vault : Vault) (now : Nat)
    {call : SessionCall} (gated : call.discipline = .gated) :
    Gated now vault (perform scheme hash vault now call) := by
  cases call with
  | accountAdd validated accountId draw =>
      exact (accountAdd_freshCall vault validated accountId { draw with now }).gated
  | accountUpdate accountId patch draw =>
      exact (accountUpdate_freshCall vault accountId patch { draw with now }).gated
  | deleteAccount accountId draw => exact (deleteAccount_freshCall vault accountId { draw with now }).gated
  | resolveFork accountId keep draw =>
      exact (resolveFork_freshCall vault accountId keep { draw with now }).gated
  | accountGet accountId => exact (accountGet_freshCall vault accountId now).gated
  | accountSearch candidates => exact (accountSearch_freshCall vault candidates now).gated
  | revealSecretField accountId presence extract =>
      exact (revealSecretField_freshCall vault accountId presence extract now).gated
  | _ => cases gated

theorem checkSessionFreshness_sessionStep (vault : Vault) (now : Nat) :
    SessionStep now vault (checkSessionFreshness vault now).1 ∧
      ((checkSessionFreshness vault now).2 = .ok () →
        (checkSessionFreshness vault now).1 = vault ∧ NotPassed vault now) := by
  unfold checkSessionFreshness
  split
  · exact ⟨.refl now vault, by simp⟩
  · exact ⟨.refl now vault, by simp⟩
  · exact ⟨.refl now vault, by simp⟩
  · next expiresAt lastProofAt startedAt session =>
      split
      · exact ⟨.ended rfl (by simp), by simp⟩
      · next inTime =>
          refine ⟨.refl now vault, fun _ => ⟨rfl, ?_⟩⟩
          intro _ _ _ stored
          rw [session] at stored
          obtain ⟨rfl, -, -⟩ := SessionState.active.inj stored
          omega

theorem touchSessionExplicit_sessionStep (vault : Vault) (presence : PresenceCheck) (now : Nat) :
    SessionStep now vault (touchSessionExplicit vault presence now).1 := by
  obtain ⟨checked, passes⟩ := checkSessionFreshness_sessionStep vault now
  unfold touchSessionExplicit
  split
  · next failed =>
      rw [failed] at checked
      exact checked
  · next vault' done =>
      rw [done] at passes
      obtain ⟨same, inTime⟩ := passes rfl
      simp only at same
      subst same
      split
      · exact .refl now vault'
      · exact touchSession_sessionStep inTime

theorem applySessionIdle_sessionStep {vault : Vault} {now : Nat} (inTime : NotPassed vault now)
    (choice : SessionDuration) : SessionStep now vault (applySessionIdle vault choice now) := by
  cases session : vault.session with
  | active expiresAt lastProofAt startedAt =>
      refine .touched expiresAt lastProofAt startedAt session (inTime _ _ _ session) ?_ id
      simp [applySessionIdle, session]
  | locked => exact .kept (by simp [applySessionIdle, session]) (by simp [session]) id
  | pendingAuthorization => exact .kept (by simp [applySessionIdle, session]) (by simp [session]) id
  | expired => exact .kept (by simp [applySessionIdle, session]) (by simp [session]) id

/-- A longer duration is authorized in a fresh session or in none. -/
theorem authorizeLonger_sessionStep (vault : Vault) (presence : Option PresenceCheck)
    (now : Nat) :
    SessionStep now vault (authorizeLonger vault presence now).1 ∧
      ((authorizeLonger vault presence now).2 = .ok () →
        NotPassed (authorizeLonger vault presence now).1 now) := by
  unfold authorizeLonger
  split
  · exact ⟨.refl now vault, by simp⟩
  · obtain ⟨checked, passes⟩ := checkSessionFreshness_sessionStep vault now
    split
    · next failed =>
        rw [failed] at checked
        exact ⟨checked, by simp⟩
    · next vault' done =>
        rw [done] at checked passes
        obtain ⟨rfl, inTime⟩ := passes rfl
        exact ⟨checked, fun _ => inTime⟩
  · next lapsed =>
      refine ⟨.refl now vault, fun _ => ?_⟩
      intro expiresAt lastProofAt startedAt stored
      exact absurd stored (lapsed expiresAt lastProofAt startedAt)

theorem setSessionIdle_sessionStep {vault : Vault} {now : Nat} (choice : SessionDuration)
    (presence : Option PresenceCheck)
    (inTime : choice.isLongerThan vault.sessionIdle = false → NotPassed vault now) :
    SessionStep now vault (setSessionIdle vault choice presence now).1 := by
  obtain ⟨authorized, passes⟩ := authorizeLonger_sessionStep vault presence now
  unfold setSessionIdle
  split
  · split
    · next failed =>
        rw [failed] at authorized
        exact authorized
    · next vault' done =>
        rw [done] at authorized passes
        exact authorized.trans (applySessionIdle_sessionStep (passes rfl) choice)
  · next shorter => exact applySessionIdle_sessionStep (inTime (by simpa using shorter)) choice

theorem deviceLocked_sessionStep (vault : Vault) (now : Nat) :
    SessionStep now vault (deviceLocked vault) := by
  unfold deviceLocked
  split
  · exact .ended rfl (by simp)
  · exact .refl now vault

/-! ### Chain calls -/

theorem markPublished_sessionStep (vault : Vault) (revisionId : RevisionId)
    (anchor : ChainAnchor) (now : Nat) :
    SessionStep now vault (markPublished vault revisionId anchor now).1 := by
  obtain ⟨expired, -⟩ := maybeExpire_sessionStep vault now
  unfold markPublished
  simp only
  split
  · exact expired
  split
  · exact expired
  split
  · exact softCall_sessionStep rfl rfl rfl
  · exact expired

theorem ingestPending_sessionStep (hash : CanonicalHash) (vault : Vault) (delivery : Delivery)
    (now : Nat) :
    SessionStep now vault (ingestPendingChainRevision hash vault delivery.event
      delivery.observedAtBlock delivery.observedBlockHash delivery.nowMs now).1 := by
  have ingested : SessionStep now vault
      (ingestChainRevision hash vault delivery.event delivery.nowMs now).1 := by
    unfold ingestChainRevision
    simp only
    split
    · exact (maybeExpire_sessionStep vault now).1
    · exact softCall_sessionStep rfl rfl rfl
  unfold ingestPendingChainRevision
  split
  · next failed =>
      rw [failed] at ingested
      exact ingested
  · next done =>
      rw [done] at ingested
      split
      · exact ingested
      split
      · exact ingested
      split
      · exact ingested
      · exact ingested.frame rfl rfl rfl

theorem ingestDeliveries_sessionStep (hash : CanonicalHash) (vault : Vault) (now : Nat)
    (deliveries : List Delivery) :
    SessionStep now vault (ingestDeliveries hash now vault deliveries).1 := by
  induction deliveries generalizing vault with
  | nil => exact .refl now vault
  | cons delivery deliveries ih =>
      have first := ingestPending_sessionStep hash vault delivery now
      unfold ingestDeliveries
      split
      · next failed =>
          rw [failed] at first
          exact first
      · next vault' outcome done =>
          rw [done] at first
          exact first.trans (ih vault')

theorem pullOnce_sessionStep (hash : CanonicalHash) (vault : Vault) (pulled : Pulled)
    (now : Nat) :
    SessionStep now vault (pullOnce hash vault pulled now).1 := by
  unfold pullOnce
  split
  · exact .refl now vault
  split
  · exact .refl now vault
  · next deliveries complete =>
      have ingested := ingestDeliveries_sessionStep hash vault now deliveries
      split
      · next failed =>
          rw [failed] at ingested
          exact ingested
      · next done =>
          rw [done] at ingested
          exact ingested

theorem commitPublished_sessionStep (vault : Vault) (marker : DirtyMarker)
    (anchor : ChainAnchor) (conditions : EntryConditions) :
    SessionStep conditions.now vault (commitPublished vault marker anchor conditions).1 := by
  have marked : SessionStep conditions.now vault (unlessFails conditions.markFails vault
      conditions.now (markPublished vault marker.revisionId anchor conditions.now)).1 := by
    unfold unlessFails
    split
    · exact (maybeExpire_sessionStep vault _).1
    · exact markPublished_sessionStep vault _ _ _
  unfold commitPublished
  simp only
  split
  · next failed =>
      rw [failed] at marked
      exact marked
  · next vault' done =>
      rw [done] at marked
      refine marked.trans ?_
      unfold unlessFails
      split
      · exact (maybeExpire_sessionStep vault' _).1
      · exact softCall_sessionStep rfl rfl rfl

theorem publishOne_sessionStep (hash : CanonicalHash) (deviceKey : DeviceKey)
    (chainView : Option (List RevisionEvent)) (vault : Vault) (marker : DirtyMarker)
    (conditions : EntryConditions) :
    SessionStep conditions.now vault
      (publishOne hash deviceKey chainView vault marker conditions).vault := by
  have read : SessionStep conditions.now vault (unlessFails conditions.readFails vault
      conditions.now (readRevisionForPublish vault marker.accountId marker.revisionId
        conditions.now)).1 := by
    have expired := (maybeExpire_sessionStep vault conditions.now).1
    unfold unlessFails readRevisionForPublish
    split
    · exact expired
    · simp only
      split
      · exact expired
      · exact expired
  unfold publishOne
  split
  · next failed =>
      rw [failed] at read
      exact read
  · next vault' payload done =>
      rw [done] at read
      simp only
      split
      · exact read.trans (commitPublished_sessionStep vault' _ _ _)
      · split
        · exact read
        · exact read
        · exact read.trans (commitPublished_sessionStep vault' _ _ _)

theorem publishEntries_sessionStep (hash : CanonicalHash) (deviceKey : DeviceKey)
    (conditions : FlushConditions) (now : Nat) (vault : Vault) (markers : List DirtyMarker) :
    SessionStep now vault
      (publishEntries hash deviceKey (flushAt conditions now) vault markers).vault := by
  induction markers generalizing vault with
  | nil => exact .refl now vault
  | cons marker markers ih =>
      exact (publishOne_sessionStep hash deviceKey conditions.chainView vault marker
        { conditions.entry marker with now }).trans (ih _)

theorem flushPublishQueue_sessionStep (hash : CanonicalHash) (vault : Vault)
    (deviceKey : DeviceKey) (conditions : FlushConditions) (now : Nat) :
    SessionStep now vault
      (flushPublishQueue hash vault deviceKey (flushAt conditions now)).vault := by
  have coalesced : SessionStep now vault (coalesceDirtyMarkers vault).1 :=
    (SessionStep.refl now vault).frame rfl rfl rfl
  unfold flushPublishQueue
  split
  · exact .refl now vault
  simp only
  split
  · exact coalesced
  · split
    · exact coalesced
    · exact coalesced.trans (publishEntries_sessionStep hash deviceKey conditions now _ _)
  · exact coalesced.trans (publishEntries_sessionStep hash deviceKey conditions now _ _)

/-! ### Calls on the keys in memory -/

/-- The calls that ask for a session succeed only with one, and leave its times alone. -/
theorem withActive_sessionStep {α : Type} {vault : Vault}
    {body : ActiveState → Except StoreError (Vault × α)} (now : Nat)
    (frame : ∀ active vault' value, vault.active = some active →
      body active = .ok (vault', value) → SessionStep now vault vault') :
    SessionStep now vault (withActive vault body).1 ∧
      ((withActive vault body).2.isOk = true → vault.active.isSome) := by
  rcases withActive_cases vault body with ⟨error, failed⟩ | ⟨active, vault', value, session, done,
    result⟩
  · rw [failed]
    exact ⟨.refl now vault, by simp [Except.isOk, Except.toBool]⟩
  · rw [result]
    exact ⟨frame active vault' value session done, by simp [session]⟩

theorem onboardGuardians_sessionStep (scheme : ShareScheme) (vault : Vault) (threshold : Nat)
    (pubs : List X25519Pub) (signers : List EvmAddress) (draw : EscrowDraw) (now : Nat) :
    SessionStep now vault (onboardGuardians scheme vault threshold pubs signers draw).1 ∧
      ((onboardGuardians scheme vault threshold pubs signers draw).2.isOk = true →
        vault.active.isSome) := by
  unfold onboardGuardians
  split
  · exact ⟨.refl now vault, by simp [Except.isOk, Except.toBool]⟩
  · apply withActive_sessionStep
    intro active vault' value _ done
    simp only at done
    split at done
    · cases done
    · split at done
      · cases done
      · obtain ⟨escrow, -, equal⟩ := Fallible.bind_eq_ok_iff.mp done
        obtain ⟨rfl, -⟩ := Prod.mk.inj (Except.ok.inj equal)
        exact (SessionStep.refl now vault).frame rfl rfl rfl

theorem persistRecoveryRecipient_sessionStep (vault : Vault) (target : VaultId)
    (attemptNonce : Nat) (secret : X25519Secret) (pub : X25519Pub) (nowUnix : Int) (now : Nat) :
    SessionStep now vault
        (persistRecoveryRecipient vault target attemptNonce secret pub nowUnix).1 ∧
      ((persistRecoveryRecipient vault target attemptNonce secret pub nowUnix).2.isOk = true →
        vault.active.isSome) := by
  apply withActive_sessionStep
  intro active vault' value _ done
  obtain ⟨recipients, -, equal⟩ := Fallible.bind_eq_ok_iff.mp done
  obtain ⟨rfl, -⟩ := Prod.mk.inj (Except.ok.inj equal)
  exact (SessionStep.refl now vault).frame rfl rfl rfl

theorem commitVdkRotationFromActive_sessionStep (vault : Vault) (commit : RotationCommit)
    (now : Nat) :
    SessionStep now vault (commitVdkRotationFromActive vault commit).1 ∧
      ((commitVdkRotationFromActive vault commit).2.isOk = true → vault.active.isSome) := by
  unfold commitVdkRotationFromActive
  split
  · exact ⟨.refl now vault, by simp [Except.isOk, Except.toBool]⟩
  · next active session =>
      refine ⟨?_, fun _ => by simp [session]⟩
      split
      · exact .kept rfl (fun _ _ _ _ => rfl) (by simp)
      · exact .ended rfl (by simp [lockedWith])

/-- The ungated calls. -/
theorem perform_ungated (scheme : ShareScheme) (hash : CanonicalHash) (vault : Vault) (now : Nat)
    {call : SessionCall} (ungated : call.discipline = .ungated) :
    SessionStep now vault (perform scheme hash vault now call).1 ∧
      ((perform scheme hash vault now call).2 = true → vault.active.isSome) := by
  cases call with
  | signRevisionV1 content deployment =>
      refine ⟨.refl now vault, ?_⟩
      cases session : vault.active with
      | none => simp [perform, signRevisionV1, session, Except.isOk, Except.toBool]
      | some active => simp
  | onboardGuardians threshold pubs signers draw =>
      exact onboardGuardians_sessionStep scheme vault threshold pubs signers draw now
  | commitVdkRotationFromActive commit =>
      exact commitVdkRotationFromActive_sessionStep vault commit now
  | createRecoveryBackup =>
      refine ⟨.refl now vault, ?_⟩
      cases session : vault.active with
      | none => simp [perform, createRecoveryBackup, session, Except.isOk, Except.toBool]
      | some active => simp
  | recoveryEscrowParams =>
      refine ⟨.refl now vault, ?_⟩
      cases session : vault.active with
      | none => simp [perform, recoveryEscrowParams, session, Except.isOk, Except.toBool]
      | some active => simp
  | guardianOpenSealedShare sealedShare vaultId epoch =>
      refine ⟨.refl now vault, ?_⟩
      cases session : vault.active with
      | none => simp [perform, guardianOpenSealedShare, session, Except.isOk, Except.toBool]
      | some active => simp
  | sealVdkForNewDevice recipient deviceId vaultId epoch =>
      refine ⟨.refl now vault, ?_⟩
      cases session : vault.active with
      | none => simp [perform, sealVdkForNewDevice, session, Except.isOk, Except.toBool]
      | some active => simp
  | persistRecoveryRecipient target attemptNonce secret pub nowUnix =>
      exact persistRecoveryRecipient_sessionStep vault target attemptNonce secret pub nowUnix now
  | peekRecoveryRecipientSecret target =>
      refine ⟨.refl now vault, ?_⟩
      cases session : vault.active with
      | none => simp [perform, peekRecoveryRecipientSecret, session, Except.isOk, Except.toBool]
      | some active => simp
  | flushPublishQueue deviceKey conditions =>
      refine ⟨flushPublishQueue_sessionStep hash vault deviceKey conditions now, ?_⟩
      cases session : vault.active with
      | none => simp [perform, flushPublishQueue, session, Except.isOk, Except.toBool]
      | some active => simp
  | pullOnce pulled =>
      refine ⟨pullOnce_sessionStep hash vault pulled now, ?_⟩
      cases session : vault.active with
      | none => simp [perform, pullOnce, session, Except.isOk, Except.toBool]
      | some active => simp
  | _ => cases ungated

/-- Every call but an unlock does one of three things to the session. -/
theorem perform_sessionStep (scheme : ShareScheme) (hash : CanonicalHash) {world : SessionWorld}
    {timed : TimedCall} (inTime : InTime world timed)
    (notUnlock : ∀ input, timed.call ≠ .unlock input) :
    SessionStep timed.now world.vault
      (perform scheme hash world.vault timed.now timed.call).1 := by
  obtain ⟨now, call⟩ := timed
  cases discipline : call.discipline with
  | gated => exact (perform_gated scheme hash world.vault now discipline).1
  | ungated => exact (perform_ungated scheme hash world.vault now discipline).1
  | keyless =>
      cases call with
      | unlock input => exact absurd rfl (notUnlock input)
      | lock => exact .ended rfl (by simp [perform, lock])
      | reopen placeholder sessionIdle => exact .ended rfl (by simp [perform, openVault])
      | deviceLocked => exact deviceLocked_sessionStep world.vault now
      | setSessionIdle choice presence =>
          exact setSessionIdle_sessionStep choice presence (inTime.2 choice presence rfl)
      | touchSessionExplicit presence =>
          exact touchSessionExplicit_sessionStep world.vault presence now
      | markPublished revisionId anchor =>
          exact markPublished_sessionStep world.vault revisionId anchor now
      | ingestPending delivery => exact ingestPending_sessionStep hash world.vault delivery now
      | stashPendingMerge merge => exact softCall_sessionStep rfl rfl rfl
      | _ => cases discipline

/-! ## Runs -/

/-- The stored session is the one on record. -/
structure ExpiryInv (world : SessionWorld) : Prop where
  recorded : ∀ expiresAt lastProofAt startedAt,
    world.vault.session = .active expiresAt lastProofAt startedAt →
      world.running = some ⟨startedAt, expiresAt⟩ ∧
        expiresAt = nextIdleDeadline lastProofAt startedAt world.vault.sessionIdle
  active : world.vault.active.isSome → ∃ expiresAt lastProofAt startedAt,
    world.vault.session = .active expiresAt lastProofAt startedAt

theorem nextIdleDeadline_le (now startedAt : Nat) (idle : SessionDuration) :
    nextIdleDeadline now startedAt idle ≤ startedAt + absoluteMax := by
  unfold nextIdleDeadline
  split
  · exact Nat.le_refl _
  · exact Nat.min_le_right _ _

theorem ExpiryInv.of_step {world : SessionWorld} {vault' : Vault} {now : Nat}
    (inv : ExpiryInv world) (stepped : SessionStep now world.vault vault') :
    ExpiryInv ⟨vault', world.running.map fun running => running.afterCall now vault'⟩ := by
  cases stepped with
  | kept session idle active =>
      constructor
      · intro expiresAt lastProofAt startedAt stored
        simp only at stored
        have before := session.symm.trans stored
        obtain ⟨recorded, derived⟩ := inv.recorded _ _ _ before
        rw [idle _ _ _ before]
        refine ⟨?_, derived⟩
        -- a touch seen here was made earlier at the same time and led to this deadline
        rw [recorded, Option.map_some, Running.afterCall, stored, idle _ _ _ before]
        split
        · next touched =>
            simp only [touchedAt, Bool.and_eq_true, decide_eq_true_eq] at touched
            rw [← touched.1, ← derived]
        · rfl
      · intro present
        obtain ⟨expiresAt, lastProofAt, startedAt, stored⟩ := inv.active (active present)
        exact ⟨expiresAt, lastProofAt, startedAt, session.trans stored⟩
  | ended none lapsed =>
      constructor
      · intro expiresAt lastProofAt startedAt stored
        exact absurd stored (lapsed _ _ _)
      · intro present
        simp [none] at present
  | touched expiresAt lastProofAt startedAt before inTime after active =>
      obtain ⟨recorded, -⟩ := inv.recorded _ _ _ before
      constructor
      · intro expiresAt' lastProofAt' startedAt' stored
        simp only at stored
        rw [after] at stored
        obtain ⟨rfl, rfl, rfl⟩ := SessionState.active.inj stored
        refine ⟨?_, rfl⟩
        rw [recorded, Option.map_some, Running.afterCall, after]
        simp [touchedAt, inTime]
      · intro _
        exact ⟨_, _, _, after⟩

/-- An unlock fails without a trace or starts a session. -/
theorem unlock_session (vault : Vault) (input : UnlockInput) :
    (∃ error, unlock vault input = (vault, .error error)) ∨
      ∃ vault', unlock vault input = (vault', .ok ()) ∧
        vault'.session = .active (nextIdleDeadline input.now input.now vault.sessionIdle)
          input.now input.now ∧ vault'.sessionIdle = vault.sessionIdle := by
  unfold unlock atomically
  cases result : tryUnlock vault input with
  | error error => exact .inl ⟨error, rfl⟩
  | ok done =>
      obtain ⟨vault', value⟩ := done
      unfold tryUnlock at result
      split at result
      · cases result
      · obtain ⟨keys, -, rest⟩ := Fallible.bind_eq_ok_iff.mp result
        obtain ⟨data, -, rest⟩ := Fallible.bind_eq_ok_iff.mp rest
        obtain ⟨device, -, equal⟩ := Fallible.bind_eq_ok_iff.mp rest
        obtain ⟨rfl, -⟩ := Prod.mk.inj (Except.ok.inj equal)
        exact .inr ⟨_, rfl, rfl, rfl⟩

theorem ExpiryInv.step {scheme : ShareScheme} {hash : CanonicalHash} {world : SessionWorld}
    {timed : TimedCall} (inv : ExpiryInv world) (inTime : InTime world timed) :
    ExpiryInv (world.step scheme hash timed) := by
  obtain ⟨now, call⟩ := timed
  by_cases unlocks : ∃ input, call = .unlock input
  · obtain ⟨input, rfl⟩ := unlocks
    rcases unlock_session world.vault { input with now } with
      ⟨error, failed⟩ | ⟨vault', unlocked, session, idle⟩
    · have performed : perform scheme hash world.vault now (.unlock input) =
          (world.vault, false) := by
        rw [perform, failed]
        rfl
      simp only [SessionWorld.step, performed]
      exact inv.of_step (.refl now world.vault)
    · have performed : perform scheme hash world.vault now (.unlock input) = (vault', true) := by
        rw [perform, unlocked]
        rfl
      simp only [SessionWorld.step, performed]
      constructor
      · intro expiresAt lastProofAt startedAt stored
        simp only at stored
        rw [session] at stored
        obtain ⟨rfl, rfl, rfl⟩ := SessionState.active.inj stored
        exact ⟨rfl, by rw [idle]⟩
      · intro _
        exact ⟨_, _, _, session⟩
  · have stepped := perform_sessionStep scheme hash inTime fun input same => unlocks ⟨input, same⟩
    simp only at stepped
    have updated : world.step scheme hash ⟨now, call⟩ =
        ⟨(perform scheme hash world.vault now call).1, world.running.map fun running =>
          running.afterCall now (perform scheme hash world.vault now call).1⟩ := by
      unfold SessionWorld.step
      simp only
      split
      · next input _ => exact absurd ⟨input, rfl⟩ unlocks
      · rfl
    rw [updated]
    exact inv.of_step stepped

/-- A vault that was just created. -/
def SessionWorld.start (password : Password) (draw : CreateDraw) : SessionWorld :=
  ⟨create password draw, none⟩

theorem ExpiryInv.start (password : Password) (draw : CreateDraw) :
    ExpiryInv (.start password draw) := by
  constructor
  · intro _ _ _ stored
    cases stored
  · intro present
    cases present

/-- As long as the calls that do not look at the clock come in time, no call uses the
session's keys outside the session. -/
theorem expiry_is_final (scheme : ShareScheme) (hash : CanonicalHash) (password : Password)
    (draw : CreateDraw) (world : SessionWorld)
    (run : Reaches (SessionWorld.step scheme hash) InTime (.start password draw) world)
    (timed : TimedCall) (inTime : InTime world timed)
    (uses : UsesKeys scheme hash world.vault timed) : Within world.running timed.now := by
  have inv : ExpiryInv world :=
    run.invariant ExpiryInv (fun _ _ inv inTime => inv.step inTime) (.start password draw)
  obtain ⟨needsKeys, succeeded⟩ := uses
  obtain ⟨expiresAt, lastProofAt, startedAt, session, before⟩ : ∃ expiresAt lastProofAt startedAt,
      world.vault.session = .active expiresAt lastProofAt startedAt ∧
        timed.now ≤ expiresAt := by
    cases discipline : timed.call.discipline with
    | gated => exact (perform_gated scheme hash world.vault timed.now discipline).2 succeeded
    | ungated =>
        have present :=
          (perform_ungated scheme hash world.vault timed.now discipline).2 succeeded
        obtain ⟨expiresAt, lastProofAt, startedAt, session⟩ := inv.active present
        exact ⟨expiresAt, lastProofAt, startedAt, session,
          inTime.1 discipline present _ _ _ session⟩
    | keyless => exact absurd discipline needsKeys
  obtain ⟨recorded, derived⟩ := inv.recorded _ _ _ session
  refine ⟨_, recorded, before, ?_⟩
  rw [derived]
  exact nextIdleDeadline_le _ _ _

namespace Sample

/-- The calls at their times, from a new vault. -/
def sessionRun (calls : List TimedCall) : SessionWorld :=
  calls.foldl (SessionWorld.step countingScheme hash) (.start ⟨[1]⟩ ⟨⟨7⟩, ⟨1⟩, ⟨2⟩, ⟨3⟩, 0⟩)

def unlockAt (now : Nat) : TimedCall := ⟨now, .unlock (unlockInput ⟨[1]⟩)⟩

def addAt (now : Nat) : TimedCall := ⟨now, .accountAdd (.ok identity) ⟨1⟩ (draw 51)⟩

def signAt (now : Nat) : TimedCall :=
  ⟨now, .signRevisionV1 ⟨⟨7⟩, ⟨1⟩, ⟨0⟩, ⟨11⟩, 0, .bytes []⟩ true⟩

end Sample

theorem inTime_of_notPassed {world : SessionWorld} {timed : TimedCall}
    (inTime : NotPassed world.vault timed.now) : InTime world timed :=
  ⟨fun _ _ => inTime, fun _ _ _ _ => inTime⟩

/-- A signature 24 minutes into a session that an edit has prolonged. -/
theorem expiry_is_final_signing :
    UsesKeys countingScheme Sample.hash
        (Sample.sessionRun [Sample.unlockAt 0, Sample.addAt 600000]).vault
        (Sample.signAt 1440000) ∧
      Within (Sample.sessionRun [Sample.unlockAt 0, Sample.addAt 600000]).running 1440000 := by
  have uses : UsesKeys countingScheme Sample.hash
      (Sample.sessionRun [Sample.unlockAt 0, Sample.addAt 600000]).vault
      (Sample.signAt 1440000) := ⟨by decide, by decide +kernel⟩
  have keyless : ∀ world timed, (∀ choice presence, timed.call ≠ .setSessionIdle choice presence) →
      timed.call.discipline ≠ .ungated → InTime world timed := by
    intro world timed other ungated
    exact ⟨fun same => absurd same ungated, fun choice presence same =>
      absurd same (other choice presence)⟩
  refine ⟨uses, expiry_is_final countingScheme Sample.hash ⟨[1]⟩ ⟨⟨7⟩, ⟨1⟩, ⟨2⟩, ⟨3⟩, 0⟩ _ ?_
    (Sample.signAt 1440000) ?_ uses⟩
  · apply Reaches.foldl
    exact ⟨keyless _ _ (by intro _ _ same; cases same) (by decide),
      keyless _ _ (by intro _ _ same; cases same) (by decide), trivial⟩
  · apply inTime_of_notPassed
    have session : (Sample.sessionRun [Sample.unlockAt 0, Sample.addAt 600000]).vault.session =
        .active 1500000 600000 0 := by decide +kernel
    intro expiresAt lastProofAt startedAt stored
    rw [session] at stored
    obtain ⟨rfl, -, -⟩ := SessionState.active.inj stored
    decide

/-- After the deadline of a session unlocked at 0 a revision is signed with its wallet, and
choosing a shorter idle duration lets an account be read. -/
theorem expired_session_used :
    (UsesKeys countingScheme Sample.hash (Sample.sessionRun [Sample.unlockAt 0]).vault
        (Sample.signAt 900001) ∧
      ¬ Within (Sample.sessionRun [Sample.unlockAt 0]).running 900001) ∧
    (UsesKeys countingScheme Sample.hash
        (Sample.sessionRun [Sample.unlockAt 0, Sample.addAt 0,
          ⟨900001, .setSessionIdle .min5 none⟩]).vault ⟨900002, .accountGet ⟨1⟩⟩ ∧
      ¬ Within (Sample.sessionRun [Sample.unlockAt 0, Sample.addAt 0,
        ⟨900001, .setSessionIdle .min5 none⟩]).running 900002) := by
  have lapsed : ∀ {running : Option Running} {now : Nat}, running = some ⟨0, 900000⟩ →
      900000 < now → ¬ Within running now := by
    intro running now recorded passed ⟨session, same, inTime, _⟩
    obtain rfl := Option.some.inj (recorded.symm.trans same)
    exact absurd inTime (by simpa using passed)
  refine ⟨⟨⟨by decide, by decide +kernel⟩, lapsed ?_ (by decide)⟩,
    ⟨⟨by decide, by decide +kernel⟩, lapsed ?_ (by decide)⟩⟩
  · decide +kernel
  · decide +kernel

end Pangolin
