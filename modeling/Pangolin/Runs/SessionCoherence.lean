import Pangolin.Runs.KeyInvariant
import Pangolin.Runs.SessionExpiry
import Pangolin.Store.Restore

/-!
# Keys in memory and the session state

Two fields of the handle say whether a session is open: the keys in memory and the session
state.  Every call sets them together, whatever step of it fails, except one.  A rotation
from the session takes the keys out of the handle before the commit that can fail, and a
commit that fails leaves a session state that is active without keys.

The environment may fail a call at each of its fallible steps.  Only the handle at that
step matters, so a call is given with the handles its failing steps can leave.
-/

namespace Pangolin

open Crypto Store Transition

/-! ## Calls -/

/-- The calls that make several others, each of which is a call of its own here. -/
def SessionCall.composite : SessionCall → Bool
  | .flushPublishQueue .. | .pullOnce _ | .ingestPending _ => true
  | _ => false

/-- One call on the handle: those of the session machine and the ones that replace keys. -/
inductive VaultCall where
  | session (call : SessionCall) (single : call.composite = false)
  | updateAccount (accountId : AccountId) (snapshot : AccountSnapshot) (draw : WriteDraw)
  | clearFrozen (accountId : AccountId) (chosen : RevisionId) (nowMs : Int)
  | ingestChainRevision (event : RevisionEvent) (nowMs : Int)
  | recoverWithNewPassword (recovered : VdkKey) (password : Password) (salt : KdfSalt)
  | commitRecoveryRekey (recovered : VdkKey) (password : Password) (salt : KdfSalt)
      (reSplit : EscrowGeneration)
  | commitVdkRotation (oldVdk : VdkKey) (localDevice : DeviceKey) (commit : RotationCommit)
  | installPairedVdk (received : VdkKey) (vaultId : VaultId) (password : Password)
      (salt : KdfSalt)
  | clearRecoveryRecipient (target : VaultId)
  | writeSessionIdleSecs (secs : Int)

section

variable (scheme : ShareScheme) (hash : CanonicalHash)

/-- The call when nothing around it fails. -/
def performCall (vault : Vault) (now : Nat) : VaultCall → Vault × Bool
  | .session call _ => perform scheme hash vault now call
  | .updateAccount accountId snapshot draw =>
      outcome (updateAccount vault accountId snapshot { draw with now })
  | .clearFrozen accountId chosen nowMs => outcome (clearFrozen vault accountId chosen nowMs now)
  | .ingestChainRevision event nowMs => outcome (ingestChainRevision hash vault event nowMs now)
  | .recoverWithNewPassword recovered password salt =>
      outcome (recoverWithNewPassword vault recovered password salt)
  | .commitRecoveryRekey recovered password salt reSplit =>
      outcome (commitRecoveryRekey vault recovered password salt reSplit)
  | .commitVdkRotation oldVdk localDevice commit =>
      outcome (commitVdkRotation vault oldVdk localDevice commit)
  | .installPairedVdk received vaultId password salt =>
      outcome (installPairedVdk vault received vaultId password salt)
  | .clearRecoveryRecipient target => outcome (clearRecoveryRecipient vault target)
  | .writeSessionIdleSecs secs => (writeSessionIdleSecs vault secs, true)

end

/-! ## Failing steps -/

/-- A step after the freshness check can fail, and so can those of the rest. -/
def freshStops (vault : Vault) (now : Nat) (rest : List Vault) : List Vault :=
  match checkSessionFreshness vault now with
  | (_, .error _) => []
  | (_, .ok ()) => vault :: rest

/-- The search index is written after the commit and before the cache: if that fails the
file has the edit and the handle does not. -/
def indexStops {α : Type} (vault : Vault) : Call α → List Vault
  | (_, .error _) => []
  | (done, .ok _) => [{ vault with disk := done.disk }]

/-- The wallet is derived after the device has been loaded or registered. -/
def walletStops (vault : Vault) (input : UnlockInput) : List Vault :=
  match tryUnlock vault input with
  | .error _ => []
  | .ok (done, ()) => [{ vault with disk := done.disk, deviceId := done.deviceId }]

/-- The handles a call of the session machine leaves when one of its steps fails. -/
def sessionStops (vault : Vault) (now : Nat) : SessionCall → List Vault
  | .unlock input => vault :: walletStops vault { input with now }
  | .lock | .reopen .. | .deviceLocked | .touchSessionExplicit _ => []
  | .setSessionIdle choice presence =>
      if choice.isLongerThan vault.sessionIdle then
        match authorizeLonger vault presence now with
        | (_, .error _) => []
        | (vault, .ok ()) => [vault]
      else
        [vault]
  | .accountAdd validated accountId draw =>
      freshStops vault now
        (indexStops vault (accountAdd vault validated accountId { draw with now }))
  | .accountUpdate accountId patch draw =>
      freshStops vault now
        (indexStops vault (accountUpdate vault accountId patch { draw with now }))
  | .deleteAccount accountId draw =>
      freshStops vault now (indexStops vault (deleteAccount vault accountId { draw with now }))
  -- what follows the commit of a resolution is done at best effort
  | .resolveFork .. | .accountGet _ | .accountSearch _ | .revealSecretField .. =>
      freshStops vault now []
  -- the keys have been taken out when the first step can fail
  | .commitVdkRotationFromActive _ =>
      match vault.active with
      | none => []
      | some _ => [{ vault with active := none }]
  | .markPublished .. | .stashPendingMerge _ => [maybeExpireActiveSession vault now]
  | _ => [vault]

/-- The handles a call leaves when one of its steps fails, in the order of the steps. -/
def callStops (vault : Vault) (now : Nat) : VaultCall → List Vault
  | .session call _ => sessionStops vault now call
  | .updateAccount accountId snapshot draw =>
      freshStops vault now
        (indexStops vault (updateAccount vault accountId snapshot { draw with now }))
  | .clearFrozen .. | .ingestChainRevision .. => [maybeExpireActiveSession vault now]
  | .installPairedVdk .. =>
      match vault.active with
      | none => []
      | some _ => [vault]
  | _ => [vault]

/-- A call at a time, with the step the environment fails, if it does. -/
structure ExposedCall where
  now : Nat
  call : VaultCall
  fault : Option Nat

/-- Make the call: it stops at the failing step if it has one of that number. -/
def ExposedCall.make (scheme : ShareScheme) (hash : CanonicalHash) (vault : Vault)
    (exposed : ExposedCall) : Vault × Bool :=
  match exposed.fault.bind fun step => (callStops vault exposed.now exposed.call)[step]? with
  | some left => (left, false)
  | none => performCall scheme hash vault exposed.now exposed.call

/-- The handle after the call. -/
def exposedStep (scheme : ShareScheme) (hash : CanonicalHash) (vault : Vault)
    (exposed : ExposedCall) : Vault :=
  (exposed.make scheme hash vault).1

/-! ## What a call should do -/

/-- Whether the session state is the active one, expired or not. -/
def Store.SessionState.isActive : SessionState → Bool
  | .active .. => true
  | _ => false

/-- The keys are in memory exactly when the session is active. -/
def Coherent (vault : Vault) : Prop :=
  vault.active.isSome = vault.session.isActive

/-- The session is over, locked or expired. -/
def Over (vault : Vault) : Prop :=
  vault.active = none ∧ (vault.session = .locked ∨ vault.session = .expired)

/-- A call leaves a coherent session.  If it fails and has not written the file, the session
is as it was or over, and a password that opened the vault before still opens it. -/
structure Intact (before : Vault) (result : Vault × Bool) : Prop where
  coherent : Coherent result.1
  session : result.2 = false → result.1.disk = before.disk →
    (result.1.session = before.session ∧ result.1.active = before.active) ∨ Over result.1
  unlock : result.2 = false → result.1.disk = before.disk → ∀ input,
    (unlock before input).2.isOk = true → (unlock result.1 input).2.isOk = true

/-- What a call did to the session: it left it alone, ended it, moved its deadline, or began
a new one. -/
inductive Fate (before : Vault) : Vault × Bool → Prop where
  | kept {after : Vault} (succeeded : Bool) : after.session = before.session →
      after.active = before.active → after.vaultMeta = before.vaultMeta →
      Fate before (after, succeeded)
  | ended {after : Vault} (succeeded : Bool) : Over after →
      (succeeded = false → after.vaultMeta = before.vaultMeta) → Fate before (after, succeeded)
  | moved {after : Vault} : after.session.isActive = before.session.isActive →
      after.active.isSome = before.active.isSome → Fate before (after, true)
  | begun {after : Vault} : after.session.isActive = true → after.active.isSome = true →
      Fate before (after, true)

/-- Whether a password opens the vault depends on its file and meta row. -/
theorem unlock_isOk_congr {vault vault' : Vault} (disk : vault'.disk = vault.disk)
    (vaultMeta : vault'.vaultMeta = vault.vaultMeta) {input : UnlockInput}
    (opens : (unlock vault input).2.isOk = true) : (unlock vault' input).2.isOk = true := by
  cases unlocked : unlock vault input with
  | mk opened result =>
      cases result with
      | error error => simp [unlocked, Except.isOk, Except.toBool] at opens
      | ok value =>
          obtain ⟨vdk, chain, data, deviceKey, keys, unlocks⟩ := unlock_eq_ok_iff.mp unlocked
          have again : Unlocks vault' input _ vdk chain data deviceKey keys :=
            { presence := unlocks.presence
              opened := by rw [disk, vaultMeta]; exact unlocks.opened
              hydrated := by rw [disk, vaultMeta]; exact unlocks.hydrated
              device := by rw [disk, vaultMeta]; exact unlocks.device
              result := rfl }
          rw [unlock_eq_ok_iff.mpr ⟨vdk, chain, data, deviceKey, keys, again⟩]
          rfl

theorem Over.coherent {vault : Vault} (ended : Over vault) : Coherent vault := by
  obtain ⟨none, locked | expired⟩ := ended
  · simp [Coherent, none, locked, SessionState.isActive]
  · simp [Coherent, none, expired, SessionState.isActive]

theorem Fate.intact {before : Vault} {result : Vault × Bool} (fate : Fate before result)
    (coherent : Coherent before) : Intact before result := by
  cases fate with
  | kept succeeded session active vaultMeta =>
      refine ⟨?_, fun _ _ => .inl ⟨session, active⟩, fun _ disk _ opens => ?_⟩
      · simpa [Coherent, session, active] using coherent
      · exact unlock_isOk_congr disk vaultMeta opens
  | ended succeeded ended vaultMeta =>
      exact ⟨ended.coherent, fun _ _ => .inr ended, fun failed disk _ opens =>
        unlock_isOk_congr disk (vaultMeta failed) opens⟩
  | moved session active =>
      refine ⟨?_, nofun, nofun⟩
      simpa [Coherent, session, active] using coherent
  | begun session active =>
      refine ⟨?_, nofun, nofun⟩
      simp [Coherent, session, active]

/-! ## The fate of a session under each call -/

theorem touchSession_isActive (vault : Vault) (now : Nat) :
    (touchSession vault now).session.isActive = vault.session.isActive := by
  unfold touchSession
  split
  · next session => simp [session, SessionState.isActive]
  · rfl

theorem Fate.refl (vault : Vault) (succeeded : Bool) : Fate vault (vault, succeeded) :=
  .kept succeeded rfl rfl rfl

theorem FreshCall.fate {α : Type} {vault : Vault} {now : Nat} {call : Call α}
    (fresh : FreshCall vault now call) : Fate vault (outcome call) := by
  cases fresh with
  | refused error => exact .refl vault _
  | expired => exact .ended _ ⟨rfl, .inr rfl⟩ (fun _ => rfl)
  | @done after value expiresAt lastProofAt startedAt session inTime present kept =>
      apply Fate.moved
      · rw [touchSession_isActive, kept.session]
      · rw [touchSession_active, kept.active, present]

/-- The soft check drops a session that has passed and leaves another alone. -/
theorem maybeExpire_cases (vault : Vault) (now : Nat) :
    maybeExpireActiveSession vault now = vault ∨
      maybeExpireActiveSession vault now =
        { vault with active := none, session := .expired } := by
  unfold maybeExpireActiveSession
  split
  · split
    · exact .inr rfl
    · exact .inl rfl
  · exact .inl rfl

theorem maybeExpire_fate (vault : Vault) (now : Nat) (succeeded : Bool) :
    Fate vault (maybeExpireActiveSession vault now, succeeded) := by
  rcases maybeExpire_cases vault now with same | expired
  · rw [same]
    exact .refl vault succeeded
  · rw [expired]
    exact .ended succeeded ⟨rfl, .inr rfl⟩ (fun _ => rfl)

/-- A call that expires softly, writes the file, and touches. -/
theorem softCall_fate {vault after : Vault} {now : Nat}
    (session : after.session = (maybeExpireActiveSession vault now).session)
    (active : after.active = (maybeExpireActiveSession vault now).active) :
    Fate vault (touchSession after now, true) := by
  rcases maybeExpire_cases vault now with same | expired
  · rw [same] at session active
    apply Fate.moved
    · rw [touchSession_isActive, session]
    · rw [touchSession_active, active]
  · rw [expired] at session active
    refine .ended true ⟨?_, .inr ?_⟩ nofun
    · rw [touchSession_active, active]
    · unfold touchSession
      split
      · next stored =>
          rw [session] at stored
          cases stored
      · exact session

theorem unlock_fate (vault : Vault) (input : UnlockInput) :
    Fate vault (outcome (unlock vault input)) := by
  cases unlocked : unlock vault input with
  | mk after result =>
      cases result with
      | error error =>
          have same : after = vault := by
            rcases unlock_session vault input with ⟨error, failed⟩ | ⟨after, opened, -⟩
            · rw [failed] at unlocked
              exact (Prod.mk.inj unlocked).1.symm
            · rw [opened] at unlocked
              cases (Prod.mk.inj unlocked).2
          rw [same]
          exact .refl vault _
      | ok value =>
          obtain ⟨vdk, chain, data, deviceKey, keys, unlocks⟩ := unlock_eq_ok_iff.mp unlocked
          rw [unlocks.result]
          exact .begun rfl rfl

theorem checkSessionFreshness_fate (vault : Vault) (now : Nat) :
    Fate vault (outcome (checkSessionFreshness vault now)) ∧
      ((checkSessionFreshness vault now).2 = .ok () →
        (checkSessionFreshness vault now).1 = vault) := by
  unfold checkSessionFreshness
  split
  · exact ⟨.refl vault _, nofun⟩
  · exact ⟨.refl vault _, nofun⟩
  · exact ⟨.refl vault _, nofun⟩
  · split
    · exact ⟨.ended _ ⟨rfl, .inr rfl⟩ (fun _ => rfl), nofun⟩
    · exact ⟨.refl vault _, fun _ => rfl⟩

theorem touchSession_fate (vault : Vault) (now : Nat) :
    Fate vault (touchSession vault now, true) := by
  apply Fate.moved
  · exact touchSession_isActive vault now
  · rw [touchSession_active]

theorem touchSessionExplicit_fate (vault : Vault) (presence : PresenceCheck) (now : Nat) :
    Fate vault (outcome (touchSessionExplicit vault presence now)) := by
  obtain ⟨checked, passes⟩ := checkSessionFreshness_fate vault now
  unfold touchSessionExplicit
  split
  · next failed =>
      rw [failed] at checked
      exact checked
  · next after done =>
      rw [done] at passes
      obtain rfl := passes rfl
      split
      · exact .refl _ _
      · exact touchSession_fate _ now

theorem applySessionIdle_fate (vault : Vault) (choice : SessionDuration) (now : Nat) :
    Fate vault (applySessionIdle vault choice now, true) := by
  apply Fate.moved
  · unfold applySessionIdle
    cases vault.session with
    | active expiresAt lastProofAt startedAt => rfl
    | locked => rfl
    | pendingAuthorization => rfl
    | expired => rfl
  · rfl

/-- The gate of a longer duration lets the call through with the handle as it is. -/
theorem authorizeLonger_fate (vault : Vault) (presence : Option PresenceCheck) (now : Nat) :
    Fate vault (outcome (authorizeLonger vault presence now)) ∧
      ((authorizeLonger vault presence now).2 = .ok () →
        (authorizeLonger vault presence now).1 = vault) := by
  obtain ⟨checked, passes⟩ := checkSessionFreshness_fate vault now
  unfold authorizeLonger
  split
  · exact ⟨.refl vault _, nofun⟩
  · split
    · next failed =>
        rw [failed] at checked
        exact ⟨checked, nofun⟩
    · next after done =>
        rw [done] at passes
        obtain rfl := passes rfl
        exact ⟨.refl _ _, fun _ => rfl⟩
  · exact ⟨.refl vault _, fun _ => rfl⟩

theorem setSessionIdle_fate (vault : Vault) (choice : SessionDuration)
    (presence : Option PresenceCheck) (now : Nat) :
    Fate vault (outcome (setSessionIdle vault choice presence now)) := by
  obtain ⟨authorized, passes⟩ := authorizeLonger_fate vault presence now
  unfold setSessionIdle
  split
  · split
    · next failed =>
        rw [failed] at authorized
        exact authorized
    · next after done =>
        rw [done] at passes
        obtain rfl := passes rfl
        exact applySessionIdle_fate _ choice now
  · exact applySessionIdle_fate vault choice now

/-- A call in the session that writes the file and nothing of the handle. -/
theorem withActive_fate {α : Type} {vault : Vault}
    {body : ActiveState → Except StoreError (Vault × α)}
    (fate : ∀ active after value, vault.active = some active →
      body active = .ok (after, value) → Fate vault (after, true)) :
    Fate vault (outcome (withActive vault body)) := by
  rcases withActive_cases vault body with ⟨error, failed⟩ | ⟨active, after, value, session, done,
    result⟩
  · rw [failed]
    exact .refl vault _
  · rw [result]
    exact fate active after value session done

/-- A handle that was re-keyed. -/
theorem lockedWith_over (vault : Vault) (disk : Disk) : Over (lockedWith vault disk) :=
  ⟨rfl, .inl rfl⟩

theorem updateAccount_freshCall (vault : Vault) (accountId : AccountId)
    (snapshot : AccountSnapshot) (draw : WriteDraw) :
    FreshCall vault draw.now (updateAccount vault accountId snapshot draw) := by
  apply withFreshSession_freshCall
  intro active after value _ done
  obtain ⟨-, -, rest⟩ := Fallible.bind_eq_ok_iff.mp done
  obtain ⟨account, -, rest⟩ := Fallible.bind_eq_ok_iff.mp rest
  obtain ⟨log, -, equal⟩ := Fallible.bind_eq_ok_iff.mp rest
  obtain ⟨rfl, -⟩ := Prod.mk.inj (Except.ok.inj equal)
  exact ⟨rfl, rfl, rfl, rfl⟩

theorem markPublished_fate (vault : Vault) (revisionId : RevisionId) (anchor : ChainAnchor)
    (now : Nat) : Fate vault (outcome (markPublished vault revisionId anchor now)) := by
  unfold markPublished
  simp only
  split
  · exact maybeExpire_fate vault now _
  split
  · exact maybeExpire_fate vault now _
  split
  · exact softCall_fate rfl rfl
  · exact maybeExpire_fate vault now _

theorem clearFrozen_fate (vault : Vault) (accountId : AccountId) (chosen : RevisionId)
    (nowMs : Int) (now : Nat) :
    Fate vault (outcome (clearFrozen vault accountId chosen nowMs now)) := by
  unfold clearFrozen
  simp only
  split
  · exact maybeExpire_fate vault now _
  split
  · exact maybeExpire_fate vault now _
  split
  · exact maybeExpire_fate vault now _
  · exact softCall_fate rfl rfl

theorem ingestChainRevision_fate (hash : CanonicalHash) (vault : Vault) (event : RevisionEvent)
    (nowMs : Int) (now : Nat) :
    Fate vault (outcome (ingestChainRevision hash vault event nowMs now)) := by
  unfold ingestChainRevision
  simp only
  split
  · exact maybeExpire_fate vault now _
  · exact softCall_fate rfl rfl

theorem onboardGuardians_fate (scheme : ShareScheme) (vault : Vault) (threshold : Nat)
    (pubs : List X25519Pub) (signers : List EvmAddress) (draw : EscrowDraw) :
    Fate vault (outcome (onboardGuardians scheme vault threshold pubs signers draw)) := by
  obtain ⟨escrow, result⟩ := onboardGuardians_frame scheme vault threshold pubs signers draw
  rw [outcome, result]
  exact .kept _ rfl rfl rfl

theorem persistRecoveryRecipient_fate (vault : Vault) (target : VaultId) (attemptNonce : Nat)
    (secret : X25519Secret) (pub : X25519Pub) (nowUnix : Int) :
    Fate vault
      (outcome (persistRecoveryRecipient vault target attemptNonce secret pub nowUnix)) := by
  obtain ⟨recipients, result⟩ :=
    persistRecoveryRecipient_frame vault target attemptNonce secret pub nowUnix
  rw [outcome, result]
  exact .kept _ rfl rfl rfl

/-- The call takes the keys out of the handle before it can fail. -/
def VaultCall.Takes : VaultCall → Prop
  | .session (.commitVdkRotationFromActive _) _ => True
  | _ => False

/-- Every call of the session machine but the rotation. -/
theorem perform_fate (scheme : ShareScheme) (hash : CanonicalHash) (vault : Vault) (now : Nat)
    {call : SessionCall} (single : call.composite = false)
    (other : ∀ commit, call ≠ .commitVdkRotationFromActive commit) :
    Fate vault (perform scheme hash vault now call) := by
  cases call with
  | unlock input => exact unlock_fate vault { input with now }
  | lock => exact .ended true ⟨rfl, .inl rfl⟩ nofun
  | reopen placeholder sessionIdle => exact .ended true ⟨rfl, .inl rfl⟩ nofun
  | deviceLocked =>
      simp only [perform, deviceLocked]
      split
      · exact .ended true ⟨rfl, .inr rfl⟩ nofun
      · exact .refl vault true
  | setSessionIdle choice presence => exact setSessionIdle_fate vault choice presence now
  | touchSessionExplicit presence => exact touchSessionExplicit_fate vault presence now
  | accountAdd validated accountId draw =>
      exact (accountAdd_freshCall vault validated accountId { draw with now }).fate
  | accountUpdate accountId patch draw =>
      exact (accountUpdate_freshCall vault accountId patch { draw with now }).fate
  | deleteAccount accountId draw =>
      exact (deleteAccount_freshCall vault accountId { draw with now }).fate
  | resolveFork accountId keep draw =>
      exact (resolveFork_freshCall vault accountId keep { draw with now }).fate
  | accountGet accountId => exact (accountGet_freshCall vault accountId now).fate
  | accountSearch candidates => exact (accountSearch_freshCall vault candidates now).fate
  | revealSecretField accountId presence extract =>
      exact (revealSecretField_freshCall vault accountId presence extract now).fate
  | onboardGuardians threshold pubs signers draw =>
      exact onboardGuardians_fate scheme vault threshold pubs signers draw
  | persistRecoveryRecipient target attemptNonce secret pub nowUnix =>
      exact persistRecoveryRecipient_fate vault target attemptNonce secret pub nowUnix
  | markPublished revisionId anchor => exact markPublished_fate vault revisionId anchor now
  | stashPendingMerge merge => exact softCall_fate rfl rfl
  | commitVdkRotationFromActive commit => exact absurd rfl (other commit)
  | signRevisionV1 content deployment => exact .refl vault _
  | createRecoveryBackup => exact .refl vault _
  | recoveryEscrowParams => exact .refl vault _
  | guardianOpenSealedShare sealedShare vaultId epoch => exact .refl vault _
  | sealVdkForNewDevice recipient deviceId vaultId epoch => exact .refl vault _
  | peekRecoveryRecipientSecret target => exact .refl vault _
  | flushPublishQueue deviceKey conditions => cases single
  | pullOnce pulled => cases single
  | ingestPending delivery => cases single

/-- Every call but the rotation, when nothing around it fails. -/
theorem performCall_fate (scheme : ShareScheme) (hash : CanonicalHash) (vault : Vault)
    (now : Nat) {call : VaultCall} (other : ¬ call.Takes) :
    Fate vault (performCall scheme hash vault now call) := by
  cases call with
  | session call single =>
      apply perform_fate scheme hash vault now single
      rintro commit rfl
      exact other trivial
  | updateAccount accountId snapshot draw =>
      exact (updateAccount_freshCall vault accountId snapshot { draw with now }).fate
  | clearFrozen accountId chosen nowMs => exact clearFrozen_fate vault accountId chosen nowMs now
  | ingestChainRevision event nowMs => exact ingestChainRevision_fate hash vault event nowMs now
  | recoverWithNewPassword recovered password salt =>
      exact .ended true (lockedWith_over vault _) nofun
  | commitRecoveryRekey recovered password salt reSplit =>
      rw [performCall]
      rcases commitRecoveryRekey_cases vault recovered password salt reSplit with
        ⟨error, failed⟩ | ⟨escrow, -, result⟩
      · rw [failed]
        exact .refl vault _
      · rw [result]
        exact .ended true (lockedWith_over vault _) nofun
  | commitVdkRotation oldVdk localDevice commit =>
      simp only [performCall, commitVdkRotation, atomically]
      cases rotationTx vault.disk vault.vaultMeta oldVdk localDevice commit with
      | error error => exact .refl vault _
      | ok disk => exact .ended true (lockedWith_over vault disk) nofun
  | installPairedVdk received vaultId password salt =>
      apply withActive_fate
      intro active after value _ done
      obtain ⟨rfl, -⟩ := Prod.mk.inj (Except.ok.inj done)
      exact .ended true ⟨rfl, .inl rfl⟩ nofun
  | clearRecoveryRecipient target => exact .kept true rfl rfl rfl
  | writeSessionIdleSecs secs => exact .kept true rfl rfl rfl

/-! ## The fate at a failing step -/

theorem mem_freshStops {vault left : Vault} {now : Nat} {rest : List Vault}
    (stops : left ∈ freshStops vault now rest) : left = vault ∨ left ∈ rest := by
  unfold freshStops at stops
  split at stops
  · cases stops
  · exact List.mem_cons.mp stops

theorem fate_of_indexStops {α : Type} {vault left : Vault} {now : Nat} {call : Call α}
    (stops : left ∈ freshStops vault now (indexStops vault call)) : Fate vault (left, false) := by
  rcases mem_freshStops stops with rfl | written
  · exact .refl _ false
  · unfold indexStops at written
    split at written
    · cases written
    · obtain rfl := List.mem_singleton.mp written
      exact .kept false rfl rfl rfl

theorem fate_of_freshStops {vault left : Vault} {now : Nat}
    (stops : left ∈ freshStops vault now []) : Fate vault (left, false) := by
  rcases mem_freshStops stops with rfl | none
  · exact .refl _ false
  · cases none

theorem fate_of_walletStops {vault left : Vault} {input : UnlockInput}
    (stops : left ∈ vault :: walletStops vault input) : Fate vault (left, false) := by
  rcases List.mem_cons.mp stops with rfl | derived
  · exact .refl _ false
  · unfold walletStops at derived
    split at derived
    · cases derived
    · obtain rfl := List.mem_singleton.mp derived
      exact .kept false rfl rfl rfl

theorem fate_of_stop {vault left : Vault} (stops : left ∈ [vault]) : Fate vault (left, false) := by
  obtain rfl := List.mem_singleton.mp stops
  exact .refl _ false

theorem sessionStops_fate {vault left : Vault} {now : Nat} {call : SessionCall}
    (other : ∀ commit, call ≠ .commitVdkRotationFromActive commit)
    (stops : left ∈ sessionStops vault now call) : Fate vault (left, false) := by
  cases call with
  | unlock input => exact fate_of_walletStops stops
  | lock => cases stops
  | reopen placeholder sessionIdle => cases stops
  | deviceLocked => cases stops
  | touchSessionExplicit presence => cases stops
  | setSessionIdle choice presence =>
      simp only [sessionStops] at stops
      split at stops
      · split at stops
        · cases stops
        · next after done =>
            have passes := (authorizeLonger_fate vault presence now).2
            rw [done] at passes
            obtain rfl := passes rfl
            exact fate_of_stop stops
      · exact fate_of_stop stops
  | accountAdd validated accountId draw => exact fate_of_indexStops stops
  | accountUpdate accountId patch draw => exact fate_of_indexStops stops
  | deleteAccount accountId draw => exact fate_of_indexStops stops
  | resolveFork accountId keep draw => exact fate_of_freshStops stops
  | accountGet accountId => exact fate_of_freshStops stops
  | accountSearch candidates => exact fate_of_freshStops stops
  | revealSecretField accountId presence extract => exact fate_of_freshStops stops
  | commitVdkRotationFromActive commit => exact absurd rfl (other commit)
  | markPublished revisionId anchor =>
      obtain rfl := List.mem_singleton.mp stops
      exact maybeExpire_fate vault now false
  | stashPendingMerge merge =>
      obtain rfl := List.mem_singleton.mp stops
      exact maybeExpire_fate vault now false
  | _ => exact fate_of_stop stops

theorem callStops_fate {vault left : Vault} {now : Nat} {call : VaultCall}
    (other : ¬ call.Takes) (stops : left ∈ callStops vault now call) :
    Fate vault (left, false) := by
  cases call with
  | session call single =>
      refine sessionStops_fate ?_ stops
      rintro commit rfl
      exact other trivial
  | updateAccount accountId snapshot draw => exact fate_of_indexStops stops
  | clearFrozen accountId chosen nowMs =>
      obtain rfl := List.mem_singleton.mp stops
      exact maybeExpire_fate vault now false
  | ingestChainRevision event nowMs =>
      obtain rfl := List.mem_singleton.mp stops
      exact maybeExpire_fate vault now false
  | installPairedVdk received vaultId password salt =>
      simp only [callStops] at stops
      split at stops
      · cases stops
      · exact fate_of_stop stops
  | _ => exact fate_of_stop stops

/-- Every call but the rotation, whatever step of it fails. -/
theorem make_fate (scheme : ShareScheme) (hash : CanonicalHash) (vault : Vault)
    {exposed : ExposedCall} (other : ¬ exposed.call.Takes) :
    Fate vault (exposed.make scheme hash vault) := by
  unfold ExposedCall.make
  split
  · next left failed =>
      obtain ⟨step, -, stop⟩ := Option.bind_eq_some_iff.mp failed
      exact callStops_fate other (List.mem_of_getElem? stop)
  · exact performCall_fate scheme hash vault exposed.now other

/-! ## The rotation -/

/-- The call is not a rotation from a session, or the rotation goes through: the
environment does not fail it, and its epochs fit their columns. -/
def GoesThrough (vault : Vault) (exposed : ExposedCall) : Prop :=
  match exposed.call with
  | .session (.commitVdkRotationFromActive commit) _ =>
      vault.active.isSome = true →
        exposed.fault ≠ some 0 ∧ fitsI64 (readCurrentEpoch vault.disk.keys) = true ∧
          fitsI64 commit.newEpoch = true ∧ fitsI64 commit.reSplit.epoch = true
  | _ => True

theorem goesThrough_of_not_takes {vault : Vault} {exposed : ExposedCall}
    (other : ¬ exposed.call.Takes) : GoesThrough vault exposed := by
  unfold GoesThrough
  split
  · next taken =>
      rw [taken] at other
      exact absurd trivial other
  · trivial

theorem exists_writeRecoveryEscrow_iff {vaultId : VaultId} {vdk : VdkKey}
    {generation : EscrowGeneration} :
    (∃ escrow, writeRecoveryEscrow vaultId vdk generation = .ok escrow) ↔
      fitsI64 generation.epoch = true := by
  unfold writeRecoveryEscrow
  by_cases fits : fitsI64 generation.epoch = true
  · simp [fits]
  · simp [fits]

/-- The transaction goes through when the epochs fit. -/
theorem exists_rotationTx_iff {disk : Disk} {vaultMeta : VaultMeta} {oldVdk : VdkKey}
    {localDevice : DeviceKey} {commit : RotationCommit} :
    (∃ disk', rotationTx disk vaultMeta oldVdk localDevice commit = .ok disk') ↔
      fitsI64 (readCurrentEpoch disk.keys) = true ∧ fitsI64 commit.newEpoch = true ∧
        fitsI64 commit.reSplit.epoch = true := by
  simp only [rotationTx_eq_ok_iff]
  constructor
  · rintro ⟨disk', current, new, escrow, written, -⟩
    exact ⟨current, new, exists_writeRecoveryEscrow_iff.mp ⟨escrow, written⟩⟩
  · rintro ⟨current, new, reSplit⟩
    obtain ⟨escrow, written⟩ := exists_writeRecoveryEscrow_iff.mpr reSplit
    exact ⟨_, current, new, escrow, written, rfl⟩

/-- A session whose keys are gone while its state stays is not coherent. -/
theorem not_intact_of_taken {vault : Vault} (coherent : Coherent vault)
    (present : vault.active.isSome = true) (succeeded : Bool) :
    ¬ Intact vault ({ vault with active := none }, succeeded) := by
  intro intact
  have state : vault.session.isActive = true := coherent.symm.trans present
  have same := intact.coherent
  simp [Coherent, state] at same

/-- A rotation has one place to fail, and only in a session. -/
theorem make_rotation (scheme : ShareScheme) (hash : CanonicalHash) (vault : Vault) (now : Nat)
    (commit : RotationCommit)
    (single : (SessionCall.commitVdkRotationFromActive commit).composite = false)
    (fault : Option Nat) :
    ExposedCall.make scheme hash vault
        ⟨now, .session (.commitVdkRotationFromActive commit) single, fault⟩ =
      if vault.active.isSome ∧ fault = some 0 then
        ({ vault with active := none }, false)
      else
        outcome (commitVdkRotationFromActive vault commit) := by
  cases present : vault.active with
  | none =>
      cases fault with
      | none => simp [ExposedCall.make, performCall, perform]
      | some step =>
          simp [ExposedCall.make, callStops, sessionStops, present, performCall, perform]
  | some active =>
      cases fault with
      | none => simp [ExposedCall.make, performCall, perform]
      | some step =>
          cases step with
          | zero => simp [ExposedCall.make, callStops, sessionStops, present]
          | succ step =>
              simp [ExposedCall.make, callStops, sessionStops, present, performCall, perform]

/-- Without a fault the commit decides. -/
theorem commit_intact_iff {vault : Vault} {active : ActiveState} (coherent : Coherent vault)
    (session : vault.active = some active) (commit : RotationCommit) :
    Intact vault (outcome (commitVdkRotationFromActive vault commit)) ↔
      ∃ disk, rotationTx vault.disk vault.vaultMeta active.vdk active.deviceKey commit =
        .ok disk := by
  unfold commitVdkRotationFromActive
  rw [session]
  simp only
  cases rotationTx vault.disk vault.vaultMeta active.vdk active.deviceKey commit with
  | error error =>
      have taken := not_intact_of_taken coherent (by simp [session]) false
      simpa [outcome, Except.isOk, Except.toBool] using taken
  | ok disk =>
      have locked := (Fate.ended true (lockedWith_over vault disk)
        (fun failed => by cases failed)).intact coherent
      simpa [outcome, Except.isOk, Except.toBool] using locked

/-- A rotation leaves a coherent session in order exactly when it goes through. -/
theorem rotation_intact_iff (scheme : ShareScheme) (hash : CanonicalHash) {vault : Vault}
    (coherent : Coherent vault) {exposed : ExposedCall} {commit : RotationCommit}
    {single : (SessionCall.commitVdkRotationFromActive commit).composite = false}
    (call : exposed.call = .session (.commitVdkRotationFromActive commit) single) :
    Intact vault (exposed.make scheme hash vault) ↔ GoesThrough vault exposed := by
  obtain ⟨now, _, fault⟩ := exposed
  subst call
  rw [make_rotation]
  simp only [GoesThrough]
  cases session : vault.active with
  | none =>
      have refused : outcome (commitVdkRotationFromActive vault commit) = (vault, false) := by
        simp [commitVdkRotationFromActive, session, outcome, Except.isOk, Except.toBool]
      simp [refused, (Fate.refl vault false).intact coherent]
  | some active =>
      have committed := commit_intact_iff coherent session commit
      rw [exists_rotationTx_iff] at committed
      by_cases failed : fault = some 0
      · have taken := not_intact_of_taken coherent (by simp [session]) false
        simpa [failed] using taken
      · simpa [failed] using committed

/-! ## Runs -/

/-- A handle that was just created or opened. -/
def JustOpened (vault : Vault) : Prop :=
  (∃ password draw, vault = create password draw) ∨
    ∃ disk placeholder sessionIdle, vault = openVault disk placeholder sessionIdle

theorem JustOpened.coherent {vault : Vault} (opened : JustOpened vault) : Coherent vault := by
  rcases opened with ⟨password, draw, rfl⟩ | ⟨disk, placeholder, sessionIdle, rfl⟩
  · rfl
  · rfl

/-- A call on a coherent session leaves it in order exactly when it is not a rotation or goes
through. -/
theorem make_intact_iff (scheme : ShareScheme) (hash : CanonicalHash) {vault : Vault}
    (coherent : Coherent vault) (exposed : ExposedCall) :
    Intact vault (exposed.make scheme hash vault) ↔ GoesThrough vault exposed := by
  by_cases takes : exposed.call.Takes
  · cases call : exposed.call with
    | session made single =>
        cases made with
        | commitVdkRotationFromActive commit => exact rotation_intact_iff scheme hash coherent call
        | _ => simp [call, VaultCall.Takes] at takes
    | _ => simp [call, VaultCall.Takes] at takes
  · have intact := (make_fate scheme hash vault takes).intact coherent
    simp [intact, goesThrough_of_not_takes takes]

/-! ### Restores

A restore makes calls of this machine on a handle of its own, so what holds along every run
holds of that handle at each point of the restore. -/

section

variable (scheme : ShareScheme) (hash : CanonicalHash)

theorem reaches_performCall (vault : Vault) (now : Nat) (call : VaultCall)
    (other : ¬ call.Takes) :
    Reaches (exposedStep scheme hash) GoesThrough vault
      (performCall scheme hash vault now call).1 :=
  .tail ⟨now, call, none⟩ .refl (goesThrough_of_not_takes other)

theorem replayHistory_reaches (tools : TextTools) (draw : RestoreDraw) (accountId : AccountId)
    (turn : Nat) (entries : List PasswordEntry) (vault : Vault) :
    Reaches (exposedStep scheme hash) GoesThrough vault
      (replayHistory tools draw accountId turn entries vault).1 := by
  induction entries generalizing turn vault with
  | nil => exact .refl
  | cons entry entries ih =>
      have updated := reaches_performCall scheme hash vault (draw.write turn).now
        (.session (.accountUpdate accountId
          ((passwordPatch entry.password).apply tools (draw.write turn).nowMs vault.deviceId)
          (draw.write turn)) rfl) id
      simp only [performCall, perform, outcome] at updated
      unfold replayHistory
      simp only
      split
      · next failed =>
          rw [failed] at updated
          exact updated
      · next done =>
          rw [done] at updated
          exact updated.trans (ih _ _)

theorem restoreWriteAccount_reaches (tools : TextTools) (draw : RestoreDraw)
    (accountId : AccountId) (turn : Nat) (account : ArchivedAccount) (vault : Vault) :
    Reaches (exposedStep scheme hash) GoesThrough vault
      (restoreWriteAccount tools draw accountId turn account vault).1 := by
  have added := reaches_performCall scheme hash vault (draw.write turn).now
    (.session (.accountAdd
      ((restoreDraft account).validateIntoIdentity tools (draw.write turn).nowMs vault.deviceId)
      accountId (draw.write turn)) rfl) id
  simp only [performCall, perform, outcome] at added
  unfold restoreWriteAccount
  simp only
  split
  · next failed =>
      rw [failed] at added
      exact added
  · next after written done =>
      rw [done] at added
      have replayed := added.trans (replayHistory_reaches scheme hash tools draw written (turn + 1)
        (account.passwordHistory.reverse.drop 1) after)
      split
      · next failed =>
          rw [failed] at replayed
          exact replayed
      · next done =>
          rw [done] at replayed
          exact replayed

theorem restoreAccounts_reaches (tools : TextTools) (draw : RestoreDraw) (index turn : Nat)
    (accounts : List ArchivedAccount) (vault : Vault) :
    Reaches (exposedStep scheme hash) GoesThrough vault
      (restoreAccounts tools draw index turn accounts vault).1 := by
  induction accounts generalizing index turn vault with
  | nil => exact .refl
  | cons account accounts ih =>
      have written := restoreWriteAccount_reaches scheme hash tools draw
        (draw.accountId index) turn account vault
      unfold restoreAccounts
      split
      · next failed =>
          rw [failed] at written
          exact written
      · next done =>
          rw [done] at written
          exact written.trans (ih _ _ _)

end

/-- As long as the rotations from a session go through, the keys in memory and the session
state stay together, whatever else fails; a call then leaves the session in order exactly
when it is not a rotation that fails. -/
theorem session_coherence_iff (scheme : ShareScheme) (hash : CanonicalHash)
    (start vault : Vault) (opened : JustOpened start)
    (run : Reaches (exposedStep scheme hash) GoesThrough start vault) :
    Coherent vault ∧ ∀ exposed : ExposedCall,
      Intact vault (exposed.make scheme hash vault) ↔ GoesThrough vault exposed := by
  have coherent : Coherent vault := by
    refine run.invariant Coherent ?_ opened.coherent
    intro before exposed coherent through
    exact ((make_intact_iff scheme hash coherent exposed).mpr through).coherent
  exact ⟨coherent, make_intact_iff scheme hash coherent⟩

namespace Sample

/-- A call at time 0. -/
def exposedCall (call : VaultCall) (fault : Option Nat) : ExposedCall := ⟨0, call, fault⟩

def exposedUnlock : ExposedCall := exposedCall (.session (.unlock (unlockInput ⟨[1]⟩)) rfl) none

/-- Add an account, with the search index failing after the commit. -/
def exposedAdd : ExposedCall :=
  exposedCall (.session (.accountAdd (.ok identity) ⟨1⟩ (draw 51)) rfl) (some 1)

/-- A rotation to epoch 1 whose re-split has the given epoch. -/
def exposedRotation (reSplitEpoch : Nat) : ExposedCall :=
  exposedCall (.session (.commitVdkRotationFromActive
    ⟨⟨5⟩, ⟨[2]⟩, ⟨9⟩, 1, ⟨wrapVdkUnderRwk ⟨5⟩ ⟨6⟩ (.new ⟨7⟩), 2, 0, reSplitEpoch, []⟩⟩) rfl) none

def exposedRun (calls : List ExposedCall) : Vault :=
  calls.foldl (exposedStep countingScheme hash) vault

end Sample

/-- After an edit whose index failed, a rotation goes through. -/
theorem session_coherence_rotated :
    (Sample.exposedRun [Sample.exposedUnlock, Sample.exposedAdd]).session.isActive = true ∧
      Coherent (Sample.exposedRun [Sample.exposedUnlock, Sample.exposedAdd]) ∧
      (Intact (Sample.exposedRun [Sample.exposedUnlock, Sample.exposedAdd])
          ((Sample.exposedRotation 0).make countingScheme Sample.hash
            (Sample.exposedRun [Sample.exposedUnlock, Sample.exposedAdd])) ↔
        GoesThrough (Sample.exposedRun [Sample.exposedUnlock, Sample.exposedAdd])
          (Sample.exposedRotation 0)) := by
  obtain ⟨coherent, inOrder⟩ := session_coherence_iff countingScheme Sample.hash Sample.vault
    (Sample.exposedRun [Sample.exposedUnlock, Sample.exposedAdd]) (.inl ⟨_, _, rfl⟩)
    (.foldl _ ⟨trivial, trivial, trivial⟩)
  exact ⟨by decide +kernel, coherent, inOrder _⟩

/-- A rotation whose re-split has an epoch that does not fit fails, and the session state
stays active without keys. -/
theorem failed_rotation_incoherent :
    ¬ ∀ start vault exposed, JustOpened start →
      Reaches (exposedStep countingScheme Sample.hash) (fun _ _ => True) start vault →
        Intact vault (ExposedCall.make countingScheme Sample.hash vault exposed) := by
  intro holds
  have intact := holds Sample.vault (Sample.exposedRun [Sample.exposedUnlock])
    (Sample.exposedRotation (2 ^ 64 - 1)) (.inl ⟨_, _, rfl⟩) (.foldl _ ⟨trivial, trivial⟩)
  have gone : (ExposedCall.make countingScheme Sample.hash
      (Sample.exposedRun [Sample.exposedUnlock])
      (Sample.exposedRotation (2 ^ 64 - 1))).1.active.isSome = false := by decide +kernel
  have state : (ExposedCall.make countingScheme Sample.hash
      (Sample.exposedRun [Sample.exposedUnlock])
      (Sample.exposedRotation (2 ^ 64 - 1))).1.session.isActive = true := by decide +kernel
  have coherent := intact.coherent
  rw [Coherent, gone, state] at coherent
  cases coherent

end Pangolin
