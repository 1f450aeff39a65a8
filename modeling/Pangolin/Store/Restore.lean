import Pangolin.Store.Archive
import Pangolin.Store.Identity
import Pangolin.Store.Settings

/-!
# Restoring an archive

A restore provisions a new vault and writes every archived account through the validated
calls: the oldest password with the draft, each later one as a patch of its own.  What comes
back is the content of an account, under a new id and with new times.

An identity comes back as it was exactly when the validators leave its fields alone; the
drafts and patches of the account calls produce such identities up to the tags whose lower
case is not stable and the URLs that grow past the bound.
-/

namespace Pangolin.Store

open Crypto Utf8

/-! ## Legacy writes -/

/-- `add_account`: the flat record is sealed as it is. -/
def addAccount (vault : Vault) (snapshot : AccountSnapshot) (accountId : AccountId)
    (draw : WriteDraw) : Call AccountId :=
  accountAdd vault (.ok (hydrateV0ToV1 snapshot)) accountId draw

/-- `update_account`: unlike `account_update` it does not read the head it replaces. -/
def updateAccount (vault : Vault) (accountId : AccountId) (snapshot : AccountSnapshot)
    (draw : WriteDraw) : Call RevisionId :=
  withFreshSession vault draw.now fun active => do
    refuseUneditable vault active accountId
    let account ← liveAccount vault.disk.log accountId
    let identity := hydrateV0ToV1 snapshot
    let row := localRow vault active accountId account.headRevisionId
      vault.vaultMeta.wrapContext.schemaVersion (.live identity) false draw
    let log ← appendToAccount vault.disk.log row false
    return ({ vault with
      disk := { vault.disk with log }
      active := some (syncCache active accountId (some identity)) }, draw.revisionId)

/-! ## Writing one account back -/

/-- The placeholder for a missing username. -/
def noUsername : Text := "(no username)".toList

/-- The draft of `restore_write_account`: the archived texts, a placeholder for a missing
username, and the oldest password. -/
def restoreDraft (account : ArchivedAccount) : AccountIdentityDraft :=
  { displayName := decodeLossy account.displayName
    tags := account.tags.map decodeLossy
    usernames :=
      if account.usernames.isEmpty then [noUsername]
      else account.usernames.map decodeLossy
    urls := account.urls.map decodeLossy
    notes := decodeLossy account.notes
    password := (account.passwordHistory.reverse.head?.map PasswordEntry.password).getD []
    totpSecret := account.totpSecret
    totpParams := account.totpParams }

/-- A patch that sets the password and nothing else. -/
def passwordPatch (password : List UInt8) : AccountIdentityPatch :=
  { password := some password }

/-- The draws of a restore.  Ids are random and do not repeat. -/
structure RestoreDraw where
  created : CreateDraw
  placeholder : DeviceId
  /-- The device key the first unlock registers. -/
  generated : DeviceKey
  /-- The clock at the unlock. -/
  started : Nat
  accountId : Nat → AccountId
  write : Nat → WriteDraw
  accountIds_injective : Function.Injective accountId
  revisionIds_injective : Function.Injective fun index => (write index).revisionId

section

variable (tools : TextTools) (draw : RestoreDraw)

/-- The loop over the later passwords, oldest first; `turn` counts the writes. -/
def replayHistory (accountId : AccountId) : Nat → List PasswordEntry → Vault → Call Unit
  | _, [], vault => (vault, .ok ())
  | turn, entry :: entries, vault =>
      let patch := (passwordPatch entry.password).apply tools (draw.write turn).nowMs
        vault.deviceId
      match accountUpdate vault accountId patch (draw.write turn) with
      | (vault, .error error) => (vault, .error error)
      | (vault, .ok _) => replayHistory accountId (turn + 1) entries vault

/-- `restore_write_account`. -/
def restoreWriteAccount (accountId : AccountId) (turn : Nat) (account : ArchivedAccount)
    (vault : Vault) : Call AccountId :=
  let identity := (restoreDraft account).validateIntoIdentity tools (draw.write turn).nowMs
    vault.deviceId
  match accountAdd vault identity accountId (draw.write turn) with
  | (vault, .error error) => (vault, .error error)
  | (vault, .ok accountId) =>
      match replayHistory tools draw accountId (turn + 1) (account.passwordHistory.reverse.drop 1)
          vault with
      | (vault, .error error) => (vault, .error error)
      | (vault, .ok ()) => (vault, .ok accountId)

/-- The writes an archived account takes. -/
def restoreWrites (account : ArchivedAccount) : Nat :=
  1 + (account.passwordHistory.reverse.drop 1).length

/-- The loop over the archived accounts. -/
def restoreAccounts : Nat → Nat → List ArchivedAccount → Vault → Call Unit
  | _, _, [], vault => (vault, .ok ())
  | index, turn, account :: accounts, vault =>
      match restoreWriteAccount tools draw (draw.accountId index) turn account vault with
      | (vault, .error error) => (vault, .error error)
      | (vault, .ok _) =>
          restoreAccounts (index + 1) (turn + restoreWrites account) accounts vault

/-- `meta::write_session_idle_secs`. -/
def writeSessionIdleSecs (vault : Vault) (secs : Int) : Vault :=
  let settings := { vault.disk.keys.settings with sessionIdleSecs := some secs }
  { vault with disk := { vault.disk with keys := { vault.disk.keys with settings } } }

/-- `restore_to_new_vault`: the file it leaves at the destination. -/
def restoreToNewVault (snapshot : ArchiveSnapshot) (newMasterPassword : Password) :
    Except StoreError Disk :=
  let created := create newMasterPassword draw.created
  let vault := openFile created.disk draw.placeholder
  match unlock vault ⟨true, newMasterPassword, draw.generated, draw.started⟩ with
  | (_, .error error) => .error error
  | (vault, .ok ()) =>
      let vault := match snapshot.sessionIdleSecs with
        | some secs => writeSessionIdleSecs vault secs
        | none => vault
      match restoreAccounts tools draw 0 0 snapshot.accounts vault with
      | (_, .error error) => .error error
      | (vault, .ok ()) => .ok vault.disk

end

/-! ## Contents -/

/-- What a restore is to bring back of an account. -/
structure AccountContent where
  displayName : List UInt8
  tags : List (List UInt8)
  urls : List (List UInt8)
  usernames : List (List UInt8)
  notes : List UInt8
  /-- Current one first. -/
  passwords : List (List UInt8)
  /-- The TOTP entry, if there is a secret. -/
  totp : Option (List UInt8 × TotpParams)
  deriving Repr, DecidableEq

def AccountIdentity.content (identity : AccountIdentity) : AccountContent :=
  { displayName := identity.displayName
    tags := identity.tags
    urls := identity.urls
    usernames := identity.usernames
    notes := identity.notes
    passwords := identity.passwordHistory.map PasswordEntry.password
    totp :=
      if identity.totpSecret.isEmpty then none
      else some (identity.totpSecret, identity.totpParams) }

/-- The contents a session reads of the accounts that are not deleted. -/
def liveContents (vault : Vault) (active : ActiveState) :
    Except StoreError (List AccountContent) :=
  (vault.disk.log.accounts.filter fun account => !account.tombstoned).mapM fun account => do
    let identity ← readHeadIdentity vault active account.accountId
    return identity.content

/-- An identity whose fields the validators return as they are. -/
structure Restorable (tools : TextTools) (identity : AccountIdentity) : Prop where
  displayName : ∃ text, identity.displayName = encode text ∧
    Validate.displayName tools text = .ok text
  tags : ∃ texts : List Text, identity.tags = texts.map encode ∧
    Validate.tags tools texts = .ok texts
  usernames : ∃ texts : List Text, identity.usernames = texts.map encode ∧
    Validate.usernames tools texts = .ok texts
  urls : ∃ texts : List Text, identity.urls = texts.map encode ∧
    Validate.urls tools texts = .ok texts
  notes : ∃ text, identity.notes = encode text ∧ Validate.notes text = .ok text
  history : identity.passwordHistory ≠ []
  passwords : ∀ entry ∈ identity.passwordHistory, Validate.password entry.password = .ok ()
  totpSecret : Validate.totpSecret identity.totpSecret = .ok ()
  totpParams : identity.totpSecret ≠ [] → Validate.totpParams identity.totpParams = .ok ()

/-! ## Which writes are restorable -/

/-- A draft whose tags and URLs a second pass leaves alone. -/
structure AccountIdentityDraft.Stable (tools : TextTools) (draft : AccountIdentityDraft) :
    Prop where
  tags : ∀ raw ∈ draft.tags, StableUnder (Validate.tag tools) raw
  urls : ∀ raw ∈ draft.urls, StableUnder (Validate.url tools) raw

/-- So for the fields a patch sets. -/
structure AccountIdentityPatch.Stable (tools : TextTools) (patch : AccountIdentityPatch) :
    Prop where
  tags : ∀ tags ∈ patch.tags, ∀ raw ∈ tags, StableUnder (Validate.tag tools) raw
  urls : ∀ urls ∈ patch.urls, ∀ raw ∈ urls, StableUnder (Validate.url tools) raw

section

variable {tools : TextTools}

/-- What a valid draft becomes. -/
theorem AccountIdentityDraft.validateIntoIdentity_eq_ok_iff {draft : AccountIdentityDraft}
    {createdAtMs : Int} {device : DeviceId} {identity : AccountIdentity} :
    draft.validateIntoIdentity tools createdAtMs device = .ok identity ↔
      ∃ displayName tags usernames urls notes,
        Validate.displayName tools draft.displayName = .ok displayName ∧
        Validate.tags tools draft.tags = .ok tags ∧
        Validate.usernames tools draft.usernames = .ok usernames ∧
        Validate.urls tools draft.urls = .ok urls ∧ Validate.notes draft.notes = .ok notes ∧
        Validate.password draft.password = .ok () ∧
        Validate.totpSecret draft.totpSecret = .ok () ∧
        (draft.totpSecret ≠ [] → Validate.totpParams draft.totpParams = .ok ()) ∧
        identity = {
          displayName := encode displayName
          tags := tags.map encode
          notes := encode notes
          urls := urls.map encode
          usernames := usernames.map encode
          passwordHistory := [⟨draft.password, createdAtMs, device⟩]
          totpSecret := draft.totpSecret
          totpParams := if draft.totpSecret.isEmpty then .default else draft.totpParams } := by
  unfold AccountIdentityDraft.validateIntoIdentity
  simp only [Fallible.bind_eq_ok_iff]
  constructor
  · rintro ⟨displayName, named, tags, tagged, usernames, known, urls, located, notes, noted, _,
      password, _, secret, _, valid, equal⟩
    exact ⟨displayName, tags, usernames, urls, notes, named, tagged, known, located, noted,
      password, secret, Validate.totpParamsFor_eq_ok_iff.mp valid, (Except.ok.inj equal).symm⟩
  · rintro ⟨displayName, tags, usernames, urls, notes, named, tagged, known, located, noted,
      password, secret, valid, rfl⟩
    exact ⟨displayName, named, tags, tagged, usernames, known, urls, located, notes, noted, (),
      password, (), secret, (), Validate.totpParamsFor_eq_ok_iff.mpr valid, rfl⟩

/-- A stable draft becomes a restorable identity. -/
theorem AccountIdentityDraft.Stable.restorable {draft : AccountIdentityDraft} {createdAtMs : Int}
    {device : DeviceId} {identity : AccountIdentity} (stable : draft.Stable tools)
    (valid : draft.validateIntoIdentity tools createdAtMs device = .ok identity) :
    Restorable tools identity := by
  obtain ⟨displayName, tags, usernames, urls, notes, named, tagged, known, located, noted,
    password, secret, params, rfl⟩ := validateIntoIdentity_eq_ok_iff.mp valid
  constructor
  · exact ⟨displayName, rfl, Validate.displayName_stable named⟩
  · exact ⟨tags, rfl, Validate.tags_stable stable.tags tagged⟩
  · exact ⟨usernames, rfl, Validate.usernames_stable known⟩
  · exact ⟨urls, rfl, Validate.urls_stable stable.urls located⟩
  · exact ⟨notes, rfl, Validate.notes_stable noted⟩
  · exact List.cons_ne_nil _ _
  · intro entry member
    obtain rfl := List.mem_singleton.mp member
    exact password
  · exact secret
  · intro nonempty
    have kept : ¬ draft.totpSecret.isEmpty = true := by simpa using nonempty
    simp only [if_neg kept]
    exact params nonempty

theorem validateField_eq_ok {α β : Type} {validate : α → Except StoreError β} {input : Option α}
    {valid : Option β} (checked : validateField validate input = .ok valid) :
    (input = none ∧ valid = none) ∨
      ∃ raw value, input = some raw ∧ valid = some value ∧ validate raw = .ok value := by
  cases input with
  | none =>
      obtain rfl := Except.ok.inj checked
      exact .inl ⟨rfl, rfl⟩
  | some raw =>
      obtain ⟨value, made, equal⟩ := Fallible.bind_eq_ok_iff.mp checked
      obtain rfl := Except.ok.inj equal
      exact .inr ⟨raw, value, rfl, rfl, made⟩

/-- A field a patch leaves alone or sets to a text that comes through stays restorable. -/
theorem patched_field {α β : Type} {validate : β → Except StoreError β} {write : β → α}
    {input : Option β} {valid : Option β} {current : α}
    (checked : validateField validate input = .ok valid)
    (again : ∀ raw ∈ input, ∀ value, validate raw = .ok value → validate value = .ok value)
    (kept : ∃ value, current = write value ∧ validate value = .ok value) :
    ∃ value, (valid.map write).getD current = write value ∧ validate value = .ok value := by
  rcases validateField_eq_ok checked with ⟨-, rfl⟩ | ⟨raw, value, rfl, rfl, made⟩
  · exact kept
  · exact ⟨value, rfl, again raw rfl value made⟩

/-- The TOTP slot a patch leaves behind passes the checks again. -/
theorem patched_totp {patch : AccountIdentityPatch} {current : AccountIdentity}
    {secret : Option Unit} {params : Option Unit}
    (checkedSecret : validateField Validate.totpSecret patch.totpSecret.join = .ok secret)
    (checkedParams : validateField Validate.totpParams patch.totpParams = .ok params)
    (restorable : Restorable tools current) :
    Validate.totpSecret (patch.totp current).1 = .ok () ∧
      ((patch.totp current).1 ≠ [] → Validate.totpParams (patch.totp current).2 = .ok ()) := by
  have setParams : ∀ fallback, (Validate.totpParams fallback = .ok ()) →
      Validate.totpParams (patch.totpParams.getD fallback) = .ok () := by
    intro fallback valid
    rcases validateField_eq_ok checkedParams with ⟨none, -⟩ | ⟨raw, _, set, -, made⟩
    · rw [none]
      exact valid
    · rw [set]
      exact made
  unfold AccountIdentityPatch.totp
  split
  · next bytes set =>
      constructor
      · rcases validateField_eq_ok checkedSecret with ⟨none, -⟩ | ⟨raw, _, given, -, made⟩
        · rw [set] at none
          cases none
        · rw [set] at given
          obtain rfl := Option.some.inj given
          exact made
      · exact fun _ => setParams .default rfl
  · exact ⟨rfl, fun nonempty => absurd rfl nonempty⟩
  · exact ⟨restorable.totpSecret, fun nonempty => setParams _ (restorable.totpParams nonempty)⟩

/-- A stable patch keeps an identity restorable. -/
theorem AccountIdentityPatch.Stable.restorable {patch : AccountIdentityPatch} {appliedAtMs : Int}
    {device : DeviceId} {current identity : AccountIdentity} (stable : patch.Stable tools)
    (restorable : Restorable tools current)
    (applied : patch.apply tools appliedAtMs device current = .ok identity) :
    Restorable tools identity := by
  unfold AccountIdentityPatch.apply at applied
  simp only [Fallible.bind_eq_ok_iff] at applied
  obtain ⟨displayName, named, tags, tagged, usernames, known, urls, located, notes, noted,
    password, checkedPassword, secret, checkedSecret, params, checkedParams, equal⟩ := applied
  obtain rfl := Except.ok.inj equal
  obtain ⟨totpSecret, totpParams⟩ := patched_totp checkedSecret checkedParams restorable
  constructor
  · apply patched_field named _ restorable.displayName
    intro raw _ value made
    exact Validate.displayName_stable made
  · apply patched_field tagged _ restorable.tags
    intro raws set values made
    exact Validate.tags_stable (stable.tags raws set) made
  · apply patched_field known _ restorable.usernames
    intro raws _ values made
    exact Validate.usernames_stable made
  · apply patched_field located _ restorable.urls
    intro raws set values made
    exact Validate.urls_stable (stable.urls raws set) made
  · apply patched_field noted _ restorable.notes
    intro raw _ value made
    exact Validate.notes_stable made
  · exact List.append_ne_nil_of_right_ne_nil _ restorable.history
  · intro entry member
    rcases List.mem_append.mp member with new | old
    · rcases validateField_eq_ok checkedPassword with ⟨none, -⟩ | ⟨raw, _, set, -, made⟩
      · rw [none] at new
        cases new
      · rw [set] at new
        obtain rfl := List.mem_singleton.mp new
        exact made
    · exact restorable.passwords entry old
  · exact totpSecret
  · exact totpParams

end

/-! ## Validating what was archived -/

/-- The identity an archived account was laid out from. -/
def ArchivedAccount.identity (account : ArchivedAccount) : AccountIdentity :=
  { displayName := account.displayName
    tags := account.tags
    notes := account.notes
    urls := account.urls
    usernames := account.usernames
    passwordHistory := account.passwordHistory
    totpSecret := account.totpSecret
    totpParams := account.totpParams }

section

variable {tools : TextTools} {account : ArchivedAccount}

theorem map_decodeLossy_encode (texts : List Text) :
    (texts.map encode).map decodeLossy = texts := by
  rw [List.map_map]
  have roundTrip : decodeLossy ∘ encode = id := by
    funext text
    exact decodeLossy_encode text
  rw [roundTrip, List.map_id]

/-- The history of a restorable account starts with an oldest password. -/
theorem oldest_of_restorable (restorable : Restorable tools account.identity) :
    ∃ oldest later, account.passwordHistory.reverse = oldest :: later := by
  cases reversed : account.passwordHistory.reverse with
  | nil => exact absurd (List.reverse_eq_nil_iff.mp reversed) restorable.history
  | cons oldest later => exact ⟨oldest, later, rfl⟩

/-- The draft of a restorable account is valid, and its identity has the content of the
account but for the later passwords. -/
theorem restoreDraft_valid (restorable : Restorable tools account.identity)
    {oldest : PasswordEntry} {later : List PasswordEntry}
    (reversed : account.passwordHistory.reverse = oldest :: later) (nowMs : Int)
    (device : DeviceId) :
    ∃ identity, (restoreDraft account).validateIntoIdentity tools nowMs device = .ok identity ∧
      identity.content = { account.identity.content with passwords := [oldest.password] } := by
  obtain ⟨displayName, named, nameValid⟩ := restorable.displayName
  obtain ⟨tags, tagged, tagsValid⟩ := restorable.tags
  obtain ⟨usernames, known, usernamesValid⟩ := restorable.usernames
  obtain ⟨urls, located, urlsValid⟩ := restorable.urls
  obtain ⟨notes, noted, notesValid⟩ := restorable.notes
  have nonempty : account.usernames.isEmpty = false := by
    rw [show account.usernames = usernames.map encode from known]
    cases usernames with
    | nil => cases usernamesValid
    | cons first others => rfl
  have first : (restoreDraft account).password = oldest.password := by
    simp [restoreDraft, reversed]
  have passwordValid : Validate.password oldest.password = .ok () := by
    apply restorable.passwords
    have member : oldest ∈ account.passwordHistory.reverse := by simp [reversed]
    exact List.mem_reverse.mp member
  refine ⟨_, AccountIdentityDraft.validateIntoIdentity_eq_ok_iff.mpr
    ⟨displayName, tags, usernames, urls, notes, ?_, ?_, ?_, ?_, ?_, ?_, restorable.totpSecret,
      restorable.totpParams, rfl⟩, ?_⟩
  · rw [restoreDraft, show account.displayName = encode displayName from named,
      decodeLossy_encode]
    exact nameValid
  · rw [restoreDraft, show account.tags = tags.map encode from tagged, map_decodeLossy_encode]
    exact tagsValid
  · simp only [restoreDraft, nonempty, Bool.false_eq_true, if_false]
    rw [show account.usernames = usernames.map encode from known, map_decodeLossy_encode]
    exact usernamesValid
  · rw [restoreDraft, show account.urls = urls.map encode from located, map_decodeLossy_encode]
    exact urlsValid
  · rw [restoreDraft, show account.notes = encode notes from noted, decodeLossy_encode]
    exact notesValid
  · rw [first]
    exact passwordValid
  · have totp : (if account.totpSecret.isEmpty then none
        else some (account.totpSecret,
          if account.totpSecret.isEmpty then TotpParams.default else account.totpParams)) =
        if account.totpSecret.isEmpty then none
        else some (account.totpSecret, account.totpParams) := by
      split <;> rfl
    simp only [AccountIdentity.content, first, List.map_cons, List.map_nil, named, tagged, known,
      located, noted]
    exact congrArg _ totp

/-- A password patch puts a valid password in front. -/
theorem passwordPatch_apply {password : List UInt8} (valid : Validate.password password = .ok ())
    (nowMs : Int) (device : DeviceId) (current : AccountIdentity) :
    (passwordPatch password).apply tools nowMs device current = .ok { current with
      passwordHistory := ⟨password, nowMs, device⟩ :: current.passwordHistory } := by
  simp [AccountIdentityPatch.apply, passwordPatch, validateField, valid, bind, Except.bind, pure,
    Except.pure, AccountIdentityPatch.totp]

end

end Pangolin.Store
