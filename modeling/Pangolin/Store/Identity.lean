import Mathlib.Data.List.DropRight
import Pangolin.Lib.Fallible
import Pangolin.Lib.Utf8
import Pangolin.Store.Schema

/-!
# Account identities

The texts of an account go through validators that normalise them before they are stored:
names, tags and usernames to NFC, tags to lower case, URLs to their serialised form.  A
draft becomes an identity with one password, a patch replaces some of its fields, and the
legacy writes store a flat record that no validator sees.

Normalisation, case mapping and URL parsing come from outside; what the validators rely on
is stated with them.
-/

namespace Pangolin.Store

open Crypto Utf8

/-! ## Texts -/

/-- Unicode `White_Space`, as `char::is_whitespace`. -/
def isWhitespace (char : Char) : Bool :=
  let code := char.toNat
  (9 ≤ code && code ≤ 13) || code = 0x20 || code = 0x85 || code = 0xA0 || code = 0x1680 ||
    (0x2000 ≤ code && code ≤ 0x200A) || code = 0x2028 || code = 0x2029 || code = 0x202F ||
    code = 0x205F || code = 0x3000

/-- `str::trim`. -/
def trim (text : Text) : Text := (text.dropWhile isWhitespace).rdropWhile isWhitespace

/-- Unicode category `Cc`, as `char::is_control`. -/
def isControl (char : Char) : Bool :=
  char.toNat ≤ 0x1F || (0x7F ≤ char.toNat && char.toNat ≤ 0x9F)

/-- `has_disallowed_control`. -/
def hasDisallowedControl (text : Text) : Bool :=
  text.any fun char => (isControl char && char ≠ '\t') || char.toNat = 0x7F

/-- The Unicode tables and the URL parser the validators call, with what is known of
normalisation and of serialised URLs. -/
structure TextTools where
  nfc : Text → Text
  /-- The `Lowercase_Mapping` of a character. -/
  lowercaseMapping : Char → Text
  cased : Char → Bool
  caseIgnorable : Char → Bool
  /-- `Url::parse` and the serialisation of what it returns. -/
  parseUrl : Text → Option Text
  nfc_nfc : ∀ text, nfc (nfc text) = nfc text
  /-- A part of a normalised text is normalised. -/
  nfc_trim_nfc : ∀ text, nfc (trim (nfc text)) = trim (nfc text)
  /-- Normalisation brings no white space to an end. -/
  trim_nfc_trim : ∀ text, trim (nfc (trim text)) = nfc (trim text)
  nfc_ne_nil : ∀ text, text ≠ [] → nfc text ≠ []
  parseUrl_parseUrl : ∀ text url, parseUrl text = some url → parseUrl url = some url

/-- A cased character after any number of case-ignorable ones. -/
def caseIgnorableThenCased (tools : TextTools) (text : Text) : Bool :=
  match text.dropWhile tools.caseIgnorable with
  | [] => false
  | char :: _ => tools.cased char

/-- The loop of `str::to_lowercase`; a final sigma has its own small letter. -/
def lowercaseFrom (tools : TextTools) : Text → Text → Text
  | _, [] => []
  | before, char :: after =>
      let mapped :=
        if char = 'Σ' then
          [if caseIgnorableThenCased tools before && !caseIgnorableThenCased tools after then 'ς'
            else 'σ']
        else
          tools.lowercaseMapping char
      mapped ++ lowercaseFrom tools (char :: before) after

/-- `str::to_lowercase`. -/
def toLowercase (tools : TextTools) (text : Text) : Text := lowercaseFrom tools [] text

/-! ## Validators -/

namespace Validate

variable (tools : TextTools)

/-- `validate::display_name`. -/
def displayName (input : Text) : Except StoreError Text :=
  let trimmed := trim (tools.nfc input)
  if trimmed.isEmpty then
    .error (.validation "display_name" "display name must not be empty")
  else if 256 < trimmed.length then
    .error (.validation "display_name" "display name exceeds 256 chars")
  else if hasDisallowedControl trimmed then
    .error (.validation "display_name" "display name contains disallowed control chars")
  else
    .ok trimmed

/-- What the loop of `validate::tags` makes of one tag. -/
def tag (input : Text) : Except StoreError Text :=
  let trimmed := trim (tools.nfc input)
  if trimmed.isEmpty then
    .error (.validation "tags" "empty tag rejected")
  else if 64 < trimmed.length then
    .error (.validation "tags" "tag exceeds 64 chars")
  else if hasDisallowedControl trimmed then
    .error (.validation "tags" "tag contains disallowed control chars")
  else
    .ok (toLowercase tools trimmed)

/-- The loop of `validate::tags`: a tag that is there already is not repeated. -/
def collectTags : List Text → List Text → Except StoreError (List Text)
  | out, [] => .ok out
  | out, raw :: input => do
      let lower ← tag tools raw
      collectTags (if lower ∈ out then out else out ++ [lower]) input

/-- `validate::tags`. -/
def tags (input : List Text) : Except StoreError (List Text) :=
  if 32 < input.length then
    .error (.validation "tags" "at most 32 tags allowed")
  else
    collectTags tools [] input

/-- What the loop of `validate::usernames` makes of one username. -/
def username (input : Text) : Except StoreError Text :=
  let trimmed := trim input
  if trimmed.isEmpty then
    .error (.validation "usernames" "empty username rejected")
  else
    let normalised := tools.nfc trimmed
    if 320 < normalised.length then
      .error (.validation "usernames" "username exceeds 320 chars")
    else if hasDisallowedControl normalised then
      .error (.validation "usernames" "username contains disallowed control chars")
    else
      .ok normalised

/-- `validate::usernames`. -/
def usernames (input : List Text) : Except StoreError (List Text) :=
  if input.isEmpty then
    .error (.validation "usernames" "at least one username is required")
  else if 16 < input.length then
    .error (.validation "usernames" "at most 16 usernames allowed")
  else
    input.mapM (username tools)

/-- What the loop of `validate::urls` makes of one URL.  The bound is on the input, not on
the serialised URL that is stored. -/
def url (input : Text) : Except StoreError Text :=
  if 2048 < input.length then
    .error (.validation "url" "URL exceeds 2048 chars")
  else
    match tools.parseUrl input with
    | some serialised => .ok serialised
    | none => .error (.validation "url" "URL did not parse")

/-- `validate::urls`. -/
def urls (input : List Text) : Except StoreError (List Text) :=
  if 32 < input.length then
    .error (.validation "url" "at most 32 URLs allowed")
  else
    input.mapM (url tools)

/-- `validate::notes`. -/
def notes (input : Text) : Except StoreError Text :=
  if 65536 < input.length then
    .error (.validation "notes" "notes exceed 65536 chars")
  else
    .ok input

/-- `validate::password`. -/
def password (input : List UInt8) : Except StoreError Unit :=
  if input.isEmpty then
    .error (.validation "password" "password must not be empty")
  else if 4096 < input.length then
    .error (.validation "password" "password exceeds 4096 bytes")
  else
    .ok ()

/-- `validate::totp_secret`. -/
def totpSecret (input : List UInt8) : Except StoreError Unit :=
  if 256 < input.length then
    .error (.validation "totp_secret" "totp secret exceeds 256 bytes")
  else
    .ok ()

/-- `validate::totp_params`. -/
def totpParams (params : TotpParams) : Except StoreError Unit :=
  if params.digits < 6 ∨ 8 < params.digits then
    .error (.validation "totp_params"
      ("TOTP digits must be 6, 7, or 8 (was " ++ toString params.digits ++ ")"))
  else if params.period = 0 ∨ 3600 < params.period then
    .error (.validation "totp_params"
      ("TOTP period must be between 1 and 3600 seconds (was " ++ toString params.period ++ ")"))
  else
    .ok ()

/-- The parameters are checked only beside a secret. -/
def totpParamsFor (secret : List UInt8) (params : TotpParams) : Except StoreError Unit :=
  if secret.isEmpty then .ok () else totpParams params

theorem totpParamsFor_eq_ok_iff {secret : List UInt8} {params : TotpParams} :
    totpParamsFor secret params = .ok () ↔ (secret ≠ [] → totpParams params = .ok ()) := by
  by_cases empty : secret = []
  · simp [totpParamsFor, empty]
  · simp [totpParamsFor, empty]

end Validate

/-! ## Drafts, patches and legacy records -/

/-- SHA-1, six digits, thirty seconds. -/
def TotpParams.default : TotpParams := ⟨0, 6, 30⟩

structure AccountIdentityDraft where
  displayName : Text
  tags : List Text
  usernames : List Text
  urls : List Text
  notes : Text
  password : List UInt8
  totpSecret : List UInt8
  totpParams : TotpParams
  deriving Repr, DecidableEq

/-- `AccountIdentityDraft::validate_into_identity`. -/
def AccountIdentityDraft.validateIntoIdentity (tools : TextTools) (draft : AccountIdentityDraft)
    (createdAtMs : Int) (originatingDevice : DeviceId) : Except StoreError AccountIdentity := do
  let displayName ← Validate.displayName tools draft.displayName
  let tags ← Validate.tags tools draft.tags
  let usernames ← Validate.usernames tools draft.usernames
  let urls ← Validate.urls tools draft.urls
  let notes ← Validate.notes draft.notes
  Validate.password draft.password
  Validate.totpSecret draft.totpSecret
  Validate.totpParamsFor draft.totpSecret draft.totpParams
  return {
    displayName := encode displayName
    tags := tags.map encode
    notes := encode notes
    urls := urls.map encode
    usernames := usernames.map encode
    passwordHistory := [⟨draft.password, createdAtMs, originatingDevice⟩]
    totpSecret := draft.totpSecret
    totpParams := if draft.totpSecret.isEmpty then .default else draft.totpParams }

structure AccountIdentityPatch where
  displayName : Option Text := none
  tags : Option (List Text) := none
  usernames : Option (List Text) := none
  urls : Option (List Text) := none
  notes : Option Text := none
  password : Option (List UInt8) := none
  /-- Nothing, a cleared secret, or a new one. -/
  totpSecret : Option (Option (List UInt8)) := none
  totpParams : Option TotpParams := none
  deriving Repr, DecidableEq

/-- Validate a field if it is there. -/
def validateField {α β : Type} (validate : α → Except StoreError β) :
    Option α → Except StoreError (Option β)
  | none => .ok none
  | some input => do
      let valid ← validate input
      return some valid

/-- The TOTP slot after a patch. -/
def AccountIdentityPatch.totp (patch : AccountIdentityPatch) (current : AccountIdentity) :
    List UInt8 × TotpParams :=
  match patch.totpSecret with
  | some (some bytes) => (bytes, patch.totpParams.getD .default)
  | some none => ([], .default)
  | none => (current.totpSecret, patch.totpParams.getD current.totpParams)

/-- `AccountIdentityPatch::apply`. -/
def AccountIdentityPatch.apply (tools : TextTools) (patch : AccountIdentityPatch)
    (appliedAtMs : Int) (appliedBy : DeviceId) (current : AccountIdentity) :
    Except StoreError AccountIdentity := do
  let displayName ← validateField (Validate.displayName tools) patch.displayName
  let tags ← validateField (Validate.tags tools) patch.tags
  let usernames ← validateField (Validate.usernames tools) patch.usernames
  let urls ← validateField (Validate.urls tools) patch.urls
  let notes ← validateField Validate.notes patch.notes
  let _ ← validateField Validate.password patch.password
  let _ ← validateField Validate.totpSecret patch.totpSecret.join
  let _ ← validateField Validate.totpParams patch.totpParams
  return {
    displayName := (displayName.map encode).getD current.displayName
    tags := (tags.map (List.map encode)).getD current.tags
    notes := (notes.map encode).getD current.notes
    urls := (urls.map (List.map encode)).getD current.urls
    usernames := (usernames.map (List.map encode)).getD current.usernames
    passwordHistory :=
      (patch.password.map fun password => ⟨password, appliedAtMs, appliedBy⟩).toList ++
        current.passwordHistory
    totpSecret := (patch.totp current).1
    totpParams := (patch.totp current).2 }

/-- The flat record of the legacy writes. -/
structure AccountSnapshot where
  displayName : List UInt8
  username : List UInt8
  password : List UInt8
  url : List UInt8
  notes : List UInt8
  totpSecret : List UInt8
  deriving Repr, DecidableEq

/-- `hydrate_v0_to_v1`: what a legacy payload decodes to. -/
def hydrateV0ToV1 (snapshot : AccountSnapshot) : AccountIdentity :=
  { displayName := snapshot.displayName
    tags := []
    notes := snapshot.notes
    urls := if snapshot.url.isEmpty then [] else [snapshot.url]
    usernames := if snapshot.username.isEmpty then [] else [snapshot.username]
    passwordHistory := if snapshot.password.isEmpty then [] else [⟨snapshot.password, 0, ⟨0⟩⟩]
    totpSecret := snapshot.totpSecret
    totpParams := .default }

/-! ## A second pass

Restoring an account validates its stored texts again.  A text comes through unchanged when
the validator returns it as it is. -/

/-- What the validator returns for a text, it returns for that text again. -/
def StableUnder (validate : Text → Except StoreError Text) (raw : Text) : Prop :=
  match validate raw with
  | .ok text => validate text = .ok text
  | .error _ => True

instance StableUnder.decidable (validate : Text → Except StoreError Text) (raw : Text) :
    Decidable (StableUnder validate raw) := by
  unfold StableUnder
  exact match validate raw with
    | .ok text => inferInstanceAs (Decidable (validate text = .ok text))
    | .error _ => .isTrue trivial

theorem StableUnder.again {validate : Text → Except StoreError Text} {raw text : Text}
    (stable : StableUnder validate raw) (valid : validate raw = .ok text) :
    validate text = .ok text := by
  rw [StableUnder, valid] at stable
  exact stable

@[simp] theorem trim_trim (text : Text) : trim (trim text) = trim text := by
  have front : (trim text).dropWhile isWhitespace = trim text := by
    apply List.dropWhile_eq_self_iff.mpr
    intro nonempty
    have isPrefix := List.rdropWhile_prefix isWhitespace (text.dropWhile isWhitespace)
    have longer : 0 < (text.dropWhile isWhitespace).length :=
      nonempty.trans_le isPrefix.length_le
    have same : (trim text)[0] = (text.dropWhile isWhitespace)[0] := isPrefix.getElem nonempty
    rw [same]
    exact List.dropWhile_get_zero_not isWhitespace text longer
  conv_lhs => rw [trim, front]
  exact List.rdropWhile_idempotent isWhitespace _

section

variable {tools : TextTools} {raw text : Text} {raws texts : List Text}

theorem Validate.displayName_stable (valid : Validate.displayName tools raw = .ok text) :
    Validate.displayName tools text = .ok text := by
  have normal : text = trim (tools.nfc raw) := by
    simp only [Validate.displayName] at valid
    split at valid
    · cases valid
    split at valid
    · cases valid
    split at valid
    · cases valid
    · exact (Except.ok.inj valid).symm
  have same : trim (tools.nfc text) = trim (tools.nfc raw) := by
    rw [normal, tools.nfc_trim_nfc, trim_trim]
  simp only [Validate.displayName, same] at valid ⊢
  exact valid

theorem Validate.username_stable (valid : Validate.username tools raw = .ok text) :
    Validate.username tools text = .ok text := by
  simp only [Validate.username] at valid
  split at valid
  · cases valid
  next nonempty =>
  split at valid
  · cases valid
  next short =>
  split at valid
  · cases valid
  next clean =>
  obtain rfl := Except.ok.inj valid
  have kept : tools.nfc (trim raw) ≠ [] := by
    apply tools.nfc_ne_nil
    simpa using nonempty
  unfold Validate.username
  simp only [tools.trim_nfc_trim, tools.nfc_nfc, List.isEmpty_iff, kept, short, clean, if_false,
    Bool.false_eq_true]

/-- A loop over texts that each come through comes through. -/
theorem mapM_stable {validate : Text → Except StoreError Text}
    (stable : ∀ raw ∈ raws, StableUnder validate raw) (valid : raws.mapM validate = .ok texts) :
    texts.mapM validate = .ok texts := by
  have again : ∀ text ∈ texts, validate text = .ok text := by
    intro text member
    obtain ⟨raw, listed, made⟩ := Fallible.step_of_mem_mapM valid member
    exact (stable raw listed).again made
  rw [Fallible.mapM_eq_ok_map id again, List.map_id]

theorem Validate.usernames_stable (valid : Validate.usernames tools raws = .ok texts) :
    Validate.usernames tools texts = .ok texts := by
  unfold Validate.usernames at valid
  split at valid
  · cases valid
  next nonempty =>
  split at valid
  · cases valid
  next few =>
  have sameLength := Fallible.length_of_mapM valid
  have stable : ∀ raw ∈ raws, StableUnder (Validate.username tools) raw := by
    intro raw _
    unfold StableUnder
    split
    · next text made => exact Validate.username_stable made
    · trivial
  have kept : ¬ texts.isEmpty = true := by
    rw [List.isEmpty_iff_length_eq_zero] at nonempty ⊢
    omega
  have fewTexts : ¬ 16 < texts.length := by omega
  rw [Validate.usernames, if_neg kept, if_neg fewTexts]
  exact mapM_stable stable valid

theorem Validate.urls_stable (stable : ∀ raw ∈ raws, StableUnder (Validate.url tools) raw)
    (valid : Validate.urls tools raws = .ok texts) : Validate.urls tools texts = .ok texts := by
  unfold Validate.urls at valid
  split at valid
  · cases valid
  next few =>
  have sameLength := Fallible.length_of_mapM valid
  have fewTexts : ¬ 32 < texts.length := by omega
  rw [Validate.urls, if_neg fewTexts]
  exact mapM_stable stable valid

/-- Besides the length of what is stored, nothing can make a URL fail a second time. -/
theorem Validate.url_stable_iff (valid : Validate.url tools raw = .ok text) :
    Validate.url tools text = .ok text ↔ text.length ≤ 2048 := by
  unfold Validate.url at valid
  split at valid
  · cases valid
  split at valid
  · next serialised parsed =>
      obtain rfl := Except.ok.inj valid
      have again := tools.parseUrl_parseUrl _ _ parsed
      simp only [Validate.url, again]
      split <;> simp <;> omega
  · cases valid

theorem Validate.notes_stable (valid : Validate.notes raw = .ok text) :
    Validate.notes text = .ok text := by
  have same : text = raw := by
    unfold Validate.notes at valid
    split at valid
    · cases valid
    · exact (Except.ok.inj valid).symm
  rwa [same] at valid ⊢

/-- What the tag loop returns: no repetition, and each tag from the start or made of an
input. -/
theorem Validate.collectTags_eq_ok {out : List Text} (fresh : out.Nodup)
    (valid : Validate.collectTags tools out raws = .ok texts) :
    texts.Nodup ∧ texts.length ≤ out.length + raws.length ∧
      ∀ text ∈ texts, text ∈ out ∨ ∃ raw ∈ raws, Validate.tag tools raw = .ok text := by
  induction raws generalizing out with
  | nil =>
      obtain rfl := Except.ok.inj valid
      exact ⟨fresh, by simp, fun text member => .inl member⟩
  | cons raw raws ih =>
      obtain ⟨lower, made, rest⟩ := Fallible.bind_eq_ok_iff.mp valid
      by_cases known : lower ∈ out
      · rw [if_pos known] at rest
        obtain ⟨unique, short, origin⟩ := ih fresh rest
        refine ⟨unique, by rw [List.length_cons]; omega, ?_⟩
        intro text member
        apply (origin text member).imp id
        rintro ⟨other, listed, madeOther⟩
        exact ⟨other, List.mem_cons_of_mem _ listed, madeOther⟩
      · rw [if_neg known] at rest
        have fresh' : (out ++ [lower]).Nodup := by
          rw [List.nodup_append]
          exact ⟨fresh, List.nodup_singleton _, by rintro a inOut b inNew rfl; simp_all⟩
        obtain ⟨unique, short, origin⟩ := ih fresh' rest
        have longer : (out ++ [lower]).length = out.length + 1 := by simp
        refine ⟨unique, by rw [List.length_cons]; omega, ?_⟩
        intro text member
        rcases origin text member with old | ⟨other, listed, madeOther⟩
        · rcases List.mem_append.mp old with inOut | isNew
          · exact .inl inOut
          · obtain rfl := List.mem_singleton.mp isNew
            exact .inr ⟨raw, List.mem_cons_self, made⟩
        · exact .inr ⟨other, List.mem_cons_of_mem _ listed, madeOther⟩

/-- The tag loop keeps tags that come through and do not repeat. -/
theorem Validate.collectTags_stable {out : List Text} (unique : (out ++ texts).Nodup)
    (stable : ∀ text ∈ texts, Validate.tag tools text = .ok text) :
    Validate.collectTags tools out texts = .ok (out ++ texts) := by
  induction texts generalizing out with
  | nil => rw [Validate.collectTags, List.append_nil]
  | cons text texts ih =>
      have split : out ++ text :: texts = (out ++ [text]) ++ texts := by simp
      have new : text ∉ out := by
        intro old
        rw [List.nodup_append] at unique
        exact unique.2.2 text old text List.mem_cons_self rfl
      rw [Validate.collectTags, stable text List.mem_cons_self]
      simp only [bind, Except.bind, if_neg new]
      rw [split] at unique ⊢
      exact ih unique fun other member => stable other (List.mem_cons_of_mem _ member)

theorem Validate.tags_stable (stable : ∀ raw ∈ raws, StableUnder (Validate.tag tools) raw)
    (valid : Validate.tags tools raws = .ok texts) : Validate.tags tools texts = .ok texts := by
  unfold Validate.tags at valid
  split at valid
  · cases valid
  next few =>
  obtain ⟨unique, short, origin⟩ := Validate.collectTags_eq_ok List.nodup_nil valid
  have again : ∀ text ∈ texts, Validate.tag tools text = .ok text := by
    intro text member
    rcases origin text member with none | ⟨raw, listed, made⟩
    · cases none
    · exact (stable raw listed).again made
  have fewTexts : ¬ 32 < texts.length := by
    rw [List.length_nil] at short
    omega
  rw [Validate.tags, if_neg fewTexts]
  exact Validate.collectTags_stable (by simpa using unique) again

end

end Pangolin.Store
