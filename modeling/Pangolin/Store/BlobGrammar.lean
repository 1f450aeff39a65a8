import Pangolin.Store.Blob

/-!
# The grammar of revision payloads

What the decoders take, as a grammar over byte strings: headers, strings, lists and entries,
with the rooms that are asked for along them.  Each reader meets its part of the grammar, so
that what a decoder accepts and what it asks for can be told from the input.
-/

namespace Pangolin.Store.Blob

open Crypto Cbor Reading

namespace Format

variable (codec : StreamCodec)

def header : Grammar Header := .silent fun taken header => Head codec header taken

/-- A header of a kind, with a length. -/
def length (kind : Option Nat → Header) : Grammar Nat :=
  (header codec).followed fun found => .given fun length => found = kind (some length)

/-- So many bytes, in a buffer of that length. -/
def exact (length : Nat) : Grammar (List UInt8) :=
  (Grammar.room length 1).followed fun _ =>
    .silent fun taken bytes => taken = bytes ∧ bytes.length = length

/-- A definite string of a kind. -/
def string (kind : Option Nat → Header) : Grammar (List UInt8) :=
  (length codec kind).followed exact

def key : Grammar String :=
  (length codec .text).followed fun length => (exact length).followed fun bytes =>
    .given fun key => ∃ text, Utf8.decode? bytes = some text ∧ key = String.ofList text

/-- A definite array, in a vector for elements of a size. -/
def array {α : Type} (size : Nat) (item : Grammar α) : Grammar (List α) :=
  (length codec .array).followed fun count =>
    (Grammar.room count size).followed fun _ => .listed item count

def texts : Grammar (List (List UInt8)) := array codec sizeOfSecretBytes (string codec .text)

/-- A header that is this one. -/
def expected (wanted : Header) : Grammar Unit :=
  (header codec).followed fun found => .given fun _ => found = wanted

/-- A signed number of 64 bits. -/
def setAtMs : Grammar Int :=
  (header codec).followed fun found => .given fun value =>
    (∃ number, found = .positive number ∧ number < 2 ^ 63 ∧ value = number) ∨
      ∃ number, found = .negative number ∧ number < 2 ^ 63 ∧ value = -1 - (number : Int)

/-- Thirty-two bytes. -/
def array32 : Grammar Nat :=
  (string codec .bytes).followed fun bytes =>
    .given fun id => bytes.length = 32 ∧ id = ofBytes bytes

def passwordEntry : Grammar PasswordEntry :=
  (expected codec (.array (some 3))).followed fun _ =>
    (string codec .bytes).followed fun password =>
      (setAtMs codec).followed fun setAtMs =>
        (array32 codec).followed fun device => .only ⟨password, setAtMs, ⟨device⟩⟩

def passwordHistory : Grammar (List PasswordEntry) :=
  array codec sizeOfPasswordEntry (passwordEntry codec)

def positive : Grammar Nat :=
  (header codec).followed fun found => .given fun value => found = .positive value

def below (bound : Nat) : Grammar Nat :=
  (positive codec).followed fun value => .given fun found => value < bound ∧ found = value

/-- A key after the one before it. -/
def inOrder (after : String → String → Bool) (last : Option String) (key : String) :
    Grammar Unit :=
  .given fun _ => ∀ prev ∈ last, after prev key = true

/-- The value of a known key. -/
def known {φ α : Type} (value : φ → Grammar α) : Option φ → Grammar α
  | some field => value field
  | none => .never

def found {α : Type} (field : Option α) : Grammar α := .given fun value => field = some value

def totpValue (fields : TotpFields) : TotpField → Grammar TotpFields
  | .algorithm =>
      (below codec (2 ^ 8)).followed fun value =>
        (Grammar.given fun algorithm => value ≤ 2 ∧ algorithm = value).followed fun algorithm =>
          .only { fields with algorithm := some algorithm }
  | .digits =>
      (below codec (2 ^ 8)).followed fun digits => .only { fields with digits := some digits }
  | .period =>
      (below codec (2 ^ 32)).followed fun period => .only { fields with period := some period }
  | .secret =>
      (string codec .bytes).followed fun secret => .only { fields with secret := some secret }

def totpEntry (fields : TotpFields) : Grammar TotpFields :=
  (key codec).followed fun key =>
    (inOrder (fun prev key => prev < key) fields.lastKey key).followed fun _ =>
      (known (totpValue codec fields) (fieldOf TotpField.all TotpField.name key)).followed
        fun next => .only { next with lastKey := some key }

def totpMap : Grammar (List UInt8 × TotpParams) :=
  (length codec .map).followed fun count =>
    (Grammar.rounds (totpEntry codec) count {}).followed fun fields =>
      (found fields.secret).followed fun secret =>
        (found fields.algorithm).followed fun algorithm =>
          (found fields.digits).followed fun digits =>
            (found fields.period).followed fun period => .only (secret, ⟨algorithm, digits, period⟩)

/-- A version that this build knows. -/
def payloadVersion : Grammar Nat :=
  (below codec (2 ^ 8)).followed fun version =>
    .given fun found => version ≤ revisionSchemaVersionMax ∧ found = version

def identityValue (fields : IdentityFields) : IdentityField → Grammar IdentityFields
  | .displayName =>
      (string codec .text).followed fun text => .only { fields with displayName := some text }
  | .notes =>
      (string codec .text).followed fun text => .only { fields with notes := some text }
  | .passwordHistory =>
      (passwordHistory codec).followed fun history =>
        .only { fields with passwordHistory := some history }
  | .payloadVersion =>
      (payloadVersion codec).followed fun version =>
        .only { fields with payloadVersion := some version }
  | .tags => (texts codec).followed fun tags => .only { fields with tags := some tags }
  | .totpSecret =>
      if isNested fields then .never
      else (string codec .bytes).followed fun secret =>
        .only { fields with totpSecret := some secret }
  | .totp =>
      if isNested fields then (totpMap codec).followed fun totp =>
        .only { fields with totpSecret := some totp.1, totpParams := some totp.2 }
      else .never
  | .urls => (texts codec).followed fun urls => .only { fields with urls := some urls }
  | .usernames =>
      (texts codec).followed fun usernames => .only { fields with usernames := some usernames }

def identityEntry (fields : IdentityFields) : Grammar IdentityFields :=
  (key codec).followed fun key =>
    (inOrder (fun prev key => prev < key) fields.lastKey key).followed fun _ =>
      (known (identityValue codec fields)
          (fieldOf IdentityField.all IdentityField.name key)).followed
        fun next => .only { next with lastKey := some key }

/-- The fields of an identity, all there, with parameters that are valid in a nested body. -/
def finished (fields : IdentityFields) : Grammar AccountIdentity :=
  (found fields.displayName).followed fun displayName =>
    (found fields.notes).followed fun notes =>
      (found fields.passwordHistory).followed fun passwordHistory =>
        (found fields.payloadVersion).followed fun payloadVersion =>
          (found fields.tags).followed fun tags =>
            (found fields.totpSecret).followed fun totpSecret =>
              (found fields.urls).followed fun urls =>
                (found fields.usernames).followed fun usernames =>
                  let totpParams := fields.totpParams.getD .default
                  (Grammar.given fun _ : Unit => payloadVersionV2 ≤ payloadVersion →
                      Validate.totpParams totpParams = .ok ()).followed fun _ =>
                    .only ⟨displayName, tags, notes, urls, usernames, passwordHistory, totpSecret,
                      totpParams⟩

/-- Eight entries. -/
def identity : Grammar DecodedIdentityPayload :=
  (Grammar.rounds (identityEntry codec) 8 {}).followed fun fields =>
    (finished fields).followed fun identity => .only (.live identity)

def snapshotEntry (fields : SnapshotFields) : Grammar SnapshotFields :=
  (key codec).followed fun key =>
    (inOrder isAfterInCanonicalOrder fields.lastKey key).followed fun _ =>
      (string codec .bytes).followed fun value =>
        known (fun field => .only (fields.set field value key))
          (fieldOf SnapshotField.all SnapshotField.name key)

/-- The fields of a snapshot, all there. -/
def finishedSnapshot (fields : SnapshotFields) : Grammar AccountSnapshot :=
  (found (fields.values .displayName)).followed fun displayName =>
    (found (fields.values .username)).followed fun username =>
      (found (fields.values .password)).followed fun password =>
        (found (fields.values .url)).followed fun url =>
          (found (fields.values .notes)).followed fun notes =>
            (found (fields.values .totpSecret)).followed fun totpSecret =>
              .only ⟨displayName, username, password, url, notes, totpSecret⟩

/-- Six entries. -/
def snapshot : Grammar AccountSnapshot :=
  (Grammar.rounds (snapshotEntry codec) 6 {}).followed finishedSnapshot

/-- A key that is this one. -/
def keyIs (expected : String) : Grammar Unit :=
  (key codec).followed fun key => .given fun _ => key = expected

/-- One entry. -/
def tombstoneLegacy : Grammar DecodedPayload :=
  (keyIs codec "deleted").followed fun _ =>
    (expected codec (.simple 21)).followed fun _ => .only (.tombstone .legacy)

/-- Three entries. -/
def tombstoneWidened : Grammar DecodedPayload :=
  (keyIs codec "account_id").followed fun _ =>
    (array32 codec).followed fun accountId =>
      (keyIs codec "deleted").followed fun _ =>
        (expected codec (.simple 21)).followed fun _ =>
          (keyIs codec "tombstoned_at_ms").followed fun _ =>
            (positive codec).followed fun tombstonedAtMs =>
              .only (.tombstone ⟨true, ⟨accountId⟩, tombstonedAtMs⟩)

/-- The entries of a payload for `decode_payload`. -/
def payloadBody (entries : Nat) : Grammar DecodedPayload :=
  if entries = 1 then tombstoneLegacy codec
  else if entries = 3 then tombstoneWidened codec
  else if entries = 6 then (snapshot codec).followed fun snapshot => .only (.live snapshot)
  else .never

def payload : Grammar DecodedPayload := (length codec .map).followed (payloadBody codec)

/-- A tombstone is passed on. -/
def passed (payload : DecodedPayload) : Grammar DecodedIdentityPayload :=
  .given fun found => ∃ tombstone, payload = .tombstone tombstone ∧ found = .tombstone tombstone

/-- The entries of a payload for `decode_identity_payload`. -/
def identityBody (entries : Nat) : Grammar DecodedIdentityPayload :=
  if entries = 1 then (tombstoneLegacy codec).followed passed
  else if entries = 3 then (tombstoneWidened codec).followed passed
  else if entries = 6 then
    (snapshot codec).followed fun snapshot => .only (.live (hydrateV0ToV1 snapshot))
  else if entries = 8 then identity codec
  else .never

def identityPayload : Grammar DecodedIdentityPayload :=
  (length codec .map).followed (identityBody codec)

end Format

/-! ## The readers meet the grammar -/

section

variable (codec : StreamCodec)

theorem meets_pullHeader : Meets (pullHeader codec) (Format.header codec) := by
  apply Meets.take
  intro bytes found rest
  constructor
  · intro read
    cases pulled : codec.pull bytes with
    | none =>
        rw [pulled] at read
        cases read
    | some result =>
        rw [pulled] at read
        obtain rfl := Except.ok.inj read
        exact Head.of_pull pulled
  · rintro ⟨taken, rfl, head⟩
    rw [head.pulls rest]

/-- A header that is looked at is one of the kind looked for. -/
theorem meets_pullLength {kind : Option Nat → Header} {lengthOf : Header → Option (Option Nat)}
    (looks : ∀ header length, lengthOf header = some length ↔ header = kind length)
    (indefinite expected : String) :
    Meets (pullLength codec lengthOf indefinite expected) (Format.length codec kind) := by
  apply (meets_pullHeader codec).bind
  intro found
  apply Meets.given
  cases known : lengthOf found with
  | none =>
      refine .inr ⟨_, rfl, ?_⟩
      intro length same
      rw [(looks found (some length)).mpr same] at known
      cases known
  | some length =>
      have same := (looks found length).mp known
      cases length with
      | none =>
          refine .inr ⟨_, rfl, ?_⟩
          intro length same
          rw [(looks found (some length)).mpr same] at known
          cases known
      | some length =>
          refine .inl ⟨length, rfl, ?_⟩
          intro other
          constructor
          · intro same
            rw [(looks found (some other)).mpr same] at known
            exact Option.some.inj (Option.some.inj known)
          · rintro rfl
            exact same

theorem textLength_eq_some_iff (header : Header) (length : Option Nat) :
    textLength header = some length ↔ header = .text length := by
  cases header <;> simp [textLength]

theorem bytesLength_eq_some_iff (header : Header) (length : Option Nat) :
    bytesLength header = some length ↔ header = .bytes length := by
  cases header <;> simp [bytesLength]

theorem arrayLength_eq_some_iff (header : Header) (length : Option Nat) :
    arrayLength header = some length ↔ header = .array length := by
  cases header <;> simp [arrayLength]

theorem mapLength_eq_some_iff (header : Header) (length : Option Nat) :
    mapLength header = some length ↔ header = .map length := by
  cases header <;> simp [mapLength]

theorem meets_readExact (truncated : String) (length : Nat) :
    Meets (readExact truncated length) (Format.exact length) := by
  apply (Meets.reserve length 1).bind
  intro _
  apply Meets.take
  intro bytes value rest
  constructor
  · intro read
    obtain ⟨split, sized⟩ := Reader.exactly_eq_ok read
    exact ⟨value, split, rfl, sized⟩
  · rintro ⟨taken, rfl, rfl, rfl⟩
    exact Reads.exactly _ taken rest

theorem meets_pullString {kind : Option Nat → Header} {lengthOf : Header → Option (Option Nat)}
    (looks : ∀ header length, lengthOf header = some length ↔ header = kind length)
    (indefinite expected truncated : String) :
    Meets (do
        let length ← pullLength codec lengthOf indefinite expected
        readExact truncated length)
      (Format.string codec kind) :=
  (meets_pullLength codec looks indefinite expected).bind (meets_readExact truncated)

theorem meets_pullBytes : Meets (pullBytes codec) (Format.string codec .bytes) :=
  meets_pullString codec bytesLength_eq_some_iff _ _ _

theorem meets_pullTextAsBytes : Meets (pullTextAsBytes codec) (Format.string codec .text) :=
  meets_pullString codec textLength_eq_some_iff _ _ _

theorem meets_pullText : Meets (pullText codec) (Format.key codec) := by
  apply (meets_pullLength codec textLength_eq_some_iff _ _).bind
  intro length
  apply (meets_readExact _ length).bind
  intro bytes
  apply Meets.given
  unfold fromUtf8
  cases decoded : Utf8.decode? bytes with
  | none => exact .inr ⟨_, rfl, by simp⟩
  | some text => exact .inl ⟨_, rfl, by simp⟩

theorem meets_array {α : Type} {item : Dec α} {grammar : Grammar α} (each : Meets item grammar)
    (size : Nat) (indefinite expected : String) :
    Meets (do
        let count ← pullLength codec arrayLength indefinite expected
        .reserve count size
        .collect item count)
      (Format.array codec size grammar) := by
  apply (meets_pullLength codec arrayLength_eq_some_iff _ _).bind
  intro count
  apply (Meets.reserve count size).bind
  intro _
  exact each.collect count

theorem meets_pullTextArray : Meets (pullTextArray codec) (Format.texts codec) :=
  meets_array codec (meets_pullTextAsBytes codec) _ _ _

theorem meets_expectTriple :
    Meets (expectTriple codec) (Format.expected codec (.array (some 3))) := by
  apply (meets_pullHeader codec).bind
  intro found
  apply Meets.given
  split
  · next same => exact .inl ⟨(), rfl, fun _ => iff_of_true same rfl⟩
  · next different => exact .inr ⟨_, rfl, fun _ => different⟩

theorem meets_pullSetAtMs : Meets (pullSetAtMs codec) (Format.setAtMs codec) := by
  apply (meets_pullHeader codec).bind
  intro found
  apply Meets.given
  cases found with
  | positive value =>
      by_cases small : value < 2 ^ 63
      · exact .inl ⟨value, if_pos small, by simpa using small⟩
      · exact .inr ⟨_, if_neg small, by simpa using small⟩
  | negative value =>
      by_cases small : value < 2 ^ 63
      · exact .inl ⟨-1 - (value : Int), if_pos small, by simpa using small⟩
      · exact .inr ⟨_, if_neg small, by simpa using small⟩
  | float _ | simple _ | tag _ | breakCode | bytes _ | text _ | array _ | map _ =>
      exact .inr ⟨_, rfl, by simp⟩

theorem meets_pullArray32 (wrongLength : String) :
    Meets (pullArray32 codec wrongLength) (Format.array32 codec) :=
  (meets_pullBytes codec).bind fun _ => .check _ _

theorem meets_pullPasswordEntry :
    Meets (pullPasswordEntry codec) (Format.passwordEntry codec) := by
  apply (meets_expectTriple codec).bind
  intro _
  apply (meets_pullBytes codec).bind
  intro password
  apply (meets_pullSetAtMs codec).bind
  intro setAtMs
  apply (meets_pullArray32 codec _).bind
  intro device
  exact .pure _

theorem meets_pullPasswordHistory :
    Meets (pullPasswordHistory codec) (Format.passwordHistory codec) :=
  meets_array codec (meets_pullPasswordEntry codec) _ _ _

theorem meets_pullPositive (message : String) :
    Meets (pullPositive codec message) (Format.positive codec) := by
  apply (meets_pullHeader codec).bind
  intro found
  apply Meets.given
  cases found with
  | positive value => exact .inl ⟨value, rfl, by simp [eq_comm]⟩
  | negative _ | float _ | simple _ | tag _ | breakCode | bytes _ | text _ | array _ | map _ =>
      exact .inr ⟨_, rfl, by simp⟩

theorem meets_pullBelow (bound : Nat) (message outOfRange : String) :
    Meets (pullBelow codec bound message outOfRange) (Format.below codec bound) :=
  (meets_pullPositive codec message).bind fun _ => .check _ _

theorem meets_checkOrder (after : String → String → Bool) (message : String)
    (last : Option String) (key : String) :
    Meets (checkOrder after message last key) (Format.inOrder after last key) := by
  apply Meets.given
  cases last with
  | none => exact .inl ⟨(), rfl, by simp⟩
  | some prev =>
      by_cases ordered : after prev key = true
      · exact .inl ⟨(), if_pos ordered, by simp [ordered]⟩
      · exact .inr ⟨_, if_neg ordered, by simp [ordered]⟩

theorem meets_pullArm {φ α : Type} {value : φ → Dec α} {grammar : φ → Grammar α}
    (each : ∀ field, Meets (value field) (grammar field)) (unknown key : String)
    (field : Option φ) :
    Meets (pullArm unknown key value field) (Format.known grammar field) := by
  cases field with
  | none => exact .refuse _
  | some field => exact each field

theorem meets_required {α : Type} (message : String) (field : Option α) :
    Meets (required message field) (Format.found field) := by
  apply Meets.given
  cases field with
  | none => exact .inr ⟨_, rfl, by simp⟩
  | some value => exact .inl ⟨value, rfl, by simp [eq_comm]⟩

theorem meets_pullTotpValue (fields : TotpFields) (field : TotpField) :
    Meets (pullTotpValue codec fields field) (Format.totpValue codec fields field) := by
  cases field with
  | algorithm =>
      apply (meets_pullBelow codec _ _ _).bind
      intro value
      apply (Meets.check value _).bind
      intro algorithm
      exact .pure _
  | digits => exact (meets_pullBelow codec _ _ _).bind fun _ => .pure _
  | period => exact (meets_pullBelow codec _ _ _).bind fun _ => .pure _
  | secret => exact (meets_pullBytes codec).bind fun _ => .pure _

theorem meets_pullTotpEntry (fields : TotpFields) :
    Meets (pullTotpEntry codec fields) (Format.totpEntry codec fields) := by
  apply (meets_pullText codec).bind
  intro key
  apply (meets_checkOrder _ _ _ _).bind
  intro _
  apply (meets_pullArm (meets_pullTotpValue codec fields) _ _ _).bind
  intro next
  exact .pure _

theorem meets_pullTotpMap : Meets (pullTotpMap codec) (Format.totpMap codec) := by
  apply (meets_pullLength codec mapLength_eq_some_iff _ _).bind
  intro count
  apply (Meets.rounds (meets_pullTotpEntry codec) count {}).bind
  intro fields
  apply (meets_required _ _).bind
  intro secret
  apply (meets_required _ _).bind
  intro algorithm
  apply (meets_required _ _).bind
  intro digits
  apply (meets_required _ _).bind
  intro period
  exact .pure _

theorem meets_pullPayloadVersion :
    Meets (pullPayloadVersion codec) (Format.payloadVersion codec) := by
  apply (meets_pullBelow codec _ _ _).bind
  intro version
  apply Meets.given
  by_cases newer : revisionSchemaVersionMax < version
  · exact .inr ⟨_, if_pos newer, fun found both => absurd both.1 (Nat.not_le.mpr newer)⟩
  · exact .inl ⟨version, if_neg newer, fun found => and_iff_right (Nat.not_lt.mp newer)⟩

theorem meets_pullIdentityValue (fields : IdentityFields) (field : IdentityField) :
    Meets (pullIdentityValue codec fields field) (Format.identityValue codec fields field) := by
  cases field with
  | displayName => exact (meets_pullTextAsBytes codec).bind fun _ => .pure _
  | notes => exact (meets_pullTextAsBytes codec).bind fun _ => .pure _
  | passwordHistory => exact (meets_pullPasswordHistory codec).bind fun _ => .pure _
  | payloadVersion => exact (meets_pullPayloadVersion codec).bind fun _ => .pure _
  | tags => exact (meets_pullTextArray codec).bind fun _ => .pure _
  | totpSecret =>
      simp only [pullIdentityValue, Format.identityValue]
      split
      · exact .refuse _
      · exact (meets_pullBytes codec).bind fun _ => .pure _
  | totp =>
      simp only [pullIdentityValue, Format.identityValue]
      split
      · exact (meets_pullTotpMap codec).bind fun _ => .pure _
      · exact .refuse _
  | urls => exact (meets_pullTextArray codec).bind fun _ => .pure _
  | usernames => exact (meets_pullTextArray codec).bind fun _ => .pure _

theorem meets_pullIdentityEntry (fields : IdentityFields) :
    Meets (pullIdentityEntry codec fields) (Format.identityEntry codec fields) := by
  apply (meets_pullText codec).bind
  intro key
  apply (meets_checkOrder _ _ _ _).bind
  intro _
  apply (meets_pullArm (meets_pullIdentityValue codec fields) _ _ _).bind
  intro next
  exact .pure _

theorem meets_checkTotpParams (payloadVersion : Nat) (params : TotpParams) :
    Meets (checkTotpParams payloadVersion params)
      (.given fun _ => payloadVersionV2 ≤ payloadVersion → Validate.totpParams params = .ok ()) := by
  apply Meets.given
  unfold checkTotpParams
  by_cases nested : payloadVersionV2 ≤ payloadVersion
  · rw [if_pos nested]
    cases valid : Validate.totpParams params with
    | error _ => exact .inr ⟨_, rfl, by simp [nested]⟩
    | ok _ => exact .inl ⟨(), rfl, by simp⟩
  · rw [if_neg nested]
    exact .inl ⟨(), rfl, by simp [nested]⟩

theorem meets_finishIdentity (fields : IdentityFields) :
    Meets (finishIdentity fields) (Format.finished fields) := by
  apply (meets_required _ _).bind
  intro displayName
  apply (meets_required _ _).bind
  intro notes
  apply (meets_required _ _).bind
  intro passwordHistory
  apply (meets_required _ _).bind
  intro payloadVersion
  apply (meets_required _ _).bind
  intro tags
  apply (meets_required _ _).bind
  intro totpSecret
  apply (meets_required _ _).bind
  intro urls
  apply (meets_required _ _).bind
  intro usernames
  apply (meets_checkTotpParams _ _).bind
  intro _
  exact .pure _

theorem meets_decodeV1OrV2LiveInline :
    Meets (decodeV1OrV2LiveInline codec) (Format.identity codec) := by
  apply (Meets.rounds (meets_pullIdentityEntry codec) 8 {}).bind
  intro fields
  exact (meets_finishIdentity fields).bind fun _ => .pure _

theorem meets_pullSnapshotEntry (unknown : String) (fields : SnapshotFields) :
    Meets (pullSnapshotEntry codec unknown fields) (Format.snapshotEntry codec fields) := by
  apply (meets_pullText codec).bind
  intro key
  apply (meets_checkOrder _ _ _ _).bind
  intro _
  apply (meets_pullBytes codec).bind
  intro value
  exact meets_pullArm (fun _ => .pure _) _ _ _

theorem meets_finishSnapshot (fields : SnapshotFields) :
    Meets (finishSnapshot fields) (Format.finishedSnapshot fields) := by
  apply (meets_required _ _).bind
  intro displayName
  apply (meets_required _ _).bind
  intro username
  apply (meets_required _ _).bind
  intro password
  apply (meets_required _ _).bind
  intro url
  apply (meets_required _ _).bind
  intro notes
  apply (meets_required _ _).bind
  intro totpSecret
  exact .pure _

theorem meets_decodeV0LiveInline (unknown : String) :
    Meets (decodeV0LiveInline codec unknown) (Format.snapshot codec) :=
  (Meets.rounds (meets_pullSnapshotEntry codec unknown) 6 {}).bind meets_finishSnapshot

theorem meets_expectKey (message expected : String) :
    Meets (expectKey codec message expected) (Format.keyIs codec expected) := by
  apply (meets_pullText codec).bind
  intro key
  apply Meets.given
  split
  · next same => exact .inl ⟨(), rfl, fun _ => iff_of_true same rfl⟩
  · next different => exact .inr ⟨_, rfl, fun _ => different⟩

theorem meets_expectTrue (message : String) :
    Meets (expectTrue codec message) (Format.expected codec (.simple 21)) := by
  apply (meets_pullHeader codec).bind
  intro found
  apply Meets.given
  split
  · next same => exact .inl ⟨(), rfl, fun _ => iff_of_true same rfl⟩
  · next different => exact .inr ⟨_, rfl, fun _ => different⟩

theorem meets_decodeTombstoneLegacy :
    Meets (decodeTombstoneLegacy codec) (Format.tombstoneLegacy codec) := by
  apply (meets_expectKey codec _ _).bind
  intro _
  exact (meets_expectTrue codec _).bind fun _ => .pure _

theorem meets_decodeTombstoneWidened :
    Meets (decodeTombstoneWidened codec) (Format.tombstoneWidened codec) := by
  apply (meets_expectKey codec _ _).bind
  intro _
  apply (meets_pullArray32 codec _).bind
  intro accountId
  apply (meets_expectKey codec _ _).bind
  intro _
  apply (meets_expectTrue codec _).bind
  intro _
  apply (meets_expectKey codec _ _).bind
  intro _
  apply (meets_pullPositive codec _).bind
  intro tombstonedAtMs
  exact .pure _

theorem meets_passTombstone (message : String) (payload : DecodedPayload) :
    Meets (passTombstone message payload) (Format.passed payload) := by
  apply Meets.given
  cases payload with
  | live snapshot => exact .inr ⟨_, rfl, by simp⟩
  | tombstone payload => exact .inl ⟨_, rfl, by simp⟩

theorem meets_payloadReader : Meets (payloadReader codec) (Format.payload codec) := by
  apply (meets_pullLength codec mapLength_eq_some_iff _ _).bind
  intro entries
  unfold payloadOf Format.payloadBody
  split
  · exact meets_decodeTombstoneLegacy codec
  split
  · exact meets_decodeTombstoneWidened codec
  split
  · exact (meets_decodeV0LiveInline codec _).bind fun _ => .pure _
  · exact .refuse _

theorem meets_identityPayloadReader :
    Meets (identityPayloadReader codec) (Format.identityPayload codec) := by
  apply (meets_pullLength codec mapLength_eq_some_iff _ _).bind
  intro entries
  unfold identityPayloadOf Format.identityBody
  split
  · exact (meets_decodeTombstoneLegacy codec).bind (meets_passTombstone _)
  split
  · exact (meets_decodeTombstoneWidened codec).bind (meets_passTombstone _)
  split
  · exact (meets_decodeV0LiveInline codec _).bind fun _ => .pure _
  split
  · exact meets_decodeV1OrV2LiveInline codec
  split
  · exact .refuse _
  · exact .refuse _

/-! ## What is asked for -/

/-- Neither decoder asks for more than is left of the input, or for more than an address
space holds. -/
def WithinMeans (bytes : List UInt8) : Prop :=
  (payloadReader codec).Within bytes ∧ (identityPayloadReader codec).Within bytes

/-- The decoder for identities asks for whatever the other one does. -/
theorem asks_identityPayload {front : List UInt8} {capacity size : Nat}
    (asked : (Format.payload codec).Asks front capacity size) :
    (Format.identityPayload codec).Asks front capacity size := by
  rcases asked with asked | ⟨before, entries, after, split, entered, asked⟩
  · exact .inl asked
  · refine .inr ⟨before, entries, after, split, entered, ?_⟩
    unfold Format.payloadBody at asked
    unfold Format.identityBody
    split at asked
    · next one =>
        rw [if_pos one]
        exact .inl asked
    split at asked
    · next notOne three =>
        rw [if_neg notOne, if_pos three]
        exact .inl asked
    split at asked
    · next notOne notThree six =>
        rw [if_neg notOne, if_neg notThree, if_pos six]
        rcases asked with asked | ⟨_, _, _, _, _, impossible⟩
        · exact .inl asked
        · exact impossible.elim
    · exact asked.elim

/-- Both decoders are within their means exactly where each header of a string or a list
that the grammar comes to announces no more than what follows it. -/
theorem withinMeans_iff (bytes : List UInt8) :
    WithinMeans codec bytes ↔ (Format.identityPayload codec).Affords bytes := by
  constructor
  · rintro ⟨-, within⟩
    exact ((meets_identityPayloadReader codec).within_iff bytes).mp within
  · intro affords
    constructor
    · apply ((meets_payloadReader codec).within_iff bytes).mpr
      intro front rest capacity size split asked
      exact affords front rest capacity size split (asks_identityPayload codec asked)
    · exact ((meets_identityPayloadReader codec).within_iff bytes).mpr affords

end

/-- A map of one entry whose key claims to be as long as a text can be. -/
def boastfulKey : List UInt8 := [0xa1, 0x7b, 0xff, 0xff, 0xff, 0xff, 0xff, 0xff, 0xff, 0xff]

/-- The room for that key is asked for before a byte of it is read. -/
theorem boastfulKey_overflows :
    (payloadReader .rfc8949 boastfulKey).2 = .error .capacityOverflow ∧
      ¬ ∀ codec bytes, WithinMeans codec bytes := by
  have overflow : (payloadReader .rfc8949 boastfulKey).2 = .error .capacityOverflow := by
    decide +kernel
  refine ⟨overflow, ?_⟩
  intro always
  exact (always .rfc8949 boastfulKey).1.noOverflow overflow

end Pangolin.Store.Blob
