import Pangolin.Lib.CborItems
import Pangolin.Store.Archive
import Pangolin.Store.Hydrate
import Pangolin.Store.Identity

/-!
# Revision payloads

A revision seals a CBOR map: three entries for a deletion, six for an account of the first
schema, eight for one of the later ones, whose TOTP slot depends on the version they carry.
Two decoders read the map; the one for identities also reads the eight entries and brings
six of them up to date.  Each string and each list is given its room before it is read.
-/

namespace Pangolin.Store.Blob

open Crypto Cbor Reading

/-- `StoreError::Cbor` with what its text quotes, and the marker of a newer version. -/
inductive PayloadError where
  /-- The input ended or a header is not one of the format. -/
  | malformed
  | cbor (message : String)
  | keys (message : String) (quoted : List String)
  | header (message : String) (found : Header)
  | number (message : String) (found : Nat)
  | unsupportedRevisionSchemaVersion (found supported : Nat)
  deriving Repr, DecidableEq

structure TombstonePayload where
  deleted : Bool
  accountId : AccountId
  tombstonedAtMs : Nat
  deriving Repr, DecidableEq

/-- `TombstonePayload::legacy`. -/
def TombstonePayload.legacy : TombstonePayload := ⟨true, ⟨0⟩, 0⟩

inductive DecodedPayload where
  | live (snapshot : AccountSnapshot)
  | tombstone (payload : TombstonePayload)
  deriving Repr, DecidableEq

inductive DecodedIdentityPayload where
  | live (identity : AccountIdentity)
  | tombstone (payload : TombstonePayload)
  deriving Repr, DecidableEq

/-! ## Fields -/

/-- The entries of a snapshot, in their canonical order. -/
inductive SnapshotField where
  | displayName
  | username
  | password
  | url
  | notes
  | totpSecret
  deriving Repr, DecidableEq

def SnapshotField.name : SnapshotField → String
  | .displayName => "display_name"
  | .username => "username"
  | .password => "password"
  | .url => "url"
  | .notes => "notes"
  | .totpSecret => "totp_secret"

def SnapshotField.all : List SnapshotField :=
  [.displayName, .username, .password, .url, .notes, .totpSecret]

/-- The place of a field in the canonical order. -/
def SnapshotField.position : SnapshotField → Nat
  | .displayName => 0
  | .username => 1
  | .password => 2
  | .url => 3
  | .notes => 4
  | .totpSecret => 5

/-- The entries of an identity. -/
inductive IdentityField where
  | displayName
  | notes
  | passwordHistory
  | payloadVersion
  | tags
  | totpSecret
  | totp
  | urls
  | usernames
  deriving Repr, DecidableEq

def IdentityField.name : IdentityField → String
  | .displayName => "display_name"
  | .notes => "notes"
  | .passwordHistory => "password_history"
  | .payloadVersion => "payload_version"
  | .tags => "tags"
  | .totpSecret => "totp_secret"
  | .totp => "totp"
  | .urls => "urls"
  | .usernames => "usernames"

def IdentityField.all : List IdentityField :=
  [.displayName, .notes, .passwordHistory, .payloadVersion, .tags, .totpSecret, .totp, .urls,
    .usernames]

/-- The entries of the nested TOTP map. -/
inductive TotpField where
  | algorithm
  | digits
  | period
  | secret
  deriving Repr, DecidableEq

def TotpField.name : TotpField → String
  | .algorithm => "algorithm"
  | .digits => "digits"
  | .period => "period"
  | .secret => "secret"

def TotpField.all : List TotpField := [.algorithm, .digits, .period, .secret]

/-- The arm of a `match` on a key. -/
def fieldOf {φ : Type} (all : List φ) (name : φ → String) (key : String) : Option φ :=
  all.find? fun field => name field = key

/-- `is_after_in_canonical_order`. -/
def isAfterInCanonicalOrder (prev curr : String) : Bool :=
  match fieldOf SnapshotField.all SnapshotField.name prev,
    fieldOf SnapshotField.all SnapshotField.name curr with
  | some a, some b => a.position < b.position
  | _, _ => false

/-! ## Writing a payload -/

section

variable (codec : StreamCodec)

def putMap (length : Nat) : List UInt8 := codec.push (.map (some length))

/-- `write_text_value`: the bytes need not be UTF-8. -/
def putTextValue (bytes : List UInt8) : List UInt8 :=
  codec.push (.text (some bytes.length)) ++ bytes

/-- A key and its value. -/
def putEntry (key : String) (value : List UInt8) : List UInt8 :=
  putText codec.toHeaderCodec key ++ value

def putTextArray (texts : List (List UInt8)) : List UInt8 :=
  putArray codec.toHeaderCodec texts.length ++ texts.flatMap (putTextValue codec)

/-- A snapshot's value of a field. -/
def snapshotValue (snapshot : AccountSnapshot) : SnapshotField → List UInt8
  | .displayName => snapshot.displayName
  | .username => snapshot.username
  | .password => snapshot.password
  | .url => snapshot.url
  | .notes => snapshot.notes
  | .totpSecret => snapshot.totpSecret

/-- `write_text_kv`. -/
def putSnapshotField (snapshot : AccountSnapshot) (field : SnapshotField) : List UInt8 :=
  putEntry codec field.name (putBytes codec.toHeaderCodec (snapshotValue snapshot field))

/-- `encode_snapshot_cbor`. -/
def encodeSnapshotCbor (snapshot : AccountSnapshot) : List UInt8 :=
  putMap codec 6 ++ SnapshotField.all.flatMap (putSnapshotField codec snapshot)

/-- `encode_tombstone_cbor`. -/
def encodeTombstoneCbor (payload : TombstonePayload) : List UInt8 :=
  putMap codec 3 ++
    (putEntry codec "account_id" (putArray32 codec.toHeaderCodec payload.accountId.raw) ++
      (putEntry codec "deleted" (putBool codec.toHeaderCodec payload.deleted) ++
        putEntry codec "tombstoned_at_ms"
          (putUint codec.toHeaderCodec payload.tombstonedAtMs)))

/-- The nested map of the second version. -/
def putTotpMap (secret : List UInt8) (params : TotpParams) : List UInt8 :=
  putMap codec 4 ++
    (putEntry codec TotpField.algorithm.name (putUint codec.toHeaderCodec params.algorithm) ++
      (putEntry codec TotpField.digits.name (putUint codec.toHeaderCodec params.digits) ++
        (putEntry codec TotpField.period.name (putUint codec.toHeaderCodec params.period) ++
          putEntry codec TotpField.secret.name (putBytes codec.toHeaderCodec secret))))

/-- `PAYLOAD_VERSION_V2`. -/
def payloadVersionV2 : Nat := 2

/-- The sixth entry: a nested map from the second version on. -/
def putTotpSlot (identity : AccountIdentity) (payloadVersion : Nat) : List UInt8 :=
  if payloadVersionV2 ≤ payloadVersion then
    putEntry codec IdentityField.totp.name (putTotpMap codec identity.totpSecret
      identity.totpParams)
  else
    putEntry codec IdentityField.totpSecret.name
      (putBytes codec.toHeaderCodec identity.totpSecret)

/-- `encode_identity_cbor_with_payload_version`. -/
def encodeIdentityCborWithPayloadVersion (identity : AccountIdentity) (payloadVersion : Nat) :
    List UInt8 :=
  putMap codec 8 ++
    (putEntry codec IdentityField.displayName.name (putTextValue codec identity.displayName) ++
      (putEntry codec IdentityField.notes.name (putTextValue codec identity.notes) ++
        (putEntry codec IdentityField.passwordHistory.name
            (putHistory codec.toHeaderCodec identity.passwordHistory) ++
          (putEntry codec IdentityField.payloadVersion.name
              (putUint codec.toHeaderCodec payloadVersion) ++
            (putEntry codec IdentityField.tags.name (putTextArray codec identity.tags) ++
              (putTotpSlot codec identity payloadVersion ++
                (putEntry codec IdentityField.urls.name (putTextArray codec identity.urls) ++
                  putEntry codec IdentityField.usernames.name
                    (putTextArray codec identity.usernames))))))))

/-- `encode_identity_cbor`. -/
def encodeIdentityCbor (identity : AccountIdentity) : List UInt8 :=
  encodeIdentityCborWithPayloadVersion codec identity payloadVersionV2

end

/-! ## Reading it back -/

/-- What a header says of its length, if it is of the kind looked for. -/
def textLength : Header → Option (Option Nat)
  | .text length => some length
  | _ => none

def bytesLength : Header → Option (Option Nat)
  | .bytes length => some length
  | _ => none

def arrayLength : Header → Option (Option Nat)
  | .array length => some length
  | _ => none

def mapLength : Header → Option (Option Nat)
  | .map length => some length
  | _ => none

abbrev Dec (α : Type) := Metered PayloadError α

/-- A field that has to be there. -/
def required {α : Type} (message : String) : Option α → Dec α
  | some value => pure value
  | none => .refuse (.cbor message)

/-- The check of a key against the one before it. -/
def checkOrder (after : String → String → Bool) (message : String) (last : Option String)
    (key : String) : Dec Unit :=
  match last with
  | some prev => if after prev key then pure () else .refuse (.keys message [prev, key])
  | none => pure ()

section

variable (codec : StreamCodec)

def pullHeader : Dec Header := .take fun bytes =>
  match codec.pull bytes with
  | some pulled => .ok pulled
  | none => .error .malformed

/-- The length of an item of a kind. -/
def pullLength (lengthOf : Header → Option (Option Nat)) (indefinite expected : String) :
    Dec Nat := do
  let header ← pullHeader codec
  match lengthOf header with
  | some (some length) => pure length
  | some none => .refuse (.cbor indefinite)
  | none => .refuse (.header expected header)

/-- A buffer of a length, filled from the input. -/
def readExact (truncated : String) (length : Nat) : Dec (List UInt8) := do
  .reserve length 1
  .take (Reader.exactly (.cbor truncated) length)

/-- `String::from_utf8`. -/
def fromUtf8 (bytes : List UInt8) : Dec String :=
  match Utf8.decode? bytes with
  | some text => pure (String.ofList text)
  | none => .refuse (.cbor "text not valid UTF-8")

def pullText : Dec String := do
  let length ← pullLength codec textLength "indefinite-length text strings rejected"
    "expected text key"
  let bytes ← readExact "text read truncated" length
  fromUtf8 bytes

def pullBytes : Dec (List UInt8) := do
  let length ← pullLength codec bytesLength "indefinite-length byte strings rejected"
    "expected bytes value"
  readExact "bytes read truncated" length

/-- `pull_text_as_bytes`. -/
def pullTextAsBytes : Dec (List UInt8) := do
  let length ← pullLength codec textLength "indefinite-length text strings rejected"
    "expected text value"
  readExact "text read truncated" length

/-- `size_of::<SecretBytes>()`. -/
def sizeOfSecretBytes : Nat := 24

/-- `size_of::<PasswordEntry>()`. -/
def sizeOfPasswordEntry : Nat := 64

/-- `pull_text_array`. -/
def pullTextArray : Dec (List (List UInt8)) := do
  let count ← pullLength codec arrayLength "indefinite-length arrays rejected" "expected array"
  .reserve count sizeOfSecretBytes
  .collect (pullTextAsBytes codec) count

/-- The header of a history entry. -/
def expectTriple : Dec Unit := do
  let header ← pullHeader codec
  if header = .array (some 3) then pure ()
  else .refuse (.header "password history entry not 3-array" header)

/-- A signed number from a header; `-1 - v` is in range when `v` is. -/
def setAtMsOf : Header → Dec Int
  | .positive value =>
      if value < 2 ^ 63 then pure (value : Int)
      else .refuse (.number "set_at_ms positive out of i64 range" value)
  | .negative value =>
      if value < 2 ^ 63 then pure (-1 - (value : Int))
      else .refuse (.number "set_at_ms negative out of i64 range" value)
  | other => .refuse (.header "set_at_ms not integer" other)

def pullSetAtMs : Dec Int := do
  let header ← pullHeader codec
  setAtMsOf header

/-- A byte string for a `[u8; 32]`. -/
def pullArray32 (wrongLength : String) : Dec Nat := do
  let bytes ← pullBytes codec
  if bytes.length = 32 then pure (ofBytes bytes)
  else .refuse (.number wrongLength bytes.length)

/-- One entry of the history. -/
def pullPasswordEntry : Dec PasswordEntry := do
  expectTriple codec
  let password ← pullBytes codec
  let setAtMs ← pullSetAtMs codec
  let device ← pullArray32 codec "originating_device wrong length"
  return ⟨password, setAtMs, ⟨device⟩⟩

/-- `pull_password_history`. -/
def pullPasswordHistory : Dec (List PasswordEntry) := do
  let count ← pullLength codec arrayLength "indefinite-length arrays rejected"
    "expected password_history array"
  .reserve count sizeOfPasswordEntry
  .collect (pullPasswordEntry codec) count

def positiveOf (message : String) : Header → Dec Nat
  | .positive value => pure value
  | other => .refuse (.header message other)

/-- `pull_positive_u64`, and the two other places that expect a positive integer. -/
def pullPositive (message : String) : Dec Nat := do
  let header ← pullHeader codec
  positiveOf message header

/-- A positive integer below a bound. -/
def pullBelow (bound : Nat) (message outOfRange : String) : Dec Nat := do
  let value ← pullPositive codec message
  if value < bound then pure value else .refuse (.number outOfRange value)

/-- `TotpAlgorithm::from_wire`. -/
def fromWire (value : Nat) : Dec Nat :=
  if value ≤ 2 then pure value else .refuse (.number "totp.algorithm" value)

/-- The variables of the loop over the nested map. -/
structure TotpFields where
  algorithm : Option Nat := none
  digits : Option Nat := none
  period : Option Nat := none
  secret : Option (List UInt8) := none
  lastKey : Option String := none
  deriving Repr, DecidableEq

def pullTotpValue (fields : TotpFields) : TotpField → Dec TotpFields
  | .algorithm => do
      let value ← pullBelow codec (2 ^ 8) "totp.algorithm not a positive integer"
        "totp.algorithm out of range"
      let algorithm ← fromWire value
      return { fields with algorithm := some algorithm }
  | .digits => do
      let digits ← pullBelow codec (2 ^ 8) "totp.digits not a positive integer"
        "totp.digits out of range"
      return { fields with digits := some digits }
  | .period => do
      let period ← pullBelow codec (2 ^ 32) "totp.period not a positive integer"
        "totp.period out of range"
      return { fields with period := some period }
  | .secret => do
      let secret ← pullBytes codec
      return { fields with secret := some secret }

/-- The value of an entry by its key, or the end of the loop at an unknown one. -/
def pullArm {φ α : Type} (unknown key : String) (value : φ → Dec α) : Option φ → Dec α
  | some field => value field
  | none => .refuse (.keys unknown [key])

/-- One round of the loop over the nested map. -/
def pullTotpEntry (fields : TotpFields) : Dec TotpFields := do
  let key ← pullText codec
  checkOrder (fun prev key => prev < key) "non-canonical totp map key order" fields.lastKey key
  let next ← pullArm "unknown totp map field" key (pullTotpValue codec fields)
    (fieldOf TotpField.all TotpField.name key)
  return { next with lastKey := some key }

/-- `pull_totp_map`. -/
def pullTotpMap : Dec (List UInt8 × TotpParams) := do
  let count ← pullLength codec mapLength "indefinite-length totp map rejected"
    "totp slot not a map"
  let fields ← .rounds (pullTotpEntry codec) count {}
  let secret ← required "totp map: missing secret" fields.secret
  let algorithm ← required "totp map: missing algorithm" fields.algorithm
  let digits ← required "totp map: missing digits" fields.digits
  let period ← required "totp map: missing period" fields.period
  return (secret, ⟨algorithm, digits, period⟩)

/-- The variables of the loop over an identity. -/
structure IdentityFields where
  displayName : Option (List UInt8) := none
  notes : Option (List UInt8) := none
  passwordHistory : Option (List PasswordEntry) := none
  payloadVersion : Option Nat := none
  tags : Option (List (List UInt8)) := none
  totpSecret : Option (List UInt8) := none
  totpParams : Option TotpParams := none
  urls : Option (List (List UInt8)) := none
  usernames : Option (List (List UInt8)) := none
  lastKey : Option String := none
  deriving Repr, DecidableEq

/-- The version of a body, refused when it is newer than this build. -/
def pullPayloadVersion : Dec Nat := do
  let version ← pullBelow codec (2 ^ 8) "payload_version not positive integer"
    "payload_version out of u8 range"
  if revisionSchemaVersionMax < version then
    .refuse (.unsupportedRevisionSchemaVersion version revisionSchemaVersionMax)
  else
    return version

/-- The version that was read is at least the second. -/
def isNested (fields : IdentityFields) : Bool := fields.payloadVersion.any (payloadVersionV2 ≤ ·)

def pullIdentityValue (fields : IdentityFields) : IdentityField → Dec IdentityFields
  | .displayName => do
      let text ← pullTextAsBytes codec
      return { fields with displayName := some text }
  | .notes => do
      let text ← pullTextAsBytes codec
      return { fields with notes := some text }
  | .passwordHistory => do
      let history ← pullPasswordHistory codec
      return { fields with passwordHistory := some history }
  | .payloadVersion => do
      let version ← pullPayloadVersion codec
      return { fields with payloadVersion := some version }
  | .tags => do
      let tags ← pullTextArray codec
      return { fields with tags := some tags }
  | .totpSecret =>
      if isNested fields then
        .refuse (.cbor "V2 body must use nested `totp` map, not `totp_secret`")
      else do
        let secret ← pullBytes codec
        return { fields with totpSecret := some secret }
  | .totp =>
      if isNested fields then do
        let totp ← pullTotpMap codec
        return { fields with totpSecret := some totp.1, totpParams := some totp.2 }
      else
        .refuse (.cbor "nested `totp` map present but payload_version < 2")
  | .urls => do
      let urls ← pullTextArray codec
      return { fields with urls := some urls }
  | .usernames => do
      let usernames ← pullTextArray codec
      return { fields with usernames := some usernames }

/-- One round of the loop over an identity. -/
def pullIdentityEntry (fields : IdentityFields) : Dec IdentityFields := do
  let key ← pullText codec
  checkOrder (fun prev key => prev < key) "non-canonical V1/V2 key order" fields.lastKey key
  let next ← pullArm "unknown V1/V2 identity field" key (pullIdentityValue codec fields)
    (fieldOf IdentityField.all IdentityField.name key)
  return { next with lastKey := some key }

/-- The parameters of a nested body are checked again. -/
def checkTotpParams (payloadVersion : Nat) (params : TotpParams) : Dec Unit :=
  if payloadVersionV2 ≤ payloadVersion then
    match Validate.totpParams params with
    | .ok () => pure ()
    | .error _ => .refuse (.cbor "V2 totp params invalid")
  else
    pure ()

/-- What follows the loop over an identity. -/
def finishIdentity (fields : IdentityFields) : Dec AccountIdentity := do
  let displayName ← required "V1/V2: missing display_name" fields.displayName
  let notes ← required "V1/V2: missing notes" fields.notes
  let passwordHistory ← required "V1/V2: missing password_history" fields.passwordHistory
  let payloadVersion ← required "V1/V2: missing payload_version" fields.payloadVersion
  let tags ← required "V1/V2: missing tags" fields.tags
  let totpSecret ← required "V1/V2: missing totp/totp_secret" fields.totpSecret
  let urls ← required "V1/V2: missing urls" fields.urls
  let usernames ← required "V1/V2: missing usernames" fields.usernames
  let totpParams := fields.totpParams.getD .default
  checkTotpParams payloadVersion totpParams
  return ⟨displayName, tags, notes, urls, usernames, passwordHistory, totpSecret, totpParams⟩

/-- `decode_v1_or_v2_live_inline`. -/
def decodeV1OrV2LiveInline : Dec DecodedIdentityPayload := do
  let fields ← .rounds (pullIdentityEntry codec) 8 {}
  let identity ← finishIdentity fields
  return .live identity

/-- The variables of the loop over a snapshot: the values read so far, and the last key. -/
structure SnapshotFields where
  values : SnapshotField → Option (List UInt8) := fun _ => none
  lastKey : Option String := none

def SnapshotFields.set (fields : SnapshotFields) (field : SnapshotField) (value : List UInt8)
    (key : String) : SnapshotFields where
  values := Function.update fields.values field (some value)
  lastKey := some key

/-- One round of the loop over a snapshot: the value is read before its key is known. -/
def pullSnapshotEntry (unknown : String) (fields : SnapshotFields) : Dec SnapshotFields := do
  let key ← pullText codec
  checkOrder isAfterInCanonicalOrder "non-canonical key order" fields.lastKey key
  let value ← pullBytes codec
  pullArm unknown key (fun field => pure (fields.set field value key))
    (fieldOf SnapshotField.all SnapshotField.name key)

/-- What follows the loop over a snapshot. -/
def finishSnapshot (fields : SnapshotFields) : Dec AccountSnapshot := do
  let displayName ← required "missing display_name" (fields.values .displayName)
  let username ← required "missing username" (fields.values .username)
  let password ← required "missing password" (fields.values .password)
  let url ← required "missing url" (fields.values .url)
  let notes ← required "missing notes" (fields.values .notes)
  let totpSecret ← required "missing totp_secret" (fields.values .totpSecret)
  return ⟨displayName, username, password, url, notes, totpSecret⟩

/-- `decode_v0_live_inline` and the same loop in `decode_payload`, which differ in one
message. -/
def decodeV0LiveInline (unknown : String) : Dec AccountSnapshot := do
  let fields ← .rounds (pullSnapshotEntry codec unknown) 6 {}
  finishSnapshot fields

/-- A key that has to be this one. -/
def expectKey (message expected : String) : Dec Unit := do
  let key ← pullText codec
  if key = expected then pure () else .refuse (.keys message [key, expected])

/-- The simple value `true`. -/
def expectTrue (message : String) : Dec Unit := do
  let header ← pullHeader codec
  if header = .simple 21 then pure () else .refuse (.header message header)

def decodeTombstoneLegacy : Dec DecodedPayload := do
  expectKey codec "single-entry map with key" "deleted"
  expectTrue codec "tombstone value not boolean true"
  return .tombstone .legacy

def decodeTombstoneWidened : Dec DecodedPayload := do
  expectKey codec "tombstone first key" "account_id"
  let accountId ← pullArray32 codec "tombstone account_id wrong length"
  expectKey codec "tombstone second key" "deleted"
  expectTrue codec "tombstone deleted value not boolean true"
  expectKey codec "tombstone third key" "tombstoned_at_ms"
  let tombstonedAtMs ← pullPositive codec "tombstone tombstoned_at_ms not positive integer"
  return .tombstone ⟨true, ⟨accountId⟩, tombstonedAtMs⟩

/-- The number of entries of the map. -/
def pullEntries : Dec Nat :=
  pullLength codec mapLength "indefinite-length maps rejected" "expected top-level map"

/-- The body of `decode_payload`, by the number of entries. -/
def payloadOf (entries : Nat) : Dec DecodedPayload :=
  if entries = 1 then decodeTombstoneLegacy codec
  else if entries = 3 then decodeTombstoneWidened codec
  else if entries = 6 then do
    let snapshot ← decodeV0LiveInline codec "unknown snapshot field"
    return .live snapshot
  else .refuse (.number "unexpected map arity" entries)

/-- A tombstone passed on by the decoder for identities. -/
def passTombstone (message : String) : DecodedPayload → Dec DecodedIdentityPayload
  | .tombstone payload => pure (.tombstone payload)
  | .live _ => .refuse (.cbor message)

/-- The body of `decode_identity_payload`, by the number of entries. -/
def identityPayloadOf (entries : Nat) : Dec DecodedIdentityPayload :=
  if entries = 1 then do
    let payload ← decodeTombstoneLegacy codec
    passTombstone "single-entry map decoded as Live; expected Tombstone" payload
  else if entries = 3 then do
    let payload ← decodeTombstoneWidened codec
    passTombstone "three-entry map decoded as Live; expected Tombstone" payload
  else if entries = 6 then do
    let snapshot ← decodeV0LiveInline codec "unknown V0 snapshot field"
    return .live (hydrateV0ToV1 snapshot)
  else if entries = 8 then decodeV1OrV2LiveInline codec
  else if 8 < entries then
    .refuse (.unsupportedRevisionSchemaVersion (min entries (2 ^ 32 - 1))
      revisionSchemaVersionMax)
  else .refuse (.number "unexpected map arity for identity payload" entries)

def payloadReader : Dec DecodedPayload := do
  let entries ← pullEntries codec
  payloadOf codec entries

def identityPayloadReader : Dec DecodedIdentityPayload := do
  let entries ← pullEntries codec
  identityPayloadOf codec entries

/-- `decode_payload`; bytes after the map are not looked at. -/
def decodePayload (bytes : List UInt8) : Except (Stop PayloadError) DecodedPayload :=
  ((payloadReader codec).plain bytes).map Prod.fst

/-- `decode_identity_payload`. -/
def decodeIdentityPayload (bytes : List UInt8) :
    Except (Stop PayloadError) DecodedIdentityPayload :=
  ((identityPayloadReader codec).plain bytes).map Prod.fst

end

end Pangolin.Store.Blob
