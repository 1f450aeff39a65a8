import Pangolin.Store.Identity
import Pangolin.Store.Session
import Mathlib.Data.List.Sort

/-!
# The capture-authority registry

Which component captures credentials in a context: one row for each kind of context and platform
hint.  A first registration and a repeated one need a fresh session; to put another component in
the place of the registered one takes a presence proof as well.

The session is the vault's.  The instant of the last presence proof, which the active session
keeps, stands beside it.
-/

namespace Pangolin.Store.Capture

open Crypto Utf8

/-! ## Rows and entries -/

/-- `CAPTURE_AUTHORITY_SCHEMA_VERSION_MAX`. -/
def captureSchemaVersionMax : Nat := 1

/-- `PLATFORM_HINT_ALLOWLIST`. -/
def platformHintAllowlist : List Text :=
  ["chrome", "firefox", "edge", "safari", "chromium", "webview", "ios", "android", "windows",
    "macos", "linux"].map String.toList

inductive CaptureAuthorityKind where
  | desktop
  | browserExtension
  | mobileOsAutofill
  deriving Repr, DecidableEq

inductive CaptureContextKind where
  | desktop
  | browser
  | mobileOs
  deriving Repr, DecidableEq

/-- `CaptureAuthorityValidation` and `CaptureAuthorityExclusivity` beside the other errors. -/
inductive CaptureError where
  | store (error : StoreError)
  | validation (reason : String)
  | exclusivity (context : String)
  deriving Repr, DecidableEq

def CaptureAuthorityKind.toRepr : CaptureAuthorityKind → Int
  | .desktop => 0
  | .browserExtension => 1
  | .mobileOsAutofill => 2

def CaptureAuthorityKind.fromRepr (value : Int) : Except CaptureError CaptureAuthorityKind :=
  if value = 0 then .ok .desktop
  else if value = 1 then .ok .browserExtension
  else if value = 2 then .ok .mobileOsAutofill
  else .error (.validation ("unknown capture-authority kind " ++ toString value))

def CaptureContextKind.toRepr : CaptureContextKind → Int
  | .desktop => 0
  | .browser => 1
  | .mobileOs => 2

def CaptureContextKind.fromRepr (value : Int) : Except CaptureError CaptureContextKind :=
  if value = 0 then .ok .desktop
  else if value = 1 then .ok .browser
  else if value = 2 then .ok .mobileOs
  else .error (.validation ("unknown capture-context kind " ++ toString value))

def CaptureContextKind.label : CaptureContextKind → String
  | .desktop => "desktop"
  | .browser => "browser"
  | .mobileOs => "mobile_os"

structure CaptureAuthority where
  schemaVersion : UInt16
  kind : CaptureAuthorityKind
  componentId : Text
  componentVersion : Text
  deriving Repr, DecidableEq

structure CaptureContext where
  schemaVersion : UInt16
  kind : CaptureContextKind
  platformHint : Option Text
  deriving Repr, DecidableEq

structure CaptureAuthorityEntry where
  schemaVersion : UInt16
  context : CaptureContext
  authority : CaptureAuthority
  registeredAt : Int
  deriving Repr, DecidableEq

inductive RegistrationOutcome where
  | created
  | replaced (prior : CaptureAuthority)
  | noOp (existing : CaptureAuthority)
  deriving Repr, DecidableEq

/-- A row of `capture_authorities`; the first two columns are its primary key. -/
structure CaptureRow where
  contextKind : Int
  platformHint : Text
  authorityKind : Int
  componentId : Text
  componentVersion : Text
  registeredAt : Int
  schemaVersion : Int
  deriving Repr, DecidableEq

def CaptureRow.key (row : CaptureRow) : Int × Text := (row.contextKind, row.platformHint)

/-! ## Validation -/

/-- The checks `validate_component_id` and `validate_component_version` share. -/
def validateComponentText (field : String) (maxChars : Nat) (normalised : Text) :
    Except CaptureError Text :=
  if maxChars < normalised.length then
    .error (.validation (field ++ " exceeds " ++ toString maxChars ++ " chars"))
  else if normalised.head?.any isWhitespace ∨ normalised.getLast?.any isWhitespace then
    .error (.validation (field ++ " must not have leading or trailing whitespace"))
  else if normalised.any isControl then
    .error (.validation (field ++ " contains disallowed control characters"))
  else
    .ok normalised

/-- `validate_component_id`. -/
def validateComponentId (tools : TextTools) (input : Text) : Except CaptureError Text :=
  if tools.nfc input = [] then
    .error (.validation "component_id must not be empty")
  else
    validateComponentText "component_id" 256 (tools.nfc input)

/-- `validate_component_version`. -/
def validateComponentVersion (tools : TextTools) (input : Text) : Except CaptureError Text :=
  validateComponentText "component_version" 64 (tools.nfc input)

/-- `validate_platform_hint`. -/
def validatePlatformHint : Option Text → Except CaptureError (Option Text)
  | none => .ok none
  | some hint =>
      if hint = [] then
        .error (.validation "platform_hint must not be empty (use None to omit)")
      else if 64 < hint.length then
        .error (.validation "platform_hint exceeds 64 chars")
      else if ¬ hint.all fun char => 'a' ≤ char && char ≤ 'z' then
        .error (.validation "platform_hint must be lowercased ASCII")
      else if ¬ platformHintAllowlist.contains hint then
        .error (.validation ("platform_hint must be one of the allowlisted values (got \"" ++
          String.ofList hint ++ "\")"))
      else
        .ok (some hint)

/-- The version check both validators begin with. -/
def checkCaptureSchema (schemaVersion : UInt16) : Except CaptureError Unit :=
  if captureSchemaVersionMax < schemaVersion.toNat then
    .error (.validation ("schema_version " ++ toString schemaVersion ++ " > " ++
      toString captureSchemaVersionMax))
  else
    .ok ()

/-- `validate_authority`. -/
def validateAuthority (tools : TextTools) (authority : CaptureAuthority) :
    Except CaptureError CaptureAuthority := do
  checkCaptureSchema authority.schemaVersion
  let componentId ← validateComponentId tools authority.componentId
  let componentVersion ← validateComponentVersion tools authority.componentVersion
  return ⟨authority.schemaVersion, authority.kind, componentId, componentVersion⟩

/-- `validate_context`. -/
def validateContext (context : CaptureContext) : Except CaptureError CaptureContext := do
  checkCaptureSchema context.schemaVersion
  let platformHint ← validatePlatformHint context.platformHint
  return ⟨context.schemaVersion, context.kind, platformHint⟩

/-- `coalesce_platform_hint`. -/
def coalescePlatformHint (hint : Option Text) : Text := hint.getD []

/-- `uncoalesce_platform_hint`. -/
def uncoalescePlatformHint (stored : Text) : Option Text :=
  if stored = [] then none else some stored

/-- The primary key of a validated context. -/
def CaptureContext.key (context : CaptureContext) : Int × Text :=
  (context.kind.toRepr, coalescePlatformHint context.platformHint)

/-- `decode_row`. -/
def decodeCaptureRow (row : CaptureRow) : Except CaptureError CaptureAuthorityEntry :=
  if row.schemaVersion < 0 ∨ 65535 < row.schemaVersion then
    .error (.validation "schema_version out of u16 range")
  else if (captureSchemaVersionMax : Int) < row.schemaVersion then
    .error (.validation ("row schema_version " ++ toString row.schemaVersion ++ " > " ++
      toString captureSchemaVersionMax ++ " (requires newer Pangolin)"))
  else do
    let schemaVersion := UInt16.ofNat row.schemaVersion.toNat
    let contextKind ← CaptureContextKind.fromRepr row.contextKind
    let authorityKind ← CaptureAuthorityKind.fromRepr row.authorityKind
    return ⟨schemaVersion, ⟨schemaVersion, contextKind, uncoalescePlatformHint row.platformHint⟩,
      ⟨schemaVersion, authorityKind, row.componentId, row.componentVersion⟩, row.registeredAt⟩

/-! ## Calls -/

/-- `PRESENCE_FRESHNESS`, in milliseconds. -/
def presenceFreshness : Nat := 60 * 1000

/-- The vault's session, the last presence proof in it, and the table. -/
structure CaptureRegistry where
  vault : Vault
  /-- `last_presence_at` of the active session. -/
  lastPresenceAt : Option Nat
  rows : List CaptureRow
  deriving Repr, DecidableEq

namespace CaptureRegistry

/-- The instant of the last proof goes with the session that keeps it. -/
def withVault (registry : CaptureRegistry) (vault : Vault) : CaptureRegistry :=
  { registry with
    vault
    lastPresenceAt := if vault.active.isSome then registry.lastPresenceAt else none }

/-- `touch_session`. -/
def touch (registry : CaptureRegistry) (now : Nat) : CaptureRegistry :=
  { registry with vault := touchSession registry.vault now }

/-- The last proof of the session is recent; a clock that went back counts as no time. -/
def recent (registry : CaptureRegistry) (now : Nat) : Bool :=
  registry.lastPresenceAt.any fun last => now - last ≤ presenceFreshness

/-- `ensure_presence_fresh`, with the record of the last proof. -/
def ensurePresence (registry : CaptureRegistry) (presence : PresenceCheck) (now : Nat) :
    CaptureRegistry × Except StoreError Unit :=
  match registry.vault.active with
  | none => (registry, .error .notUnlocked)
  | some _ =>
      if registry.recent now then
        (registry, .ok ())
      else
        match presence.verify with
        | .error error => (registry, .error error)
        | .ok () => ({ registry with lastPresenceAt := some now }, .ok ())

/-- The row a registration writes. -/
def rowOf (authority : CaptureAuthority) (context : CaptureContext) (nowMs : Int) : CaptureRow :=
  ⟨context.key.1, context.key.2, authority.kind.toRepr, authority.componentId,
    authority.componentVersion, nowMs, captureSchemaVersionMax⟩

/-- The decoding of an existing row at its registration. -/
def existingAuthority (row : CaptureRow) : Except CaptureError CaptureAuthority :=
  if row.schemaVersion < 0 ∨ 65535 < row.schemaVersion then
    .error (.validation "stored schema_version out of u16 range")
  else if (captureSchemaVersionMax : Int) < row.schemaVersion then
    .error (.validation ("stored row schema_version " ++ toString row.schemaVersion ++ " > " ++
      toString captureSchemaVersionMax ++ " (requires newer Pangolin)"))
  else do
    let kind ← CaptureAuthorityKind.fromRepr row.authorityKind
    return ⟨UInt16.ofNat row.schemaVersion.toNat, kind, row.componentId, row.componentVersion⟩

/-- `capture_authority_register_in_tx`. -/
def registerInTx (registry : CaptureRegistry) (presence : PresenceCheck)
    (authority : CaptureAuthority) (context : CaptureContext) (replaceExisting : Bool) (now : Nat)
    (nowMs : Int) : CaptureRegistry × Except CaptureError RegistrationOutcome :=
  match Table.lookup CaptureRow.key registry.rows context.key with
  | none =>
      ({ registry with rows := registry.rows ++ [rowOf authority context nowMs] }, .ok .created)
  | some row =>
      match existingAuthority row with
      | .error error => (registry, .error error)
      | .ok existing =>
          if existing.kind = authority.kind ∧ existing.componentId = authority.componentId ∧
              existing.componentVersion = authority.componentVersion then
            (registry, .ok (.noOp existing))
          else if ¬ replaceExisting then
            (registry, .error (.exclusivity context.kind.label))
          else
            match registry.ensurePresence presence now with
            | (registry, .error error) => (registry, .error (.store error))
            | (registry, .ok ()) =>
                ({ registry with
                    rows := Table.upsert CaptureRow.key registry.rows
                      (rowOf authority context nowMs) }, .ok (.replaced existing))

/-- `capture_authority_register`. -/
def register (tools : TextTools) (registry : CaptureRegistry) (presence : PresenceCheck)
    (authority : CaptureAuthority) (context : CaptureContext) (replaceExisting : Bool) (now : Nat)
    (nowMs : Int) : CaptureRegistry × Except CaptureError RegistrationOutcome :=
  match checkSessionFreshness registry.vault now with
  | (vault, .error error) => (registry.withVault vault, .error (.store error))
  | (_, .ok ()) =>
      match validateAuthority tools authority, validateContext context with
      | .error error, _ => (registry, .error error)
      | .ok _, .error error => (registry, .error error)
      | .ok authority, .ok context =>
          match registry.registerInTx presence authority context replaceExisting now nowMs with
          | (done, .ok outcome) => (done.touch now, .ok outcome)
          -- ROLLBACK; the proof stays consumed
          | (done, .error error) => ({ done with rows := registry.rows }, .error error)

/-- `capture_authority_query`. -/
def query (registry : CaptureRegistry) (context : CaptureContext) (now : Nat) :
    CaptureRegistry × Except CaptureError (Option CaptureAuthorityEntry) :=
  match checkSessionFreshness registry.vault now with
  | (vault, .error error) => (registry.withVault vault, .error (.store error))
  | (_, .ok ()) =>
      match validateContext context with
      | .error error => (registry, .error error)
      | .ok context =>
          match Table.lookup CaptureRow.key registry.rows context.key with
          | none => (registry.touch now, .ok none)
          | some row =>
              match decodeCaptureRow row with
              | .error error => (registry, .error error)
              | .ok entry => (registry.touch now, .ok (some entry))

/-- `ORDER BY context_kind ASC, platform_hint ASC`, texts by their bytes. -/
def inOrder (row row' : CaptureRow) : Bool :=
  decide (row.contextKind < row'.contextKind) ||
    (decide (row.contextKind = row'.contextKind) &&
      decide (Utf8.encode row.platformHint ≤ Utf8.encode row'.platformHint))

/-- `capture_authority_list`. -/
def list (registry : CaptureRegistry) (now : Nat) :
    CaptureRegistry × Except CaptureError (List CaptureAuthorityEntry) :=
  match checkSessionFreshness registry.vault now with
  | (vault, .error error) => (registry.withVault vault, .error (.store error))
  | (_, .ok ()) =>
      match (registry.rows.mergeSort inOrder).mapM decodeCaptureRow with
      | .error error => (registry, .error error)
      | .ok entries => (registry.touch now, .ok entries)

/-- `capture_authority_clear`. -/
def clear (registry : CaptureRegistry) (context : CaptureContext) (now : Nat) :
    CaptureRegistry × Except CaptureError Bool :=
  match checkSessionFreshness registry.vault now with
  | (vault, .error error) => (registry.withVault vault, .error (.store error))
  | (_, .ok ()) =>
      match validateContext context with
      | .error error => (registry, .error error)
      | .ok context =>
          let kept := registry.rows.filter fun row => row.key ≠ context.key
          ({ registry with rows := kept }.touch now,
            .ok (decide (kept.length < registry.rows.length)))

end CaptureRegistry

end Pangolin.Store.Capture
