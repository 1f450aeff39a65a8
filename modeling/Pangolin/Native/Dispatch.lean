import Pangolin.Native.Host

/-!
# The desktop's dispatcher

A request is answered under its own id.  Four methods reach the vault; a password that one of them
reveals goes to the clipboard and never into an answer.
-/

namespace Pangolin.Native

open Utf8

/-! ## Errors and accounts -/

inductive DesktopError where
  | session (message : String)
  | validation (kind message : String)
  | chain (message : String)
  | store (message : String)
  | recovery (message : String)
  | sync (message : String)
  | crypto (message : String)
  | internal (message : String)
  | authenticationFailed
  deriving Repr, DecidableEq

/-- `map_desktop_error`. -/
def mapDesktopError : DesktopError → Int × String
  | .session _ => (-32003, "session_locked")
  | .validation _ _ => (-32011, "validation_failed")
  | .chain _ => (-32000, "chain_error")
  | .store _ => (-32012, "store_error")
  | .recovery _ => (-32000, "recovery_error")
  | .sync _ => (-32000, "sync_error")
  | .crypto _ => (-32013, "crypto_error")
  | .internal _ => (-32000, "internal_error")
  | .authenticationFailed => (-32001, "authentication_failed")

structure AccountSummaryDto where
  id : String
  displayName : String
  tags : List String
  usernames : List String
  urls : List String
  passwordHistoryCount : Nat
  hasTotp : Bool
  currentPasswordChangedAt : Int
  deriving Repr, DecidableEq

def AccountSummaryDto.toJson (dto : AccountSummaryDto) : Json :=
  .object [("id", .string dto.id), ("display_name", .string dto.displayName),
    ("tags", .array (dto.tags.map .string)), ("usernames", .array (dto.usernames.map .string)),
    ("urls", .array (dto.urls.map .string)),
    ("password_history_count", .number dto.passwordHistoryCount),
    ("has_totp", .bool dto.hasTotp),
    ("current_password_changed_at", .number dto.currentPasswordChangedAt)]

/-- `decode_nibble`. -/
def decodeNibble (byte : UInt8) : Except DesktopError UInt8 :=
  if 48 ≤ byte ∧ byte ≤ 57 then .ok (byte - 48)
  else if 97 ≤ byte ∧ byte ≤ 102 then .ok (byte - 97 + 10)
  else if 65 ≤ byte ∧ byte ≤ 70 then .ok (byte - 65 + 10)
  else .error (.validation "account_id" "account id contains a non-hex character")

/-- The loop of `account_id_from_hex` over pairs of digits. -/
def decodePairs : List UInt8 → Except DesktopError (List UInt8)
  | high :: low :: rest => do
      let high ← decodeNibble high
      let low ← decodeNibble low
      let bytes ← decodePairs rest
      return (high <<< 4 ||| low) :: bytes
  | _ => .ok []

/-- `account_id_from_hex`. -/
def accountIdFromHex (hex : String) : Except DesktopError (List UInt8) :=
  let bytes := encode hex.toList
  if bytes.length ≠ 64 then
    .error (.validation "account_id" "account id must be 64 hex characters")
  else
    decodePairs bytes

/-! ## The vault behind the dispatcher -/

/-- The open vault's state with the clipboard, and the calls the dispatcher makes on it. -/
structure Engine (S : Type) where
  isOpen : S → Bool
  /-- `session_status`. -/
  isActive : S → Bool
  /-- `account_search` with an empty query. -/
  accountSearch : S → S × Except DesktopError (List AccountSummaryDto)
  accountGet : S → List UInt8 → S × Except DesktopError AccountSummaryDto
  revealCurrentPassword : S → List UInt8 → S × Except DesktopError (List UInt8)
  /-- The clipboard plugin's `write_text`. -/
  writeText : S → Text → S × Except DesktopError Unit

section

variable {S : Type} (engine : Engine S) (serde : Codec)

def noVaultOpen : DesktopError := .session "no vault open"

/-- `session_status_value`. -/
def sessionStatusValue (state : S) : Json :=
  .object [("vault_open", .bool (engine.isOpen state)),
    ("vault_unlocked", .bool (engine.isOpen state && engine.isActive state))]

/-- `vault_list_accounts`. -/
def vaultListAccounts (state : S) : S × Except DesktopError Json :=
  if engine.isOpen state then
    let (state, dtos) := engine.accountSearch state
    (state, dtos.map fun dtos => .array (dtos.map AccountSummaryDto.toJson))
  else
    (state, .error noVaultOpen)

/-- The `id` of the parameters. -/
def idParam (params : Json) : Except DesktopError String :=
  match (params.get "id").asString? with
  | none => .error (.validation "params" "missing string `id`")
  | some id => .ok id

/-- `vault_account_show`. -/
def vaultAccountShow (state : S) (params : Json) : S × Except DesktopError Json :=
  match idParam params >>= accountIdFromHex with
  | .error error => (state, .error error)
  | .ok accountId =>
      if engine.isOpen state then
        let (state, dto) := engine.accountGet state accountId
        (state, dto.map AccountSummaryDto.toJson)
      else
        (state, .error noVaultOpen)

/-- `copy_password_via`. -/
def copyPasswordVia (state : S) (accountId : List UInt8) : S × Except DesktopError Unit :=
  if engine.isOpen state then
    match engine.revealCurrentPassword state accountId with
    | (state, .error error) => (state, .error error)
    | (state, .ok bytes) =>
        match decode? bytes with
        | none => (state, .error (.internal "revealed password is not valid utf-8"))
        | some text => engine.writeText state text
  else
    (state, .error noVaultOpen)

/-- `vault_copy_password`. -/
def vaultCopyPassword (state : S) (params : Json) : S × Except DesktopError Json :=
  match idParam params >>= accountIdFromHex with
  | .error error => (state, .error error)
  | .ok accountId =>
      let (state, copied) := copyPasswordVia engine state accountId
      (state, copied.map fun _ => .null)

def successResponse (id result : Json) : Json :=
  .object [("jsonrpc", .string "2.0"), ("id", id), ("result", result)]

def errorResponse (id : Json) (code : Int) (label : String) : Json :=
  .object [("jsonrpc", .string "2.0"), ("id", id),
    ("error", .object [("code", .number code), ("message", .string label), ("data", .null)])]

/-- What a method comes to, as an answer. -/
def respond (id : Json) (outcome : S × Except DesktopError Json) : S × Json :=
  match outcome with
  | (state, .ok value) => (state, successResponse id value)
  | (state, .error error) =>
      (state, errorResponse id (mapDesktopError error).1 (mapDesktopError error).2)

/-- `handle_request_inner` on a request that was parsed. -/
def dispatch (state : S) (request : Json) : S × Json :=
  let id := request.get "id"
  if (request.get "jsonrpc").asString? ≠ some "2.0" then
    (state, errorResponse id (-32600) "invalid_request")
  else
    match (request.get "method").asString? with
    | none => (state, errorResponse id (-32600) "invalid_request")
    | some method =>
        let params := request.get "params"
        if method = "session.status" then
          respond id (state, .ok (sessionStatusValue engine state))
        else if method = "vault.list_accounts" then
          respond id (vaultListAccounts engine state)
        else if method = "vault.account_show" then
          respond id (vaultAccountShow engine state params)
        else if method = "vault.copy_password" then
          respond id (vaultCopyPassword engine state params)
        else
          (state, errorResponse id (-32601) "method_not_found")

/-- `handle_request_inner`. -/
def handleRequestInner (state : S) (body : List UInt8) : S × List UInt8 :=
  match serde.parse body with
  | none => (state, serde.render (errorResponse .null (-32700) "parse_error"))
  | some request =>
      let (state, response) := dispatch engine state request
      (state, serde.render response)

/-! ## Answers -/

/-- The labels of the dispatcher's errors. -/
def errorLabels : List String :=
  ["parse_error", "invalid_request", "method_not_found", "session_locked", "validation_failed",
    "chain_error", "store_error", "recovery_error", "sync_error", "crypto_error", "internal_error",
    "authentication_failed"]

/-- An answer is a result or an error of these labels, under the given id. -/
inductive AnswersTo (id : Json) : Json → Prop where
  | result (value : Json) : AnswersTo id (successResponse id value)
  | error (code : Int) (label : String) :
      label ∈ errorLabels → AnswersTo id (errorResponse id code label)

variable {engine}

theorem mapDesktopError_label (error : DesktopError) : (mapDesktopError error).2 ∈ errorLabels := by
  cases error <;> simp [mapDesktopError, errorLabels]

theorem respond_answersTo (id : Json) (outcome : S × Except DesktopError Json) :
    AnswersTo id (respond id outcome).2 := by
  obtain ⟨state, result⟩ := outcome
  cases result with
  | ok value => exact .result value
  | error error => exact .error _ _ (mapDesktopError_label error)

/-- Every request is answered under its id. -/
theorem dispatch_answersTo (state : S) (request : Json) :
    AnswersTo (request.get "id") (dispatch engine state request).2 := by
  unfold dispatch
  dsimp only
  split
  · exact .error _ _ (by decide)
  · split
    · exact .error _ _ (by decide)
    · split_ifs
      · exact respond_answersTo _ _
      · exact respond_answersTo _ _
      · exact respond_answersTo _ _
      · exact respond_answersTo _ _
      · exact .error _ _ (by decide)

end

end Pangolin.Native
