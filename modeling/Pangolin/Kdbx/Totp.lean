import Pangolin.Store.Identity

/-!
# TOTP secrets as text

A secret comes as base32 or in an `otpauth://` URI.  Only what parses is kept, and what
parses is within the bounds the store checks.
-/

namespace Pangolin.Kdbx

open Store Utf8

/-- `MAX_SECRET_BYTES`. -/
def maxSecretBytes : Nat := 256

/-- What of a parsed secret is stored. -/
structure ParsedTotpSecret where
  secretBytes : List UInt8
  params : TotpParams
  deriving Repr, DecidableEq

/-! ## Text -/

/-- `char::is_ascii_whitespace`. -/
def isAsciiWhitespace (char : Char) : Bool :=
  let code := char.toNat
  code = 0x20 || code = 0x09 || code = 0x0A || code = 0x0C || code = 0x0D

/-- `str::split_once` at a character. -/
def splitOnce (separator : Char) : Text → Option (Text × Text)
  | [] => none
  | char :: rest =>
      if char = separator then
        some ([], rest)
      else
        (splitOnce separator rest).map fun parts => (char :: parts.1, parts.2)

/-- `str::strip_prefix`. -/
def stripStart (pattern text : Text) : Option Text :=
  if pattern.isPrefixOf text then some (text.drop pattern.length) else none

/-- `str::parse` of an unsigned integer up to a bound. -/
def parseUnsigned (largest : Nat) (text : Text) : Option Nat :=
  let digits := match text with
    | '+' :: rest => rest
    | _ => text
  if digits.isEmpty || !digits.all Char.isDigit then
    none
  else
    let value := digits.foldl (fun value digit => value * 10 + (digit.toNat - '0'.toNat)) 0
    if value ≤ largest then some value else none

/-! ## Base32 -/

/-- The value of a base32 character, of either case. -/
def base32Value (char : Char) : Option Nat :=
  let upper := char.toUpper
  if 'A' ≤ upper ∧ upper ≤ 'Z' then some (upper.toNat - 'A'.toNat)
  else if '2' ≤ upper ∧ upper ≤ '7' then some (upper.toNat - '2'.toNat + 26)
  else none

/-- The loop of `decode_base32`, with its 32-bit buffer, the bits in it and the output. -/
def base32Loop : Nat → Nat → List UInt8 → Text → Option (List UInt8)
  | buffer, bits, out, [] =>
      if 5 ≤ bits ∨ (buffer % 2 ^ bits ≠ 0 ∧ 0 < bits) then none else some out
  | buffer, bits, out, char :: rest =>
      if char = '=' || isAsciiWhitespace char || char = '-' then
        base32Loop buffer bits out rest
      else
        match base32Value char with
        | none => none
        | some value =>
            let buffer := (buffer * 32 + value) % 2 ^ 32
            let bits := bits + 5
            if 8 ≤ bits then
              base32Loop buffer (bits - 8) (out ++ [UInt8.ofNat (buffer / 2 ^ (bits - 8))]) rest
            else
              base32Loop buffer bits out rest

/-- `decode_base32`. -/
def decodeBase32 (input : Text) : Option (List UInt8) := base32Loop 0 0 [] input

/-! ## `otpauth://` -/

/-- `hex_val`. -/
def hexVal (byte : UInt8) : Option Nat :=
  if 0x30 ≤ byte ∧ byte ≤ 0x39 then some (byte.toNat - 0x30)
  else if 0x61 ≤ byte ∧ byte ≤ 0x66 then some (byte.toNat - 0x61 + 10)
  else if 0x41 ≤ byte ∧ byte ≤ 0x46 then some (byte.toNat - 0x41 + 10)
  else none

/-- The loop of `percent_decode`; `skip` bytes belong to an escape that has been read. -/
def percentBytes : Nat → List UInt8 → List UInt8
  | _, [] => []
  | skip + 1, _ :: rest => percentBytes skip rest
  | 0, byte :: rest =>
      if byte = 0x25 then
        match (rest[0]?).bind hexVal, (rest[1]?).bind hexVal with
        | some high, some low => UInt8.ofNat (high * 16 + low) :: percentBytes 2 rest
        | _, _ => byte :: percentBytes 0 rest
      else if byte = 0x2B then
        0x20 :: percentBytes 0 rest
      else
        byte :: percentBytes 0 rest

/-- `percent_decode`. -/
def percentDecode (text : Text) : Text := decodeLossy (percentBytes 0 (encode text))

/-- `TotpAlgorithm::parse`, to the number the algorithm is stored as. -/
def parseAlgorithm (text : Text) : Option Nat :=
  let upper := text.map Char.toUpper
  if upper = "SHA1".toList then some 0
  else if upper = "SHA256".toList then some 1
  else if upper = "SHA512".toList then some 2
  else none

/-- The query values read so far. -/
structure OtpauthQuery where
  secret : Option Text
  params : TotpParams

/-- One turn of the loop over the query of a URI; values that do not parse refuse the URI. -/
def queryPair (query : OtpauthQuery) (pair : Text) : Option OtpauthQuery :=
  match splitOnce '=' pair with
  | none => some query
  | some (key, value) =>
      let value := percentDecode value
      let key := key.map Char.toLower
      if key = "secret".toList then
        some { query with secret := some value }
      else if key = "algorithm".toList then do
        let algorithm ← parseAlgorithm value
        return { query with params := { query.params with algorithm } }
      else if key = "digits".toList then do
        let digits ← parseUnsigned 255 value
        return { query with params := { query.params with digits } }
      else if key = "period".toList then do
        let period ← parseUnsigned (2 ^ 32 - 1) value
        return { query with params := { query.params with period } }
      else
        some query

/-- `finish`. -/
def finish (secretBytes : List UInt8) (params : TotpParams) : Option ParsedTotpSecret :=
  if secretBytes.isEmpty then none
  else if maxSecretBytes < secretBytes.length then none
  else
    match Validate.totpParams params with
    | .error _ => none
    | .ok () => some ⟨secretBytes, params⟩

/-- `parse_otpauth_uri`. -/
def parseOtpauthUri (input : Text) : Option ParsedTotpSecret := do
  let rest ← stripStart "otpauth://".toList input
  let parts := (splitOnce '?' rest).getD (rest, [])
  let host := ((splitOnce '/' parts.1).map Prod.fst).getD parts.1
  if host.map Char.toLower = "totp".toList then
    let query ← (parts.2.splitOn '&').foldlM queryPair ⟨none, .default⟩
    let secret ← query.secret
    let secretBytes ← decodeBase32 secret
    finish secretBytes query.params
  else
    none

/-- `parse_totp_secret`. -/
def parseTotpSecret (input : Text) : Option ParsedTotpSecret :=
  let trimmed := trim input
  if "otpauth://".toList.isPrefixOf trimmed then
    parseOtpauthUri trimmed
  else if trimmed.isEmpty then
    none
  else do
    let secretBytes ← decodeBase32 trimmed
    finish secretBytes .default

/-! ## What parses -/

/-- The bounds the store checks. -/
def ParsedTotpSecret.Storable (parsed : ParsedTotpSecret) : Prop :=
  Validate.totpSecret parsed.secretBytes = .ok () ∧ Validate.totpParams parsed.params = .ok ()

theorem finish_storable {secretBytes : List UInt8} {params : TotpParams}
    {parsed : ParsedTotpSecret} (finished : finish secretBytes params = some parsed) :
    parsed.Storable := by
  unfold finish at finished
  split at finished
  · cases finished
  split at finished
  · cases finished
  next short =>
  split at finished
  · cases finished
  · next valid =>
      cases Option.some.inj finished
      exact ⟨if_neg short, valid⟩

theorem parseOtpauthUri_storable {input : Text} {parsed : ParsedTotpSecret}
    (result : parseOtpauthUri input = some parsed) : parsed.Storable := by
  simp only [parseOtpauthUri, Option.bind_eq_bind, Option.bind_eq_some_iff] at result
  obtain ⟨rest, -, result⟩ := result
  split at result
  · obtain ⟨query, -, secret, -, secretBytes, -, finished⟩ := by
      simpa only [Option.bind_eq_some_iff] using result
    exact finish_storable finished
  · cases result

theorem parseTotpSecret_storable {input : Text} {parsed : ParsedTotpSecret}
    (result : parseTotpSecret input = some parsed) : parsed.Storable := by
  unfold parseTotpSecret at result
  simp only at result
  split at result
  · exact parseOtpauthUri_storable result
  split at result
  · cases result
  · obtain ⟨secretBytes, -, finished⟩ := Option.bind_eq_some_iff.mp result
    exact finish_storable finished

end Pangolin.Kdbx
