import Pangolin.Kdbx.Totp
import Mathlib.Algebra.Ring.Nat
import Mathlib.Data.List.Infix

/-!
# Mapping KeePass entries

An entry of a KeePass database becomes the fields of an account: missing names are made up,
long fields are cut to the caps of the store, an unusable URL or TOTP secret is dropped, and
the history keeps the distinct earlier passwords.  An entry without a password is skipped.

The importer cuts texts before they are normalised and does not parse URLs, so what it cuts
to the caps may still be refused by the store.
-/

namespace Pangolin.Kdbx

open Store Utf8

/-! ## Entries -/

/-- A `<String>` of an entry. -/
structure KdbxStringValue where
  key : Text
  value : List UInt8
  deriving Repr, DecidableEq

/-- `as_str_lossy`. -/
def KdbxStringValue.asStrLossy (string : KdbxStringValue) : Text := decodeLossy string.value

structure KdbxEntry where
  strings : List KdbxStringValue
  tags : List Text
  groupPath : List Text
  expires : Bool
  expiryTimeUnix : Option Int
  historyPasswords : List (List UInt8 × Option Int)
  deriving Repr, DecidableEq

/-- `KdbxEntry::field`: the first string of a key. -/
def KdbxEntry.field (entry : KdbxEntry) (key : String) : Option KdbxStringValue :=
  entry.strings.find? fun string => string.key = key.toList

/-- `val_str`. -/
def valStr (entry : KdbxEntry) (key : String) : Text :=
  ((entry.field key).map KdbxStringValue.asStrLossy).getD []

/-- An entry ready for `account_add`. -/
structure MappedEntry where
  displayName : Text
  usernames : List Text
  urls : List Text
  notes : Text
  password : List UInt8
  totp : Option ParsedTotpSecret
  tags : List Text
  historyPasswords : List (List UInt8 × Option Int)
  deriving Repr, DecidableEq

inductive EntrySkip where
  | emptyPassword
  | noFields
  deriving Repr, DecidableEq

/-! ## Caps -/

def displayNameMax : Nat := 256
def usernameMax : Nat := 320
def urlMax : Nat := 2048
def urlsMax : Nat := 32
def tagMax : Nat := 64
def tagsMax : Nat := 32
def notesMax : Nat := 65536
def passwordMax : Nat := 4096

/-- `KDBX_MAX_HISTORY_PER_ENTRY`. -/
def kdbxMaxHistoryPerEntry : Nat := 64

/-- `truncate_chars`. -/
def truncateChars (text : Text) (maxChars : Nat) : Text :=
  if text.length ≤ maxChars then text else text.take (maxChars - 1) ++ ['…']

/-- The characters of a text that end within a number of bytes. -/
def takeBytes : Nat → Text → Text
  | _, [] => []
  | room, char :: rest =>
      if char.utf8Size ≤ room then char :: takeBytes (room - char.utf8Size) rest else []

/-- `truncate_bytes`: the cut moves back to a character boundary. -/
def truncateBytes (text : Text) (maxBytes : Nat) : Text :=
  if (encode text).length ≤ maxBytes then text else takeBytes maxBytes text

/-! ## Texts -/

/-- The loop of `trim_start_matches`; `skip` characters belong to a match. -/
def trimStartMatchesLoop (pattern : Text) : Nat → Text → Text
  | _, [] => []
  | skip + 1, _ :: rest => trimStartMatchesLoop pattern skip rest
  | 0, char :: rest =>
      if pattern.isPrefixOf (char :: rest) then
        trimStartMatchesLoop pattern (pattern.length - 1) rest
      else
        char :: rest

/-- `str::trim_start_matches`. -/
def trimStartMatches (pattern text : Text) : Text := trimStartMatchesLoop pattern 0 text

/-- The loop of `str::replace`; `skip` characters belong to a match. -/
def replaceLoop (pattern replacement : Text) : Nat → Text → Text
  | _, [] => []
  | skip + 1, _ :: rest => replaceLoop pattern replacement skip rest
  | 0, char :: rest =>
      if pattern.isPrefixOf (char :: rest) then
        replacement ++ replaceLoop pattern replacement (pattern.length - 1) rest
      else
        char :: replaceLoop pattern replacement 0 rest

/-- `str::replace`. -/
def replace (pattern replacement : String) (text : Text) : Text :=
  replaceLoop pattern.toList replacement.toList 0 text

/-- `str::contains`. -/
def contains (pattern : String) (text : Text) : Bool := decide (pattern.toList <:+: text)

/-! ## TOTP -/

/-- The algorithm of a `TimeOtp-Algorithm` value, in the spelling of a URI. -/
def canonicalAlgorithm (text : Text) : Text :=
  replace "-" "" (replace "SHA-" "SHA" (replace "HMAC" "" (replace "HMAC-" "" text)))

/-- The URI that `extract_totp` builds from the `TimeOtp-*` fields. -/
def timeOtpUri (entry : KdbxEntry) (secret : Text) : Text :=
  let value (key : String) := (entry.field key).map fun string => trim string.asStrLossy
  let period := ((value "TimeOtp-Period").bind (parseUnsigned (2 ^ 32 - 1))).filter (1 ≤ ·)
  let digits := ((value "TimeOtp-Digits").bind (parseUnsigned 255)).filter
    fun digits => 6 ≤ digits && digits ≤ 8
  let algorithm := ((value "TimeOtp-Algorithm").map fun text =>
    canonicalAlgorithm (text.map Char.toUpper)).filter
      ["SHA1".toList, "SHA256".toList, "SHA512".toList].contains
  "otpauth://totp/imported?secret=".toList ++ secret ++
    (period.map fun period => "&period=".toList ++ (toString period).toList).getD [] ++
    (digits.map fun digits => "&digits=".toList ++ (toString digits).toList).getD [] ++
    (algorithm.map fun canonical => "&algorithm=".toList ++ canonical).getD []

/-- `extract_totp`: the `otp` field if it parses, else the `TimeOtp-*` fields. -/
def extractTotp (entry : KdbxEntry) : Option ParsedTotpSecret :=
  let fromOtp := (entry.field "otp").bind fun string => parseTotpSecret (trim string.asStrLossy)
  let fromTimeOtp := (entry.field "TimeOtp-Secret-Base32").bind fun string =>
    let secret := trim string.asStrLossy
    if secret.isEmpty then none else parseOtpauthUri (timeOtpUri entry secret)
  fromOtp <|> fromTimeOtp

/-! ## The fields of an account -/

/-- The display name, made up if there is no title. -/
def mapDisplayName (title username url : Text) : Text :=
  let untitled (text : Text) := "(untitled — ".toList ++ text ++ [')']
  let name :=
    if (trim title).isEmpty then
      if !(trim username).isEmpty then
        untitled (trim username)
      else if !(trim url).isEmpty then
        let host := (trimStartMatches "http://".toList
          (trimStartMatches "https://".toList (trim url))).takeWhile (· ≠ '/')
        if host.isEmpty then "Imported entry".toList else untitled host
      else
        "Imported entry".toList
    else
      trim title
  truncateChars name displayNameMax

/-- The username, with a placeholder. -/
def mapUsername (username : Text) : Text :=
  if (trim username).isEmpty then "(no username)".toList
  else truncateBytes (trim username) usernameMax

/-- The URL, if it is short and has a scheme or a dot. -/
def mapUrls (url : Text) : List Text :=
  let trimmed := trim url
  let urls :=
    if !trimmed.isEmpty && (encode trimmed).length ≤ urlMax &&
        (contains "://" trimmed || contains "." trimmed) then [trimmed]
    else []
  urls.take urlsMax

/-- `is_known_key`. -/
def isKnownKey (key : Text) : Bool :=
  (["Title", "UserName", "Password", "URL", "Notes", "otp"].map String.toList).contains key ||
    "TimeOtp-".toList.isPrefixOf key

/-- Text, a line break and more text. -/
def onNewLine (notes text : Text) : Text :=
  if notes.isEmpty then text else notes ++ ['\n'] ++ text

/-- The notes with the custom fields and the note on attachments. -/
def composeNotes (entry : KdbxEntry) (attachmentNote : Option Text) : Text :=
  let notes := valStr entry "Notes"
  let custom := entry.strings.filter fun string => !isKnownKey string.key
  let notes :=
    if custom.isEmpty then notes
    else onNewLine notes "--- Imported custom fields ---".toList ++ custom.flatMap fun string =>
      ['\n'] ++ string.key ++ ": ".toList ++ string.asStrLossy
  match attachmentNote with
  | none => notes
  | some note => onNewLine notes note

def truncationMarker : Text := "\n[notes truncated]".toList

/-- The notes cut to the cap; notes that reach it get a marker. -/
def mapNotes (entry : KdbxEntry) (attachmentNote : Option Text) : Text :=
  let notes := truncateBytes (composeNotes entry attachmentNote) notesMax
  if (encode notes).length = notesMax then
    truncateBytes notes (notesMax - truncationMarker.length) ++ truncationMarker
  else
    notes

/-- Keep the tags that are not empty and not there yet in another case. -/
def dedupTags : List Text → List Text → List Text
  | _, [] => []
  | seen, tag :: tags =>
      let lower := tag.map Char.toLower
      if tag.isEmpty || seen.contains lower then dedupTags seen tags
      else tag :: dedupTags (lower :: seen) tags

/-- The tags of an entry, its groups, and whether it has expired. -/
def mapTags (entry : KdbxEntry) (now : Int) : List Text :=
  let tags := entry.tags.map fun tag => truncateBytes (trim tag) tagMax
  let groups := (entry.groupPath.filter fun group => !(trim group).isEmpty).map
    fun group => truncateBytes (trim group) tagMax
  let expired := entry.expires && entry.expiryTimeUnix.any (· < now)
  let all := tags ++ groups ++ if expired then ["expired".toList] else []
  (dedupTags [] all).take tagsMax

/-- The loop over the history: it goes on until `room` passwords have been kept. -/
def mapHistory (password : List UInt8) : Nat → Option (List UInt8) →
    List (List UInt8 × Option Int) → List (List UInt8 × Option Int)
  | 0, _, _ => []
  | _ + 1, _, [] => []
  | room + 1, previous, (bytes, time) :: rest =>
      if bytes.isEmpty || previous = some bytes || bytes = password ||
          passwordMax < bytes.length then
        mapHistory password (room + 1) previous rest
      else
        (bytes, time) :: mapHistory password room (some bytes) rest

/-- `map_entry`; `now` is the clock it reads. -/
def mapEntry (entry : KdbxEntry) (attachmentNote : Option Text) (now : Int) :
    Except EntrySkip MappedEntry :=
  if entry.strings.isEmpty then
    .error .noFields
  else if (trim (valStr entry "Password")).isEmpty then
    .error .emptyPassword
  else
    let password := (((entry.field "Password").map KdbxStringValue.value).getD []).take passwordMax
    .ok {
      displayName := mapDisplayName (valStr entry "Title") (valStr entry "UserName")
        (valStr entry "URL")
      usernames := [mapUsername (valStr entry "UserName")]
      urls := mapUrls (valStr entry "URL")
      notes := mapNotes entry attachmentNote
      password
      totp := extractTotp entry
      tags := mapTags entry now
      historyPasswords :=
        mapHistory password kdbxMaxHistoryPerEntry none entry.historyPasswords }

end Pangolin.Kdbx
