import Pangolin.Kdbx.Header
import Pangolin.Kdbx.Map
import Pangolin.Kdbx.Time
import Pangolin.Lib.Xml

/-!
# The inner XML

The XML inside a KeePass file is read event by event, with the path of open elements, the text
since the last start or end of an element, the open groups and the open entries.  Protected values
are unmasked with the inner stream as they are met.
-/

namespace Pangolin.Kdbx

open Store Utf8 Xml

/-! ## The inner stream -/

/-- The hashes and ciphers under the inner stream; a cipher is known by its keystream. -/
structure StreamCiphers where
  sha256 : List UInt8 → List UInt8
  sha512 : List UInt8 → List UInt8
  salsa20 : (key iv : List UInt8) → Nat → UInt8
  chaCha20 : (key nonce : List UInt8) → Nat → UInt8

/-- `SALSA20_IV`. -/
def salsa20Iv : List UInt8 := [0xE8, 0x30, 0x09, 0x4B, 0x97, 0x20, 0x5D, 0x2A]

structure InnerStream where
  keystream : Nat → UInt8
  position : Nat

/-- `InnerStream::new`.  Without a cipher bytes stay as they are. -/
def InnerStream.new (ciphers : StreamCiphers) (cipher : InnerStreamCipher)
    (rawKey : List UInt8) : InnerStream :=
  match cipher with
  | .none => ⟨fun _ => 0, 0⟩
  | .salsa20 => ⟨ciphers.salsa20 (ciphers.sha256 rawKey) salsa20Iv, 0⟩
  | .chaCha20 =>
      let h := ciphers.sha512 rawKey
      ⟨ciphers.chaCha20 (h.take 32) ((h.drop 32).take 12), 0⟩

/-- Bytes with the keystream from a position on. -/
def masked (keystream : Nat → UInt8) : Nat → List UInt8 → List UInt8
  | _, [] => []
  | position, byte :: bytes =>
      (byte ^^^ keystream position) :: masked keystream (position + 1) bytes

/-- `InnerStream::apply`. -/
def InnerStream.apply (stream : InnerStream) (buf : List UInt8) : List UInt8 × InnerStream :=
  (masked stream.keystream stream.position buf,
    { stream with position := stream.position + buf.length })

/-! ## What is collected -/

def maxEvents : Nat := 8000000
def maxDepth : Nat := 256
def maxTextBytes : Nat := 16 * 1024 * 1024

/-- `KDBX_MAX_ENTRIES`. -/
def kdbxMaxEntries : Nat := 100000

structure KdbxTimes where
  expires : Bool
  expiryTimeRaw : Option Text
  lastModRaw : Option Text
  deriving Repr, DecidableEq

structure HistEntry where
  password : Option (List UInt8)
  lastModUnix : Option Int
  deriving Repr, DecidableEq

structure EntryBuild where
  strings : List KdbxStringValue
  tags : List Text
  times : KdbxTimes
  history : List HistEntry
  curKey : Option Text
  curVal : Option (List UInt8)
  curProtected : Bool
  deriving Repr, DecidableEq

/-- `EntryBuild::default`. -/
def EntryBuild.default : EntryBuild := ⟨[], [], ⟨false, none, none⟩, [], none, none, false⟩

structure GroupFrame where
  name : Text
  uuid : Option Text
  inRecycle : Bool
  deriving Repr, DecidableEq

/-- What is known of the document so far.  The innermost group and entry come first. -/
structure Collected where
  groups : List GroupFrame
  recycleBinUuid : Option Text
  entryStack : List EntryBuild
  entries : List KdbxEntry
  recycleSkipped : Nat
  stream : InnerStream

/-- Change the innermost open entry, when there is one. -/
def Collected.onTop (change : EntryBuild → EntryBuild) (found : Collected) : Collected :=
  { found with entryStack := found.entryStack.modifyHead change }

/-- Change the innermost open group, when there is one. -/
def Collected.onGroup (change : GroupFrame → GroupFrame) (found : Collected) : Collected :=
  { found with groups := found.groups.modifyHead change }

/-! ## The start of an element -/

/-- `str::eq_ignore_ascii_case`. -/
def eqIgnoreAsciiCase (first second : Text) : Bool :=
  first.map Char.toLower = second.map Char.toLower

/-- `read_protected_attr`. -/
def readProtectedAttr : List (Except String Attribute) → Except KdbxError Bool
  | [] => .ok false
  | .error er :: _ => .error (.xmlMalformed ("attr: " ++ er))
  | .ok attr :: rest =>
      if attr.key = "Protected" then
        match attr.value with
        | .error er => .error (.xmlMalformed ("attr: " ++ er))
        | .ok v => .ok (eqIgnoreAsciiCase v "true".toList)
      else
        readProtectedAttr rest

/-- `on_start`. -/
def onStart (name : String) (protectedValue : Bool) (parent : Option String)
    (found : Collected) : Collected :=
  if name = "Group" then
    let inherit := found.groups.head?.any GroupFrame.inRecycle
    { found with groups := ⟨[], none, inherit⟩ :: found.groups }
  else if name = "Entry" then
    { found with entryStack := .default :: found.entryStack }
  else if name = "String" then
    found.onTop fun top => { top with curKey := none, curVal := none, curProtected := false }
  else if name = "Value" ∧ parent = some "String" then
    found.onTop fun top => { top with curProtected := protectedValue }
  else
    found

/-! ## The end of an element -/

section

variable (decodeBase64 : List UInt8 → Option (List UInt8))

/-- The closure `decode_protected`. -/
def decodeProtected (b64 : Text) (stream : InnerStream) :
    Except KdbxError (List UInt8 × InnerStream) :=
  match decodeBase64 (encode (trim b64)) with
  | none => .error (.xmlMalformed "bad base64 in Protected value")
  | some raw => .ok (stream.apply raw)

/-- The end of a `Value` in a `String`. -/
def endValue (text : Text) (found : Collected) : Except KdbxError Collected :=
  match found.entryStack with
  | [] => .ok found
  | top :: rest =>
      if top.curProtected then do
        let (val, stream) ← decodeProtected decodeBase64 text found.stream
        return { found with entryStack := { top with curVal := some val } :: rest, stream }
      else
        .ok { found with entryStack := { top with curVal := some (encode text) } :: rest }

/-- The end of a `String` in an `Entry`. -/
def EntryBuild.endString (top : EntryBuild) : EntryBuild :=
  match top.curKey with
  | none => top
  | some key =>
      { top with
        strings := top.strings ++ [⟨key, top.curVal.getD []⟩]
        curKey := none
        curVal := none }

/-- The parts of a `Tags` element. -/
def splitTags (text : Text) : List Text :=
  ((text.splitOnP fun char => char = ';' || char = ',').map trim).filter fun part => !part.isEmpty

/-- The path of the open groups: without the first and those without a name. -/
def groupPath (groups : List GroupFrame) : List Text :=
  ((groups.reverse.drop 1).map GroupFrame.name).filter fun name => !name.isEmpty

/-- An entry as it is reported. -/
def EntryBuild.report (built : EntryBuild) (groups : List GroupFrame) : KdbxEntry where
  strings := built.strings
  tags := built.tags
  groupPath := groupPath groups
  expires := built.times.expires
  expiryTimeUnix := built.times.expiryTimeRaw.bind (parseKdbxTime decodeBase64)
  historyPasswords := built.history.filterMap fun h => h.password.map (·, h.lastModUnix)

/-- A revision as its entry keeps it. -/
def EntryBuild.revision (built : EntryBuild) : HistEntry where
  password := (built.strings.find? fun string => string.key = "Password".toList).map (·.value)
  lastModUnix := built.times.lastModRaw.bind (parseKdbxTime decodeBase64)

/-- The end of an `Entry`. -/
def endEntry (parent : Option String) (found : Collected) : Except KdbxError Collected :=
  match found.entryStack with
  | [] => .error (.xmlMalformed "Entry stack underflow")
  | built :: rest =>
      if parent = some "History" then
        .ok { found with
          entryStack := rest.modifyHead fun parentEntry =>
            { parentEntry with history := parentEntry.history ++ [built.revision decodeBase64] } }
      else if found.groups.head?.any GroupFrame.inRecycle then
        .ok { found with entryStack := rest, recycleSkipped := found.recycleSkipped + 1 }
      else if kdbxMaxEntries ≤ found.entries.length then
        .error (.tooManyEntries kdbxMaxEntries)
      else
        .ok { found with
          entryStack := rest
          entries := found.entries ++ [built.report decodeBase64 found.groups] }

/-- The end of `RecycleBinUUID` in `Meta`.  The letters of sixteen zero bytes stand for no recycle
bin. -/
def endRecycleBinUuid (text : Text) (found : Collected) : Collected :=
  let t := trim text
  if !t.isEmpty && !t.all (fun c => c = 'A' || c = '=') then
    { found with recycleBinUuid := some t }
  else
    found

/-- The end of `UUID` in a `Group`. -/
def endGroupUuid (text : Text) (found : Collected) : Collected :=
  let u := trim text
  let isRb := found.recycleBinUuid.any (eqIgnoreAsciiCase · u)
  found.onGroup fun g => { g with uuid := some u, inRecycle := isRb || g.inRecycle }

/-- `on_end`. -/
def onEnd (name : String) (text : Text) (parent : Option String) (found : Collected) :
    Except KdbxError Collected :=
  if name = "RecycleBinUUID" ∧ parent = some "Meta" then
    .ok (endRecycleBinUuid text found)
  else if name = "UUID" ∧ parent = some "Group" then
    .ok (endGroupUuid text found)
  else if name = "Name" ∧ parent = some "Group" then
    .ok (found.onGroup fun g => { g with name := text })
  else if name = "Key" ∧ parent = some "String" then
    .ok (found.onTop fun top => { top with curKey := some text })
  else if name = "Value" ∧ parent = some "String" then
    endValue decodeBase64 text found
  else if name = "String" ∧ parent = some "Entry" then
    .ok (found.onTop EntryBuild.endString)
  else if name = "Tags" ∧ parent = some "Entry" then
    .ok (found.onTop fun top => { top with tags := top.tags ++ splitTags text })
  else if name = "Expires" ∧ parent = some "Times" then
    .ok (found.onTop fun top => { top with times := { top.times with
      expires := eqIgnoreAsciiCase (trim text) "true".toList } })
  else if name = "ExpiryTime" ∧ parent = some "Times" then
    .ok (found.onTop fun top => { top with times := { top.times with
      expiryTimeRaw := some (trim text) } })
  else if name = "LastModificationTime" ∧ parent = some "Times" then
    .ok (found.onTop fun top => { top with times := { top.times with
      lastModRaw := some (trim text) } })
  else if name = "Entry" then
    endEntry decodeBase64 parent found
  else if name = "Group" then
    match found.groups with
    | [] => .error (.xmlMalformed "Group stack underflow")
    | _ :: groups => .ok { found with groups }
  else
    .ok found

/-! ## The reader -/

/-- The path of open elements, innermost first, the text collected, and what was found. -/
structure Walker where
  path : List String
  textBuf : Text
  found : Collected

/-- Text is collected up to a cap. -/
def Walker.push (walker : Walker) (reason : String) (s : Text) : Except KdbxError Walker :=
  if maxTextBytes < (encode walker.textBuf).length + (encode s).length then
    .error (.xmlMalformed reason)
  else
    .ok { walker with textBuf := walker.textBuf ++ s }

/-- One event. -/
def Walker.step (walker : Walker) : Event → Except KdbxError Walker
  | .start name attributes =>
      if maxDepth ≤ walker.path.length then
        .error (.xmlMalformed "XML nesting too deep")
      else do
        let protectedValue ← readProtectedAttr attributes
        return ⟨name :: walker.path, [], onStart name protectedValue walker.path.head? walker.found⟩
  | .empty name attributes => do
      let protectedValue ← readProtectedAttr attributes
      let parent := walker.path.head?
      let found ← onEnd decodeBase64 name [] parent (onStart name protectedValue parent walker.found)
      return { walker with found }
  | .text content =>
      match content with
      | .error e => .error (.xmlMalformed ("text: " ++ e))
      | .ok s => walker.push "element text too large" s
  | .cdata s => walker.push "element CDATA too large" s
  | .close =>
      match walker.path with
      | [] => .error (.xmlMalformed "unbalanced XML")
      | name :: path => do
          let found ← onEnd decodeBase64 name walker.textBuf path.head? walker.found
          return ⟨path, [], found⟩
  | .aside => .ok walker

/-- The loop over the events, of which so many have been read.  The end of the document counts. -/
def readEvents : Nat → List (Except String Event) → Walker → Except KdbxError Walker
  | events, [], walker =>
      if maxEvents < events + 1 then .error (.xmlMalformed "too many XML events") else .ok walker
  | _, .error e :: _, _ => .error (.xmlMalformed ("xml: " ++ e))
  | events, .ok event :: rest, walker =>
      if maxEvents < events + 1 then
        .error (.xmlMalformed "too many XML events")
      else do
        let walker ← walker.step decodeBase64 event
        readEvents (events + 1) rest walker

structure ParsedXml where
  entries : List KdbxEntry
  recycleBinEntries : Nat
  deriving Repr, DecidableEq

/-- `parse_kdbx_xml`.  The events are those the XML parser reports of the text. -/
def parseKdbxXml (pull : Text → List (Except String Event)) (xml : List UInt8)
    (stream : InnerStream) : Except KdbxError ParsedXml := do
  match decode? xml with
  | none => .error (.xmlMalformed "inner XML is not valid UTF-8")
  | some text =>
      let walker ← readEvents decodeBase64 0 (pull text) ⟨[], [], [], none, [], [], 0, stream⟩
      if walker.found.entryStack.isEmpty then
        return ⟨walker.found.entries, walker.found.recycleSkipped⟩
      else
        .error (.xmlMalformed "unclosed Entry")

end

end Pangolin.Kdbx
