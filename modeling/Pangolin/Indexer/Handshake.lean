import Pangolin.Lib.CborItems
import Pangolin.Lib.Utf8

/-!
# The handshake of the indexer

The host writes the derived key and the run nonce to the indexer's standard input before any
request: a length in four bytes, and a map of two entries.  The reader takes exactly what was
written.  What it accepts is every spelling of such a map, whatever form its headers have,
with anything after it that no header can be pulled from.
-/

namespace Pangolin.Indexer.Handshake

open Reading Cbor Utf8

/-! ## Messages and errors -/

/-- `HANDSHAKE_KEY_LEN`. -/
def handshakeKeyLen : Nat := 32

/-- `HANDSHAKE_RUN_NONCE_LEN`. -/
def handshakeRunNonceLen : Nat := 16

/-- `MAX_HANDSHAKE_BYTES`. -/
def maxHandshakeBytes : Nat := 256

/-- `KEY_DERIVED_KEY`. -/
def keyDerivedKey : Text := "derived_key".toList

/-- `KEY_RUN_NONCE`. -/
def keyRunNonce : Text := "run_nonce".toList

@[ext] structure IndexerHandshake where
  derivedKey : Vector UInt8 handshakeKeyLen
  runNonce : Vector UInt8 handshakeRunNonceLen
  deriving DecidableEq

/-- What the text of a decoding error says. -/
inductive CborCause where
  | pull (context : String)
  | header (expected : String) (got : Header)
  | tooLong (kind : String) (length : Nat)
  | message (text : String)
  | key (position : String) (expected got : Text)
  | length (field : String) (expected got : Nat)
  deriving DecidableEq

inductive HandshakeError where
  | prefixTruncated
  | oversizeFrame (length max : Nat)
  | bodyTruncated (got expected : Nat)
  | cbor (cause : CborCause)
  deriving DecidableEq

abbrev Dec (α : Type) := Reader HandshakeError α

def refuse {α : Type} (cause : CborCause) : Dec α := fun _ => .error (.cbor cause)

/-! ## Writing -/

section

variable (codec : StreamCodec)

def pushText (text : Text) : List UInt8 :=
  codec.push (.text (some (encode text).length)) ++ encode text

def pushBytes (bytes : List UInt8) : List UInt8 :=
  codec.push (.bytes (some bytes.length)) ++ bytes

/-- `encode_body`. -/
def encodeBody (msg : IndexerHandshake) : List UInt8 :=
  codec.push (.map (some 2)) ++ pushText codec keyDerivedKey ++
    pushBytes codec msg.derivedKey.toList ++ pushText codec keyRunNonce ++
      pushBytes codec msg.runNonce.toList

/-- `write_handshake`. -/
def writeHandshake (msg : IndexerHandshake) : Except HandshakeError (List UInt8) :=
  let body := encodeBody codec msg
  if maxHandshakeBytes < body.length then
    .error (.oversizeFrame (min body.length (2 ^ 32 - 1)) maxHandshakeBytes)
  else
    .ok (toBytes 4 body.length ++ body)

/-! ## Reading -/

def pullHeader (context : String) : Dec Header := fun bytes =>
  match codec.pull bytes with
  | some pulled => .ok pulled
  | none => .error (.cbor (.pull context))

/-- What sets a text apart from a byte string. -/
structure StringKind where
  name : String
  indefinite : String
  expected : String
  lengthOf : Header → Option (Option Nat)
  header : Nat → Header
  lengthOf_eq : ∀ found length, lengthOf found = some (some length) ↔ found = header length
  definite : ∀ length, length < 2 ^ 64 → (header length).Definite

def textKind : StringKind where
  name := "text"
  indefinite := "indefinite-length text strings rejected"
  expected := "expected text key"
  lengthOf
    | .text length => some length
    | _ => none
  header length := .text (some length)
  lengthOf_eq found length := by cases found <;> simp
  definite _ small := small

def bytesKind : StringKind where
  name := "bytes"
  indefinite := "indefinite-length byte strings rejected"
  expected := "expected bytes value"
  lengthOf
    | .bytes length => some length
    | _ => none
  header length := .bytes (some length)
  lengthOf_eq found length := by cases found <;> simp
  definite _ small := small

/-- The bytes a header of a kind announces. -/
def stringBody (kind : StringKind) (header : Header) : Dec (List UInt8) :=
  match kind.lengthOf header with
  | some (some length) =>
      if maxHandshakeBytes < length then refuse (.tooLong kind.name length)
      else Reader.exactly (.cbor (.message (kind.name ++ " read truncated"))) length
  | some none => refuse (.message kind.indefinite)
  | none => refuse (.header kind.expected header)

def pullString (kind : StringKind) : Dec (List UInt8) := do
  let header ← pullHeader codec (kind.name ++ " header")
  stringBody kind header

/-- `String::from_utf8`. -/
def fromUtf8 (bytes : List UInt8) : Dec Text :=
  match decode? bytes with
  | some text => pure text
  | none => refuse (.message "text not valid UTF-8")

def pullText : Dec Text := do
  let bytes ← pullString codec textKind
  fromUtf8 bytes

def pullBytes : Dec (List UInt8) := pullString codec bytesKind

def expectMap : Dec Unit := do
  let header ← pullHeader codec "map header"
  if header = .map (some 2) then pure () else refuse (.header "expected map(2)" header)

def expectKey (position : String) (expected : Text) : Dec Unit := do
  let found ← pullText codec
  if found = expected then pure () else refuse (.key position expected found)

/-- The array of a field, or an error with the length it shows. -/
def toArray (field : String) (width : Nat) (shown : Nat → Nat) (bytes : List UInt8) :
    Dec (Vector UInt8 width) :=
  if sized : bytes.length = width then pure ⟨bytes.toArray, by simpa using sized⟩
  else refuse (.length field width (shown bytes.length))

def pullArray (field : String) (width : Nat) (shown : Nat → Nat) : Dec (Vector UInt8 width) := do
  let bytes ← pullBytes codec
  toArray field width shown bytes

/-- The two entries.  The bytes of a wrong key are wiped before the error is made, and
wiping empties them: the length it shows is zero. -/
def pullEntries : Dec IndexerHandshake := do
  expectMap codec
  expectKey codec "first" keyDerivedKey
  let derivedKey ← pullArray codec "derived_key" handshakeKeyLen fun _ => 0
  expectKey codec "second" keyRunNonce
  let runNonce ← pullArray codec "run_nonce" handshakeRunNonceLen fun length => length
  return ⟨derivedKey, runNonce⟩

/-- `decode_body`.  The body counts as used up when no further header can be pulled. -/
def decodeBody (body : List UInt8) : Except HandshakeError IndexerHandshake :=
  match pullEntries codec body with
  | .error error => .error error
  | .ok (msg, rest) =>
      if (codec.pull rest).isSome then .error (.cbor (.message "trailing CBOR after map(2)"))
      else .ok msg

def readBody (length : Nat) : Dec IndexerHandshake := do
  let body ← Reader.exactly (.bodyTruncated 0 length) length
  fun rest => (decodeBody codec body).map fun msg => (msg, rest)

/-- `read_handshake`. -/
def readHandshake : Dec IndexerHandshake := do
  let length ← Reader.number .prefixTruncated 4
  if maxHandshakeBytes < length then fun _ => .error (.oversizeFrame length maxHandshakeBytes)
  else readBody codec length

end

/-! ## What each reader takes -/

section

variable {codec : StreamCodec} {bytes rest : List UInt8}

theorem pullHeader_iff {context : String} {header : Header} :
    pullHeader codec context bytes = .ok (header, rest) ↔
      ∃ head, Head codec header head ∧ bytes = head ++ rest := by
  rw [pullHeader]
  constructor
  · intro read
    cases pulled : codec.pull bytes with
    | none =>
        rw [pulled] at read
        cases read
    | some found =>
        rw [pulled] at read
        cases read
        obtain ⟨head, same, headed⟩ := Head.of_pull pulled
        exact ⟨head, headed, same⟩
  · intro ⟨head, headed, same⟩
    rw [same, headed.pulls]

theorem stringBody_iff {kind : StringKind} {header : Header} {value : List UInt8} :
    stringBody kind header bytes = .ok (value, rest) ↔
      header = kind.header value.length ∧ value.length ≤ maxHandshakeBytes ∧
        bytes = value ++ rest := by
  constructor
  · intro read
    rw [stringBody] at read
    cases known : kind.lengthOf header with
    | none =>
        rw [known] at read
        cases read
    | some announced =>
        rw [known] at read
        cases announced with
        | none => cases read
        | some length =>
            by_cases long : maxHandshakeBytes < length
            · simp only [long, if_true] at read
              cases read
            · simp only [long, if_false] at read
              obtain ⟨same, rfl⟩ := Reader.exactly_eq_ok read
              exact ⟨(kind.lengthOf_eq _ _).mp known, Nat.le_of_not_lt long, same⟩
  · intro ⟨same, short, split⟩
    rw [stringBody, (kind.lengthOf_eq _ _).mpr same]
    simp only [Nat.not_lt.mpr short, if_false]
    rw [split]
    exact Reads.exactly _ value rest

theorem pullString_iff {kind : StringKind} {value : List UInt8} :
    pullString codec kind bytes = .ok (value, rest) ↔
      ∃ head, Head codec (kind.header value.length) head ∧
        value.length ≤ maxHandshakeBytes ∧ bytes = head ++ (value ++ rest) := by
  rw [pullString, Reader.bind_eq_ok_iff]
  constructor
  · intro ⟨header, left, pulled, body⟩
    obtain ⟨head, headed, rfl⟩ := pullHeader_iff.mp pulled
    obtain ⟨rfl, short, rfl⟩ := stringBody_iff.mp body
    exact ⟨head, headed, short, rfl⟩
  · intro ⟨head, headed, short, split⟩
    exact ⟨_, _, pullHeader_iff.mpr ⟨head, headed, split⟩, stringBody_iff.mpr ⟨rfl, short, rfl⟩⟩

theorem fromUtf8_iff {value : List UInt8} {text : Text} :
    fromUtf8 value bytes = .ok (text, rest) ↔ value = encode text ∧ bytes = rest := by
  constructor
  · intro read
    rw [fromUtf8] at read
    cases known : decode? value with
    | none =>
        rw [known] at read
        cases read
    | some found =>
        rw [known] at read
        cases read
        exact ⟨eq_encode_of_decode? known, rfl⟩
  · intro ⟨same, left⟩
    rw [fromUtf8, same, decode?_encode, left]
    rfl

theorem expectKey_iff {position : String} {expected : Text}
    (short : (encode expected).length ≤ maxHandshakeBytes) {done : Unit} :
    expectKey codec position expected bytes = .ok (done, rest) ↔
      ∃ head, Head codec (.text (some (encode expected).length)) head ∧
        bytes = head ++ (encode expected ++ rest) := by
  rw [expectKey, Reader.bind_eq_ok_iff]
  constructor
  · intro ⟨found, left, pulled, compared⟩
    rw [pullText, Reader.bind_eq_ok_iff] at pulled
    obtain ⟨value, after, string, decoded⟩ := pulled
    obtain ⟨rfl, rfl⟩ := fromUtf8_iff.mp decoded
    obtain ⟨head, headed, -, same⟩ := pullString_iff.mp string
    split at compared
    · next equal =>
        cases compared
        subst equal
        exact ⟨head, headed, same⟩
    · cases compared
  · intro ⟨head, headed, same⟩
    refine ⟨expected, rest, ?_, ?_⟩
    · rw [pullText, Reader.bind_eq_ok_iff]
      exact ⟨encode expected, rest, pullString_iff.mpr ⟨head, headed, short, same⟩,
        fromUtf8_iff.mpr ⟨rfl, rfl⟩⟩
    · rw [if_pos rfl]
      rfl

theorem pullArray_iff {field : String} {width : Nat} {shown : Nat → Nat}
    (short : width ≤ maxHandshakeBytes) {value : Vector UInt8 width} :
    pullArray codec field width shown bytes = .ok (value, rest) ↔
      ∃ head, Head codec (.bytes (some width)) head ∧
        bytes = head ++ (value.toList ++ rest) := by
  have sized : value.toList.length = width := by simp
  rw [pullArray, Reader.bind_eq_ok_iff]
  constructor
  · intro ⟨found, left, string, converted⟩
    obtain ⟨head, headed, -, same⟩ := pullString_iff.mp string
    rw [toArray] at converted
    split at converted
    · next fits =>
        cases converted
        refine ⟨head, ?_, same⟩
        rw [← fits]
        exact headed
    · cases converted
  · intro ⟨head, headed, same⟩
    refine ⟨value.toList, rest, pullString_iff.mpr ⟨head, ?_, ?_, same⟩, ?_⟩
    · rw [sized]
      exact headed
    · rw [sized]
      exact short
    · rw [toArray, dif_pos sized]
      rfl

theorem expectMap_iff {done : Unit} :
    expectMap codec bytes = .ok (done, rest) ↔
      ∃ head, Head codec (.map (some 2)) head ∧ bytes = head ++ rest := by
  rw [expectMap, Reader.bind_eq_ok_iff]
  constructor
  · intro ⟨header, left, pulled, compared⟩
    split at compared
    · next same =>
        cases compared
        subst same
        exact pullHeader_iff.mp pulled
    · cases compared
  · intro headed
    refine ⟨_, _, pullHeader_iff.mpr headed, ?_⟩
    rw [if_pos rfl]
    rfl

end

/-! ## The spellings of a handshake -/

/-- The five headers of a body. -/
@[ext] structure Headers where
  map : List UInt8
  firstKey : List UInt8
  derivedKey : List UInt8
  secondKey : List UInt8
  runNonce : List UInt8

/-- The body with these headers. -/
def Headers.spell (headers : Headers) (msg : IndexerHandshake) : List UInt8 :=
  headers.map ++ (headers.firstKey ++ (encode keyDerivedKey ++ (headers.derivedKey ++
    (msg.derivedKey.toList ++ (headers.secondKey ++ (encode keyRunNonce ++
      (headers.runNonce ++ msg.runNonce.toList)))))))

section

variable (codec : StreamCodec)

/-- Each header announces what the body has there, in whatever form. -/
structure Headers.Announce (headers : Headers) : Prop where
  map : Head codec (.map (some 2)) headers.map
  firstKey : Head codec (.text (some (encode keyDerivedKey).length)) headers.firstKey
  derivedKey : Head codec (.bytes (some handshakeKeyLen)) headers.derivedKey
  secondKey : Head codec (.text (some (encode keyRunNonce).length)) headers.secondKey
  runNonce : Head codec (.bytes (some handshakeRunNonceLen)) headers.runNonce

/-- The headers `encode_body` pushes. -/
def Headers.pushed : Headers where
  map := codec.push (.map (some 2))
  firstKey := codec.push (.text (some (encode keyDerivedKey).length))
  derivedKey := codec.push (.bytes (some handshakeKeyLen))
  secondKey := codec.push (.text (some (encode keyRunNonce).length))
  runNonce := codec.push (.bytes (some handshakeRunNonceLen))

theorem encodeBody_eq_spell (msg : IndexerHandshake) :
    encodeBody codec msg = (Headers.pushed codec).spell msg := by
  simp only [encodeBody, pushText, pushBytes, Headers.spell, Headers.pushed, List.append_assoc,
    Vector.length_toList]

variable {codec}

/-- The two keys are short, as ASCII texts of eleven and nine letters. -/
theorem length_encode_keys :
    (encode keyDerivedKey).length = 11 ∧ (encode keyRunNonce).length = 9 := by decide

theorem Headers.pushed_announce : (Headers.pushed codec).Announce codec := by
  obtain ⟨first, second⟩ := length_encode_keys
  have small : ∀ length, length < 33 → length < 2 ^ 64 := fun _ _ => by omega
  refine ⟨.of_push_map (by omega), .of_push ?_, .of_push ?_, .of_push ?_, .of_push ?_⟩
  · rw [first]
    exact small 11 (by decide)
  · exact small 32 (by decide)
  · rw [second]
    exact small 9 (by decide)
  · exact small 16 (by decide)

/-- Bytes are a spelling in one way at most. -/
theorem Headers.Announce.unique {headers headers' : Headers} {msg msg' : IndexerHandshake}
    {tail tail' : List UInt8} (announced : headers.Announce codec)
    (announced' : headers'.Announce codec)
    (same : headers.spell msg ++ tail = headers'.spell msg' ++ tail') :
    headers = headers' ∧ msg = msg' ∧ tail = tail' := by
  simp only [Headers.spell, List.append_assoc] at same
  obtain ⟨-, sameMap, same⟩ := announced.map.unique announced'.map same
  obtain ⟨-, sameFirst, same⟩ := announced.firstKey.unique announced'.firstKey same
  obtain ⟨-, sameDerived, same⟩ :=
    announced.derivedKey.unique announced'.derivedKey (List.append_cancel_left same)
  obtain ⟨sameKey, same⟩ := List.append_inj same (by simp only [Vector.length_toList])
  obtain ⟨-, sameSecond, same⟩ := announced.secondKey.unique announced'.secondKey same
  obtain ⟨-, sameRun, same⟩ :=
    announced.runNonce.unique announced'.runNonce (List.append_cancel_left same)
  obtain ⟨sameNonce, same⟩ := List.append_inj same (by simp only [Vector.length_toList])
  refine ⟨Headers.ext sameMap sameFirst sameDerived sameSecond sameRun, ?_, same⟩
  exact IndexerHandshake.ext (Vector.toList_inj.mp sameKey) (Vector.toList_inj.mp sameNonce)

/-- The reader of the entries takes exactly a spelling. -/
theorem pullEntries_iff {bytes rest : List UInt8} {msg : IndexerHandshake} :
    pullEntries codec bytes = .ok (msg, rest) ↔
      ∃ headers : Headers, headers.Announce codec ∧ bytes = headers.spell msg ++ rest := by
  obtain ⟨first, second⟩ := length_encode_keys
  have shortFirst : (encode keyDerivedKey).length ≤ maxHandshakeBytes := by
    rw [first]
    decide
  have shortSecond : (encode keyRunNonce).length ≤ maxHandshakeBytes := by
    rw [second]
    decide
  rw [pullEntries]
  simp only [Reader.bind_eq_ok_iff, expectMap_iff, expectKey_iff shortFirst,
    expectKey_iff shortSecond]
  constructor
  · intro ⟨_, _, ⟨map, mapHead, same⟩, _, _, ⟨firstKey, firstHead, same₁⟩, derivedKey, _, key,
      _, _, ⟨secondKey, secondHead, same₃⟩, runNonce, _, nonce, done⟩
    obtain ⟨keyHeader, keyHead, same₂⟩ := (pullArray_iff (by decide)).mp key
    obtain ⟨nonceHeader, nonceHead, same₄⟩ := (pullArray_iff (by decide)).mp nonce
    cases done
    refine ⟨⟨map, firstKey, keyHeader, secondKey, nonceHeader⟩,
      ⟨mapHead, firstHead, keyHead, secondHead, nonceHead⟩, ?_⟩
    rw [same, same₁, same₂, same₃, same₄]
    simp only [Headers.spell, List.append_assoc]
  · intro ⟨headers, announced, same⟩
    simp only [Headers.spell, List.append_assoc] at same
    exact ⟨(), _, ⟨_, announced.map, same⟩, (), _, ⟨_, announced.firstKey, rfl⟩, _, _,
      (pullArray_iff (by decide)).mpr ⟨_, announced.derivedKey, rfl⟩, (), _,
      ⟨_, announced.secondKey, rfl⟩, _, _,
      (pullArray_iff (by decide)).mpr ⟨_, announced.runNonce, rfl⟩, rfl⟩

/-- What `decode_body` accepts: a spelling and then bytes no header can be pulled from. -/
theorem decodeBody_iff {body : List UInt8} {msg : IndexerHandshake} :
    decodeBody codec body = .ok msg ↔
      ∃ (headers : Headers) (tail : List UInt8), headers.Announce codec ∧ codec.pull tail = none ∧
        body = headers.spell msg ++ tail := by
  rw [decodeBody]
  constructor
  · intro decoded
    split at decoded
    · cases decoded
    · next found rest entries =>
        cases pulled : codec.pull rest with
        | some more =>
            simp only [pulled, Option.isSome_some, if_true] at decoded
            cases decoded
        | none =>
            simp only [pulled, Option.isSome_none, Bool.false_eq_true, if_false] at decoded
            cases decoded
            obtain ⟨headers, announced, same⟩ := pullEntries_iff.mp entries
            exact ⟨headers, rest, announced, pulled, same⟩
  · intro ⟨headers, tail, announced, stuck, same⟩
    simp only [pullEntries_iff.mpr ⟨headers, announced, same⟩, stuck, Option.isSome_none,
      Bool.false_eq_true, if_false]

/-- No header is pulled from nothing. -/
theorem pull_nil : codec.pull [] = none := by
  cases pulled : codec.pull [] with
  | none => rfl
  | some result =>
      obtain ⟨taken, nonempty, split, -⟩ := codec.pull_takes _ _ _ pulled
      exact absurd (List.append_eq_nil_iff.mp split.symm).1 nonempty

theorem decodeBody_encodeBody (msg : IndexerHandshake) :
    decodeBody codec (encodeBody codec msg) = .ok msg := by
  refine decodeBody_iff.mpr ⟨.pushed codec, [], Headers.pushed_announce, pull_nil, ?_⟩
  rw [List.append_nil, encodeBody_eq_spell]

end

/-! ## The frame -/

section

variable (codec : FrameCodec)

/-- A body has five headers of at most nine bytes each. -/
theorem length_encodeBody (msg : IndexerHandshake) :
    (encodeBody codec.toStreamCodec msg).length ≤ maxHandshakeBytes := by
  obtain ⟨first, second⟩ := length_encode_keys
  have map := codec.length_push_map 2 (by omega)
  have text : ∀ length, length < 33 → (codec.push (.text (some length))).length ≤ 9 :=
    fun length small => codec.length_push _ (show length < 2 ^ 64 by omega)
  have bytes : ∀ length, length < 33 → (codec.push (.bytes (some length))).length ≤ 9 :=
    fun length small => codec.length_push _ (show length < 2 ^ 64 by omega)
  have firstKey := text 11 (by omega)
  have secondKey := text 9 (by omega)
  have derivedKey := bytes handshakeKeyLen (by decide)
  have runNonce := bytes handshakeRunNonceLen (by decide)
  have sizes : handshakeKeyLen = 32 ∧ handshakeRunNonceLen = 16 ∧ maxHandshakeBytes = 256 :=
    ⟨rfl, rfl, rfl⟩
  rw [encodeBody_eq_spell]
  simp only [Headers.spell, Headers.pushed, List.length_append, Vector.length_toList, first, second]
  omega

theorem writeHandshake_eq (msg : IndexerHandshake) :
    writeHandshake codec.toStreamCodec msg =
      .ok (toBytes 4 (encodeBody codec.toStreamCodec msg).length ++
        encodeBody codec.toStreamCodec msg) := by
  have short := length_encodeBody codec msg
  simp only [writeHandshake, Nat.not_lt.mpr short, if_false]

/-- The frame is read back and nothing after it is taken. -/
theorem reads_readHandshake (msg : IndexerHandshake) :
    Reads (readHandshake codec.toStreamCodec)
      (toBytes 4 (encodeBody codec.toStreamCodec msg).length ++
        encodeBody codec.toStreamCodec msg) msg := by
  have short := length_encodeBody codec msg
  have fits : (encodeBody codec.toStreamCodec msg).length < 256 ^ 4 :=
    Nat.lt_of_le_of_lt short (by decide)
  unfold readHandshake
  apply (Reads.number HandshakeError.prefixTruncated fits).bind
  rw [if_neg (Nat.not_lt.mpr short)]
  unfold readBody
  apply (Reads.exactly (HandshakeError.bodyTruncated 0 _) (encodeBody codec.toStreamCodec msg)).last
  intro rest
  rw [decodeBody_encodeBody]
  rfl

/-- Where the body is a handshake followed by bytes no header can be pulled from, its headers
are in the form they are pushed in and nothing follows. -/
def SpelledAsWritten (body : List UInt8) : Prop :=
  ∀ (headers : Headers) (msg : IndexerHandshake) (tail : List UInt8),
    headers.Announce codec.toStreamCodec → codec.pull tail = none →
      body = headers.spell msg ++ tail → headers = .pushed codec.toStreamCodec ∧ tail = []

/-- The reader takes what was written and no more, always; a body is accepted only as the
encoder writes it exactly when it is not spelled in another way. -/
theorem handshake_exact_iff :
    (∀ msg, ∃ written, writeHandshake codec.toStreamCodec msg = .ok written ∧
      ∀ rest, readHandshake codec.toStreamCodec (written ++ rest) = .ok (msg, rest)) ∧
    ∀ body, (∀ msg, decodeBody codec.toStreamCodec body = .ok msg →
        body = encodeBody codec.toStreamCodec msg) ↔ SpelledAsWritten codec body := by
  constructor
  · intro msg
    exact ⟨_, writeHandshake_eq codec msg, reads_readHandshake codec msg⟩
  · intro body
    constructor
    · intro strict headers msg tail announced stuck same
      have encoded : headers.spell msg ++ tail =
          (Headers.pushed codec.toStreamCodec).spell msg ++ [] := by
        rw [List.append_nil, ← encodeBody_eq_spell, ← same]
        exact strict msg (decodeBody_iff.mpr ⟨headers, tail, announced, stuck, same⟩)
      obtain ⟨sameHeaders, -, sameTail⟩ := announced.unique Headers.pushed_announce encoded
      exact ⟨sameHeaders, sameTail⟩
    · intro written msg decoded
      obtain ⟨headers, tail, announced, stuck, same⟩ := decodeBody_iff.mp decoded
      obtain ⟨rfl, rfl⟩ := written headers msg tail announced stuck same
      rw [same, encodeBody_eq_spell, List.append_nil]

end

/-! ## Bodies accepted in another form -/

def zeroHandshake : IndexerHandshake := ⟨Vector.replicate _ 0, Vector.replicate _ 0⟩

/-- The map header with its length in a byte of its own. -/
def longMapHeaders : Headers :=
  { Headers.pushed FrameCodec.rfc8949.toStreamCodec with map := [0xb8, 0x02] }

theorem longMapHeaders_announce :
    longMapHeaders.Announce FrameCodec.rfc8949.toStreamCodec where
  map := ⟨List.cons_ne_nil _ _, fun _ => rfl⟩
  firstKey := Headers.pushed_announce.firstKey
  derivedKey := Headers.pushed_announce.derivedKey
  secondKey := Headers.pushed_announce.secondKey
  runNonce := Headers.pushed_announce.runNonce

/-- A byte left over from which no header can be pulled is accepted, and so is a header that
is longer than it need be. -/
theorem decodeBody_accepts_other_forms :
    let codec := FrameCodec.rfc8949.toStreamCodec
    let trailing := encodeBody codec zeroHandshake ++ [0x1c]
    let longHeader := longMapHeaders.spell zeroHandshake
    (trailing.length ≤ maxHandshakeBytes ∧ decodeBody codec trailing = .ok zeroHandshake ∧
        trailing ≠ encodeBody codec zeroHandshake) ∧
      longHeader.length ≤ maxHandshakeBytes ∧ decodeBody codec longHeader = .ok zeroHandshake ∧
        longHeader ≠ encodeBody codec zeroHandshake := by
  refine ⟨⟨by decide, ?_, by decide⟩, by decide, ?_, by decide⟩
  · refine decodeBody_iff.mpr ⟨.pushed _, [0x1c], Headers.pushed_announce, rfl, ?_⟩
    rw [encodeBody_eq_spell]
  · refine decodeBody_iff.mpr ⟨longMapHeaders, [], longMapHeaders_announce, rfl, ?_⟩
    rw [List.append_nil]

end Pangolin.Indexer.Handshake
