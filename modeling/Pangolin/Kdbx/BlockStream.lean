import Pangolin.Kdbx.Header

/-!
# The encrypted payload of a KeePass file

A KDBX 4 payload comes in blocks.  Each carries a MAC over its index, its length and its
data under a key of its index, the header carries one under the largest index, and an empty
block ends the stream.  With MACs that cannot be forged, what is decrypted is what the
writer of the file encrypted.
-/

namespace Pangolin.Kdbx

open Reading HeaderReader

/-- `KDBX_MAX_INFLATED_BYTES`. -/
def kdbxMaxInflatedBytes : Nat := 256 * 1024 * 1024

/-- `KDBX_MAX_FILE_BYTES`. -/
def kdbxMaxFileBytes : Nat := 64 * 1024 * 1024

/-- The primitives: hashes, the two key derivations, HMAC-SHA256 and the two ciphers. -/
structure Primitives where
  sha256 : List UInt8 → List UInt8
  sha512 : List UInt8 → List UInt8
  transformKey : (composite : List UInt8) → Kdf → Except KdbxError (List UInt8)
  verifyHmac : (key message tag : List UInt8) → Bool
  aes256Cbc : (key iv ciphertext : List UInt8) → List UInt8
  chaCha20 : (key nonce ciphertext : List UInt8) → List UInt8

section

variable (p : Primitives)

def masterKey (masterSeed transformed : List UInt8) : List UInt8 :=
  p.sha256 (masterSeed ++ transformed)

def hmacBaseKey (masterSeed transformed : List UInt8) : List UInt8 :=
  p.sha512 (masterSeed ++ transformed ++ [1])

def blockHmacKey (base : List UInt8) (blockIndex : Nat) : List UInt8 :=
  p.sha512 (toBytesLe 8 blockIndex ++ base)

/-! ## The outer cipher -/

/-- Take the PKCS#7 padding off. -/
def stripPkcs7 (buf : List UInt8) : Except KdbxError (List UInt8) :=
  match buf.getLast? with
  | none => .error .wrongCredentials
  | some last =>
      let pad := last.toNat
      if pad = 0 ∨ 16 < pad ∨ buf.length < pad then .error .wrongCredentials
      else if (buf.drop (buf.length - pad)).any (fun byte => byte.toNat ≠ pad) then
        .error .wrongCredentials
      else .ok (buf.take (buf.length - pad))

/-- `decrypt_outer`. -/
def decryptOuter (cipher : OuterCipher) (key iv ct : List UInt8) (strip : Bool) :
    Except KdbxError (List UInt8) :=
  match cipher with
  | .aes256Cbc =>
      if ct.isEmpty ∨ ct.length % 16 ≠ 0 then
        .error .wrongCredentials
      else if iv.length ≠ 16 then
        .error (.corruptHeader "AES IV")
      else
        let buf := p.aes256Cbc key iv ct
        if strip then stripPkcs7 buf else .ok buf
  | .chaCha20 =>
      if iv.length ≠ 12 then .error (.corruptHeader "ChaCha20 nonce")
      else .ok (p.chaCha20 key iv ct)

/-- `decrypt_kdbx3_payload`. -/
def decryptKdbx3Payload (header : OuterHeader) (composite ciphertext : List UInt8) :
    Except KdbxError (List UInt8) := do
  let transformed ← p.transformKey composite header.kdf
  let mkey := masterKey p header.masterSeed transformed
  let pt ← decryptOuter p header.cipher mkey header.encryptionIv ciphertext false
  let expected ← required "missing stream start bytes" header.v3StreamStartBytes
  if pt.length < expected.length then
    .error .wrongCredentials
  else if pt.take expected.length ≠ expected then
    .error .wrongCredentials
  else
    let body := pt.drop expected.length
    if header.cipher = .aes256Cbc then stripPkcs7 body else .ok body

/-! ## The block stream -/

/-- The variables of the loop over the blocks. -/
structure BlockState where
  idx : Nat
  ct : List UInt8
  deriving Repr, DecidableEq

/-- What the MAC of a block is over. -/
def blockMessage (idx : Nat) (data : List UInt8) : List UInt8 :=
  toBytesLe 8 idx ++ toBytesLe 4 data.length ++ data

/-- One turn of the loop over the blocks. -/
def readBlock (base : List UInt8) (state : BlockState) :
    Reader KdbxError (BlockState ⊕ List UInt8) := do
  let hmacTag ← Reader.exactly (.corruptPayload "truncated block HMAC") 32
  let lenBytes ← Reader.exactly (.corruptPayload "truncated block length") 4
  let blkLen := ofBytesLe lenBytes
  if kdbxMaxInflatedBytes < blkLen then
    fail (.corruptPayload "block length too large")
  else
    let data ← Reader.exactly (.corruptPayload "truncated block data") blkLen
    if p.verifyHmac (blockHmacKey p base state.idx) (blockMessage state.idx data) hmacTag then
      if blkLen = 0 then
        return .inr state.ct
      else
        let ct := state.ct ++ data
        if state.idx + 1 = 2 ^ 64 then
          fail (.corruptPayload "too many blocks")
        else if kdbxMaxInflatedBytes < ct.length then
          fail (.inflatedTooLarge kdbxMaxInflatedBytes)
        else
          return .inl ⟨state.idx + 1, ct⟩
    else
      fail .blockHmacMismatch

/-- `decrypt_kdbx4_payload`. -/
def decryptKdbx4Payload (header : OuterHeader) (composite afterHeader : List UInt8) :
    Except KdbxError (List UInt8) := do
  let transformed ← p.transformKey composite header.kdf
  let mkey := masterKey p header.masterSeed transformed
  let base := hmacBaseKey p header.masterSeed transformed
  if afterHeader.length < 64 then
    .error (.corruptHeader "missing header integrity tags")
  else
    let headerSha := afterHeader.take 32
    let headerHmac := (afterHeader.drop 32).take 32
    let blocks := afterHeader.drop 64
    if p.sha256 header.rawHeader ≠ headerSha then
      .error (.corruptHeader "header SHA-256 mismatch")
    else if p.verifyHmac (blockHmacKey p base (2 ^ 64 - 1)) header.rawHeader headerHmac then do
      let (ct, _) ← Reader.repeatUntil truncated (readBlock p base) (blocks.length / 36 + 1)
        ⟨0, []⟩ blocks
      decryptOuter p header.cipher mkey header.encryptionIv ct (header.cipher = .aes256Cbc)
    else
      .error .wrongCredentials

/-- `fold_oracle`. -/
def foldOracle {α : Type} : Except KdbxError α → Except KdbxError α
  | .error .blockHmacMismatch => .error .wrongCredentials
  | result => result

/-- `read_kdbx` up to the decrypted payload, with the composite key of the credentials. -/
def readKdbxPayload (composite : Except KdbxError (List UInt8)) (bytes : List UInt8) :
    Except KdbxError (List UInt8) :=
  if kdbxMaxFileBytes < bytes.length then
    .error (.fileTooLarge bytes.length kdbxMaxFileBytes)
  else do
    let header ← parseOuterHeader bytes
    let composite ← composite
    let afterHeader := bytes.drop header.headerLen
    match header.format with
    | .v3 => foldOracle (decryptKdbx3Payload p header composite afterHeader)
    | .v4 => foldOracle (decryptKdbx4Payload p header composite afterHeader)

end

/-! ## The file as it was written -/

/-- What the writer of a file tagged: the header bytes and the blocks before the empty one. -/
structure WrittenFile where
  rawHeader : List UInt8
  blocks : List (List UInt8)
  nonempty : ∀ block ∈ blocks, block ≠ []
  indexed : blocks.length < 2 ^ 64 - 1

namespace WrittenFile

variable (file : WrittenFile)

/-- The blocks with the terminating one. -/
def stream : List (List UInt8) := file.blocks ++ [[]]

/-- The messages the writer tagged under the key of an index. -/
def Tagged (index : Nat) (message : List UInt8) : Prop :=
  index = 2 ^ 64 - 1 ∧ message = file.rawHeader ∨
    ∃ data, file.stream[index]? = some data ∧ message = blockMessage index data

end WrittenFile

/-- No tag verifies under the key of an index but for what the writer tagged there. -/
def Unforgeable (p : Primitives) (file : WrittenFile) : Prop :=
  ∀ base index message tag, index < 2 ^ 64 →
    p.verifyHmac (blockHmacKey p base index) message tag = true → file.Tagged index message

/-- A block as it stands in the stream. -/
def frame (tag data : List UInt8) : List UInt8 := tag ++ toBytesLe 4 data.length ++ data

/-- The bytes begin with these blocks, each under some tag. -/
inductive Framed : List (List UInt8) → (bytes rest : List UInt8) → Prop where
  | nil (rest : List UInt8) : Framed [] rest rest
  | cons (tag data : List UInt8) {blocks : List (List UInt8)} {bytes rest : List UInt8} :
      tag.length = 32 → Framed blocks bytes rest →
      Framed (data :: blocks) (frame tag data ++ bytes) rest

section

variable {p : Primitives} {base : List UInt8}

/-- A block that is read verified at its index, and goes on or ends the stream by whether it
holds data. -/
theorem readBlock_cases {state : BlockState} {bytes rest : List UInt8}
    {outcome : BlockState ⊕ List UInt8}
    (read : readBlock p base state bytes = .ok (outcome, rest)) :
    ∃ tag data, tag.length = 32 ∧ bytes = frame tag data ++ rest ∧
      p.verifyHmac (blockHmacKey p base state.idx) (blockMessage state.idx data) tag = true ∧
      (data = [] ∧ outcome = .inr state.ct ∨
        data ≠ [] ∧ outcome = .inl ⟨state.idx + 1, state.ct ++ data⟩) := by
  obtain ⟨tag, afterTag, readTag, readLater⟩ := Reader.bind_eq_ok_iff.mp read
  obtain ⟨lenBytes, afterLen, readLen, readRest⟩ := Reader.bind_eq_ok_iff.mp readLater
  simp only at readRest
  split at readRest
  · cases readRest
  obtain ⟨data, afterData, readData, checked⟩ := Reader.bind_eq_ok_iff.mp readRest
  obtain ⟨splitTag, tagSize⟩ := Reader.exactly_eq_ok readTag
  obtain ⟨splitLen, lenSize⟩ := Reader.exactly_eq_ok readLen
  obtain ⟨splitData, dataSize⟩ := Reader.exactly_eq_ok readData
  have lenIs : lenBytes = toBytesLe 4 data.length := by
    rw [dataSize, ← lenSize, toBytesLe_ofBytesLe]
  have framed : bytes = frame tag data ++ afterData := by
    rw [splitTag, splitLen, splitData, frame, lenIs]
    simp only [List.append_assoc]
  split at checked
  · next verified =>
      split at checked
      · next empty =>
          obtain ⟨rfl, rfl⟩ := Prod.mk.inj (Except.ok.inj checked)
          exact ⟨tag, data, tagSize, framed, verified,
            .inl ⟨List.length_eq_zero_iff.mp (dataSize.trans empty), rfl⟩⟩
      · next full =>
          split at checked
          · cases checked
          split at checked
          · cases checked
          obtain ⟨rfl, rfl⟩ := Prod.mk.inj (Except.ok.inj checked)
          refine ⟨tag, data, tagSize, framed, verified, .inr ⟨?_, rfl⟩⟩
          intro none
          rw [none] at dataSize
          exact full dataSize.symm
  · cases checked

/-- A block that does not end the stream takes at least its tag, its length and a byte. -/
theorem readBlock_consumes (state : BlockState) (bytes : List UInt8) (next : BlockState)
    (rest : List UInt8) (read : readBlock p base state bytes = .ok (.inl next, rest)) :
    rest.length + 36 ≤ bytes.length := by
  obtain ⟨tag, data, tagSize, rfl, -, ⟨-, ended⟩ | ⟨-, -⟩⟩ := readBlock_cases read
  · cases ended
  · simp only [frame, List.length_append, tagSize, length_toBytesLe]
    omega

/-- Equal messages of one index have equal data. -/
theorem blockMessage_inj {index : Nat} {data other : List UInt8}
    (same : blockMessage index data = blockMessage index other) : data = other := by
  unfold blockMessage at same
  exact (List.append_inj same (by simp)).2

/-- From a state after the writer's first blocks, a stream that is read to its end goes on
with the rest of them. -/
theorem framed_of_repeatUntil {file : WrittenFile} (unforgeable : Unforgeable p file)
    {stuck : KdbxError} {rounds : Nat} {state : BlockState} {bytes rest result : List UInt8}
    (within : state.idx ≤ file.blocks.length)
    (ended : Reader.repeatUntil stuck (readBlock p base) rounds state bytes = .ok (result, rest)) :
    Framed (file.stream.drop state.idx) bytes rest ∧
      result = state.ct ++ (file.blocks.drop state.idx).flatten := by
  induction rounds generalizing state bytes with
  | zero => cases ended
  | succ rounds ih =>
      rw [Reader.repeatUntil] at ended
      cases read : readBlock p base state bytes with
      | error error => simp [read] at ended
      | ok outcome =>
          obtain ⟨outcome, left⟩ := outcome
          obtain ⟨tag, data, tagSize, rfl, verified, cases⟩ := readBlock_cases read
          have indexed := file.indexed
          -- The tag was made at this index, so the data are the writer's block there.
          have written : file.stream[state.idx]? = some data := by
            rcases unforgeable _ _ _ _ (by omega) verified with ⟨header, -⟩ | ⟨other, found, same⟩
            · omega
            · rw [blockMessage_inj same]
              exact found
          obtain ⟨inside, here⟩ := List.getElem?_eq_some_iff.mp written
          have split : file.stream.drop state.idx = data :: file.stream.drop (state.idx + 1) := by
            rw [List.drop_eq_getElem_cons inside, here]
          simp only [read] at ended
          rcases cases with ⟨empty, rfl⟩ | ⟨full, rfl⟩
          · -- Only the terminating block is empty.
            obtain ⟨rfl, rfl⟩ := Prod.mk.inj (Except.ok.inj ended)
            have last : state.idx = file.blocks.length := by
              apply Nat.le_antisymm within
              by_contra before
              have block : file.blocks[state.idx]? = some data := by
                rwa [WrittenFile.stream, List.getElem?_append_left (by omega)] at written
              exact file.nonempty data (List.mem_of_getElem? block) empty
            have none : file.stream.drop (state.idx + 1) = [] := by
              apply List.drop_eq_nil_of_le
              rw [WrittenFile.stream, List.length_append, List.length_singleton]
              omega
            rw [split, none]
            refine ⟨.cons tag data tagSize (.nil left), ?_⟩
            rw [last, List.drop_length, List.flatten_nil, List.append_nil]
          · have before : state.idx < file.blocks.length := by
              apply Nat.lt_of_le_of_ne within
              intro last
              rw [WrittenFile.stream, last, List.getElem?_concat_length] at written
              exact full (Option.some.inj written).symm
            obtain ⟨framed, contents⟩ := ih (Nat.succ_le_of_lt before) ended
            have block : file.blocks[state.idx] = data := by
              have found : file.blocks[state.idx]? = some data := by
                rwa [WrittenFile.stream, List.getElem?_append_left before] at written
              rwa [List.getElem?_eq_getElem before, Option.some.injEq] at found
            rw [split]
            refine ⟨.cons tag data tagSize framed, ?_⟩
            rw [contents, List.drop_eq_getElem_cons before, block, List.flatten_cons,
              List.append_assoc]

/-- What a payload that is decrypted is known to be. -/
structure AuthenticPayload (p : Primitives) (file : WrittenFile) (header : OuterHeader)
    (key afterHeader plaintext : List UInt8) : Prop where
  rawHeader : header.rawHeader = file.rawHeader
  framed : ∃ rest, Framed file.stream (afterHeader.drop 64) rest
  plaintext : decryptOuter p header.cipher key header.encryptionIv file.blocks.flatten
    (header.cipher = .aes256Cbc) = .ok plaintext

/-- A payload that is decrypted has the writer's header and the writer's blocks, all of them
and in order. -/
theorem decryptKdbx4Payload_authentic {file : WrittenFile} (unforgeable : Unforgeable p file)
    {header : OuterHeader} {composite afterHeader plaintext : List UInt8}
    (decrypted : decryptKdbx4Payload p header composite afterHeader = .ok plaintext) :
    ∃ transformed, p.transformKey composite header.kdf = .ok transformed ∧
      AuthenticPayload p file header (masterKey p header.masterSeed transformed) afterHeader
        plaintext := by
  obtain ⟨transformed, derived, decrypted⟩ := Fallible.bind_eq_ok_iff.mp decrypted
  refine ⟨transformed, derived, ?_⟩
  simp only at decrypted
  split at decrypted
  · cases decrypted
  split at decrypted
  · cases decrypted
  split at decrypted
  · next verified =>
      obtain ⟨⟨ct, rest⟩, read, decrypted⟩ := Fallible.bind_eq_ok_iff.mp decrypted
      have indexed := file.indexed
      obtain ⟨framed, contents⟩ := framed_of_repeatUntil unforgeable (Nat.zero_le _) read
      refine ⟨?_, ⟨rest, framed⟩, ?_⟩
      · rcases unforgeable _ _ _ _ (by decide) verified with ⟨-, same⟩ | ⟨data, found, -⟩
        · exact same
        · -- No block has the index of the header.
          obtain ⟨inside, -⟩ := List.getElem?_eq_some_iff.mp found
          rw [WrittenFile.stream, List.length_append, List.length_singleton] at inside
          omega
      · rw [List.nil_append, List.drop_zero] at contents
        rw [← contents]
        exact decrypted
  · cases decrypted

/-- The loop over the blocks ends within one round for every 36 bytes, and one more. -/
theorem blockLoop_ends (stuck : KdbxError) {rounds : Nat} {state : BlockState}
    {blocks : List UInt8} (enough : blocks.length / 36 < rounds) :
    Reader.repeatUntil stuck (readBlock p base) rounds state blocks =
      Reader.repeatUntil truncated (readBlock p base) (blocks.length / 36 + 1) state blocks :=
  Reader.repeatUntil_eq (by decide) readBlock_consumes _ _ state enough (Nat.lt_succ_self _)

end

/-- The same primitives with another key derivation. -/
def Primitives.deriving (p : Primitives)
    (transformKey : List UInt8 → Kdf → Except KdbxError (List UInt8)) : Primitives :=
  { p with transformKey := transformKey }

/-- Key derivations that agree on the clamped parameters decrypt the same files. -/
theorem readKdbxPayload_congr (p : Primitives)
    {transformKey : List UInt8 → Kdf → Except KdbxError (List UInt8)}
    (agree : ∀ composite kdf, kdf.Clamped → transformKey composite kdf = p.transformKey composite kdf)
    (composite : Except KdbxError (List UInt8)) (bytes : List UInt8) :
    readKdbxPayload (p.deriving transformKey) composite bytes =
      readKdbxPayload p composite bytes := by
  unfold readKdbxPayload
  split
  · rfl
  cases parsed : parseOuterHeader bytes with
  | error error => rfl
  | ok header =>
      have same := fun composite => agree composite header.kdf (parseOuterHeader_clamped parsed)
      cases composite with
      | error error => rfl
      | ok composite =>
          simp only [bind, Except.bind]
          cases header.format with
          | v3 =>
              simp only [decryptKdbx3Payload, Primitives.deriving, same]
              rfl
          | v4 =>
              simp only [decryptKdbx4Payload, Primitives.deriving, same]
              rfl

/-- A payload is decrypted from the writer's header and the writer's blocks alone; the loop
over the blocks ends; and only clamped parameters reach the key derivation. -/
theorem kdbx4_payload_authenticated (p : Primitives) (file : WrittenFile)
    (unforgeable : Unforgeable p file) :
    (∀ header composite afterHeader plaintext,
      decryptKdbx4Payload p header composite afterHeader = .ok plaintext →
        ∃ transformed, p.transformKey composite header.kdf = .ok transformed ∧
          AuthenticPayload p file header (masterKey p header.masterSeed transformed) afterHeader
            plaintext) ∧
      (∀ stuck base rounds state blocks, blocks.length / 36 + 1 ≤ rounds →
        Reader.repeatUntil stuck (readBlock p base) rounds state blocks =
          Reader.repeatUntil truncated (readBlock p base) (blocks.length / 36 + 1) state blocks) ∧
      (∀ bytes header, parseOuterHeader bytes = .ok header → header.kdf.Clamped) ∧
      ∀ transformKey, (∀ composite kdf, kdf.Clamped →
        transformKey composite kdf = p.transformKey composite kdf) → ∀ composite bytes,
          readKdbxPayload (p.deriving transformKey) composite bytes =
            readKdbxPayload p composite bytes := by
  refine ⟨?_, ?_, ?_, ?_⟩
  · intro header composite afterHeader plaintext decrypted
    exact decryptKdbx4Payload_authentic unforgeable decrypted
  · intro stuck base rounds state blocks enough
    exact blockLoop_ends stuck enough
  · intro bytes header parsed
    exact parseOuterHeader_clamped parsed
  · intro transformKey agree composite bytes
    exact readKdbxPayload_congr p agree composite bytes

/-! ## A concrete file -/

namespace BlockSample

def zeros : List UInt8 := List.replicate 32 0

/-- One block of two bytes under a header of three. -/
def file : WrittenFile := ⟨[1, 2, 3], [[5, 6]], by decide, by decide⟩

/-- Hashes that keep their input, and MACs that verify for what the writer tagged. -/
def primitives : Primitives where
  sha256 := fun _ => zeros
  sha512 := fun input => input
  transformKey := fun composite _ => .ok composite
  verifyHmac := fun key message tag => tag = zeros &&
    ((key.take 8 = toBytesLe 8 (2 ^ 64 - 1) && message = [1, 2, 3]) ||
      (key.take 8 = toBytesLe 8 0 && message = blockMessage 0 [5, 6]) ||
      (key.take 8 = toBytesLe 8 1 && message = blockMessage 1 []))
  aes256Cbc := fun _ _ ciphertext => ciphertext
  chaCha20 := fun _ _ ciphertext => ciphertext

def header : OuterHeader :=
  ⟨.v4, 3, .chaCha20, false, zeros, List.replicate 12 0, .aes zeros 1, none, none, none, [1, 2, 3]⟩

def afterHeader : List UInt8 := zeros ++ zeros ++ frame zeros [5, 6] ++ frame zeros []

theorem unforgeable : Unforgeable primitives file := by
  intro base index message tag small verified
  have keyIndex : (toBytesLe 8 index ++ base).take 8 = toBytesLe 8 index := by
    rw [List.take_append_of_le_length (by simp), List.take_of_length_le (by simp)]
  have known : ∀ other, other < 2 ^ 64 → toBytesLe 8 index = toBytesLe 8 other →
      index = other := by
    intro other otherSmall same
    have numbers := congrArg ofBytesLe same
    rwa [ofBytesLe_toBytesLe (by omega), ofBytesLe_toBytesLe (by omega)] at numbers
  simp only [primitives, blockHmacKey, keyIndex, Bool.and_eq_true, Bool.or_eq_true,
    decide_eq_true_eq] at verified
  rcases verified.2 with (⟨isIndex, rfl⟩ | ⟨isIndex, rfl⟩) | ⟨isIndex, rfl⟩
  · exact .inl ⟨known _ (by decide) isIndex, rfl⟩
  · obtain rfl := known 0 (by decide) isIndex
    exact .inr ⟨[5, 6], rfl, rfl⟩
  · obtain rfl := known 1 (by decide) isIndex
    exact .inr ⟨[], rfl, rfl⟩

end BlockSample

open BlockSample in
/-- The file as written decrypts to its block. -/
theorem written_file_authenticated :
    decryptKdbx4Payload primitives header zeros afterHeader = .ok [5, 6] ∧
      ∃ transformed, primitives.transformKey zeros header.kdf = .ok transformed ∧
        AuthenticPayload primitives file header
          (masterKey primitives header.masterSeed transformed) afterHeader [5, 6] := by
  have decrypted : decryptKdbx4Payload primitives header zeros afterHeader = .ok [5, 6] := by
    decide +kernel
  exact ⟨decrypted, (kdbx4_payload_authenticated primitives file unforgeable).1 _ _ _ _ decrypted⟩

end Pangolin.Kdbx
