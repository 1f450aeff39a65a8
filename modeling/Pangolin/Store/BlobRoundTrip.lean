import Pangolin.Store.BlobGrammar

/-!
# Payloads read back

Both decoders read back what the encoders write, of every value a program can hold; they
agree on what is a deletion; nothing shorter than a written payload is accepted; and a map
of more entries than eight, or one that carries a newer version, is never an account.
-/

namespace Pangolin.Store.Blob

open Crypto Cbor Reading Metered

/-! ## Values in memory -/

/-- A vector of elements of a size. -/
def InMemory {α : Type} (size : Nat) (items : List α) : Prop := items.length * size ≤ isizeMax

instance InMemory.decidable {α : Type} (size : Nat) (items : List α) :
    Decidable (InMemory size items) :=
  inferInstanceAs (Decidable (items.length * size ≤ isizeMax))

/-- A vector of texts. -/
def TextsInMemory (texts : List (List UInt8)) : Prop :=
  InMemory sizeOfSecretBytes texts ∧ ∀ text ∈ texts, InMemory 1 text

structure PasswordEntryInMemory (entry : PasswordEntry) : Prop where
  password : InMemory 1 entry.password
  setAtMs : IsI64 entry.setAtMs
  device : IsId32 entry.originatingDevice.raw

/-- What the types of an identity hold. -/
structure IdentityInMemory (identity : AccountIdentity) : Prop where
  displayName : InMemory 1 identity.displayName
  tags : TextsInMemory identity.tags
  notes : InMemory 1 identity.notes
  urls : TextsInMemory identity.urls
  usernames : TextsInMemory identity.usernames
  history : InMemory sizeOfPasswordEntry identity.passwordHistory
  entries : ∀ entry ∈ identity.passwordHistory, PasswordEntryInMemory entry
  totpSecret : InMemory 1 identity.totpSecret
  algorithm : identity.totpParams.algorithm ≤ 2
  digits : identity.totpParams.digits < 2 ^ 8
  period : identity.totpParams.period < 2 ^ 32

/-- What the types of a snapshot hold. -/
def SnapshotInMemory (snapshot : AccountSnapshot) : Prop :=
  ∀ field, InMemory 1 (snapshotValue snapshot field)

structure TombstoneInMemory (payload : TombstonePayload) : Prop where
  accountId : IsId32 payload.accountId.raw
  tombstonedAtMs : payload.tombstonedAtMs < 2 ^ 64

theorem InMemory.isUsize {α : Type} {size : Nat} {items : List α} (held : InMemory size items)
    (positive : 0 < size) : items.length < 2 ^ 64 := by
  have room : items.length ≤ items.length * size := Nat.le_mul_of_pos_right _ positive
  have most : items.length ≤ isizeMax := Nat.le_trans room held
  exact Nat.lt_of_le_of_lt most (by decide)

/-! ## Reading back -/

section

variable (codec : StreamCodec)

theorem reads_pullHeader (header : Header) (definite : header.Definite) :
    Reads (pullHeader codec).plain (codec.push header) header := by
  apply reads_take
  intro rest
  simp only [codec.pull_push header rest definite]

theorem reads_pullMap {length : Nat} (small : length < 2 ^ 64) (indefinite expected : String) :
    Reads (pullLength codec mapLength indefinite expected).plain (putMap codec length) length := by
  have header : Reads (pullHeader codec).plain (putMap codec length) (.map (some length)) := by
    apply reads_take
    intro rest
    simp only [putMap, codec.pull_push_map length rest small]
  exact reads_last header (.pure length)

theorem reads_pullArray {length : Nat} (small : length < 2 ^ 64) (indefinite expected : String) :
    Reads (pullLength codec arrayLength indefinite expected).plain
      (putArray codec.toHeaderCodec length) length :=
  reads_last (reads_pullHeader codec (.array (some length)) small) (.pure length)

theorem reads_readExact {bytes : List UInt8} (held : InMemory 1 bytes) (truncated : String) :
    Reads (readExact truncated bytes.length).plain bytes bytes :=
  reads_skip (reads_reserve held) (reads_take (.exactly _ bytes))

theorem reads_pullBytes {bytes : List UInt8} (held : InMemory 1 bytes) :
    Reads (pullBytes codec).plain (putBytes codec.toHeaderCodec bytes) bytes := by
  have length : Reads (pullLength codec bytesLength "indefinite-length byte strings rejected"
      "expected bytes value").plain (codec.push (.bytes (some bytes.length))) bytes.length :=
    reads_last (reads_pullHeader codec (.bytes (some bytes.length))
      (held.isUsize one_pos)) (.pure _)
  exact reads_bind length (reads_readExact held _)

theorem reads_textLength {bytes : List UInt8} (held : InMemory 1 bytes)
    (indefinite expected : String) :
    Reads (pullLength codec textLength indefinite expected).plain
      (codec.push (.text (some bytes.length))) bytes.length :=
  reads_last (reads_pullHeader codec (.text (some bytes.length))
    (held.isUsize one_pos)) (.pure _)

theorem reads_pullTextAsBytes {bytes : List UInt8} (held : InMemory 1 bytes) :
    Reads (pullTextAsBytes codec).plain (putTextValue codec bytes) bytes :=
  reads_bind (reads_textLength codec held _ _) (reads_readExact held _)

theorem reads_pullText {key : String} (held : InMemory 1 (Utf8.encode key.toList)) :
    Reads (pullText codec).plain (putText codec.toHeaderCodec key) key := by
  apply reads_bind (reads_textLength codec held _ _)
  apply reads_last (reads_readExact held _)
  have decoded : fromUtf8 (Utf8.encode key.toList) = pure key := by
    simp only [fromUtf8, Utf8.decode?_encode, String.ofList_toList]
  rw [decoded]
  exact .pure key

/-- A list after its length, in a vector of its own. -/
theorem reads_pullList {α : Type} {item : Dec α} {put : α → List UInt8} {items : List α}
    {size : Nat} (positive : 0 < size) (held : InMemory size items)
    (each : ∀ value ∈ items, Reads item.plain (put value) value) (indefinite expected : String) :
    Reads (do
        let count ← pullLength codec arrayLength indefinite expected
        .reserve count size
        .collect item count : Dec (List α)).plain
      (putArray codec.toHeaderCodec items.length ++ items.flatMap put) items := by
  apply reads_bind (reads_pullArray codec (held.isUsize positive) _ _)
  exact reads_skip (reads_reserve held) (reads_collect each)

theorem reads_pullTextArray {texts : List (List UInt8)} (held : TextsInMemory texts) :
    Reads (pullTextArray codec).plain (putTextArray codec texts) texts :=
  reads_pullList codec (by decide) held.1
    (fun text member => reads_pullTextAsBytes codec (held.2 text member)) _ _

theorem reads_pullSetAtMs {value : Int} (fits : IsI64 value) :
    Reads (pullSetAtMs codec).plain (putInt codec.toHeaderCodec value) value := by
  obtain ⟨low, high⟩ := fits
  unfold putInt
  split
  · next nonneg =>
      have small : value.toNat < 2 ^ 63 := by omega
      have same : ((value.toNat : Nat) : Int) = value := Int.toNat_of_nonneg nonneg
      apply reads_last (reads_pullHeader codec (.positive value.toNat)
        (show value.toNat < 2 ^ 64 by omega))
      simp only [setAtMsOf, small, if_true, same]
      exact .pure value
  · next negative =>
      have small : (-1 - value).toNat < 2 ^ 63 := by omega
      have same : -1 - (((-1 - value).toNat : Nat) : Int) = value := by omega
      apply reads_last (reads_pullHeader codec (.negative (-1 - value).toNat)
        (show (-1 - value).toNat < 2 ^ 64 by omega))
      simp only [setAtMsOf, small, if_true, same]
      exact .pure value

theorem reads_pullArray32 {id : Nat} (fits : IsId32 id) (wrongLength : String) :
    Reads (pullArray32 codec wrongLength).plain (putArray32 codec.toHeaderCodec id) id := by
  have held : InMemory 1 (toBytes 32 id) := by
    rw [InMemory, length_toBytes]
    decide
  apply reads_last (reads_pullBytes codec held)
  simp only [length_toBytes, if_true, ofBytes_toBytes fits]
  exact .pure id

theorem reads_expectTriple :
    Reads (expectTriple codec).plain (putArray codec.toHeaderCodec 3) () :=
  reads_last (reads_pullHeader codec (.array (some 3))
    (show 3 < 2 ^ 64 by decide)) (.pure ())

theorem reads_pullPasswordEntry {entry : PasswordEntry} (held : PasswordEntryInMemory entry) :
    Reads (pullPasswordEntry codec).plain (putPasswordEntry codec.toHeaderCodec entry) entry := by
  apply reads_bind (reads_expectTriple codec)
  apply reads_bind (reads_pullBytes codec held.password)
  apply reads_bind (reads_pullSetAtMs codec held.setAtMs)
  apply reads_last (reads_pullArray32 codec held.device _)
  exact .pure entry

theorem reads_pullPasswordHistory {history : List PasswordEntry}
    (held : InMemory sizeOfPasswordEntry history)
    (entries : ∀ entry ∈ history, PasswordEntryInMemory entry) :
    Reads (pullPasswordHistory codec).plain (putHistory codec.toHeaderCodec history) history :=
  reads_pullList codec (by decide) held
    (fun entry member => reads_pullPasswordEntry codec (entries entry member)) _ _

theorem reads_pullPositive {value : Nat} (small : value < 2 ^ 64) (message : String) :
    Reads (pullPositive codec message).plain (putUint codec.toHeaderCodec value) value :=
  reads_last (reads_pullHeader codec (.positive value) small) (.pure value)

theorem reads_pullBelow {bound value : Nat} (small : value < bound) (fits : bound ≤ 2 ^ 64)
    (message outOfRange : String) :
    Reads (pullBelow codec bound message outOfRange).plain (putUint codec.toHeaderCodec value)
      value := by
  apply reads_last (reads_pullPositive codec (small.trans_le fits) message)
  simp only [small, if_true]
  exact .pure value

theorem reads_required {α : Type} (message : String) (value : α) :
    Reads (required message (some value)).plain [] value :=
  .pure value

theorem fieldOf_totp (field : TotpField) :
    fieldOf TotpField.all TotpField.name field.name = some field := by
  cases field <;> decide

theorem fieldOf_identity (field : IdentityField) :
    fieldOf IdentityField.all IdentityField.name field.name = some field := by
  cases field <;> decide

theorem fieldOf_snapshot (field : SnapshotField) :
    fieldOf SnapshotField.all SnapshotField.name field.name = some field := by
  cases field <;> decide

theorem reads_checkOrder {after : String → String → Bool} {last : Option String} {key : String}
    (ordered : ∀ prev ∈ last, after prev key = true) (message : String) :
    Reads (checkOrder after message last key).plain [] () := by
  cases last with
  | none => exact .pure ()
  | some prev =>
      rw [checkOrder, if_pos (ordered prev rfl)]
      exact .pure ()

/-- An entry of the nested map, after the entry before it. -/
theorem reads_pullTotpEntry (last : Option TotpField) (field : TotpField)
    {fields next : TotpFields} {value : List UInt8} (known : fields.lastKey = last.map TotpField.name)
    (ordered : ∀ prev ∈ last, decide (prev.name < field.name) = true)
    (read : Reads (pullTotpValue codec fields field).plain value next) :
    Reads (pullTotpEntry codec fields).plain (putEntry codec field.name value)
      { next with lastKey := some field.name } := by
  have held : InMemory 1 (Utf8.encode field.name.toList) := by
    cases field <;> decide
  have after : ∀ prev ∈ fields.lastKey, decide (prev < field.name) = true := by
    rw [known]
    intro prev member
    obtain ⟨before, isLast, rfl⟩ := Option.map_eq_some_iff.mp member
    exact ordered before isLast
  apply reads_bind (reads_pullText codec held)
  apply reads_skip (reads_checkOrder after _)
  rw [fieldOf_totp]
  exact reads_last read (.pure _)

theorem reads_pullTotpMap {secret : List UInt8} {params : TotpParams} (held : InMemory 1 secret)
    (algorithm : params.algorithm ≤ 2) (digits : params.digits < 2 ^ 8)
    (period : params.period < 2 ^ 32) :
    Reads (pullTotpMap codec).plain (putTotpMap codec secret params) (secret, params) := by
  apply reads_bind (reads_pullMap codec (show 4 < 2 ^ 64 by decide) _ _)
  apply reads_last
  · apply reads_rounds
    · apply reads_pullTotpEntry codec none .algorithm rfl (by decide)
      apply reads_last (reads_pullBelow codec (show params.algorithm < 2 ^ 8 by omega) (by decide)
        _ _)
      rw [fromWire, if_pos algorithm]
      exact reads_skip (.pure _) (.pure _)
    apply reads_rounds
    · apply reads_pullTotpEntry codec (some .algorithm) .digits rfl (by decide)
      exact reads_last (reads_pullBelow codec digits (by decide) _ _) (.pure _)
    apply reads_rounds
    · apply reads_pullTotpEntry codec (some .digits) .period rfl (by decide)
      exact reads_last (reads_pullBelow codec period (by decide) _ _) (.pure _)
    apply reads_rounds_one
    apply reads_pullTotpEntry codec (some .period) .secret rfl (by decide)
    exact reads_last (reads_pullBytes codec held) (.pure _)
  apply reads_skip (reads_required _ _)
  apply reads_skip (reads_required _ _)
  apply reads_skip (reads_required _ _)
  apply reads_skip (reads_required _ _)
  exact .pure _

/-- An entry of an identity, after the entry before it. -/
theorem reads_pullIdentityEntry (last : Option IdentityField) (field : IdentityField)
    (next : IdentityFields) {fields : IdentityFields} {value : List UInt8}
    (known : fields.lastKey = last.map IdentityField.name)
    (ordered : ∀ prev ∈ last, decide (prev.name < field.name) = true)
    (read : Reads (pullIdentityValue codec fields field).plain value next) :
    Reads (pullIdentityEntry codec fields).plain (putEntry codec field.name value)
      { next with lastKey := some field.name } := by
  have held : InMemory 1 (Utf8.encode field.name.toList) := by
    cases field <;> decide
  have after : ∀ prev ∈ fields.lastKey, decide (prev < field.name) = true := by
    rw [known]
    intro prev member
    obtain ⟨before, isLast, rfl⟩ := Option.map_eq_some_iff.mp member
    exact ordered before isLast
  apply reads_bind (reads_pullText codec held)
  apply reads_skip (reads_checkOrder after _)
  rw [fieldOf_identity]
  exact reads_last read (.pure _)

/-- The fields when the slot of the secret has been read. -/
def afterSlot (fields : IdentityFields) (identity : AccountIdentity) (payloadVersion : Nat) :
    IdentityFields :=
  if payloadVersionV2 ≤ payloadVersion then
    { fields with
      totpSecret := some identity.totpSecret
      totpParams := some identity.totpParams
      lastKey := some IdentityField.totp.name }
  else
    { fields with
      totpSecret := some identity.totpSecret
      lastKey := some IdentityField.totpSecret.name }

theorem reads_totpSlot {identity : AccountIdentity} (held : IdentityInMemory identity)
    {fields : IdentityFields} {payloadVersion : Nat}
    (version : fields.payloadVersion = some payloadVersion)
    (known : fields.lastKey = some IdentityField.tags.name) :
    Reads (pullIdentityEntry codec fields).plain (putTotpSlot codec identity payloadVersion)
      (afterSlot fields identity payloadVersion) := by
  unfold putTotpSlot afterSlot
  split
  · next nested =>
      have isNested : isNested fields = true := by
        rw [isNested, version]
        exact decide_eq_true nested
      apply reads_pullIdentityEntry codec (some .tags) .totp
        { fields with
          totpSecret := some identity.totpSecret
          totpParams := some identity.totpParams } known (by decide)
      simp only [pullIdentityValue, isNested, if_true]
      exact reads_last (reads_pullTotpMap codec held.totpSecret held.algorithm held.digits
        held.period) (.pure _)
  · next flat =>
      have notNested : isNested fields = false := by
        rw [isNested, version]
        exact decide_eq_false flat
      apply reads_pullIdentityEntry codec (some .tags) .totpSecret
        { fields with totpSecret := some identity.totpSecret } known (by decide)
      simp only [pullIdentityValue, notNested, Bool.false_eq_true, if_false]
      exact reads_last (reads_pullBytes codec held.totpSecret) (.pure _)

theorem lastKey_afterSlot (fields : IdentityFields) (identity : AccountIdentity)
    (payloadVersion : Nat) :
    ∃ last : IdentityField, (afterSlot fields identity payloadVersion).lastKey = some last.name ∧
      decide (last.name < IdentityField.urls.name) = true := by
  unfold afterSlot
  split
  · exact ⟨.totp, rfl, by decide⟩
  · exact ⟨.totpSecret, rfl, by decide⟩

/-- The two entries after the slot. -/
theorem reads_afterSlot {identity : AccountIdentity} (held : IdentityInMemory identity)
    {fields : IdentityFields} {last : IdentityField} (known : fields.lastKey = some last.name)
    (ordered : decide (last.name < IdentityField.urls.name) = true) :
    Reads (rounds (pullIdentityEntry codec) 2 fields).plain
      (putEntry codec IdentityField.urls.name (putTextArray codec identity.urls) ++
        putEntry codec IdentityField.usernames.name (putTextArray codec identity.usernames))
      { fields with
        urls := some identity.urls
        usernames := some identity.usernames
        lastKey := some IdentityField.usernames.name } := by
  apply reads_rounds
  · apply reads_pullIdentityEntry codec (some last) .urls
      { fields with urls := some identity.urls } known
    · intro prev member
      obtain rfl := Option.some.inj member
      exact ordered
    · exact reads_last (reads_pullTextArray codec held.urls) (.pure _)
  apply reads_rounds_one
  apply reads_pullIdentityEntry codec (some .urls) .usernames
    { fields with
      urls := some identity.urls
      usernames := some identity.usernames
      lastKey := some IdentityField.urls.name } rfl (by decide)
  exact reads_last (reads_pullTextArray codec held.usernames) (.pure _)

/-- An identity as a body of a version holds it: the first one has no parameters. -/
def readBack (identity : AccountIdentity) (payloadVersion : Nat) : AccountIdentity :=
  if payloadVersionV2 ≤ payloadVersion then identity
  else { identity with totpParams := .default }

theorem reads_decodeIdentity {identity : AccountIdentity} (held : IdentityInMemory identity)
    {payloadVersion : Nat} (known : payloadVersion ≤ revisionSchemaVersionMax)
    (valid : Validate.totpParams identity.totpParams = .ok ()) :
    Reads (identityPayloadReader codec).plain
      (encodeIdentityCborWithPayloadVersion codec identity payloadVersion)
      (.live (readBack identity payloadVersion)) := by
  have small : payloadVersion < 2 ^ 8 := Nat.lt_of_le_of_lt known (by decide)
  have notNewer : ¬ revisionSchemaVersionMax < payloadVersion := Nat.not_lt.mpr known
  apply reads_bind (reads_pullMap codec (show 8 < 2 ^ 64 by decide) _ _)
  apply reads_last
  · apply reads_rounds
    · apply reads_pullIdentityEntry codec none .displayName
        { displayName := some identity.displayName } rfl (by decide)
      exact reads_last (reads_pullTextAsBytes codec held.displayName) (.pure _)
    apply reads_rounds
    · apply reads_pullIdentityEntry codec (some .displayName) .notes
        { displayName := some identity.displayName
          notes := some identity.notes
          lastKey := some IdentityField.displayName.name } rfl (by decide)
      exact reads_last (reads_pullTextAsBytes codec held.notes) (.pure _)
    apply reads_rounds
    · apply reads_pullIdentityEntry codec (some .notes) .passwordHistory
        { displayName := some identity.displayName
          notes := some identity.notes
          passwordHistory := some identity.passwordHistory
          lastKey := some IdentityField.notes.name } rfl (by decide)
      exact reads_last (reads_pullPasswordHistory codec held.history held.entries) (.pure _)
    apply reads_rounds
    · apply reads_pullIdentityEntry codec (some .passwordHistory) .payloadVersion
        { displayName := some identity.displayName
          notes := some identity.notes
          passwordHistory := some identity.passwordHistory
          payloadVersion := some payloadVersion
          lastKey := some IdentityField.passwordHistory.name } rfl (by decide)
      apply reads_last
      · apply reads_last (reads_pullBelow codec small (by decide) _ _)
        rw [if_neg notNewer]
        exact .pure payloadVersion
      · exact .pure _
    apply reads_rounds
    · apply reads_pullIdentityEntry codec (some .payloadVersion) .tags
        { displayName := some identity.displayName
          notes := some identity.notes
          passwordHistory := some identity.passwordHistory
          payloadVersion := some payloadVersion
          tags := some identity.tags
          lastKey := some IdentityField.payloadVersion.name } rfl (by decide)
      exact reads_last (reads_pullTextArray codec held.tags) (.pure _)
    apply reads_rounds
    · exact reads_totpSlot codec held rfl rfl
    obtain ⟨last, lastKey, ordered⟩ := lastKey_afterSlot _ identity payloadVersion
    exact reads_afterSlot codec held lastKey ordered
  · by_cases nested : payloadVersionV2 ≤ payloadVersion
    · simp only [afterSlot, readBack, nested, if_true]
      apply reads_last _ (.pure _)
      iterate 8 apply reads_skip (reads_required _ _)
      have checked : checkTotpParams payloadVersion identity.totpParams = pure () := by
        rw [checkTotpParams, if_pos nested, valid]
      have after : Reads (checkTotpParams payloadVersion identity.totpParams).plain [] () :=
        checked ▸ .pure ()
      exact reads_skip after (.pure _)
    · simp only [afterSlot, readBack, nested, if_false]
      apply reads_last _ (.pure _)
      iterate 8 apply reads_skip (reads_required _ _)
      have checked : checkTotpParams payloadVersion .default = pure () := by
        rw [checkTotpParams, if_neg nested]
      have after : Reads (checkTotpParams payloadVersion .default).plain [] () :=
        checked ▸ .pure ()
      exact reads_skip after (.pure _)

/-- An entry of a snapshot, after the entry before it. -/
theorem reads_pullSnapshotEntry (last : Option SnapshotField) (field : SnapshotField)
    {snapshot : AccountSnapshot} (held : SnapshotInMemory snapshot) {fields : SnapshotFields}
    (known : fields.lastKey = last.map SnapshotField.name)
    (ordered : ∀ prev ∈ last, isAfterInCanonicalOrder prev.name field.name = true)
    (unknown : String) :
    Reads (pullSnapshotEntry codec unknown fields).plain (putSnapshotField codec snapshot field)
      (fields.set field (snapshotValue snapshot field) field.name) := by
  have keyHeld : InMemory 1 (Utf8.encode field.name.toList) := by
    cases field <;> decide
  have after : ∀ prev ∈ fields.lastKey, isAfterInCanonicalOrder prev field.name = true := by
    rw [known]
    intro prev member
    obtain ⟨before, isLast, rfl⟩ := Option.map_eq_some_iff.mp member
    exact ordered before isLast
  apply reads_bind (reads_pullText codec keyHeld)
  apply reads_skip (reads_checkOrder after _)
  apply reads_last (reads_pullBytes codec (held field))
  rw [fieldOf_snapshot]
  exact .pure _

theorem reads_decodeV0 {snapshot : AccountSnapshot} (held : SnapshotInMemory snapshot)
    (unknown : String) :
    Reads (decodeV0LiveInline codec unknown).plain
      (SnapshotField.all.flatMap (putSnapshotField codec snapshot)) snapshot := by
  simp only [SnapshotField.all, List.flatMap_cons, List.flatMap_nil, List.append_nil]
  apply reads_last
  · apply reads_rounds
    · exact reads_pullSnapshotEntry codec none .displayName held rfl (by decide) unknown
    apply reads_rounds
    · exact reads_pullSnapshotEntry codec (some .displayName) .username held rfl (by decide) unknown
    apply reads_rounds
    · exact reads_pullSnapshotEntry codec (some .username) .password held rfl (by decide) unknown
    apply reads_rounds
    · exact reads_pullSnapshotEntry codec (some .password) .url held rfl (by decide) unknown
    apply reads_rounds
    · exact reads_pullSnapshotEntry codec (some .url) .notes held rfl (by decide) unknown
    apply reads_rounds_one
    exact reads_pullSnapshotEntry codec (some .notes) .totpSecret held rfl (by decide) unknown
  · iterate 6 apply reads_skip (reads_required _ _)
    exact .pure snapshot

theorem reads_expectKey {expected : String} (held : InMemory 1 (Utf8.encode expected.toList))
    (message : String) :
    Reads (expectKey codec message expected).plain (putText codec.toHeaderCodec expected) () := by
  apply reads_last (reads_pullText codec held)
  rw [if_pos rfl]
  exact .pure ()

theorem reads_expectTrue (message : String) :
    Reads (expectTrue codec message).plain (putBool codec.toHeaderCodec true) () :=
  reads_last (reads_pullHeader codec (.simple 21) (show 21 < 24 by decide)) (.pure ())

theorem reads_decodeTombstoneWidened {payload : TombstonePayload} (held : TombstoneInMemory payload)
    (deleted : payload.deleted = true) :
    Reads (decodeTombstoneWidened codec).plain
      (putEntry codec "account_id" (putArray32 codec.toHeaderCodec payload.accountId.raw) ++
        (putEntry codec "deleted" (putBool codec.toHeaderCodec payload.deleted) ++
          putEntry codec "tombstoned_at_ms"
            (putUint codec.toHeaderCodec payload.tombstonedAtMs)))
      (.tombstone payload) := by
  obtain ⟨isDeleted, accountId, tombstonedAtMs⟩ := payload
  obtain rfl : isDeleted = true := deleted
  unfold putEntry
  rw [List.append_assoc, List.append_assoc]
  apply reads_bind (reads_expectKey codec (by decide) _)
  apply reads_bind (reads_pullArray32 codec held.accountId _)
  apply reads_bind (reads_expectKey codec (by decide) _)
  apply reads_bind (reads_expectTrue codec _)
  apply reads_bind (reads_expectKey codec (by decide) _)
  apply reads_last (reads_pullPositive codec held.tombstonedAtMs _)
  exact .pure _

/-! ## Whole payloads -/

theorem reads_payload_snapshot {snapshot : AccountSnapshot} (held : SnapshotInMemory snapshot) :
    Reads (payloadReader codec).plain (encodeSnapshotCbor codec snapshot) (.live snapshot) := by
  apply reads_bind (reads_pullMap codec (show 6 < 2 ^ 64 by decide) _ _)
  exact reads_last (reads_decodeV0 codec held _) (.pure _)

theorem reads_identityPayload_snapshot {snapshot : AccountSnapshot}
    (held : SnapshotInMemory snapshot) :
    Reads (identityPayloadReader codec).plain (encodeSnapshotCbor codec snapshot)
      (.live (hydrateV0ToV1 snapshot)) := by
  apply reads_bind (reads_pullMap codec (show 6 < 2 ^ 64 by decide) _ _)
  exact reads_last (reads_decodeV0 codec held _) (.pure _)

theorem reads_payload_tombstone {payload : TombstonePayload} (held : TombstoneInMemory payload)
    (deleted : payload.deleted = true) :
    Reads (payloadReader codec).plain (encodeTombstoneCbor codec payload) (.tombstone payload) := by
  apply reads_bind (reads_pullMap codec (show 3 < 2 ^ 64 by decide) _ _)
  exact reads_decodeTombstoneWidened codec held deleted

theorem reads_identityPayload_tombstone {payload : TombstonePayload}
    (held : TombstoneInMemory payload) (deleted : payload.deleted = true) :
    Reads (identityPayloadReader codec).plain (encodeTombstoneCbor codec payload)
      (.tombstone payload) := by
  apply reads_bind (reads_pullMap codec (show 3 < 2 ^ 64 by decide) _ _)
  exact reads_last (reads_decodeTombstoneWidened codec held deleted) (.pure _)

theorem decodePayload_of_reads {bytes : List UInt8} {decoded : DecodedPayload}
    (reads : Reads (payloadReader codec).plain bytes decoded) :
    decodePayload codec bytes = .ok decoded := by
  rw [decodePayload, reads.of_nil]
  rfl

theorem decodeIdentityPayload_of_reads {bytes : List UInt8} {decoded : DecodedIdentityPayload}
    (reads : Reads (identityPayloadReader codec).plain bytes decoded) :
    decodeIdentityPayload codec bytes = .ok decoded := by
  rw [decodeIdentityPayload, reads.of_nil]
  rfl

/-- An accepted input begins with a payload of the grammar. -/
theorem spells_of_decodePayload {bytes : List UInt8} {decoded : DecodedPayload}
    (accepted : decodePayload codec bytes = .ok decoded) :
    ∃ taken rest, bytes = taken ++ rest ∧ (Format.payload codec).Spells taken decoded := by
  cases read : (payloadReader codec).plain bytes with
  | error stop =>
      rw [decodePayload, read] at accepted
      cases accepted
  | ok result =>
      obtain ⟨value, rest⟩ := result
      rw [decodePayload, read] at accepted
      obtain rfl : value = decoded := Except.ok.inj accepted
      obtain ⟨taken, split, spelled⟩ := (meets_payloadReader codec).spells_of_ok read
      exact ⟨taken, rest, split, spelled⟩

theorem spells_of_decodeIdentityPayload {bytes : List UInt8} {decoded : DecodedIdentityPayload}
    (accepted : decodeIdentityPayload codec bytes = .ok decoded) :
    ∃ taken rest, bytes = taken ++ rest ∧ (Format.identityPayload codec).Spells taken decoded := by
  cases read : (identityPayloadReader codec).plain bytes with
  | error stop =>
      rw [decodeIdentityPayload, read] at accepted
      cases accepted
  | ok result =>
      obtain ⟨value, rest⟩ := result
      rw [decodeIdentityPayload, read] at accepted
      obtain rfl : value = decoded := Except.ok.inj accepted
      obtain ⟨taken, split, spelled⟩ := (meets_identityPayloadReader codec).spells_of_ok read
      exact ⟨taken, rest, split, spelled⟩

/-! ## A payload is one item -/

theorem length_spells {kind : Option Nat → Header} {taken : List UInt8} {length : Nat}
    (spelled : (Format.length codec kind).Spells taken length) :
    Head codec (kind (some length)) taken := by
  obtain ⟨head, found, _, rfl, headed, rfl, rfl⟩ := spelled
  rwa [List.append_nil]

theorem exact_spells {length : Nat} {taken bytes : List UInt8}
    (spelled : (Format.exact length).Spells taken bytes) : taken = bytes ∧ bytes.length = length := by
  obtain ⟨_, _, _, rfl, rfl, rfl, sized⟩ := spelled
  exact ⟨rfl, sized⟩

/-- The bytes of a key, after the header of a text. -/
theorem key_spells {taken : List UInt8} {key : String} (spelled : (Format.key codec).Spells taken key) :
    ∃ head bytes text, taken = head ++ bytes ∧ Head codec (.text (some bytes.length)) head ∧
      Utf8.decode? bytes = some text ∧ key = String.ofList text := by
  obtain ⟨head, length, _, rfl, announced, front, bytes, _, rfl, filled, rfl, text, decoded, same⟩ :=
    spelled
  obtain ⟨rfl, rfl⟩ := exact_spells filled
  rw [List.append_nil]
  exact ⟨head, front, text, rfl, length_spells codec announced, decoded, same⟩

theorem holds_key : Holds codec 1 (Format.key codec) := by
  intro taken key spelled
  obtain ⟨head, bytes, text, rfl, headed, -, -⟩ := key_spells codec spelled
  exact .leaf headed rfl

theorem holds_string (kind : Option Nat → Header)
    (announces : ∀ length, (kind (some length)).body = some (length, 0)) :
    Holds codec 1 (Format.string codec kind) := by
  rintro taken bytes ⟨head, length, back, rfl, announced, filled⟩
  obtain ⟨rfl, rfl⟩ := exact_spells filled
  exact .leaf (length_spells codec announced) (announces _)

/-- A header that announces nothing. -/
theorem holds_header {α : Type} {known : Header → α → Prop}
    (alone : ∀ header value, known header value → header.body = some (0, 0)) :
    Holds codec 1 ((Format.header codec).followed fun found => .given (known found)) := by
  rintro taken value ⟨head, found, _, rfl, headed, rfl, holds⟩
  exact .leaf headed (alone found value holds)

/-- A header and the items that it announces. -/
theorem holds_parent {α : Type} {kind : Option Nat → Header} {grammar : Nat → Grammar α}
    (inner : Nat → Nat) (announces : ∀ length, (kind (some length)).body = some (0, inner length))
    (holds : ∀ length, Holds codec (inner length) (grammar length)) :
    Holds codec 1 ((Format.length codec kind).followed grammar) := by
  rintro taken value ⟨head, length, others, rfl, announced, spelled⟩
  exact .parent (length_spells codec announced) (announces length)
    (holds length others value spelled)

theorem holds_array {α : Type} {item : Grammar α} (holds : Holds codec 1 item) (size : Nat) :
    Holds codec 1 (Format.array codec size item) := by
  apply holds_parent codec id (fun _ => rfl)
  intro count
  have made : Holds codec 0 (Grammar.room count size) := .room count size
  have body := made.followed fun _ => holds.listed count
  rwa [Nat.zero_add] at body

theorem holds_texts : Holds codec 1 (Format.texts codec) :=
  holds_array codec (holds_string codec .text fun _ => rfl) _

theorem holds_setAtMs : Holds codec 1 (Format.setAtMs codec) := by
  apply holds_header
  rintro header value (⟨number, rfl, -⟩ | ⟨number, rfl, -⟩)
  · rfl
  · rfl

theorem holds_array32 : Holds codec 1 (Format.array32 codec) :=
  (holds_string codec .bytes fun _ => rfl).followed fun _ => .given _

theorem holds_passwordEntry : Holds codec 1 (Format.passwordEntry codec) := by
  rintro taken entry ⟨triple, _, others, rfl, ⟨head, found, _, rfl, headed, rfl, rfl⟩, spelled⟩
  have three : Holds codec 3 ((Format.string codec .bytes).followed fun password =>
      (Format.setAtMs codec).followed fun setAtMs => (Format.array32 codec).followed fun device =>
        .only (⟨password, setAtMs, ⟨device⟩⟩ : PasswordEntry)) :=
    (holds_string codec .bytes fun _ => rfl).followed fun _ => (holds_setAtMs codec).followed fun _ =>
      (holds_array32 codec).followed fun _ => .given _
  rw [List.append_nil]
  exact .parent headed rfl (three _ _ spelled)

theorem holds_positive : Holds codec 1 (Format.positive codec) := by
  apply holds_header
  rintro header value rfl
  rfl

theorem holds_below (bound : Nat) : Holds codec 1 (Format.below codec bound) :=
  (holds_positive codec).followed fun _ => .given _

theorem holds_known {φ α : Type} {count : Nat} {value : φ → Grammar α}
    (holds : ∀ field, Holds codec count (value field)) (field : Option φ) :
    Holds codec count (Format.known value field) := by
  cases field with
  | none => exact .never count
  | some field => exact holds field

theorem holds_totpValue (fields : TotpFields) (field : TotpField) :
    Holds codec 1 (Format.totpValue codec fields field) := by
  cases field with
  | algorithm => exact (holds_below codec _).followed fun _ => (Holds.given _).followed fun _ => .given _
  | digits => exact (holds_below codec _).followed fun _ => .given _
  | period => exact (holds_below codec _).followed fun _ => .given _
  | secret => exact (holds_string codec .bytes fun _ => rfl).followed fun _ => .given _

theorem holds_totpEntry (fields : TotpFields) : Holds codec 2 (Format.totpEntry codec fields) :=
  (holds_key codec).followed fun _ => (Holds.given _).followed fun _ =>
    (holds_known codec (holds_totpValue codec fields) _).followed fun _ => .given _

theorem holds_totpMap : Holds codec 1 (Format.totpMap codec) := by
  apply holds_parent codec (fun length => 2 * length) (fun _ => rfl)
  intro count
  rw [Nat.mul_comm]
  exact (Holds.rounds (holds_totpEntry codec) count {}).followed fun _ =>
    (Holds.given _).followed fun _ => (Holds.given _).followed fun _ =>
      (Holds.given _).followed fun _ => (Holds.given _).followed fun _ => .given _

theorem holds_identityValue (fields : IdentityFields) (field : IdentityField) :
    Holds codec 1 (Format.identityValue codec fields field) := by
  have text := holds_string codec .text fun _ => rfl
  cases field with
  | displayName => exact text.followed fun _ => .given _
  | notes => exact text.followed fun _ => .given _
  | passwordHistory =>
      exact (holds_array codec (holds_passwordEntry codec) _).followed fun _ => .given _
  | payloadVersion =>
      exact ((holds_below codec _).followed fun _ => .given _).followed fun _ => .given _
  | tags => exact (holds_texts codec).followed fun _ => .given _
  | totpSecret =>
      simp only [Format.identityValue]
      split
      · exact .never 1
      · exact (holds_string codec .bytes fun _ => rfl).followed fun _ => .given _
  | totp =>
      simp only [Format.identityValue]
      split
      · exact (holds_totpMap codec).followed fun _ => .given _
      · exact .never 1
  | urls => exact (holds_texts codec).followed fun _ => .given _
  | usernames => exact (holds_texts codec).followed fun _ => .given _

theorem holds_identityEntry (fields : IdentityFields) :
    Holds codec 2 (Format.identityEntry codec fields) :=
  (holds_key codec).followed fun _ => (Holds.given _).followed fun _ =>
    (holds_known codec (holds_identityValue codec fields) _).followed fun _ => .given _

theorem holds_snapshotEntry (fields : SnapshotFields) :
    Holds codec 2 (Format.snapshotEntry codec fields) :=
  (holds_key codec).followed fun _ => (Holds.given _).followed fun _ =>
    (holds_string codec .bytes fun _ => rfl).followed fun _ => holds_known codec (fun _ => .given _) _

theorem holds_keyIs (expected : String) : Holds codec 1 (Format.keyIs codec expected) :=
  (holds_key codec).followed fun _ => .given _

theorem holds_true : Holds codec 1 (Format.expected codec (.simple 21)) := by
  apply holds_header
  rintro header value rfl
  rfl

theorem holds_tombstoneLegacy : Holds codec 2 (Format.tombstoneLegacy codec) :=
  (holds_keyIs codec _).followed fun _ => (holds_true codec).followed fun _ => .given _

theorem holds_tombstoneWidened : Holds codec 6 (Format.tombstoneWidened codec) :=
  (holds_keyIs codec _).followed fun _ => (holds_array32 codec).followed fun _ =>
    (holds_keyIs codec _).followed fun _ => (holds_true codec).followed fun _ =>
      (holds_keyIs codec _).followed fun _ => (holds_positive codec).followed fun _ => .given _

theorem holds_snapshot : Holds codec 12 (Format.snapshot codec) := by
  have entries : Holds codec (6 * 2) (Grammar.rounds (Format.snapshotEntry codec) 6 {}) :=
    .rounds (holds_snapshotEntry codec) 6 {}
  exact entries.followed fun _ => (Holds.given _).followed fun _ =>
    (Holds.given _).followed fun _ => (Holds.given _).followed fun _ =>
      (Holds.given _).followed fun _ => (Holds.given _).followed fun _ =>
        (Holds.given _).followed fun _ => .given _

theorem holds_finished (fields : IdentityFields) : Holds codec 0 (Format.finished fields) :=
  (Holds.given _).followed fun _ => (Holds.given _).followed fun _ =>
    (Holds.given _).followed fun _ => (Holds.given _).followed fun _ =>
      (Holds.given _).followed fun _ => (Holds.given _).followed fun _ =>
        (Holds.given _).followed fun _ => (Holds.given _).followed fun _ =>
          (Holds.given _).followed fun _ => .given _

theorem holds_identity : Holds codec 16 (Format.identity codec) := by
  have entries : Holds codec (8 * 2) (Grammar.rounds (Format.identityEntry codec) 8 {}) :=
    .rounds (holds_identityEntry codec) 8 {}
  exact entries.followed fun fields => (holds_finished codec fields).followed fun _ => .given _

theorem holds_payload : Holds codec 1 (Format.payload codec) := by
  apply holds_parent codec (fun entries => 2 * entries) (fun _ => rfl)
  intro entries
  unfold Format.payloadBody
  split
  · next one => exact one ▸ holds_tombstoneLegacy codec
  split
  · next three => exact three ▸ holds_tombstoneWidened codec
  split
  · next six => exact six ▸ (holds_snapshot codec).followed fun _ => .given _
  · exact .never _

theorem holds_identityPayload : Holds codec 1 (Format.identityPayload codec) := by
  apply holds_parent codec (fun entries => 2 * entries) (fun _ => rfl)
  intro entries
  unfold Format.identityBody
  split
  · next one => exact one ▸ (holds_tombstoneLegacy codec).followed fun _ => .given _
  split
  · next three => exact three ▸ (holds_tombstoneWidened codec).followed fun _ => .given _
  split
  · next six => exact six ▸ (holds_snapshot codec).followed fun _ => .given _
  split
  · next eight => exact eight ▸ holds_identity codec
  · exact .never _

/-! ## Prefixes -/

/-- Written payloads: of an identity in a version this build knows, of a snapshot, of a
deletion. -/
inductive Written : List UInt8 → Prop
  | identity {identity : AccountIdentity} {payloadVersion : Nat} (held : IdentityInMemory identity)
      (valid : Validate.totpParams identity.totpParams = .ok ())
      (known : payloadVersion ≤ revisionSchemaVersionMax) :
      Written (encodeIdentityCborWithPayloadVersion codec identity payloadVersion)
  | snapshot {snapshot : AccountSnapshot} (held : SnapshotInMemory snapshot) :
      Written (encodeSnapshotCbor codec snapshot)
  | tombstone {payload : TombstonePayload} (held : TombstoneInMemory payload)
      (deleted : payload.deleted = true) : Written (encodeTombstoneCbor codec payload)

theorem reads_written {bytes : List UInt8} (written : Written codec bytes) :
    ∃ decoded, Reads (identityPayloadReader codec).plain bytes decoded := by
  cases written with
  | identity held valid known => exact ⟨_, reads_decodeIdentity codec held known valid⟩
  | snapshot held => exact ⟨_, reads_identityPayload_snapshot codec held⟩
  | tombstone held deleted => exact ⟨_, reads_identityPayload_tombstone codec held deleted⟩

/-- A written payload is one item. -/
theorem definite_written {bytes : List UInt8} (written : Written codec bytes) :
    DefiniteItems codec 1 bytes := by
  obtain ⟨decoded, reads⟩ := reads_written codec written
  obtain ⟨taken, split, spelled⟩ := (meets_identityPayloadReader codec).spells_of_ok reads.of_nil
  rw [List.append_nil] at split
  rw [split]
  exact holds_identityPayload codec taken decoded spelled

/-- An item that begins with another one is that one. -/
theorem not_shorter {taken rest front more : List UInt8} (item : DefiniteItems codec 1 taken)
    (written : DefiniteItems codec 1 (front ++ more)) (split : front = taken ++ rest) :
    more = [] := by
  have same : taken ++ (rest ++ more) = front ++ more ++ [] := by
    rw [split, List.append_nil, List.append_assoc]
  have whole := item.unique written.items same
  rw [whole, List.append_cancel_left_eq] at same
  exact (List.append_eq_nil_iff.mp same).2

theorem decodePayload_extended {front more : List UInt8} {decoded : DecodedPayload}
    (written : Written codec (front ++ more)) (accepted : decodePayload codec front = .ok decoded) :
    more = [] := by
  obtain ⟨taken, rest, split, spelled⟩ := spells_of_decodePayload codec accepted
  exact not_shorter codec (holds_payload codec taken decoded spelled)
    (definite_written codec written) split

theorem decodeIdentityPayload_extended {front more : List UInt8} {decoded : DecodedIdentityPayload}
    (written : Written codec (front ++ more))
    (accepted : decodeIdentityPayload codec front = .ok decoded) : more = [] := by
  obtain ⟨taken, rest, split, spelled⟩ := spells_of_decodeIdentityPayload codec accepted
  exact not_shorter codec (holds_identityPayload codec taken decoded spelled)
    (definite_written codec written) split

/-! ## The two decoders -/

/-- A payload brought up to date. -/
def hydrated : DecodedPayload → DecodedIdentityPayload
  | .live snapshot => .live (hydrateV0ToV1 snapshot)
  | .tombstone payload => .tombstone payload

theorem sameOk_decodeV0 (unknown unknown' : String) :
    SameOk (decodeV0LiveInline codec unknown) (decodeV0LiveInline codec unknown') := by
  apply SameOk.bind
  · apply SameOk.rounds
    intro fields
    apply (SameOk.refl _).bind
    intro key
    apply (SameOk.refl _).bind
    intro _
    apply (SameOk.refl _).bind
    intro value
    cases fieldOf SnapshotField.all SnapshotField.name key with
    | none =>
        intro bytes result read
        cases read
    | some field => exact .refl _
  · intro fields
    exact .refl _

theorem legacy_tombstone {bytes rest : List UInt8} {decoded : DecodedPayload}
    (read : (decodeTombstoneLegacy codec).plain bytes = .ok (decoded, rest)) :
    ∃ payload, decoded = .tombstone payload := by
  obtain ⟨_, -, spelled⟩ := (meets_decodeTombstoneLegacy codec).spells_of_ok read
  obtain ⟨_, _, _, -, -, _, _, _, -, -, -, rfl⟩ := spelled
  exact ⟨_, rfl⟩

theorem widened_tombstone {bytes rest : List UInt8} {decoded : DecodedPayload}
    (read : (decodeTombstoneWidened codec).plain bytes = .ok (decoded, rest)) :
    ∃ payload, decoded = .tombstone payload := by
  obtain ⟨_, -, spelled⟩ := (meets_decodeTombstoneWidened codec).spells_of_ok read
  obtain ⟨_, _, _, -, -, _, _, _, -, -, _, _, _, -, -, _, _, _, -, -, _, _, _, -, -, _, _, _, -, -,
    -, rfl⟩ := spelled
  exact ⟨_, rfl⟩

/-- A tombstone of the first decoder is passed on by the second. -/
theorem passed_on {reader : Dec DecodedPayload} {bytes rest : List UInt8} {decoded : DecodedPayload}
    (message : String) (read : reader.plain bytes = .ok (decoded, rest))
    (tombstone : ∃ payload, decoded = .tombstone payload) :
    (reader >>= passTombstone message).plain bytes = .ok (hydrated decoded, rest) := by
  obtain ⟨payload, rfl⟩ := tombstone
  rw [plain_bind]
  exact Reader.bind_eq_ok_iff.mpr ⟨_, _, read, rfl⟩

/-- What one decoder accepts, the other accepts as the same, brought up to date. -/
theorem identityPayload_of_payload {bytes : List UInt8} {decoded : DecodedPayload}
    (accepted : decodePayload codec bytes = .ok decoded) :
    decodeIdentityPayload codec bytes = .ok (hydrated decoded) := by
  cases read : (payloadReader codec).plain bytes with
  | error stop =>
      rw [decodePayload, read] at accepted
      cases accepted
  | ok result =>
      obtain ⟨value, rest⟩ := result
      rw [decodePayload, read] at accepted
      obtain rfl : value = decoded := Except.ok.inj accepted
      rw [payloadReader, plain_bind] at read
      obtain ⟨entries, left, entered, body⟩ := Reader.bind_eq_ok_iff.mp read
      have whole : (identityPayloadReader codec).plain bytes = .ok (hydrated value, rest) := by
        rw [identityPayloadReader, plain_bind]
        refine Reader.bind_eq_ok_iff.mpr ⟨entries, left, entered, ?_⟩
        unfold payloadOf at body
        unfold identityPayloadOf
        split at body
        · next one =>
            rw [if_pos one]
            exact passed_on _ body (legacy_tombstone codec body)
        split at body
        · next notOne three =>
            rw [if_neg notOne, if_pos three]
            exact passed_on _ body (widened_tombstone codec body)
        split at body
        · next notOne notThree six =>
            rw [if_neg notOne, if_neg notThree, if_pos six, plain_bind]
            rw [plain_bind] at body
            obtain ⟨snapshot, after, found, done⟩ := Reader.bind_eq_ok_iff.mp body
            obtain ⟨rfl, rfl⟩ := Prod.mk.inj (Except.ok.inj done)
            exact Reader.bind_eq_ok_iff.mpr ⟨snapshot, after, sameOk_decodeV0 codec _ _ _ _ found,
              rfl⟩
        · cases body
      rw [decodeIdentityPayload, whole]
      rfl

/-- What the decoder for identities passes on was a tombstone. -/
theorem payload_of_passed {reader : Dec DecodedPayload} {message : String}
    {bytes rest : List UInt8} {payload : TombstonePayload}
    (read : (reader >>= passTombstone message).plain bytes = .ok (.tombstone payload, rest)) :
    reader.plain bytes = .ok (.tombstone payload, rest) := by
  rw [plain_bind] at read
  obtain ⟨decoded, left, found, passed⟩ := Reader.bind_eq_ok_iff.mp read
  cases decoded with
  | live snapshot => cases passed
  | tombstone other =>
      obtain ⟨same, rfl⟩ := Prod.mk.inj (Except.ok.inj passed)
      obtain rfl := DecodedIdentityPayload.tombstone.inj same
      exact found

theorem payload_of_identityPayload {bytes : List UInt8} {payload : TombstonePayload}
    (accepted : decodeIdentityPayload codec bytes = .ok (.tombstone payload)) :
    decodePayload codec bytes = .ok (.tombstone payload) := by
  cases read : (identityPayloadReader codec).plain bytes with
  | error stop =>
      rw [decodeIdentityPayload, read] at accepted
      cases accepted
  | ok result =>
      obtain ⟨value, rest⟩ := result
      rw [decodeIdentityPayload, read] at accepted
      obtain rfl : value = .tombstone payload := Except.ok.inj accepted
      rw [identityPayloadReader, plain_bind] at read
      obtain ⟨entries, left, entered, body⟩ := Reader.bind_eq_ok_iff.mp read
      have whole : (payloadReader codec).plain bytes = .ok (.tombstone payload, rest) := by
        rw [payloadReader, plain_bind]
        refine Reader.bind_eq_ok_iff.mpr ⟨entries, left, entered, ?_⟩
        unfold identityPayloadOf at body
        unfold payloadOf
        split at body
        · next one =>
            rw [if_pos one]
            exact payload_of_passed body
        split at body
        · next notOne three =>
            rw [if_neg notOne, if_pos three]
            exact payload_of_passed body
        -- What is left reads accounts or nothing.
        split at body
        · rw [plain_bind] at body
          obtain ⟨_, _, -, done⟩ := Reader.bind_eq_ok_iff.mp body
          cases done
        split at body
        · rw [decodeV1OrV2LiveInline, plain_bind] at body
          obtain ⟨_, _, -, rest⟩ := Reader.bind_eq_ok_iff.mp body
          rw [plain_bind] at rest
          obtain ⟨_, _, -, done⟩ := Reader.bind_eq_ok_iff.mp rest
          cases done
        split at body
        · cases body
        · cases body
      rw [decodePayload, whole]
      rfl

/-! ## What is never an account -/

/-- The bytes begin with a map of this many entries. -/
def BeginsWithMap (bytes : List UInt8) (entries : Nat) : Prop :=
  ∃ rest, codec.pull bytes = some (.map (some entries), rest)

/-- The bytes begin with a map one of whose entries is this version: some number of entries
before it, whatever they are, its key, and a positive integer. -/
def Declares (bytes : List UInt8) (version : Nat) : Prop :=
  ∃ entries place head front key number rest, Head codec (.map (some entries)) head ∧
    place < entries ∧ Items codec (place * 2) front ∧
    TextItem codec (Utf8.encode "payload_version".toList) key ∧
    Head codec (.positive version) number ∧
    bytes = head ++ (front ++ (key ++ (number ++ rest)))

/-- An account is read from a map of six or of eight entries. -/
theorem live_spells {taken : List UInt8} {identity : AccountIdentity}
    (spelled : (Format.identityPayload codec).Spells taken (.live identity)) :
    ∃ head loop after, taken = head ++ (loop ++ after) ∧
      ((Head codec (.map (some 6)) head ∧
          ∃ fields, Grammar.Chain (Format.snapshotEntry codec) 6 {} loop fields) ∨
        Head codec (.map (some 8)) head ∧
          ∃ fields, Grammar.Chain (Format.identityEntry codec) 8 {} loop fields) := by
  obtain ⟨head, entries, body, rfl, entered, spelled⟩ := spelled
  have headed := length_spells codec entered
  unfold Format.identityBody at spelled
  split at spelled
  · obtain ⟨_, _, _, -, -, -, _, -, same⟩ := spelled
    cases same
  split at spelled
  · obtain ⟨_, _, _, -, -, -, _, -, same⟩ := spelled
    cases same
  split at spelled
  · next six =>
      obtain ⟨front, snapshot, back, rfl, ⟨loop, fields, after, rfl, chain, -⟩, -⟩ := spelled
      refine ⟨head, loop, after ++ back, ?_, .inl ⟨six ▸ headed, fields, chain⟩⟩
      rw [List.append_assoc]
  split at spelled
  · next eight =>
      obtain ⟨loop, fields, after, rfl, chain, -⟩ := spelled
      exact ⟨head, loop, after, rfl, .inr ⟨eight ▸ headed, fields, chain⟩⟩
  · exact spelled.2.elim

/-- A key of a declared version, where a key is read, is the key of a version. -/
theorem key_of_textItem {taken key more more' : List UInt8} {found : String}
    (spelled : (Format.key codec).Spells taken found)
    (item : TextItem codec (Utf8.encode "payload_version".toList) key)
    (same : key ++ more = taken ++ more') : found = "payload_version" ∧ more = more' := by
  obtain ⟨head, bytes, text, rfl, headed, decoded, rfl⟩ := key_spells codec spelled
  cases item with
  | whole headed' =>
      rw [List.append_assoc, List.append_assoc] at same
      obtain ⟨kind, -, after⟩ := headed'.unique headed same
      obtain sized := Option.some.inj (Header.text.inj kind)
      obtain ⟨rfl, rest⟩ := List.append_inj after sized
      rw [Utf8.decode?_encode] at decoded
      obtain rfl := Option.some.inj decoded
      exact ⟨String.ofList_toList, rest⟩
  | chunked headed' _ _ =>
      simp only [List.append_assoc] at same
      obtain ⟨kind, -, -⟩ := headed'.unique headed same
      cases kind

theorem payloadVersion_spells {taken : List UInt8} {version : Nat}
    (spelled : (Format.payloadVersion codec).Spells taken version) :
    Head codec (.positive version) taken ∧ version ≤ revisionSchemaVersionMax := by
  obtain ⟨_, _, _, rfl, ⟨_, _, _, rfl, ⟨head, found, _, rfl, headed, rfl, rfl⟩, rfl, -, rfl⟩, rfl,
    known, rfl⟩ := spelled
  simp only [List.append_nil]
  exact ⟨headed, known⟩

/-- No entry of an identity is a version that this build does not know. -/
theorem identityEntry_version {fields next : IdentityFields} {one others key number rest : List UInt8}
    {version : Nat} (entry : (Format.identityEntry codec fields).Spells one next)
    (item : TextItem codec (Utf8.encode "payload_version".toList) key)
    (headed : Head codec (.positive version) number)
    (same : key ++ (number ++ rest) = one ++ others) : version ≤ revisionSchemaVersionMax := by
  obtain ⟨keyBytes, found, _, rfl, spelled, _, _, _, rfl, ⟨rfl, -⟩, _, _, _, rfl, value, -⟩ := entry
  simp only [List.append_assoc, List.nil_append] at same
  obtain ⟨rfl, after⟩ := key_of_textItem codec spelled item same
  have isVersion : fieldOf IdentityField.all IdentityField.name "payload_version" =
      some .payloadVersion := by decide
  rw [isVersion] at value
  obtain ⟨_, found, _, rfl, spelledVersion, -⟩ := value
  obtain ⟨headed', known⟩ := payloadVersion_spells codec spelledVersion
  simp only [List.append_assoc] at after
  obtain ⟨sameVersion, -, -⟩ := headed.unique headed' after
  obtain rfl := Header.positive.inj sameVersion
  exact known

/-- No entry of a snapshot is a version. -/
theorem snapshotEntry_not_version {fields next : SnapshotFields} {one others key more : List UInt8}
    (entry : (Format.snapshotEntry codec fields).Spells one next)
    (item : TextItem codec (Utf8.encode "payload_version".toList) key)
    (same : key ++ more = one ++ others) : False := by
  obtain ⟨keyBytes, found, _, rfl, spelled, _, _, _, rfl, -, _, _, _, rfl, -, value⟩ := entry
  simp only [List.append_assoc] at same
  obtain ⟨rfl, -⟩ := key_of_textItem codec spelled item same
  have unknown : fieldOf SnapshotField.all SnapshotField.name "payload_version" = none := by decide
  rw [unknown] at value
  exact value.2.elim

/-- A map of more than eight entries is never read as an account. -/
theorem live_arity {bytes : List UInt8} {entries : Nat} {identity : AccountIdentity}
    (begins : BeginsWithMap codec bytes entries)
    (accepted : decodeIdentityPayload codec bytes = .ok (.live identity)) : entries ≤ 8 := by
  obtain ⟨taken, rest, rfl, spelled⟩ := spells_of_decodeIdentityPayload codec accepted
  obtain ⟨head, loop, after, rfl, read⟩ := live_spells codec spelled
  obtain ⟨left, pulled⟩ := begins
  rw [List.append_assoc] at pulled
  rcases read with ⟨headed, -⟩ | ⟨headed, -⟩
  · rw [headed.pulls] at pulled
    cases pulled
    decide
  · rw [headed.pulls] at pulled
    cases pulled
    decide

/-- A payload that declares a newer version is never read as an account. -/
theorem live_version {bytes : List UInt8} {version : Nat} {identity : AccountIdentity}
    (declares : Declares codec bytes version)
    (accepted : decodeIdentityPayload codec bytes = .ok (.live identity)) :
    version ≤ revisionSchemaVersionMax := by
  obtain ⟨taken, left, split, spelled⟩ := spells_of_decodeIdentityPayload codec accepted
  obtain ⟨head, loop, after, rfl, read⟩ := live_spells codec spelled
  obtain ⟨entries, place, head', front, key, number, rest, headed', inside, items, item, numbered,
    whole⟩ := declares
  rw [whole, List.append_assoc, List.append_assoc] at split
  rcases read with ⟨headed, fields, chain⟩ | ⟨headed, fields, chain⟩
  · obtain ⟨same, -, body⟩ := headed'.unique headed split
    obtain rfl := Option.some.inj (Header.map.inj same)
    obtain ⟨middle, next, one, others, entry, found⟩ :=
      Holds.item_at (holds_snapshotEntry codec) chain inside items body.symm
    exact (snapshotEntry_not_version codec entry item found).elim
  · obtain ⟨same, -, body⟩ := headed'.unique headed split
    obtain rfl := Option.some.inj (Header.map.inj same)
    obtain ⟨middle, next, one, others, entry, found⟩ :=
      Holds.item_at (holds_identityEntry codec) chain inside items body.symm
    exact identityEntry_version codec entry item numbered found

/-! ## The codec -/

/-- What the payload codec promises of its decoders. -/
structure PayloadCodec : Prop where
  /-- An identity reads back. -/
  identity : ∀ identity, IdentityInMemory identity →
    Validate.totpParams identity.totpParams = .ok () →
    decodeIdentityPayload codec (encodeIdentityCbor codec identity) = .ok (.live identity)
  /-- From a body of the first version it comes back with default parameters. -/
  identityV1 : ∀ identity, IdentityInMemory identity →
    Validate.totpParams identity.totpParams = .ok () → ∀ payloadVersion < payloadVersionV2,
    decodeIdentityPayload codec
        (encodeIdentityCborWithPayloadVersion codec identity payloadVersion) =
      .ok (.live { identity with totpParams := .default })
  snapshot : ∀ snapshot, SnapshotInMemory snapshot →
    decodePayload codec (encodeSnapshotCbor codec snapshot) = .ok (.live snapshot) ∧
    decodeIdentityPayload codec (encodeSnapshotCbor codec snapshot) =
      .ok (.live (hydrateV0ToV1 snapshot))
  tombstone : ∀ payload, TombstoneInMemory payload → payload.deleted = true →
    decodePayload codec (encodeTombstoneCbor codec payload) = .ok (.tombstone payload) ∧
    decodeIdentityPayload codec (encodeTombstoneCbor codec payload) = .ok (.tombstone payload)
  /-- What the first decoder accepts, the second accepts as the same. -/
  agree : ∀ bytes decoded, decodePayload codec bytes = .ok decoded →
    decodeIdentityPayload codec bytes = .ok (hydrated decoded)
  agreeDeleted : ∀ bytes payload, decodeIdentityPayload codec bytes = .ok (.tombstone payload) →
    decodePayload codec bytes = .ok (.tombstone payload)
  /-- Nothing shorter than a written payload is accepted. -/
  prefixes : ∀ front more, Written codec (front ++ more) → more ≠ [] →
    (∀ decoded, decodePayload codec front ≠ .ok decoded) ∧
    ∀ decoded, decodeIdentityPayload codec front ≠ .ok decoded
  /-- A map of more than eight entries, or of a newer version, is not an account. -/
  arity : ∀ bytes entries, BeginsWithMap codec bytes entries → 8 < entries →
    (∀ snapshot, decodePayload codec bytes ≠ .ok (.live snapshot)) ∧
    ∀ identity, decodeIdentityPayload codec bytes ≠ .ok (.live identity)
  version : ∀ bytes version, Declares codec bytes version → revisionSchemaVersionMax < version →
    (∀ snapshot, decodePayload codec bytes ≠ .ok (.live snapshot)) ∧
    ∀ identity, decodeIdentityPayload codec bytes ≠ .ok (.live identity)

/-- A decoder that never returns an account of identities returns none of snapshots. -/
theorem never_live {bytes : List UInt8}
    (never : ∀ identity, decodeIdentityPayload codec bytes ≠ .ok (.live identity)) :
    (∀ snapshot, decodePayload codec bytes ≠ .ok (.live snapshot)) ∧
      ∀ identity, decodeIdentityPayload codec bytes ≠ .ok (.live identity) := by
  refine ⟨?_, never⟩
  intro snapshot accepted
  exact never _ (identityPayload_of_payload codec accepted)

theorem payload_codec : PayloadCodec codec where
  identity := by
    intro identity held valid
    exact decodeIdentityPayload_of_reads codec (reads_decodeIdentity codec held (by decide) valid)
  identityV1 := by
    intro identity held valid payloadVersion first
    have known : payloadVersion ≤ revisionSchemaVersionMax := Nat.le_of_lt first
    have reads := reads_decodeIdentity codec held known valid
    rw [readBack, if_neg (Nat.not_le.mpr first)] at reads
    exact decodeIdentityPayload_of_reads codec reads
  snapshot := by
    intro snapshot held
    exact ⟨decodePayload_of_reads codec (reads_payload_snapshot codec held),
      decodeIdentityPayload_of_reads codec (reads_identityPayload_snapshot codec held)⟩
  tombstone := by
    intro payload held deleted
    exact ⟨decodePayload_of_reads codec (reads_payload_tombstone codec held deleted),
      decodeIdentityPayload_of_reads codec (reads_identityPayload_tombstone codec held deleted)⟩
  agree _ _ := identityPayload_of_payload codec
  agreeDeleted _ _ := payload_of_identityPayload codec
  prefixes := by
    intro front more written longer
    exact ⟨fun _ accepted => longer (decodePayload_extended codec written accepted),
      fun _ accepted => longer (decodeIdentityPayload_extended codec written accepted)⟩
  arity := by
    intro bytes entries begins large
    apply never_live
    intro identity accepted
    exact absurd (live_arity codec begins accepted) (Nat.not_le.mpr large)
  version := by
    intro bytes version declares newer
    apply never_live
    intro identity accepted
    exact absurd (live_version codec declares accepted) (Nat.not_le.mpr newer)

end

end Pangolin.Store.Blob
