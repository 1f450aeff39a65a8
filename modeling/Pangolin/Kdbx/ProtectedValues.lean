import Pangolin.Kdbx.XmlGroups

/-!
# Protected values

A KeePass file masks every protected element with one keystream in document order, wherever the
element stands.  The reader moves on in its keystream at the values of strings only, so that it is
in step as long as no other element is protected.
-/

namespace Pangolin.Kdbx

open Store Utf8 Xml

/-! ## Masking -/

@[simp] theorem length_masked (keystream : Nat → UInt8) (position : Nat) (bytes : List UInt8) :
    (masked keystream position bytes).length = bytes.length := by
  induction bytes generalizing position with
  | nil => rfl
  | cons byte bytes ih => rw [masked, List.length_cons, ih, List.length_cons]

theorem xor_xor_eq_iff {byte first second : UInt8} :
    byte ^^^ first ^^^ second = byte ↔ first = second := by
  rw [UInt8.xor_assoc]
  constructor
  · intro same
    have cancelled : byte ^^^ (byte ^^^ (first ^^^ second)) = byte ^^^ byte := congrArg _ same
    rw [← UInt8.xor_assoc, UInt8.xor_self, UInt8.zero_xor] at cancelled
    exact UInt8.xor_eq_zero_iff.mp cancelled
  · rintro rfl
    rw [UInt8.xor_self, UInt8.xor_zero]

/-- Masked in one place and unmasked in another, bytes come back when the keystream is the same
in both. -/
theorem masked_masked_eq_iff {keystream : Nat → UInt8} {first second : Nat} {bytes : List UInt8} :
    masked keystream second (masked keystream first bytes) = bytes ↔
      ∀ index < bytes.length, keystream (first + index) = keystream (second + index) := by
  induction bytes generalizing first second with
  | nil => simp [masked]
  | cons byte bytes ih =>
      rw [masked, masked, List.cons.injEq, xor_xor_eq_iff, ih]
      constructor
      · rintro ⟨same, rest⟩ index inside
        cases index with
        | zero => exact same
        | succ index =>
            have later := rest index (Nat.lt_of_succ_lt_succ inside)
            rwa [Nat.add_assoc, Nat.add_comm 1, Nat.add_assoc, Nat.add_comm 1] at later
      · intro all
        refine ⟨all 0 (Nat.succ_pos _), ?_⟩
        intro index inside
        have later := all (index + 1) (Nat.succ_lt_succ inside)
        rwa [Nat.add_assoc, Nat.add_comm 1, Nat.add_assoc, Nat.add_comm 1]

/-! ## The writer -/

def total (bodies : List (List UInt8)) : Nat := (bodies.map List.length).sum

/-- The rule of KeePass: one keystream runs over the bytes of all protected elements in document
order. -/
def encrypt (keystream : Nat → UInt8) : Nat → Forest (List UInt8) → Forest (List UInt8)
  | _, .nil => .nil
  | position, .piece part rest => .piece part (encrypt keystream position rest)
  | position, .empty tag rest => .empty tag (encrypt keystream position rest)
  | position, .element tag inner rest =>
      .element tag (encrypt keystream position inner)
        (encrypt keystream (position + total inner.bodies) rest)
  | position, .body tag bytes rest =>
      .body tag (masked keystream position bytes)
        (encrypt keystream (position + bytes.length) rest)

/-- The bytes of a protected element, with where the writer and the reader are in the keystream
when they come to it. -/
structure Hidden where
  bytes : List UInt8
  writtenAt : Nat
  readAt : Nat
  deriving Repr, DecidableEq

/-- The bytes as they are in the file. -/
def Hidden.cipher (keystream : Nat → UInt8) (hidden : Hidden) : List UInt8 :=
  masked keystream hidden.writtenAt hidden.bytes

/-- Where the writer and the reader are: the reader moves on at the values of strings. -/
def mark : Context → (writer reader : Nat) → Forest (List UInt8) → Forest Hidden
  | _, _, _, .nil => .nil
  | context, writer, reader, .piece part rest => .piece part (mark context writer reader rest)
  | context, writer, reader, .empty tag rest => .empty tag (mark context writer reader rest)
  | context, writer, reader, .element tag inner rest =>
      let kind := (child context tag.name).getD .other
      .element tag (mark kind writer reader inner)
        (mark context (writer + total inner.bodies) (reader + total (unmasked kind inner)) rest)
  | context, writer, reader, .body tag bytes rest =>
      .body tag ⟨bytes, writer, reader⟩ (mark context (writer + bytes.length)
        (if context = .string ∧ tag.name = "Value" then reader + bytes.length else reader) rest)

variable {keystream : Nat → UInt8} {context : Context} {writer reader : Nat}
variable {document : Forest (List UInt8)} {spelling : List UInt8 → List Piece}

/-- The marks say where the elements are, and change nothing else. -/
theorem map_bytes_mark : (mark context writer reader document).map Hidden.bytes = document := by
  induction document generalizing context writer reader with
  | nil => rfl
  | piece part rest ih => rw [mark, Forest.map, ih]
  | empty tag rest ih => rw [mark, Forest.map, ih]
  | element tag inner rest ihInner ihRest =>
      simp only [mark, Forest.map]
      rw [ihInner, ihRest]
  | body tag bytes rest ih => rw [mark, Forest.map, ih]

/-- The written document is the one whose bodies are masked where the writer is. -/
theorem map_cipher_mark : (mark context writer reader document).map (Hidden.cipher keystream) =
    encrypt keystream writer document := by
  induction document generalizing context writer reader with
  | nil => rfl
  | piece part rest ih => rw [mark, Forest.map, encrypt, ih]
  | empty tag rest ih => rw [mark, Forest.map, encrypt, ih]
  | element tag inner rest ihInner ihRest =>
      simp only [mark, Forest.map, encrypt]
      rw [ihInner, ihRest]
  | body tag bytes rest ih =>
      rw [mark, Forest.map, encrypt, ih]
      rfl

theorem conforms_map {Body Other : Type} {change : Body → Other} (document : Forest Body) :
    conforms context (document.map change) = conforms context document := by
  induction document generalizing context with
  | nil => rfl
  | piece part rest ih => exact ih
  | empty tag rest ih => rw [Forest.map, conforms, conforms, ih]
  | element tag inner rest ihInner ihRest =>
      rw [Forest.map, conforms, conforms, ihRest]
      cases child context tag.name with
      | none => rfl
      | some kind => simp only [ihInner]
  | body tag inside rest ih => rw [Forest.map, conforms, conforms, ih]

theorem unmasked_map {Body Other : Type} {change : Body → Other} (document : Forest Body) :
    unmasked context (document.map change) = (unmasked context document).map change := by
  induction document generalizing context with
  | nil => rfl
  | piece part rest ih => exact ih
  | empty tag rest ih => exact ih
  | element tag inner rest ihInner ihRest =>
      rw [Forest.map, unmasked, unmasked, ihRest, List.map_append]
      cases child context tag.name with
      | none => rfl
      | some kind => simp only [ihInner]
  | body tag inside rest ih =>
      rw [Forest.map, unmasked, unmasked, ih]
      split <;> rfl

/-- Masking keeps lengths, so that the reader moves as far as there are bytes. -/
theorem total_unmasked_mark :
    ((unmasked context (mark context writer reader document)).map
      fun hidden => (hidden.cipher keystream).length).sum = total (unmasked context document) := by
  have bytes : unmasked context ((mark context writer reader document).map Hidden.bytes) =
      (unmasked context (mark context writer reader document)).map Hidden.bytes :=
    unmasked_map _
  rw [map_bytes_mark] at bytes
  rw [bytes, total, List.map_map]
  congr 2
  funext hidden
  exact length_masked _ _ _

/-- The reader comes to the bodies it unmasks where they are marked. -/
theorem placed_mark : Placed (Hidden.cipher keystream) Hidden.readAt reader
    (unmasked context (mark context writer reader document)) := by
  induction document generalizing context writer reader with
  | nil => trivial
  | piece part rest ih => exact ih
  | empty tag rest ih => exact ih
  | element tag inner rest ihInner ihRest =>
      simp only [mark, unmasked]
      cases stands : child context tag.name with
      | none =>
          have nothing : unmasked .other inner = [] := unmasked_quiet (by simp [Context.Quiet])
          simp only [Option.getD_none, nothing, List.nil_append]
          exact ihRest
      | some kind =>
          simp only [Option.getD_some]
          rw [placed_append, total_unmasked_mark]
          exact ⟨ihInner, ihRest⟩
  | body tag bytes rest ih =>
      simp only [mark, unmasked]
      split
      · refine ⟨rfl, ?_⟩
        rw [Hidden.cipher, length_masked]
        exact ih
      · exact ih

/-! ## Values -/

section

variable {Body : Type} (spell : Body → List Piece) (read : Body → List UInt8)

/-- The password of an earlier revision. -/
def passwordOf : Inside Body → Option (List UInt8)
  | .forest inner =>
      ((stringsOf spell read inner).find? fun string => string.key = "Password".toList).map (·.value)
  | .body _ => none

/-- The earlier revisions in an entry. -/
def revisionsIn (entry : Forest Body) : List (Inside Body) :=
  (entry.named "History").flatMap (Inside.named "Entry")

/-- The strings of an entry and the passwords of its earlier revisions. -/
def valuesOf (entry : Forest Body) : List KdbxStringValue × List (List UInt8) :=
  (stringsOf spell read entry, (revisionsIn entry).filterMap (passwordOf spell read))

end

/-- The strings and the earlier passwords of a reported entry. -/
def KdbxEntry.values (entry : KdbxEntry) : List KdbxStringValue × List (List UInt8) :=
  (entry.strings, entry.historyPasswords.map Prod.fst)

section

variable {Body : Type} {spell : Body → List Piece} {read original : Body → List UInt8}

theorem values_report {decodeBase64 : List UInt8 → Option (List UInt8)}
    (sighting : Sighting Body) :
    (sighting.report decodeBase64 spell read).values = valuesOf spell read sighting.entry := by
  have password : ∀ inside : Inside Body,
      (revisionOf decodeBase64 spell read inside).password = passwordOf spell read inside := by
    intro inside
    cases inside <;> rfl
  simp only [Sighting.report, EntryBuild.report, EntryBuild.add, EntryBuild.default,
    KdbxEntry.values, valuesOf, List.nil_append, historyOf, revisionsIn, Prod.mk.injEq, true_and]
  rw [List.map_filterMap, ← List.map_flatMap, List.filterMap_map]
  congr 1
  funext inside
  simp only [Function.comp, Option.map_map, ← password]
  exact Option.map_id'

/-- The masked element a string has its value from. -/
def stringBodies : Inside Body → List Body
  | .forest inner =>
      match inner.last "Key", inner.last "Value" with
      | some _, some (.body body) => [body]
      | _, _ => []
  | .body _ => []

/-- The masked element an earlier revision has its password from. -/
def passwordBodies (spell : Body → List Piece) : Inside Body → List Body
  | .forest inner =>
      ((inner.named "String").find? fun inside =>
        (stringOf spell (fun _ => []) inside).any fun string =>
          string.key = "Password".toList).toList.flatMap stringBodies
  | .body _ => []

/-- The masked elements that an entry shows. -/
def shownBodies (spell : Body → List Piece) (entry : Forest Body) : List Body :=
  (entry.named "String").flatMap stringBodies ++
    (revisionsIn entry).flatMap (passwordBodies spell)

/-- A string is the same exactly when its masked element is. -/
theorem stringOf_eq_iff (inside : Inside Body) :
    stringOf spell read inside = stringOf spell original inside ↔
      ∀ body ∈ stringBodies inside, read body = original body := by
  cases inside with
  | body body => simp [stringOf, stringBodies]
  | forest inner =>
      simp only [stringOf, stringBodies]
      cases inner.last "Key" with
      | none => simp
      | some key =>
          cases inner.last "Value" with
          | none => simp
          | some value =>
              cases value with
              | forest text => simp [valueBytes]
              | body body => simp [valueBytes]

/-- Lists made by functions that are defined at the same places. -/
theorem filterMap_eq_iff {α β : Type} {first second : α → Option β} {list : List α}
    (aligned : ∀ element, (first element).isSome = (second element).isSome) :
    list.filterMap first = list.filterMap second ↔
      ∀ element ∈ list, first element = second element := by
  induction list with
  | nil => simp
  | cons element list ih =>
      have same := aligned element
      cases one : first element with
      | none =>
          rw [one] at same
          have other : second element = none := by simpa using same.symm
          simp [one, other, ih]
      | some value =>
          rw [one] at same
          obtain ⟨value', other⟩ := Option.isSome_iff_exists.mp same.symm
          simp [one, other, ih]

theorem isSome_stringOf (inside : Inside Body) :
    (stringOf spell read inside).isSome = (stringOf spell original inside).isSome := by
  cases inside <;> simp [stringOf]

/-- The key of a string does not depend on how masked elements are read. -/
theorem any_key_stringOf (inside : Inside Body) :
    (stringOf spell read inside).any (fun string => string.key = "Password".toList) =
      (stringOf spell (fun _ => []) inside).any fun string => string.key = "Password".toList := by
  cases inside with
  | body body => rfl
  | forest inner =>
      simp only [stringOf]
      cases inner.last "Key" <;> rfl

/-- The password of a revision is that of its first string with the key of a password. -/
theorem passwordOf_forest (inner : Forest Body) : passwordOf spell read (.forest inner) =
    ((inner.named "String").find? fun inside =>
      (stringOf spell (fun _ => []) inside).any fun string => string.key = "Password".toList).bind
        fun inside => (stringOf spell read inside).map (·.value) := by
  rw [passwordOf, stringsOf, List.find?_filterMap, Option.map_bind]
  simp only [any_key_stringOf]
  rfl

theorem value_eq_iff {inside : Inside Body} :
    (stringOf spell read inside).map (·.value) = (stringOf spell original inside).map (·.value) ↔
      stringOf spell read inside = stringOf spell original inside := by
  cases inside with
  | body body => simp [stringOf]
  | forest inner =>
      simp only [stringOf]
      cases inner.last "Key" <;> simp

theorem passwordOf_eq_iff (inside : Inside Body) :
    passwordOf spell read inside = passwordOf spell original inside ↔
      ∀ body ∈ passwordBodies spell inside, read body = original body := by
  cases inside with
  | body body => simp [passwordOf, passwordBodies]
  | forest inner =>
      rw [passwordOf_forest, passwordOf_forest, passwordBodies]
      cases (inner.named "String").find? fun inside =>
          (stringOf spell (fun _ => []) inside).any fun string =>
            string.key = "Password".toList with
      | none => simp
      | some found =>
          rw [Option.bind_some, Option.bind_some, value_eq_iff, stringOf_eq_iff]
          simp

theorem isSome_passwordOf (inside : Inside Body) :
    (passwordOf spell read inside).isSome = (passwordOf spell original inside).isSome := by
  cases inside with
  | body body => rfl
  | forest inner =>
      rw [passwordOf_forest, passwordOf_forest]
      cases (inner.named "String").find? fun inside =>
          (stringOf spell (fun _ => []) inside).any fun string =>
            string.key = "Password".toList with
      | none => rfl
      | some found =>
          rw [Option.bind_some, Option.bind_some, Option.isSome_map, Option.isSome_map]
          exact isSome_stringOf found

/-- What an entry shows is the same exactly when the masked elements it shows are. -/
theorem valuesOf_eq_iff (entry : Forest Body) :
    valuesOf spell read entry = valuesOf spell original entry ↔
      ∀ body ∈ shownBodies spell entry, read body = original body := by
  rw [valuesOf, valuesOf, Prod.mk.injEq, stringsOf, stringsOf, filterMap_eq_iff isSome_stringOf,
    filterMap_eq_iff isSome_passwordOf, shownBodies, List.forall_mem_append,
    List.forall_mem_flatMap, List.forall_mem_flatMap]
  simp only [stringOf_eq_iff, passwordOf_eq_iff]

end

/-! ## Protected values -/

/-- The reader is in step with the writer over a masked element: the keystream is the same where
the two are. -/
def Hidden.InStep (keystream : Nat → UInt8) (hidden : Hidden) : Prop :=
  ∀ index < hidden.bytes.length,
    keystream (hidden.writtenAt + index) = keystream (hidden.readAt + index)

/-- The texts of the masked elements as the writer spells them. -/
def spelled (keystream : Nat → UInt8) (spelling : List UInt8 → List Piece) (hidden : Hidden) :
    List Piece :=
  spelling (hidden.cipher keystream)

/-- The reported entries, with where the writer and the reader come to their masked elements. -/
def markedEntries (keystream : Nat → UInt8) (spelling : List UInt8 → List Piece) (position : Nat)
    (document : Forest (List UInt8)) : List (Sighting Hidden) :=
  reported (spelled keystream spelling) (mark .document position position document)

section

variable {decodeBase64 : List UInt8 → Option (List UInt8)}
variable (standard : ∀ bytes, decodeBase64 (encode (Rfc4648.base64 bytes)) = some bytes)
variable (spells : ∀ bytes, trim (written (spelling bytes)) = Rfc4648.base64 bytes)
include standard spells

theorem legible_spelled :
    Legible decodeBase64 (spelled keystream spelling) (Hidden.cipher keystream) where
  blank := standard []
  body := by
    intro hidden
    rw [spelled, spells]
    exact standard _

end

/-- The written document is the marked one with other spellings. -/
theorem events_mark {position : Nat} :
    (encrypt keystream position document).events spelling =
      (mark .document position position document).events (spelled keystream spelling) := by
  have same : (mark .document position position document).map (Hidden.cipher keystream) =
      encrypt keystream position document :=
    map_cipher_mark
  rw [← same]
  exact Forest.events_map _

theorem conforms_mark (conforming : conforms context document = true) :
    conforms context (mark context writer reader document) = true := by
  have same : conforms context ((mark context writer reader document).map Hidden.bytes) =
      conforms context (mark context writer reader document) :=
    conforms_map _
  rw [map_bytes_mark] at same
  exact same.symm.trans conforming

theorem withinLimits_mark {position : Nat}
    (limits : WithinLimits spelling (encrypt keystream position document)) :
    WithinLimits (spelled keystream spelling) (mark .document position position document) := by
  have same : (mark .document position position document).map (Hidden.cipher keystream) =
      encrypt keystream position document :=
    map_cipher_mark
  have depth : ((mark .document position position document).map (Hidden.cipher keystream)).depth =
      (mark .document position position document).depth :=
    Forest.depth_map _
  constructor
  · rw [← events_mark]
    exact limits.events_lt
  · rw [← depth, same]
    exact limits.depth_le
  · intro text member
    apply limits.texts_le
    rw [← same, Forest.content_map, Forest.texts_map]
    exact member

/-- A masked element is read as it was exactly when the reader is in step over it. -/
theorem unmask_cipher_iff (hidden : Hidden) :
    unmask keystream Hidden.readAt (Hidden.cipher keystream) hidden = hidden.bytes ↔
      hidden.InStep keystream :=
  masked_masked_eq_iff

/-- What is read of a file that the writer wrote: the elements are unmasked where the reader is. -/
theorem parseKdbxXml_written {decodeBase64 : List UInt8 → Option (List UInt8)}
    (standard : ∀ bytes, decodeBase64 (encode (Rfc4648.base64 bytes)) = some bytes)
    (spells : ∀ bytes, trim (written (spelling bytes)) = Rfc4648.base64 bytes)
    {pull : Text → List (Except String Event)} {position : Nat}
    (conforming : conforms .document document = true)
    (limits : WithinLimits spelling (encrypt keystream position document))
    (room : (markedEntries keystream spelling position document).length ≤ kdbxMaxEntries)
    {xml : List UInt8} (renders : Renders pull spelling xml (encrypt keystream position document)) :
    parseKdbxXml decodeBase64 pull xml ⟨keystream, position⟩ =
      .ok ⟨(markedEntries keystream spelling position document).map
          (Sighting.report decodeBase64 (spelled keystream spelling)
            (unmask keystream Hidden.readAt (Hidden.cipher keystream))),
        ((sightings (spelled keystream spelling)
          (mark .document position position document)).filter Sighting.recycled).length⟩ := by
  obtain ⟨text, decoded, pulled⟩ := renders
  rw [events_mark] at pulled
  exact parseKdbxXml_eq (legible_spelled standard spells) ⟨text, decoded, pulled⟩
    (withinLimits_mark limits) (conforms_mark conforming) placed_mark room

/-- The values of the reported entries are the original ones exactly when the reader is in step
over every protected element that they show. -/
theorem protected_values_iff (decodeBase64 : List UInt8 → Option (List UInt8))
    (standard : ∀ bytes, decodeBase64 (encode (Rfc4648.base64 bytes)) = some bytes)
    (spelling : List UInt8 → List Piece)
    (spells : ∀ bytes, trim (written (spelling bytes)) = Rfc4648.base64 bytes)
    (pull : Text → List (Except String Event)) (keystream : Nat → UInt8) (position : Nat)
    (document : Forest (List UInt8)) (conforming : conforms .document document = true)
    (limits : WithinLimits spelling (encrypt keystream position document))
    (room : (markedEntries keystream spelling position document).length ≤ kdbxMaxEntries)
    (xml : List UInt8)
    (renders : Renders pull spelling xml (encrypt keystream position document)) :
    (∃ parsed, parseKdbxXml decodeBase64 pull xml ⟨keystream, position⟩ = .ok parsed ∧
        parsed.entries.map KdbxEntry.values =
          (markedEntries keystream spelling position document).map fun sighting =>
            valuesOf (spelled keystream spelling) Hidden.bytes sighting.entry) ↔
      ∀ sighting ∈ markedEntries keystream spelling position document,
        ∀ hidden ∈ shownBodies (spelled keystream spelling) sighting.entry,
          hidden.InStep keystream := by
  have parses := parseKdbxXml_written standard spells conforming limits room renders
  have values : ∀ sighting : Sighting Hidden,
      (sighting.report decodeBase64 (spelled keystream spelling)
          (unmask keystream Hidden.readAt (Hidden.cipher keystream))).values =
          valuesOf (spelled keystream spelling) Hidden.bytes sighting.entry ↔
        ∀ hidden ∈ shownBodies (spelled keystream spelling) sighting.entry,
          hidden.InStep keystream := by
    intro sighting
    rw [values_report, valuesOf_eq_iff]
    simp only [unmask_cipher_iff]
  constructor
  · rintro ⟨parsed, parsedOk, same⟩ sighting member
    rw [parses] at parsedOk
    cases parsedOk
    rw [List.map_map] at same
    exact (values sighting).mp (List.map_inj_left.mp same sighting member)
  · intro inStep
    refine ⟨_, parses, ?_⟩
    rw [List.map_map]
    apply List.map_congr_left
    intro sighting member
    exact (values sighting).mpr (inStep sighting member)

/-! ## Runs -/

instance {hidden : Hidden} : Decidable (hidden.InStep keystream) :=
  inferInstanceAs (Decidable (∀ index < hidden.bytes.length,
    keystream (hidden.writtenAt + index) = keystream (hidden.readAt + index)))

/-- A protected element as one text. -/
def plainly (bytes : List UInt8) : List Piece := [.text (Rfc4648.base64 bytes)]

theorem plainly_spells (bytes : List UInt8) :
    trim (written (plainly bytes)) = Rfc4648.base64 bytes := by
  have whole : written (plainly bytes) = Rfc4648.base64 bytes := List.append_nil _
  rw [whole]
  exact trim_of_graphic fun char member => (base64_graphic bytes char member).1

/-- A parser that knows the events of one document. -/
def knowing (document : Forest (List UInt8)) (_ : Text) : List (Except String Event) :=
  (document.events plainly).map .ok

theorem renders_knowing (document : Forest (List UInt8)) :
    Renders (knowing document) plainly [] document :=
  ⟨[], rfl, rfl⟩

instance (document : Forest (List UInt8)) : Decidable (WithinLimits plainly document) :=
  decidable_of_iff ((document.events plainly).length < maxEvents ∧ document.depth ≤ maxDepth ∧
      ∀ text ∈ document.content :: document.texts plainly, (encode text).length ≤ maxTextBytes)
    ⟨fun ⟨events, depth, texts⟩ => ⟨events, depth, texts⟩,
      fun limits => ⟨limits.events_lt, limits.depth_le, limits.texts_le⟩⟩

/-- The keystream that counts. -/
def counting (position : Nat) : UInt8 := UInt8.ofNat position

def plain (name : String) : Tag := ⟨name, []⟩

def concealed (name : String) : Tag := ⟨name, [("Protected", "True".toList)]⟩

/-- A string with the key of a password and a protected value. -/
def passwordString (bytes : List UInt8) : Forest (List UInt8) :=
  .element (plain "String")
    (.element (plain "Key") (.piece (.text "Password".toList) .nil)
      (.body (concealed "Value") bytes .nil)) .nil

/-- A file with one entry, of one password and an earlier one. -/
def changedPassword (metadata : Forest (List UInt8)) (first second : List UInt8) :
    Forest (List UInt8) :=
  .element (plain "KeePassFile")
    (.element (plain "Meta") metadata
      (.element (plain "Root")
        (.element (plain "Group")
          (.element (plain "Entry")
            (.element (plain "History") (.element (plain "Entry") (passwordString first) .nil)
              (passwordString second))
            .nil)
          .nil)
        .nil))
    .nil

/-- Two passwords come back. -/
theorem passwords_read :
    ∃ parsed, parseKdbxXml strictBase64
        (knowing (encrypt counting 0 (changedPassword .nil [65, 66] [67]))) [] ⟨counting, 0⟩ =
          .ok parsed ∧
      parsed.entries.map KdbxEntry.values = [([⟨"Password".toList, [67]⟩], [[65, 66]])] := by
  obtain ⟨parsed, read, values⟩ := (protected_values_iff strictBase64 strictBase64_base64 plainly
    plainly_spells _ counting 0 (changedPassword .nil [65, 66] [67]) (by decide +kernel)
    (by decide +kernel) (by decide +kernel) [] (renders_knowing _)).mpr (by decide +kernel)
  exact ⟨parsed, read, values.trans (by decide +kernel)⟩

/-- A protected binary among the metadata shifts the keystream of the passwords after it. -/
theorem binary_shifts_passwords :
    ∃ document, conforms .document document = true ∧
      WithinLimits plainly (encrypt counting 0 document) ∧
      Renders (knowing (encrypt counting 0 document)) plainly [] (encrypt counting 0 document) ∧
      (markedEntries counting plainly 0 document).map (fun sighting =>
        valuesOf (spelled counting plainly) Hidden.bytes sighting.entry) =
          [([⟨"Password".toList, [67]⟩], [[65, 66]])] ∧
      (parseKdbxXml strictBase64 (knowing (encrypt counting 0 document)) []
          ⟨counting, 0⟩).toOption.map (·.entries.map KdbxEntry.values) =
        some [([⟨"Password".toList, [66]⟩], [[64, 65]])] := by
  refine ⟨changedPassword (.body (concealed "Binary") [7] .nil) [65, 66] [67], ?_, ?_,
    renders_knowing _, ?_, ?_⟩ <;> decide +kernel

end Pangolin.Kdbx
