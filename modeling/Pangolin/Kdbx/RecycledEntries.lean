import Pangolin.Kdbx.RecycleBinSurvey

/-!
# Recycled entries

In a document in order the reader reports the entries outside the recycle bin, with the names of
their groups, and counts the others.
-/

namespace Pangolin.Kdbx

open Store Utf8 Xml

variable {Body : Type}

/-! ## The recycle bin of a document -/

theorem noted_eq {bin : Option Text} {text : Text} {bytes : List UInt8}
    (decodes : uuidBytes text = some bytes) :
    noted bin text = if bytes.all (· = 0) then bin else some (trim text) := by
  have zeros := Rfc4648.base64_zeros bytes
  rw [Rfc4648.base64_of_decode decodes] at zeros
  rw [noted, zeros]
  cases trimmed : trim text with
  | nil =>
      rw [trimmed] at zeros
      rw [← zeros]
      rfl
  | cons char rest => cases bytes.all (· = 0) <;> rfl

/-- The recycle bin is named by the last text that does not stand for zeros. -/
theorem foldl_noted {texts : List Text} (decode : ∀ text ∈ texts, (uuidBytes text).isSome)
    (bin : Option Text) :
    (texts.foldl noted bin).bind Rfc4648.base64Decode =
      (((texts.filterMap uuidBytes).filter fun bytes => !bytes.all (· = 0)).getLast?).or
        (bin.bind Rfc4648.base64Decode) := by
  induction texts generalizing bin with
  | nil => rfl
  | cons text texts ih =>
      obtain ⟨bytes, decodes⟩ := Option.isSome_iff_exists.mp (decode text List.mem_cons_self)
      rw [List.foldl_cons, ih (fun later member => decode later (List.mem_cons_of_mem _ member)),
        List.filterMap_cons_some decodes, noted_eq decodes]
      cases zeros : bytes.all (· = 0) with
      | true => simp [zeros]
      | false =>
          have same : Rfc4648.base64Decode (trim text) = some bytes := decodes
          simp only [List.filter_cons, zeros, Bool.not_false, if_true, List.getLast?_cons,
            Bool.false_eq_true, if_false, Option.bind_some, same, Option.some_or]
          cases ((texts.filterMap uuidBytes).filter fun bytes => !bytes.all (· = 0)).getLast? <;> rfl

theorem mem_of_noted {texts : List Text} {bin : Option Text} {last : Text}
    (named : texts.foldl noted bin = some last) :
    bin = some last ∨ ∃ text ∈ texts, trim text = last := by
  induction texts generalizing bin with
  | nil => exact .inl named
  | cons text texts ih =>
      rcases ih named with first | ⟨later, member, same⟩
      · unfold noted at first
        split at first
        · exact .inr ⟨text, List.mem_cons_self, Option.some.inj first⟩
        · exact .inl first
      · exact .inr ⟨later, List.mem_cons_of_mem _ member, same⟩

/-! ## Documents in order -/

section

variable (spell : Body → List Piece)

/-- One file, whose metadata stands before its root, with the names of each group before what is in
it.  UUIDs are base64, and no two differ only in the case of their letters. -/
structure Orderly (document : Forest Body) : Prop where
  oneFile : InOrder ["KeePassFile"] ["KeePassFile"] document
  metadataFirst : ∀ inner, .forest inner ∈ document.named "KeePassFile" →
    InOrder ["Meta"] ["Root"] inner
  namesFirst : ∀ group ∈ groupsIn document, GroupInOrder group
  binUuids : ∀ text ∈ recycleBinTexts spell document, (uuidBytes text).isSome
  uuids : ∀ group ∈ groupsIn document, ∀ text ∈ groupUuids spell group,
    (uuidBytes text).isSome
  apart : ∀ bin ∈ recycleBinTexts spell document, ∀ group ∈ groupsIn document,
    ∀ text ∈ groupUuids spell group,
      eqIgnoreAsciiCase (trim bin) (trim text) = true → trim bin = trim text

/-- The text that names the recycle bin. -/
def binTextOf (document : Forest Body) : Option Text :=
  (recycleBinTexts spell document).foldl noted none

variable (decodeBase64 : List UInt8 → Option (List UInt8)) (read : Body → List UInt8)

/-- The entry as it is reported. -/
def Located.report (location : Located Body) : KdbxEntry :=
  { (EntryBuild.default.add decodeBase64 spell read location.entry).report decodeBase64 [] with
    groupPath := location.path spell }

end

section

variable {spell : Body → List Piece} {document : Forest Body} {groups : List (Forest Body)}
variable {decodeBase64 : List UInt8 → Option (List UInt8)} {read : Body → List UInt8}
variable {location : Located Body}

/-- The groups around an entry are groups of the document. -/
theorem mem_groupsIn (member : location ∈ located groups document) :
    ∀ group ∈ location.groups, group ∈ groups ∨ group ∈ groupsIn document := by
  induction document generalizing groups with
  | nil => cases member
  | piece part rest ih => exact ih member
  | empty tag rest ih =>
      rcases List.mem_append.mp member with here | later
      · split at here
        · rw [List.mem_singleton.mp here]
          exact fun group inside => .inl inside
        · cases here
      · exact ih later
  | element tag inner rest ihInner ihRest =>
      intro group inside
      rw [groupsIn, List.mem_append, List.mem_append]
      rcases List.mem_append.mp member with here | later
      · split at here
        · rw [List.mem_singleton.mp here] at inside
          exact .inl inside
        · split at here
          · next named =>
              rcases ihInner here group inside with outer | deeper
              · rcases List.mem_cons.mp outer with rfl | outer
                · exact .inr (.inl (.inl (if_pos named ▸ List.mem_cons_self)))
                · exact .inl outer
              · exact .inr (.inl (.inr deeper))
          · rcases ihInner here group inside with outer | deeper
            · exact .inl outer
            · exact .inr (.inl (.inr deeper))
      · rcases ihRest later group inside with outer | deeper
        · exact .inl outer
        · exact .inr (.inr deeper)
  | body tag inside rest ih => exact ih member

/-- A group is taken for the recycle bin when its UUID has the bytes of the recycle bin's. -/
theorem any_bin_iff (orderly : Orderly spell document) {group : Forest Body}
    (member : group ∈ groupsIn document) {text : Text} (has : text ∈ groupUuids spell group) :
    (binTextOf spell document).any (eqIgnoreAsciiCase · (trim text)) =
      (recycleBinOf spell document).any fun bytes => uuidBytes text = some bytes := by
  have bytes := foldl_noted orderly.binUuids none
  rw [Option.bind_none, Option.or_none] at bytes
  rw [recycleBinOf, ← bytes, ← binTextOf]
  cases named : binTextOf spell document with
  | none => rfl
  | some last =>
      obtain first | ⟨bin, inDocument, rfl⟩ := mem_of_noted named
      · cases first
      obtain ⟨binBytes, decodes⟩ := Option.isSome_iff_exists.mp (orderly.binUuids bin inDocument)
      have binDecodes : Rfc4648.base64Decode (trim bin) = some binBytes := decodes
      rw [Option.any_some, Option.bind_some, binDecodes, Option.any_some, Bool.eq_iff_iff,
        decide_eq_true_eq]
      constructor
      · intro alike
        rw [uuidBytes, ← orderly.apart bin inDocument group member text has alike]
        exact binDecodes
      · intro same
        rw [← Rfc4648.base64_of_decode same, Rfc4648.base64_of_decode binDecodes]
        exact decide_eq_true rfl

theorem sighting_recycled (orderly : Orderly spell document)
    (member : location ∈ located [] document) :
    (location.sighting spell (binTextOf spell document)).recycled =
      location.deleted spell (recycleBinOf spell document) := by
  have same : ∀ group ∈ location.groups,
      ((groupUuids spell group).any fun text =>
        (binTextOf spell document).any (eqIgnoreAsciiCase · (trim text))) =
      (groupUuids spell group).any fun text =>
        (recycleBinOf spell document).any fun bytes => uuidBytes text = some bytes := by
    intro group around
    have inDocument : group ∈ groupsIn document :=
      (mem_groupsIn member group around).resolve_left List.not_mem_nil
    rw [Bool.eq_iff_iff, List.any_eq_true, List.any_eq_true]
    apply exists_congr
    intro text
    apply and_congr_right
    intro has
    rw [any_bin_iff orderly inDocument has]
  have groups : (location.sighting spell (binTextOf spell document)).recycled =
      location.groups.any fun group => (groupUuids spell group).any fun text =>
        (recycleBinOf spell document).any fun bytes => uuidBytes text = some bytes := by
    rw [Sighting.recycled, Located.sighting, inRecycle_frames, Bool.eq_iff_iff, List.any_eq_true,
      List.any_eq_true]
    apply exists_congr
    intro group
    apply and_congr_right
    intro around
    rw [same group around]
  rw [groups, Located.deleted]
  cases recycleBinOf spell document with
  | none => simp
  | some bytes => rfl

theorem sighting_report (bin : Option Text) :
    (location.sighting spell bin).report decodeBase64 spell read =
      location.report spell decodeBase64 read := by
  rw [Located.report, Located.path, ← groupPath_frames]
  rfl

/-- What is seen of a document in order. -/
theorem sightings_eq (conforming : conforms .document document = true)
    (orderly : Orderly spell document) : sightings spell document =
      (located [] document).map (Located.sighting spell (binTextOf spell document)) := by
  rw [sightings, survey_document conforming orderly.oneFile orderly.metadataFirst
    orderly.namesFirst rfl rfl]
  rfl

variable (spell document)

/-- The entries outside the recycle bin. -/
def liveEntries : List (Located Body) :=
  (located [] document).filter fun location => !location.deleted spell (recycleBinOf spell document)

/-- The entries in the recycle bin. -/
def deletedEntries : List (Located Body) :=
  (located [] document).filter fun location => location.deleted spell (recycleBinOf spell document)

variable {spell document}

theorem reported_eq (conforming : conforms .document document = true)
    (orderly : Orderly spell document) : reported spell document =
      (liveEntries spell document).map (Located.sighting spell (binTextOf spell document)) := by
  rw [reported, sightings_eq conforming orderly, List.filter_map, liveEntries]
  congr 1
  apply List.filter_congr
  intro location member
  rw [Function.comp, sighting_recycled orderly member]

theorem recycled_eq (conforming : conforms .document document = true)
    (orderly : Orderly spell document) : (sightings spell document).filter Sighting.recycled =
      (deletedEntries spell document).map (Located.sighting spell (binTextOf spell document)) := by
  rw [sightings_eq conforming orderly, List.filter_map, deletedEntries]
  congr 1
  apply List.filter_congr
  intro location member
  exact sighting_recycled orderly member

end

/-! ## Recycled entries -/

/-- A document in order is read as its entries outside the recycle bin, with the names of their
groups, and the number of the others. -/
theorem recycle_bin_exact (decodeBase64 : List UInt8 → Option (List UInt8))
    (standard : ∀ bytes, decodeBase64 (encode (Rfc4648.base64 bytes)) = some bytes)
    (spelling : List UInt8 → List Piece)
    (spells : ∀ bytes, trim (written (spelling bytes)) = Rfc4648.base64 bytes)
    (pull : Text → List (Except String Event)) (keystream : Nat → UInt8) (position : Nat)
    (document : Forest (List UInt8)) (conforming : conforms .document document = true)
    (limits : WithinLimits spelling (encrypt keystream position document))
    (orderly : Orderly (spelled keystream spelling) (mark .document position position document))
    (room : (liveEntries (spelled keystream spelling)
      (mark .document position position document)).length ≤ kdbxMaxEntries)
    (xml : List UInt8)
    (renders : Renders pull spelling xml (encrypt keystream position document)) :
    ∃ parsed, parseKdbxXml decodeBase64 pull xml ⟨keystream, position⟩ = .ok parsed ∧
      parsed.entries = (liveEntries (spelled keystream spelling)
          (mark .document position position document)).map
        (Located.report (spelled keystream spelling) decodeBase64
          (unmask keystream Hidden.readAt (Hidden.cipher keystream))) ∧
      parsed.recycleBinEntries = (deletedEntries (spelled keystream spelling)
        (mark .document position position document)).length := by
  have marksConform : conforms .document (mark .document position position document) = true :=
    conforms_mark conforming
  have live := reported_eq marksConform orderly
  have fits : (markedEntries keystream spelling position document).length ≤ kdbxMaxEntries := by
    rw [markedEntries, live, List.length_map]
    exact room
  refine ⟨_, parseKdbxXml_written standard spells conforming limits fits renders, ?_, ?_⟩
  · rw [markedEntries, live, List.map_map]
    apply List.map_congr_left
    intro location _
    exact sighting_report _
  · rw [recycled_eq marksConform orderly, List.length_map]

/-! ## Runs -/

def elementOf (name : String) (inner rest : Forest (List UInt8)) : Forest (List UInt8) :=
  .element (plain name) inner rest

def textOf (name : String) (text : Text) (rest : Forest (List UInt8)) : Forest (List UInt8) :=
  .element (plain name) (.piece (.text text) .nil) rest

/-- The metadata that names a recycle bin. -/
def metadataOf (uuid : List UInt8) (rest : Forest (List UInt8)) : Forest (List UInt8) :=
  elementOf "Meta" (textOf "RecycleBinUUID" (Rfc4648.base64 uuid) .nil) rest

/-- The root with what is in its outermost group. -/
def rootOf (group rest : Forest (List UInt8)) : Forest (List UInt8) :=
  elementOf "Root" (elementOf "Group" group .nil) rest

def fileOf (inner : Forest (List UInt8)) : Forest (List UInt8) := elementOf "KeePassFile" inner .nil

def entryOf (rest : Forest (List UInt8)) : Forest (List UInt8) := elementOf "Entry" .nil rest

def fiftyFives : List UInt8 := List.replicate 16 0x55

/-- An entry of the outermost group, one with an earlier revision in a group of a name, and one in
a group of the recycle bin. -/
def recycledFile : Forest (List UInt8) :=
  fileOf (metadataOf fiftyFives (rootOf
    (entryOf (elementOf "Group"
      (textOf "Name" "Work".toList
        (elementOf "Entry" (elementOf "History" (entryOf .nil) .nil) .nil))
      (elementOf "Group"
        (textOf "UUID" (Rfc4648.base64 fiftyFives)
          (elementOf "Group" (textOf "Name" "Old".toList (entryOf .nil)) .nil)) .nil))) .nil))

theorem orderly_recycledFile :
    Orderly (spelled counting plainly) (mark .document 0 0 recycledFile) where
  oneFile := by unfold InOrder; decide +kernel
  metadataFirst := by
    intro inner member
    have only : Xml.Inside.forest inner ∈ [Xml.Inside.forest _] := member
    cases List.mem_singleton.mp only
    unfold InOrder
    decide +kernel
  namesFirst := by unfold GroupInOrder InOrder; decide +kernel
  binUuids := by decide +kernel
  uuids := by decide +kernel
  apart := by decide +kernel

theorem recycled_file_read :
    ∃ parsed, parseKdbxXml strictBase64 (knowing (encrypt counting 0 recycledFile)) []
        ⟨counting, 0⟩ = .ok parsed ∧
      parsed.entries.map KdbxEntry.groupPath = [[], ["Work".toList]] ∧
      parsed.recycleBinEntries = 1 := by
  obtain ⟨parsed, read, entries, deleted⟩ := recycle_bin_exact strictBase64 strictBase64_base64
    plainly plainly_spells _ counting 0 recycledFile (by decide +kernel) (by decide +kernel)
    orderly_recycledFile (by decide +kernel) [] (renders_knowing _)
  refine ⟨parsed, read, ?_, deleted.trans (by decide +kernel)⟩
  rw [entries]
  decide +kernel

/-- The UUID of the recycle bin as the metadata names it, zeros or not. -/
def namedBin (document : Forest (List UInt8)) : Option (List UInt8) :=
  ((recycleBinTexts plainly document).filterMap uuidBytes).getLast?

/-- The names of all groups around the entries that are in no group with the UUID of the recycle
bin, and the number of the other entries. -/
def inBytes (document : Forest (List UInt8)) : List (List Text) × Nat :=
  let deleted := (located [] document).partition (Located.deleted plainly (namedBin document))
  (deleted.2.map fun location => (location.groups.reverse.drop 1).map (groupName plainly),
    deleted.1.length)

def zeros : List UInt8 := List.replicate 16 0

/-- A UUID whose base64 differs from that of `fiftyFives` in the case of letters. -/
def otherCase : List UInt8 :=
  [0xBE, 0xFB, 0xEF, 0xBE, 0xFB, 0xEF, 0xBE, 0xFB, 0xEF, 0xBE, 0xFB, 0xEF, 0xBE, 0xFB, 0xEF, 0xBD]

/-- Groups inside each other. -/
def nested : Nat → Forest (List UInt8) → Forest (List UInt8)
  | 0, inner => inner
  | depth + 1, inner => elementOf "Group" (nested depth inner) .nil

/-- A group without a name, a recycle bin of zeros, metadata after the root, a UUID after an entry,
a name after an entry, UUIDs that differ in the case of their letters, and too many groups. -/
def unlikeBytes : List (Forest (List UInt8)) :=
  [fileOf (rootOf (elementOf "Group" (entryOf .nil) .nil) .nil),
    fileOf (metadataOf zeros
      (rootOf (textOf "UUID" (Rfc4648.base64 zeros) (entryOf .nil)) .nil)),
    fileOf (rootOf (textOf "UUID" (Rfc4648.base64 fiftyFives) (entryOf .nil))
      (metadataOf fiftyFives .nil)),
    fileOf (metadataOf fiftyFives
      (rootOf (entryOf (textOf "UUID" (Rfc4648.base64 fiftyFives) .nil)) .nil)),
    fileOf (rootOf (elementOf "Group" (entryOf (textOf "Name" "Work".toList .nil)) .nil) .nil),
    fileOf (metadataOf fiftyFives
      (rootOf (textOf "UUID" (Rfc4648.base64 otherCase) (entryOf .nil)) .nil)),
    fileOf (rootOf (nested 256 (entryOf .nil)) .nil)]

/-- Of these documents something else is reported. -/
theorem recycle_bin_inexact :
    unlikeBytes.all (fun document => conforms .document document &&
      (parseKdbxXml strictBase64 (knowing document) [] ⟨counting, 0⟩).toOption.map (fun parsed =>
        (parsed.entries.map KdbxEntry.groupPath, parsed.recycleBinEntries)) !=
          some (inBytes document)) = true := by
  decide +kernel

end Pangolin.Kdbx
