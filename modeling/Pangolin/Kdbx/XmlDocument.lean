import Pangolin.Kdbx.XmlWalk

/-!
# KeePass documents

What may stand where in the XML of a KeePass file, and what it says: the strings, tags, times and
history of an entry.  Elements that mean nothing to the reader may stand almost anywhere.
-/

namespace Pangolin.Kdbx

open Store Utf8 Xml

/-! ## Where elements stand -/

/-- What an element is to the document. -/
inductive Context where
  | document
  | file
  | metadata
  | root
  | group
  | entry
  | history
  | string
  | times
  | leaf
  | other
  deriving Repr, DecidableEq

/-- The names that only stand where they mean something. -/
def reserved : List String := ["Meta", "Group", "Entry", "String", "Times"]

def ordinary (name : String) : Option Context := if name ∈ reserved then none else some .other

/-- What an element of a name is inside another one, when it may stand there. -/
def child : Context → String → Option Context
  | .document, name => if name = "KeePassFile" then some .file else none
  | .file, name =>
      if name = "Meta" then some .metadata
      else if name = "Root" then some .root
      else ordinary name
  | .metadata, name => if name = "RecycleBinUUID" then some .leaf else ordinary name
  | .root, name => if name = "Group" then some .group else ordinary name
  | .group, name =>
      if name = "Group" then some .group
      else if name = "Entry" then some .entry
      else if name = "UUID" ∨ name = "Name" then some .leaf
      else if name = "Times" then some .times
      else ordinary name
  | .entry, name =>
      if name = "String" then some .string
      else if name = "History" then some .history
      else if name = "Tags" then some .leaf
      else if name = "Times" then some .times
      else ordinary name
  | .history, name => if name = "Entry" then some .entry else ordinary name
  | .string, name => if name = "Key" ∨ name = "Value" then some .leaf else ordinary name
  | .times, name =>
      if name = "Expires" ∨ name = "ExpiryTime" ∨ name = "LastModificationTime" then some .leaf
      else ordinary name
  | .leaf, _ => none
  | .other, name => ordinary name

variable {Body : Type}

/-- A document keeps to the places of its elements, and masks only elements without others. -/
def conforms : Context → Forest Body → Bool
  | _, .nil => true
  | context, .piece _ rest => conforms context rest
  | context, .empty tag rest => (child context tag.name).isSome && conforms context rest
  | context, .element tag inner rest =>
      !isProtected tag && conforms context rest &&
        match child context tag.name with
        | none => false
        | some kind => conforms kind inner
  | context, .body tag _ rest =>
      isProtected tag && conforms context rest &&
        (child context tag.name = some .leaf || child context tag.name = some .other)

/-- The bodies that the reader unmasks: those of the values of strings. -/
def unmasked : Context → Forest Body → List Body
  | _, .nil => []
  | context, .piece _ rest => unmasked context rest
  | context, .empty _ rest => unmasked context rest
  | context, .element tag inner rest =>
      (match child context tag.name with
        | none => []
        | some kind => unmasked kind inner) ++ unmasked context rest
  | context, .body tag inside rest =>
      if context = .string ∧ tag.name = "Value" then inside :: unmasked context rest
      else unmasked context rest

/-! ## What an entry says -/

section

variable (decodeBase64 : List UInt8 → Option (List UInt8)) (spell : Body → List Piece)
variable (read : Body → List UInt8)

/-- The bytes of a value. -/
def valueBytes : Inside Body → List UInt8
  | .forest inner => encode inner.content
  | .body inside => read inside

/-- A string has a key, and the value is empty when there is none. -/
def stringOf : Inside Body → Option KdbxStringValue
  | .forest inner => (inner.last "Key").map fun key =>
      ⟨key.text spell, ((inner.last "Value").map (valueBytes read)).getD []⟩
  | .body _ => none

/-- The strings of an entry. -/
def stringsOf (entry : Forest Body) : List KdbxStringValue :=
  (entry.named "String").filterMap (stringOf spell read)

def tagsOf (entry : Forest Body) : List Text :=
  (entry.named "Tags").flatMap fun tags => splitTags (tags.text spell)

/-- The times that one element says, over what others said. -/
def timesIn (times : Forest Body) (before : KdbxTimes) : KdbxTimes where
  expires := ((times.last "Expires").map fun text =>
    eqIgnoreAsciiCase (trim (text.text spell)) "true".toList).getD before.expires
  expiryTimeRaw := ((times.last "ExpiryTime").map fun text => trim (text.text spell)).or
    before.expiryTimeRaw
  lastModRaw := ((times.last "LastModificationTime").map fun text => trim (text.text spell)).or
    before.lastModRaw

def timesOver (entry : Forest Body) (before : KdbxTimes) : KdbxTimes :=
  (entry.named "Times").foldl (fun times inside =>
    match inside with
    | .forest inner => timesIn spell inner times
    | .body _ => times) before

/-- An earlier revision. -/
def revisionOf : Inside Body → HistEntry
  | .forest inner =>
      ⟨((stringsOf spell read inner).find? fun string => string.key = "Password".toList).map (·.value),
        (timesOver spell inner ⟨false, none, none⟩).lastModRaw.bind (parseKdbxTime decodeBase64)⟩
  | .body _ => ⟨none, none⟩

/-- The earlier revisions of an entry. -/
def historyOf (entry : Forest Body) : List HistEntry :=
  (entry.named "History").flatMap fun history =>
    (history.named "Entry").map (revisionOf decodeBase64 spell read)

/-- What an entry adds to what is known of it. -/
def EntryBuild.add (built : EntryBuild) (entry : Forest Body) : EntryBuild where
  strings := built.strings ++ stringsOf spell read entry
  tags := built.tags ++ tagsOf spell entry
  times := timesOver spell entry built.times
  history := built.history ++ historyOf decodeBase64 spell read entry
  curKey := none
  curVal := none
  curProtected := false

end

/-! ## What the groups say -/

/-- An entry with the groups open at its end. -/
structure Sighting (Body : Type) where
  entry : Forest Body
  groups : List GroupFrame

/-- The innermost group is taken for the recycle bin or for a part of it. -/
def Sighting.recycled (sighting : Sighting Body) : Bool :=
  sighting.groups.head?.any GroupFrame.inRecycle

/-- What is known of the recycle bin and the open groups, and the entries seen. -/
structure Survey (Body : Type) where
  bin : Option Text
  groups : List GroupFrame
  seen : List (Sighting Body)

/-- The text of an element that says something about the groups. -/
def Survey.learn (survey : Survey Body) (context : Context) (name : String) (text : Text) :
    Survey Body :=
  if context = .metadata ∧ name = "RecycleBinUUID" then
    if !(trim text).isEmpty && !(trim text).all (fun c => c = 'A' || c = '=') then
      { survey with bin := some (trim text) }
    else
      survey
  else if context = .group ∧ name = "UUID" then
    { survey with groups := survey.groups.modifyHead fun group => { group with
      uuid := some (trim text)
      inRecycle := survey.bin.any (eqIgnoreAsciiCase · (trim text)) || group.inRecycle } }
  else if context = .group ∧ name = "Name" then
    { survey with groups := survey.groups.modifyHead fun group => { group with name := text } }
  else
    survey

/-- A group opens. -/
def Survey.enter (survey : Survey Body) : Survey Body :=
  { survey with
    groups := ⟨[], none, survey.groups.head?.any GroupFrame.inRecycle⟩ :: survey.groups }

/-- A group closes. -/
def Survey.leave (survey : Survey Body) : Survey Body :=
  { survey with groups := survey.groups.tail }

/-- An entry ends. -/
def Survey.see (survey : Survey Body) (entry : Forest Body) : Survey Body :=
  { survey with seen := survey.seen ++ [⟨entry, survey.groups⟩] }

/-- The entries of a document in document order, each with what is known of its groups when it
ends. -/
def survey (spell : Body → List Piece) : Context → Forest Body → Survey Body → Survey Body
  | _, .nil, known => known
  | context, .piece _ rest, known => survey spell context rest known
  | context, .empty tag rest, known =>
      survey spell context rest (match child context tag.name with
        | some .entry => known.see .nil
        | some .leaf => known.learn context tag.name []
        | _ => known)
  | context, .element tag inner rest, known =>
      survey spell context rest (match child context tag.name with
        | some .group => (survey spell .group inner known.enter).leave
        | some .entry => known.see inner
        | some .leaf => known.learn context tag.name inner.content
        | some .file => survey spell .file inner known
        | some .metadata => survey spell .metadata inner known
        | some .root => survey spell .root inner known
        | _ => known)
  | context, .body tag inside rest, known =>
      survey spell context rest (match child context tag.name with
        | some .leaf => known.learn context tag.name (written (spell inside))
        | _ => known)

/-- The entries of a document. -/
def sightings (spell : Body → List Piece) (document : Forest Body) : List (Sighting Body) :=
  (survey spell .document document ⟨none, [], []⟩).seen

/-- The entries that are reported. -/
def reported (spell : Body → List Piece) (document : Forest Body) : List (Sighting Body) :=
  (sightings spell document).filter fun sighting => !sighting.recycled

end Pangolin.Kdbx
