import Pangolin.Kdbx.ProtectedValues

/-!
# The recycle bin

Which entries of a document are in its recycle bin, said of the document as a whole.  The reader
decides it in one pass, from what it has seen of the metadata and the open groups; the two agree
when the elements that say it come before the entries.
-/

namespace Pangolin.Kdbx

open Store Utf8 Xml

variable {Body : Type}

/-! ## What the document says -/

/-- An entry that is no earlier revision, with the groups around it, innermost first. -/
structure Located (Body : Type) where
  entry : Forest Body
  groups : List (Forest Body)

/-- The entries in document order. -/
def located : List (Forest Body) → Forest Body → List (Located Body)
  | _, .nil => []
  | groups, .piece _ rest => located groups rest
  | groups, .empty tag rest =>
      (if tag.name = "Entry" then [⟨.nil, groups⟩] else []) ++ located groups rest
  | groups, .element tag inner rest =>
      (if tag.name = "Entry" then [⟨inner, groups⟩]
      else if tag.name = "Group" then located (inner :: groups) inner
      else located groups inner) ++ located groups rest
  | groups, .body _ _ rest => located groups rest

/-- The groups of a document with something in them. -/
def groupsIn : Forest Body → List (Forest Body)
  | .nil => []
  | .piece _ rest => groupsIn rest
  | .empty _ rest => groupsIn rest
  | .element tag inner rest =>
      (if tag.name = "Group" then [inner] else []) ++ groupsIn inner ++ groupsIn rest
  | .body _ _ rest => groupsIn rest

/-- The bytes of a UUID. -/
def uuidBytes (text : Text) : Option (List UInt8) := Rfc4648.base64Decode (trim text)

section

variable (spell : Body → List Piece)

def groupUuids (group : Forest Body) : List Text := (group.named "UUID").map (Inside.text spell)

def groupName (group : Forest Body) : Text :=
  ((group.last "Name").map (Inside.text spell)).getD []

/-- The texts that name the recycle bin in the metadata of a file. -/
def binTexts (file : Inside Body) : List Text :=
  ((file.named "Meta").flatMap (Inside.named "RecycleBinUUID")).map (Inside.text spell)

def recycleBinTexts (document : Forest Body) : List Text :=
  (document.named "KeePassFile").flatMap (binTexts spell)

/-- The UUID of the recycle bin.  Zeros stand for none. -/
def recycleBinOf (document : Forest Body) : Option (List UInt8) :=
  (((recycleBinTexts spell document).filterMap uuidBytes).filter
    fun bytes => !bytes.all (· = 0)).getLast?

/-- The names of the groups around an entry: without the outermost, and those without a name. -/
def Located.path (location : Located Body) : List Text :=
  ((location.groups.reverse.drop 1).map (groupName spell)).filter fun name => !name.isEmpty

/-- One of the groups around the entry has the UUID of the recycle bin. -/
def Located.deleted (bin : Option (List UInt8)) (location : Located Body) : Bool :=
  bin.any fun bytes => location.groups.any fun group =>
    (groupUuids spell group).any fun text => uuidBytes text = some bytes

end

/-! ## What the reader knows of a group -/

section

variable (spell : Body → List Piece)

/-- What a child says of its group. -/
def GroupFrame.learn (bin : Option Text) (frame : GroupFrame) (name : String) (text : Text) :
    GroupFrame :=
  if name = "UUID" then
    { frame with
      uuid := some (trim text)
      inRecycle := bin.any (eqIgnoreAsciiCase · (trim text)) || frame.inRecycle }
  else if name = "Name" then
    { frame with name := text }
  else
    frame

def learned (bin : Option Text) (frame : GroupFrame) (group : Forest Body) : GroupFrame :=
  group.children.foldl (fun frame child => frame.learn bin child.1 (child.2.text spell)) frame

/-- What is known of groups inside each other when each has said what it says. -/
def frames (bin : Option Text) : List (Forest Body) → List GroupFrame
  | [] => []
  | group :: outer =>
      learned spell bin ⟨[], none, (frames bin outer).head?.any GroupFrame.inRecycle⟩ group ::
        frames bin outer

/-- The entry as it is seen when its groups have said what they say. -/
def Located.sighting (bin : Option Text) (location : Located Body) : Sighting Body :=
  ⟨location.entry, frames spell bin location.groups⟩

end

section

variable {spell : Body → List Piece} {bin : Option Text} {frame : GroupFrame}
variable {document rest group : Forest Body} {name : String} {inside : Inside Body} {text : Text}

theorem learned_cons (leads : document.children = (name, inside) :: rest.children) :
    learned spell bin frame document =
      learned spell bin (frame.learn bin name (inside.text spell)) rest := by
  rw [learned, leads, List.foldl_cons]
  rfl

theorem learn_of_not_mem (silent : name ∉ ["UUID", "Name"]) :
    frame.learn bin name text = frame := by
  simp only [List.mem_cons, List.not_mem_nil, or_false, not_or] at silent
  simp only [GroupFrame.learn, silent.1, silent.2, if_false]

/-- Children that say nothing. -/
theorem learned_of_silent (silent : ∀ child ∈ document.children, child.1 ∉ ["UUID", "Name"]) :
    learned spell bin frame document = frame := by
  unfold learned
  generalize document.children = children at silent
  induction children with
  | nil => rfl
  | cons child children ih =>
      rw [List.foldl_cons, learn_of_not_mem (silent child List.mem_cons_self)]
      exact ih fun later member => silent later (List.mem_cons_of_mem _ member)

theorem learned_name : (learned spell bin frame document).name =
    ((document.last "Name").map (Inside.text spell)).getD frame.name := by
  rw [Forest.last, Forest.named, learned]
  generalize document.children = children
  induction children generalizing frame with
  | nil => rfl
  | cons child children ih =>
      rw [List.foldl_cons, ih]
      by_cases named : child.1 = "Name"
      · simp only [GroupFrame.learn, named, if_true, List.filter_cons, decide_true, List.map_cons,
          List.getLast?_cons, Option.map_some, Option.getD_some]
        cases (List.map Prod.snd (children.filter _)).getLast? <;> rfl
      · have kept : (frame.learn bin child.1 (child.2.text spell)).name = frame.name := by
          simp only [GroupFrame.learn, named, if_false]
          split <;> rfl
        rw [kept, List.filter_cons_of_neg (by simpa using named)]

theorem learned_inRecycle : (learned spell bin frame document).inRecycle =
    (((groupUuids spell document).any fun text => bin.any (eqIgnoreAsciiCase · (trim text))) ||
      frame.inRecycle) := by
  rw [groupUuids, Forest.named, learned]
  generalize document.children = children
  induction children generalizing frame with
  | nil => rfl
  | cons child children ih =>
      rw [List.foldl_cons, ih]
      by_cases named : child.1 = "UUID"
      · simp only [GroupFrame.learn, named, if_true, List.filter_cons, decide_true, List.map_cons,
          List.any_cons]
        rw [Bool.or_left_comm, Bool.or_assoc]
      · have kept : (frame.learn bin child.1 (child.2.text spell)).inRecycle = frame.inRecycle := by
          simp only [GroupFrame.learn, named, if_false]
          split <;> rfl
        rw [kept, List.filter_cons_of_neg (by simpa using named)]

/-- The path is that of the names. -/
theorem groupPath_frames (groups : List (Forest Body)) :
    groupPath (frames spell bin groups) =
      ((groups.reverse.drop 1).map (groupName spell)).filter fun name => !name.isEmpty := by
  have names : (frames spell bin groups).map GroupFrame.name = groups.map (groupName spell) := by
    induction groups with
    | nil => rfl
    | cons group outer ih => rw [frames, List.map_cons, ih, learned_name, List.map_cons, groupName]
  rw [groupPath, List.map_drop, List.map_reverse, names, ← List.map_reverse, ← List.map_drop]

/-- The innermost group is taken for a part of the recycle bin when one of the groups is taken for
the recycle bin. -/
theorem inRecycle_frames (groups : List (Forest Body)) :
    (frames spell bin groups).head?.any GroupFrame.inRecycle =
      groups.any fun group => (groupUuids spell group).any fun text =>
        bin.any (eqIgnoreAsciiCase · (trim text)) := by
  induction groups with
  | nil => rfl
  | cons group outer ih =>
      rw [frames, List.head?_cons, Option.any_some, learned_inRecycle, ih, List.any_cons]

end

/-! ## In order -/

/-- No child of an early kind stands after one of a late kind. -/
def InOrder (early late : List String) (document : Forest Body) : Prop :=
  (document.children.map Prod.fst).Pairwise fun first second => ¬ (first ∈ late ∧ second ∈ early)

/-- What the groups are called stands before what is in them. -/
abbrev GroupInOrder (group : Forest Body) : Prop :=
  InOrder ["UUID", "Name"] ["Group", "Entry"] group

section

variable {early late : List String} {document rest inner : Forest Body} {name : String}
variable {inside : Inside Body} {kind : Context} {groups : List (Forest Body)}

theorem inOrder_cons (leads : document.children = (name, inside) :: rest.children) :
    InOrder early late document ↔
      (name ∈ late → ∀ child ∈ rest.children, child.1 ∉ early) ∧ InOrder early late rest := by
  rw [InOrder, leads, List.map_cons, List.pairwise_cons, List.forall_mem_map, ← InOrder]
  apply and_congr_left
  intro _
  constructor
  · intro apart isLate child member isEarly
    exact apart child member ⟨isLate, isEarly⟩
  · rintro silent child member ⟨isLate, isEarly⟩
    exact silent isLate child member isEarly

/-- What may stand in a group. -/
theorem group_kind (stands : child .group name = some kind) :
    (name = "Group" ∧ kind = .group) ∨ (name = "Entry" ∧ kind = .entry) ∨
      (name ∈ ["UUID", "Name"] ∧ kind = .leaf) ∨
      (name ∉ ["UUID", "Name", "Group", "Entry"] ∧ (kind = .times ∨ kind = .other)) := by
  simp only [child] at stands
  split at stands
  · cases stands
    simp_all
  · split at stands
    · cases stands
      simp_all
    · split at stands
      · cases stands
        simp_all
      · split at stands
        · cases stands
          simp_all
        · obtain ⟨-, kind⟩ := ordinary_eq_some_iff.mp stands
          simp_all

/-- Only groups are taken for groups. -/
theorem group_name (stands : child .group name = some .group) : name = "Group" := by
  rcases group_kind stands with ⟨named, -⟩ | ⟨-, kind⟩ | ⟨-, kind⟩ | ⟨-, kind | kind⟩
  · exact named
  · cases kind
  · cases kind
  · cases kind
  · cases kind

/-- Contexts without groups and entries. -/
def Context.Bare (context : Context) : Prop :=
  context ∈ [Context.metadata, .times, .leaf, .other]

theorem child_bare {context : Context} (bare : context.Bare)
    (stands : child context name = some kind) :
    name ≠ "Entry" ∧ name ≠ "Group" ∧ kind.Bare := by
  have plain : ordinary name = some kind → name ≠ "Entry" ∧ name ≠ "Group" ∧ kind.Bare := by
    intro stands
    obtain ⟨free, rfl⟩ := ordinary_eq_some_iff.mp stands
    simp only [reserved, List.mem_cons, List.not_mem_nil, or_false, not_or] at free
    exact ⟨free.2.2.1, free.2.1, by simp [Context.Bare]⟩
  simp only [Context.Bare, List.mem_cons, List.not_mem_nil, or_false] at bare
  rcases bare with rfl | rfl | rfl | rfl
  · simp only [child] at stands
    split at stands
    · next named =>
        cases stands
        rw [named]
        exact ⟨by decide, by decide, by simp [Context.Bare]⟩
    · exact plain stands
  · simp only [child] at stands
    split at stands
    · next named =>
        cases stands
        rcases named with rfl | rfl | rfl <;> exact ⟨by decide, by decide, by simp [Context.Bare]⟩
    · exact plain stands
  · cases stands
  · exact plain stands

theorem located_bare {context : Context} (bare : context.Bare)
    (conforming : conforms context document = true) : located groups document = [] := by
  induction document generalizing context with
  | nil => rfl
  | piece part rest ih => exact ih bare conforming
  | empty tag rest ih =>
      obtain ⟨⟨kind, stands⟩, others⟩ := conforms_empty.mp conforming
      rw [located, if_neg (child_bare bare stands).1, ih bare others]
      rfl
  | element tag inner rest ihInner ihRest =>
      obtain ⟨-, others, kind, stands, within⟩ := conforms_element.mp conforming
      obtain ⟨noEntry, noGroup, deeper⟩ := child_bare bare stands
      rw [located, if_neg noEntry, if_neg noGroup, ihInner deeper within, ihRest bare others]
      rfl
  | body tag inside rest ih => exact ih bare (conforms_body.mp conforming).2.1

/-- What is located in an element. -/
def locatedIn (groups : List (Forest Body)) (name : String) (inner : Forest Body) :
    List (Located Body) :=
  if name = "Entry" then [⟨inner, groups⟩]
  else if name = "Group" then located (inner :: groups) inner
  else located groups inner

theorem located_element {tag : Tag} : located groups (.element tag inner rest) =
    locatedIn groups tag.name inner ++ located groups rest := rfl

theorem located_empty {tag : Tag} : located groups (.empty tag rest) =
    locatedIn groups tag.name .nil ++ located groups rest := by
  rw [located, locatedIn]
  split
  · rfl
  · split <;> rfl

end

end Pangolin.Kdbx
