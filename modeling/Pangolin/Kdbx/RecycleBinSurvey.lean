import Pangolin.Kdbx.RecycleBin

/-!
# The survey of a document in order

When the metadata stands before the root, and the names of each group before what is in it, the
survey sees every entry with all that the metadata and the groups around the entry say.
-/

namespace Pangolin.Kdbx

open Store Utf8 Xml

variable {Body : Type}

/-! ## The survey of the groups -/

section

variable {spell : Body → List Piece} {known : Survey Body} {current : GroupFrame}
variable {document rest inner group : Forest Body} {outer : List (Forest Body)} {tag : Tag}
variable {name : String} {text : Text} {kind : Context}

theorem learn_group (open_ : known.groups = current :: frames spell known.bin outer) :
    known.learn .group name text =
      ⟨known.bin, current.learn known.bin name text :: frames spell known.bin outer,
        known.seen⟩ := by
  cases known with
  | mk bin groups seen =>
      dsimp only at open_
      subst open_
      simp only [Survey.learn, GroupFrame.learn, reduceCtorEq, false_and, true_and, if_false]
      split
      · rfl
      · split <;> rfl

/-- What is learned of an element in a group, when what is in it is known. -/
theorem group_after (stands : child .group name = some kind) (within : conforms kind inner = true)
    (open_ : known.groups = current :: frames spell known.bin outer)
    (settled : name ∈ ["Group", "Entry"] →
      current :: frames spell known.bin outer = frames spell known.bin (group :: outer))
    (deeper : kind = .group → survey spell .group inner known.enter =
      ⟨known.bin, frames spell known.bin (inner :: group :: outer), known.seen ++
        (located (inner :: group :: outer) inner).map (Located.sighting spell known.bin)⟩) :
    known.after spell .group kind name inner =
      ⟨known.bin, current.learn known.bin name inner.content :: frames spell known.bin outer,
        known.seen ++ (locatedIn (group :: outer) name inner).map
          (Located.sighting spell known.bin)⟩ := by
  rcases group_kind stands with ⟨rfl, rfl⟩ | ⟨rfl, rfl⟩ | ⟨named, rfl⟩ | ⟨free, bare⟩
  · rw [Survey.after, deeper rfl, learn_of_not_mem (by decide), settled (by decide)]
    rfl
  · rw [Survey.after, Survey.see, learn_of_not_mem (by decide), open_, settled (by decide)]
    rfl
  · have apart : name ≠ "Entry" ∧ name ≠ "Group" := by
      simp only [List.mem_cons, List.not_mem_nil, or_false] at named
      rcases named with rfl | rfl <;> decide
    rw [Survey.after, learn_group open_, locatedIn, if_neg apart.1, if_neg apart.2,
      located_bare (by simp [Context.Bare]) within, List.map_nil, List.append_nil]
  · simp only [List.mem_cons, List.not_mem_nil, or_false, not_or] at free
    have same : known.after spell .group kind name inner = known := by
      rcases bare with rfl | rfl <;> rfl
    have nothing : located (group :: outer) inner = [] := by
      rcases bare with rfl | rfl <;> exact located_bare (by simp [Context.Bare]) within
    rw [same, learn_of_not_mem (by simp [free]), locatedIn, if_neg free.2.2.2, if_neg free.2.2.1,
      nothing, List.map_nil, List.append_nil, ← open_]

/-- Before what is in a group comes all that the group says. -/
theorem settled_of_first (late : name ∈ ["Group", "Entry"])
    (first : name ∈ ["Group", "Entry"] → ∀ child ∈ rest.children, child.1 ∉ ["UUID", "Name"])
    (final : learned spell known.bin (current.learn known.bin name text) rest ::
      frames spell known.bin outer = frames spell known.bin (group :: outer)) :
    current :: frames spell known.bin outer = frames spell known.bin (group :: outer) := by
  rw [← final, learned_of_silent (first late), learn_of_not_mem]
  simp only [List.mem_cons, List.not_mem_nil, or_false] at late
  rcases late with rfl | rfl <;> decide

theorem enter_eq (open_ : known.groups = frames spell known.bin (group :: outer)) :
    known.enter = ⟨known.bin, ⟨[], none, (frames spell known.bin (group :: outer)).head?.any
      GroupFrame.inRecycle⟩ :: frames spell known.bin (group :: outer), known.seen⟩ := by
  rw [Survey.enter, open_]

/-- A group whose names stand before what is in it: the survey sees its entries with all that the
groups around them say. -/
theorem survey_group (conforming : conforms .group document = true)
    (ordered : GroupInOrder document) (orderedIn : ∀ group ∈ groupsIn document, GroupInOrder group)
    (open_ : known.groups = current :: frames spell known.bin outer)
    (final : learned spell known.bin current document :: frames spell known.bin outer =
      frames spell known.bin (group :: outer)) :
    survey spell .group document known =
      ⟨known.bin, frames spell known.bin (group :: outer), known.seen ++
        (located (group :: outer) document).map (Located.sighting spell known.bin)⟩ := by
  induction document generalizing known current group outer with
  | nil =>
      rw [survey, ← final, located, List.map_nil, List.append_nil]
      exact open_ ▸ rfl
  | piece part rest ih => exact ih conforming ordered orderedIn open_ final
  | empty tag rest ih =>
      obtain ⟨⟨kind, stands⟩, others⟩ := conforms_empty.mp conforming
      obtain ⟨first, later⟩ := (inOrder_cons Forest.children_empty).mp ordered
      rw [learned_cons Forest.children_empty] at final
      have settled := fun late => open_.trans (settled_of_first late first final)
      have deeper : kind = .group → survey spell .group .nil known.enter =
          ⟨known.bin, frames spell known.bin (.nil :: group :: outer), known.seen ++
            (located (.nil :: group :: outer) .nil).map (Located.sighting spell known.bin)⟩ := by
        rintro rfl
        rw [survey, enter_eq (settled (by rw [group_name stands]; decide)), located, List.map_nil,
          List.append_nil]
        rfl
      rw [survey_empty stands, group_after stands rfl open_
        (fun late => settled_of_first late first final) deeper]
      refine Eq.trans (ih others later orderedIn ?_ final) ?_
      · rfl
      · rw [located_empty, List.map_append, List.append_assoc]
  | element tag inner rest ihInner ihRest =>
      obtain ⟨-, others, kind, stands, within⟩ := conforms_element.mp conforming
      obtain ⟨first, later⟩ := (inOrder_cons Forest.children_element).mp ordered
      rw [learned_cons Forest.children_element] at final
      rw [groupsIn, List.forall_mem_append, List.forall_mem_append] at orderedIn
      obtain ⟨⟨here, inside⟩, behind⟩ := orderedIn
      have settled := fun late => open_.trans (settled_of_first late first final)
      have deeper : kind = .group → survey spell .group inner known.enter =
          ⟨known.bin, frames spell known.bin (inner :: group :: outer), known.seen ++
            (located (inner :: group :: outer) inner).map
              (Located.sighting spell known.bin)⟩ := by
        rintro rfl
        have named : tag.name ∈ ["Group", "Entry"] := by rw [group_name stands]; decide
        rw [enter_eq (settled named)]
        rw [group_name stands, if_pos rfl] at here
        exact ihInner within (here inner List.mem_cons_self) inside rfl rfl
      rw [survey_element stands, group_after stands within open_
        (fun late => settled_of_first late first final) deeper]
      refine Eq.trans (ihRest others later behind ?_ final) ?_
      · rfl
      · rw [located_element, List.map_append, List.append_assoc]
  | body tag inside rest ih =>
      obtain ⟨-, others, stands⟩ := conforms_body.mp conforming
      obtain ⟨-, later⟩ := (inOrder_cons Forest.children_body).mp ordered
      rw [learned_cons Forest.children_body] at final
      rcases stands with leaf | other
      · rw [survey, leaf, located]
        dsimp only
        rw [learn_group open_]
        exact ih others later orderedIn rfl final
      · have free : tag.name ∉ ["UUID", "Name"] := by
          rcases group_kind other with ⟨-, kind⟩ | ⟨-, kind⟩ | ⟨-, kind⟩ | ⟨free, -⟩
          · cases kind
          · cases kind
          · cases kind
          · simp only [List.mem_cons, List.not_mem_nil, or_false, not_or] at free ⊢
            exact ⟨free.1, free.2.1⟩
        rw [learn_of_not_mem free] at final
        rw [survey, other, located]
        exact ih others later orderedIn open_ final

theorem child_root (stands : child .root name = some kind) :
    (name = "Group" ∧ kind = .group) ∨ (name ≠ "Entry" ∧ name ≠ "Group" ∧ kind = .other) := by
  simp only [child] at stands
  split at stands
  · next named =>
      cases stands
      exact .inl ⟨named, rfl⟩
  · obtain ⟨free, rfl⟩ := ordinary_eq_some_iff.mp stands
    simp only [reserved, List.mem_cons, List.not_mem_nil, or_false, not_or] at free
    exact .inr ⟨free.2.2.1, free.2.1, rfl⟩

/-- What is learned of an element of the root. -/
theorem root_after (stands : child .root name = some kind) (within : conforms kind inner = true)
    (ordered : name = "Group" → GroupInOrder inner)
    (orderedIn : ∀ group ∈ groupsIn inner, GroupInOrder group) (closed : known.groups = []) :
    known.after spell .root kind name inner =
      ⟨known.bin, [], known.seen ++ (locatedIn [] name inner).map
        (Located.sighting spell known.bin)⟩ := by
  rcases child_root stands with ⟨rfl, rfl⟩ | ⟨noEntry, noGroup, rfl⟩
  · have entered : known.enter.groups = ⟨[], none, false⟩ :: frames spell known.enter.bin [] := by
      rw [Survey.enter, closed]
      rfl
    rw [Survey.after, survey_group within (ordered rfl) orderedIn entered rfl]
    rfl
  · rw [Survey.after, locatedIn, if_neg noEntry, if_neg noGroup,
      located_bare (by simp [Context.Bare]) within, List.map_nil, List.append_nil]
    · exact closed ▸ rfl
    all_goals
      intro same
      cases same

theorem survey_root (conforming : conforms .root document = true)
    (orderedIn : ∀ group ∈ groupsIn document, GroupInOrder group) (closed : known.groups = []) :
    survey spell .root document known =
      ⟨known.bin, [], known.seen ++ (located [] document).map
        (Located.sighting spell known.bin)⟩ := by
  induction document generalizing known with
  | nil =>
      rw [survey, located, List.map_nil, List.append_nil]
      exact closed ▸ rfl
  | piece part rest ih => exact ih conforming orderedIn closed
  | empty tag rest ih =>
      obtain ⟨⟨kind, stands⟩, others⟩ := conforms_empty.mp conforming
      have blank : conforms kind (.nil : Forest Body) = true := rfl
      rw [survey_empty stands, root_after stands blank (fun _ => List.Pairwise.nil)
        (fun _ member => absurd member List.not_mem_nil) closed]
      refine Eq.trans (ih others orderedIn ?_) ?_
      · rfl
      · rw [located_empty, List.map_append, List.append_assoc]
  | element tag inner rest ihInner ihRest =>
      obtain ⟨-, others, kind, stands, within⟩ := conforms_element.mp conforming
      rw [groupsIn, List.forall_mem_append, List.forall_mem_append] at orderedIn
      obtain ⟨⟨here, inside⟩, behind⟩ := orderedIn
      have ordered : tag.name = "Group" → GroupInOrder inner := by
        intro named
        rw [if_pos named] at here
        exact here inner List.mem_cons_self
      rw [survey_element stands, root_after stands within ordered inside closed]
      refine Eq.trans (ihRest others behind ?_) ?_
      · rfl
      · rw [located_element, List.map_append, List.append_assoc]
  | body tag inside rest ih =>
      obtain ⟨-, others, stands⟩ := conforms_body.mp conforming
      have other : child .root tag.name = some .other := by
        rcases stands with leaf | other
        · rcases child_root leaf with ⟨-, kind⟩ | ⟨-, -, kind⟩ <;> cases kind
        · exact other
      rw [survey, other, located]
      exact ih others orderedIn closed

end

/-! ## The survey of a document -/

/-- The recycle bin after another text that names it. -/
def noted (bin : Option Text) (text : Text) : Option Text :=
  if !(trim text).isEmpty && !(trim text).all (fun c => c = 'A' || c = '=') then some (trim text)
  else bin

section

variable {spell : Body → List Piece} {known : Survey Body} {bin : Option Text}
variable {document rest inner : Forest Body} {tag : Tag} {name : String} {text : Text}
variable {inside : Inside Body} {kind : Context}

theorem learn_metadata : known.learn .metadata "RecycleBinUUID" text =
    { known with bin := noted known.bin text } := by
  simp only [Survey.learn, noted, and_self, if_true]
  split <;> rfl

theorem child_metadata (stands : child .metadata name = some kind) :
    (name = "RecycleBinUUID" ∧ kind = .leaf) ∨ (name ≠ "RecycleBinUUID" ∧ kind = .other) := by
  simp only [child] at stands
  split at stands
  · next named =>
      cases stands
      exact .inl ⟨named, rfl⟩
  · next apart => exact .inr ⟨apart, (ordinary_eq_some_iff.mp stands).2⟩

theorem survey_metadata (conforming : conforms .metadata document = true) :
    survey spell .metadata document known = { known with
      bin := ((document.named "RecycleBinUUID").map (Inside.text spell)).foldl noted known.bin } := by
  induction document generalizing known with
  | nil => rfl
  | piece part rest ih => exact ih conforming
  | empty tag rest ih =>
      obtain ⟨⟨kind, stands⟩, others⟩ := conforms_empty.mp conforming
      rw [survey_empty stands, Forest.named_cons Forest.children_empty, ih others]
      rcases child_metadata stands with ⟨named, rfl⟩ | ⟨apart, rfl⟩
      · rw [named, Survey.after, learn_metadata, if_pos rfl]
        rfl
      · rw [if_neg apart]
        rfl
  | element tag inner rest _ ih =>
      obtain ⟨-, others, kind, stands, within⟩ := conforms_element.mp conforming
      rw [survey_element stands, Forest.named_cons Forest.children_element, ih others]
      rcases child_metadata stands with ⟨named, rfl⟩ | ⟨apart, rfl⟩
      · rw [named, Survey.after, learn_metadata, if_pos rfl]
        rfl
      · rw [if_neg apart]
        rfl
  | body tag inside rest ih =>
      obtain ⟨-, others, stands⟩ := conforms_body.mp conforming
      rw [survey, Forest.named_cons Forest.children_body, ih others]
      rcases stands with stands | stands
      · rcases child_metadata stands with ⟨named, -⟩ | ⟨-, kind⟩
        · rw [stands, named, if_pos rfl]
          dsimp only
          rw [learn_metadata]
          rfl
        · cases kind
      · rcases child_metadata stands with ⟨-, kind⟩ | ⟨apart, -⟩
        · cases kind
        · rw [stands, if_neg apart]
          rfl

theorem child_file (stands : child .file name = some kind) :
    name ≠ "Entry" ∧ name ≠ "Group" ∧
      ((name = "Meta" ∧ kind = .metadata) ∨ (name = "Root" ∧ kind = .root) ∨
        (name ≠ "Meta" ∧ kind = .other)) := by
  simp only [child] at stands
  split at stands
  · next named =>
      cases stands
      rw [named]
      exact ⟨by decide, by decide, .inl ⟨rfl, rfl⟩⟩
  · next apart =>
      split at stands
      · next named =>
          cases stands
          rw [named]
          exact ⟨by decide, by decide, .inr (.inl ⟨rfl, rfl⟩)⟩
      · obtain ⟨free, rfl⟩ := ordinary_eq_some_iff.mp stands
        simp only [reserved, List.mem_cons, List.not_mem_nil, or_false, not_or] at free
        exact ⟨free.2.2.1, free.2.1, .inr (.inr ⟨apart, rfl⟩)⟩

/-- The texts that an element of a file gives for the recycle bin. -/
def binTextsIn (spell : Body → List Piece) (name : String) (inside : Inside Body) : List Text :=
  if name = "Meta" then (inside.named "RecycleBinUUID").map (Inside.text spell) else []

theorem binTexts_cons (leads : document.children = (name, inside) :: rest.children) :
    binTexts spell (.forest document) =
      binTextsIn spell name inside ++ binTexts spell (.forest rest) := by
  rw [binTexts, binTexts, Inside.named, Inside.named, Forest.named_cons leads, List.flatMap_append,
    List.map_append, binTextsIn]
  split
  · rw [List.flatMap_singleton]
  · rfl

theorem named_of_silent (silent : ∀ child ∈ document.children, child.1 ∉ [name]) :
    document.named name = [] := by
  rw [Forest.named, List.map_eq_nil_iff, List.filter_eq_nil_iff]
  intro child member named
  apply silent child member
  rw [of_decide_eq_true named]
  exact List.mem_singleton_self name

/-- Without metadata nothing is said of the recycle bin. -/
theorem binTexts_of_silent (silent : ∀ child ∈ document.children, child.1 ∉ ["Meta"]) :
    binTexts spell (.forest document) = [] := by
  have none : document.named "Meta" = [] := named_of_silent silent
  rw [binTexts, Inside.named, none]
  rfl

/-- What is learned of an element of a file. -/
theorem file_after (stands : child .file name = some kind) (within : conforms kind inner = true)
    (orderedIn : ∀ group ∈ groupsIn inner, GroupInOrder group) (closed : known.groups = [])
    (settled : name = "Root" → known.bin = bin) :
    known.after spell .file kind name inner =
      ⟨(binTextsIn spell name (.forest inner)).foldl noted known.bin, [],
        known.seen ++ (locatedIn [] name inner).map (Located.sighting spell bin)⟩ := by
  obtain ⟨noEntry, noGroup, ⟨rfl, rfl⟩ | ⟨rfl, rfl⟩ | ⟨noMeta, rfl⟩⟩ := child_file stands
  · rw [Survey.after, survey_metadata within, locatedIn, if_neg noEntry, if_neg noGroup,
      located_bare (by simp [Context.Bare]) within, List.map_nil, List.append_nil, closed]
    rfl
  · rw [Survey.after, survey_root within orderedIn closed, settled rfl, locatedIn, if_neg noEntry,
      if_neg noGroup]
    rfl
  · rw [binTextsIn, if_neg noMeta, locatedIn, if_neg noEntry, if_neg noGroup,
      located_bare (by simp [Context.Bare]) within, List.map_nil, List.append_nil]
    exact closed ▸ rfl

/-- A file whose metadata stands before its root: the survey sees its entries with all that the
metadata and their groups say. -/
theorem survey_file (conforming : conforms .file document = true)
    (ordered : InOrder ["Meta"] ["Root"] document)
    (orderedIn : ∀ group ∈ groupsIn document, GroupInOrder group) (closed : known.groups = [])
    (final : (binTexts spell (.forest document)).foldl noted known.bin = bin) :
    survey spell .file document known =
      ⟨bin, [], known.seen ++ (located [] document).map (Located.sighting spell bin)⟩ := by
  have step : ∀ {name : String} {inside : Inside Body} {rest : Forest Body} {before : Option Text},
      (name ∈ ["Root"] → ∀ child ∈ rest.children, child.1 ∉ ["Meta"]) →
      (binTextsIn spell name inside ++ binTexts spell (.forest rest)).foldl noted before = bin →
      name = "Root" → before = bin := by
    rintro name inside rest before first final rfl
    rw [binTexts_of_silent (first (by decide)), binTextsIn, if_neg (by decide)] at final
    exact final
  induction document generalizing known with
  | nil =>
      rw [survey, located, List.map_nil, List.append_nil]
      cases final
      exact closed ▸ rfl
  | piece part rest ih => exact ih conforming ordered orderedIn closed final
  | empty tag rest ih =>
      obtain ⟨⟨kind, stands⟩, others⟩ := conforms_empty.mp conforming
      obtain ⟨first, later⟩ := (inOrder_cons Forest.children_empty).mp ordered
      have blank : conforms kind (.nil : Forest Body) = true := rfl
      rw [binTexts_cons Forest.children_empty] at final
      rw [survey_empty stands, file_after stands blank
        (fun _ member => absurd member List.not_mem_nil) closed (step first final)]
      rw [List.foldl_append] at final
      refine Eq.trans (ih others later orderedIn ?_ final) ?_
      · rfl
      · rw [located_empty, List.map_append, List.append_assoc]
  | element tag inner rest ihInner ihRest =>
      obtain ⟨-, others, kind, stands, within⟩ := conforms_element.mp conforming
      obtain ⟨first, later⟩ := (inOrder_cons Forest.children_element).mp ordered
      rw [groupsIn, List.forall_mem_append, List.forall_mem_append] at orderedIn
      rw [binTexts_cons Forest.children_element] at final
      rw [survey_element stands, file_after stands within orderedIn.1.2 closed (step first final)]
      rw [List.foldl_append] at final
      refine Eq.trans (ihRest others later orderedIn.2 ?_ final) ?_
      · rfl
      · rw [located_element, List.map_append, List.append_assoc]
  | body tag inside rest ih =>
      obtain ⟨-, others, stands⟩ := conforms_body.mp conforming
      obtain ⟨-, later⟩ := (inOrder_cons Forest.children_body).mp ordered
      have plain : tag.name ≠ "Meta" ∧ child .file tag.name = some .other := by
        rcases stands with leaf | other
        · obtain ⟨-, -, ⟨-, kind⟩ | ⟨-, kind⟩ | ⟨-, kind⟩⟩ := child_file leaf <;> cases kind
        · obtain ⟨-, -, ⟨-, kind⟩ | ⟨-, kind⟩ | ⟨noMeta, -⟩⟩ := child_file other
          · cases kind
          · cases kind
          · exact ⟨noMeta, other⟩
      rw [binTexts_cons Forest.children_body, binTextsIn, if_neg plain.1, List.nil_append] at final
      rw [survey, plain.2, located]
      exact ih others later orderedIn closed final

theorem child_document (stands : child .document name = some kind) :
    name = "KeePassFile" ∧ kind = .file := by
  simp only [child] at stands
  split at stands
  · next named =>
      cases stands
      exact ⟨named, rfl⟩
  · cases stands

theorem recycleBinTexts_cons (leads : document.children = ("KeePassFile", inside) :: rest.children) :
    recycleBinTexts spell document = binTexts spell inside ++ recycleBinTexts spell rest := by
  rw [recycleBinTexts, Forest.named_cons leads, if_pos rfl, List.singleton_append,
    List.flatMap_cons]
  rfl

variable (spell) in
/-- Without a file nothing is said of the recycle bin. -/
theorem recycleBinTexts_of_silent
    (silent : ∀ child ∈ document.children, child.1 ∉ ["KeePassFile"]) :
    recycleBinTexts spell document = [] := by
  have none : document.named "KeePassFile" = [] := named_of_silent silent
  rw [recycleBinTexts, none]
  rfl

/-- A document of one file: the survey sees its entries with all that the metadata and their groups
say. -/
theorem survey_document (conforming : conforms .document document = true)
    (ordered : InOrder ["KeePassFile"] ["KeePassFile"] document)
    (metadataFirst : ∀ inner, .forest inner ∈ document.named "KeePassFile" →
      InOrder ["Meta"] ["Root"] inner)
    (orderedIn : ∀ group ∈ groupsIn document, GroupInOrder group) (closed : known.groups = [])
    (final : (recycleBinTexts spell document).foldl noted known.bin = bin) :
    survey spell .document document known =
      ⟨bin, [], known.seen ++ (located [] document).map (Located.sighting spell bin)⟩ := by
  induction document generalizing known with
  | nil =>
      rw [survey, located, List.map_nil, List.append_nil]
      cases final
      exact closed ▸ rfl
  | piece part rest ih => exact ih conforming ordered metadataFirst orderedIn closed final
  | empty tag rest ih =>
      obtain ⟨⟨kind, stands⟩, others⟩ := conforms_empty.mp conforming
      obtain ⟨named, rfl⟩ := child_document stands
      have leads : (Forest.empty tag rest).children = ("KeePassFile", .forest .nil) :: rest.children :=
        named ▸ Forest.children_empty
      obtain ⟨first, later⟩ := (inOrder_cons leads).mp ordered
      have silent := recycleBinTexts_of_silent spell (first (by decide))
      rw [recycleBinTexts_cons leads, silent, List.append_nil] at final
      rw [Forest.named_cons leads, if_pos rfl] at metadataFirst
      rw [survey_empty stands, Survey.after, survey, located_empty, locatedIn, named,
        if_neg (by decide), if_neg (by decide), located, List.nil_append]
      apply ih others later _ orderedIn closed
      · rw [silent]
        exact final
      · intro inner member
        exact metadataFirst inner (List.mem_append_right _ member)
  | element tag inner rest ihInner ihRest =>
      obtain ⟨-, others, kind, stands, within⟩ := conforms_element.mp conforming
      obtain ⟨named, rfl⟩ := child_document stands
      have leads : (Forest.element tag inner rest).children =
          ("KeePassFile", .forest inner) :: rest.children :=
        named ▸ Forest.children_element
      obtain ⟨first, later⟩ := (inOrder_cons leads).mp ordered
      have silent := recycleBinTexts_of_silent spell (first (by decide))
      rw [recycleBinTexts_cons leads, silent, List.append_nil] at final
      rw [Forest.named_cons leads, if_pos rfl] at metadataFirst
      rw [groupsIn, List.forall_mem_append, List.forall_mem_append] at orderedIn
      rw [survey_element stands, Survey.after, survey_file within
        (metadataFirst inner List.mem_cons_self) orderedIn.1.2 closed final]
      refine Eq.trans (ihRest others later (fun inner member => metadataFirst inner
        (List.mem_append_right _ member)) orderedIn.2 ?_ ?_) ?_
      · rfl
      · rw [silent]
        rfl
      · rw [located_element, locatedIn, named, if_neg (by decide), if_neg (by decide)]
        rw [List.map_append, List.append_assoc]
  | body tag inside rest ih =>
      obtain ⟨-, others, stands⟩ := conforms_body.mp conforming
      rcases stands with stands | stands
      · cases (child_document stands).2
      · cases (child_document stands).2

end

end Pangolin.Kdbx
