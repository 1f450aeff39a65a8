import Pangolin.Kdbx.XmlReading

/-!
# What the reader reports

The entries the reader reports of a conforming document, and those it counts as recycled, are the
entries of the document with what was known of their groups when they ended.
-/

namespace Pangolin.Kdbx

open Store Utf8 Xml

variable {Body : Type}

/-! ## Groups -/

section

variable {decodeBase64 : List UInt8 → Option (List UInt8)} {spell : Body → List Piece}
variable {context kind : Context} {known : Survey Body} {document inner rest : Forest Body}
variable {tag : Tag} {inside : Body}

@[simp] theorem learn_seen {name : String} {text : Text} :
    (known.learn context name text).seen = known.seen := by
  unfold Survey.learn
  split
  · split <;> rfl
  · split
    · rfl
    · split <;> rfl

@[simp] theorem learn_groups {name : String} {text : Text} :
    (known.learn context name text).groups.length = known.groups.length := by
  unfold Survey.learn
  split
  · split <;> rfl
  · split
    · simp
    · split
      · simp
      · rfl

/-- The entries seen before come first. -/
theorem seen_prefix : known.seen <+: (survey spell context document known).seen := by
  induction document generalizing context known with
  | nil => exact List.prefix_rfl
  | piece part rest ih => exact ih
  | empty tag rest ih =>
      refine List.IsPrefix.trans ?_ ih
      split
      · exact List.prefix_append _ _
      · exact learn_seen ▸ List.prefix_rfl
      · exact List.prefix_rfl
  | element tag inner rest ihInner ihRest =>
      refine List.IsPrefix.trans ?_ ihRest
      split
      · exact @ihInner .group known.enter
      · exact List.prefix_append _ _
      · exact learn_seen ▸ List.prefix_rfl
      · exact ihInner
      · exact ihInner
      · exact ihInner
      · exact List.prefix_rfl
  | body tag inside rest ih =>
      refine List.IsPrefix.trans ?_ ih
      split
      · exact learn_seen ▸ List.prefix_rfl
      · exact List.prefix_rfl

/-- As many groups are open as before. -/
theorem survey_groups :
    (survey spell context document known).groups.length = known.groups.length := by
  induction document generalizing context known with
  | nil => rfl
  | piece part rest ih => exact ih
  | empty tag rest ih =>
      refine ih.trans ?_
      split
      · rfl
      · exact learn_groups
      · rfl
  | element tag inner rest ihInner ihRest =>
      refine ihRest.trans ?_
      split
      · rw [Survey.leave, List.length_tail, ihInner]
        rfl
      · rfl
      · exact learn_groups
      · exact ihInner
      · exact ihInner
      · exact ihInner
      · rfl
  | body tag inside rest ih =>
      refine ih.trans ?_
      split
      · exact learn_groups
      · rfl

end

/-! ## What is collected -/

section

variable (decodeBase64 : List UInt8 → Option (List UInt8)) (spell : Body → List Piece)
variable (read : Body → List UInt8)

/-- An entry as it is reported. -/
def Sighting.report (sighting : Sighting Body) : KdbxEntry :=
  (EntryBuild.default.add decodeBase64 spell read sighting.entry).report decodeBase64
    sighting.groups

/-- The entries that are not recycled. -/
def Survey.live (known : Survey Body) : List (Sighting Body) :=
  known.seen.filter fun sighting => !sighting.recycled

/-- What the reader has when it knows this, between two entries. -/
def Survey.collected (known : Survey Body) (stream : InnerStream) : Collected where
  groups := known.groups
  recycleBinUuid := known.bin
  entryStack := []
  entries := known.live.map (Sighting.report decodeBase64 spell read)
  recycleSkipped := (known.seen.filter Sighting.recycled).length
  stream := stream

end

section

variable {decodeBase64 : List UInt8 → Option (List UInt8)} {spell : Body → List Piece}
variable {cipher : Body → List UInt8} {place : Body → Nat} {read : Body → List UInt8}
variable {context kind : Context} {known : Survey Body} {document inner rest : Forest Body}
variable {tag : Tag} {inside : Body} {name : String} {text : Text} {stream : InnerStream}
variable {parent : Option String}

theorem live_see (entry : Forest Body) :
    (known.see entry).live = known.live ++
      if (⟨entry, known.groups⟩ : Sighting Body).recycled then [] else [⟨entry, known.groups⟩] := by
  rw [Survey.live, Survey.see, List.filter_append, List.filter_singleton]
  cases (⟨entry, known.groups⟩ : Sighting Body).recycled <;> rfl

/-- The end of a leaf that says something about the groups. -/
theorem onEnd_learn (stands : child context name = some .leaf)
    (group : context = .metadata ∨ context = .group) (within : context.In parent) :
    onEnd decodeBase64 name text parent (known.collected decodeBase64 spell read stream) =
      .ok ((known.learn context name text).collected decodeBase64 spell read stream) := by
  rcases group with rfl | rfl
  · cases within
    simp only [child] at stands
    split at stands
    · next named =>
        subst named
        simp only [onEnd, and_self, if_true, endRecycleBinUuid, Survey.learn]
        split <;> rfl
    · cases (ordinary_eq_some_iff.mp stands).2
  · cases within
    have named : name = "UUID" ∨ name = "Name" := by
      by_contra plain
      rw [not_or] at plain
      simp only [child, plain.1, plain.2, or_self, if_false] at stands
      split at stands
      · cases stands
      · split at stands
        · cases stands
        · split at stands
          · cases stands
          · cases (ordinary_eq_some_iff.mp stands).2
    rcases named with rfl | rfl
    · simp [onEnd, endGroupUuid, Survey.learn, Survey.collected, Collected.onGroup, Survey.live]
    · simp [onEnd, Survey.learn, Survey.collected, Collected.onGroup, Survey.live]

/-- The end of an entry. -/
theorem onEnd_see {told : EntryBuild}
    (same : told.settled = EntryBuild.default.add decodeBase64 spell read inner)
    (room : (known.see inner).live.length ≤ kdbxMaxEntries) :
    onEnd decodeBase64 "Entry" text (some "Group")
        ((known.collected decodeBase64 spell read stream).left [told] stream) =
      .ok ((known.see inner).collected decodeBase64 spell read stream) := by
  have report : told.report decodeBase64 known.groups =
      (⟨inner, known.groups⟩ : Sighting Body).report decodeBase64 spell read := by
    change told.settled.report decodeBase64 known.groups = _
    rw [same]
    rfl
  have ends : onEnd decodeBase64 "Entry" text (some "Group")
      ((known.collected decodeBase64 spell read stream).left [told] stream) =
        endEntry decodeBase64 (some "Group")
          ((known.collected decodeBase64 spell read stream).left [told] stream) := by
    simp [onEnd]
  rw [ends, endEntry]
  dsimp only [left_entryStack]
  rw [if_neg (by decide)]
  cases recycled : (⟨inner, known.groups⟩ : Sighting Body).recycled with
  | true =>
      have inBin : known.groups.head?.any GroupFrame.inRecycle = true := recycled
      simp only [Collected.left, Survey.collected, inBin, if_true, live_see, recycled, if_true,
        List.append_nil]
      simp [Survey.see, recycled]
  | false =>
      have outside : known.groups.head?.any GroupFrame.inRecycle = false := recycled
      rw [live_see, recycled] at room
      have fits : ¬ kdbxMaxEntries ≤ (known.live.map (Sighting.report decodeBase64 spell read)).length := by
        simp at room ⊢
        omega
      simp only [Collected.left, Survey.collected, outside, fits, live_see, recycled, report,
        if_false, Bool.false_eq_true, List.map_append]
      simp [Survey.see, recycled]

/-- The contexts outside entries that hold more than texts. -/
def Context.Open (context : Context) : Prop :=
  context ∈ [Context.document, .file, .metadata, .root, .group]

/-- What stands in such a context. -/
theorem open_kind (outside : context.Open) (stands : child context name = some kind) :
    kind ∈ [Context.file, .metadata, .root] ∨ (name = "Group" ∧ kind = .group) ∨
      (name = "Entry" ∧ kind = .entry ∧ context = .group) ∨
      (kind = .leaf ∧ (context = .metadata ∨ context = .group)) ∨ kind = .times ∨ kind = .other := by
  have other : ordinary name = some kind → kind = .other := fun stands =>
    (ordinary_eq_some_iff.mp stands).2
  cases context <;> simp [Context.Open] at outside <;> simp only [child] at stands <;>
    repeat' split at stands
  all_goals first
    | exact .inr (.inr (.inr (.inr (.inr (other stands)))))
    | cases stands
  all_goals simp_all

/-- Walking over such a forest collects what a survey of it learns. -/
def Surveys (decodeBase64 : List UInt8 → Option (List UInt8)) (spell : Body → List Piece)
    (cipher : Body → List UInt8) (place : Body → Nat) (keystream : Nat → UInt8)
    (context : Context) (document : Forest Body) : Prop :=
  ∀ parent text known position, context.In parent →
    Placed cipher place position (unmasked context document) →
    (survey spell context document known).live.length ≤ kdbxMaxEntries →
    ∃ after, walk decodeBase64 spell parent document text
        (known.collected decodeBase64 spell (unmask keystream place cipher) ⟨keystream, position⟩) =
      .ok (after, (survey spell context document known).collected decodeBase64 spell
        (unmask keystream place cipher)
        ((⟨keystream, position⟩ : InnerStream).past cipher (unmasked context document)))

theorem live_le (more : known.live.length ≤ kdbxMaxEntries) {before : Survey Body}
    (earlier : before.seen <+: known.seen) : before.live.length ≤ kdbxMaxEntries :=
  Nat.le_trans (earlier.filter _).length_le more

variable {keystream : Nat → UInt8} {position : Nat} {masks : Bool}

/-- What an element does to what is known. -/
def Survey.after (spell : Body → List Piece) (context kind : Context) (name : String)
    (inner : Forest Body) (known : Survey Body) : Survey Body :=
  match kind with
  | .group => (survey spell .group inner known.enter).leave
  | .entry => known.see inner
  | .leaf => known.learn context name inner.content
  | .file => survey spell .file inner known
  | .metadata => survey spell .metadata inner known
  | .root => survey spell .root inner known
  | _ => known

theorem survey_element (stands : child context tag.name = some kind) :
    survey spell context (.element tag inner rest) known =
      survey spell context rest (known.after spell context kind tag.name inner) := by
  rw [survey, stands]
  cases kind <;> rfl

theorem survey_empty (stands : child context tag.name = some kind) :
    survey spell context (.empty tag rest) known =
      survey spell context rest (known.after spell context kind tag.name .nil) := by
  rw [survey, stands]
  cases kind <;> rfl

theorem onStart_group :
    onStart "Group" masks parent (known.collected decodeBase64 spell read stream) =
      known.enter.collected decodeBase64 spell read stream := rfl

theorem onEnd_group {group : GroupFrame} {groups : List GroupFrame}
    (open_ : known.groups = group :: groups) :
    onEnd decodeBase64 "Group" text parent (known.collected decodeBase64 spell read stream) =
      .ok (known.leave.collected decodeBase64 spell read stream) := by
  simp [onEnd, Survey.collected, Survey.leave, Survey.live, open_]

variable (masks) in
/-- An element outside entries, from its start to its end. -/
theorem open_element (legible : Legible decodeBase64 spell cipher) (outside : context.Open)
    (stands : child context name = some kind) (within : conforms kind inner = true)
    (above : context.In parent)
    (placed : Placed cipher place position (unmasked kind inner))
    (room : (known.after spell context kind name inner).live.length ≤ kdbxMaxEntries)
    (deeper : kind.Open → Surveys decodeBase64 spell cipher place keystream kind inner) :
    ∃ inText opened,
      walk decodeBase64 spell (some name) inner [] (onStart name masks parent
          (known.collected decodeBase64 spell (unmask keystream place cipher)
            ⟨keystream, position⟩)) = .ok (inText, opened) ∧
      onEnd decodeBase64 name inText parent opened =
        .ok ((known.after spell context kind name inner).collected decodeBase64 spell
          (unmask keystream place cipher)
          ((⟨keystream, position⟩ : InnerStream).past cipher (unmasked kind inner))) := by
  rcases open_kind outside stands with container | ⟨rfl, rfl⟩ | ⟨rfl, rfl, rfl⟩ | ⟨rfl, group⟩ |
    rfl | rfl
  · simp only [List.mem_cons, List.not_mem_nil, or_false] at container
    have free : Inert name parent := child_inert stands above (by
      rcases container with rfl | rfl | rfl <;> decide)
    have same : known.after spell context kind name inner = survey spell kind inner known := by
      rcases container with rfl | rfl | rfl <;> rfl
    have inside : kind.Open := by
      rcases container with rfl | rfl | rfl <;> simp [Context.Open]
    rw [same] at room ⊢
    obtain ⟨after, walked⟩ := deeper inside (some name) [] known position (child_in stands) placed
      room
    rw [onStart_inert free]
    exact ⟨after, _, walked, onEnd_inert free⟩
  · obtain ⟨after, walked⟩ := deeper (by simp [Context.Open]) (some "Group") [] known.enter position
      rfl placed room
    have many : (survey spell .group inner known.enter).groups.length = known.groups.length + 1 :=
      survey_groups
    obtain ⟨group, groups, open_⟩ := List.exists_cons_of_length_eq_add_one many
    rw [onStart_group]
    exact ⟨after, _, walked, onEnd_group open_⟩
  · cases above
    obtain ⟨after, told, walked, same⟩ := (tells legible inner).1 within []
      ((known.collected decodeBase64 spell (unmask keystream place cipher)
        ⟨keystream, position⟩).left [.default] ⟨keystream, position⟩) .default [] rfl placed
    rw [onStart_entry]
    exact ⟨after, _, walked, onEnd_see same room⟩
  · have apart : context ≠ .string := by
      rcases group with rfl | rfl <;> decide
    rw [onStart_leaf stands apart above, unmasked_quiet (by simp [Context.Quiet]), past_nil]
    exact ⟨inner.content, _, walk_leaf within, onEnd_learn stands group above⟩
  · have free : Inert name parent := child_inert stands above (by decide)
    obtain ⟨after, walked⟩ := walk_times decodeBase64 spell
      (known.collected decodeBase64 spell (unmask keystream place cipher) ⟨keystream, position⟩) []
      within
    have parentTimes : name = "Times" := by
      have below := child_in stands
      exact Option.some.inj below
    subst parentTimes
    rw [onStart_inert free, unmasked_quiet (by simp [Context.Quiet]), past_nil]
    exact ⟨after, _, walked, onEnd_inert free⟩
  · have free : Inert name parent := child_inert stands above (by decide)
    obtain ⟨after, walked⟩ := walk_other decodeBase64 spell
      (known.collected decodeBase64 spell (unmask keystream place cipher) ⟨keystream, position⟩) []
      within (child_in stands)
    rw [onStart_inert free, unmasked_quiet (by simp [Context.Quiet]), past_nil]
    exact ⟨after, _, walked, onEnd_inert free⟩

/-- A masked element outside entries. -/
theorem open_body (outside : context.Open) (above : context.In parent)
    (stands : child context name = some .leaf ∨ child context name = some .other) :
    onEnd decodeBase64 name text parent (onStart name masks parent
        (known.collected decodeBase64 spell read stream)) =
      .ok ((match child context name with
        | some .leaf => known.learn context name text
        | _ => known).collected decodeBase64 spell read stream) := by
  rcases stands with leaf | other
  · have group : context = .metadata ∨ context = .group := by
      rcases open_kind outside leaf with container | ⟨-, kind⟩ | ⟨-, kind, -⟩ | ⟨-, group⟩ | kind | kind
      · simp at container
      · cases kind
      · cases kind
      · exact group
      · cases kind
      · cases kind
    have apart : context ≠ .string := by
      rcases group with rfl | rfl <;> decide
    rw [onStart_leaf leaf apart above, onEnd_learn leaf group above, leaf]
  · have free : Inert name parent := child_inert other above (by decide)
    rw [onStart_inert free, onEnd_inert free, other]

/-- Walking over a conforming document collects what a survey of it learns. -/
theorem surveys (legible : Legible decodeBase64 spell cipher) (outside : context.Open)
    (conforming : conforms context document = true) :
    Surveys decodeBase64 spell cipher place keystream context document := by
  induction document generalizing context with
  | nil =>
      intro parent text known position _ _ _
      exact ⟨text, rfl⟩
  | piece part rest ih =>
      intro parent text known position above placed room
      exact ih outside conforming parent _ known position above placed room
  | empty tag rest ih =>
      intro parent text known position above placed room
      obtain ⟨⟨kind, stands⟩, others⟩ := conforms_empty.mp conforming
      rw [survey_empty stands] at room ⊢
      have blank : kind.Open → Surveys decodeBase64 spell cipher place keystream kind .nil := by
        intro _ parent text known position _ _ _
        exact ⟨text, rfl⟩
      obtain ⟨inText, opened, inWalked, ends⟩ := open_element (isProtected tag) legible
        outside stands rfl above
        (show Placed cipher place position (unmasked kind .nil) from trivial)
        (live_le room seen_prefix) blank
      cases inWalked
      rw [walk_empty ends]
      exact ih outside others parent text _ position above placed room
  | element tag inner rest ihInner ihRest =>
      intro parent text known position above placed room
      obtain ⟨-, others, kind, stands, within⟩ := conforms_element.mp conforming
      rw [survey_element stands] at room ⊢
      rw [unmasked_element stands] at placed ⊢
      obtain ⟨here, later⟩ := placed_append.mp placed
      obtain ⟨inText, opened, inWalked, ends⟩ := open_element _ legible outside stands within above
        here (live_le room seen_prefix) fun deeper => ihInner deeper within
      rw [walk_element inWalked ends, past_append]
      exact ihRest outside others parent [] _ _ above later room
  | body tag inside rest ih =>
      intro parent text known position above placed room
      obtain ⟨-, others, stands⟩ := conforms_body.mp conforming
      rw [walk_body (open_body outside above stands)]
      have apart : ¬ (context = .string ∧ tag.name = "Value") := by
        rintro ⟨rfl, -⟩
        simp [Context.Open] at outside
      rw [unmasked, if_neg apart] at placed ⊢
      exact ih outside others parent [] _ position above placed room

/-! ## The result -/

/-- The XML parser reports the document. -/
def Renders (pull : Text → List (Except String Event)) (spell : Body → List Piece)
    (xml : List UInt8) (document : Forest Body) : Prop :=
  ∃ text, decode? xml = some text ∧ pull text = (document.events spell).map .ok

theorem parseKdbxXml_of_walk {pull : Text → List (Except String Event)} {xml : List UInt8}
    {after : Text} {stream last : InnerStream} (renders : Renders pull spell xml document)
    (limits : WithinLimits spell document)
    (walked : walk decodeBase64 spell none document [] ⟨[], none, [], [], 0, stream⟩ =
      .ok (after, known.collected decodeBase64 spell read last)) :
    parseKdbxXml decodeBase64 pull xml stream =
      .ok ⟨known.live.map (Sighting.report decodeBase64 spell read),
        (known.seen.filter Sighting.recycled).length⟩ := by
  obtain ⟨text, decoded, pulled⟩ := renders
  have few : 0 + (document.events spell).length < maxEvents := by
    rw [Nat.zero_add]
    exact limits.events_lt
  have events := readAll_events decodeBase64 spell [] [] ⟨[], none, [], [], 0, stream⟩ [] document
    (by simpa using limits.depth_le) (limits.texts_le _ List.mem_cons_self)
    (fun inside member => limits.texts_le inside (List.mem_cons_of_mem _ member))
  rw [List.append_nil, List.head?_nil, walked] at events
  simp only [parseKdbxXml, decoded, pulled]
  rw [readEvents_eq few, events]
  rfl

/-- The reader reports the entries that are not in a group taken for the recycle bin, and counts
the others. -/
theorem parseKdbxXml_eq (legible : Legible decodeBase64 spell cipher)
    {pull : Text → List (Except String Event)} {xml : List UInt8}
    (renders : Renders pull spell xml document) (limits : WithinLimits spell document)
    (conforming : conforms .document document = true)
    (placed : Placed cipher place position (unmasked .document document))
    (room : (reported spell document).length ≤ kdbxMaxEntries) :
    parseKdbxXml decodeBase64 pull xml ⟨keystream, position⟩ =
      .ok ⟨(reported spell document).map
          (Sighting.report decodeBase64 spell (unmask keystream place cipher)),
        ((sightings spell document).filter Sighting.recycled).length⟩ := by
  have outside : Context.document.Open := by simp [Context.Open]
  obtain ⟨after, walked⟩ := surveys legible outside conforming none [] ⟨none, [], []⟩ position rfl placed room
  exact parseKdbxXml_of_walk renders limits walked

end

end Pangolin.Kdbx
