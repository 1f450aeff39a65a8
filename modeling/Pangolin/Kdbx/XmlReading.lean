import Pangolin.Kdbx.XmlDocument

/-!
# What the reader finds in a document

Walking over a conforming document the reader finds what the document says, and is with the inner
stream where the values it has unmasked end.
-/

namespace Pangolin.Kdbx

open Store Utf8 Xml

variable {Body : Type}

/-! ## Elements that mean nothing -/

/-- The elements whose ends the reader looks at, with those they stand in. -/
def handled : List (String × String) :=
  [("RecycleBinUUID", "Meta"), ("UUID", "Group"), ("Name", "Group"), ("Key", "String"),
    ("Value", "String"), ("String", "Entry"), ("Tags", "Entry"), ("Expires", "Times"),
    ("ExpiryTime", "Times"), ("LastModificationTime", "Times")]

/-- An element the reader does not look at. -/
structure Inert (name : String) (parent : Option String) : Prop where
  free : name ∉ ["Group", "Entry", "String"]
  apart : ∀ above, parent = some above → (name, above) ∉ handled

section

variable {decodeBase64 : List UInt8 → Option (List UInt8)} {name : String} {text : Text}
variable {parent : Option String} {found : Collected} {masks : Bool}

theorem Inert.ne (inert : Inert name parent) {other above : String}
    (listed : (other, above) ∈ handled) : ¬ (name = other ∧ parent = some above) := by
  rintro ⟨rfl, same⟩
  exact inert.apart above same listed

theorem onStart_inert (inert : Inert name parent) : onStart name masks parent found = found := by
  have free := inert.free
  simp only [List.mem_cons, List.not_mem_nil, or_false, not_or] at free
  unfold onStart
  rw [if_neg free.1, if_neg free.2.1, if_neg free.2.2, if_neg (inert.ne (by decide))]

theorem onEnd_inert (inert : Inert name parent) :
    onEnd decodeBase64 name text parent found = .ok found := by
  have free := inert.free
  simp only [List.mem_cons, List.not_mem_nil, or_false, not_or] at free
  unfold onEnd
  rw [if_neg (inert.ne (by decide)), if_neg (inert.ne (by decide)), if_neg (inert.ne (by decide)),
    if_neg (inert.ne (by decide)), if_neg (inert.ne (by decide)), if_neg (inert.ne (by decide)),
    if_neg (inert.ne (by decide)), if_neg (inert.ne (by decide)), if_neg (inert.ne (by decide)),
    if_neg (inert.ne (by decide)), if_neg free.2.1, if_neg free.1]

/-- The elements of a context stand in an element of such a name. -/
def Context.In : Context → Option String → Prop
  | .document, parent => parent = none
  | .file, parent => parent = some "KeePassFile"
  | .metadata, parent => parent = some "Meta"
  | .root, parent => parent = some "Root"
  | .group, parent => parent = some "Group"
  | .entry, parent => parent = some "Entry"
  | .history, parent => parent = some "History"
  | .string, parent => parent = some "String"
  | .times, parent => parent = some "Times"
  | .leaf, _ => True
  | .other, parent => ∀ above, parent = some above → above ∉ reserved

theorem ordinary_eq_some_iff {kind : Context} :
    ordinary name = some kind ↔ name ∉ reserved ∧ kind = .other := by
  unfold ordinary
  split
  · next listed => simp [listed]
  · next free => simp [free, eq_comm]

/-- What stands in an element of its name. -/
theorem child_in {context kind : Context} (stands : child context name = some kind) :
    kind.In (some name) := by
  have other : ordinary name = some kind → kind.In (some name) := by
    intro stands
    obtain ⟨free, rfl⟩ := ordinary_eq_some_iff.mp stands
    intro above same
    cases same
    exact free
  cases context <;> simp only [child] at stands <;> repeat' split at stands
  all_goals first
    | exact other stands
    | cases stands
  all_goals first
    | trivial
    | exact congrArg some ‹_›

/-- Only groups, entries, strings and leaves mean something by themselves. -/
theorem child_inert {context kind : Context} (stands : child context name = some kind)
    (inside : context.In parent) (plain : kind ∉ [.group, .entry, .string, .leaf]) :
    Inert name parent := by
  have free : name ∉ ["Group", "Entry", "String"] := by
    intro listed
    apply plain
    have known : name = "Group" ∨ name = "Entry" ∨ name = "String" := by simpa using listed
    rcases known with rfl | rfl | rfl <;> cases context <;> simp [child, ordinary, reserved] at stands
      <;> subst stands <;> decide
  refine ⟨free, ?_⟩
  rintro above rfl listed
  apply plain
  -- an element that is looked at stands as a leaf or a string in the element it belongs to
  have known : kind = .leaf ∨ kind = .string := by
    simp only [handled, List.mem_cons, List.not_mem_nil, or_false, Prod.mk.injEq] at listed
    rcases listed with ⟨rfl, rfl⟩ | ⟨rfl, rfl⟩ | ⟨rfl, rfl⟩ | ⟨rfl, rfl⟩ | ⟨rfl, rfl⟩ | ⟨rfl, rfl⟩ |
      ⟨rfl, rfl⟩ | ⟨rfl, rfl⟩ | ⟨rfl, rfl⟩ | ⟨rfl, rfl⟩
    all_goals
      cases context <;> simp [Context.In, reserved] at inside <;> simp [child] at stands
      subst stands
      decide
  rcases known with rfl | rfl <;> decide

end

/-! ## Walking from child to child -/

section

variable {decodeBase64 : List UInt8 → Option (List UInt8)} {spell : Body → List Piece}
variable {parent : Option String} {found opened closed : Collected} {text inText : Text}
variable {tag : Tag} {inner rest : Forest Body} {inside : Body}

theorem walk_empty
    (ends : onEnd decodeBase64 tag.name [] parent
      (onStart tag.name (isProtected tag) parent found) = .ok closed) :
    walk decodeBase64 spell parent (.empty tag rest) text found =
      walk decodeBase64 spell parent rest text closed := by
  rw [walk, ends]
  rfl

theorem walk_element
    (inside : walk decodeBase64 spell (some tag.name) inner []
      (onStart tag.name (isProtected tag) parent found) = .ok (inText, opened))
    (ends : onEnd decodeBase64 tag.name inText parent opened = .ok closed) :
    walk decodeBase64 spell parent (.element tag inner rest) text found =
      walk decodeBase64 spell parent rest [] closed := by
  rw [walk, inside]
  change (onEnd decodeBase64 tag.name inText parent opened >>= _) = _
  rw [ends]
  rfl

theorem walk_body
    (ends : onEnd decodeBase64 tag.name (written (spell inside)) parent
      (onStart tag.name (isProtected tag) parent found) = .ok closed) :
    walk decodeBase64 spell parent (.body tag inside rest) text found =
      walk decodeBase64 spell parent rest [] closed := by
  rw [walk, ends]
  rfl

/-- The parts of a conforming forest. -/
theorem conforms_empty {context : Context} :
    conforms context (.empty tag rest : Forest Body) = true ↔
      (∃ kind, child context tag.name = some kind) ∧ conforms context rest = true := by
  rw [conforms, Bool.and_eq_true, Option.isSome_iff_exists]

theorem conforms_element {context : Context} :
    conforms context (.element tag inner rest) = true ↔
      isProtected tag = false ∧ conforms context rest = true ∧
        ∃ kind, child context tag.name = some kind ∧ conforms kind inner = true := by
  rw [conforms, Bool.and_eq_true, Bool.and_eq_true, Bool.not_eq_true', and_assoc]
  cases child context tag.name with
  | none => simp
  | some kind => simp

theorem conforms_body {context : Context} :
    conforms context (.body tag inside rest) = true ↔
      isProtected tag = true ∧ conforms context rest = true ∧
        (child context tag.name = some .leaf ∨ child context tag.name = some .other) := by
  rw [conforms, Bool.and_eq_true, Bool.and_eq_true, and_assoc, Bool.or_eq_true,
    decide_eq_true_eq, decide_eq_true_eq]

/-- The text of an element that has no elements is collected. -/
theorem walk_leaf (leaf : conforms .leaf inner = true) :
    walk decodeBase64 spell parent inner text found = .ok (text ++ inner.content, found) := by
  induction inner generalizing text with
  | nil => rw [walk, Forest.content, List.append_nil]
  | piece part rest ih => rw [walk, ih leaf, Forest.content, List.append_assoc]
  | empty tag rest ih =>
      obtain ⟨⟨kind, stands⟩, -⟩ := conforms_empty.mp leaf
      cases stands
  | element tag inner rest _ _ =>
      obtain ⟨-, -, kind, stands, -⟩ := conforms_element.mp leaf
      cases stands
  | body tag inside rest _ =>
      obtain ⟨-, -, stands⟩ := conforms_body.mp leaf
      rcases stands with stands | stands <;> cases stands

theorem other_inert {name : String} {kind : Context} (below : child .other name = some kind)
    (stands : Context.other.In parent) : kind = .other ∧ Inert name parent := by
  obtain ⟨-, rfl⟩ := ordinary_eq_some_iff.mp below
  exact ⟨rfl, child_inert below stands (by decide)⟩

variable (decodeBase64 spell found text) in
/-- Nothing is found where nothing is looked for. -/
theorem walk_other (other : conforms .other inner = true) (stands : Context.other.In parent) :
    ∃ after, walk decodeBase64 spell parent inner text found = .ok (after, found) := by
  induction inner generalizing parent text with
  | nil => exact ⟨text, rfl⟩
  | piece part rest ih => exact ih _ other stands
  | empty tag rest ih =>
      obtain ⟨⟨kind, below⟩, others⟩ := conforms_empty.mp other
      have free := (other_inert below stands).2
      rw [walk_empty (by rw [onStart_inert free, onEnd_inert free])]
      exact ih _ others stands
  | element tag inner rest ihInner ihRest =>
      obtain ⟨-, others, kind, below, within⟩ := conforms_element.mp other
      obtain ⟨rfl, free⟩ := other_inert below stands
      obtain ⟨after, walked⟩ := ihInner [] within (child_in below)
      rw [walk_element (by rw [onStart_inert free]; exact walked) (onEnd_inert free)]
      exact ihRest _ others stands
  | body tag inside rest ih =>
      obtain ⟨-, others, below⟩ := conforms_body.mp other
      have free : Inert tag.name parent := by
        rcases below with below | below <;> exact (other_inert below stands).2
      rw [walk_body (by rw [onStart_inert free, onEnd_inert free])]
      exact ih _ others stands

/-! ## Times -/

/-- What the end of an element in `Times` changes. -/
def timesLeaf (name : String) (text : Text) (times : KdbxTimes) : KdbxTimes :=
  if name = "Expires" then
    { times with expires := eqIgnoreAsciiCase (trim text) "true".toList }
  else if name = "ExpiryTime" then { times with expiryTimeRaw := some (trim text) }
  else if name = "LastModificationTime" then { times with lastModRaw := some (trim text) }
  else times

theorem timesIn_cons {document : Forest Body} {name : String} {child : Inside Body}
    {times : KdbxTimes} (leads : document.children = (name, child) :: rest.children) :
    timesIn spell document times = timesIn spell rest (timesLeaf name (child.text spell) times) := by
  simp only [timesIn, Forest.last_cons leads, timesLeaf]
  by_cases expires : name = "Expires"
  · subst expires
    cases rest.last "Expires" <;> simp
  · by_cases expiry : name = "ExpiryTime"
    · subst expiry
      cases rest.last "ExpiryTime" <;> simp
    · by_cases modified : name = "LastModificationTime"
      · subst modified
        cases rest.last "LastModificationTime" <;> simp
      · simp [expires, expiry, modified]

theorem onStart_leaf {context : Context} {name : String} {masks : Bool}
    (stands : child context name = some .leaf) (apart : context ≠ .string)
    (inside : context.In parent) : onStart name masks parent found = found := by
  have free : name ≠ "Group" ∧ name ≠ "Entry" ∧ name ≠ "String" := by
    refine ⟨?_, ?_, ?_⟩ <;> rintro rfl <;> cases context <;>
      simp [child, ordinary, reserved] at stands
  have above : parent ≠ some "String" := by
    rintro rfl
    cases context <;> simp [Context.In] at inside apart
    · cases stands
    · cases (ordinary_eq_some_iff.mp stands).2
  unfold onStart
  rw [if_neg free.1, if_neg free.2.1, if_neg free.2.2, if_neg fun both => above both.2]

theorem onTop_of_same {change : EntryBuild → EntryBuild} (same : ∀ top, change top = top) :
    found.onTop change = found := by
  obtain ⟨groups, bin, stack, entries, skipped, stream⟩ := found
  cases stack with
  | nil => rfl
  | cons top rest => rw [Collected.onTop, List.modifyHead_cons, same]

theorem onTop_onTop (first second : EntryBuild → EntryBuild) :
    (found.onTop first).onTop second = found.onTop fun top => second (first top) := by
  obtain ⟨groups, bin, stack, entries, skipped, stream⟩ := found
  cases stack <;> rfl

theorem timesLeaf_other {name : String} {first second : Text} {times : KdbxTimes}
    (stands : child .times name = some .other) :
    timesLeaf name first times = timesLeaf name second times := by
  simp only [child] at stands
  split at stands
  · cases stands
  · next plain =>
      simp only [not_or] at plain
      simp [timesLeaf, plain]

/-- The end of an element in `Times`. -/
theorem onEnd_times {name : String} {kind : Context} (stands : child .times name = some kind) :
    onEnd decodeBase64 name text (some "Times") found =
      .ok (found.onTop fun top => { top with times := timesLeaf name text top.times }) := by
  by_cases expires : name = "Expires"
  · subst expires
    simp [onEnd, timesLeaf]
  · by_cases expiry : name = "ExpiryTime"
    · subst expiry
      simp [onEnd, timesLeaf]
    · by_cases modified : name = "LastModificationTime"
      · subst modified
        simp [onEnd, timesLeaf]
      · have plain : kind = .other := by
          simp only [child, expires, expiry, modified, or_self, if_false] at stands
          exact (ordinary_eq_some_iff.mp stands).2
        subst plain
        rw [onEnd_inert (child_inert stands rfl (by decide)), onTop_of_same]
        intro top
        simp [timesLeaf, expires, expiry, modified]

theorem times_kind {name : String} {kind : Context} (stands : child .times name = some kind) :
    kind = .leaf ∨ kind = .other := by
  simp only [child] at stands
  split at stands
  · cases stands
    exact .inl rfl
  · exact .inr (ordinary_eq_some_iff.mp stands).2

theorem onStart_times {name : String} {kind : Context} {masks : Bool}
    (stands : child .times name = some kind) :
    onStart name masks (some "Times") found = found := by
  rcases times_kind stands with rfl | rfl
  · exact onStart_leaf stands (by decide) rfl
  · exact onStart_inert (child_inert stands rfl (by decide))

variable (decodeBase64 spell found text) in
/-- The times of an entry are those said last; without an entry they are lost. -/
theorem walk_times (times : conforms .times inner = true) :
    ∃ after, walk decodeBase64 spell (some "Times") inner text found =
      .ok (after, found.onTop fun top =>
        { top with times := timesIn spell inner top.times }) := by
  induction inner generalizing text found with
  | nil =>
      refine ⟨text, ?_⟩
      rw [walk, onTop_of_same]
      intro top
      simp [timesIn]
  | piece part rest ih => exact ih _ _ times
  | empty tag rest ih =>
      obtain ⟨⟨kind, stands⟩, others⟩ := conforms_empty.mp times
      obtain ⟨after, walked⟩ := ih _ _ others
      rw [walk_empty (by rw [onStart_times stands, onEnd_times stands])]
      refine ⟨after, walked.trans ?_⟩
      simp only [onTop_onTop, timesIn_cons Forest.children_empty]
      rfl
  | element tag inner rest _ ih =>
      obtain ⟨-, others, kind, stands, within⟩ := conforms_element.mp times
      obtain ⟨inText, inWalked, same⟩ : ∃ inText,
          walk decodeBase64 spell (some tag.name) inner [] found = .ok (inText, found) ∧
            ∀ before, timesLeaf tag.name inText before = timesLeaf tag.name inner.content before := by
        rcases times_kind stands with rfl | rfl
        · exact ⟨inner.content, walk_leaf within, fun _ => rfl⟩
        · obtain ⟨inText, walked⟩ := walk_other _ _ found [] within (child_in stands)
          exact ⟨inText, walked, fun before => timesLeaf_other stands⟩
      obtain ⟨after, walked⟩ := ih _ _ others
      rw [walk_element (by rw [onStart_times stands]; exact inWalked) (onEnd_times stands)]
      refine ⟨after, walked.trans ?_⟩
      simp only [onTop_onTop, timesIn_cons Forest.children_element, same]
      rfl
  | body tag inside rest ih =>
      obtain ⟨-, others, stands⟩ := conforms_body.mp times
      obtain ⟨kind, stands⟩ : ∃ kind, child .times tag.name = some kind :=
        stands.elim (fun leaf => ⟨_, leaf⟩) (fun other => ⟨_, other⟩)
      obtain ⟨after, walked⟩ := ih _ _ others
      rw [walk_body (by rw [onStart_times stands, onEnd_times stands])]
      refine ⟨after, walked.trans ?_⟩
      simp only [onTop_onTop, timesIn_cons Forest.children_body]
      rfl

end

/-! ## The inner stream -/

/-- The stream after it has unmasked some bodies. -/
def InnerStream.past (cipher : Body → List UInt8) (stream : InnerStream) (bodies : List Body) :
    InnerStream :=
  { stream with position := stream.position + (bodies.map fun body => (cipher body).length).sum }

/-- Bodies are where the stream meets them, one after another. -/
def Placed (cipher : Body → List UInt8) (place : Body → Nat) : Nat → List Body → Prop
  | _, [] => True
  | position, body :: rest =>
      place body = position ∧ Placed cipher place (position + (cipher body).length) rest

/-- The texts of masked elements are base64, and so is the empty text. -/
structure Legible (decodeBase64 : List UInt8 → Option (List UInt8)) (spell : Body → List Piece)
    (cipher : Body → List UInt8) : Prop where
  blank : decodeBase64 [] = some []
  body : ∀ inside, decodeBase64 (encode (trim (written (spell inside)))) = some (cipher inside)

section

variable {cipher : Body → List UInt8} {place : Body → Nat} {stream : InnerStream}
variable {first second : List Body}

@[simp] theorem past_nil : stream.past cipher ([] : List Body) = stream := rfl

theorem past_append :
    stream.past cipher (first ++ second) = (stream.past cipher first).past cipher second := by
  simp only [InnerStream.past, List.map_append, List.sum_append, Nat.add_assoc]

theorem past_cons {body : Body} :
    stream.past cipher (body :: second) = (stream.past cipher [body]).past cipher second := by
  rw [← past_append, List.singleton_append]

theorem placed_append {position : Nat} : Placed cipher place position (first ++ second) ↔
    Placed cipher place position first ∧
      Placed cipher place (position + (first.map fun body => (cipher body).length).sum) second := by
  induction first generalizing position with
  | nil => simp [Placed]
  | cons body rest ih =>
      simp only [List.cons_append, Placed, ih, List.map_cons, List.sum_cons, and_assoc,
        Nat.add_assoc]

theorem unmasked_element {context kind : Context} {tag : Tag} {inner rest : Forest Body}
    (stands : child context tag.name = some kind) :
    unmasked context (.element tag inner rest) = unmasked kind inner ++ unmasked context rest := by
  rw [unmasked, stands]

/-- Elements that hold no strings. -/
def Context.Quiet (context : Context) : Prop :=
  context ∈ [Context.leaf, .other, .times, .metadata]

theorem child_quiet {context kind : Context} {name : String} (quiet : context.Quiet)
    (stands : child context name = some kind) : kind.Quiet := by
  have other : ordinary name = some kind → kind.Quiet := by
    intro stands
    rw [(ordinary_eq_some_iff.mp stands).2]
    simp [Context.Quiet]
  cases context <;> simp [Context.Quiet] at quiet <;> simp only [child] at stands <;>
    (try split at stands)
  all_goals first
    | exact other stands
    | (cases stands <;> simp [Context.Quiet])

theorem unmasked_quiet {context : Context} {document : Forest Body} (quiet : context.Quiet) :
    unmasked context document = [] := by
  have plain : context ≠ .string := by
    rintro rfl
    simp [Context.Quiet] at quiet
  induction document generalizing context with
  | nil => rfl
  | piece part rest ih => exact ih quiet plain
  | empty tag rest ih => exact ih quiet plain
  | element tag inner rest ihInner ihRest =>
      rw [unmasked, ihRest quiet plain, List.append_nil]
      cases stands : child context tag.name with
      | none => rfl
      | some kind =>
          have below := child_quiet quiet stands
          refine ihInner below ?_
          rintro rfl
          simp [Context.Quiet] at below
  | body tag inside rest ih =>
      rw [unmasked, if_neg fun both => plain both.1]
      exact ih quiet plain

end

/-! ## Strings -/

section

variable {decodeBase64 : List UInt8 → Option (List UInt8)} {spell : Body → List Piece}
variable {cipher : Body → List UInt8} {place : Body → Nat}
variable {parent : Option String} {found : Collected} {text : Text}
variable {tag : Tag} {inner rest : Forest Body} {inside : Body}
variable {top : EntryBuild} {below : List EntryBuild} {bytes : List UInt8}

/-- What is found with other open entries and another stream. -/
def Collected.left (found : Collected) (entryStack : List EntryBuild) (stream : InnerStream) :
    Collected :=
  { found with entryStack, stream }

@[simp] theorem left_entryStack {stack : List EntryBuild} {stream : InnerStream} :
    (found.left stack stream).entryStack = stack := rfl

@[simp] theorem left_stream {stack : List EntryBuild} {stream : InnerStream} :
    (found.left stack stream).stream = stream := rfl

@[simp] theorem left_left {first second : List EntryBuild} {stream other : InnerStream} :
    (found.left first stream).left second other = found.left second other := rfl

theorem left_self {stack : List EntryBuild} (same : found.entryStack = stack) :
    found.left stack found.stream = found := by
  rw [← same]
  rfl

/-- What the end of an element in `String` changes. -/
def stringLeaf (name : String) (text : Text) (bytes : List UInt8) (masks : Bool)
    (top : EntryBuild) : EntryBuild :=
  if name = "Key" then { top with curKey := some text }
  else if name = "Value" then { top with curVal := some bytes, curProtected := masks }
  else top

theorem string_kind {name : String} {kind : Context} (stands : child .string name = some kind) :
    kind = .leaf ∨ kind = .other := by
  simp only [child] at stands
  split at stands
  · cases stands
    exact .inl rfl
  · exact .inr (ordinary_eq_some_iff.mp stands).2

theorem stringLeaf_other {name : String} {masks : Bool}
    (stands : child .string name = some .other) : stringLeaf name text bytes masks top = top := by
  simp only [child] at stands
  split at stands
  · cases stands
  · next plain =>
      simp only [not_or] at plain
      simp [stringLeaf, plain]

/-- An element in `String`: between its start and its end nothing is found. -/
theorem string_element {name : String} {kind : Context} {masks : Bool} {stream : InnerStream}
    (stands : child .string name = some kind) (stack : found.entryStack = top :: below)
    (value : name = "Value" →
      (masks = false ∧ bytes = encode text ∧ stream = found.stream) ∨
        (masks = true ∧ decodeProtected decodeBase64 text found.stream = .ok (bytes, stream)))
    (plain : name ≠ "Value" → stream = found.stream) :
    onEnd decodeBase64 name text (some "String")
        (onStart name masks (some "String") found) =
      .ok (found.left (stringLeaf name text bytes masks top :: below) stream) := by
  obtain ⟨groups, bin, entryStack, entries, skipped, start⟩ := found
  cases stack
  by_cases key : name = "Key"
  · subst key
    cases plain (by decide)
    simp [onStart, onEnd, stringLeaf, Collected.onTop, Collected.left]
  · by_cases isValue : name = "Value"
    · subst isValue
      rcases value rfl with ⟨rfl, rfl, rfl⟩ | ⟨rfl, decoded⟩
      · simp [onStart, onEnd, endValue, stringLeaf, Collected.onTop, Collected.left]
      · simp only [onStart, onEnd, endValue, stringLeaf, Collected.onTop, Collected.left]
        simp [decoded]
    · have other : kind = .other := by
        simp only [child, key, isValue, or_self, if_false] at stands
        exact (ordinary_eq_some_iff.mp stands).2
      subst other
      have free : Inert name (some "String") := child_inert stands rfl (by decide)
      cases plain isValue
      rw [onStart_inert free, onEnd_inert free]
      simp [stringLeaf, key, isValue, Collected.left]

variable {read : Body → List UInt8}

/-- The key and the value that the elements of a string leave. -/
def held (spell : Body → List Piece) (read : Body → List UInt8) (string : Forest Body)
    (masks : Bool) (top : EntryBuild) : EntryBuild :=
  { top with
    curKey := ((string.last "Key").map (Inside.text spell)).or top.curKey
    curVal := ((string.last "Value").map (valueBytes read)).or top.curVal
    curProtected := masks }

theorem held_cons {document : Forest Body} {name : String} {child : Inside Body}
    {last masks : Bool} (leads : document.children = (name, child) :: rest.children) :
    held spell read document last top =
      held spell read rest last
        (stringLeaf name (child.text spell) (valueBytes read child) masks top) := by
  simp only [held, Forest.last_cons leads, stringLeaf]
  by_cases key : name = "Key"
  · subst key
    cases rest.last "Key" <;> simp
  · by_cases value : name = "Value"
    · subst value
      cases rest.last "Value" <;> simp
    · simp [key, value]

/-- Reading a body gives what its text decodes to, with the keystream from its place on. -/
def unmask (keystream : Nat → UInt8) (place : Body → Nat) (cipher : Body → List UInt8)
    (inside : Body) : List UInt8 :=
  masked keystream (place inside) (cipher inside)

/-- The body of a value is unmasked where the stream is. -/
theorem decodeProtected_body (legible : Legible decodeBase64 spell cipher) {stream : InnerStream}
    (placed : place inside = stream.position) :
    decodeProtected decodeBase64 (written (spell inside)) stream =
      .ok (unmask stream.keystream place cipher inside, stream.past cipher [inside]) := by
  simp only [decodeProtected, legible.body inside, InnerStream.apply, unmask, placed,
    InnerStream.past, List.map_cons, List.map_nil, List.sum_cons, List.sum_nil, Nat.add_zero]

/-- The bytes of a self-closing value, masked or not. -/
theorem decodeProtected_blank (legible : Legible decodeBase64 spell cipher)
    (stream : InnerStream) : decodeProtected decodeBase64 [] stream = .ok ([], stream) := by
  have empty : encode (trim []) = [] := rfl
  simp only [decodeProtected, empty, legible.blank]
  rfl

variable (found text) in
/-- The elements of a string leave its key and its value. -/
theorem walk_string (legible : Legible decodeBase64 spell cipher)
    (string : conforms .string inner = true) (stack : found.entryStack = top :: below)
    (placed : Placed cipher place found.stream.position (unmasked .string inner)) :
    ∃ after last, walk decodeBase64 spell (some "String") inner text found = .ok (after,
      found.left (held spell (unmask found.stream.keystream place cipher) inner last top :: below)
        (found.stream.past cipher (unmasked .string inner))) := by
  induction inner generalizing text found top with
  | nil =>
      refine ⟨text, top.curProtected, ?_⟩
      rw [walk, unmasked, past_nil, left_self]
      exact stack
  | piece part rest ih => exact ih _ _ string stack placed
  | empty tag rest ih =>
      obtain ⟨⟨kind, stands⟩, others⟩ := conforms_empty.mp string
      have value : isProtected tag = false ∧ [] = encode [] ∧ found.stream = found.stream ∨
          isProtected tag = true ∧
            decodeProtected decodeBase64 [] found.stream = .ok ([], found.stream) := by
        cases isProtected tag with
        | false => exact .inl ⟨rfl, rfl, rfl⟩
        | true => exact .inr ⟨rfl, decodeProtected_blank legible found.stream⟩
      rw [walk_empty (string_element stands stack (fun _ => value) fun _ => rfl)]
      obtain ⟨after, last, walked⟩ := ih (found.left _ found.stream) text others rfl
        placed
      refine ⟨after, last, walked.trans ?_⟩
      rw [held_cons Forest.children_empty, left_left]
      rfl
  | element tag inner rest _ ih =>
      obtain ⟨unmarked, others, kind, stands, within⟩ := conforms_element.mp string
      have quiet : kind.Quiet := by
        rcases string_kind stands with rfl | rfl <;> simp [Context.Quiet]
      rw [unmasked_element stands, unmasked_quiet quiet, List.nil_append] at placed ⊢
      obtain ⟨inText, inWalked, same⟩ : ∃ inText,
          walk decodeBase64 spell (some tag.name) inner []
              (onStart tag.name (isProtected tag) (some "String") found) =
            .ok (inText, onStart tag.name (isProtected tag) (some "String") found) ∧
          stringLeaf tag.name inText (encode inText) (isProtected tag) top =
            stringLeaf tag.name inner.content (encode inner.content) (isProtected tag) top := by
        rcases string_kind stands with rfl | rfl
        · exact ⟨inner.content, walk_leaf within, rfl⟩
        · obtain ⟨inText, walked⟩ := walk_other _ _ _ [] within (child_in stands)
          exact ⟨inText, walked, by rw [stringLeaf_other stands, stringLeaf_other stands]⟩
      rw [walk_element inWalked (string_element stands stack
        (fun _ => .inl ⟨unmarked, rfl, rfl⟩) fun _ => rfl), same]
      obtain ⟨after, last, walked⟩ := ih (found.left _ found.stream) [] others rfl
        placed
      refine ⟨after, last, walked.trans ?_⟩
      rw [held_cons Forest.children_element, left_left]
      rfl
  | body tag inside rest ih =>
      obtain ⟨marked, others, leafOrOther⟩ := conforms_body.mp string
      obtain ⟨kind, stands⟩ : ∃ kind, child .string tag.name = some kind :=
        leafOrOther.elim (fun leaf => ⟨_, leaf⟩) (fun other => ⟨_, other⟩)
      by_cases value : tag.name = "Value"
      · rw [unmasked, if_pos ⟨rfl, value⟩] at placed ⊢
        have decoded := decodeProtected_body legible placed.1
        rw [walk_body (string_element stands stack
          (fun _ => .inr ⟨marked, decoded⟩) fun other => absurd value other)]
        obtain ⟨after, last, walked⟩ := ih
          (found.left _ (found.stream.past cipher [inside])) [] others rfl (by
            simpa [InnerStream.past] using placed.2)
        refine ⟨after, last, walked.trans ?_⟩
        rw [held_cons Forest.children_body, left_left, left_stream, ← past_cons]
        rfl
      · rw [unmasked, if_neg fun both => value both.2] at placed ⊢
        rw [walk_body (string_element stands stack (fun same => absurd same value) fun _ => rfl)]
        obtain ⟨after, last, walked⟩ := ih (found.left _ found.stream) [] others rfl
          placed
        refine ⟨after, last, walked.trans ?_⟩
        rw [held_cons Forest.children_body, left_left]
        rfl

end

/-! ## Entries -/

section

variable {decodeBase64 : List UInt8 → Option (List UInt8)} {spell : Body → List Piece}
variable {cipher : Body → List UInt8} {place : Body → Nat} {read : Body → List UInt8}
variable {found : Collected} {text : Text}
variable {tag : Tag} {inner rest : Forest Body} {inside : Body}
variable {top : EntryBuild} {below : List EntryBuild}

/-- An entry between its strings. -/
def EntryBuild.settled (top : EntryBuild) : EntryBuild :=
  { top with curKey := none, curVal := none, curProtected := false }

/-- What one element tells of its entry. -/
def EntryBuild.tell (decodeBase64 : List UInt8 → Option (List UInt8)) (spell : Body → List Piece)
    (read : Body → List UInt8) (name : String) (child : Inside Body) (top : EntryBuild) :
    EntryBuild :=
  if name = "String" then
    { top with strings := top.strings ++ (stringOf spell read child).toList }
  else if name = "Tags" then { top with tags := top.tags ++ splitTags (child.text spell) }
  else if name = "Times" then
    { top with times := match child with
        | .forest inner => timesIn spell inner top.times
        | .body _ => top.times }
  else if name = "History" then
    { top with history := top.history ++
        (child.named "Entry").map (revisionOf decodeBase64 spell read) }
  else top

/-- What a forest tells is what its first element tells and then the rest. -/
theorem add_cons {document : Forest Body} {name : String} {child : Inside Body}
    (leads : document.children = (name, child) :: rest.children) :
    top.add decodeBase64 spell read document =
      (top.tell decodeBase64 spell read name child).add decodeBase64 spell read rest := by
  simp only [EntryBuild.add, stringsOf, tagsOf, timesOver, historyOf, Forest.named_cons leads,
    EntryBuild.tell]
  by_cases string : name = "String"
  · subst string
    cases told : stringOf spell read child <;> simp [told]
  · by_cases tags : name = "Tags"
    · subst tags
      simp
    · by_cases times : name = "Times"
      · subst times
        cases child <;> simp
      · by_cases history : name = "History"
        · subst history
          simp
        · simp [string, tags, times, history]

theorem add_settled {document : Forest Body} :
    top.settled.add decodeBase64 spell read document =
      top.add decodeBase64 spell read document := rfl

theorem add_nil : top.add decodeBase64 spell read (.nil : Forest Body) = top.settled := by
  simp [EntryBuild.add, stringsOf, tagsOf, timesOver, historyOf, EntryBuild.settled]

/-- The end of a string tells the string. -/
theorem endString_held (last : Bool) :
    (held spell read inner last top.settled).endString.settled =
      (top.tell decodeBase64 spell read "String" (.forest inner)).settled := by
  simp only [held, EntryBuild.endString, EntryBuild.tell, stringOf]
  cases inner.last "Key" <;> simp [EntryBuild.settled]

/-- Walking over the elements of an entry tells what they tell. -/
def TellsEntry (decodeBase64 : List UInt8 → Option (List UInt8)) (spell : Body → List Piece)
    (cipher : Body → List UInt8) (place : Body → Nat) (entry : Forest Body) : Prop :=
  conforms .entry entry = true → ∀ text found top below, found.entryStack = top :: below →
    Placed cipher place found.stream.position (unmasked .entry entry) →
    ∃ after told, walk decodeBase64 spell (some "Entry") entry text found =
        .ok (after, found.left (told :: below) (found.stream.past cipher (unmasked .entry entry))) ∧
      told.settled = top.add decodeBase64 spell
        (unmask found.stream.keystream place cipher) entry

/-- Walking over a history adds its revisions to the entry. -/
def TellsHistory (decodeBase64 : List UInt8 → Option (List UInt8)) (spell : Body → List Piece)
    (cipher : Body → List UInt8) (place : Body → Nat) (history : Forest Body) : Prop :=
  conforms .history history = true → ∀ text found top below, found.entryStack = top :: below →
    Placed cipher place found.stream.position (unmasked .history history) →
    ∃ after, walk decodeBase64 spell (some "History") history text found =
      .ok (after, found.left
        ({ top with history := top.history ++ (history.named "Entry").map (revisionOf decodeBase64
          spell (unmask found.stream.keystream place cipher)) } :: below)
        (found.stream.past cipher (unmasked .history history)))

theorem onStart_string {masks : Bool} {parent : Option String}
    (stack : found.entryStack = top :: below) :
    onStart "String" masks parent found = found.left (top.settled :: below) found.stream := by
  obtain ⟨groups, bin, entryStack, entries, skipped, start⟩ := found
  cases stack
  simp [onStart, Collected.onTop, Collected.left, EntryBuild.settled]

theorem entry_kind {name : String} {kind : Context} (stands : child .entry name = some kind) :
    (name = "String" ∧ kind = .string) ∨ (name = "History" ∧ kind = .history) ∨
      (name = "Tags" ∧ kind = .leaf) ∨ (name = "Times" ∧ kind = .times) ∨
      (name ∉ ["String", "History", "Tags", "Times"] ∧ kind = .other) := by
  have other : ordinary name = some kind → kind = .other := fun stands =>
    (ordinary_eq_some_iff.mp stands).2
  simp only [child] at stands
  by_cases string : name = "String"
  · rw [if_pos string] at stands
    cases stands
    exact .inl ⟨string, rfl⟩
  · by_cases history : name = "History"
    · rw [if_neg string, if_pos history] at stands
      cases stands
      exact .inr (.inl ⟨history, rfl⟩)
    · by_cases tags : name = "Tags"
      · rw [if_neg string, if_neg history, if_pos tags] at stands
        cases stands
        exact .inr (.inr (.inl ⟨tags, rfl⟩))
      · by_cases times : name = "Times"
        · rw [if_neg string, if_neg history, if_neg tags, if_pos times] at stands
          cases stands
          exact .inr (.inr (.inr (.inl ⟨times, rfl⟩)))
        · rw [if_neg string, if_neg history, if_neg tags, if_neg times] at stands
          exact .inr (.inr (.inr (.inr ⟨by simp [string, history, tags, times], other stands⟩)))

/-- The end of `Tags`. -/
theorem onEnd_tags (stack : found.entryStack = top :: below) :
    onEnd decodeBase64 "Tags" text (some "Entry") found =
      .ok (found.left ({ top with tags := top.tags ++ splitTags text } :: below)
        found.stream) := by
  simp [onEnd, Collected.onTop, Collected.left, stack]

/-- An element of an entry, from its start to its end. -/
theorem entry_element (legible : Legible decodeBase64 spell cipher) {name : String}
    {kind : Context} (masks : Bool) (stands : child .entry name = some kind)
    (within : conforms kind inner = true) (stack : found.entryStack = top :: below)
    (placed : Placed cipher place found.stream.position (unmasked kind inner))
    (history : TellsHistory decodeBase64 spell cipher place inner) :
    ∃ inText opened told,
      walk decodeBase64 spell (some name) inner [] (onStart name masks (some "Entry") found) =
        .ok (inText, opened) ∧
      onEnd decodeBase64 name inText (some "Entry") opened =
        .ok (found.left (told :: below) (found.stream.past cipher (unmasked kind inner))) ∧
      told.settled = (top.tell decodeBase64 spell (unmask found.stream.keystream place cipher) name
        (.forest inner)).settled := by
  rcases entry_kind stands with ⟨rfl, rfl⟩ | ⟨rfl, rfl⟩ | ⟨rfl, rfl⟩ | ⟨rfl, rfl⟩ | ⟨plain, rfl⟩
  · obtain ⟨after, last, walked⟩ := walk_string
      (found.left (top.settled :: below) found.stream) [] legible within rfl placed
    rw [onStart_string stack]
    refine ⟨after, _, _, walked, ?_, endString_held last⟩
    simp [onEnd, Collected.onTop, Collected.left]
  · have free : Inert "History" (some "Entry") := child_inert stands rfl (by decide)
    obtain ⟨after, walked⟩ := history within [] found top below stack placed
    rw [onStart_inert free]
    refine ⟨after, _, _, walked, onEnd_inert free, ?_⟩
    simp [EntryBuild.tell, Inside.named]
  · rw [onStart_leaf stands (by decide) rfl, unmasked_quiet (by simp [Context.Quiet]), past_nil]
    exact ⟨inner.content, _, _, walk_leaf within, onEnd_tags stack, rfl⟩
  · have free : Inert "Times" (some "Entry") := child_inert stands rfl (by decide)
    obtain ⟨after, walked⟩ := walk_times decodeBase64 spell found [] within
    rw [onStart_inert free, unmasked_quiet (by simp [Context.Quiet]), past_nil]
    refine ⟨after, _, { top with times := timesIn spell inner top.times }, walked, ?_, ?_⟩
    · rw [onEnd_inert free]
      simp [Collected.onTop, Collected.left, stack]
    · simp [EntryBuild.tell]
  · have free : Inert name (some "Entry") := child_inert stands rfl (by decide)
    obtain ⟨after, walked⟩ := walk_other decodeBase64 spell found [] within (child_in stands)
    rw [onStart_inert free, unmasked_quiet (by simp [Context.Quiet]), past_nil]
    refine ⟨after, found, top, walked, ?_, ?_⟩
    · rw [onEnd_inert free, left_self stack]
    · simp only [List.mem_cons, List.not_mem_nil, or_false, not_or] at plain
      simp [EntryBuild.tell, plain]

/-- A masked element of an entry: its tags, or nothing. -/
theorem entry_body (read : Body → List UInt8) {name : String} {masks : Bool}
    (stands : child .entry name = some .leaf ∨ child .entry name = some .other)
    (stack : found.entryStack = top :: below) :
    ∃ told, onEnd decodeBase64 name (written (spell inside)) (some "Entry")
        (onStart name masks (some "Entry") found) =
          .ok (found.left (told :: below) found.stream) ∧
      told.settled = (top.tell decodeBase64 spell read name (.body inside)).settled := by
  rcases stands with leaf | other
  · rw [onStart_leaf leaf (by decide) rfl]
    rcases entry_kind leaf with ⟨-, kind⟩ | ⟨-, kind⟩ | ⟨rfl, -⟩ | ⟨-, kind⟩ | ⟨-, kind⟩
    · cases kind
    · cases kind
    · exact ⟨_, onEnd_tags stack, rfl⟩
    · cases kind
    · cases kind
  · have free : Inert name (some "Entry") := child_inert other rfl (by decide)
    refine ⟨top, ?_, ?_⟩
    · rw [onStart_inert free, onEnd_inert free, left_self stack]
    · rcases entry_kind other with ⟨-, kind⟩ | ⟨-, kind⟩ | ⟨-, kind⟩ | ⟨-, kind⟩ | ⟨plain, -⟩
      · cases kind
      · cases kind
      · cases kind
      · cases kind
      · simp only [List.mem_cons, List.not_mem_nil, or_false, not_or] at plain
        simp [EntryBuild.tell, plain]

/-- What was told first, and then the rest. -/
theorem told_settled {told : EntryBuild} {document : Forest Body} {name : String}
    {child : Inside Body} (leads : document.children = (name, child) :: rest.children)
    (same : told.settled = (top.tell decodeBase64 spell read name child).settled) :
    told.add decodeBase64 spell read rest = top.add decodeBase64 spell read document := by
  rw [add_cons leads, ← add_settled, same, add_settled]

theorem history_kind {name : String} {kind : Context}
    (stands : child .history name = some kind) :
    (name = "Entry" ∧ kind = .entry) ∨ (name ≠ "Entry" ∧ kind = .other) := by
  simp only [child] at stands
  by_cases entry : name = "Entry"
  · rw [if_pos entry] at stands
    cases stands
    exact .inl ⟨entry, rfl⟩
  · rw [if_neg entry] at stands
    exact .inr ⟨entry, (ordinary_eq_some_iff.mp stands).2⟩

theorem onStart_entry {masks : Bool} {parent : Option String} :
    onStart "Entry" masks parent found =
      found.left (.default :: found.entryStack) found.stream := by
  simp [onStart, Collected.left]

/-- The end of an earlier revision. -/
theorem onEnd_revision {told : EntryBuild} {stream : InnerStream}
    (same : told.settled = EntryBuild.default.add decodeBase64 spell read inner) :
    onEnd decodeBase64 "Entry" text (some "History") (found.left (told :: top :: below) stream) =
      .ok (found.left ({ top with history := top.history ++
        [revisionOf decodeBase64 spell read (.forest inner)] } :: below) stream) := by
  have revision : told.revision decodeBase64 =
      revisionOf decodeBase64 spell read (.forest inner) := by
    change told.settled.revision decodeBase64 = _
    rw [same]
    rfl
  simp [onEnd, endEntry, Collected.left, revision]

/-- An element of a history, from its start to its end. -/
theorem history_element {name : String} {kind : Context} (masks : Bool)
    (stands : child .history name = some kind) (within : conforms kind inner = true)
    (stack : found.entryStack = top :: below)
    (placed : Placed cipher place found.stream.position (unmasked kind inner))
    (entry : TellsEntry decodeBase64 spell cipher place inner) :
    ∃ inText opened,
      walk decodeBase64 spell (some name) inner [] (onStart name masks (some "History") found) =
        .ok (inText, opened) ∧
      onEnd decodeBase64 name inText (some "History") opened =
        .ok (found.left ({ top with history := top.history ++
            (if name = "Entry" then [revisionOf decodeBase64 spell
              (unmask found.stream.keystream place cipher) (.forest inner)] else []) } :: below)
          (found.stream.past cipher (unmasked kind inner))) := by
  rcases history_kind stands with ⟨rfl, rfl⟩ | ⟨plain, rfl⟩
  · obtain ⟨after, told, walked, same⟩ := entry within []
      (found.left (.default :: found.entryStack) found.stream) .default _ rfl placed
    rw [onStart_entry, if_pos rfl]
    refine ⟨after, _, walked, ?_⟩
    rw [left_left, stack]
    exact onEnd_revision same
  · have free : Inert name (some "History") := child_inert stands rfl (by decide)
    obtain ⟨after, walked⟩ := walk_other decodeBase64 spell found [] within (child_in stands)
    rw [onStart_inert free, unmasked_quiet (by simp [Context.Quiet]), past_nil, if_neg plain,
      List.append_nil]
    exact ⟨after, found, walked, by rw [onEnd_inert free, left_self stack]⟩

theorem tells_nil : TellsEntry decodeBase64 spell cipher place (.nil : Forest Body) ∧
    TellsHistory decodeBase64 spell cipher place (.nil : Forest Body) := by
  refine ⟨?_, ?_⟩
  · intro _ text found top below stack _
    refine ⟨text, top, ?_, add_nil.symm⟩
    rw [walk, unmasked, past_nil, left_self stack]
  · intro _ text found top below stack _
    refine ⟨text, ?_⟩
    rw [walk, unmasked, past_nil, Forest.named_nil, List.map_nil, List.append_nil]
    rw [left_self stack]

/-- One more element of a history. -/
theorem history_cons {document : Forest Body} {name : String}
    (leads : document.children = (name, .forest inner) :: rest.children) :
    { top with history := top.history ++
        (document.named "Entry").map (revisionOf decodeBase64 spell read) } =
      { top with history := top.history ++
        (if name = "Entry" then [revisionOf decodeBase64 spell read (.forest inner)] else []) ++
          (rest.named "Entry").map (revisionOf decodeBase64 spell read) } := by
  rw [Forest.named_cons leads, List.map_append, List.append_assoc]
  split <;> rfl

/-- Reading an entry and its history finds what they tell.  The two are read by one induction,
since a history is made of entries. -/
theorem tells (legible : Legible decodeBase64 spell cipher) (document : Forest Body) :
    TellsEntry decodeBase64 spell cipher place document ∧
      TellsHistory decodeBase64 spell cipher place document := by
  induction document with
  | nil => exact tells_nil
  | piece part rest ih =>
      refine ⟨?_, ?_⟩
      · intro entry text found top below stack placed
        exact ih.1 entry _ found top below stack placed
      · intro history text found top below stack placed
        exact ih.2 history _ found top below stack placed
  | empty tag rest ih =>
      refine ⟨?_, ?_⟩
      · intro entry text found top below stack placed
        obtain ⟨⟨kind, stands⟩, others⟩ := conforms_empty.mp entry
        obtain ⟨inText, opened, told, inWalked, ends, same⟩ :=
          entry_element legible (isProtected tag) stands rfl stack
            (show Placed cipher place found.stream.position (unmasked kind .nil) from trivial)
            tells_nil.2
        cases inWalked
        rw [walk_empty ends]
        obtain ⟨after, told', walked, same'⟩ :=
          ih.1 others text (found.left (told :: below) found.stream) told below rfl placed
        exact ⟨after, told', walked, same'.trans (told_settled Forest.children_empty same)⟩
      · intro history text found top below stack placed
        obtain ⟨⟨kind, stands⟩, others⟩ := conforms_empty.mp history
        obtain ⟨inText, opened, inWalked, ends⟩ :=
          history_element (isProtected tag) stands rfl stack
            (show Placed cipher place found.stream.position (unmasked kind .nil) from trivial)
            tells_nil.1
        cases inWalked
        rw [walk_empty ends, history_cons Forest.children_empty]
        exact ih.2 others text (found.left _ found.stream) _ below rfl placed
  | element tag inner rest ihInner ihRest =>
      refine ⟨?_, ?_⟩
      · intro entry text found top below stack placed
        obtain ⟨-, others, kind, stands, within⟩ := conforms_element.mp entry
        rw [unmasked_element stands] at placed ⊢
        obtain ⟨here, later⟩ := placed_append.mp placed
        obtain ⟨inText, opened, told, inWalked, ends, same⟩ :=
          entry_element legible _ stands within stack here ihInner.2
        rw [walk_element inWalked ends, past_append]
        obtain ⟨after, told', walked, same'⟩ := ihRest.1 others [] (found.left (told :: below)
          (found.stream.past cipher (unmasked kind inner))) told below rfl later
        exact ⟨after, told', walked, same'.trans (told_settled Forest.children_element same)⟩
      · intro history text found top below stack placed
        obtain ⟨-, others, kind, stands, within⟩ := conforms_element.mp history
        rw [unmasked_element stands] at placed ⊢
        obtain ⟨here, later⟩ := placed_append.mp placed
        obtain ⟨inText, opened, inWalked, ends⟩ :=
          history_element _ stands within stack here ihInner.1
        rw [walk_element inWalked ends, past_append, history_cons Forest.children_element]
        exact ihRest.2 others [] (found.left _ (found.stream.past cipher (unmasked kind inner))) _
          below rfl later
  | body tag inside rest ih =>
      refine ⟨?_, ?_⟩
      · intro entry text found top below stack placed
        obtain ⟨-, others, stands⟩ := conforms_body.mp entry
        obtain ⟨told, ends, same⟩ := entry_body
          (unmask found.stream.keystream place cipher) stands stack
        rw [walk_body ends]
        rw [unmasked, if_neg (by simp)] at placed ⊢
        obtain ⟨after, told', walked, same'⟩ :=
          ih.1 others [] (found.left (told :: below) found.stream) told below rfl placed
        exact ⟨after, told', walked, same'.trans (told_settled Forest.children_body same)⟩
      · intro history text found top below stack placed
        obtain ⟨-, others, stands⟩ := conforms_body.mp history
        have plain : tag.name ≠ "Entry" ∧ child .history tag.name = some .other := by
          rcases stands with stands | stands
          · rcases history_kind stands with ⟨-, kind⟩ | ⟨-, kind⟩ <;> cases kind
          · rcases history_kind stands with ⟨-, kind⟩ | ⟨plain, -⟩
            · cases kind
            · exact ⟨plain, stands⟩
        have free : Inert tag.name (some "History") := child_inert plain.2 rfl (by decide)
        rw [walk_body (by rw [onStart_inert free, onEnd_inert free]),
          Forest.named_cons Forest.children_body, if_neg plain.1, List.nil_append]
        rw [unmasked, if_neg (by simp)] at placed ⊢
        exact ih.2 others [] found top below stack placed

end

end Pangolin.Kdbx
