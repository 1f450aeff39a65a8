import Pangolin.Kdbx.Xml

/-!
# Reading a document

Reading the events of a document is a walk over its forest: what is found in an element is found
between its start and its end, and its text is what stands after the last element in it.  This is
so as long as the document keeps within the limits of the reader.
-/

namespace Pangolin.Kdbx

open Store Utf8 Xml

variable {Body : Type}

/-- An element whose bytes are masked. -/
def isProtected (tag : Tag) : Bool :=
  (tag.attributes.find? fun pair => pair.1 = "Protected").any fun pair =>
    eqIgnoreAsciiCase pair.2 "true".toList

/-- The attribute as the reader finds it. -/
theorem readProtectedAttr_reported (tag : Tag) :
    readProtectedAttr tag.reported = .ok (isProtected tag) := by
  obtain ⟨name, attributes⟩ := tag
  simp only [Tag.reported, isProtected]
  induction attributes with
  | nil => rfl
  | cons pair rest ih =>
      obtain ⟨key, value⟩ := pair
      by_cases named : key = "Protected"
      · simp [readProtectedAttr, named]
      · simp [readProtectedAttr, named, ih]

section

variable (decodeBase64 : List UInt8 → Option (List UInt8)) (spell : Body → List Piece)

/-- What reading a forest in an element adds to its text and to what was found. -/
def walk (parent : Option String) : Forest Body → Text → Collected →
    Except KdbxError (Text × Collected)
  | .nil, text, found => .ok (text, found)
  | .piece part rest, text, found => walk parent rest (text ++ part.content) found
  | .empty tag rest, text, found => do
      let found ← onEnd decodeBase64 tag.name [] parent
        (onStart tag.name (isProtected tag) parent found)
      walk parent rest text found
  | .element tag inner rest, _, found => do
      let (text, found) ← walk (some tag.name) inner []
        (onStart tag.name (isProtected tag) parent found)
      let found ← onEnd decodeBase64 tag.name text parent found
      walk parent rest [] found
  | .body tag inside rest, _, found => do
      let found ← onEnd decodeBase64 tag.name (written (spell inside)) parent
        (onStart tag.name (isProtected tag) parent found)
      walk parent rest [] found

/-- The limits of the reader.  Its own count of events has the end of the document in it. -/
structure WithinLimits (document : Forest Body) : Prop where
  events_lt : (document.events spell).length < maxEvents
  depth_le : document.depth ≤ maxDepth
  texts_le : ∀ text ∈ document.content :: document.texts spell,
    (encode text).length ≤ maxTextBytes

/-- The loop over the events, without the count. -/
def readAll : List Event → Walker → Except KdbxError Walker
  | [], walker => .ok walker
  | event :: rest, walker => do
      let walker ← walker.step decodeBase64 event
      readAll rest walker

variable {decodeBase64} {spell}

theorem readEvents_eq {document : List Event} {events : Nat} {walker : Walker}
    (few : events + document.length < maxEvents) :
    readEvents decodeBase64 events (document.map .ok) walker =
      readAll decodeBase64 document walker := by
  induction document generalizing events walker with
  | nil => exact if_neg (Nat.not_lt.mpr few)
  | cons event rest ih =>
      rw [List.length_cons] at few
      simp only [List.map_cons, readEvents, readAll]
      rw [if_neg (by omega)]
      congr 1
      funext walker
      exact ih (by omega)

variable {path : List String} {text : Text} {found : Collected} {tail : List Event}

theorem length_encode_append (first second : Text) :
    (encode (first ++ second)).length = (encode first).length + (encode second).length := by
  rw [encode, List.flatMap_append, List.length_append]
  rfl

/-- A piece of text is collected. -/
theorem readAll_piece (part : Piece)
    (short : (encode (text ++ part.content)).length ≤ maxTextBytes) :
    readAll decodeBase64 (part.event :: tail) ⟨path, text, found⟩ =
      readAll decodeBase64 tail ⟨path, text ++ part.content, found⟩ := by
  rw [length_encode_append] at short
  cases part with
  | text content =>
      simp only [readAll, Piece.event, Piece.content, Walker.step, Walker.push] at short ⊢
      rw [if_neg (Nat.not_lt.mpr short)]
      rfl
  | cdata content =>
      simp only [readAll, Piece.event, Piece.content, Walker.step, Walker.push] at short ⊢
      rw [if_neg (Nat.not_lt.mpr short)]
      rfl
  | aside =>
      simp only [readAll, Piece.event, Piece.content, Walker.step, List.append_nil]
      rfl

theorem readAll_pieces (parts : List Piece)
    (short : (encode (text ++ written parts)).length ≤ maxTextBytes) :
    readAll decodeBase64 (parts.map Piece.event ++ tail) ⟨path, text, found⟩ =
      readAll decodeBase64 tail ⟨path, text ++ written parts, found⟩ := by
  induction parts generalizing text with
  | nil => rw [written, List.flatMap_nil, List.append_nil, List.map_nil, List.nil_append]
  | cons part parts ih =>
      have joined : text ++ written (part :: parts) = text ++ part.content ++ written parts := by
        rw [written, List.flatMap_cons, List.append_assoc]
        rfl
      rw [joined] at short ⊢
      have first : (encode (text ++ part.content)).length ≤ maxTextBytes := by
        rw [length_encode_append] at short
        exact Nat.le_trans (Nat.le_add_right _ _) short
      rw [List.map_cons, List.cons_append, readAll_piece part first, ih short]

/-- The start of an element. -/
theorem readAll_start (tag : Tag) (shallow : path.length < maxDepth) :
    readAll decodeBase64 (.start tag.name tag.reported :: tail) ⟨path, text, found⟩ =
      readAll decodeBase64 tail
        ⟨tag.name :: path, [], onStart tag.name (isProtected tag) path.head? found⟩ := by
  simp only [readAll, Walker.step]
  rw [if_neg (Nat.not_le.mpr shallow), readProtectedAttr_reported]
  rfl

/-- A self-closing element. -/
theorem readAll_empty (tag : Tag) :
    readAll decodeBase64 (.empty tag.name tag.reported :: tail) ⟨path, text, found⟩ =
      (onEnd decodeBase64 tag.name [] path.head?
        (onStart tag.name (isProtected tag) path.head? found) >>= fun found =>
          readAll decodeBase64 tail ⟨path, text, found⟩) := by
  simp only [readAll, Walker.step, readProtectedAttr_reported]
  change (onEnd _ _ _ _ _ >>= _) >>= _ = _
  rw [bind_assoc]
  rfl

/-- The end of an element. -/
theorem readAll_close (name : String) :
    readAll decodeBase64 (.close :: tail) ⟨name :: path, text, found⟩ =
      (onEnd decodeBase64 name text path.head? found >>= fun found =>
        readAll decodeBase64 tail ⟨path, [], found⟩) := by
  simp only [readAll, Walker.step, bind_assoc]
  rfl

variable (decodeBase64 spell path text found tail) in
/-- Reading the events of a forest is a walk over it. -/
theorem readAll_events (document : Forest Body) (shallow : path.length + document.depth ≤ maxDepth)
    (short : (encode (text ++ document.content)).length ≤ maxTextBytes)
    (texts : ∀ inside ∈ document.texts spell, (encode inside).length ≤ maxTextBytes) :
    readAll decodeBase64 (document.events spell ++ tail) ⟨path, text, found⟩ =
      (walk decodeBase64 spell path.head? document text found >>= fun result =>
        readAll decodeBase64 tail ⟨path, result.1, result.2⟩) := by
  induction document generalizing path text found tail with
  | nil => rfl
  | piece part rest ih =>
      rw [Forest.content, ← List.append_assoc] at short
      rw [Forest.events, List.cons_append, readAll_piece part, walk]
      · exact ih _ _ _ _ shallow short texts
      · rw [length_encode_append] at short
        exact Nat.le_trans (Nat.le_add_right _ _) short
  | empty tag rest ih =>
      rw [Forest.events, List.cons_append, walk, readAll_empty, bind_assoc]
      congr 1
      funext found
      exact ih _ _ _ _ shallow short texts
  | element tag inner rest ihInner ihRest =>
      have deep : path.length + (inner.depth + 1) ≤ maxDepth :=
        Nat.le_trans (Nat.add_le_add_left (Nat.le_max_left _ _) _) shallow
      have wide : path.length + rest.depth ≤ maxDepth :=
        Nat.le_trans (Nat.add_le_add_left (Nat.le_max_right _ _) _) shallow
      rw [Forest.events, List.cons_append, List.append_assoc, List.cons_append, walk, readAll_start,
        ihInner _ _ _ _ (by rw [List.length_cons]; omega) (texts _ List.mem_cons_self), bind_assoc]
      · congr 1
        funext result
        rw [readAll_close, bind_assoc]
        congr 1
        funext found
        apply ihRest _ _ _ _ wide
        · rw [Forest.content, length_encode_append] at short
          exact Nat.le_trans (Nat.le_add_left _ _) short
        · intro inside member
          exact texts inside (List.mem_cons_of_mem _ (List.mem_append_right _ member))
      · intro inside member
        exact texts inside (List.mem_cons_of_mem _ (List.mem_append_left _ member))
      · omega
  | body tag inside rest ih =>
      have deep : path.length + 1 ≤ maxDepth :=
        Nat.le_trans (Nat.add_le_add_left (Nat.le_max_left _ _) _) shallow
      have wide : path.length + rest.depth ≤ maxDepth :=
        Nat.le_trans (Nat.add_le_add_left (Nat.le_max_right _ _) _) shallow
      rw [Forest.events, List.cons_append, List.append_assoc, List.cons_append, walk, readAll_start,
        readAll_pieces, readAll_close, bind_assoc]
      · congr 1
        funext found
        apply ih _ _ _ _ wide
        · rw [Forest.content, length_encode_append] at short
          exact Nat.le_trans (Nat.le_add_left _ _) short
        · intro other member
          exact texts other (List.mem_cons_of_mem _ member)
      · exact texts _ List.mem_cons_self
      · exact deep

end

end Pangolin.Kdbx
