import Mathlib.Order.Basic
import Mathlib.Data.List.Basic

/-!
# XML documents and their events

A document is a forest of elements, texts and asides (comments, processing instructions and
declarations).  A pull parser reports it from left to right as a list of events; a malformed text
or attribute is reported where it stands.  Some elements only have a body; what their bodies are
is left open, and a spelling of bodies makes the document a text.
-/

namespace Xml

universe u v

/-! ## Events -/

structure Attribute where
  key : String
  value : Except String (List Char)

/-- What a pull parser reports. -/
inductive Event where
  | start (name : String) (attributes : List (Except String Attribute))
  | empty (name : String) (attributes : List (Except String Attribute))
  | text (content : Except String (List Char))
  | cdata (content : List Char)
  | close
  | aside

/-! ## Documents -/

/-- A piece of an element's text. -/
inductive Piece where
  | text (content : List Char)
  | cdata (content : List Char)
  | aside
  deriving Repr, DecidableEq

def Piece.content : Piece → List Char
  | .text content => content
  | .cdata content => content
  | .aside => []

def Piece.event : Piece → Event
  | .text content => .text (.ok content)
  | .cdata content => .cdata content
  | .aside => .aside

/-- The text of an element that has no elements. -/
def written (pieces : List Piece) : List Char := pieces.flatMap Piece.content

structure Tag where
  name : String
  attributes : List (String × List Char)
  deriving Repr, DecidableEq

/-- The attributes as they are reported. -/
def Tag.reported (tag : Tag) : List (Except String Attribute) :=
  tag.attributes.map fun pair => .ok ⟨pair.1, .ok pair.2⟩

/-- Elements and texts next to each other, with the elements inside them: a self-closing element,
an element with what is inside it, or an element that has a body only. -/
inductive Forest (Body : Type u) where
  | nil
  | piece (piece : Piece) (rest : Forest Body)
  | empty (tag : Tag) (rest : Forest Body)
  | element (tag : Tag) (inner rest : Forest Body)
  | body (tag : Tag) (body : Body) (rest : Forest Body)
  deriving Repr, DecidableEq

namespace Forest

variable {Body : Type u} {Other : Type v}

/-- The texts directly in an element. -/
def content : Forest Body → List Char
  | .nil => []
  | .piece part rest => part.content ++ rest.content
  | .empty _ rest => rest.content
  | .element _ _ rest => rest.content
  | .body _ _ rest => rest.content

/-- The bodies in document order. -/
def bodies : Forest Body → List Body
  | .nil => []
  | .piece _ rest => rest.bodies
  | .empty _ rest => rest.bodies
  | .element _ inner rest => inner.bodies ++ rest.bodies
  | .body _ inside rest => inside :: rest.bodies

/-- How many elements are open at once at most. -/
def depth : Forest Body → Nat
  | .nil => 0
  | .piece _ rest => rest.depth
  | .empty _ rest => rest.depth
  | .element _ inner rest => max (inner.depth + 1) rest.depth
  | .body _ _ rest => max 1 rest.depth

/-- The document with other bodies. -/
def map (change : Body → Other) : Forest Body → Forest Other
  | .nil => .nil
  | .piece part rest => .piece part (rest.map change)
  | .empty tag rest => .empty tag (rest.map change)
  | .element tag inner rest => .element tag (inner.map change) (rest.map change)
  | .body tag inside rest => .body tag (change inside) (rest.map change)

section

variable (spell : Body → List Piece)

/-- The events of a document whose bodies are spelled in a way. -/
def events : Forest Body → List Event
  | .nil => []
  | .piece part rest => part.event :: rest.events
  | .empty tag rest => .empty tag.name tag.reported :: rest.events
  | .element tag inner rest =>
      .start tag.name tag.reported :: (inner.events ++ .close :: rest.events)
  | .body tag inside rest =>
      .start tag.name tag.reported :: ((spell inside).map Piece.event ++ .close :: rest.events)

/-- The texts of all elements. -/
def texts : Forest Body → List (List Char)
  | .nil => []
  | .piece _ rest => rest.texts
  | .empty _ rest => rest.texts
  | .element _ inner rest => inner.content :: (inner.texts ++ rest.texts)
  | .body _ inside rest => written (spell inside) :: rest.texts

end

variable {change : Body → Other} {spell : Other → List Piece} (document : Forest Body)

theorem content_map : (document.map change).content = document.content := by
  induction document with
  | nil => rfl
  | piece part rest ih => rw [map, content, content, ih]
  | empty tag rest ih => exact ih
  | element tag inner rest _ ih => exact ih
  | body tag inside rest ih => exact ih

theorem bodies_map : (document.map change).bodies = document.bodies.map change := by
  induction document with
  | nil => rfl
  | piece part rest ih => exact ih
  | empty tag rest ih => exact ih
  | element tag inner rest ihInner ihRest =>
      rw [map, bodies, bodies, ihInner, ihRest, List.map_append]
  | body tag inside rest ih => rw [map, bodies, bodies, ih, List.map_cons]

theorem depth_map : (document.map change).depth = document.depth := by
  induction document with
  | nil => rfl
  | piece part rest ih => exact ih
  | empty tag rest ih => exact ih
  | element tag inner rest ihInner ihRest => rw [map, depth, depth, ihInner, ihRest]
  | body tag inside rest ih => rw [map, depth, depth, ih]

theorem events_map :
    (document.map change).events spell = document.events fun inside => spell (change inside) := by
  induction document with
  | nil => rfl
  | piece part rest ih => rw [map, events, events, ih]
  | empty tag rest ih => rw [map, events, events, ih]
  | element tag inner rest ihInner ihRest => rw [map, events, events, ihInner, ihRest]
  | body tag inside rest ih => rw [map, events, events, ih]

theorem texts_map :
    (document.map change).texts spell = document.texts fun inside => spell (change inside) := by
  induction document with
  | nil => rfl
  | piece part rest ih => exact ih
  | empty tag rest ih => exact ih
  | element tag inner rest ihInner ihRest =>
      rw [map, texts, texts, content_map, ihInner, ihRest]
  | body tag inside rest ih => rw [map, texts, texts, ih]

end Forest

/-! ## Children -/

/-- What is inside an element. -/
inductive Inside (Body : Type u) where
  | forest (inner : Forest Body)
  | body (body : Body)

variable {Body : Type u}

namespace Forest

/-- The elements directly in a forest, with their names. -/
def children : Forest Body → List (String × Inside Body)
  | .nil => []
  | .piece _ rest => rest.children
  | .empty tag rest => (tag.name, .forest .nil) :: rest.children
  | .element tag inner rest => (tag.name, .forest inner) :: rest.children
  | .body tag inside rest => (tag.name, .body inside) :: rest.children

/-- The children of a name. -/
def named (name : String) (document : Forest Body) : List (Inside Body) :=
  (document.children.filter fun child => child.1 = name).map Prod.snd

/-- The last child of a name. -/
def last (name : String) (document : Forest Body) : Option (Inside Body) :=
  (document.named name).getLast?

variable {tag : Tag} {inner : Forest Body} {alone : Body}

theorem children_empty {rest : Forest Body} :
    (empty tag rest).children = (tag.name, .forest nil) :: rest.children := rfl

theorem children_element {rest : Forest Body} :
    (element tag inner rest).children = (tag.name, .forest inner) :: rest.children := rfl

theorem children_body {rest : Forest Body} :
    (body tag alone rest).children = (tag.name, .body alone) :: rest.children := rfl

variable {document rest : Forest Body} {first name : String} {inside : Inside Body}

@[simp] theorem named_nil : (nil : Forest Body).named name = [] := rfl

@[simp] theorem last_nil : (nil : Forest Body).last name = none := rfl

/-- The children of a name, when the first child is known. -/
theorem named_cons (leads : document.children = (first, inside) :: rest.children) :
    document.named name = (if first = name then [inside] else []) ++ rest.named name := by
  simp only [named, leads, List.filter_cons]
  split <;> split <;> simp_all

theorem last_cons (leads : document.children = (first, inside) :: rest.children) :
    document.last name = (rest.last name).or (if first = name then some inside else none) := by
  rw [last, named_cons leads, List.getLast?_append]
  split <;> rfl

end Forest

/-- The children of what is inside an element. -/
def Inside.named (name : String) : Inside Body → List (Inside Body)
  | .forest inner => inner.named name
  | .body _ => []

/-- The text of an element. -/
def Inside.text (spell : Body → List Piece) : Inside Body → List Char
  | .forest inner => inner.content
  | .body inside => written (spell inside)

end Xml
