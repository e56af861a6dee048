import Mathlib.Data.List.Basic
import Mathlib.Tactic.Common

/-! # Documents as trees

Elements with their attributes and children, and texts. An element is found by its name in the order of
the document, where an element comes before what it holds.
-/

namespace Tr069Agent.Library

set_option autoImplicit false

inductive Xml (α : Type) where
  | element (name : α) (attributes : List (α × α)) (children : List (Xml α))
  | text (value : α)

namespace Xml

variable {α : Type}

def name : Xml α → Option α
  | .element name _ _ => some name
  | .text _ => none

def children : Xml α → List (Xml α)
  | .element _ _ children => children
  | .text _ => []

def attributes : Xml α → List (α × α)
  | .element _ attributes _ => attributes
  | .text _ => []

/-- The text with which an element begins. -/
def nodeValue (node : Xml α) : Option α :=
  match node.children with
  | .text value :: _ => some value
  | _ => none

/-- The element with a text and nothing else. -/
def leaf (name : α) (value : Option α) : Xml α := .element name [] (value.toList.map .text)

section Search

variable [DecidableEq α]

def attributeValue (key : α) (node : Xml α) : Option α := node.attributes.lookup key

mutual

/-- The elements of that name, the element itself among them. -/
def elementsByTagName (tag : α) : Xml α → List (Xml α)
  | .element name attributes children =>
    (if name = tag then [.element name attributes children] else []) ++ elementsOfList tag children
  | .text _ => []

def elementsOfList (tag : α) : List (Xml α) → List (Xml α)
  | [] => []
  | node :: rest => elementsByTagName tag node ++ elementsOfList tag rest

end

def firstByTagName (tag : α) (node : Xml α) : Option (Xml α) := (elementsByTagName tag node).head?

mutual

/-- The first element of that name is changed; none where there is no such element. -/
def modifyFirst (tag : α) (f : Xml α → Xml α) : Xml α → Option (Xml α)
  | .element name attributes children =>
    if name = tag then some (f (.element name attributes children))
    else (modifyFirstOfList tag f children).map (.element name attributes ·)
  | .text _ => none

def modifyFirstOfList (tag : α) (f : Xml α → Xml α) : List (Xml α) → Option (List (Xml α))
  | [] => none
  | node :: rest =>
    match modifyFirst tag f node with
    | some node => some (node :: rest)
    | none => (modifyFirstOfList tag f rest).map (node :: ·)

end

theorem firstByTagName_self (tag : α) (attributes : List (α × α)) (children : List (Xml α)) :
    firstByTagName tag (.element tag attributes children) = some (.element tag attributes children) := by
  simp [firstByTagName, elementsByTagName]

theorem firstByTagName_of_ne {tag name : α} (h : name ≠ tag) (attributes : List (α × α))
    (children : List (Xml α)) :
    firstByTagName tag (.element name attributes children) = children.findSome? (firstByTagName tag) := by
  have hList : ∀ nodes : List (Xml α),
      (elementsOfList tag nodes).head? = nodes.findSome? (firstByTagName tag) := by
    intro nodes
    induction nodes with
    | nil => rfl
    | cons node rest ih =>
      simp only [elementsOfList, List.head?_append, ih, List.findSome?_cons, firstByTagName]
      cases (elementsByTagName tag node).head? <;> rfl
  simp [firstByTagName, elementsByTagName, h, hList]

end Search

end Xml

end Tr069Agent.Library
