import FeedAudit.Expectation.Pattern

/-!
# Expectations

An expectation describes what a feed must contain: a selector for the repeating records, the
*containers*, and below each of them a tree of elements with the text, the attributes and the
children that they must have. An absent list asks for nothing, while an empty one asks for a check
that has nothing to compare.
-/

namespace FeedAudit

/-- An attribute that an element must have. -/
structure AttributeSpec where
  id : String
  name : String
  expected : Pattern
  deriving DecidableEq, Repr, Inhabited

/-- An element that must exist below its context. -/
structure ElementSpec where
  id : String
  name : String
  value : Option Pattern
  attributes : Option (List AttributeSpec)
  children : Option (List ElementSpec)
  deriving Repr, Inhabited

/-- The expectation of a feed. -/
structure ContainerSpec where
  container : String
  elements : List ElementSpec
  deriving Repr, Inhabited

/-! ## Building expectations -/

/-- An attribute whose pattern is given as text. -/
def AttributeSpec.ofText (id name expected : String) : AttributeSpec :=
  ⟨id, name, Pattern.parse expected⟩

namespace ElementSpec

/-- An element that must only exist. -/
def existing (id name : String) : ElementSpec := ⟨id, name, none, none, none⟩

def withValue (e : ElementSpec) (expected : String) : ElementSpec :=
  { e with value := some (Pattern.parse expected) }

def withAttributes (e : ElementSpec) (attributes : List AttributeSpec) : ElementSpec :=
  { e with attributes := some attributes }

def withChildren (e : ElementSpec) (children : List ElementSpec) : ElementSpec :=
  { e with children := some children }

/-! ## Counting -/

mutual

/-- The number of elements in an expectation, itself included. -/
def nodeCount : ElementSpec → Nat
  | ⟨_, _, _, _, children⟩ => 1 + nodeCountOption children

/-- The number of elements in a list that may be absent. -/
def nodeCountOption : Option (List ElementSpec) → Nat
  | none => 0
  | some es => nodeCountList es

/-- The number of elements in a list of expectations. -/
def nodeCountList : List ElementSpec → Nat
  | [] => 0
  | e :: rest => e.nodeCount + nodeCountList rest

end

end ElementSpec

/-- The number of element checks for each container. -/
def ContainerSpec.nodeCount (s : ContainerSpec) : Nat := ElementSpec.nodeCountList s.elements

end FeedAudit
