import FeedAudit.Expectation.Spec
import FeedAudit.Json.Decode

/-!
# Expectation files

An expectation is kept in a JSON file. Every field has a canonical name, and most may be given under
another one as well; the names may be mixed. Ids may be numbers, which stand for their text; what an
element does not ask for is left out or `null`. Writing an expectation uses the canonical names of
the fields, leaves out what is absent and keeps empty lists.
-/

namespace FeedAudit

open Json

/-! ## Reading -/

/-- A value pattern is written as its text. -/
def Pattern.decode (t : Tree) : Except DecodeFault Pattern :=
  (decodeText "a string" t).map Pattern.parse

/-- The fields of an attribute. -/
inductive AttributeField where
  | id
  | name
  | expected
  deriving DecidableEq, Repr

/-- How an attribute is written, with the given room inside. -/
def attributeLayout (room : Nat) : Layout AttributeField AttributeSpec where
  wanted := "struct AttributeSpec"
  fields := [.id, .name, .expected]
  name
    | .id => "id"
    | .name => "name"
    | .expected => "expected_value"
  otherName
    | .id => some "attribute_id"
    | .name => some "attribute_name"
    | .expected => some "attribute_value"
  required
    | .id => false
    | _ => true
  start := ⟨"", "", .literal ""⟩
  take
    | .id, t, a => (decodeId room t).map fun id => { a with id }
    | .name, t, a => (decodeText "a string" t).map fun name => { a with name }
    | .expected, t, a => (Pattern.decode t).map fun expected => { a with expected }

/-- Reads an attribute. -/
def AttributeSpec.decode (room : Nat) (t : Tree) : Except DecodeFault AttributeSpec :=
  (attributeLayout (room - 1)).decode (room != 0) t

/-- The fields of an element. -/
inductive ElementField where
  | id
  | name
  | value
  | attributes
  | children
  deriving DecidableEq, Repr

/-- How an element is written, with the given room inside and a way to read its children. -/
def elementLayout (room : Nat) (readChildren : Tree → Except DecodeFault (List ElementSpec)) :
    Layout ElementField ElementSpec where
  wanted := "struct ElementSpec"
  fields := [.id, .name, .value, .attributes, .children]
  name
    | .id => "id"
    | .name => "name"
    | .value => "expected_value"
    | .attributes => "attributes"
    | .children => "children"
  otherName
    | .id => some "element_id"
    | .name => some "element_name"
    | .value => some "element_value"
    | .attributes => none
    | .children => some "child_elements"
  required
    | .name => true
    | _ => false
  start := .existing "" ""
  take
    | .id, t, e => (decodeId room t).map fun id => { e with id }
    | .name, t, e => (decodeText "a string" t).map fun name => { e with name }
    | .value, t, e => (decodeOptional Pattern.decode t).map fun value => { e with value }
    | .attributes, t, e =>
      (decodeOptional (decodeList room (AttributeSpec.decode (room - 1))) t).map fun attributes =>
        { e with attributes }
    | .children, t, e =>
      (decodeOptional readChildren t).map fun children => { e with children }

/-- Reads an element; its children have two levels less of room, one for their list and one for
the element itself. -/
def ElementSpec.decode : Nat → Tree → Except DecodeFault ElementSpec
  | 0, t => (elementLayout 0 (decodeList 0 fun _ => .error .malformed)).decode false t
  | 1, t => (elementLayout 0 (decodeList 0 fun _ => .error .malformed)).decode true t
  | room + 2, t =>
    (elementLayout (room + 1) (decodeList (room + 1) (ElementSpec.decode room))).decode true t

/-- The fields of an expectation. -/
inductive ContainerField where
  | container
  | elements
  deriving DecidableEq, Repr

/-- How an expectation is written, with the given room inside. -/
def containerLayout (room : Nat) : Layout ContainerField ContainerSpec where
  wanted := "struct ContainerSpec"
  fields := [.container, .elements]
  name
    | .container => "container_selector"
    | .elements => "elements"
  otherName
    | .container => some "container"
    | .elements => none
  required _ := true
  start := ⟨"", []⟩
  take
    | .container, t, s => (decodeText "a string" t).map fun container => { s with container }
    | .elements, t, s =>
      (decodeList room (ElementSpec.decode (room - 1)) t).map fun elements => { s with elements }

/-- Reads an expectation. -/
def ContainerSpec.decode (room : Nat) (t : Tree) : Except DecodeFault ContainerSpec :=
  (containerLayout (room - 1)).decode (room != 0) t

/-- Reads the text of an expectation file. -/
def ContainerSpec.ofText (s : String) : Except DecodeFault ContainerSpec :=
  decodeDocument (ContainerSpec.decode nestingLimit) s

/-! ## Writing -/

/-- A text as a tree. -/
def Json.Tree.ofText (s : String) : Tree := .string (some s)

/-- An object of which some members may be left out. -/
def Json.Tree.record (members : List (Option (String × Tree))) : Tree :=
  .object ((members.filterMap id).map fun (key, t) => (some key, t)) true

/-- The tree of an attribute. -/
def AttributeSpec.encode (a : AttributeSpec) : Tree :=
  .record [some ("id", .ofText a.id), some ("name", .ofText a.name),
    some ("expected_value", .ofText a.expected.text)]

mutual

/-- The tree of an element. -/
def ElementSpec.encode : ElementSpec → Tree
  | ⟨id, name, value, attributes, children⟩ =>
    .record [some ("id", .ofText id), some ("name", .ofText name),
      value.map fun p => ("expected_value", .ofText p.text),
      attributes.map fun as => ("attributes", .array (as.map AttributeSpec.encode) true),
      (ElementSpec.encodeOption children).map fun t => ("children", t)]

/-- The tree of a list of children that may be absent. -/
def ElementSpec.encodeOption : Option (List ElementSpec) → Option Tree
  | none => none
  | some es => some (.array (ElementSpec.encodeList es) true)

/-- The trees of elements. -/
def ElementSpec.encodeList : List ElementSpec → List Tree
  | [] => []
  | e :: rest => e.encode :: ElementSpec.encodeList rest

end

/-- The tree of an expectation. -/
def ContainerSpec.encode (s : ContainerSpec) : Tree :=
  .record [some ("container_selector", .ofText s.container),
    some ("elements", .array (ElementSpec.encodeList s.elements) true)]

end FeedAudit
