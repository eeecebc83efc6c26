import FeedAudit.Markup.Node
import FeedAudit.Markup.Selector

/-!
# Selections

A *place* is an element of a document, or the document itself, together with what its surroundings
say about it: its rank in document order and the namespace bindings in force. A *selection* is a
list of places. Selecting a name below a selection finds, in document order and each once, the
elements of that name that stand below one of its places.

A prefix is looked up at the place below which is searched, so it may mean different namespaces for
different places; where it is not bound, the whole selection is faulted.
-/

namespace FeedAudit

open Markup

/-! ## Places -/

/-- An element, or the document when it has no name, where it stands. -/
structure Place where
  /-- The number of elements that start before it, the document counted as one. -/
  rank : Nat
  name : Option ExpandedName
  scope : Scope
  attributes : List Attribute
  children : List Node
  deriving Inhabited, Repr

namespace Markup.Node

mutual

/-- The number of elements in a node. -/
def elementCount : Node → Nat
  | .element _ _ _ children => 1 + elementCountOfList children
  | _ => 0

/-- The number of elements in nodes. -/
def elementCountOfList : List Node → Nat
  | [] => 0
  | n :: rest => n.elementCount + elementCountOfList rest

end

mutual

/-- The places of the elements in a node, in document order from the given rank. -/
def places (scope : Scope) (rank : Nat) : Node → List Place
  | .element name bindings attributes children =>
    ⟨rank, some name, bindings ++ scope, attributes, children⟩ ::
      placesOfList (bindings ++ scope) (rank + 1) children
  | _ => []

/-- The places of the elements in nodes, in document order from the given rank. -/
def placesOfList (scope : Scope) (rank : Nat) : List Node → List Place
  | [] => []
  | n :: rest => n.places scope rank ++ placesOfList scope (rank + n.elementCount) rest

end

end Markup.Node

namespace Place

/-- The document as a place; the bindings of the root element count for it. -/
def ofDocument (d : Document) : Place := ⟨0, none, d.rootBindings, [], [d.root]⟩

/-- The root element as a place. -/
def ofRoot (d : Document) : Place :=
  ⟨1, some d.rootName, d.rootBindings, d.rootAttributes, d.rootChildren⟩

/-- The places below a place, in document order. -/
def below (p : Place) : List Place := Node.placesOfList p.scope (p.rank + 1) p.children

/-- All text below a place. -/
def text (p : Place) : String := Node.textOfList p.children

/-- The value of the attribute with a given name. -/
def attribute? (p : Place) (name : ExpandedName) : Option String :=
  (p.attributes.find? fun a => a.name == name).map (·.value)

end Place

/-! ## Names at a place -/

namespace Selector

/-- The namespace that the prefix of a selector means at a place, if it has one. -/
def spaceAt (s : Selector) (p : Place) : Except Fault (Option String) :=
  match s.nsPrefix with
  | none => .ok none
  | some "xml" => .ok (some reservedSpace)
  | some nsPrefix =>
    match p.scope.lookup (some nsPrefix) with
    | some space => .ok (some space)
    | none => .error (.unbound nsPrefix s.written)

/-- Whether an element has the local name of a selector and, if one is wanted, the namespace. -/
def accepts (s : Selector) (space : Option String) (p : Place) : Bool :=
  match p.name with
  | none => false
  | some name => name.localName == s.localName && (space.isNone || name.space == space)

end Selector

/-! ## Selections -/

/-- Any places. What `Selection.select` finds below places of a document is in document order, and
no place is in it twice; a selection that is put together in another way may be neither. -/
structure Selection where
  places : List Place
  deriving Inhabited, Repr

namespace Selection

/-- Two lists of places in document order put together; what is in both is taken once. -/
def union : List Place → List Place → List Place
  | [], ys => ys
  | xs, [] => xs
  | x :: xs, y :: ys =>
    if x.rank < y.rank then x :: union xs (y :: ys)
    else if y.rank < x.rank then y :: union (x :: xs) ys
    else x :: union xs ys
termination_by xs ys => xs.length + ys.length

/-- The selection of the document, below which everything is found. -/
def ofDocument (d : Document) : Selection := ⟨[Place.ofDocument d]⟩

/-- The selection of a single place. -/
def ofPlace (p : Place) : Selection := ⟨[p]⟩

def isEmpty (s : Selection) : Bool := s.places.isEmpty

def size (s : Selection) : Nat := s.places.length

/-- The selections of the single places. -/
def split (s : Selection) : List Selection := s.places.map ofPlace

/-- The elements below one place that a selector names. -/
def selectBelow (name : Selector) (p : Place) : Except Fault (List Place) :=
  match name.spaceAt p with
  | .ok space => .ok (p.below.filter (name.accepts space))
  | .error fault => .error fault

/-- The elements below some places that a selector names. -/
def selectPlaces (name : Selector) : List Place → Except Fault (List Place)
  | [] => .ok []
  | p :: rest =>
    match selectBelow name p with
    | .error fault => .error fault
    | .ok found =>
      match selectPlaces name rest with
      | .error fault => .error fault
      | .ok others => .ok (union found others)

/-- The elements below a selection that a selector names. -/
def select (s : Selection) (name : Selector) : Except Fault Selection :=
  (selectPlaces name s.places).map fun places => ⟨places⟩

/-- All text below the places, one after the other. -/
def text (s : Selection) : String := String.join (s.places.map Place.text)

/-- The value of an attribute of the first place. Without a place there is no value, and without a
prefix only attributes without namespace count. -/
def attribute? (s : Selection) (name : Selector) : Except Fault (Option String) :=
  match s.places with
  | [] => .ok none
  | p :: _ =>
    match name.spaceAt p with
    | .ok space => .ok (p.attribute? ⟨space, name.localName⟩)
    | .error fault => .error fault

end Selection

end FeedAudit
