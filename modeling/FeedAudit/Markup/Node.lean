/-!
# Markup documents

A document is a tree of elements, texts, comments and processing instructions around one root
element. Names are expanded: each carries the namespace that its prefix was bound to, if any. The
namespace bindings that an element declares are kept as well, because selectors are resolved
against those in force at the place where they are looked up.
-/

namespace FeedAudit.Markup

/-- A name with its namespace. -/
structure ExpandedName where
  space : Option String
  localName : String
  deriving DecidableEq, Repr, Inhabited

/-- An attribute of an element. -/
structure Attribute where
  name : ExpandedName
  value : String
  deriving DecidableEq, Repr, Inhabited

/-- A declaration that binds a prefix, or the absence of one, to a namespace. -/
structure Binding where
  nsPrefix : Option String
  space : String
  deriving DecidableEq, Repr, Inhabited

/-- The namespace of the reserved prefix `xml`, which is bound without a declaration. -/
def reservedSpace : String := "http://www.w3.org/XML/1998/namespace"

/-- The bindings in force somewhere, the innermost first. -/
abbrev Scope := List Binding

/-- The namespace to which a prefix is bound in a scope. -/
def Scope.lookup (scope : Scope) (nsPrefix : Option String) : Option String :=
  (scope.find? fun b => b.nsPrefix == nsPrefix).map (·.space)

/-- A node of a document. -/
inductive Node where
  | element (name : ExpandedName) (bindings : List Binding) (attributes : List Attribute)
      (children : List Node)
  | text (content : String)
  | comment (content : String)
  | instruction (target content : String)
  deriving Inhabited, Repr

/-- A document: what stands before and after the root element, and its parts. -/
structure Document where
  before : List Node
  rootName : ExpandedName
  rootBindings : List Binding
  rootAttributes : List Attribute
  rootChildren : List Node
  after : List Node
  deriving Inhabited, Repr

/-- The root element as a node. -/
def Document.root (d : Document) : Node :=
  .element d.rootName d.rootBindings d.rootAttributes d.rootChildren

/-! ## Text -/

mutual

/-- The text below a node, its own included. -/
def Node.allText : Node → String
  | .element _ _ _ children => Node.textOfList children
  | .text content => content
  | .comment _ => ""
  | .instruction _ _ => ""

/-- The text below nodes, one after the other. -/
def Node.textOfList : List Node → String
  | [] => ""
  | n :: rest => n.allText ++ Node.textOfList rest

end

end FeedAudit.Markup
