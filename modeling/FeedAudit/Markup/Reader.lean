import FeedAudit.Markup.Node
import FeedAudit.Markup.Token
import FeedAudit.Text.Digits

/-!
# Reading documents

The tokens of a document are put together to a tree: every start tag opens an element, which the
end tag of the same name closes, and prefixes are replaced by the namespaces they are bound to.
References are replaced by the characters they stand for, which are then no longer subject to the
treatment of line ends and blanks that characters written directly get.
-/

namespace FeedAudit.Markup

/-! ## References -/

/-- A character of a text, with the way it was written. -/
inductive Piece where
  /-- A character that stands for itself. -/
  | direct (c : Char)
  /-- A character given by a reference. -/
  | referred (c : Char)
  deriving DecidableEq, Repr

/-- The character with a number. A number that belongs to no character stands for the replacement
character, one of more than 32 bits for nothing. -/
def numberedCharacter? (n : Nat) : Option Char :=
  if Nat.pow 2 32 ≤ n then none
  else
    let c := if n.isValidChar then Char.ofNat n else '\uFFFD'
    if isAllowed c then some c else none

/-- The character that a reference stands for, given what is between its ends. -/
def referenceOf? : List Char → Option Char
  | '#' :: 'x' :: digits => (Text.hexNumber? digits).bind numberedCharacter?
  | '#' :: digits => (Text.decimalNumber? digits).bind numberedCharacter?
  | ['q', 'u', 'o', 't'] => some '"'
  | ['a', 'm', 'p'] => some '&'
  | ['a', 'p', 'o', 's'] => some '\''
  | ['l', 't'] => some '<'
  | ['g', 't'] => some '>'
  | _ => none

/-- The pieces of what stands behind an ampersand up to the next one. -/
def referencePieces (cs : List Char) : Except MarkupFault (List Piece) :=
  match Text.splitFirstChars ';' cs with
  | none => .error .badReference
  | some (body, rest) =>
    match referenceOf? body with
    | none => .error .badReference
    | some c => .ok (.referred c :: rest.map .direct)

/-- The pieces of a text or value as it is written. -/
def piecesOf (raw : List Char) : Except MarkupFault (List Piece) :=
  match Text.pieceChars '&' raw with
  | [] => .ok []
  | first :: others => do
    let referred ← others.mapM referencePieces
    return first.map .direct ++ referred.flatten

/-! ## Line ends and blanks -/

/-- The characters of a text. A carriage return, together with a line feed that follows it, is one
line feed; only where a reference comes next, or came before and nothing follows, does it stay. -/
def textChars (afterReference : Bool) : List Piece → List Char
  | [] => []
  | .referred c :: rest => c :: textChars true rest
  | .direct '\r' :: .direct '\n' :: rest => '\n' :: textChars false rest
  | .direct '\r' :: .referred c :: rest => '\r' :: c :: textChars true rest
  | [.direct '\r'] => if afterReference then ['\r'] else ['\n']
  | .direct c :: rest => (if c = '\r' then '\n' else c) :: textChars false rest

/-- The characters of an attribute value. Tabs and line ends become spaces, a carriage return with
a line feed just one. -/
def valueChars : List Piece → List Char
  | [] => []
  | .referred c :: rest => c :: valueChars rest
  | .direct '\r' :: .direct '\n' :: rest => ' ' :: valueChars rest
  | .direct c :: rest => (if c = '\t' ∨ c = '\n' ∨ c = '\r' then ' ' else c) :: valueChars rest

/-- The text that stands for a text token. -/
def textOf (raw : List Char) : Except MarkupFault String :=
  (piecesOf raw).map fun pieces => String.ofList (textChars false pieces)

/-- The text of character data, in which there are no references. -/
def characterDataOf (raw : List Char) : String :=
  String.ofList (textChars false (raw.map .direct))

/-- The value of an attribute. -/
def valueOf (raw : List Char) : Except MarkupFault String :=
  (piecesOf raw).map fun pieces => String.ofList (valueChars pieces)

/-! ## Namespaces -/

/-- The namespace of declarations, to which nothing may be bound. -/
def declarationSpace : String := "http://www.w3.org/2000/xmlns/"

/-- An attribute with its value, and whether it is a declaration. -/
inductive Given where
  | binding (b : Binding)
  /-- The reserved prefix bound to its own namespace, which changes nothing. -/
  | nothing
  | attribute (name : TagName) (value : String)

/-- Tells declarations and attributes apart. -/
def givenOf (a : TagAttribute) : Except MarkupFault Given := do
  let value ← valueOf a.value
  if a.name.nsPrefix = "xmlns" then
    if value = declarationSpace then .error (.badBinding a.name.localName)
    else if a.name.localName = "xml" then
      if value = reservedSpace then .ok .nothing else .error (.badBinding "xml")
    else if value = reservedSpace then .error (.badBinding a.name.localName)
    else .ok (.binding ⟨some a.name.localName, value⟩)
  else if a.name.localName = "xmlns" then
    if value = reservedSpace ∨ value = declarationSpace then .error (.badBinding "xmlns")
    else .ok (.binding ⟨none, value⟩)
  else .ok (.attribute a.name value)

/-- The declarations of an element, in which no prefix may be bound twice. -/
def bindingsOf (seen : List Binding) : List Given → Except MarkupFault (List Binding)
  | [] => .ok seen.reverse
  | .binding b :: rest =>
    match b.nsPrefix with
    | some p =>
      if seen.any fun s => s.nsPrefix == some p then .error (.badBinding p)
      else bindingsOf (b :: seen) rest
    | none => bindingsOf (b :: seen) rest
  | _ :: rest => bindingsOf seen rest

/-- The name of an element in a scope; without a prefix the default namespace counts. -/
def elementName (scope : Scope) (n : TagName) : Except MarkupFault ExpandedName :=
  if n.nsPrefix = "xmlns" then .error (.unboundPrefix n.nsPrefix)
  else if n.nsPrefix = "" then .ok ⟨scope.lookup none, n.localName⟩
  else
    match scope.lookup (some n.nsPrefix) with
    | some space => .ok ⟨some space, n.localName⟩
    | none => .error (.unboundPrefix n.nsPrefix)

/-- The name of an attribute in a scope; without a prefix it has no namespace. -/
def attributeName (scope : Scope) (n : TagName) : Except MarkupFault ExpandedName :=
  if n.nsPrefix = "xml" then .ok ⟨some reservedSpace, n.localName⟩
  else if n.nsPrefix = "" then .ok ⟨none, n.localName⟩
  else
    match scope.lookup (some n.nsPrefix) with
    | some space => .ok ⟨some space, n.localName⟩
    | none => .error (.unboundPrefix n.nsPrefix)

/-- The attributes of an element, of which no two may have one name. -/
def attributesOf (scope : Scope) (seen : List Attribute) :
    List Given → Except MarkupFault (List Attribute)
  | [] => .ok seen.reverse
  | .attribute n value :: rest =>
    match attributeName scope n with
    | .error fault => .error fault
    | .ok name =>
      if seen.any fun s => s.name == name then .error (.duplicateAttribute n.text)
      else attributesOf scope (⟨name, value⟩ :: seen) rest
  | _ :: rest => attributesOf scope seen rest

/-! ## Building the tree -/

/-- An element that is open, with what was read of it, newest first. -/
structure OpenElement where
  tag : TagName
  name : ExpandedName
  bindings : List Binding
  attributes : List Attribute
  scope : Scope
  children : List Node

/-- The element that is closed now. -/
def OpenElement.close (e : OpenElement) : Node :=
  .element e.name e.bindings e.attributes e.children.reverse

/-- What has been read of a document, newest first. -/
structure Builder where
  before : List Node := []
  stack : List OpenElement := []
  root : Option OpenElement := none
  after : List Node := []

namespace Builder

/-- Adds a node that may stand anywhere. -/
def add (b : Builder) (n : Node) : Builder :=
  match b.stack with
  | e :: rest => { b with stack := { e with children := n :: e.children } :: rest }
  | [] =>
    match b.root with
    | none => { b with before := n :: b.before }
    | some _ => { b with after := n :: b.after }

/-- Opens an element. -/
def openElement (b : Builder) (tag : TagName) (attributes : List TagAttribute) :
    Except MarkupFault Builder := do
  if b.stack.isEmpty && b.root.isSome then .error .outsideRoot
  let given ← attributes.mapM givenOf
  let bindings ← bindingsOf [] given
  let scope := bindings ++ (b.stack.head?.map (·.scope)).getD []
  let name ← elementName scope tag
  let attributes ← attributesOf scope [] given
  return { b with stack := ⟨tag, name, bindings, attributes, scope, []⟩ :: b.stack }

/-- Closes the element that was opened last. -/
def closeElement (b : Builder) : Builder :=
  match b.stack with
  | [] => b
  | [e] => { b with stack := [], root := some e }
  | e :: parent :: rest =>
    { b with stack := { parent with children := e.close :: parent.children } :: rest }

/-- Adds a token. -/
def step (b : Builder) : Token → Except MarkupFault Builder
  | .openTag tag attributes isEmpty => do
    let opened ← b.openElement tag attributes
    return if isEmpty then opened.closeElement else opened
  | .closeTag tag =>
    match b.stack with
    | e :: _ => if e.tag = tag then .ok b.closeElement else .error (.mismatchedTag tag.text)
    | [] => .error (.mismatchedTag tag.text)
  | .text raw =>
    if b.stack.isEmpty then if raw.all isSpace then .ok b else .error .outsideRoot
    else (textOf raw).map fun s => b.add (.text s)
  | .characterData raw =>
    if b.stack.isEmpty then .error .outsideRoot else .ok (b.add (.text (characterDataOf raw)))
  | .comment content => .ok (b.add (.comment (String.ofList content)))
  | .instruction target content =>
    .ok (b.add (.instruction (String.ofList target) (String.ofList content)))

/-- Adds tokens one after the other. -/
def run (b : Builder) : List Token → Except MarkupFault Builder
  | [] => .ok b
  | token :: rest =>
    match b.step token with
    | .ok b => b.run rest
    | .error fault => .error fault

/-- The document when all tokens have been added. -/
def finish (b : Builder) : Except MarkupFault Document :=
  if !b.stack.isEmpty then .error .unclosed
  else
    match b.root with
    | none => .error .noRoot
    | some e =>
      .ok ⟨b.before.reverse, e.name, e.bindings, e.attributes, e.children.reverse,
        b.after.reverse⟩

end Builder

/-- Reads a document. -/
def Document.read (s : String) : Except MarkupFault Document := do
  let tokens ← tokens s.toList
  let built ← ({} : Builder).run tokens
  built.finish

end FeedAudit.Markup
