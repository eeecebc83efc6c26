import FeedAudit.Text.Alphanumeric
import FeedAudit.Text.Piece

/-!
# Selectors

A *selector* is the name of an element or attribute as an expectation file writes it: a local name,
or a namespace prefix and a local name with a colon or a bar in between. Both delimiters mean the
same, and the bar is the one used when a selector is shown in its translated form.

`Selector.parse` checks a name in a fixed order, so that a name with several faults always has the
same one reported: it is empty, it has a character that no name may have, it has more than one
delimiter, or one of its parts is empty.
-/

namespace FeedAudit

open Text

/-! ## Faults -/

/-- What is wrong with a name. -/
inductive NameFault where
  | empty
  /-- The first character that no name may have. -/
  | unsupported (c : Char)
  | manyPrefixes
  | emptyPart
  deriving DecidableEq, Repr

/-- The fault in words. -/
def NameFault.message : NameFault → String
  | .empty => "empty name"
  | .unsupported c => s!"unsupported character '{c}'"
  | .manyPrefixes => "more than one namespace prefix"
  | .emptyPart => "empty prefix or local name"

/-- Why a single comparison could not be carried out. -/
inductive Fault where
  /-- The name is not a selector. -/
  | malformed (name reason : String)
  /-- The prefix of the selector is not bound where it is looked up. -/
  | unbound (nsPrefix name : String)
  deriving DecidableEq, Repr

/-- The fault in words. -/
def Fault.message : Fault → String
  | .malformed name reason => s!"Invalid selector '{name}': {reason}"
  | .unbound nsPrefix name => s!"Unbound namespace prefix '{nsPrefix}' in selector '{name}'"

/-! ## Selectors -/

/-- A name taken apart: as it was written, its prefix if it has one, and its local name. -/
structure Selector where
  written : String
  nsPrefix : Option String
  localName : String
  deriving DecidableEq, Repr, Inhabited

namespace Selector

/-- The delimiter between prefix and local name in the translated form. -/
def delimiter : Char := '|'

/-- The characters that a name may have. -/
def allows (c : Char) : Bool :=
  isAlphanumeric c || c == '_' || c == '-' || c == '.' || c == ':' || c == '|'

/-- A character of a name with both delimiters made one. -/
def translateChar (c : Char) : Char := if c = ':' then delimiter else c

/-- The parts of a name between its delimiters. -/
def parts (name : List Char) : List (List Char) :=
  pieceChars delimiter (name.map translateChar)

/-- Reads the prefix and the local name of a name. -/
def split (name : List Char) : Except NameFault (Option (List Char) × List Char) :=
  if name = [] then .error .empty
  else
    match name.find? (fun c => !allows c) with
    | some c => .error (.unsupported c)
    | none =>
      match parts name with
      | [localPart] => if localPart = [] then .error .emptyPart else .ok (none, localPart)
      | [before, localPart] =>
        if localPart = [] ∨ before = [] then .error .emptyPart else .ok (some before, localPart)
      | _ => .error .manyPrefixes

/-- Reads a name as it is written in an expectation file. -/
def parse (name : String) : Except NameFault Selector :=
  match split name.toList with
  | .error fault => .error fault
  | .ok (before, localPart) => .ok ⟨name, before.map String.ofList, String.ofList localPart⟩

/-- The name with the delimiter of the translated form. -/
def translated (s : Selector) : String :=
  match s.nsPrefix with
  | some p => p ++ delimiter.toString ++ s.localName
  | none => s.localName

/-- A selector keeps the name it was read from. -/
theorem written_of_parse {name : String} {s : Selector} (h : parse name = .ok s) :
    s.written = name := by
  unfold parse at h
  split at h
  · cases h
  · cases h; rfl

end Selector

/-- Reads a name where a fault is wanted that tells which name it was. -/
def Selector.read (name : String) : Except Fault Selector :=
  (Selector.parse name).mapError fun fault => .malformed name fault.message

end FeedAudit
