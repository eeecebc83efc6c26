import FeedAudit.Text.Blank
import FeedAudit.Text.Piece

/-!
# Value patterns

The expected text of an element or attribute is written as a *pattern*. A lone star accepts every
non-empty value, a text with commas lists the accepted values, and any other text accepts exactly
itself. A pattern remembers how it was written, so `text` undoes `parse`.
-/

namespace FeedAudit

open Text

/-- What a value may be. -/
inductive Pattern where
  /-- Any value that is not empty. -/
  | wildcard
  /-- One of the members; `written` is the list as it was given. -/
  | enumeration (written : String) (members : List String)
  /-- This value and no other. -/
  | literal (value : String)
  deriving DecidableEq, Repr, Inhabited

namespace Pattern

/-! ## Reading and writing -/

/-- Drops the empty members at the end of a list; those in between stay. -/
def dropTrailingEmpty (members : List String) : List String :=
  (members.reverse.dropWhile (· == "")).reverse

/-- The members written in a list with commas: each is trimmed of blanks, and commas at the end
add no members. -/
def membersOf (written : String) : List String :=
  dropTrailingEmpty ((pieces ',' written).map trim)

/-- Reads a pattern as it is written in an expectation file. -/
def parse (written : String) : Pattern :=
  if written = "*" then wildcard
  else if ',' ∈ written.toList then enumeration written (membersOf written)
  else literal written

/-- The pattern as it is written in an expectation file. -/
def text : Pattern → String
  | wildcard => "*"
  | enumeration written _ => written
  | literal value => value

/-- A pattern keeps the text it was read from. -/
@[simp] theorem text_parse (written : String) : (parse written).text = written := by
  unfold parse
  split
  · next h => simp [text, h]
  · split <;> rfl

/-- A pattern is *sound* when it is what its own text reads as. -/
def Sound (p : Pattern) : Prop := parse p.text = p

/-- Patterns that were read from a text are sound. -/
theorem sound_parse (written : String) : (parse written).Sound := by
  simp [Sound]

end Pattern

/-! ## Comparing a value with a pattern -/

/-- Why a value does not satisfy its pattern. -/
inductive Mismatch where
  /-- Some value was wanted and there is none. -/
  | empty
  /-- The value differs from the literal, or is no member of the enumeration. -/
  | incorrect
  deriving DecidableEq, Repr

/-- The mismatch in words. -/
def Mismatch.describe : Mismatch → String
  | .empty => "value is empty"
  | .incorrect => "value is incorrect"

/-- Compares a value with a pattern: `none` when the pattern accepts it. -/
def Pattern.mismatch? (actual : String) : Pattern → Option Mismatch
  | .wildcard => if actual = "" then some .empty else none
  | .enumeration _ members => if actual ∈ members then none else some .incorrect
  | .literal value => if actual = value then none else some .incorrect

end FeedAudit
