import FeedAudit.Text.Piece

/-!
# Run logs

A run log tells every comparison of a run in the order in which it was made. Whoever compares
something adds lines to the log of its caller; blocks of lines are set off by rules, which run over
the full width.
-/

namespace FeedAudit

/-- The width of the rules in logs and reports. -/
def ruleWidth : Nat := 120

/-- A rule over the full width. -/
def ruleLine (c : Char) : String := String.ofList (List.replicate ruleWidth c)

/-- The lines of a log so far. -/
structure RunLog where
  lines : Array String := #[]
  deriving DecidableEq, Repr, Inhabited

namespace RunLog

/-- A log without lines. -/
def empty : RunLog := ⟨#[]⟩

/-- Adds a line. -/
def line (log : RunLog) (text : String) : RunLog := ⟨log.lines.push text⟩

/-- Adds an empty line. -/
def blank (log : RunLog) : RunLog := log.line ""

/-- Adds a rule. -/
def rule (log : RunLog) (c : Char) : RunLog := log.line (ruleLine c)

/-- The lines of a log as a list. -/
def toList (log : RunLog) : List String := log.lines.toList

@[simp] theorem toList_empty : empty.toList = [] := rfl

/-- A line is added behind the others. -/
@[simp] theorem toList_line (log : RunLog) (text : String) :
    (log.line text).toList = log.toList ++ [text] := by
  simp [line, toList]

end RunLog

/-- A computation that tells in a log what it does. -/
abbrev Narrated := StateM RunLog

/-- Tells a line. -/
def tell (text : String) : Narrated Unit := modify fun log => log.line text

/-- Tells an empty line. -/
def tellBlank : Narrated Unit := modify RunLog.blank

/-- Tells a rule. -/
def tellRule (c : Char) : Narrated Unit := modify fun log => log.rule c

end FeedAudit
