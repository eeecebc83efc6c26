import FeedAudit.Clock.Moment
import FeedAudit.Storage.FileSystem

/-!
# Sinks

Lines are handed over in blocks. In a file every line is followed by a line end, and the file and
the directory it stands in are made when they are missing; in memory the lines are kept as they
are. The name of a report or of a log tells the minute in which it was started.
-/

namespace FeedAudit

/-! ## Names -/

/-- The file of a channel's report. -/
def reportPath (dir channel : String) (started : Moment) : String :=
  Path.join dir (started.stamp ++ "_" ++ channel ++ "_channel.txt")

/-- The file of a run log. -/
def logPath (dir : String) (started : Moment) : String :=
  Path.join dir (started.stamp ++ ".log")

/-! ## Files -/

/-- The lines of a block, each followed by a line end. -/
def blockText (lines : List String) : String := String.join (lines.map (· ++ "\n"))

/-- Writes a block of lines to a file. What could be made of the directories stays even if the file
cannot be written. -/
def FileSystem.writeBlock (fs : FileSystem) (path : String) (mode : FileSystem.WriteMode)
    (lines : List String) : FileSystem × Except IoFault Unit :=
  match fs.ensureParent path with
  | (prepared, .error fault) => (prepared, .error fault)
  | (prepared, .ok ()) =>
    match prepared.writeText path mode (blockText lines) with
    | .error fault => (prepared, .error fault)
    | .ok written => (written, .ok ())

/-! ## Memory -/

/-- The lines handed over so far. -/
structure MemorySink where
  lines : List String := []
  deriving DecidableEq, Repr, Inhabited

namespace MemorySink

/-- Takes a block of lines. -/
def append (sink : MemorySink) (block : List String) : MemorySink := ⟨sink.lines ++ block⟩

/-- The lines with a line end between neighbours. -/
def contents (sink : MemorySink) : String := Text.joined "\n" sink.lines

end MemorySink

end FeedAudit
