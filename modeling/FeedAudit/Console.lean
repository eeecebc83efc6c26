import FeedAudit.Channel.Outcome

/-!
# Console output

For every channel the console shows a summary whose length depends on the verbosity: a channel that
passed is not shown at all when the console is quiet, counts and the report follow at the normal
level, and the containers that did not pass are listed when it is verbose. A terminal shows the
labels and the names of the counts in colours.
-/

namespace FeedAudit

/-- How much the console shows. -/
inductive Verbosity where
  | quiet
  | normal
  | verbose
  deriving DecidableEq, Repr, Inhabited

/-! ## Labels -/

/-- A colour of a terminal. -/
inductive Color where
  | red
  | green
  | yellow
  | magenta
  deriving DecidableEq, Repr

/-- The number by which a terminal knows a colour. -/
def Color.code : Color → String
  | .red => "31"
  | .green => "32"
  | .yellow => "33"
  | .magenta => "35"

/-- A text in a colour, if colours are shown. -/
def Color.paint (colors : Bool) (color : Color) (text : String) : String :=
  if colors then s!"\x1b[{color.code}m{text}\x1b[0m" else text

/-- The colour of a verdict. -/
def Verdict.color : Verdict → Color
  | .pass => .green
  | .fail => .red
  | .block => .yellow

/-- The sign and word by which the console shows a verdict. -/
def Verdict.sign : Verdict → String
  | .pass => "✓ PASS"
  | .fail => "✗ FAIL"
  | .block => "⚠ BLOCK"

/-- The label of a verdict. -/
def Verdict.label (colors : Bool) (v : Verdict) : String := v.color.paint colors v.sign

/-- The label of an aborted channel. -/
def abortedLabel (colors : Bool) : String := Color.magenta.paint colors "⚠ ABORTED"

/-! ## Times -/

/-- The text of a time: whole milliseconds below a second, seconds with two places below a minute,
and above that whole minutes with the remaining seconds to one place. Seconds and minutes are held
as numbers rounded by `round`. -/
def durationTextWith (round : Rat → Rat) (nanos : Nat) : String :=
  let total := secondsOfNanos round nanos
  if total < 1 then s!"{nanos / 1000000}ms"
  else if total < 60 then Decimal.fixed 2 total ++ "s"
  else
    let minutes := (round (total / 60)).floor
    let seconds := total - 60 * (total / 60).floor
    s!"{minutes}m" ++ Decimal.fixed 1 seconds ++ "s"

/-- The text of a time held in doubles. -/
def durationText (nanos : Nat) : String := durationTextWith Decimal.nearestDouble nanos

/-! ## Channels -/

/-- The line that counts the containers of a report by their verdict. -/
def ChannelReport.countsText (colors : Bool) (r : ChannelReport) : String :=
  let named (v : Verdict) (name : String) := s!"  {v.color.paint colors name} {r.count v}"
  s!"\n  Containers: {r.containers}" ++ named .pass "Passed:" ++ named .fail "Failed:" ++
    named .block "Blocked:"

/-- The lines that list the containers of a report that did not pass. -/
def ChannelReport.failingText (colors : Bool) (r : ChannelReport) : String :=
  String.join ((r.summaries.filter fun s => !s.verdict.isPass).map fun s =>
    s!"\n    {s.verdict.label colors} container {s.containerId}")

/-- What the console shows of a channel that ran to its end. -/
def ChannelReport.consoleText (colors : Bool) (r : ChannelReport) (v : Verbosity) : String :=
  let heading := s!"{r.verdict.label colors}  channel '{r.channel}' ({durationText r.nanos})"
  match v with
  | .quiet => if r.verdict.isPass then "" else heading
  | .normal => heading ++ r.countsText colors ++ s!"\n  Report: {r.path}"
  | .verbose =>
    heading ++ r.countsText colors ++ s!"\n  Report: {r.path}" ++ r.failingText colors

/-- What the console shows of a channel, empty when nothing is to be shown. -/
def ChannelOutcome.consoleText (colors : Bool) (o : ChannelOutcome) (v : Verbosity) : String :=
  match o with
  | .completed report => report.consoleText colors v
  | .aborted channel error => s!"{abortedLabel colors}  channel '{channel}' - {error.message}"

end FeedAudit
