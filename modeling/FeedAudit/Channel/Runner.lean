import FeedAudit.Channel.Input
import FeedAudit.Console
import FeedAudit.Storage.Sink

/-!
# Running channels

A channel is run from its expectation and its feed to its report: every container is checked, and
its log and its block of the report are written before the next one. Whatever goes wrong in
between aborts this channel alone, and the others are still run. Only when the runner cannot write
its own lines to the log does the whole run end.

What a run needs from its surroundings is a `Host`: a clock, files, a source of feeds, places for
the log, the reports and the console. All else is computed here, so that what a run does is known
for every behaviour of the host.
-/

namespace FeedAudit

/-- The surroundings in which channels are run. -/
structure Host (m : Type → Type) where
  now : m Moment
  readText : String → m (Except IoFault String)
  /-- The text of a channel's feed, with at most the given number of records; zero is no limit. -/
  fetch : String → Nat → m (Except FeedError String)
  appendLog : List String → m (Except IoFault Unit)
  writeReport : String → FileSystem.WriteMode → List String → m (Except IoFault Unit)
  print : String → m Unit
  /-- Whether the console shows colours. -/
  colors : Bool := false

/-- What is run, and how. -/
structure RunPlan where
  channels : List ChannelSetup
  reportDir : String
  limit : Nat
  /-- Whether the containers of a channel are checked side by side. -/
  parallel : Bool
  /-- How much the console shows; nothing is shown without it. -/
  verbosity : Option Verbosity
  deriving Repr

/-- A computation that an error may end. -/
abbrev Running (m : Type → Type) := ExceptT FeedError m

/-! ## Steps of a run -/

section Steps

variable {m : Type → Type} [Monad m]

/-- A step that may fail on a file. -/
def Running.io {α : Type} (step : m (Except IoFault α)) : Running m α :=
  ExceptT.mk do return (← step).mapError .io

namespace Host

/-- Appends lines to the log. -/
def log (host : Host m) (lines : List String) : Running m Unit := Running.io (host.appendLog lines)

/-- Appends a line to the log. -/
def logLine (host : Host m) (line : String) : Running m Unit := host.log [line]

/-- Writes lines to a report. -/
def report (host : Host m) (path : String) (mode : FileSystem.WriteMode) (lines : List String) :
    Running m Unit :=
  Running.io (host.writeReport path mode lines)

/-- The expectation of a channel. -/
def expectation (host : Host m) : ExpectationSource → Running m ContainerSpec
  | .given spec => return spec
  | .file path => ExceptT.mk do return ContainerSpec.ofFile path (← host.readText path)

/-- The document of a channel's feed. -/
def document (host : Host m) (channel : String) (limit : Nat) : Running m Markup.Document := do
  let text ← ExceptT.mk (host.fetch channel limit)
  ExceptT.mk (pure (documentOfFeed channel text))

end Host

end Steps

/-! ## Containers -/

section Run

variable {m : Type → Type} [Monad m]

namespace Host

/-- Writes what came of a container, first to the log and then to the report. -/
def flush (host : Host m) (path : String) (run : ContainerRun) : Running m Summary := do
  host.log run.log.toList
  host.report path .append run.summary.lines
  return run.summary

/-- Writes what came of containers, one after the other. -/
def flushAll (host : Host m) (path : String) : List ContainerRun → Running m (List Summary)
  | [] => return []
  | run :: rest => do
    let summary ← host.flush path run
    let others ← host.flushAll path rest
    return summary :: others

/-- Checks containers one after the other, each after the one before it has been written. -/
def checkInTurn (host : Host m) (path : String) (spec : ContainerSpec) :
    List Selection → Running m (List Summary)
  | [] => return []
  | container :: rest => do
    let summary ← host.flush path (checkContainer container spec)
    let others ← host.checkInTurn path spec rest
    return summary :: others

/-- Checks containers and writes what came of them. -/
def checkAndWrite (host : Host m) (plan : RunPlan) (path : String) (spec : ContainerSpec)
    (containers : List Selection) : Running m (List Summary) :=
  if plan.parallel then host.flushAll path (checkSideBySide spec containers)
  else host.checkInTurn path spec containers

/-- Checking and writing in turn comes to checking all containers and writing what came of them. -/
theorem checkInTurn_eq (host : Host m) (path : String) (spec : ContainerSpec)
    (containers : List Selection) :
    host.checkInTurn path spec containers =
      host.flushAll path (containers.map (checkContainer · spec)) := by
  induction containers with
  | nil => rfl
  | cons container rest ih => rw [checkInTurn, List.map_cons, flushAll, ih]

/-- Side by side or in turn, the same is written for the containers. -/
theorem checkAndWrite_eq (host : Host m) (plan : RunPlan) (path : String) (spec : ContainerSpec)
    (containers : List Selection) :
    host.checkAndWrite plan path spec containers =
      host.flushAll path (containers.map (checkContainer · spec)) := by
  rw [checkAndWrite, checkSideBySide_eq, checkInTurn_eq, ite_self]

/-! ## One channel -/

/-- The line with which the log of a channel starts. -/
def startingLine (channel : String) : String := s!"Starting test for channel '{channel}'"

/-- The line about a feed that could be read. -/
def loadedLine : String := "XML is loaded!"

/-- The line with which the log of a channel ends. -/
def finishedLine (r : ChannelReport) : String :=
  s!"Finished test for channel '{r.channel}', Test result: {r.verdict.word}"

/-- Runs a channel. -/
def runChannel (host : Host m) (plan : RunPlan) (setup : ChannelSetup) :
    Running m ChannelReport := do
  let started ← host.now
  host.logLine (startingLine setup.channel)
  let spec ← host.expectation setup.expectation
  let document ← host.document setup.channel plan.limit
  host.logLine loadedLine
  let containers ← ExceptT.mk (pure ((findContainers document spec).mapError .ofContainers))
  let path := reportPath plan.reportDir setup.channel started
  host.report path .create (headerLines setup.channel started)
  let summaries ← host.checkAndWrite plan path spec containers
  let finished ← host.now
  let r : ChannelReport := ⟨setup.channel, started, finished, summaries, spec.nodeCount, path⟩
  host.report path .append r.footerLines
  host.logLine (finishedLine r)
  return r

/-! ## Selected channels -/

/-- A channel that was selected, by its name alone when none of this name can be tested. -/
inductive Selected where
  | known (setup : ChannelSetup)
  | unknown (channel : String)

/-- The name that was selected. -/
def Selected.channel : Selected → String
  | .known setup => setup.channel
  | .unknown channel => channel

/-- The channels that a selection means: all of them, or the first of the name. -/
def select (plan : RunPlan) (selection : String) : List Selected :=
  if selection = allChannels then plan.channels.map .known
  else
    match plan.channels.find? fun setup => setup.channel == selection with
    | some setup => [.known setup]
    | none => [.unknown selection]

/-- All channels are selected in the order in which they were configured. -/
theorem select_all (plan : RunPlan) : select plan allChannels = plan.channels.map .known :=
  if_pos rfl

/-- The line about the selection. -/
def selectionLine (selection : String) : String :=
  if selection = allChannels then "Selected all channels for test"
  else s!"Selected '{selection}' channel for test"

/-- What comes of a selected channel. -/
def outcome (host : Host m) (plan : RunPlan) : Selected → m ChannelOutcome
  | .known setup => do
    match ← (host.runChannel plan setup).run with
    | .ok r => return .completed r
    | .error e => return .aborted setup.channel e
  | .unknown channel => return .aborted channel (.unknownChannel channel)

/-- Tells in the log that a channel was aborted, and by what. -/
def logAborted (host : Host m) : ChannelOutcome → Running m Unit
  | .completed _ => return ()
  | .aborted _ e => host.logLine e.message

/-- Shows on the console what came of a channel. -/
def announce (host : Host m) (verbosity : Option Verbosity) (o : ChannelOutcome) : m Unit :=
  match verbosity with
  | none => return ()
  | some v =>
    let text := o.consoleText host.colors v
    if text = "" then return () else host.print text

/-- Runs selected channels one after the other. -/
def runEach (host : Host m) (plan : RunPlan) : List Selected → Running m (List ChannelOutcome)
  | [] => return []
  | selected :: rest => do
    let o ← host.outcome plan selected
    host.logAborted o
    host.announce plan.verbosity o
    let others ← host.runEach plan rest
    return o :: others

/-- Tells the time in the log. -/
def logTime (host : Host m) (event : String) : Running m Unit := do
  let moment ← host.now
  host.logLine s!"Test {event} at {moment.text}"

/-- Runs the channels that a selection means. -/
def runSelection (host : Host m) (plan : RunPlan) (selection : String) :
    Running m (List ChannelOutcome) := do
  host.logTime "started"
  host.logLine (selectionLine selection)
  let outcomes ← host.runEach plan (select plan selection)
  host.logTime "finished"
  return outcomes

end Host

end Run

end FeedAudit
