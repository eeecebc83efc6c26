import FeedAudit.Channel.Runner
import FeedAudit.Feed.Source
import FeedAudit.Settings.Loading

/-!
# The program

The program reads its arguments, loads its settings and runs the channels they select. It ends with
the exit code of the run, or with two when there is no run, and tells why on the console for
errors; what it shows of the channels it tells between two lines of its own, unless it is quiet.
-/

namespace FeedAudit

/-- What the program is given by the machine it runs on. -/
structure Machine (m : Type → Type) extends FileAccess m where
  now : m Moment
  /-- The directory in which the user keeps settings. -/
  userDir : m (Option String)
  environment : m Environment
  /-- Asks an address once. -/
  request : FetchSettings → String → m Attempt
  /-- Waits for a number of milliseconds. -/
  wait : Nat → m Unit
  /-- Writes lines to the file of a path. -/
  write : String → FileSystem.WriteMode → List String → m (Except IoFault Unit)
  print : String → m Unit
  printError : String → m Unit
  /-- Whether the console is a terminal, which shows colours. -/
  colors : Bool := false

/-- The causes of an error that its own text does not end with. -/
def SettingsError.causes : SettingsError → List String
  | .io fault => [fault.message]
  | .toml fault => [fault.message]
  | .json fault => [fault.message]
  | _ => []

/-- The line about settings that could not be loaded. -/
def SettingsError.line (e : SettingsError) : String :=
  Text.joined ": " ("Error" :: "Failed to load configuration" :: e.message :: e.causes)

/-- The causes of an error that its own text does not end with. -/
def FeedError.causes : FeedError → List String
  | .io fault => [fault.message]
  | .http fault => [fault.message]
  | _ => []

/-- The line about a log that could not be written. -/
def FeedError.line (e : FeedError) : String :=
  Text.joined ": " ("Error" :: "Failed to write run log" :: e.message :: e.causes)

/-- What settings say about a run. -/
def Settings.plan (s : Settings) : RunPlan where
  channels := s.effectiveChannels.map ChannelEntry.setup
  reportDir := s.output.reportDir
  limit := s.run.limit
  parallel := s.parallel
  verbosity := some s.verbosity

namespace Machine

variable {m : Type → Type} [Monad m]

/-- Shows a line on the console. -/
def printLine (machine : Machine m) (line : String) : m Unit := machine.print (line ++ "\n")

/-- The surroundings of a run with given settings that was started at a given time. -/
def host (machine : Machine m) (s : Settings) (started : Moment) : Host m where
  now := machine.now
  readText := machine.readText
  fetch := s.feedSource.fetch machine.readText machine.request machine.wait s.fetching
  appendLog := machine.write (logPath s.output.logDir started) .append
  writeReport := machine.write
  print := machine.printLine
  colors := machine.colors

/-- Shows a line of the program itself, unless the console is quiet. -/
def say (machine : Machine m) (s : Settings) (line : String) : m Unit :=
  if s.verbosity = .quiet then return () else machine.printLine line

/-- Runs the channels that settings select, and returns the exit code. -/
def runSettings (machine : Machine m) (s : Settings) : m Nat := do
  let started ← machine.now
  machine.say s "Test in progress..."
  match ← ((machine.host s started).runSelection s.plan s.run.channel).run with
  | .error e =>
    machine.printError (e.line ++ "\n")
    return 2
  | .ok outcomes =>
    machine.say s "Test completed!"
    return exitCode outcomes

/-- Runs the program with arguments, and returns the exit code. -/
def runArguments (machine : Machine m) (arguments : List String) : m Nat := do
  match Arguments.read arguments with
  | .error stop =>
    if stop.isWanted then
      machine.print stop.message
      return 0
    else
      machine.printError (stop.message ++ "\n")
      return 2
  | .ok a =>
    match ← Settings.load machine.toFileAccess (← machine.userDir) (← machine.environment) a with
    | .error e =>
      machine.printError (e.line ++ "\n")
      return 2
    | .ok s => machine.runSettings s

end Machine

end FeedAudit
