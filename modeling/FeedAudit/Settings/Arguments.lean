import FeedAudit.Settings.Basic
import FeedAudit.Settings.Limit
import FeedAudit.Text.Blank
import FeedAudit.Text.Piece

/-!
# Arguments of the command line

Arguments are read from left to right. An option takes a value, which is attached to it or follows
as the next argument; switches take none, and several short ones may share a dash. An option whose
value follows is *pending*: its value is looked at only when the next option comes or the arguments
end, so that an unknown argument in between is found first. Whether the options go together is
looked at last.
-/

namespace FeedAudit

/-! ## Options -/

/-- An option that takes a value. -/
inductive ValueOption where
  | channel
  | limit
  | domain
  | apiKey
  | inputFile
  | spec
  | outputDir
  | logDir
  | config
  | timeout
  | retryAttempts
  deriving DecidableEq, Repr

/-- An option that is given or not. -/
inductive Switch where
  | parallel
  | verbose
  | quiet
  deriving DecidableEq, Repr

/-- What an option asks for. -/
inductive OptionKind where
  | value (o : ValueOption)
  | switch (s : Switch)
  | help
  | version
  deriving DecidableEq, Repr

/-- The option with a long name. -/
def OptionKind.ofLong? : String → Option OptionKind
  | "channel" => some (.value .channel)
  | "limit" => some (.value .limit)
  | "domain" => some (.value .domain)
  | "api-key" => some (.value .apiKey)
  | "input-file" => some (.value .inputFile)
  | "spec" => some (.value .spec)
  | "output-dir" => some (.value .outputDir)
  | "log-dir" => some (.value .logDir)
  | "config" => some (.value .config)
  | "timeout" => some (.value .timeout)
  | "retry-attempts" => some (.value .retryAttempts)
  | "parallel" => some (.switch .parallel)
  | "verbose" => some (.switch .verbose)
  | "quiet" => some (.switch .quiet)
  | "help" => some .help
  | "version" => some .version
  | _ => none

/-- The option with a short name. -/
def OptionKind.ofShort? : Char → Option OptionKind
  | 'c' => some (.value .channel)
  | 'l' => some (.value .limit)
  | 'd' => some (.value .domain)
  | 'k' => some (.value .apiKey)
  | 'i' => some (.value .inputFile)
  | 'o' => some (.value .outputDir)
  | 'v' => some (.switch .verbose)
  | 'q' => some (.switch .quiet)
  | 'h' => some .help
  | 'V' => some .version
  | _ => none

/-- An option as messages show it. -/
def ValueOption.shown : ValueOption → String
  | .channel => "--channel <CHANNEL>"
  | .limit => "--limit <LIMIT>"
  | .domain => "--domain <DOMAIN>"
  | .apiKey => "--api-key <API_KEY>"
  | .inputFile => "--input-file <INPUT_FILE>"
  | .spec => "--spec <CHANNEL=PATH>"
  | .outputDir => "--output-dir <OUTPUT_DIR>"
  | .logDir => "--log-dir <LOG_DIR>"
  | .config => "--config <CONFIG>"
  | .timeout => "--timeout <TIMEOUT>"
  | .retryAttempts => "--retry-attempts <RETRY_ATTEMPTS>"

/-- A switch as messages show it. -/
def Switch.shown : Switch → String
  | .parallel => "--parallel"
  | .verbose => "--verbose"
  | .quiet => "--quiet"

/-! ## Stops -/

/-- Why arguments do not lead to a run. -/
inductive ArgumentStop where
  | unknown (argument : String)
  | missingValue (o : ValueOption)
  | repeated (shown : String)
  | verboseAndQuiet
  | unwantedValue (s : String) (value : String)
  | badValue (o : ValueOption) (value reason : String)
  /-- Nothing is wrong, but help is wanted. -/
  | help
  /-- Nothing is wrong, but the version is wanted. -/
  | version
  deriving DecidableEq, Repr

/-- The name and version of the program. -/
def versionText : String := "validate-feed 0.2.0\n"

/-- The options in short. -/
def helpText : String :=
  "Validate catalog XML feeds against declarative element specifications\n\n" ++
  "Usage: validate-feed [OPTIONS]\n\n" ++
  "Options:\n" ++
  "  -c, --channel <CHANNEL>                Channel to test, or \x60all\x60\n" ++
  "  -l, --limit <LIMIT>                    Number of records to request, or \x60all\x60\n" ++
  "  -d, --domain <DOMAIN>                  Domain name of the feed API\n" ++
  "  -k, --api-key <API_KEY>                API key for the feed API\n" ++
  "  -i, --input-file <INPUT_FILE>          Local XML file to validate\n" ++
  "      --spec <CHANNEL=PATH>              Expectation file for a channel\n" ++
  "  -o, --output-dir <OUTPUT_DIR>          Directory for report files\n" ++
  "      --log-dir <LOG_DIR>                Directory for run log files\n" ++
  "      --config <CONFIG>                  Configuration file (TOML or JSON)\n" ++
  "      --parallel                         Validate containers in parallel\n" ++
  "      --timeout <TIMEOUT>                HTTP request timeout in seconds\n" ++
  "      --retry-attempts <RETRY_ATTEMPTS>  Number of retry attempts\n" ++
  "  -v, --verbose                          Enable verbose output\n" ++
  "  -q, --quiet                            Quiet mode\n" ++
  "  -h, --help                             Print help\n" ++
  "  -V, --version                          Print version\n"

/-- What is shown when the program stops at its arguments. -/
def ArgumentStop.message : ArgumentStop → String
  | .unknown argument => s!"error: unexpected argument '{argument}' found"
  | .missingValue o => s!"error: a value is required for '{o.shown}' but none was supplied"
  | .repeated shown => s!"error: the argument '{shown}' cannot be used multiple times"
  | .verboseAndQuiet =>
    s!"error: the argument '{Switch.quiet.shown}' cannot be used with '{Switch.verbose.shown}'"
  | .unwantedValue shown value =>
    s!"error: unexpected value '{value}' for '{shown}' found; no more were expected"
  | .badValue o value reason => s!"error: invalid value '{value}' for '{o.shown}': {reason}"
  | .help => helpText
  | .version => versionText

/-- Whether arguments were stopped at on request. -/
def ArgumentStop.isWanted : ArgumentStop → Bool
  | .help => true
  | .version => true
  | _ => false

/-! ## Values -/

/-- What the arguments say. -/
structure Arguments where
  channel : Option String := none
  limit : Option Nat := none
  domain : Option String := none
  apiKey : Option String := none
  inputFile : Option String := none
  specs : List ChannelEntry := []
  outputDir : Option String := none
  logDir : Option String := none
  config : Option String := none
  timeout : Option Nat := none
  retryAttempts : Option Nat := none
  parallel : Bool := false
  verbose : Bool := false
  quiet : Bool := false
  deriving DecidableEq, Repr, Inhabited

/-- A channel and the path of its expectation, around the first equals sign; neither may be
blank. -/
def ChannelEntry.read (s : String) : Option ChannelEntry :=
  match Text.splitFirst '=' s with
  | some (name, path) =>
    if Text.trim name = "" ∨ Text.trim path = "" then none
    else some ⟨Text.trim name, Text.trim path⟩
  | none => none

/-- The number of repetitions that a text stands for. -/
def readRetries (s : String) : Except String Nat :=
  match Decimal.readInteger Decimal.largestSigned64 s with
  | .error fault => .error fault.message
  | .ok n =>
    if 0 ≤ n ∧ n ≤ Decimal.largest32 then .ok n.toNat
    else .error s!"{n} is not in 0..={Decimal.largest32}"

namespace Arguments

/-- Whether an option that may be given once only has been given. -/
def has (a : Arguments) : ValueOption → Bool
  | .channel => a.channel.isSome
  | .limit => a.limit.isSome
  | .domain => a.domain.isSome
  | .apiKey => a.apiKey.isSome
  | .inputFile => a.inputFile.isSome
  | .spec => false
  | .outputDir => a.outputDir.isSome
  | .logDir => a.logDir.isSome
  | .config => a.config.isSome
  | .timeout => a.timeout.isSome
  | .retryAttempts => a.retryAttempts.isSome

/-- A path that is not empty. -/
def takePath (o : ValueOption) (path : String) : Except ArgumentStop (Option String) :=
  if path = "" then .error (.missingValue o) else .ok (some path)

/-- Takes the value of an option. -/
def take (a : Arguments) (o : ValueOption) (s : String) : Except ArgumentStop Arguments :=
  if a.has o then .error (.repeated o.shown)
  else
    match o with
    | .channel => .ok { a with channel := some s }
    | .limit =>
      match readLimit s with
      | some n => .ok { a with limit := some n }
      | none => .error (.badValue o s s!"expected a number or '{noLimit}', got '{s}'")
    | .domain => .ok { a with domain := some s }
    | .apiKey => .ok { a with apiKey := some s }
    | .inputFile => (takePath o s).map fun inputFile => { a with inputFile }
    | .spec =>
      match ChannelEntry.read s with
      | some entry => .ok { a with specs := a.specs ++ [entry] }
      | none => .error (.badValue o s s!"expected CHANNEL=PATH, got '{s}'")
    | .outputDir => (takePath o s).map fun outputDir => { a with outputDir }
    | .logDir => (takePath o s).map fun logDir => { a with logDir }
    | .config => (takePath o s).map fun config => { a with config }
    | .timeout =>
      match Decimal.readNatural Decimal.largest64 s with
      | .ok n => .ok { a with timeout := some n }
      | .error fault => .error (.badValue o s fault.message)
    | .retryAttempts =>
      match readRetries s with
      | .ok n => .ok { a with retryAttempts := some n }
      | .error reason => .error (.badValue o s reason)

/-- Turns a switch on, which must not be on. -/
def turnOn (a : Arguments) (s : Switch) : Except ArgumentStop Arguments :=
  let (isOn, on) :=
    match s with
    | .parallel => (a.parallel, { a with parallel := true })
    | .verbose => (a.verbose, { a with verbose := true })
    | .quiet => (a.quiet, { a with quiet := true })
  if isOn then .error (.repeated s.shown) else .ok on

end Arguments

/-! ## Reading -/

/-- How far the arguments have been read. -/
structure ArgumentReading where
  arguments : Arguments := {}
  /-- The option that waits for its value, or whose value has come but has not been looked at. -/
  pending : Option (ValueOption × Option String) := none

namespace ArgumentReading

/-- Looks at the value of the pending option. -/
def settle (r : ArgumentReading) : Except ArgumentStop Arguments :=
  match r.pending with
  | none => .ok r.arguments
  | some (o, none) => .error (.missingValue o)
  | some (o, some s) => r.arguments.take o s

/-- Reads an option that comes without a value attached. -/
def readOption (r : ArgumentReading) : OptionKind → Except ArgumentStop ArgumentReading
  | .value o => r.settle.map fun a => ⟨a, some (o, none)⟩
  | .switch s => do return ⟨← (← r.settle).turnOn s, none⟩
  | .help => do
    let _ ← r.settle
    throw .help
  | .version => do
    let _ ← r.settle
    throw .version

/-- Reads an option with the value attached to it. -/
def readAttached (r : ArgumentReading) (o : ValueOption) (s : String) :
    Except ArgumentStop ArgumentReading := do
  return ⟨← (← r.settle).take o s, none⟩

/-- Reads the short options behind a dash; what follows one that takes a value is its value, but
for an equals sign in front. -/
def readShort (argument : String) (r : ArgumentReading) :
    List Char → Except ArgumentStop ArgumentReading
  | [] => .ok r
  | c :: rest =>
    match OptionKind.ofShort? c with
    | none => .error (.unknown argument)
    | some (.value o) =>
      match rest with
      | [] => r.readOption (.value o)
      | '=' :: s => r.readAttached o (String.ofList s)
      | s => r.readAttached o (String.ofList s)
    | some kind => do readShort argument (← r.readOption kind) rest

/-- Reads what stands behind two dashes: the name of an option, and a value behind an equals
sign. -/
def readLong (r : ArgumentReading) (argument body : String) :
    Except ArgumentStop ArgumentReading :=
  match Text.splitFirst '=' body with
  | none =>
    match OptionKind.ofLong? body with
    | none => .error (.unknown argument)
    | some kind => r.readOption kind
  | some (name, s) =>
    match OptionKind.ofLong? name with
    | none => .error (.unknown argument)
    | some (.value o) => r.readAttached o s
    | some _ => .error (.unwantedValue ("--" ++ name) s)

/-- Reads an argument that is no option, which only an option can be waiting for. -/
def readPlain (r : ArgumentReading) (argument : String) : Except ArgumentStop ArgumentReading :=
  match r.pending with
  | some (o, none) => .ok { r with pending := some (o, some argument) }
  | _ => .error (.unknown argument)

/-- Ends the reading. -/
def finish (r : ArgumentReading) : Except ArgumentStop Arguments := do
  let a ← r.settle
  if a.verbose && a.quiet then throw .verboseAndQuiet
  return a

/-- Reads arguments; behind two dashes there are no more options, and so nothing may stand there. -/
def read (r : ArgumentReading) : List String → Except ArgumentStop Arguments
  | [] => r.finish
  | argument :: rest =>
    match argument.toList with
    | ['-', '-'] =>
      match rest with
      | [] => r.finish
      | next :: _ => .error (.unknown next)
    | '-' :: '-' :: body => do (← r.readLong argument (String.ofList body)).read rest
    | '-' :: c :: body => do (← readShort argument r (c :: body)).read rest
    | _ => do (← r.readPlain argument).read rest

end ArgumentReading

/-- Reads the arguments of the command line. -/
def Arguments.read (arguments : List String) : Except ArgumentStop Arguments :=
  ({} : ArgumentReading).read arguments

end FeedAudit
