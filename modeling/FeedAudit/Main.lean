import FeedAudit.Feed.Answer
import FeedAudit.Program
import Std.Async.DNS
import Std.Async.TCP
import Std.Async.Timer
import Std.Time.Zoned

/-!
# The command line

The machine on which the program runs: its clock, files, environment, network and console.
-/

namespace FeedAudit.CommandLine

open Std.Async

/-! ## Files -/

/-- The fault behind an error of the system. -/
def faultOf (e : IO.Error) : IoFault :=
  match e with
  | .noFileOrDirectory _ _ _ => .notFound
  | .alreadyExists _ _ _ => .exists
  | .inappropriateType _ code details => ofCode code details
  | .permissionDenied _ code details => ofCode code details
  | .invalidArgument _ code details => ofCode code details
  | .resourceExhausted _ code details => ofCode code details
  | .otherError code details => ofCode code details
  | other => .other (toString other)
where
  /-- The fault with a number of the system. -/
  ofCode (code : UInt32) (details : String) : IoFault :=
    if code = 2 then .notFound
    else if code = 17 then .exists
    else if code = 20 then .notADirectory
    else if code = 21 then .isADirectory
    else .other s!"{details} (os error {code})"

/-- The result of an action on files. -/
def attempted {α : Type} (action : IO α) : IO (Except IoFault α) := do
  try
    return .ok (← action)
  catch e =>
    return .error (faultOf e)

/-- The text of a file. -/
def readText (path : String) : IO (Except IoFault String) := do
  match ← attempted (IO.FS.readBinFile path) with
  | .error fault => return .error fault
  | .ok bytes =>
    match String.fromUTF8? bytes with
    | some text => return .ok text
    | none => return .error .notText

/-- Whether a path names something. -/
def pathExists (path : String) : IO Bool := do
  match ← attempted (IO.FS.Handle.mk path .read) with
  | .error .notFound => return false
  | .error .notADirectory => return false
  | _ => return true

/-- Writes lines to a file, in a directory that is made if it is missing. -/
def writeLines (path : String) (mode : FileSystem.WriteMode) (lines : List String) :
    IO (Except IoFault Unit) :=
  attempted do
    let dir := Path.parent path
    if dir != "" then IO.FS.createDirAll dir
    let handle ← IO.FS.Handle.mk path
      (match mode with
        | .append => .append
        | .create => .write)
    handle.putStr (blockText lines)

/-! ## Network -/

/-- The bytes that come from a connection up to its end. -/
partial def receiveAll (client : TCP.Socket.Client) (received : ByteArray) : Async ByteArray := do
  match ← client.recv? 65536 with
  | none => return received
  | some bytes => receiveAll client (received ++ bytes)

/-- Asks one of the hosts of an address. -/
def askHost (settings : FetchSettings) (a : Address) (ip : Std.Net.IPAddr) : Async ByteArray := do
  let client ← TCP.Socket.Client.mk
  let port := UInt16.ofNat a.port
  client.connect
    (match ip with
      | .v4 addr => .v4 ⟨addr, port⟩
      | .v6 addr => .v6 ⟨addr, port⟩)
  client.send (requestText settings a).toUTF8
  receiveAll client ByteArray.empty

/-- Asks an address once. -/
def ask (settings : FetchSettings) (a : Address) : Async (Except TransportFault Answer) := do
  try
    match (← DNS.getAddrInfo a.host "http")[0]? with
    | none => return .error Answer.missing
    | some ip =>
      match Answer.read (← askHost settings a ip).toList with
      | some answer => return .ok answer
      | none => return .error Answer.missing
  catch _ =>
    return .error Answer.missing

/-- Asks an address and waits for the answer as long as the settings allow. -/
def request (settings : FetchSettings) (url : String) : IO Attempt := do
  let asking : Async (Option Attempt) := do return some (← askUrl (ask settings) url)
  let waiting : Async (Option Attempt) := do
    sleep (Std.Time.Millisecond.Offset.ofNat (settings.timeoutSeconds * 1000))
    return none
  match ← (Async.race asking waiting).block with
  | some attempt => return attempt
  | none => return .timedOut

/-! ## Surroundings -/

/-- The seconds by which local time is ahead of universal time; a machine that does not know where
it stands keeps universal time. -/
def localOffset (moment : Std.Time.Timestamp) : IO Int := do
  try
    let rules ← Std.Time.Database.defaultGetLocalZoneRules
    return (rules.timezoneAt moment).offset.second.val
  catch _ =>
    return 0

/-- The time by the clock of the machine. -/
def clock : IO Moment := do
  let moment ← Std.Time.Timestamp.now
  let nanos := moment.toNanosecondsSinceUnixEpoch.val
  return ⟨nanos / 1000000000, (nanos % 1000000000).toNat, ← localOffset moment⟩

/-- The variables that settings may come from. -/
def environment : IO Environment := do
  let assignments ← settingsWithVariable.filterMapM fun setting => do
    let name := variableName setting
    return (← IO.getEnv name).map fun value => (name, value)
  return .ofList assignments

/-- The machine that the program runs on; `colors` says whether its console is a terminal. -/
def machine (colors : Bool) : Machine IO where
  readText := readText
  exists_ := pathExists
  now := clock
  userDir := do return userConfigDir (← IO.getEnv "XDG_CONFIG_HOME") (← IO.getEnv "HOME")
  environment := environment
  request := request
  wait millis := IO.sleep (UInt32.ofNat millis)
  write := writeLines
  print text := do
    IO.print text
    (← IO.getStdout).flush
  printError := IO.eprint
  colors := colors

end FeedAudit.CommandLine

/-- Runs the program with the arguments of the command line. -/
def main (arguments : List String) : IO UInt32 := do
  let colors ← (← IO.getStdout).isTty
  return UInt32.ofNat (← (FeedAudit.CommandLine.machine colors).runArguments arguments)
