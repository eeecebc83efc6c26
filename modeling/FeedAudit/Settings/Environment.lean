import FeedAudit.Settings.Basic
import FeedAudit.Settings.Error
import FeedAudit.Settings.Limit

/-!
# Settings from the environment

Variables of the environment go before the settings file. They are looked at in a fixed order, and
the first one whose value its setting cannot take is the error; the settings are then lost, not
left half changed.
-/

namespace FeedAudit

/-- The values of the variables that are set. -/
abbrev Environment := String → Option String

/-- The variable behind a setting. -/
def variableName (setting : String) : String := "VALIDATE_FEED_" ++ setting

/-- The settings that have a variable, in the order in which they are looked at. -/
def settingsWithVariable : List String :=
  ["DOMAIN", "API_KEY", "TIMEOUT", "RETRY_ATTEMPTS", "CHANNEL", "LIMIT", "OUTPUT_DIR", "LOG_DIR",
    "VERBOSE", "QUIET", "PARALLEL"]

/-- The environment in which the listed variables are set. -/
def Environment.ofList (assignments : List (String × String)) : Environment :=
  fun name => assignments.lookup name

/-- The value of a variable, if it is set, as `read` understands it. -/
def Environment.value {α : Type} (env : Environment) (setting : String)
    (read : String → Option α) : Except SettingsError (Option α) :=
  match env (variableName setting) with
  | none => .ok none
  | some text =>
    match read text with
    | some a => .ok (some a)
    | none => .error (.environment (variableName setting) text)

/-- A number of 64 bits. -/
def read64 (s : String) : Option Nat := (Decimal.readNatural Decimal.largest64 s).toOption

/-- A number of 32 bits. -/
def read32 (s : String) : Option Nat := (Decimal.readNatural Decimal.largest32 s).toOption

/-- A truth value. -/
def readTruth : String → Option Bool
  | "true" => some true
  | "false" => some false
  | _ => none

/-- The settings with what the environment says in front of them. -/
def Settings.withEnvironment (s : Settings) (env : Environment) :
    Except SettingsError Settings := do
  let domain ← env.value "DOMAIN" some
  let apiKey ← env.value "API_KEY" some
  let timeout ← env.value "TIMEOUT" read64
  let retries ← env.value "RETRY_ATTEMPTS" read32
  let channel ← env.value "CHANNEL" some
  let limit ← env.value "LIMIT" readLimit
  let reportDir ← env.value "OUTPUT_DIR" some
  let logDir ← env.value "LOG_DIR" some
  let verbose ← env.value "VERBOSE" readTruth
  let quiet ← env.value "QUIET" readTruth
  let parallel ← env.value "PARALLEL" readTruth
  return {
    run := {
      channel := channel.getD s.run.channel
      limit := limit.getD s.run.limit }
    source := { s.source with
      domain := domain.or s.source.domain
      apiKey := apiKey.or s.source.apiKey
      timeoutSeconds := timeout.getD s.source.timeoutSeconds
      retryAttempts := retries.getD s.source.retryAttempts }
    channels := s.channels
    output := {
      reportDir := reportDir.getD s.output.reportDir
      logDir := logDir.getD s.output.logDir
      verbose := verbose.getD s.output.verbose
      quiet := quiet.getD s.output.quiet }
    parallel := parallel.getD s.parallel }

end FeedAudit
