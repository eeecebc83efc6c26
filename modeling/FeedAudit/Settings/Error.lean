import FeedAudit.Json.Decode
import FeedAudit.Storage.FileSystem
import FeedAudit.Text.Piece
import FeedAudit.Toml.Value

/-!
# Errors of settings

Settings may be unreadable, malformed, or contradict each other. Each of these ends the program
before any channel is run.
-/

namespace FeedAudit

/-- Why a TOML text holds no settings. -/
inductive TomlFault where
  /-- It is no TOML text. -/
  | text (fault : Toml.Fault)
  /-- A value is not what a setting needs. -/
  | shape (fault : Json.DecodeFault)
  deriving DecidableEq, Repr

/-- The fault in words. -/
def TomlFault.message : TomlFault → String
  | .text fault => fault.message
  | .shape fault => fault.message

/-- What keeps settings from being used. -/
inductive Objection where
  | namelessChannel
  | reservedName (name : String)
  | repeatedChannel (name : String)
  | unknownChannel (name : String) (known : List String)
  | noTimeout
  | manyRetries
  | noSource
  | verboseAndQuiet
  deriving DecidableEq, Repr

/-- The objection in words. -/
def Objection.message : Objection → String
  | .namelessChannel => "Channel names cannot be empty"
  | .reservedName name => s!"'{name}' is reserved and cannot be used as a channel name"
  | .repeatedChannel name => s!"Channel '{name}' is configured more than once"
  | .unknownChannel name known =>
    s!"Unknown channel '{name}', expected one of: " ++ Text.joined ", " known
  | .noTimeout => "Timeout must be greater than 0"
  | .manyRetries => "Retry attempts cannot exceed 10"
  | .noSource => "Either an input file or both a domain and an API key must be given"
  | .verboseAndQuiet => "Cannot enable both verbose and quiet modes"

/-- Why there are no settings. -/
inductive SettingsError where
  | io (fault : IoFault)
  | toml (fault : TomlFault)
  | json (fault : Json.DecodeFault)
  | validation (objection : Objection)
  /-- A variable of the environment has a value that its setting cannot take. -/
  | environment (variable_ value : String)
  | unsupportedFormat (extension : String)
  deriving DecidableEq, Repr

/-- The error in words. -/
def SettingsError.message : SettingsError → String
  | .io fault => s!"IO error: {fault.message}"
  | .toml fault => s!"TOML parsing error: {fault.message}"
  | .json fault => s!"JSON parsing error: {fault.message}"
  | .validation objection => s!"Configuration validation error: {objection.message}"
  | .environment name value => s!"Environment variable error: Invalid {name} value: {value}"
  | .unsupportedFormat extension => s!"Unsupported configuration file format: {extension}"

end FeedAudit
