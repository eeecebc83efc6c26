import FeedAudit.Settings.Basic
import FeedAudit.Settings.Error
import FeedAudit.Toml.Reader

/-!
# Settings files

Settings are kept in a TOML or a JSON file, which the extension of its name tells apart; without
one, both are tried in this order. The fields are the same in both, and all may be left out but the
two of a channel. A TOML value is looked at as the JSON value of the same kind; since no setting is
a fraction or a time, any of these may stand for all.
-/

namespace FeedAudit

open Json (Tree Layout DecodeFault decodeText decodeBoolean decodeNatural decodeOptional decodeList)

/-! ## Fields -/

/-- Reads a path. -/
def decodePath : Tree → Except DecodeFault String := decodeText "path string"

/-- Reads a number of 32 bits. -/
def decode32 : Tree → Except DecodeFault Nat := decodeNatural Decimal.largest32 "u32"

/-- Reads a number of 64 bits. -/
def decode64 : Tree → Except DecodeFault Nat := decodeNatural Decimal.largest64 "u64"

/-- The fields of the run. -/
inductive RunField where
  | channel
  | limit
  deriving DecidableEq, Repr

/-- How the choice of channels is written. -/
def runLayout (passesOver : Bool) : Layout RunField RunSettings where
  wanted := "struct RunConfig"
  fields := [.channel, .limit]
  name
    | .channel => "channel"
    | .limit => "limit"
  passesOver := passesOver
  start := {}
  take
    | .channel, t, r => (decodeText "a string" t).map fun channel => { r with channel }
    | .limit, t, r => (decode32 t).map fun limit => { r with limit }

/-- The fields of the source. -/
inductive SourceField where
  | domain
  | apiKey
  | inputFile
  | timeoutSeconds
  | retryAttempts
  | retryDelayMillis
  deriving DecidableEq, Repr

/-- How the source of the feeds is written. -/
def sourceLayout (passesOver : Bool) : Layout SourceField SourceSettings where
  wanted := "struct SourceConfig"
  fields := [.domain, .apiKey, .inputFile, .timeoutSeconds, .retryAttempts, .retryDelayMillis]
  name
    | .domain => "domain"
    | .apiKey => "api_key"
    | .inputFile => "input_file"
    | .timeoutSeconds => "timeout_seconds"
    | .retryAttempts => "retry_attempts"
    | .retryDelayMillis => "retry_delay_ms"
  passesOver := passesOver
  start := {}
  take
    | .domain, t, s =>
      (decodeOptional (decodeText "a string") t).map fun domain => { s with domain }
    | .apiKey, t, s =>
      (decodeOptional (decodeText "a string") t).map fun apiKey => { s with apiKey }
    | .inputFile, t, s => (decodeOptional decodePath t).map fun inputFile => { s with inputFile }
    | .timeoutSeconds, t, s =>
      (decode64 t).map fun timeoutSeconds => { s with timeoutSeconds }
    | .retryAttempts, t, s => (decode32 t).map fun retryAttempts => { s with retryAttempts }
    | .retryDelayMillis, t, s =>
      (decode64 t).map fun retryDelayMillis => { s with retryDelayMillis }

/-- The fields of a channel. -/
inductive ChannelField where
  | name
  | spec
  deriving DecidableEq, Repr

/-- How a channel is written. -/
def channelLayout (passesOver : Bool) : Layout ChannelField ChannelEntry where
  wanted := "struct ChannelConfig"
  fields := [.name, .spec]
  name
    | .name => "name"
    | .spec => "spec"
  required _ := true
  passesOver := passesOver
  start := ⟨"", ""⟩
  take
    | .name, t, c => (decodeText "a string" t).map fun name => { c with name }
    | .spec, t, c => (decodePath t).map fun spec => { c with spec }

/-- The fields of the output. -/
inductive OutputField where
  | reportDir
  | logDir
  | verbose
  | quiet
  deriving DecidableEq, Repr

/-- How the output is written. -/
def outputLayout (passesOver : Bool) : Layout OutputField OutputSettings where
  wanted := "struct OutputConfig"
  fields := [.reportDir, .logDir, .verbose, .quiet]
  name
    | .reportDir => "report_dir"
    | .logDir => "log_dir"
    | .verbose => "verbose"
    | .quiet => "quiet"
  passesOver := passesOver
  start := {}
  take
    | .reportDir, t, o => (decodePath t).map fun reportDir => { o with reportDir }
    | .logDir, t, o => (decodePath t).map fun logDir => { o with logDir }
    | .verbose, t, o => (decodeBoolean t).map fun verbose => { o with verbose }
    | .quiet, t, o => (decodeBoolean t).map fun quiet => { o with quiet }

/-- The only field of the part on checking. -/
inductive CheckingField where
  | parallel
  deriving DecidableEq, Repr

/-- How the part on checking is written. -/
def checkingLayout (passesOver : Bool) : Layout CheckingField Bool where
  wanted := "struct ValidationConfig"
  fields := [.parallel]
  name _ := "parallel"
  passesOver := passesOver
  start := false
  take _ t _ := decodeBoolean t

/-- The parts of the settings. -/
inductive SettingsField where
  | run
  | source
  | channels
  | output
  | checking
  deriving DecidableEq, Repr

/-- How settings are written. -/
def settingsLayout (passesOver : Bool) : Layout SettingsField Settings where
  wanted := "struct Config"
  fields := [.run, .source, .channels, .output, .checking]
  name
    | .run => "run"
    | .source => "source"
    | .channels => "channels"
    | .output => "output"
    | .checking => "validation"
  passesOver := passesOver
  start := {}
  take
    | .run, t, s => ((runLayout passesOver).decode true t).map fun run => { s with run }
    | .source, t, s => ((sourceLayout passesOver).decode true t).map fun source => { s with source }
    | .channels, t, s =>
      (decodeList 1 ((channelLayout passesOver).decode true) t).map fun channels =>
        { s with channels }
    | .output, t, s => ((outputLayout passesOver).decode true t).map fun output => { s with output }
    | .checking, t, s =>
      ((checkingLayout passesOver).decode true t).map fun parallel => { s with parallel }

/-! ## TOML values as JSON values -/

/-- A whole number as it is written in JSON. -/
def Json.Numeral.ofInt (n : Int) : Json.Numeral :=
  ⟨n < 0, (toString n.natAbs).toList, none, none⟩

/-- A numeral that is not whole. -/
def Json.Numeral.someFraction : Json.Numeral := ⟨false, ['0'], some ['0'], none⟩

namespace Toml

mutual

/-- The JSON value that is looked at in place of a TOML value. -/
def Value.toTree : Value → Tree
  | .text s => .string (some s)
  | .whole n => .number (.ofInt n)
  | .fraction => .number .someFraction
  | .boolean b => .boolean b
  | .time => .object [] true
  | .array items => .array (listTrees items) true
  | .table _ members => .object (memberTrees members) true
  | .tables each => .array (tableTrees each) true

/-- The JSON values of list items. -/
def listTrees : List Value → List Tree
  | [] => []
  | v :: rest => v.toTree :: listTrees rest

/-- The JSON members of a table. -/
def memberTrees : List (String × Value) → List (Option String × Tree)
  | [] => []
  | (key, v) :: rest => (some key, v.toTree) :: memberTrees rest

/-- The JSON objects of tables. -/
def tableTrees : List (List (String × Value)) → List Tree
  | [] => []
  | t :: rest => .object (memberTrees t) true :: tableTrees rest

end

end Toml

/-! ## Files -/

namespace Settings

/-- Reads settings from a JSON text. -/
def ofJson (text : String) : Except DecodeFault Settings :=
  Json.decodeDocument ((settingsLayout false).decode true) text

/-- Reads settings from a TOML text. -/
def ofToml (text : String) : Except TomlFault Settings :=
  match Toml.Table.read text with
  | .error fault => .error (.text fault)
  | .ok table =>
    ((settingsLayout true).decode true (.object (Toml.memberTrees table) true)).mapError .shape

/-- Reads settings from a text of unknown format. -/
def ofEither (text : String) : Except SettingsError Settings :=
  match ofToml text with
  | .ok settings => .ok settings
  | .error _ => (ofJson text).mapError .json

/-- Reads settings from the text of the file that a path names. -/
def ofFile (path text : String) : Except SettingsError Settings :=
  match Path.extension? path with
  | some "toml" => (ofToml text).mapError .toml
  | some "json" => (ofJson text).mapError .json
  | some extension => .error (.unsupportedFormat extension)
  | none => ofEither text

end Settings

end FeedAudit
