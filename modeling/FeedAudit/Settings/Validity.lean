import FeedAudit.Settings.Basic
import FeedAudit.Settings.Error
import FeedAudit.Text.Blank

/-!
# Validity of settings

Settings can be used when the channels have names of their own, the one to be run is among them, a
source is given, and no numbers or switches contradict each other. What is looked at first is
reported first.
-/

namespace FeedAudit

/-- The largest number of repetitions of a request. -/
def mostRetries : Nat := 10

/-- What is wrong with the name of a channel behind others. -/
def nameObjection (before : List String) (name : String) : Option Objection :=
  if Text.trim name = "" then some .namelessChannel
  else if name = allChannels then some (.reservedName name)
  else if name ∈ before then some (.repeatedChannel name)
  else none

/-- What is wrong with the names of channels behind others, the first fault first. -/
def namesObjection (before : List String) : List String → Option Objection
  | [] => none
  | name :: rest =>
    match nameObjection before name with
    | some objection => some objection
    | none => namesObjection (before ++ [name]) rest

namespace Settings

/-- The names of the channels that can be tested. -/
def channelNames (s : Settings) : List String := s.effectiveChannels.map (·.name)

/-- Whether the feeds come from somewhere. -/
def hasSource (s : Settings) : Bool :=
  s.source.inputFile.isSome || (s.source.domain.isSome && s.source.apiKey.isSome)

/-- What is wrong with settings besides the names of their channels. -/
def valueObjection (s : Settings) : Option Objection :=
  if s.run.channel ≠ allChannels ∧ s.run.channel ∉ s.channelNames then
    some (.unknownChannel s.run.channel (allChannels :: s.channelNames))
  else if s.source.timeoutSeconds = 0 then some .noTimeout
  else if mostRetries < s.source.retryAttempts then some .manyRetries
  else if !s.hasSource then some .noSource
  else if s.output.verbose && s.output.quiet then some .verboseAndQuiet
  else none

/-- What is wrong with settings, if anything is. -/
def objection? (s : Settings) : Option Objection :=
  (namesObjection [] s.channelNames).or s.valueObjection

/-- Refuses settings that cannot be used. -/
def validate (s : Settings) : Except SettingsError Unit :=
  match s.objection? with
  | some objection => .error (.validation objection)
  | none => .ok ()

end Settings

end FeedAudit
