import FeedAudit.Channel.Input
import FeedAudit.Console
import FeedAudit.Feed.Fetch
import FeedAudit.Storage.Path

/-!
# Settings

The settings of a run say which channels are tested and against which expectations, where the feeds
come from, where reports and logs go and how much the console shows. Every one of them has a
default, save that the feeds have to come from somewhere.
-/

namespace FeedAudit

/-- Which channels are tested, and on how many records; a limit of zero is no limit. -/
structure RunSettings where
  channel : String := allChannels
  limit : Nat := 0
  deriving DecidableEq, Repr, Inhabited

/-- Where the feeds come from: a file, or a domain that is asked with a key. -/
structure SourceSettings where
  domain : Option String := none
  apiKey : Option String := none
  inputFile : Option String := none
  timeoutSeconds : Nat := 30
  retryAttempts : Nat := 3
  retryDelayMillis : Nat := 1000
  deriving DecidableEq, Repr, Inhabited

/-- A channel and the file of its expectation. -/
structure ChannelEntry where
  name : String
  spec : String
  deriving DecidableEq, Repr, Inhabited

/-- Where reports and logs go, and how much the console shows. -/
structure OutputSettings where
  reportDir : String := "reports"
  logDir : String := "log"
  verbose : Bool := false
  quiet : Bool := false
  deriving DecidableEq, Repr, Inhabited

/-- All settings. -/
structure Settings where
  run : RunSettings := {}
  source : SourceSettings := {}
  channels : List ChannelEntry := []
  output : OutputSettings := {}
  /-- Whether the containers of a channel are checked side by side. -/
  parallel : Bool := false
  deriving DecidableEq, Repr, Inhabited

/-! ## Channels -/

/-- The entry of a channel whose expectation is where it is by convention. -/
def ChannelEntry.conventional (name : String) : ChannelEntry :=
  ⟨name, Path.join "etc" (name ++ "_element.json")⟩

/-- The channels that are tested when the settings name none. -/
def conventionalChannels : List ChannelEntry :=
  ["movie", "game", "website", "tv", "book", "music"].map ChannelEntry.conventional

/-- A channel with its expectation, which is read when the channel is run. -/
def ChannelEntry.setup (e : ChannelEntry) : ChannelSetup := ⟨e.name, .file e.spec⟩

namespace Settings

/-- The channels that can be tested. -/
def effectiveChannels (s : Settings) : List ChannelEntry :=
  if s.channels.isEmpty then conventionalChannels else s.channels

/-- How much the console shows; to be quiet goes first. -/
def verbosity (s : Settings) : Verbosity :=
  if s.output.quiet then .quiet else if s.output.verbose then .verbose else .normal

/-- How requests are made. -/
def fetching (s : Settings) : FetchSettings :=
  { timeoutSeconds := s.source.timeoutSeconds
    retryAttempts := s.source.retryAttempts
    retryDelayMillis := s.source.retryDelayMillis }

end Settings

end FeedAudit
