import FeedAudit.Settings.Arguments
import FeedAudit.Settings.Environment

/-!
# Layers of settings

Settings come in layers: defaults, a settings file, the environment, and the command line. A later
layer goes before an earlier one in every setting that it gives; where it says nothing, the earlier
one stays.
-/

namespace FeedAudit

/-! ## Channels -/

/-- The channels with an entry added: it replaces the expectation of the first channel of its name,
or stands behind all others. -/
def addEntry (e : ChannelEntry) : List ChannelEntry → List ChannelEntry
  | [] => [e]
  | c :: rest => if c.name = e.name then { c with spec := e.spec } :: rest else c :: addEntry e rest

/-- The channels with entries added one after the other. -/
def addEntries (channels entries : List ChannelEntry) : List ChannelEntry :=
  entries.foldl (fun channels e => addEntry e channels) channels

namespace Settings

/-- The channels when the command line names some: they are added to the configured ones, or to
the conventional ones when none are configured. -/
def channelsWith (s : Settings) (entries : List ChannelEntry) : List ChannelEntry :=
  if entries.isEmpty then s.channels else addEntries s.effectiveChannels entries

/-! ## Layers -/

/-- Whether output is verbose and whether it is quiet, with what the command line says about both
at once. -/
def loudness (s : Settings) (a : Arguments) : Bool × Bool :=
  if a.quiet then (false, true)
  else if a.verbose then (true, false)
  else (s.output.verbose, s.output.quiet)

/-- The settings with what the command line says in front of them. -/
def withArguments (s : Settings) (a : Arguments) : Settings :=
  let (verbose, quiet) := s.loudness a
  { run := {
      channel := a.channel.getD s.run.channel
      limit := a.limit.getD s.run.limit }
    source := { s.source with
      domain := a.domain.or s.source.domain
      apiKey := a.apiKey.or s.source.apiKey
      inputFile := a.inputFile.or s.source.inputFile
      timeoutSeconds := a.timeout.getD s.source.timeoutSeconds
      retryAttempts := a.retryAttempts.getD s.source.retryAttempts }
    channels := s.channelsWith a.specs
    output := {
      reportDir := a.outputDir.getD s.output.reportDir
      logDir := a.logDir.getD s.output.logDir
      verbose := verbose
      quiet := quiet }
    parallel := a.parallel || s.parallel }

/-- Two settings put together, of which the second goes first; where the source or the channels of
the second leave something open, the first fills it. -/
def overriddenBy (base file : Settings) : Settings :=
  { file with
    source := { file.source with
      domain := file.source.domain.or base.source.domain
      apiKey := file.source.apiKey.or base.source.apiKey
      inputFile := file.source.inputFile.or base.source.inputFile }
    channels := if file.channels.isEmpty then base.channels else file.channels }

end Settings

end FeedAudit
