import FeedAudit.Feed.Error
import FeedAudit.Report

/-!
# Outcomes of channels

A channel is either run to its end, which leaves a report whatever its verdict, or aborted by an
error. A whole run ends with an exit code that tells the worst of its channels.
-/

namespace FeedAudit

/-- What came of a channel. -/
inductive ChannelOutcome where
  | completed (report : ChannelReport)
  | aborted (channel : String) (error : FeedError)
  deriving Repr

namespace ChannelOutcome

/-- The channel of an outcome. -/
def channel : ChannelOutcome → String
  | completed report => report.channel
  | aborted channel _ => channel

def isAborted : ChannelOutcome → Bool
  | completed _ => false
  | aborted _ _ => true

/-- Whether a channel ran to its end and did not pass. -/
def isFailing : ChannelOutcome → Bool
  | completed report => !report.verdict.isPass
  | aborted _ _ => false

end ChannelOutcome

/-- The exit code of a run: two when a channel was aborted, else one when a channel did not pass,
else zero. -/
def exitCode (outcomes : List ChannelOutcome) : Nat :=
  if outcomes.any ChannelOutcome.isAborted then 2
  else if outcomes.any ChannelOutcome.isFailing then 1
  else 0

end FeedAudit
