import FeedAudit.Feed.Fetch
import FeedAudit.Settings.Basic

/-!
# Sources of feeds

Feeds are read from one file, which then serves every channel, or fetched from the interface of a
domain. A file goes first when both are given.
-/

namespace FeedAudit

/-- Where the text of a channel's feed is taken from. -/
inductive FeedSource where
  | file (path : String)
  | domain (name key : String)
  deriving DecidableEq, Repr

/-- The source that settings mean; what they leave out is empty. -/
def Settings.feedSource (s : Settings) : FeedSource :=
  match s.source.inputFile with
  | some path => .file path
  | none => .domain (s.source.domain.getD "") (s.source.apiKey.getD "")

/-- The text of a channel's feed. -/
def FeedSource.fetch {m : Type → Type} [Monad m] (source : FeedSource)
    (readText : String → m (Except IoFault String)) (request : FetchSettings → String → m Attempt)
    (wait : Nat → m Unit) (settings : FetchSettings) (channel : String) (limit : Nat) :
    m (Except FeedError String) :=
  match source with
  | .file path => do return (← readText path).mapError .io
  | .domain name key =>
    let url := feedUrl name key channel limit
    fetchText (request settings url) wait settings url

end FeedAudit
