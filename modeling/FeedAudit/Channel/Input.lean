import FeedAudit.Expectation.File
import FeedAudit.Feed.Error

/-!
# What a channel is tested with

A channel is tested by holding the document of its feed against its expectation. The expectation
is given, or it is kept in a file that is read when the channel is run, so that a bad file is an
error of that channel alone.
-/

namespace FeedAudit

/-- What is selected to run all channels. -/
def allChannels : String := "all"

/-- Where the expectation of a channel comes from. -/
inductive ExpectationSource where
  | given (spec : ContainerSpec)
  | file (path : String)
  deriving Repr

/-- A channel that can be tested. -/
structure ChannelSetup where
  channel : String
  expectation : ExpectationSource
  deriving Repr

/-- The expectation that a file holds. -/
def ContainerSpec.ofFile (path : String) (content : Except IoFault String) :
    Except FeedError ContainerSpec :=
  match content with
  | .error fault => .error (.specLoad path (.unreadable fault))
  | .ok text =>
    match ContainerSpec.ofText text with
    | .ok spec => .ok spec
    | .error fault => .error (.specLoad path (.malformed fault))

/-- The document that the text of a feed holds; `source` says where the text comes from. -/
def documentOfFeed (source text : String) : Except FeedError Markup.Document :=
  (Markup.Document.read text).mapError fun fault => .documentParse source fault.message

end FeedAudit
