import FeedAudit.Check.Container
import FeedAudit.Json.Decode
import FeedAudit.Storage.FileSystem

/-!
# Errors of a channel

Whatever keeps a channel from being tested to its end is one of these errors. It ends the run of
that channel alone.
-/

namespace FeedAudit

/-- Why a request was not answered, or not to its end: what the network tells of it, its words and
its kinds. Two faults may be of the same kinds and still be told apart by their words. -/
structure TransportFault where
  /-- The fault in words, which do not name the address. -/
  message : String
  /-- It took too long. -/
  isTimeout : Bool := false
  /-- No connection came about. -/
  isConnect : Bool := false
  /-- The request could not be sent, or no answer to it came. -/
  isRequest : Bool := false
  deriving DecidableEq, Repr

/-- Whether asking again may help. -/
def TransportFault.retryable (fault : TransportFault) : Bool :=
  fault.isTimeout || fault.isConnect || fault.isRequest

/-- Why an expectation cannot be loaded. -/
inductive SpecFault where
  | unreadable (fault : IoFault)
  | malformed (fault : Json.DecodeFault)
  deriving DecidableEq, Repr

/-- The fault in words. -/
def SpecFault.message : SpecFault → String
  | .unreadable fault => fault.message
  | .malformed fault => fault.message

/-- Why a channel cannot be tested. -/
inductive FeedError where
  | io (fault : IoFault)
  | http (fault : TransportFault)
  | httpStatus (url : String) (status : Nat) (message : String)
  | timeout (url : String) (seconds : Nat)
  | documentParse (source details : String)
  | containerNotFound (selector : String)
  | invalidContainerSelector (fault : Fault)
  | specLoad (path : String) (fault : SpecFault)
  | unknownChannel (channel : String)
  | config (text : String)
  deriving DecidableEq, Repr

/-- The error in words. -/
def FeedError.message : FeedError → String
  | .io fault => s!"IO error: {fault.message}"
  | .http fault => s!"HTTP error: {fault.message}"
  | .httpStatus url status message => s!"HTTP status error: {status} for {url} - {message}"
  | .timeout url seconds => s!"Request timeout: {url} after {seconds} seconds"
  | .documentParse source details => s!"Document parsing error: {source} - {details}"
  | .containerNotFound selector => s!"Unable to locate container element '{selector}'"
  | .invalidContainerSelector fault => s!"Invalid container selector: {fault.message}"
  | .specLoad path fault => s!"Spec loading error: {path} - {fault.message}"
  | .unknownChannel channel => s!"No spec configured for channel '{channel}'"
  | .config text => s!"Configuration error: {text}"

/-- The error of containers that cannot be found. -/
def FeedError.ofContainers : ContainerFault → FeedError
  | .selector fault => .invalidContainerSelector fault
  | .notFound selector => .containerNotFound selector

end FeedAudit
