import FeedAudit.Feed.Error
import FeedAudit.Feed.Url

/-!
# Fetching

A feed is asked for until the answer is final. Answers that tell of a fault of the server, requests
that took too long, and requests without an answer are repeated as often as allowed, after waits
that double each time up to a limit. Anything else is final: a success, a fault of the request, or
an answer that broke off.
-/

namespace FeedAudit

/-- How requests are made. -/
structure FetchSettings where
  timeoutSeconds : Nat := 30
  retryAttempts : Nat := 3
  retryDelayMillis : Nat := 1000
  maxRetryDelayMillis : Nat := 30000
  userAgent : String := "validate-feed/0.2.0"
  deriving DecidableEq, Repr, Inhabited

/-- What comes of one request. -/
inductive Attempt where
  /-- An answer with its status, and its text if that came to the end. -/
  | answered (status : Nat) (body : Except TransportFault String)
  | timedOut
  | failed (fault : TransportFault)

/-! ## Status codes -/

/-- Whether a status tells of success. -/
def isSuccess (status : Nat) : Bool := 200 ≤ status && status < 300

/-- Whether a status tells of a fault of the server. -/
def isServerFault (status : Nat) : Bool := 500 ≤ status && status < 600

/-- The standard reason of a status. -/
def statusReason? : Nat → Option String
  | 100 => "Continue"
  | 101 => "Switching Protocols"
  | 102 => "Processing"
  | 103 => "Early Hints"
  | 200 => "OK"
  | 201 => "Created"
  | 202 => "Accepted"
  | 203 => "Non Authoritative Information"
  | 204 => "No Content"
  | 205 => "Reset Content"
  | 206 => "Partial Content"
  | 207 => "Multi-Status"
  | 208 => "Already Reported"
  | 226 => "IM Used"
  | 300 => "Multiple Choices"
  | 301 => "Moved Permanently"
  | 302 => "Found"
  | 303 => "See Other"
  | 304 => "Not Modified"
  | 305 => "Use Proxy"
  | 307 => "Temporary Redirect"
  | 308 => "Permanent Redirect"
  | 400 => "Bad Request"
  | 401 => "Unauthorized"
  | 402 => "Payment Required"
  | 403 => "Forbidden"
  | 404 => "Not Found"
  | 405 => "Method Not Allowed"
  | 406 => "Not Acceptable"
  | 407 => "Proxy Authentication Required"
  | 408 => "Request Timeout"
  | 409 => "Conflict"
  | 410 => "Gone"
  | 411 => "Length Required"
  | 412 => "Precondition Failed"
  | 413 => "Payload Too Large"
  | 414 => "URI Too Long"
  | 415 => "Unsupported Media Type"
  | 416 => "Range Not Satisfiable"
  | 417 => "Expectation Failed"
  | 418 => "I'm a teapot"
  | 421 => "Misdirected Request"
  | 422 => "Unprocessable Entity"
  | 423 => "Locked"
  | 424 => "Failed Dependency"
  | 425 => "Too Early"
  | 426 => "Upgrade Required"
  | 428 => "Precondition Required"
  | 429 => "Too Many Requests"
  | 431 => "Request Header Fields Too Large"
  | 451 => "Unavailable For Legal Reasons"
  | 500 => "Internal Server Error"
  | 501 => "Not Implemented"
  | 502 => "Bad Gateway"
  | 503 => "Service Unavailable"
  | 504 => "Gateway Timeout"
  | 505 => "HTTP Version Not Supported"
  | 506 => "Variant Also Negotiates"
  | 507 => "Insufficient Storage"
  | 508 => "Loop Detected"
  | 510 => "Not Extended"
  | 511 => "Network Authentication Required"
  | _ => none

/-- A status in words. -/
def statusMessage (status : Nat) : String :=
  s!"HTTP {status}: " ++ (statusReason? status).getD "Unknown"

/-! ## One attempt -/

/-- Whether asking again may bring another answer. -/
def Attempt.retryable : Attempt → Bool
  | answered status _ => isServerFault status
  | timedOut => true
  | failed fault => fault.retryable

/-- What an attempt means if it is the last. -/
def Attempt.settle (url : String) (timeoutSeconds : Nat) : Attempt → Except FeedError String
  | answered status body =>
    if isSuccess status then body.mapError .http
    else .error (.httpStatus (redactUrl url) status (statusMessage status))
  | timedOut => .error (.timeout (redactUrl url) timeoutSeconds)
  | failed fault => .error (.http fault)

/-! ## All attempts -/

/-- The wait before a request is repeated after `failures` others. -/
def FetchSettings.retryDelay (s : FetchSettings) (failures : Nat) : Nat :=
  min (s.retryDelayMillis * Nat.pow 2 failures) s.maxRetryDelayMillis

/-- Asks until the answer is final, at most `left` times more after the first. -/
def fetchWithin {m : Type → Type} [Monad m] (request : m Attempt) (wait : Nat → m Unit)
    (settings : FetchSettings) (url : String) (failures : Nat) :
    (left : Nat) → m (Except FeedError String)
  | 0 => do return (← request).settle url settings.timeoutSeconds
  | left + 1 => do
    let attempt ← request
    if attempt.retryable then
      wait (settings.retryDelay failures)
      fetchWithin request wait settings url (failures + 1) left
    else return attempt.settle url settings.timeoutSeconds

/-- Fetches the text at an address. -/
def fetchText {m : Type → Type} [Monad m] (request : m Attempt) (wait : Nat → m Unit)
    (settings : FetchSettings) (url : String) : m (Except FeedError String) :=
  fetchWithin request wait settings url 0 settings.retryAttempts

end FeedAudit
