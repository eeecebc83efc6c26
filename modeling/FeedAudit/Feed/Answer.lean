import FeedAudit.Feed.Address
import FeedAudit.Feed.Fetch
import FeedAudit.Text.Blank
import FeedAudit.Text.Digits
import FeedAudit.Text.Utf8

/-!
# Requests and answers

A request is a few lines of text. An answer has a head, which tells its status, and a body, whose
end is told by the head, by marks within the body, or by the end of the connection. A body that
ends before that is cut short. An answer may lead to another address, which is then asked instead.
-/

namespace FeedAudit

/-! ## Requests -/

/-- The lines of a request. -/
def requestText (settings : FetchSettings) (a : Address) : String :=
  let host := if a.port = Address.usualPort then a.host else s!"{a.host}:{a.port}"
  s!"GET {a.target} HTTP/1.1\r\naccept: */*\r\nuser-agent: {settings.userAgent}\r\n" ++
    s!"host: {host}\r\nconnection: close\r\n\r\n"

/-! ## Answers -/

/-- An answer. -/
structure Answer where
  status : Nat
  headers : List (String × String)
  body : Except TransportFault (List UInt8)

namespace Answer

/-- The fault of a request to which no answer came. -/
def missing : TransportFault where
  message := "the request was not answered"
  isRequest := true

/-- The fault of an answer that ended before it was complete. -/
def cutShort : TransportFault where
  message := "the answer was cut short"

/-- The fault of answers of which each leads to another address, more often than is followed. -/
def endless : TransportFault where
  message := "the answers lead on and on"

/-- The head of an answer, without the empty line behind it, and the bytes of the body. -/
def splitHead : List UInt8 → Option (List UInt8 × List UInt8)
  | 13 :: 10 :: 13 :: 10 :: rest => some ([], rest)
  | b :: rest => (splitHead rest).map fun (head, body) => (b :: head, body)
  | [] => none

/-- A header, its name in small letters. -/
def headerOf (line : String) : Option (String × String) :=
  (Text.splitFirst ':' line).map fun (name, value) =>
    (String.ofList (name.toList.map Char.toLower), Text.trim value)

/-- The status in the first line of an answer. -/
def statusOf (line : String) : Option Nat :=
  match Text.pieces ' ' line with
  | version :: status :: _ =>
    if "HTTP/1.".isPrefixOf version && status.length == 3 then
      Text.decimalNumber? status.toList
    else none
  | _ => none

/-- The first value of a header. -/
def header? (headers : List (String × String)) (name : String) : Option String :=
  (headers.find? fun h => h.1 == name).map (·.2)

/-! ## Bodies -/

/-- The bytes up to the end of the line, and those behind it. -/
def splitLine : List UInt8 → Option (List UInt8 × List UInt8)
  | 13 :: 10 :: rest => some ([], rest)
  | b :: rest => (splitLine rest).map fun (line, more) => (b :: line, more)
  | [] => none

/-- The bytes of a body that comes in at most the given number of pieces, each of which is headed
by its length; a piece of length zero is the end. -/
def joinPieces : Nat → List UInt8 → Except TransportFault (List UInt8)
  | 0, _ => .error cutShort
  | n + 1, bytes =>
    match splitLine bytes with
    | none => .error cutShort
    | some (line, rest) =>
      let digits := (Text.decodeBytes line).toList.takeWhile fun c => c != ';' && c != ' '
      match Text.hexNumber? digits with
      | none => .error cutShort
      | some 0 => .ok []
      | some length =>
        if rest.length < length then .error cutShort
        else (joinPieces n (rest.drop (length + 2))).map (rest.take length ++ ·)

/-- The body of an answer, given all bytes up to the end of the connection. -/
def bodyOf (status : Nat) (headers : List (String × String)) (bytes : List UInt8) :
    Except TransportFault (List UInt8) :=
  if status = 204 ∨ status = 304 then .ok []
  else if (header? headers "transfer-encoding").any fun v => Text.occursIn "chunked" v then
    joinPieces (bytes.length + 1) bytes
  else
    match (header? headers "content-length").bind fun v => Text.decimalNumber? v.toList with
    | some length => if bytes.length < length then .error cutShort else .ok (bytes.take length)
    | none => .ok bytes

/-- Reads an answer from all bytes up to the end of the connection. -/
def read (bytes : List UInt8) : Option Answer := do
  let (head, body) ← splitHead bytes
  match (Text.pieces '\n' (Text.decodeBytes head)).map Text.trim with
  | [] => none
  | first :: lines =>
    let status ← statusOf first
    let headers := lines.filterMap headerOf
    return ⟨status, headers, bodyOf status headers body⟩

/-- The address to which an answer leads. -/
def location? (answer : Answer) : Option String :=
  if answer.status ∈ [301, 302, 303, 307, 308] then header? answer.headers "location" else none

/-- What comes of a request that is answered. -/
def attempt (answer : Answer) : Attempt :=
  .answered answer.status (answer.body.map Text.decodeBytes)

end Answer

/-! ## Following -/

/-- The number of times that an answer may lead to another address. -/
def mostMoves : Nat := 10

/-- Asks an address, and those to which its answers lead. -/
def askFollowing {m : Type → Type} [Monad m] (ask : Address → m (Except TransportFault Answer)) :
    (moves : Nat) → Address → m Attempt
  | moves, a => do
    match ← ask a with
    | .error fault => return .failed fault
    | .ok answer =>
      match answer.location?, moves with
      | none, _ => return answer.attempt
      | some _, 0 => return .failed Answer.endless
      | some location, left + 1 =>
        match a.follow location with
        | .ok next => askFollowing ask left next
        | .error fault => return .failed fault

/-- Asks an address that is given as a text. -/
def askUrl {m : Type → Type} [Monad m] (ask : Address → m (Except TransportFault Answer))
    (url : String) : m Attempt :=
  match Address.read url with
  | .ok a => askFollowing ask mostMoves a
  | .error fault => return .failed fault

end FeedAudit
