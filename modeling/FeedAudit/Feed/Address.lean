import FeedAudit.Decimal.Whole
import FeedAudit.Feed.Error
import FeedAudit.Text.Piece

/-!
# Addresses on the network

The address of a feed names a host, a port on it, and what is asked for there. Blanks around an
address and line ends within it do not count; a fragment is not sent; characters that may not stand
in a request are sent as the numbers of their bytes.
-/

namespace FeedAudit

/-- Where a request goes, and what it asks for. -/
structure Address where
  host : String
  port : Nat
  target : String
  deriving DecidableEq, Repr

namespace Address

/-! ## Escaping -/

/-- A digit of a number in base sixteen. -/
def hexDigit (n : Nat) : Char := Char.ofNat (if n < 10 then 48 + n else 55 + n)

/-- The characters that stand for a byte. -/
def escapedByte (b : UInt8) : List Char := ['%', hexDigit (b.toNat / 16), hexDigit (b.toNat % 16)]

/-- The characters that no request may hold as they are, beside controls and all beyond ASCII. -/
def isEscaped (inQuery : Bool) (c : Char) : Bool :=
  c.toNat ≤ 0x20 || 0x7F ≤ c.toNat || c == '"' || c == '<' || c == '>' ||
    (if inQuery then c == '\'' else c == '\x60' || c == '\x7b' || c == '\x7d' || c == '^')

/-- Characters as they may stand in a request. -/
def escaped (inQuery : Bool) (cs : List Char) : List Char :=
  cs.flatMap fun c =>
    if isEscaped inQuery c then c.toString.toUTF8.toList.flatMap escapedByte else [c]

/-! ## Reading -/

/-- The characters that end the name of a host and its port. -/
def endsHost (c : Char) : Bool := c == '/' || c == '\\' || c == '?' || c == '#'

/-- Whether a character may stand in the name of a host. -/
def isHostCharacter (c : Char) : Bool :=
  c.isAlphanum || c == '-' || c == '.' || c == '_' || c == '~' || c == '!' || c == '$' ||
    c == '&' || c == '\'' || c == '(' || c == ')' || c == '*' || c == '+' || c == ',' ||
    c == ';' || c == '='

/-- The port of a scheme if none is given. -/
def usualPort : Nat := 80

/-- Reads a port. -/
def readPort (digits : List Char) : Option Nat :=
  if digits.isEmpty then some usualPort
  else if digits.all Char.isDigit then
    (Decimal.readNatural 65535 (String.ofList digits)).toOption
  else none

/-- Reads a host and a port. -/
def readHost (cs : List Char) : Option (String × Nat) := do
  let (name, port) ←
    match Text.splitFirstChars ':' cs with
    | some (name, digits) => (readPort digits).map fun port => (name, port)
    | none => some (cs, usualPort)
  if name.isEmpty || !name.all isHostCharacter then none
  else some (String.ofList (name.map Char.toLower), port)

/-- What is asked for, given what stands behind the host. -/
def targetOf (cs : List Char) : String :=
  let sent := cs.takeWhile (· != '#')
  match Text.splitFirstChars '?' sent with
  | some (path, query) =>
    String.ofList ((if path.isEmpty then ['/'] else escaped false path) ++
      '?' :: escaped true query)
  | none => String.ofList (if sent.isEmpty then ['/'] else escaped false sent)

/-- The characters of an address that count. -/
def counted (url : String) : List Char :=
  let kept := (url.toList.dropWhile (·.toNat ≤ 0x20)).reverse.dropWhile (·.toNat ≤ 0x20)
  kept.reverse.filter fun c => c != '\t' && c != '\n' && c != '\r'

/-- The fault of an address that is none, so that nothing is asked. -/
def malformed : TransportFault where
  message := "the address is not well-formed"

/-- The fault of an address that asks for a secure connection, which is not supported. -/
def secure : TransportFault where
  message := "secure connections are not supported"

/-- Reads what stands behind the name of the scheme. -/
def readRest (cs : List Char) : Except TransportFault Address :=
  let body := cs.dropWhile fun c => c == '/' || c == '\\'
  let authority := body.takeWhile fun c => !endsHost c
  let place := (Text.pieceChars '@' authority).getLast?.getD []
  match readHost place with
  | some (host, port) => .ok ⟨host, port, targetOf (body.drop authority.length)⟩
  | none => .error malformed

/-- Reads an address. -/
def read (url : String) : Except TransportFault Address :=
  match Text.splitFirstChars ':' (counted url) with
  | none => .error malformed
  | some (scheme, rest) =>
    let scheme := String.ofList (scheme.map Char.toLower)
    if scheme = "http" then readRest rest
    else if scheme = "https" then .error secure
    else .error malformed

/-- The address to which an answer from another address leads. -/
def follow (from_ : Address) (location : String) : Except TransportFault Address :=
  match location.toList with
  | '/' :: '/' :: _ => read ("http:" ++ location)
  | '/' :: _ => .ok { from_ with target := targetOf location.toList }
  | _ => read location

end Address

end FeedAudit
