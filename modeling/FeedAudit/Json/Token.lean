import FeedAudit.Json.Number
import FeedAudit.Text.Digits

/-!
# Tokens of a JSON text

A JSON text is first cut into tokens: the six delimiters, the three words, numerals and strings.
Blanks between tokens are the space, the tab and the two line ends. Where no token can be cut off
the list ends with `bad`, so that everything before the fault can still be looked at first.

A string may name single halves of a surrogate pair by their numbers; such a string is a token but
stands for no text.
-/

namespace FeedAudit.Json

/-- A token. -/
inductive Token where
  | openArray
  | closeArray
  | openObject
  | closeObject
  | comma
  | colon
  | null
  | boolean (b : Bool)
  | number (a : Numeral)
  /-- A string and the text it stands for, if any. -/
  | string (text : Option String)
  /-- Something that is no token. -/
  | bad
  deriving DecidableEq, Repr

/-! ## Strings -/

/-- An element of a string: a character that stands for itself, or a numbered half-word. -/
inductive Unit16 where
  | char (c : Char)
  | half (n : Nat)
  deriving DecidableEq, Repr

/-- The character that a short escape stands for. -/
def shortEscape? : Char → Option Char
  | '"' => some '"'
  | '\\' => some '\\'
  | '/' => some '/'
  | 'b' => some '\x08'
  | 'f' => some '\x0c'
  | 'n' => some '\n'
  | 'r' => some '\r'
  | 't' => some '\t'
  | _ => none

/-- The elements of a string whose opening quote has been read, and what follows the closing one.
Controls may not stand in a string. -/
def scanString : List Char → Option (List Unit16 × List Char)
  | [] => none
  | '"' :: rest => some ([], rest)
  | '\\' :: 'u' :: a :: b :: c :: d :: rest =>
    match Text.hexNumber? [a, b, c, d], scanString rest with
    | some n, some (units, after) => some (.half n :: units, after)
    | _, _ => none
  | '\\' :: c :: rest =>
    match shortEscape? c, scanString rest with
    | some e, some (units, after) => some (.char e :: units, after)
    | _, _ => none
  | c :: rest =>
    if c.toNat < 0x20 then none
    else
      match scanString rest with
      | some (units, after) => some (.char c :: units, after)
      | none => none

def isLeadingHalf (n : Nat) : Bool := 0xD800 ≤ n && n < 0xDC00

def isTrailingHalf (n : Nat) : Bool := 0xDC00 ≤ n && n < 0xE000

/-- The text that the elements of a string stand for; half of a pair stands for nothing. -/
def unitsText : List Unit16 → Option (List Char)
  | [] => some []
  | .char c :: rest => (unitsText rest).map (c :: ·)
  | .half n :: .half m :: rest =>
    if isLeadingHalf n then
      if isTrailingHalf m then
        (unitsText rest).map (Char.ofNat (0x10000 + (n - 0xD800) * 0x400 + (m - 0xDC00)) :: ·)
      else none
    else if isTrailingHalf n then none
    else (unitsText (.half m :: rest)).map (Char.ofNat n :: ·)
  | .half n :: rest =>
    if isLeadingHalf n || isTrailingHalf n then none
    else (unitsText rest).map (Char.ofNat n :: ·)

/-! ## Numerals -/

/-- Cuts the digits off the front. -/
def scanDigits (cs : List Char) : List Char × List Char :=
  (cs.takeWhile Char.isDigit, cs.dropWhile Char.isDigit)

/-- The digits after a point, if there is one; a point must be followed by a digit. -/
def scanFraction : List Char → Option (Option (List Char) × List Char)
  | '.' :: rest =>
    let (digits, after) := scanDigits rest
    if digits = [] then none else some (some digits, after)
  | cs => some (none, cs)

/-- The exponent, if there is one; it must have a digit. -/
def scanExponent : List Char → Option (Option (Bool × List Char) × List Char)
  | c :: rest =>
    if c = 'e' ∨ c = 'E' then
      let (down, unsigned) :=
        match rest with
        | '+' :: more => (false, more)
        | '-' :: more => (true, more)
        | more => (false, more)
      let (digits, after) := scanDigits unsigned
      if digits = [] then none else some (some (down, digits), after)
    else some (none, c :: rest)
  | [] => some (none, [])

/-- Whether digits may stand before the point: there is one, and no zero is put in front. -/
def properWhole : List Char → Bool
  | [] => false
  | ['0'] => true
  | '0' :: _ => false
  | _ => true

/-- A numeral whose sign has been read. -/
def scanUnsigned (negative : Bool) (cs : List Char) : Option (Numeral × List Char) := do
  let (whole, rest) := scanDigits cs
  if !properWhole whole then none
  let (fraction, rest) ← scanFraction rest
  let (exponent, rest) ← scanExponent rest
  return (⟨negative, whole, fraction, exponent⟩, rest)

/-! ## Tokens -/

/-- The blanks between tokens. -/
def isSpace (c : Char) : Bool := c == ' ' || c == '\t' || c == '\n' || c == '\r'

/-- The token at the front and what follows it; the text must start with no blank. -/
def scanToken : List Char → Option (Token × List Char)
  | '[' :: rest => some (.openArray, rest)
  | ']' :: rest => some (.closeArray, rest)
  | '\x7b' :: rest => some (.openObject, rest)
  | '\x7d' :: rest => some (.closeObject, rest)
  | ',' :: rest => some (.comma, rest)
  | ':' :: rest => some (.colon, rest)
  | 'n' :: 'u' :: 'l' :: 'l' :: rest => some (.null, rest)
  | 't' :: 'r' :: 'u' :: 'e' :: rest => some (.boolean true, rest)
  | 'f' :: 'a' :: 'l' :: 's' :: 'e' :: rest => some (.boolean false, rest)
  | '"' :: rest =>
    (scanString rest).map fun (units, after) =>
      (.string ((unitsText units).map String.ofList), after)
  | '-' :: rest => (scanUnsigned true rest).map fun (a, after) => (.number a, after)
  | cs => (scanUnsigned false cs).map fun (a, after) => (.number a, after)

/-- The tokens of a text, at most `fuel` of them. -/
def tokensUpTo : Nat → List Char → List Token
  | 0, _ => [.bad]
  | fuel + 1, cs =>
    match cs.dropWhile isSpace with
    | [] => []
    | c :: rest =>
      match scanToken (c :: rest) with
      | some (token, after) => token :: tokensUpTo fuel after
      | none => [.bad]

/-- The tokens of a text. Every token takes a character at least, so their number is bounded by the
length of the text. -/
def tokens (cs : List Char) : List Token := tokensUpTo (cs.length + 1) cs

end FeedAudit.Json
