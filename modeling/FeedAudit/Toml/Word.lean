import FeedAudit.Text.Digits
import FeedAudit.Text.Piece
import FeedAudit.Toml.Value

/-!
# Words of a TOML text

What is written without quotes is a truth value, a number, or a point in time. The digits of a
number may be grouped by single underscores; a whole number may be written in base sixteen, eight
or two, then without a sign. A time consists of a date, a time of day, or both, and the latter may
have an offset behind it.
-/

namespace FeedAudit.Toml

open FeedAudit.Text

/-- The characters of words. -/
def isWordCharacter (c : Char) : Bool :=
  c.isAlphanum || c == '+' || c == '-' || c == '.' || c == '_' || c == ':'

/-! ## Numbers -/

/-- The digits of a number without the underscores that group them, if these stand singly between
digits. -/
def ungrouped? (digit? : Char → Option Nat) (cs : List Char) : Option (List Char) :=
  let groups := pieceChars '_' cs
  if groups.all fun g => !g.isEmpty && g.all fun c => (digit? c).isSome then some groups.flatten
  else none

/-- The value of a digit in base eight. -/
def octalValue? (c : Char) : Option Nat := if '0' ≤ c ∧ c ≤ '7' then decimalValue? c else none

/-- The value of a digit in base two. -/
def binaryValue? (c : Char) : Option Nat := if c == '0' || c == '1' then decimalValue? c else none

/-- The value of digits that may be grouped. -/
def groupedNumber? (base : Nat) (digit? : Char → Option Nat) (cs : List Char) : Option Nat :=
  (ungrouped? digit? cs).bind (numberOf? base digit?)

/-- The value of decimal digits that may be grouped, with no zero in front. -/
def properNumber? (cs : List Char) : Option Nat :=
  (ungrouped? decimalValue? cs).bind fun digits =>
    if digits.length ≠ 1 ∧ digits.head? = some '0' then none else decimalNumber? digits

/-- Takes the sign off a number. -/
def unsigned : List Char → Bool × List Char
  | '+' :: rest => (false, rest)
  | '-' :: rest => (true, rest)
  | cs => (false, cs)

/-- The whole number that a word stands for. -/
def wholeNumber? (cs : List Char) : Option Int :=
  match cs with
  | '0' :: 'x' :: digits => (groupedNumber? 16 hexValue? digits).map Int.ofNat
  | '0' :: 'o' :: digits => (groupedNumber? 8 octalValue? digits).map Int.ofNat
  | '0' :: 'b' :: digits => (groupedNumber? 2 binaryValue? digits).map Int.ofNat
  | _ =>
    let (negative, digits) := unsigned cs
    (properNumber? digits).map fun n => if negative then -(n : Int) else n

/-- Cuts the exponent off a number. -/
def splitExponent (cs : List Char) : List Char × Option (List Char) :=
  match splitFirstChars 'e' (cs.map fun c => if c == 'E' then 'e' else c) with
  | some (mantissa, exponent) => (mantissa, some exponent)
  | none => (cs, none)

/-- A number with fraction or exponent: the digits of its mantissa as a whole number, and the power
of ten by which that is multiplied. -/
def scientific? (cs : List Char) : Option (Nat × Int) := do
  let (mantissa, exponent) := splitExponent cs
  let power : Int ←
    match exponent with
    | none => some 0
    | some digits =>
      let (down, digits) := unsigned digits
      (groupedNumber? 10 decimalValue? digits).map fun n => if down then -(n : Int) else n
  match splitFirstChars '.' mantissa with
  | some (whole, fraction) =>
    let n ← properNumber? whole
    let places ← ungrouped? decimalValue? fraction
    let m ← decimalNumber? places
    return (n * Nat.pow 10 places.length + m, power - places.length)
  | none =>
    if exponent.isNone then none
    else return (← properNumber? mantissa, power)

/-- The number of decimal digits of a number. -/
def digitCount (n : Nat) : Nat := (Nat.toDigits 10 n).length

/-- Whether `n · 10 ^ e` rounds to a double that is finite. -/
def fitsDouble (n : Nat) (e : Int) : Bool :=
  let leading : Int := digitCount n + e
  if n == 0 || leading < 309 then true
  else if 309 < leading then false
  else
    n * Nat.pow 10 e.toNat <
      (Nat.pow 2 54 - 1) * Nat.pow 2 970 * Nat.pow 10 (-e).toNat

/-- Whether a word is a number that is not whole. -/
def isFraction (cs : List Char) : Bool :=
  let (_, digits) := unsigned cs
  digits == ['i', 'n', 'f'] || digits == ['n', 'a', 'n'] ||
    match scientific? digits with
    | some (n, e) => fitsDouble n e
    | none => false

/-! ## Times -/

/-- The value of exactly two digits. -/
def twoDigits? (cs : List Char) : Option Nat :=
  if cs.length = 2 then decimalNumber? cs else none

/-- The number of days of a month. -/
def daysOfMonth (year month : Nat) : Nat :=
  if month = 2 then
    if year % 4 = 0 ∧ (year % 100 ≠ 0 ∨ year % 400 = 0) then 29 else 28
  else if month = 4 ∨ month = 6 ∨ month = 9 ∨ month = 11 then 30
  else 31

/-- Whether a word is a date. -/
def isDate (cs : List Char) : Bool :=
  match pieceChars '-' cs with
  | [year, month, day] =>
    match decimalNumber? year, twoDigits? month, twoDigits? day with
    | some y, some m, some d =>
      year.length == 4 && 1 ≤ m && m ≤ 12 && 1 ≤ d && d ≤ daysOfMonth y m
    | _, _, _ => false
  | _ => false

/-- Whether a word is the seconds of a time of day. -/
def isSecond (cs : List Char) : Bool :=
  match splitFirstChars '.' cs with
  | none => (twoDigits? cs).any (· ≤ 60)
  | some (whole, fraction) => (twoDigits? whole).any (· ≤ 60) && (decimalNumber? fraction).isSome

/-- Whether a word is a time of day. -/
def isClock (cs : List Char) : Bool :=
  match pieceChars ':' cs with
  | [hour, minute] => (twoDigits? hour).any (· ≤ 23) && (twoDigits? minute).any (· ≤ 59)
  | [hour, minute, second] =>
    (twoDigits? hour).any (· ≤ 23) && (twoDigits? minute).any (· ≤ 59) && isSecond second
  | _ => false

/-- Whether a word is an offset from universal time. -/
def isOffset (cs : List Char) : Bool :=
  match cs with
  | ['Z'] => true
  | ['z'] => true
  | '+' :: clock => clock.length == 5 && isClock clock
  | '-' :: clock => clock.length == 5 && isClock clock
  | _ => false

/-- Whether a word is a time of day with an offset behind it, or none. -/
def isOffsetClock (cs : List Char) : Bool :=
  let clock := cs.takeWhile fun c => c.isDigit || c == ':' || c == '.'
  let offset := cs.drop clock.length
  isClock clock && (offset.isEmpty || isOffset offset)

/-- Whether a word is a point in time. -/
def isTime (cs : List Char) : Bool :=
  isDate cs || isClock cs ||
    (isDate (cs.take 10) &&
      match cs.drop 10 with
      | 'T' :: clock => isOffsetClock clock
      | 't' :: clock => isOffsetClock clock
      | ' ' :: clock => isOffsetClock clock
      | _ => false)

/-! ## Words -/

/-- The largest number, in either direction, that a whole number may be. -/
def fitsWord (n : Int) : Bool :=
  if n < 0 then n.natAbs ≤ Nat.pow 2 127 else n.natAbs < Nat.pow 2 128

/-- The value of a word. -/
def Value.ofWord (cs : List Char) : Except Fault Value :=
  match cs with
  | ['t', 'r', 'u', 'e'] => .ok (.boolean true)
  | ['f', 'a', 'l', 's', 'e'] => .ok (.boolean false)
  | _ =>
    match wholeNumber? cs with
    | some n => if fitsWord n then .ok (.whole n) else .error .badWord
    | none =>
      if isFraction cs then .ok .fraction
      else if isTime cs then .ok .time
      else .error .badWord

/-- Reads a word. One blank may stand between a date and a time of day. -/
def readWord (cs : List Char) : Except Fault (Value × List Char) :=
  let word := cs.takeWhile isWordCharacter
  let rest := cs.drop word.length
  if word.isEmpty then .error .badValue
  else
    match isDate word, rest with
    | true, ' ' :: c :: more =>
      if c.isDigit then
        let clock := (c :: more).takeWhile isWordCharacter
        (Value.ofWord (word ++ ' ' :: clock)).map fun v => (v, (c :: more).drop clock.length)
      else (Value.ofWord word).map fun v => (v, rest)
    | _, _ => (Value.ofWord word).map fun v => (v, rest)

end FeedAudit.Toml
