/-!
# Reading whole numbers

A whole number given by hand is a run of decimal digits, with or without a leading plus sign and
with any number of leading zeros. It is read from left to right against the largest value that is
allowed: the first character that is no digit, or the first digit that goes beyond the limit,
decides what is wrong with the text.
-/

namespace FeedAudit.Decimal

/-- What is wrong with the text of a whole number. -/
inductive WholeFault where
  | noDigits
  | badDigit
  | tooLarge
  | tooSmall
  deriving DecidableEq, Repr

/-- The fault in words. -/
def WholeFault.message : WholeFault → String
  | .noDigits => "cannot parse integer from empty string"
  | .badDigit => "invalid digit found in string"
  | .tooLarge => "number too large to fit in target type"
  | .tooSmall => "number too small to fit in target type"

/-- The value of a decimal digit. -/
def digitValue (c : Char) : Nat := c.toNat - '0'.toNat

/-- Reads on after the digits worth `read`, up to the value `limit`. -/
def readDigits (limit read : Nat) : List Char → Except WholeFault Nat
  | [] => .ok read
  | c :: rest =>
    if !c.isDigit then .error .badDigit
    else if limit < read * 10 + digitValue c then .error .tooLarge
    else readDigits limit (read * 10 + digitValue c) rest

/-- Reads a number from zero to `limit`. -/
def readNatural (limit : Nat) (s : String) : Except WholeFault Nat :=
  match s.toList with
  | [] => .error .noDigits
  | ['+'] => .error .badDigit
  | '+' :: digits => readDigits limit 0 digits
  | digits => readDigits limit 0 digits

/-- Reads a number from `-(limit + 1)` to `limit`. -/
def readInteger (limit : Nat) (s : String) : Except WholeFault Int :=
  match s.toList with
  | [] => .error .noDigits
  | ['-'] => .error .badDigit
  | '-' :: digits =>
    match readDigits (limit + 1) 0 digits with
    | .ok n => .ok (-n)
    | .error .tooLarge => .error .tooSmall
    | .error fault => .error fault
  | _ => (readNatural limit s).map Int.ofNat

/-- The largest number of 32 bits. -/
def largest32 : Nat := Nat.pow 2 32 - 1

/-- The largest number of 64 bits. -/
def largest64 : Nat := Nat.pow 2 64 - 1

/-- The largest number of 64 bits of which one is the sign. -/
def largestSigned64 : Nat := Nat.pow 2 63 - 1

end FeedAudit.Decimal
