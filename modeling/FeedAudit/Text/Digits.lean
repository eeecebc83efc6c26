/-!
# Numbers written in digits

A number is written in decimal digits, or in hexadecimal ones, of which those above nine are the
letters from `a` to `f`, large or small.
-/

namespace FeedAudit.Text

/-- The value of a decimal digit. -/
def decimalValue? (c : Char) : Option Nat :=
  if c.isDigit then some (c.toNat - '0'.toNat) else none

/-- The value of a hexadecimal digit. -/
def hexValue? (c : Char) : Option Nat :=
  if c.isDigit then some (c.toNat - '0'.toNat)
  else if 'a' ≤ c ∧ c ≤ 'f' then some (c.toNat - 'a'.toNat + 10)
  else if 'A' ≤ c ∧ c ≤ 'F' then some (c.toNat - 'A'.toNat + 10)
  else none

/-- The value of digits in a base, if there are any and all are digits. -/
def numberOf? (base : Nat) (digit? : Char → Option Nat) (cs : List Char) : Option Nat :=
  if cs.isEmpty then none
  else cs.foldl (fun n c => do return (← n) * base + (← digit? c)) (some 0)

/-- The value of hexadecimal digits. -/
def hexNumber? (cs : List Char) : Option Nat := numberOf? 16 hexValue? cs

/-- The value of decimal digits. -/
def decimalNumber? (cs : List Char) : Option Nat := numberOf? 10 decimalValue? cs

end FeedAudit.Text
