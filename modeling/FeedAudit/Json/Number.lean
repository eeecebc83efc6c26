import FeedAudit.Decimal.Shortest

/-!
# Numbers of a JSON text

A numeral is kept as it is written until a value is wanted. One without fraction and exponent that
fits 64 bits, with or without sign, is an integer; every other one, minus zero included, is a
double. A double is formed from the leading digits that fit 64 bits and a power of ten, by one
multiplication or division, and a numeral too large for a double has no value.
-/

namespace FeedAudit.Json

open Decimal

/-- A number as it is written: its sign, the digits before the point, the digits after it, and the
exponent with its own sign. -/
structure Numeral where
  negative : Bool
  whole : List Char
  fraction : Option (List Char)
  exponent : Option (Bool × List Char)
  deriving DecidableEq, Repr, Inhabited

/-- The value of a numeral. -/
inductive Number where
  | integer (n : Int)
  | double (x : Float)

/-! ## Values -/

/-- The value of decimal digits. -/
def digitsValue (digits : List Char) : Nat :=
  digits.foldl (fun n c => n * 10 + (c.toNat - '0'.toNat)) 0

/-- Takes further digits into `n` while the result fits 64 bits; returns the digits left over. -/
def absorb (n : Nat) : List Char → Nat × List Char
  | [] => (n, [])
  | c :: rest =>
    let next := n * 10 + (c.toNat - '0'.toNat)
    if next < Nat.pow 2 64 then absorb next rest else (n, c :: rest)

/-- The double `n · 10 ^ e`, or `none` when it is too large. Exponents below the smallest power of
ten are reached by several divisions. -/
def scale (n : Float) (e : Int) : Option Float :=
  if 0 ≤ e then
    if e ≤ 308 then
      let x := n * Float.ofScientific 1 false e.toNat
      if x.isInf then none else some x
    else if n == 0 then some n else none
  else if -308 ≤ e then some (n / Float.ofScientific 1 false e.natAbs)
  else if n == 0 then some n
  else scale (n / Float.ofScientific 1 false 308) (e + 308)
termination_by e.natAbs

/-- Gives a double its sign. -/
def signed (negative : Bool) (x : Float) : Float := if negative then -x else x

/-- The value of a numeral, or `none` when it is too large for a double. -/
def Numeral.value? (a : Numeral) : Option Number :=
  let (head, skipped) := absorb 0 a.whole
  match a.fraction, a.exponent, skipped with
  | none, none, [] =>
    if !a.negative then some (.integer head)
    else if 0 < head && head ≤ Nat.pow 2 63 then some (.integer (-head))
    else some (.double (-(Float.ofNat head)))
  | fraction, exponent, _ =>
    let places := fraction.getD []
    let (leading, ignored) := absorb head places
    let shift : Int := (skipped.length : Int) - ((places.length : Int) - ignored.length)
    let result :=
      match exponent with
      | none => scale (Float.ofNat leading) shift
      | some (down, digits) =>
        let e := digitsValue digits
        if e < Nat.pow 2 31 then scale (Float.ofNat leading) (if down then shift - e else shift + e)
        else if leading == 0 || down then some 0
        else none
    result.map fun x => .double (signed a.negative x)

/-! ## Text -/

/-- A run of zeros. -/
def zeros (n : Nat) : List Char := List.replicate n '0'

/-- How a decimal is laid out: positionally when its leading digit stands between the fifth place
after the point and the sixteenth before it, else with an exponent that shows its sign. At least
one digit follows a point that is written. -/
def layOut (d : Scientific) : List Char :=
  let digits := (toString d.digits).toList
  let leading : Int := (digits.length : Int) - 1 + d.exponent
  if -5 ≤ leading ∧ leading ≤ 15 then
    if 0 ≤ d.exponent then digits ++ zeros d.exponent.toNat ++ ['.', '0']
    else if 0 ≤ leading then
      let point := (leading + 1).toNat
      digits.take point ++ '.' :: digits.drop point
    else '0' :: '.' :: zeros (-leading - 1).toNat ++ digits
  else
    let power := (if leading < 0 then '-' else '+') :: (toString leading.natAbs).toList
    match digits with
    | [] => []
    | [first] => first :: 'e' :: power
    | first :: rest => first :: '.' :: rest ++ 'e' :: power

/-- The text of a finite double. -/
def doubleText (x : Float) : String :=
  let bits := x.toBits.toNat
  let sign := if Nat.pow 2 63 ≤ bits then ['-'] else []
  let b := Binary.ofBits bits
  String.ofList (sign ++ if b.mantissa = 0 then ['0', '.', '0'] else layOut (shortest b))

/-- The text of a number. -/
def Number.text : Number → String
  | .integer n => toString n
  | .double x => doubleText x

end FeedAudit.Json
