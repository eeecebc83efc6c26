/-!
# Fixed decimal places

A number is written with a fixed count of decimal places by rounding it to the nearest multiple of
the last place; a tie goes to the even neighbour. Numbers that are held as doubles are first
rounded to 53 significant binary digits by the same rule, here spelled out on rationals.
-/

namespace FeedAudit.Decimal

/-- The nearest integer to a rational; a half goes to the even neighbour. -/
def roundHalfEven (x : Rat) : Int :=
  let below := x.floor
  let rest := x - below
  if rest < 1 / 2 then below
  else if 1 / 2 < rest then below + 1
  else if below % 2 = 0 then below else below + 1

/-- Writes a number that is not negative with `places` decimal places. -/
def fixed (places : Nat) (x : Rat) : String :=
  let units := (roundHalfEven (x * (Nat.pow 10 places : Nat))).toNat
  let whole := toString (units / Nat.pow 10 places)
  let fraction := toString (units % Nat.pow 10 places)
  if places = 0 then whole
  else whole ++ "." ++ String.ofList (List.replicate (places - fraction.length) '0') ++ fraction

/-- The exponent `e` with `2 ^ e ≤ x < 2 ^ (e + 1)`, for a positive `x`. -/
def binaryExponent (x : Rat) : Int :=
  let guess : Int := (x.num.natAbs.log2 : Int) - (x.den.log2 : Int)
  if (2 : Rat) ^ guess ≤ x then guess else guess - 1

/-- The number with 53 significant binary digits nearest to one that is not negative. -/
def nearestDouble (x : Rat) : Rat :=
  if x ≤ 0 then 0
  else
    let unit : Rat := (2 : Rat) ^ (binaryExponent x - 52)
    roundHalfEven (x / unit) * unit

end FeedAudit.Decimal
