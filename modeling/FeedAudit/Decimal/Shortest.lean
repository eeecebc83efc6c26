/-!
# Shortest decimal of a double

A finite double stands for every real number that rounds to it. Among the decimals in that
interval the *shortest* one has the fewest digits; it is found on the coarsest decimal grid, that
is the largest power of ten, that has a point in the interval. If a grid has such a point then one
of the two grid neighbours of the double itself is one, so only these two are tried; of two hits
the nearer is taken, and of two equally near ones the even one.
-/

namespace FeedAudit.Decimal

/-- The decimal `digits · 10 ^ exponent`. -/
structure Scientific where
  digits : Nat
  exponent : Int
  deriving DecidableEq, Repr

/-! ## Taking a double apart -/

/-- A finite double `mantissa · 2 ^ exponent`, without its sign. -/
structure Binary where
  mantissa : Nat
  exponent : Int
  deriving DecidableEq, Repr

/-- The magnitude coded by the 64 bits of a finite double. -/
def Binary.ofBits (bits : Nat) : Binary :=
  let fraction : Nat := bits % Nat.pow 2 52
  let biased : Nat := bits / Nat.pow 2 52 % Nat.pow 2 11
  if biased = 0 then ⟨fraction, -1074⟩ else ⟨Nat.pow 2 52 + fraction, (biased : Int) - 1075⟩

/-- Twice the distance down to the previous double is smaller at a power of two. -/
def Binary.atPowerOfTwo (b : Binary) : Bool :=
  b.mantissa == Nat.pow 2 52 && b.exponent != -1074

/-! ## The search -/

/-- The numerator of a power: `base ^ e` for `e` at least zero, else one. -/
def powerAbove (base : Nat) (e : Int) : Nat := Nat.pow base e.toNat

/-- The denominator of a power: `base ^ (-e)` for `e` at most zero, else one. -/
def powerBelow (base : Nat) (e : Int) : Nat := Nat.pow base (-e).toNat

/-- The point of the grid of multiples of `10 ^ x` that reads back as `b`, if there is one. All
quantities are multiples of a common unit, a quarter of the last bit over the denominator of the
grid. -/
def gridPoint? (b : Binary) (x : Int) : Option Nat :=
  let scale := powerAbove 2 (b.exponent - 2) * powerBelow 10 x
  let step := powerAbove 10 x * powerBelow 2 (b.exponent - 2)
  let value := 4 * b.mantissa * scale
  let low := (4 * b.mantissa - (if b.atPowerOfTwo then 1 else 2)) * scale
  let high := (4 * b.mantissa + 2) * scale
  let even := b.mantissa % 2 == 0
  let inside (k : Nat) : Bool :=
    if even then low ≤ k * step && k * step ≤ high else low < k * step && k * step < high
  let below := value / step
  match inside below, inside (below + 1) with
  | true, true =>
    let down := value - below * step
    let up := (below + 1) * step - value
    if down < up || (down == up && below % 2 == 0) then some below else some (below + 1)
  | true, false => some below
  | false, true => some (below + 1)
  | false, false => none

/-- The shortest decimal that reads back as the double `b`, which must not be zero. -/
def shortest (b : Binary) : Scientific :=
  let grids := (List.range 634).map fun (i : Nat) => (309 : Int) - i
  (grids.findSome? fun x => (gridPoint? b x).map fun k => ⟨k, x⟩).getD ⟨0, 0⟩

end FeedAudit.Decimal
