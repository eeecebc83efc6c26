import FeedAudit.Decimal.Places
import FeedAudit.Proofs.Storage
import Mathlib.Data.Rat.Floor
import Mathlib.Tactic.Linarith

/-!
# Rounded numbers and their texts

A number that is written with decimal places is first rounded to the nearest number of units, which
are those of the last place. Rounding keeps the order and is off by half a unit at most
(`abs_nearestUnits_sub_le`), and the text that is written tells the number of units
(`placesText_inj`).
-/

namespace FeedAudit

/-! ## Rounding -/

namespace Decimal

/-- Rounding moves a number by half a unit at most. -/
theorem abs_roundHalfEven_sub_le (x : ℚ) : |(roundHalfEven x : ℚ) - x| ≤ 1 / 2 := by
  have hbelow := x.floor_le
  have habove := x.lt_floor_add_one
  push_cast at habove
  rw [abs_le]
  unfold roundHalfEven
  dsimp only
  split_ifs with hless hmore heven
  · constructor <;> linarith
  · push_cast
    constructor <;> linarith
  · constructor <;> linarith
  · push_cast
    constructor <;> linarith

/-- Rounding keeps the order of numbers. -/
theorem roundHalfEven_mono {x y : ℚ} (hxy : x ≤ y) : roundHalfEven x ≤ roundHalfEven y := by
  by_contra hless
  have hstep : ((roundHalfEven y : ℤ) : ℚ) + 1 ≤ roundHalfEven x := by
    exact_mod_cast Int.lt_of_not_ge hless
  have hx := abs_le.mp (abs_roundHalfEven_sub_le x)
  have hy := abs_le.mp (abs_roundHalfEven_sub_le y)
  -- Two numbers that are rounded towards each other by half a unit each are the same.
  have heq : x = y := by linarith
  exact hless (heq ▸ le_refl (roundHalfEven x))

/-- Whole numbers are rounded to themselves. -/
theorem roundHalfEven_intCast (m : ℤ) : roundHalfEven m = m := by
  unfold roundHalfEven
  simp [Rat.floor_intCast]

/-- A number is rounded up to an even one from half a unit below it on. -/
theorem le_roundHalfEven_iff {m : ℤ} (hm : m % 2 = 0) {x : ℚ} :
    m ≤ roundHalfEven x ↔ (m : ℚ) - 1 / 2 ≤ x := by
  have hround := abs_le.mp (abs_roundHalfEven_sub_le x)
  constructor
  · intro hle
    have hcast : (m : ℚ) ≤ roundHalfEven x := by exact_mod_cast hle
    linarith
  · intro hle
    have hfloor : m - 1 ≤ x.floor := by
      rw [Rat.le_floor_iff]
      push_cast
      linarith
    unfold roundHalfEven
    dsimp only
    split_ifs with hless hmore heven
    · by_contra hnot
      have hodd : x.floor = m - 1 := by omega
      rw [hodd] at hless
      push_cast at hless
      linarith
    · omega
    · omega
    · omega

/-- The number of units, of which there are not less than none, that is nearest to a number. -/
def nearestUnits (x : ℚ) : ℕ := (roundHalfEven x).toNat

/-- A number that is not negative is rounded to the nearest whole number, and of two to the even
one. -/
theorem natCast_nearestUnits {x : ℚ} (hx : 0 ≤ x) : (nearestUnits x : ℤ) = roundHalfEven x := by
  have hzero : (0 : ℤ) ≤ roundHalfEven x := by
    rw [← roundHalfEven_intCast 0]
    exact roundHalfEven_mono hx
  exact Int.toNat_of_nonneg hzero

/-- Rounding is off by half a unit at most. -/
theorem abs_nearestUnits_sub_le {x : ℚ} (hx : 0 ≤ x) : |(nearestUnits x : ℚ) - x| ≤ 1 / 2 := by
  have hcast : ((nearestUnits x : ℕ) : ℚ) = (roundHalfEven x : ℤ) := by
    exact_mod_cast congrArg (Int.cast : ℤ → ℚ) (natCast_nearestUnits hx)
  rw [hcast]
  exact abs_roundHalfEven_sub_le x

/-- Rounding to units keeps the order of numbers. -/
theorem nearestUnits_mono {x y : ℚ} (hxy : x ≤ y) : nearestUnits x ≤ nearestUnits y :=
  Int.toNat_le_toNat (roundHalfEven_mono hxy)

/-- Whole units are rounded to themselves. -/
theorem nearestUnits_natCast (m : ℕ) : nearestUnits m = m := by
  have hround := roundHalfEven_intCast m
  unfold nearestUnits
  rw [Int.cast_natCast] at hround
  rw [hround, Int.toNat_natCast]

/-- A number is not rounded below a whole number that it reaches. -/
theorem le_nearestUnits {m : ℕ} {x : ℚ} (hx : (m : ℚ) ≤ x) : m ≤ nearestUnits x := by
  rw [← nearestUnits_natCast m]
  exact nearestUnits_mono hx

/-- A number is not rounded above a whole number that it does not exceed. -/
theorem nearestUnits_le {m : ℕ} {x : ℚ} (hx : x ≤ m) : nearestUnits x ≤ m := by
  rw [← nearestUnits_natCast m]
  exact nearestUnits_mono hx

/-- There are as many units as an even number of them from half a unit below it on. -/
theorem le_nearestUnits_iff {m : ℕ} (hm : m % 2 = 0) {x : ℚ} (hx : 0 ≤ x) :
    m ≤ nearestUnits x ↔ (m : ℚ) - 1 / 2 ≤ x := by
  have hround := le_roundHalfEven_iff (m := m) (by omega) (x := x)
  rw [← natCast_nearestUnits hx, Int.cast_natCast, Nat.cast_le] at hround
  exact hround

end Decimal

/-! ## Texts -/

/-- A number that is filled up with zeros is known from its digits. -/
theorem padded_inj {width m n : ℕ} (heq : padded width m = padded width n) : m = n := by
  have hvalue : ∀ k, Nat.ofDigitChars 10 (padded width k).toList 0 = k := by
    intro k
    have hzeros : ∀ j, Nat.ofDigitChars 10 (List.replicate j '0') 0 = 0 := by
      intro j
      induction j with
      | zero => rfl
      | succ j ih =>
        rw [List.replicate_succ, Nat.ofDigitChars_cons]
        exact ih
    unfold padded
    dsimp only
    rw [String.toList_append, String.toList_ofList, Nat.ofDigitChars_append, hzeros]
    exact ofDigitChars_repr k
  rw [← hvalue m, heq, hvalue]

namespace Decimal

/-- The text of a number with decimal places is that of its units, which are those of the last
place. -/
def placesText (places units : ℕ) : String :=
  toString (units / 10 ^ places) ++ "." ++ padded places (units % 10 ^ places)

/-- A number with fixed places is written as the nearest number of units of the last place. -/
theorem fixed_eq {places : ℕ} (hplaces : places ≠ 0) (x : ℚ) :
    fixed places x = placesText places (nearestUnits (x * (10 ^ places : ℕ))) := by
  unfold fixed placesText padded
  rw [if_neg hplaces]
  simp only [String.append_assoc]
  rfl

/-- There is a point before the places. -/
theorem point_mem_placesText (places units : ℕ) : '.' ∈ (placesText places units).toList := by
  simp [placesText]

/-- There is nothing but digits and a point in a number with places. -/
theorem not_mem_placesText {c : Char} (hc : c.isDigit = false) (hpoint : c ≠ '.')
    (places units : ℕ) : c ∉ (placesText places units).toList := by
  unfold placesText
  rw [String.toList_append, String.toList_append, List.mem_append, List.mem_append]
  rintro ((hwhole | hmem) | hfraction)
  · exact not_mem_repr hc _ hwhole
  · exact hpoint (List.mem_singleton.mp hmem)
  · exact not_mem_padded hc _ _ hfraction

/-- Numbers with the same places are told apart by their texts. -/
theorem placesText_inj {places units units' : ℕ}
    (heq : placesText places units = placesText places units') : units = units' := by
  have hcut : ∀ u, Text.splitFirst '.' (placesText places u) =
      some (toString (u / 10 ^ places), padded places (u % 10 ^ places)) := fun u =>
    Text.splitFirst_append (not_mem_repr (by decide) _) _
  have hparts := hcut units
  rw [heq, hcut, Option.some.injEq, Prod.mk.injEq] at hparts
  have hwhole := eq_of_repr_eq hparts.1
  have hfraction := padded_inj hparts.2
  rw [← Nat.div_add_mod units (10 ^ places), ← hwhole, ← hfraction, Nat.div_add_mod]

end Decimal

end FeedAudit
