import FeedAudit.Json.Printer
import Mathlib.Algebra.Group.Nat.Defs
import Mathlib.Data.Nat.Basic

/-!
# Integers and how they are written

An integer literal has neither a fraction nor an exponent, no zero in front, and a value that fits
64 bits, with or without sign. Its value is written with the same characters as the literal
(`Numeral.IsInteger.text_eq`).
-/

namespace FeedAudit.Json

open Decimal

/-- An integer literal of the range that 64 bits have with or without sign; minus zero is none. -/
structure Numeral.IsInteger (a : Numeral) : Prop where
  digits : ∀ c ∈ a.whole, c.isDigit
  proper : properWhole a.whole
  fraction : a.fraction = none
  exponent : a.exponent = none
  range : if a.negative then 0 < digitsValue a.whole ∧ digitsValue a.whole ≤ 2 ^ 63
    else digitsValue a.whole < 2 ^ 64

/-! ## Values -/

/-- The value of decimal digits behind those of `n`. -/
def digitsValueFrom (n : Nat) (digits : List Char) : Nat :=
  digits.foldl (fun n c => n * 10 + (c.toNat - '0'.toNat)) n

/-- A digit is added behind the value so far. -/
theorem digitsValueFrom_cons (n : Nat) (c : Char) (rest : List Char) :
    digitsValueFrom n (c :: rest) = digitsValueFrom (n * 10 + (c.toNat - '0'.toNat)) rest := by
  rw [digitsValueFrom, List.foldl_cons, ← digitsValueFrom]

/-- Further digits do not make a value smaller. -/
theorem le_digitsValueFrom (n : Nat) (digits : List Char) : n ≤ digitsValueFrom n digits := by
  induction digits generalizing n with
  | nil => exact Nat.le_refl n
  | cons c rest ih =>
    rw [digitsValueFrom_cons]
    have hrest := ih (n * 10 + (c.toNat - '0'.toNat))
    omega

/-- Digits are taken in to the end when the result fits. -/
theorem absorb_of_lt {n : Nat} {digits : List Char}
    (hfits : digitsValueFrom n digits < Nat.pow 2 64) :
    absorb n digits = (digitsValueFrom n digits, []) := by
  induction digits generalizing n with
  | nil => rfl
  | cons c rest ih =>
    rw [digitsValueFrom_cons] at hfits ⊢
    have hnext := Nat.lt_of_le_of_lt (le_digitsValueFrom _ rest) hfits
    rw [absorb, if_pos hnext, ih hfits]

/-! ## Texts -/

/-- A digit is the character of its value, which is less than ten. -/
theorem digitChar_of_isDigit {c : Char} (hc : c.isDigit) :
    c.toNat - '0'.toNat < 10 ∧ Nat.digitChar (c.toNat - '0'.toNat) = c := by
  have hrange : 48 ≤ c.toNat ∧ c.toNat ≤ 57 := by
    simp only [Char.isDigit, Bool.and_eq_true, decide_eq_true_eq] at hc
    exact ⟨UInt32.le_iff_toNat_le.mp hc.1, UInt32.le_iff_toNat_le.mp hc.2⟩
  have hdigits : ∀ n < 10, Nat.digitChar n = Char.ofNat (48 + n) := by decide
  have hlt : c.toNat - '0'.toNat < 10 := by
    change c.toNat - 48 < 10
    omega
  refine ⟨hlt, ?_⟩
  have hback : 48 + (c.toNat - '0'.toNat) = c.toNat := by
    change 48 + (c.toNat - 48) = c.toNat
    omega
  rw [hdigits _ hlt, hback, Char.ofNat_toNat]

/-- Further digits stand behind those of a positive number. -/
theorem toDigits_digitsValueFrom {n : Nat} (hn : 0 < n) {digits : List Char}
    (hdigits : ∀ c ∈ digits, c.isDigit) :
    Nat.toDigits 10 (digitsValueFrom n digits) = Nat.toDigits 10 n ++ digits := by
  induction digits generalizing n with
  | nil => exact (List.append_nil _).symm
  | cons c rest ih =>
    obtain ⟨hlt, hchar⟩ := digitChar_of_isDigit (hdigits c List.mem_cons_self)
    have hpositive : 0 < n * 10 + (c.toNat - '0'.toNat) := by omega
    have hnext : Nat.toDigits 10 (n * 10 + (c.toNat - '0'.toNat)) = Nat.toDigits 10 n ++ [c] := by
      rw [Nat.mul_comm, ← Nat.toDigits_append_toDigits (by decide) hn hlt,
        Nat.toDigits_of_lt_base hlt, hchar]
    rw [digitsValueFrom_cons, ih hpositive fun d hd => hdigits d (List.mem_cons_of_mem c hd), hnext,
      List.append_assoc, List.singleton_append]

/-- Digits without a zero in front are those of their value. -/
theorem toDigits_digitsValue {digits : List Char} (hdigits : ∀ c ∈ digits, c.isDigit)
    (hproper : properWhole digits) : Nat.toDigits 10 (digitsValue digits) = digits := by
  cases digits with
  | nil => cases hproper
  | cons c rest =>
    obtain ⟨hlt, hchar⟩ := digitChar_of_isDigit (hdigits c List.mem_cons_self)
    have hvalue : digitsValue (c :: rest) = digitsValueFrom (c.toNat - '0'.toNat) rest := by
      rw [digitsValue, ← digitsValueFrom, digitsValueFrom_cons, Nat.zero_mul, Nat.zero_add]
    rw [hvalue]
    by_cases hzero : c = '0'
    · subst hzero
      cases rest with
      | nil => rfl
      | cons d rest => cases hproper
    · have hpositive : 0 < c.toNat - '0'.toNat := by
        by_contra hnot
        have hnone : c.toNat - '0'.toNat = 0 := by omega
        rw [hnone] at hchar
        exact hzero hchar.symm
      rw [toDigits_digitsValueFrom hpositive fun d hd => hdigits d (List.mem_cons_of_mem c hd),
        Nat.toDigits_of_lt_base hlt, hchar, List.singleton_append]

/-- An integer literal has an integer for its value, and this is written as the literal is. -/
theorem Numeral.IsInteger.text_eq {a : Numeral} (ha : a.IsInteger) :
    ∃ n, a.value? = some (.integer n) ∧ toString n = String.ofList a.print := by
  obtain ⟨hdigits, hproper, hfraction, hexponent, hrange⟩ := ha
  have htext := toDigits_digitsValue hdigits hproper
  have hfits : digitsValueFrom 0 a.whole < Nat.pow 2 64 := by
    change digitsValue a.whole < 2 ^ 64
    split at hrange
    · omega
    · exact hrange
  have habsorb : absorb 0 a.whole = (digitsValue a.whole, []) := absorb_of_lt hfits
  rw [Numeral.value?, habsorb, hfraction, hexponent, Numeral.print, hfraction, hexponent]
  simp only [List.append_nil]
  cases hsign : a.negative with
  | false =>
    refine ⟨digitsValue a.whole, rfl, ?_⟩
    rw [Int.toString_eq_repr, Int.repr_eq_if, if_pos (by omega), Int.toNat_natCast,
      Nat.repr_eq_ofList_toDigits, htext]
    rfl
  | true =>
    rw [if_pos hsign] at hrange
    obtain ⟨hpositive, hlimit⟩ := hrange
    refine ⟨-digitsValue a.whole, ?_, ?_⟩
    · have hin : (decide (0 < digitsValue a.whole) && decide (digitsValue a.whole ≤ Nat.pow 2 63)) =
          true := by
        rw [Bool.and_eq_true, decide_eq_true_eq, decide_eq_true_eq]
        exact ⟨hpositive, hlimit⟩
      simp only [Bool.not_true, Bool.false_eq_true, if_false, hin, if_true]
    · rw [Int.toString_eq_repr, Int.repr_eq_if, if_neg (by omega), Int.neg_neg, Int.toNat_natCast,
        Nat.repr_eq_ofList_toDigits, htext]
      exact String.ofList_append.symm

end FeedAudit.Json
