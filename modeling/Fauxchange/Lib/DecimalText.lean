import Mathlib.Algebra.Order.Ring.Rat
import Mathlib.Tactic.ByContra
import Mathlib.Tactic.FieldSimp
import Mathlib.Tactic.IntervalCases
import Mathlib.Tactic.Ring
import Fauxchange.Lib.CheckedDigits

/-! Unsigned decimals as they are written, with the number each denotes. -/

namespace Fauxchange.Lib

/-- One or more digits, and after a point at most so many more. -/
structure DecimalText (scale : Nat) where
  units : List Char
  fraction : List Char
  present : units ≠ []
  unitDigits : units.all Char.isDigit
  fractionDigits : fraction.all Char.isDigit
  short : fraction.length ≤ scale

namespace DecimalText
variable {scale : Nat}

/-- A point stands only before a digit. -/
def characters (decimal : DecimalText scale) : List Char :=
  decimal.units ++ if decimal.fraction = [] then [] else '.' :: decimal.fraction

def text (decimal : DecimalText scale) : String := String.ofList decimal.characters

/-- The number a decimal denotes. -/
def value (decimal : DecimalText scale) : Rat :=
  Nat.ofDigitChars 10 decimal.units 0 + Nat.ofDigitChars 10 decimal.fraction 0 / 10 ^ decimal.fraction.length

/-- The number in units of the last place. -/
def scaled (decimal : DecimalText scale) : Nat :=
  Nat.ofDigitChars 10 decimal.units 0 * 10 ^ scale +
    Nat.ofDigitChars 10 decimal.fraction 0 * 10 ^ (scale - decimal.fraction.length)

/-- Every place is written out, and no zero leads another digit. -/
structure Canonical (decimal : DecimalText scale) : Prop where
  places : decimal.fraction.length = scale
  leading : 1 < decimal.units.length → decimal.units.head? ≠ some '0'

theorem cast_scaled (decimal : DecimalText scale) : (decimal.scaled : Rat) = decimal.value * 10 ^ scale := by
  have places : (10 : Rat) ^ scale = 10 ^ (scale - decimal.fraction.length) * 10 ^ decimal.fraction.length := by
    rw [← pow_add, Nat.sub_add_cancel decimal.short]
  have nonzero : (10 : Rat) ^ decimal.fraction.length ≠ 0 := pow_ne_zero _ (by norm_num)
  unfold scaled value
  push_cast
  rw [add_mul, places]
  field_simp

/-- Two decimals of one scale denote the same number when they agree in the last place. -/
theorem value_eq_of_scaled {decimal other : DecimalText scale} (same : decimal.scaled = other.scaled) :
    decimal.value = other.value := by
  have nonzero : (10 : Rat) ^ scale ≠ 0 := pow_ne_zero _ (by norm_num)
  apply mul_right_cancel₀ nonzero
  rw [← cast_scaled, ← cast_scaled, same]

end DecimalText

/-- A numeral of two digits or more has the first digit of all but its last. -/
theorem head?_toDigits {value : Nat} (large : 10 ≤ value) :
    (Nat.toDigits 10 value).head? = (Nat.toDigits 10 (value / 10)).head? := by
  rw [Nat.toDigits_of_base_le (by decide) large, List.head?_append, List.head?_eq_some_head Nat.toDigits_ne_nil]
  rfl

/-- No zero leads the numeral of a positive number. -/
theorem head?_toDigits_ne_zero {value : Nat} (positive : 0 < value) : (Nat.toDigits 10 value).head? ≠ some '0' := by
  induction value using Nat.strong_induction_on with
  | _ value ih =>
    by_cases small : value < 10
    · rw [Nat.toDigits_of_lt_base small]
      interval_cases value <;> decide
    · rw [head?_toDigits (by omega)]
      exact ih (value / 10) (by omega) (by omega)

theorem leading_toDigits {value : Nat} (several : 1 < (Nat.toDigits 10 value).length) :
    (Nat.toDigits 10 value).head? ≠ some '0' := by
  apply head?_toDigits_ne_zero
  by_contra zero
  obtain rfl : value = 0 := by omega
  revert several
  decide

end Fauxchange.Lib
