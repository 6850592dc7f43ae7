import Mathlib.Algebra.GroupWithZero.Nat

/-! Decimal numerals folded with an overflow check. -/

namespace Fauxchange.Lib

def checkedDigit (bound acc : Nat) (digit : Char) : Option Nat :=
  if digit.isDigit ∧ 10 * acc + (digit.toNat - '0'.toNat) ≤ bound then
    some (10 * acc + (digit.toNat - '0'.toNat))
  else none

/-- The value of a digit string, or nothing on a byte that is no digit or a value past the bound. -/
def checkedDigits (bound : Nat) (digits : List Char) : Option Nat :=
  digits.foldlM (checkedDigit bound) 0

/-- A numeral padded with leading zeros to at least a width. -/
def padded (width value : Nat) : List Char :=
  List.replicate (width - (Nat.toDigits 10 value).length) '0' ++ Nat.toDigits 10 value

variable {bound value acc : Nat} {digits : List Char}

theorem le_ofDigitChars : acc ≤ Nat.ofDigitChars 10 digits acc := by
  induction digits generalizing acc with
  | nil => simp
  | cons digit rest ih =>
    rw [Nat.ofDigitChars_cons]
    exact Nat.le_trans (by omega) ih

theorem digit_le {digit : Char} (isDigit : digit.isDigit) : digit.toNat - '0'.toNat ≤ 9 := by
  simp only [Char.isDigit, Bool.and_eq_true, decide_eq_true_eq] at isDigit
  have top : digit.toNat ≤ '9'.toNat := isDigit.2
  have nine : '9'.toNat = 57 := rfl
  have zero : '0'.toNat = 48 := rfl
  omega

theorem zero_le_digit {digit : Char} (isDigit : digit.isDigit) : '0'.toNat ≤ digit.toNat := by
  simp only [Char.isDigit, Bool.and_eq_true, decide_eq_true_eq] at isDigit
  exact isDigit.1

theorem ofDigitChars_lt_mul (allDigits : digits.all Char.isDigit) :
    Nat.ofDigitChars 10 digits acc < 10 ^ digits.length * (acc + 1) := by
  induction digits generalizing acc with
  | nil => simp
  | cons digit rest ih =>
    simp only [List.all_cons, Bool.and_eq_true] at allDigits
    rw [Nat.ofDigitChars_cons, List.length_cons, Nat.pow_succ, Nat.mul_assoc]
    have step := digit_le allDigits.1
    exact Nat.lt_of_lt_of_le (ih allDigits.2) (Nat.mul_le_mul_left _ (by omega))

/-- A run of digits stays below the power of ten of its length. -/
theorem ofDigitChars_lt (allDigits : digits.all Char.isDigit) : Nat.ofDigitChars 10 digits 0 < 10 ^ digits.length := by
  have below := @ofDigitChars_lt_mul 0 digits allDigits
  rwa [Nat.zero_add, Nat.mul_one] at below

theorem foldlM_checkedDigit (allDigits : digits.all Char.isDigit) (fits : Nat.ofDigitChars 10 digits acc ≤ bound) :
    digits.foldlM (checkedDigit bound) acc = some (Nat.ofDigitChars 10 digits acc) := by
  induction digits generalizing acc with
  | nil => simp
  | cons digit rest ih =>
    simp only [List.all_cons, Bool.and_eq_true] at allDigits
    rw [Nat.ofDigitChars_cons] at fits ⊢
    have below := Nat.le_trans le_ofDigitChars fits
    rw [List.foldlM_cons, checkedDigit, if_pos ⟨allDigits.1, below⟩]
    exact ih allDigits.2 fits

theorem checkedDigits_eq (allDigits : digits.all Char.isDigit) (fits : Nat.ofDigitChars 10 digits 0 ≤ bound) :
    checkedDigits bound digits = some (Nat.ofDigitChars 10 digits 0) :=
  foldlM_checkedDigit allDigits fits

theorem foldlM_checkedDigit_some (folded : digits.foldlM (checkedDigit bound) acc = some value) :
    digits.all Char.isDigit ∧ Nat.ofDigitChars 10 digits acc = value ∧ (acc ≤ bound → value ≤ bound) := by
  induction digits generalizing acc with
  | nil =>
    obtain rfl : acc = value := by simpa using folded
    simp
  | cons digit rest ih =>
    rw [List.foldlM_cons, checkedDigit] at folded
    split at folded
    next taken =>
      obtain ⟨later, folds, bounded⟩ := ih folded
      rw [Nat.ofDigitChars_cons, List.all_cons, Bool.and_eq_true]
      exact ⟨⟨taken.1, later⟩, folds, fun _ => bounded taken.2⟩
    next => cases folded

/-- A string folds exactly when it is all digits and its value is within the bound. -/
theorem checkedDigits_eq_some :
    checkedDigits bound digits = some value ↔
      digits.all Char.isDigit ∧ Nat.ofDigitChars 10 digits 0 = value ∧ value ≤ bound := by
  constructor
  · intro folded
    obtain ⟨allDigits, folds, bounded⟩ := foldlM_checkedDigit_some folded
    exact ⟨allDigits, folds, bounded (Nat.zero_le _)⟩
  · rintro ⟨allDigits, rfl, fits⟩
    exact checkedDigits_eq allDigits fits

theorem all_isDigit_toDigits : (Nat.toDigits 10 value).all Char.isDigit := by
  rw [List.all_eq_true]
  intro digit member
  exact Nat.isDigit_of_mem_toDigits (by decide) (by decide) member

/-- A numeral within the bound folds back to its value. -/
theorem checkedDigits_toDigits (fits : value ≤ bound) : checkedDigits bound (Nat.toDigits 10 value) = some value := by
  rw [checkedDigits_eq all_isDigit_toDigits] <;> rw [Nat.ofDigitChars_ten_toDigits]
  exact fits

theorem padded_length {width : Nat} (positive : 0 < width) (small : value < 10 ^ width) :
    (padded width value).length = width := by
  have short := (Nat.length_toDigits_le_iff (b := 10) (by decide) positive).2 small
  unfold padded
  rw [List.length_append, List.length_replicate]
  omega

theorem all_isDigit_padded {width : Nat} : (padded width value).all Char.isDigit := by
  unfold padded
  rw [List.all_append, all_isDigit_toDigits, List.all_replicate]
  simp

theorem ofDigitChars_padded {width : Nat} : Nat.ofDigitChars 10 (padded width value) 0 = value := by
  unfold padded
  rw [Nat.ofDigitChars_append, Nat.ofDigitChars_replicate_zero, Nat.mul_zero, Nat.ofDigitChars_ten_toDigits]

end Fauxchange.Lib
