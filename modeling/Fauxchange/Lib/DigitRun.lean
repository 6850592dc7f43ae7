import Mathlib.Tactic.ByContra
import Fauxchange.Lib.CheckedDigits

/-! Digits of a fixed width: the number they write, and their order as text. -/

namespace Fauxchange.Lib

section Ordered
variable {digits : List Char} {acc : Nat}

/-- Digits of one length are compared as the numbers they write. -/
theorem lt_of_ofDigitChars_lt {others : List Char} (allDigits : digits.all Char.isDigit)
    (otherDigits : others.all Char.isDigit) (same : digits.length = others.length)
    (less : Nat.ofDigitChars 10 digits acc < Nat.ofDigitChars 10 others acc) : digits < others := by
  induction digits generalizing others acc with
  | nil =>
    obtain rfl : others = [] := List.length_eq_zero_iff.1 same.symm
    omega
  | cons digit rest ih =>
    cases others with
    | nil => cases same
    | cons other later =>
      simp only [List.all_cons, Bool.and_eq_true] at allDigits otherDigits
      simp only [Nat.ofDigitChars_cons] at less
      have lengths : rest.length = later.length := Nat.succ.inj same
      rw [List.cons_lt_cons_iff]
      by_cases equal : digit = other
      · subst equal
        exact .inr ⟨rfl, ih allDigits.2 otherDigits.2 lengths less⟩
      · left
        by_contra greater
        have apart : digit.toNat ≠ other.toNat := fun both => equal (Char.toNat_inj.1 both)
        have above : other.toNat < digit.toNat := by
          have order : ¬ digit.toNat < other.toNat := greater
          omega
        have floor := zero_le_digit otherDigits.1
        have upper := @ofDigitChars_lt_mul (10 * acc + (other.toNat - '0'.toNat)) later otherDigits.2
        rw [Nat.ofDigitChars_eq_ofDigitChars_zero, lengths] at less
        have step : 10 ^ later.length * (10 * acc + (other.toNat - '0'.toNat) + 1) ≤
            10 ^ later.length * (10 * acc + (digit.toNat - '0'.toNat)) := Nat.mul_le_mul_left _ (by omega)
        omega

/-- Digits of one length that write one number are the same. -/
theorem eq_of_ofDigitChars_eq {others : List Char} {other : Nat} (allDigits : digits.all Char.isDigit)
    (otherDigits : others.all Char.isDigit) (same : digits.length = others.length)
    (equal : Nat.ofDigitChars 10 digits acc = Nat.ofDigitChars 10 others other) : acc = other ∧ digits = others := by
  induction digits generalizing others acc other with
  | nil =>
    obtain rfl : others = [] := List.length_eq_zero_iff.1 same.symm
    exact ⟨equal, rfl⟩
  | cons digit rest ih =>
    cases others with
    | nil => cases same
    | cons head later =>
      simp only [List.all_cons, Bool.and_eq_true] at allDigits otherDigits
      simp only [Nat.ofDigitChars_cons] at equal
      obtain ⟨heads, rfl⟩ := ih allDigits.2 otherDigits.2 (Nat.succ.inj same) equal
      have small := digit_le allDigits.1
      have otherSmall := digit_le otherDigits.1
      have floor := zero_le_digit allDigits.1
      have otherFloor := zero_le_digit otherDigits.1
      obtain rfl : digit = head := Char.toNat_inj.1 (by omega)
      exact ⟨by omega, rfl⟩

/-- Lists that begin with parts of one length are compared part by part. -/
theorem append_lt_append {left right first second : List Char} (same : left.length = right.length)
    (less : left < right ∨ left = right ∧ first < second) : left ++ first < right ++ second := by
  induction left generalizing right with
  | nil =>
    obtain rfl : right = [] := List.length_eq_zero_iff.1 same.symm
    rcases less with empty | ⟨-, later⟩
    · exact absurd empty (List.not_lt_nil _)
    · exact later
  | cons head rest ih =>
    cases right with
    | nil => cases same
    | cons other others =>
      rw [List.cons_lt_cons_iff, List.cons.injEq] at less
      rw [List.cons_append, List.cons_append, List.cons_lt_cons_iff]
      have lengths : rest.length = others.length := Nat.succ.inj same
      rcases less with (head | ⟨heads, tails⟩) | ⟨⟨heads, tails⟩, later⟩
      · exact .inl head
      · exact .inr ⟨heads, ih lengths (.inl tails)⟩
      · exact .inr ⟨heads, ih lengths (.inr ⟨tails, later⟩)⟩

end Ordered

/-- A run of digits of one width. -/
def DigitRun (width : Nat) : Type := { digits : List Char // digits.length = width ∧ digits.all Char.isDigit }

namespace DigitRun
variable {width : Nat}

def value (run : DigitRun width) : Nat := Nat.ofDigitChars 10 run.val 0

theorem value_lt (run : DigitRun width) : run.value < 10 ^ width := by
  have below := ofDigitChars_lt run.property.2
  rwa [run.property.1] at below

/-- The run that writes a number, with leading zeros. -/
def ofNat (width value : Nat) (positive : 0 < width) (small : value < 10 ^ width) : DigitRun width :=
  ⟨padded width value, padded_length positive small, all_isDigit_padded⟩

theorem checkedDigits_run {bound : Nat} (run : DigitRun width) (fits : 10 ^ width ≤ bound) :
    checkedDigits bound run.val = some run.value :=
  checkedDigits_eq run.property.2 (Nat.le_trans (Nat.le_of_lt run.value_lt) fits)

/-- Runs of one width before two rests, compared by value first. -/
theorem append_lt {run other : DigitRun width} {first second : List Char}
    (less : run.value < other.value ∨ run.value = other.value ∧ first < second) :
    run.val ++ first < other.val ++ second := by
  have lengths := run.property.1.trans other.property.1.symm
  apply append_lt_append lengths
  rcases less with values | ⟨same, later⟩
  · exact .inl (lt_of_ofDigitChars_lt run.property.2 other.property.2 lengths values)
  · exact .inr ⟨(eq_of_ofDigitChars_eq run.property.2 other.property.2 lengths same).2, later⟩

end DigitRun

end Fauxchange.Lib
