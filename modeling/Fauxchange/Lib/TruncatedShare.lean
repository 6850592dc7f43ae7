import Mathlib.Tactic.Ring
import Mathlib.Algebra.Order.Ring.Nat

/-! A cost spread over equal parts, some of which leave with their proportional share of it. The share is
truncated, so what stays is rounded up, and a bound for each part is a bound for each part that stays. -/

namespace Fauxchange.TruncatedShare

variable {cost parts taken bound : Nat}

/-- What stays of the cost, over all the parts there were. -/
theorem left_mul :
    cost * (parts - taken) ≤ (cost - cost * taken / parts) * parts := by
  rw [Nat.mul_sub, Nat.sub_mul]
  apply Nat.sub_le_sub_left
  exact Nat.div_mul_le_self (cost * taken) parts

theorem left_mul_lt (parted : 0 < parts) (within : taken ≤ parts) :
    (cost - cost * taken / parts) * parts < cost * (parts - taken) + parts := by
  have share := Nat.lt_mul_div_succ (cost * taken) parted
  rw [Nat.mul_succ, Nat.mul_comm parts] at share
  have whole : cost * taken ≤ cost * parts := Nat.mul_le_mul_left cost within
  rw [Nat.mul_sub, Nat.sub_mul]
  omega

theorem share_le (within : taken ≤ parts) : cost * taken / parts ≤ cost :=
  Nat.div_le_of_le_mul (by
    rw [Nat.mul_comm parts]
    exact Nat.mul_le_mul_left cost within)

theorem low_left (parted : 0 < parts) (low : bound * parts ≤ cost) :
    bound * (parts - taken) ≤ cost - cost * taken / parts := by
  apply Nat.le_of_mul_le_mul_right _ parted
  calc bound * (parts - taken) * parts = bound * parts * (parts - taken) := by ring
    _ ≤ cost * (parts - taken) := Nat.mul_le_mul_right _ low
    _ ≤ (cost - cost * taken / parts) * parts := left_mul

theorem high_left (parted : 0 < parts) (within : taken ≤ parts) (high : cost ≤ bound * parts) :
    cost - cost * taken / parts ≤ bound * (parts - taken) := by
  have below : (cost - cost * taken / parts) * parts < (bound * (parts - taken) + 1) * parts :=
    calc (cost - cost * taken / parts) * parts < cost * (parts - taken) + parts := left_mul_lt parted within
      _ ≤ bound * parts * (parts - taken) + parts := by
        apply Nat.add_le_add_right
        exact Nat.mul_le_mul_right _ high
      _ = (bound * (parts - taken) + 1) * parts := by ring
  exact Nat.le_of_lt_succ (Nat.lt_of_mul_lt_mul_right below)

end Fauxchange.TruncatedShare
