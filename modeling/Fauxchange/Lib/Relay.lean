import Mathlib.Order.Nat
import Mathlib.Data.List.ReduceOption

/-! What a receiver passes on of a log that it may fall behind: the items that are wanted, in order, and a mark in the
place of each span that it has lost. -/

namespace Fauxchange.Lib

variable {α : Type}

/-- Told of a log from one place on, up to another. A mark stands for at least one item. -/
inductive Relayed (wanted : α → Bool) (log : List α) (first : Nat) : Nat → List (Option α) → Prop where
  | start : Relayed wanted log first first []
  | passed {place : Nat} {told : List (Option α)} {item : α} (before : Relayed wanted log first place told)
      (there : log[place]? = some item) :
      Relayed wanted log first (place + 1) (told ++ (if wanted item then some item else none).toList.map some)
  | lost {place next : Nat} {told : List (Option α)} (before : Relayed wanted log first place told) (ahead : place < next)
      (inside : next ≤ log.length) : Relayed wanted log first next (told ++ [none])

/-- The items that are wanted between two places. -/
def between (wanted : α → Bool) (log : List α) (first last : Nat) : List α := ((log.take last).drop first).filter wanted

namespace Relayed
variable {wanted : α → Bool} {log later : List α} {first place : Nat} {told : List (Option α)}

theorem between_self (first : Nat) : between wanted log first first = [] := by
  unfold between
  rw [List.drop_eq_nil_of_le (List.length_take_le _ _)]
  rfl

theorem between_succ {item : α} (ahead : first ≤ place) (there : log[place]? = some item) :
    between wanted log first (place + 1) = between wanted log first place ++ (if wanted item then some item else none).toList := by
  obtain ⟨below, -⟩ := List.getElem?_eq_some_iff.1 there
  unfold between
  rw [List.take_add_one, there, List.drop_append_of_le_length (by rw [List.length_take]; omega), List.filter_append]
  congr 1
  by_cases wants : wanted item
  · simp [wants]
  · simp [wants]

theorem between_sublist {next : Nat} (ahead : place ≤ next) : (between wanted log first place).Sublist (between wanted log first next) :=
  ((List.take_sublist_take_left ahead).drop first).filter wanted

theorem le (relayed : Relayed wanted log first place told) : first ≤ place := by
  induction relayed with
  | start => exact le_rfl
  | passed before there ih => exact ih.trans (Nat.le_succ _)
  | lost before ahead inside ih => exact ih.trans ahead.le

/-- A log that grows behind the receiver changes nothing. -/
theorem grown (relayed : Relayed wanted log first place told) (grows : log <+: later) : Relayed wanted later first place told := by
  induction relayed with
  | start => exact .start
  | passed before there ih =>
    refine .passed ih ?_
    obtain ⟨rest, rfl⟩ := grows
    rw [List.getElem?_append_left (List.getElem?_eq_some_iff.1 there).1, there]
  | lost before ahead inside ih => exact .lost ih ahead (inside.trans grows.length_le)

/-- No item is passed on twice, out of order, or without being in the log. -/
theorem sublist (relayed : Relayed wanted log first place told) : told.reduceOption.Sublist (between wanted log first place) := by
  induction relayed with
  | start => exact List.nil_sublist _
  | passed before there ih =>
    rw [between_succ before.le there, List.reduceOption_append]
    refine ih.append ?_
    split
    next => exact List.Sublist.refl _
    next => exact List.Sublist.refl _
  | lost before ahead inside ih =>
    rw [List.reduceOption_append]
    exact (List.append_nil _).symm ▸ ih.trans (between_sublist ahead.le)

/-- Where there is no mark nothing is lost. -/
theorem whole (relayed : Relayed wanted log first place told) (unmarked : none ∉ told) :
    told = (between wanted log first place).map some := by
  induction relayed with
  | start => rw [between_self, List.map_nil]
  | passed before there ih =>
    rw [between_succ before.le there, List.map_append, ← ih fun marked => unmarked (List.mem_append_left _ marked)]
  | lost before ahead inside ih => exact absurd List.mem_concat_self unmarked

/-- What follows the last mark is everything from some later place on. -/
theorem resumed (relayed : Relayed wanted log first place told) {before after : List (Option α)} (split : told = before ++ none :: after)
    (unmarked : none ∉ after) : ∃ next, first < next ∧ next ≤ place ∧ after = (between wanted log next place).map some := by
  induction relayed generalizing after with
  | start => simp at split
  | passed earlier there ih =>
    rename_i place told item
    by_cases wants : wanted item
    · rw [if_pos wants] at split
      obtain ⟨rest, tail, rfl⟩ : ∃ rest, told = before ++ none :: rest ∧ after = rest ++ [some item] := by
        rcases List.eq_nil_or_concat after with rfl | ⟨rest, last, rfl⟩
        · have ends := congrArg List.getLast? split
          simp at ends
        · rw [List.concat_eq_append, ← List.cons_append, ← List.append_assoc] at split
          obtain ⟨front, back⟩ := List.append_inj' split rfl
          cases back
          exact ⟨rest, front, List.concat_eq_append⟩
      obtain ⟨next, ahead, reach, rfl⟩ := ih tail fun marked => unmarked (List.mem_append_left _ marked)
      refine ⟨next, ahead, reach.trans (Nat.le_succ _), ?_⟩
      rw [between_succ reach there, if_pos wants, List.map_append]
      rfl
    · rw [if_neg wants] at split
      obtain ⟨next, ahead, reach, rfl⟩ := ih (by simpa using split) unmarked
      refine ⟨next, ahead, reach.trans (Nat.le_succ _), ?_⟩
      rw [between_succ reach there, if_neg wants]
      simp
  | lost earlier ahead inside ih =>
    rename_i place next told
    rcases List.eq_nil_or_concat after with rfl | ⟨rest, last, rfl⟩
    · exact ⟨next, earlier.le.trans_lt ahead, le_rfl, by rw [between_self]; rfl⟩
    · rw [List.concat_eq_append, ← List.cons_append, ← List.append_assoc] at split
      obtain ⟨-, back⟩ := List.append_inj' split rfl
      cases back
      exact absurd (by simp) unmarked

end Relayed

end Fauxchange.Lib
