import Mathlib.Data.List.Basic

/-! A log of times under a sliding window: what is still in the window, and how many times any window holds. -/

namespace Fauxchange.Lib

/-- The times whose age is below the window. -/
def live (window now : Nat) (times : List Nat) : List Nat :=
  times.filter fun time => time ≤ now ∧ now - time < window

/-- No interval of the window's length holds more than a limit of the times. -/
def Sparse (window limit : Nat) (times : List Nat) : Prop :=
  ∀ start, (times.filter fun time => start ≤ time ∧ time < start + window).length ≤ limit

variable {window limit now later : Nat} {times more : List Nat}

theorem mem_live {time : Nat} : time ∈ live window now times ↔ time ∈ times ∧ time ≤ now ∧ now - time < window := by
  unfold live
  rw [List.mem_filter, decide_eq_true_iff]

/-- Of two conditions the weaker one keeps at least as many. -/
theorem filter_length_le {kept wider : Nat → Bool} (implied : ∀ time ∈ times, kept time → wider time) :
    (times.filter kept).length ≤ (times.filter wider).length := by
  rw [← List.countP_eq_length_filter, ← List.countP_eq_length_filter]
  exact List.countP_mono_left implied

theorem live_append : live window now (times ++ more) = live window now times ++ live window now more :=
  List.filter_append ..

theorem live_self (wide : 0 < window) : live window now [now] = [now] := by
  unfold live
  exact List.filter_cons_of_pos (by simpa using wide)

theorem live_again : live window now (live window now times) = live window now times :=
  List.filter_eq_self.2 fun _ young => (List.mem_filter.1 young).2

/-- What has left the window stays out of it. -/
theorem live_live (past : ∀ time ∈ times, time ≤ now) (order : now ≤ later) :
    live window later (live window now times) = live window later times := by
  unfold live
  rw [List.filter_filter]
  refine List.filter_congr fun time member => ?_
  have before := past time member
  rw [← Bool.decide_and]
  refine decide_eq_decide.2 ⟨fun both => both.1, fun young => ⟨young, before, ?_⟩⟩
  omega

/-- The last window holds what is live. -/
theorem Sparse.live_le (sparse : Sparse window limit times) (now : Nat) :
    (live window now times).length ≤ limit := by
  refine Nat.le_trans (filter_length_le fun time _ young => ?_) (sparse (now + 1 - window))
  rw [decide_eq_true_iff] at young ⊢
  omega

/-- A time is added while fewer than the limit are live. -/
theorem Sparse.push (sparse : Sparse window limit times) (past : ∀ time ∈ times, time ≤ now)
    (few : (live window now times).length < limit) : Sparse window limit (times ++ [now]) := by
  intro start
  rw [List.filter_append, List.length_append]
  by_cases inside : start ≤ now ∧ now < start + window
  · -- the others of this interval are still live
    have others : (times.filter fun time => start ≤ time ∧ time < start + window).length ≤
        (live window now times).length := by
      refine filter_length_le fun time member held => ?_
      have before := past time member
      rw [decide_eq_true_iff] at held ⊢
      omega
    have one : ([now].filter fun time => start ≤ time ∧ time < start + window).length ≤ 1 := List.length_filter_le ..
    omega
  · have none : ([now].filter fun time => start ≤ time ∧ time < start + window) = [] :=
      List.filter_cons_of_neg (by simpa using inside)
    rw [none]
    exact sparse start

/-- Until the oldest live time leaves the window, all of them stay. -/
theorem live_le_before {oldest : Nat} (least : ∀ time ∈ live window now times, oldest ≤ time) (order : now ≤ later)
    (soon : later < oldest + window) :
    (live window now times).length ≤ (live window later (times ++ more)).length := by
  rw [live_append, List.length_append]
  refine Nat.le_trans (filter_length_le fun time member young => ?_) (Nat.le_add_right _ _)
  have bound := least time (List.mem_filter.2 ⟨member, young⟩)
  rw [decide_eq_true_iff] at young ⊢
  omega

/-- When it leaves, fewer are live. -/
theorem live_lt_at {oldest : Nat} (past : ∀ time ∈ times, time ≤ now) (member : oldest ∈ live window now times) :
    (live window (oldest + window) times).length < (live window now times).length := by
  obtain ⟨listed, young⟩ := mem_live.1 member
  have order : now ≤ oldest + window := by omega
  rw [← live_live past order]
  refine List.length_filter_lt_length_iff_exists.2 ⟨oldest, member, ?_⟩
  rw [decide_eq_true_iff]
  omega

end Fauxchange.Lib
