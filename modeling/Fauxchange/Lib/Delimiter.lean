import Mathlib.Data.List.Basic

/-! Texts that end in a delimited field. -/

namespace Fauxchange.Lib

variable {α : Type}

/-- The last delimiter of a text splits it in one way only. -/
theorem append_cons_inj {delimiter : α} {front other field last : List α} (free : delimiter ∉ field)
    (clear : delimiter ∉ last) (same : front ++ delimiter :: field = other ++ delimiter :: last) :
    front = other ∧ field = last := by
  induction front generalizing other with
  | nil =>
    cases other with
    | nil => exact ⟨rfl, (List.cons.inj same).2⟩
    | cons head rest =>
      have inside : delimiter ∈ field := by
        rw [(List.cons.inj same).2]
        simp
      exact absurd inside free
  | cons head rest ih =>
    cases other with
    | nil =>
      have inside : delimiter ∈ last := by
        rw [← (List.cons.inj same).2]
        simp
      exact absurd inside clear
    | cons first tail =>
      obtain ⟨heads, tails⟩ := List.cons.inj same
      obtain ⟨fronts, fields⟩ := ih tails
      exact ⟨by rw [heads, fronts], fields⟩

/-- The decimal digits of a number hold no other character. -/
theorem toList_toString_free {delimiter : Char} (nondigit : delimiter.isDigit = false) (value : Nat) :
    delimiter ∉ (toString value).toList := by
  intro member
  have digit : delimiter.isDigit := by
    refine Nat.isDigit_of_mem_toDigits (b := 10) (n := value) (by decide) (by decide) ?_
    rw [← Nat.toList_repr]
    exact member
  rw [nondigit] at digit
  cases digit

/-- The decimal digits of a number determine it. -/
theorem toString_toList_inj {value other : Nat} (same : (toString value).toList = (toString other).toList) :
    value = other := by
  have values := congrArg (fun field => Nat.ofDigitChars 10 field 0) same
  simpa [Nat.toString_eq_ofList_toDigits] using values

end Fauxchange.Lib
