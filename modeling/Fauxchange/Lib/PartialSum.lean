import Mathlib.Algebra.BigOperators.Group.List.Basic
import Mathlib.Algebra.GroupWithZero.Nat
import Mathlib.Algebra.Order.Group.Nat
import Mathlib.Data.List.Nodup

/-! A part of a list against the whole of it: what is asked of both agrees exactly when everything that is left out was
not asked for, and the sums agree exactly when it amounts to nothing. -/

namespace Fauxchange.Lib

variable {α : Type} {part whole : List α} {asked kept : α → Bool} {amount : α → Nat}

/-- A part is what the whole has of it. -/
theorem filter_mem_part [DecidableEq α] (listed : part.Sublist whole) (distinct : whole.Nodup) :
    whole.filter (fun item => item ∈ part) = part := by
  induction listed with
  | slnil => rfl
  | @cons rest all item listed ih =>
    obtain ⟨apart, others⟩ := List.nodup_cons.1 distinct
    have missing : item ∉ rest := fun member => apart (listed.subset member)
    rw [List.filter_cons_of_neg (by simpa using missing)]
    exact ih others
  | @cons_cons rest all item listed ih =>
    obtain ⟨apart, others⟩ := List.nodup_cons.1 distinct
    have tail : all.filter (fun other => other ∈ item :: rest) = all.filter fun other => other ∈ rest := by
      refine List.filter_congr fun other member => ?_
      have unlike : other ≠ item := fun same => apart (same ▸ member)
      simp [unlike]
    rw [List.filter_cons_of_pos (by simp), tail, ih others]

/-- Of two parts of one list, one that has all of the other is the longer. -/
theorem sublist_of_subset {middle : List α} (listed : part.Sublist whole) (longer : middle.Sublist whole)
    (distinct : whole.Nodup) (covers : part ⊆ middle) : part.Sublist middle := by
  classical
  have mine := filter_mem_part listed distinct
  rw [← filter_mem_part longer distinct, ← mine]
  have narrower : (whole.filter fun item => item ∈ middle).filter (fun item => item ∈ part) =
      whole.filter fun item => item ∈ part := by
    rw [List.filter_filter]
    refine List.filter_congr fun item _ => ?_
    have kept : item ∈ part → item ∈ middle := fun member => covers member
    by_cases member : item ∈ part
    · simp [member, kept member]
    · simp [member]
  rw [← narrower]
  exact List.filter_sublist

/-- What is asked of the part is what is asked of the whole exactly when nothing else was asked for. -/
theorem filter_eq_iff (listed : part.Sublist whole) (distinct : whole.Nodup) :
    part.filter asked = whole.filter asked ↔ ∀ item ∈ whole, asked item = true → item ∈ part := by
  constructor
  · intro same item member asks
    have kept : item ∈ part.filter asked := same ▸ List.mem_filter.2 ⟨member, asks⟩
    exact (List.mem_filter.1 kept).1
  · intro covered
    refine (listed.filter asked).eq_of_length_le ?_
    have inside : whole.filter asked ⊆ part.filter asked := by
      intro item member
      obtain ⟨here, asks⟩ := List.mem_filter.1 member
      exact List.mem_filter.2 ⟨covered item here asks, asks⟩
    exact (List.subperm_of_subset (distinct.filter asked) inside).length_le

/-- The sum over the items that are asked for. -/
def askedSum (asked : α → Bool) (amount : α → Nat) (items : List α) : Nat := ((items.filter asked).map amount).sum

theorem askedSum_cons (item : α) (items : List α) :
    askedSum asked amount (item :: items) = (if asked item then amount item else 0) + askedSum asked amount items := by
  unfold askedSum
  rw [List.filter_cons]
  split
  · rw [List.map_cons, List.sum_cons]
  · rw [Nat.zero_add]

theorem askedSum_le (listed : part.Sublist whole) (narrower : ∀ item, kept item = true → asked item = true) :
    askedSum kept amount part ≤ askedSum asked amount whole := by
  induction listed with
  | slnil => exact Nat.le_refl _
  | cons item _ ih =>
    rw [askedSum_cons]
    omega
  | cons_cons item _ ih =>
    rw [askedSum_cons, askedSum_cons]
    by_cases keeps : kept item = true
    · rw [if_pos keeps, if_pos (narrower item keeps)]
      omega
    · rw [if_neg keeps]
      omega

/-- The part sums up to the whole exactly when every item asked for is in the part and kept, or amounts to nothing. -/
theorem askedSum_eq_iff (listed : part.Sublist whole) (narrower : ∀ item, kept item = true → asked item = true)
    (distinct : whole.Nodup) :
    askedSum kept amount part = askedSum asked amount whole ↔
      ∀ item ∈ whole, asked item = true → amount item = 0 ∨ kept item = true ∧ item ∈ part := by
  induction listed with
  | slnil => exact iff_of_true rfl (List.forall_mem_nil _)
  | @cons rest all item listed ih =>
    obtain ⟨apart, others⟩ := List.nodup_cons.1 distinct
    have below := @askedSum_le α rest all asked kept amount listed narrower
    have missing : item ∉ rest := fun member => apart (listed.subset member)
    rw [askedSum_cons, List.forall_mem_cons, ← ih others]
    by_cases wanted : asked item = true
    · rw [if_pos wanted]
      constructor
      · intro same
        exact ⟨fun _ => Or.inl (by omega), by omega⟩
      · rintro ⟨nothing, same⟩
        rcases nothing wanted with zero | ⟨-, member⟩
        · omega
        · exact absurd member missing
    · rw [if_neg wanted, Nat.zero_add]
      exact (and_iff_right fun asks => absurd asks wanted).symm
  | @cons_cons rest all item listed ih =>
    obtain ⟨apart, others⟩ := List.nodup_cons.1 distinct
    have below := @askedSum_le α rest all asked kept amount listed narrower
    have tail : (∀ other ∈ all, asked other = true → amount other = 0 ∨ kept other = true ∧ other ∈ item :: rest) ↔
        ∀ other ∈ all, asked other = true → amount other = 0 ∨ kept other = true ∧ other ∈ rest := by
      refine forall₂_congr fun other member => ?_
      have unlike : other ≠ item := fun same => apart (same ▸ member)
      rw [List.mem_cons, or_iff_right unlike]
    rw [askedSum_cons, askedSum_cons, List.forall_mem_cons, tail, ← ih others]
    by_cases keeps : kept item = true
    · rw [if_pos keeps, if_pos (narrower item keeps)]
      constructor
      · intro same
        exact ⟨fun _ => Or.inr ⟨keeps, List.mem_cons_self⟩, by omega⟩
      · rintro ⟨-, same⟩
        rw [same]
    · rw [if_neg keeps]
      by_cases wanted : asked item = true
      · rw [if_pos wanted]
        constructor
        · intro same
          exact ⟨fun _ => Or.inl (by omega), by omega⟩
        · rintro ⟨nothing, same⟩
          rcases nothing wanted with zero | ⟨wrong, -⟩
          · omega
          · exact absurd wrong keeps
      · rw [if_neg wanted, Nat.zero_add, Nat.zero_add]
        exact (and_iff_right fun asks => absurd asks wanted).symm

end Fauxchange.Lib
