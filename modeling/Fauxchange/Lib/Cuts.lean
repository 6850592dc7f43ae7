import Mathlib.Data.List.Basic
import Mathlib.Order.MinMax

/-! Stretches of a list whose keys ascend: what lies between two marks, and a reader that skips what lies behind its
mark and moves the mark along. -/

namespace Fauxchange.Lib

variable {α κ : Type} [LinearOrder κ] (key : α → κ)

/-- What lies past one mark and up to another. -/
def cut (low high : κ) (list : List α) : List α := list.filter fun item => low < key item ∧ key item ≤ high

/-- What lies past a mark that moves along. -/
def past (mark : κ) : List α → List α
  | [] => []
  | item :: rest => if key item ≤ mark then past mark rest else item :: past (key item) rest

/-- The mark after a list. -/
def reaches (mark : κ) (list : List α) : κ := list.foldl (fun mark item => max mark (key item)) mark

def Ascends (list : List α) : Prop := list.Pairwise fun left right => key left < key right

variable {key} {low mid high mark : κ} {list early late : List α}

theorem past_append (mark : κ) (early late : List α) :
    past key mark (early ++ late) = past key mark early ++ past key (reaches key mark early) late := by
  induction early generalizing mark with
  | nil => rfl
  | cons item rest ih =>
    rw [List.cons_append, past, past, reaches, List.foldl_cons]
    split
    next seen =>
      rw [ih, max_eq_left seen]
      rfl
    next fresh =>
      rw [ih, max_eq_right (not_le.1 fresh).le]
      rfl

theorem le_reaches (mark : κ) (list : List α) : mark ≤ reaches key mark list := by
  induction list generalizing mark with
  | nil => exact le_rfl
  | cons item rest ih => exact (le_max_left _ _).trans (ih _)

theorem key_le_reaches {item : α} (member : item ∈ list) : key item ≤ reaches key mark list := by
  induction list generalizing mark with
  | nil => cases member
  | cons first rest ih =>
    rcases List.mem_cons.1 member with rfl | later
    · exact (le_max_right _ _).trans (le_reaches _ _)
    · exact ih later

theorem reaches_le {bound : κ} (start : mark ≤ bound) (within : ∀ item ∈ list, key item ≤ bound) :
    reaches key mark list ≤ bound := by
  induction list generalizing mark with
  | nil => exact start
  | cons item rest ih =>
    obtain ⟨first, later⟩ := List.forall_mem_cons.1 within
    exact ih (max_le start first) later

/-- A mark that moves has reached the key of an item. -/
theorem reaches_cases (mark : κ) (list : List α) :
    reaches key mark list = mark ∨ ∃ item ∈ list, reaches key mark list = key item := by
  induction list generalizing mark with
  | nil => exact Or.inl rfl
  | cons first rest ih =>
    rcases ih (max mark (key first)) with same | ⟨item, member, reached⟩
    · rcases max_choice mark (key first) with kept | moved
      · exact Or.inl (same.trans kept)
      · exact Or.inr ⟨first, List.mem_cons_self, same.trans moved⟩
    · exact Or.inr ⟨item, List.mem_cons_of_mem _ member, reached⟩

theorem cut_append (low high : κ) (early late : List α) :
    cut key low high (early ++ late) = cut key low high early ++ cut key low high late := List.filter_append ..

theorem cut_eq_nil (apart : ∀ item ∈ list, ¬ (low < key item ∧ key item ≤ high)) : cut key low high list = [] :=
  List.filter_eq_nil_iff.2 fun item member => by simpa using apart item member

theorem mem_cut {item : α} : item ∈ cut key low high list ↔ item ∈ list ∧ low < key item ∧ key item ≤ high := by
  unfold cut
  rw [List.mem_filter, decide_eq_true_eq]

theorem cut_self (mark : κ) (list : List α) : cut key mark mark list = [] :=
  cut_eq_nil fun _ _ inside => absurd inside.2 (not_le.2 inside.1)

/-- An ascending list has one item for a key. -/
theorem Ascends.filter_key {item : α} (ascends : Ascends key list) (member : item ∈ list) :
    (list.filter fun other => key other = key item) = [item] := by
  induction list with
  | nil => cases member
  | cons first rest ih =>
    obtain ⟨before, later⟩ := List.pairwise_cons.1 ascends
    rcases List.mem_cons.1 member with rfl | member
    · rw [List.filter_cons_of_pos (by simp), List.filter_eq_nil_iff.2]
      intro other listed same
      exact (before other listed).ne (of_decide_eq_true same).symm
    · rw [List.filter_cons_of_neg (by simpa using (before item member).ne)]
      exact ih later member

/-- A cut through an ascending list falls into two. -/
theorem cut_split (ascends : Ascends key list) (first : low ≤ mid) (second : mid ≤ high) :
    cut key low high list = cut key low mid list ++ cut key mid high list := by
  induction list with
  | nil => rfl
  | cons item rest ih =>
    obtain ⟨before, later⟩ := List.pairwise_cons.1 ascends
    by_cases early : key item ≤ mid
    · have skipped : cut key mid high (item :: rest) = cut key mid high rest := by
        refine List.filter_cons_of_neg ?_
        simp [early]
      rw [skipped]
      by_cases inside : low < key item
      · have whole : cut key low high (item :: rest) = item :: cut key low high rest := by
          refine List.filter_cons_of_pos ?_
          simp [inside, early.trans second]
        have part : cut key low mid (item :: rest) = item :: cut key low mid rest := by
          refine List.filter_cons_of_pos ?_
          simp [inside, early]
        rw [whole, part, ih later, List.cons_append]
      · have whole : cut key low high (item :: rest) = cut key low high rest := by
          refine List.filter_cons_of_neg ?_
          simp [inside]
        have part : cut key low mid (item :: rest) = cut key low mid rest := by
          refine List.filter_cons_of_neg ?_
          simp [inside]
        rw [whole, part, ih later]
    · have late : ∀ other ∈ item :: rest, mid < key other := by
        intro other member
        rcases List.mem_cons.1 member with rfl | member
        · exact not_le.1 early
        · exact (not_le.1 early).trans (before other member)
      rw [cut_eq_nil fun other member inside => absurd inside.2 (not_le.2 (late other member)), List.nil_append]
      refine List.filter_congr fun other member => ?_
      simp [late other member, first.trans_lt (late other member)]

/-- Over an ascending list the mark that moves skips what lies behind where it started. -/
theorem past_eq_filter (ascends : Ascends key list) : past key mark list = list.filter fun item => mark < key item := by
  induction list generalizing mark with
  | nil => rfl
  | cons item rest ih =>
    obtain ⟨before, later⟩ := List.pairwise_cons.1 ascends
    rw [past]
    split
    next seen => rw [ih later, List.filter_cons_of_neg (by simp [seen])]
    next fresh =>
      have fresh : mark < key item := not_le.1 fresh
      rw [ih later, List.filter_cons_of_pos (by simp [fresh])]
      refine congrArg (item :: ·) (List.filter_congr fun other member => ?_)
      simp [before other member, fresh.trans (before other member)]

/-- A reader that has gone through an ascending list up to its mark reads on exactly what lies past the mark. -/
theorem cut_past {read next rest : List α} (ascends : Ascends key (read ++ next ++ rest))
    (behind : ∀ item ∈ read, key item ≤ mark) :
    cut key mark (reaches key mark next) (read ++ next ++ rest) = past key mark next := by
  obtain ⟨front, -, ahead⟩ := List.pairwise_append.1 ascends
  have middle : Ascends key next := (List.pairwise_append.1 front).2.1
  have skipped : cut key mark (reaches key mark next) read = [] :=
    cut_eq_nil fun item member inside => absurd inside.1 (not_lt.2 (behind item member))
  have left : cut key mark (reaches key mark next) rest = [] := by
    rcases (reaches_cases mark next : reaches key mark next = mark ∨ _) with same | ⟨item, member, reached⟩
    · rw [same]
      exact cut_self mark rest
    · refine cut_eq_nil fun other later inside => ?_
      have apart := ahead item (List.mem_append_right _ member) other later
      rw [reached] at inside
      exact absurd inside.2 (not_le.2 apart)
  rw [cut_append, cut_append, skipped, left, List.nil_append, List.append_nil, past_eq_filter middle]
  refine List.filter_congr fun item member => ?_
  have reached : key item ≤ reaches key mark next := key_le_reaches member
  simp [reached]

end Fauxchange.Lib
