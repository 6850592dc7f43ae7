import Mathlib.Data.List.Pairwise
import Mathlib.Order.Nat

/-! Numbered entries served in ascending order over a range, with a fill from each missing number up to the next
entry. What is served covers the range exactly once unless the entries repeat a number of it. -/

namespace Fauxchange.GapFilled

section Serve
variable {α β : Type} (seq : α → Nat) (replay : α → β) (fill : Nat → Nat → β) (upper : Nat)

/-- The entries at their numbers, and a fill up to the next entry, or past the range, where there is none. -/
def serve : Nat → List α → List β
  | first, [] => if first ≤ upper then [fill first (upper + 1)] else []
  | first, entry :: rest =>
    if upper < first then []
    else if seq entry = first then replay entry :: serve (first + 1) rest
    else if seq entry ≤ upper then fill first (seq entry) :: replay entry :: serve (seq entry + 1) rest
    else [fill first (upper + 1)]

variable (latest : Nat → β → Prop) (fills : Nat → Nat → β → Prop)

/-- Items that cover every number of a range once and in order: each is the latest item with its number, or a fill
that leads forward to the next item or one past the range. -/
inductive Covers : Nat → List β → Prop
  | done {first : Nat} (beyond : upper < first) : Covers first []
  | replayed {first : Nat} {item : β} {items : List β} (within : first ≤ upper) (last : latest first item)
      (rest : Covers (first + 1) items) : Covers first (item :: items)
  | filled {first next : Nat} {item : β} {items : List β} (within : first ≤ upper) (made : fills first next item)
      (forward : first < next) (reach : next ≤ upper + 1) (rest : Covers next items) : Covers first (item :: items)

/-- No number of a range below its last one is repeated, and the first entry with the last number may stand there. -/
structure Unrepeated (first : Nat) (entries : List α) : Prop where
  once : ∀ number, first ≤ number → number < upper → (entries.filter fun entry => seq entry = number).length ≤ 1
  last : first ≤ upper → ∀ entry, entries.find? (fun entry => seq entry = upper) = some entry →
    latest upper (replay entry) ∨ fills upper (upper + 1) (replay entry)

/-- The last entry with a number is the latest item with it. -/
def Current (entries : List α) : Prop :=
  ∀ number entry, entries.reverse.find? (fun entry => seq entry = number) = some entry → latest number (replay entry)

/-- The entries of a range, ascending. -/
structure Ascends (first : Nat) (entries : List α) : Prop where
  sorted : entries.Pairwise fun left right => seq left ≤ seq right
  low : ∀ entry ∈ entries, first ≤ seq entry

variable {seq replay fill upper latest fills}

theorem serve_beyond {first : Nat} {entries : List α} (beyond : upper < first) :
    serve seq replay fill upper first entries = [] := by
  cases entries with
  | nil => exact if_neg (Nat.not_le.2 beyond)
  | cons entry rest => exact if_pos beyond

theorem serve_here {entry : α} {rest : List α} (within : seq entry ≤ upper) :
    serve seq replay fill upper (seq entry) (entry :: rest) =
      replay entry :: serve seq replay fill upper (seq entry + 1) rest := by
  rw [serve, if_neg (Nat.not_lt.2 within), if_pos rfl]

theorem serve_gap {first : Nat} {entry : α} {rest : List α} (ahead : first < seq entry) (within : seq entry ≤ upper) :
    serve seq replay fill upper first (entry :: rest) =
      fill first (seq entry) :: serve seq replay fill upper (seq entry) (entry :: rest) := by
  rw [serve_here within, serve, if_neg (by omega), if_neg (by omega), if_pos within]

theorem serve_past {first : Nat} {entry : α} {rest : List α} (within : first ≤ upper) (past : upper < seq entry) :
    serve seq replay fill upper first (entry :: rest) = [fill first (upper + 1)] := by
  rw [serve, if_neg (by omega), if_neg (by omega), if_neg (by omega)]

theorem Current.tail {entry : α} {rest : List α} (current : Current seq replay latest (entry :: rest)) :
    Current seq replay latest rest := by
  intro number other found
  apply current
  rw [List.reverse_cons, List.find?_append, found, Option.some_or]

theorem Current.head {entry : α} {rest : List α} (current : Current seq replay latest (entry :: rest))
    (alone : ∀ other ∈ rest, seq other ≠ seq entry) : latest (seq entry) (replay entry) := by
  apply current
  have none : rest.reverse.find? (fun other => seq other = seq entry) = none := by
    rw [List.find?_eq_none]
    intro other member
    simpa using alone other (List.mem_reverse.1 member)
  rw [List.reverse_cons, List.find?_append, none, Option.none_or]
  simp

theorem Ascends.tail {first : Nat} {entry : α} {rest : List α} (ascends : Ascends seq first (entry :: rest)) :
    Ascends seq (seq entry) rest := by
  obtain ⟨below, sorted⟩ := List.pairwise_cons.1 ascends.sorted
  exact ⟨sorted, below⟩

theorem Ascends.next {first : Nat} {entries : List α} (ascends : Ascends seq first entries)
    (alone : ∀ other ∈ entries, seq other ≠ first) : Ascends seq (first + 1) entries := by
  refine ⟨ascends.sorted, ?_⟩
  intro other member
  have low := ascends.low other member
  have apart := alone other member
  omega

section Forward
variable {first : Nat} {entry : α} {rest entries : List α}

theorem Unrepeated.alone (unrepeated : Unrepeated seq replay upper latest fills first (entry :: rest))
    (low : first ≤ seq entry) (below : seq entry < upper) : ∀ other ∈ rest, seq other ≠ seq entry := by
  have few := unrepeated.once (seq entry) low below
  rw [List.filter_cons_of_pos (by simp), List.length_cons] at few
  have none : rest.filter (fun other => seq other = seq entry) = [] := List.length_eq_zero_iff.1 (by omega)
  intro other member same
  exact absurd (List.filter_eq_nil_iff.1 none other member) (by simpa using same)

theorem Unrepeated.tail (unrepeated : Unrepeated seq replay upper latest fills first (entry :: rest))
    (low : first ≤ seq entry) (below : seq entry < upper) :
    Unrepeated seq replay upper latest fills (seq entry + 1) rest where
  once := by
    intro number above under
    have few := unrepeated.once number (by omega) under
    rwa [List.filter_cons_of_neg (by simp; omega)] at few
  last := by
    intro _ other found
    apply unrepeated.last (by omega)
    rwa [List.find?_cons_of_neg (by simp; omega)]

theorem covers_serve (filling : ∀ first next, fills first next (fill first next)) (ascends : Ascends seq first entries)
    (current : Current seq replay latest entries) (unrepeated : Unrepeated seq replay upper latest fills first entries) :
    Covers upper latest fills first (serve seq replay fill upper first entries) := by
  induction entries generalizing first with
  | nil =>
    unfold serve
    split
    next within => exact .filled within (filling _ _) (by omega) le_rfl (.done (by omega))
    next beyond => exact .done (by omega)
  | cons entry rest ih =>
    have low := ascends.low entry List.mem_cons_self
    by_cases beyond : upper < first
    · rw [serve_beyond beyond]
      exact .done beyond
    by_cases past : upper < seq entry
    · rw [serve_past (Nat.le_of_not_lt beyond) past]
      exact .filled (by omega) (filling _ _) (by omega) le_rfl (.done (by omega))
    have within := Nat.le_of_not_lt past
    have here : Covers upper latest fills (seq entry) (serve seq replay fill upper (seq entry) (entry :: rest)) := by
      rw [serve_here within]
      by_cases last : seq entry = upper
      · rw [serve_beyond (by omega)]
        have found : (entry :: rest).find? (fun entry => seq entry = upper) = some entry :=
          List.find?_cons_of_pos (by simpa using last)
        rcases unrepeated.last (by omega) entry found with newest | filled
        · exact .replayed within (last ▸ newest) (.done (by omega))
        · exact .filled within (last ▸ filled) (by omega) le_rfl (.done (by omega))
      · have below : seq entry < upper := by omega
        have alone := unrepeated.alone low below
        exact .replayed within (current.head alone)
          (ih (ascends.tail.next alone) current.tail (unrepeated.tail low below))
    by_cases start : seq entry = first
    · rw [← start]
      exact here
    · have ahead : first < seq entry := by omega
      rw [serve_gap ahead within]
      exact .filled (by omega) (filling _ _) ahead (by omega) here

end Forward

section Backward
variable {number : β → Nat} {first : Nat} {item : β} {items : List β} {entry : α} {rest entries : List α}

/-- The items have the numbers they stand at. -/
structure Numbered (number : β → Nat) (fill : Nat → Nat → β) (latest : Nat → β → Prop) (fills : Nat → Nat → β → Prop) :
    Prop where
  latest : ∀ {place item}, latest place item → number item = place
  fills : ∀ {place next item}, fills place next item → number item = place
  fill : ∀ place next, number (fill place next) = place

variable (numbered : Numbered number fill latest fills)
include numbered

theorem Covers.head (covers : Covers upper latest fills first (item :: items)) : number item = first := by
  cases covers with
  | replayed within last rest => exact numbered.latest last
  | filled within made forward reach rest => exact numbered.fills made

theorem Covers.above (covers : Covers upper latest fills first items) : ∀ item ∈ items, first ≤ number item := by
  induction covers with
  | done => simp
  | replayed within last rest ih =>
    intro item member
    rcases List.mem_cons.1 member with rfl | later
    · exact (numbered.latest last).ge
    · exact Nat.le_of_succ_le (ih item later)
  | filled within made forward reach rest ih =>
    intro item member
    rcases List.mem_cons.1 member with rfl | later
    · exact (numbered.fills made).ge
    · exact forward.le.trans (ih item later)

omit numbered in
theorem Covers.tail (covers : Covers upper latest fills first (item :: items)) :
    ∃ next, first < next ∧ Covers upper latest fills next items := by
  cases covers with
  | replayed within last rest => exact ⟨_, Nat.lt_succ_self first, rest⟩
  | filled within made forward reach rest => exact ⟨_, forward, rest⟩

theorem serve_head (first : Nat) (entries : List α) (replays : ∀ entry ∈ entries, number (replay entry) = seq entry) (within : first ≤ upper) :
    ∃ item items, serve seq replay fill upper first entries = item :: items ∧ number item = first := by
  cases entries with
  | nil => exact ⟨_, [], if_pos within, numbered.fill _ _⟩
  | cons entry rest =>
    unfold serve
    rw [if_neg (Nat.not_lt.2 within)]
    split
    next here => exact ⟨_, _, rfl, (replays entry List.mem_cons_self).trans here⟩
    next =>
      split
      · exact ⟨_, _, rfl, numbered.fill _ _⟩
      · exact ⟨_, _, rfl, numbered.fill _ _⟩

omit numbered in
theorem unrepeated_of_past (past : ∀ entry ∈ entries, upper ≤ seq entry)
    (last : ∀ entry, entries.find? (fun entry => seq entry = upper) = some entry →
      latest upper (replay entry) ∨ fills upper (upper + 1) (replay entry)) :
    Unrepeated seq replay upper latest fills first entries where
  once := by
    intro place _ below
    have none : entries.filter (fun entry => seq entry = place) = [] := by
      rw [List.filter_eq_nil_iff]
      intro entry member
      have far := past entry member
      simp
      omega
    rw [none]
    exact Nat.zero_le _
  last := fun _ => last

theorem unrepeated_of_covers (ascends : Ascends seq first entries)
    (replays : ∀ entry ∈ entries, number (replay entry) = seq entry)
    (covers : Covers upper latest fills first (serve seq replay fill upper first entries)) :
    Unrepeated seq replay upper latest fills first entries := by
  induction entries generalizing first with
  | nil => exact ⟨fun _ _ _ => Nat.zero_le _, fun _ _ wrong => by cases wrong⟩
  | cons entry rest ih =>
    have low := ascends.low entry List.mem_cons_self
    obtain ⟨mine, others⟩ := List.forall_mem_cons.1 replays
    by_cases beyond : upper < first
    · exact ⟨fun _ _ _ => by omega, fun _ => by omega⟩
    by_cases past : upper < seq entry
    · have far : ∀ other ∈ entry :: rest, upper < seq other :=
        List.forall_mem_cons.2 ⟨past, fun other member => past.trans_le (ascends.tail.low other member)⟩
      apply unrepeated_of_past fun other member => (far other member).le
      intro other found
      have at_upper : seq other = upper := by simpa using List.find?_some found
      have further := far other (List.mem_of_find?_eq_some found)
      omega
    have within := Nat.le_of_not_lt past
    have here : Covers upper latest fills (seq entry)
        (replay entry :: serve seq replay fill upper (seq entry + 1) rest) := by
      by_cases start : seq entry = first
      · rw [← serve_here within, start]
        exact covers
      · rw [serve_gap (by omega) within] at covers
        obtain ⟨next, -, after⟩ := covers.tail
        rw [serve_here within] at after
        have same := (after.head numbered).symm.trans mine
        exact same ▸ after
    by_cases last : seq entry = upper
    · apply unrepeated_of_past
      · exact List.forall_mem_cons.2 ⟨last.ge, fun other member => last.ge.trans (ascends.tail.low other member)⟩
      · intro other found
        rw [List.find?_cons_of_pos (by simpa using last)] at found
        obtain rfl := Option.some.inj found
        rw [← last]
        cases here with
        | replayed _ newest _ => exact Or.inl newest
        | @filled _ next _ _ _ made forward reach _ =>
          have same : next = seq entry + 1 := by omega
          exact Or.inr (same ▸ made)
    have below : seq entry < upper := by omega
    obtain ⟨next, forward, after⟩ := here.tail
    -- an entry that repeats the number would be served behind a greater one
    have alone : ∀ other ∈ rest, seq other ≠ seq entry := by
      intro other member same
      cases rest with
      | nil => cases member
      | cons second rest =>
        have least := ascends.tail.low second List.mem_cons_self
        have between : seq second ≤ seq other := by
          rcases List.mem_cons.1 member with rfl | later
          · exact le_rfl
          · exact ascends.tail.tail.low other later
        have repeated : replay second ∈ serve seq replay fill upper (seq entry + 1) (second :: rest) := by
          unfold serve
          rw [if_neg (by omega), if_neg (by omega), if_pos (by omega)]
          simp
        have above := after.above numbered _ repeated
        rw [others second List.mem_cons_self] at above
        omega
    obtain ⟨item, items, served, headed⟩ := serve_head numbered (seq entry + 1) rest others below
    have same : next = seq entry + 1 := by
      rw [served] at after
      exact (after.head numbered).symm.trans headed
    have later := ih (ascends.tail.next alone) others (same ▸ after)
    refine ⟨?_, ?_⟩
    · intro place above under
      by_cases own : seq entry = place
      · have none : rest.filter (fun other => seq other = place) = [] := by
          rw [List.filter_eq_nil_iff]
          intro other member
          simpa [← own] using alone other member
        rw [List.filter_cons_of_pos (by simpa using own), none]
        exact le_rfl
      · rw [List.filter_cons_of_neg (by simpa using own)]
        by_cases ahead : seq entry + 1 ≤ place
        · exact later.once place ahead under
        · have none : rest.filter (fun other => seq other = place) = [] := by
            rw [List.filter_eq_nil_iff]
            intro other member
            have least := ascends.tail.low other member
            simp
            omega
          rw [none]
          exact Nat.zero_le _
    · intro _ other found
      rw [List.find?_cons_of_neg (by simpa using last)] at found
      exact later.last below other found

end Backward

end Serve

/-- Sorting keeps the order of what has one key. -/
theorem filter_mergeSort {α : Type} (seq : α → Nat) (entries : List α) (number : Nat) :
    (entries.mergeSort fun left right => seq left ≤ seq right).filter (fun entry => seq entry = number) =
      entries.filter fun entry => seq entry = number := by
  have flat : (entries.filter fun entry => seq entry = number).Pairwise
      fun left right => decide (seq left ≤ seq right) = true := by
    apply List.pairwise_of_forall_mem_list
    intro left first right second
    have same : seq left = number := by simpa using (List.mem_filter.1 first).2
    have other : seq right = number := by simpa using (List.mem_filter.1 second).2
    exact decide_eq_true (by omega)
  have kept := (List.sublist_mergeSort (by simp; omega) (by simp; omega) flat List.filter_sublist).filter
    fun entry => decide (seq entry = number)
  simp only [List.filter_filter, Bool.and_self] at kept
  have sizes := (List.mergeSort_perm entries fun left right => decide (seq left ≤ seq right)).filter
    fun entry => decide (seq entry = number)
  exact (kept.eq_of_length sizes.length_eq.symm).symm

end Fauxchange.GapFilled
