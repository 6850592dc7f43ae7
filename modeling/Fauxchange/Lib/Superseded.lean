import Fauxchange.Lib.LastWrite
import Fauxchange.Lib.MapSum
import Mathlib.Data.List.Induction
import Mathlib.Tactic.Abel

/-! Entries written under keys: a map keeps the last entry of each key, so its sum leaves out those that a later one
replaces. -/

namespace Fauxchange.Lib

variable {κ α β σ M : Type} [DecidableEq κ] [AddCommMonoid M]

/-- The entries that a later one under the same key replaces. -/
def superseded (key : β → κ) : List β → List β
  | [] => []
  | entry :: rest => if key entry ∈ rest.map key then entry :: superseded key rest else superseded key rest

/-- The last entry under a key. -/
def lastUnder (key : β → κ) (target : κ) (entries : List β) : Option β :=
  lastTouch (fun entry => if key entry = target then some entry else none) entries

variable {key : β → κ} {entry : β} {entries : List β} {target : κ} (weight : β → M)

theorem lastUnder_cons : lastUnder key target (entry :: entries) =
    (lastUnder key target entries).or (if key entry = target then some entry else none) := lastTouch_cons entry entries

theorem lastUnder_append_singleton : lastUnder key target (entries ++ [entry]) =
    if key entry = target then some entry else lastUnder key target entries := by
  have split : lastUnder key target (entries ++ [entry]) =
      (lastUnder key target [entry]).or (lastUnder key target entries) := lastTouch_append entries [entry]
  rw [split, lastUnder_cons]
  split <;> rfl

theorem lastUnder_eq_none : lastUnder key target entries = none ↔ target ∉ entries.map key := by
  unfold lastUnder
  rw [lastTouch_eq_none_iff, List.mem_map]
  constructor
  · rintro silent ⟨other, listed, same⟩
    have none := silent other listed
    rw [if_pos same] at none
    cases none
  · exact fun absent other listed => if_neg fun same => absent ⟨other, listed, same⟩

theorem superseded_of_nodup (distinct : (entries.map key).Nodup) : superseded key entries = [] := by
  induction entries with
  | nil => rfl
  | cons entry rest ih =>
    obtain ⟨fresh, others⟩ := List.nodup_cons.1 distinct
    unfold superseded
    rw [if_neg fresh]
    exact ih others

/-- One more entry replaces the last one under its key. -/
theorem sum_superseded_append : ((superseded key (entries ++ [entry])).map weight).sum =
    ((superseded key entries).map weight).sum + ((lastUnder key (key entry) entries).map weight).getD 0 := by
  induction entries with
  | nil => exact (add_zero _).symm
  | cons first rest ih =>
    have widened : key first ∈ (rest ++ [entry]).map key ↔ key first ∈ rest.map key ∨ key first = key entry := by simp
    rw [List.cons_append, lastUnder_cons]
    unfold superseded
    by_cases later : key first ∈ rest.map key
    · rw [if_pos (widened.2 (Or.inl later)), if_pos later, List.map_cons, List.sum_cons, ih, List.map_cons, List.sum_cons,
        ← add_assoc]
      by_cases same : key first = key entry
      · obtain ⟨last, found⟩ := Option.ne_none_iff_exists'.1 fun none =>
          lastUnder_eq_none.1 none (same ▸ later)
        rw [found, Option.some_or]
      · rw [if_neg same, Option.or_none]
    · rw [if_neg later]
      by_cases same : key first = key entry
      · have absent : lastUnder key (key entry) rest = none := lastUnder_eq_none.2 (same ▸ later)
        rw [absent] at ih ⊢
        rw [if_pos (widened.2 (Or.inr same)), if_pos same, List.map_cons, List.sum_cons, ih, Option.none_or]
        exact (congrArg (weight first + ·) (add_zero _)).trans (add_comm _ _)
      · rw [if_neg fun here => (widened.1 here).elim later same, if_neg same, Option.or_none, ih]

section Written
variable {cmp : κ → κ → Ordering} [Std.TransCmp cmp] [Std.LawfulEqCmp cmp] {records : σ → Std.ExtTreeMap κ α cmp}
  {step : σ → β → σ} {read : α → β} {start : σ}

/-- A step that writes its entry under its key, whatever it stores beside it. -/
def Writes (records : σ → Std.ExtTreeMap κ α cmp) (key : β → κ) (read : α → β) (step : σ → β → σ) : Prop :=
  ∀ state entry, ∃ value, records (step state entry) = (records state).insert (key entry) value ∧ read value = entry

theorem Writes.getElem? (writes : Writes records key read step) (empty : records start = ∅) (entries : List β)
    (target : κ) : (records (entries.foldl step start))[target]?.map read = lastUnder key target entries := by
  induction entries using List.reverseRecOn with
  | nil =>
    rw [List.foldl_nil, empty, Std.ExtTreeMap.getElem?_empty]
    rfl
  | append_singleton early entry ih =>
    obtain ⟨value, written, reads⟩ := writes (early.foldl step start) entry
    rw [List.foldl_append, List.foldl_cons, List.foldl_nil, written, lastUnder_append_singleton,
      Std.ExtTreeMap.getElem?_insert]
    by_cases same : key entry = target
    · rw [if_pos same, if_pos (Std.LawfulEqCmp.compare_eq_iff_eq.2 same), Option.map_some, reads]
    · rw [if_neg same, if_neg fun equal => same (Std.LawfulEqCmp.eq_of_compare equal), ih]

/-- What the map sums to, and what was replaced, make up all the entries. -/
theorem Writes.mapSum (writes : Writes records key read step) (empty : records start = ∅) (entries : List β) :
    mapSum (fun _ value => weight (read value)) (records (entries.foldl step start)) +
      ((superseded key entries).map weight).sum = (entries.map weight).sum := by
  induction entries using List.reverseRecOn with
  | nil =>
    rw [List.foldl_nil, empty, mapSum_empty]
    exact add_zero _
  | append_singleton early entry ih =>
    obtain ⟨value, written, reads⟩ := writes (early.foldl step start) entry
    have before : weightAt (fun _ value => weight (read value)) (records (early.foldl step start)) (key entry) =
        ((lastUnder key (key entry) early).map weight).getD 0 := by
      rw [← writes.getElem? empty early (key entry), Option.map_map]
      rfl
    have moved := mapSum_insert (fun _ value => weight (read value)) (records (early.foldl step start)) (key entry) value
    rw [before, reads] at moved
    rw [List.foldl_append, List.foldl_cons, List.foldl_nil, written, sum_superseded_append, List.map_append, List.sum_append,
      List.map_singleton, List.sum_singleton, ← ih]
    calc
      _ = (((lastUnder key (key entry) early).map weight).getD 0 +
            Lib.mapSum (fun _ value => weight (read value)) ((records (early.foldl step start)).insert (key entry) value)) +
          ((superseded key early).map weight).sum := by abel
      _ = _ := by
        rw [moved]
        abel

end Written

end Fauxchange.Lib
