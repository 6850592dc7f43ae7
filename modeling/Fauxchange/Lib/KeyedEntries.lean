import Mathlib.Data.List.Nodup

/-! Lists whose elements are told apart by a key. A hash map is a list of entries with one entry a key, which is read,
rewritten and retained; in a log an entry under a key that is there takes its place, and any other goes to the end. -/

namespace Fauxchange.Lib

section Unique
variable {α κ : Type}

/-- Searching for a key finds the one element that carries it. -/
theorem find?_of_unique [DecidableEq κ] (key : α → κ) {list : List α} (unique : (list.map key).Nodup) {element : α}
    (member : element ∈ list) : list.find? (fun other => key other = key element) = some element := by
  cases found : list.find? (fun other => key other = key element) with
  | none =>
    have absent := List.find?_eq_none.1 found element member
    simp at absent
  | some other =>
    have same : key other = key element := by simpa using List.find?_some found
    rw [List.inj_on_of_nodup_map unique (List.mem_of_find?_eq_some found) member same]

/-- Filtering by a key leaves the one element that carries it. -/
theorem filter_of_unique [DecidableEq κ] (key : α → κ) {list : List α} (unique : (list.map key).Nodup) {element : α}
    (member : element ∈ list) : (list.filter fun other => key other = key element) = [element] := by
  induction list with
  | nil => cases member
  | cons head rest ih =>
    rw [List.map_cons, List.nodup_cons] at unique
    rcases List.mem_cons.1 member with rfl | later
    · have none : (rest.filter fun other => key other = key element) = [] := by
        refine List.filter_eq_nil_iff.2 fun other listed same => unique.1 ?_
        rw [← of_decide_eq_true same]
        exact List.mem_map_of_mem listed
      rw [List.filter_cons_of_pos (by simp), none]
    · have apart : key head ≠ key element := by
        intro same
        exact unique.1 (same ▸ List.mem_map_of_mem later)
      rw [List.filter_cons_of_neg (by simpa using apart)]
      exact ih unique.2 later

/-- Dropping the last element of a list leaves out a tail of length one. -/
theorem mem_of_mem_dropLast_append {early tail : List α} (short : tail.length ≤ 1) {element : α}
    (member : element ∈ (early ++ tail).dropLast) : element ∈ early := by
  match tail, short with
  | [], _ => exact (List.dropLast_subset early) (by simpa using member)
  | [last], _ => simpa using member

section Upsert
variable [DecidableEq κ] {key : α → κ} {log : List α} {entry : α}

def upsert (key : α → κ) (log : List α) (entry : α) : List α :=
  if ∃ old ∈ log, key old = key entry then log.map fun old => if key old = key entry then entry else old
  else log ++ [entry]

theorem upsert_present {old : α} (member : old ∈ log) (same : key old = key entry) :
    upsert key log entry = log.map fun old => if key old = key entry then entry else old :=
  if_pos ⟨old, member, same⟩

theorem upsert_fresh (fresh : ∀ old ∈ log, key old ≠ key entry) : upsert key log entry = log ++ [entry] :=
  if_neg fun ⟨old, member, same⟩ => fresh old member same

end Upsert

end Unique

variable {κ α : Type}

def keyed [DecidableEq κ] (entries : List (κ × α)) (key : κ) : Option α :=
  (entries.find? fun entry => entry.1 = key).map Prod.snd

/-- A new value for a key that is there. -/
def rewriteKeyed [DecidableEq κ] (entries : List (κ × α)) (key : κ) (value : α) : List (κ × α) :=
  entries.map fun entry => if entry.1 = key then (key, value) else entry

/-- The entries that are kept, each with what is kept of its value. -/
def retainKeyed (kept : α → Option α) (entries : List (κ × α)) : List (κ × α) :=
  entries.filterMap fun entry => (kept entry.2).map fun value => (entry.1, value)

variable {entries : List (κ × α)} {key other : κ} {value : α}

theorem keys_retainKeyed (kept : α → Option α) :
    ((retainKeyed kept entries).map Prod.fst).Sublist (entries.map Prod.fst) := by
  induction entries with
  | nil => exact List.Sublist.refl _
  | cons first rest ih =>
    unfold retainKeyed at ih ⊢
    rw [List.filterMap_cons]
    cases kept first.2 with
    | none => exact ih.cons _
    | some value => exact ih.cons_cons _

/-- As many entries are retained as have something kept. -/
theorem length_retainKeyed (kept : α → Option α) :
    (retainKeyed kept entries).length = (entries.filter fun entry => (kept entry.2).isSome).length := by
  induction entries with
  | nil => rfl
  | cons first rest ih =>
    unfold retainKeyed at ih ⊢
    rw [List.filterMap_cons, List.filter_cons]
    cases kept first.2 with
    | none => simpa using ih
    | some value => simpa using ih

/-- What is kept is kept again. -/
theorem retainKeyed_again {kept : α → Option α} (again : ∀ held value, kept held = some value → kept value = some value) :
    retainKeyed kept (retainKeyed kept entries) = retainKeyed kept entries := by
  induction entries with
  | nil => rfl
  | cons first rest ih =>
    unfold retainKeyed at ih ⊢
    rw [List.filterMap_cons]
    cases retained : kept first.2 with
    | none => exact ih
    | some value =>
      dsimp only [Option.map_some]
      rw [List.filterMap_cons]
      simp only [again first.2 value retained, Option.map_some, ih]

section Reading
variable [DecidableEq κ]

theorem keyed_cons : keyed ((key, value) :: entries) other = if key = other then some value else keyed entries other := by
  unfold keyed
  rw [List.find?_cons]
  by_cases same : key = other
  · simp [same]
  · simp [same]

theorem keyed_eq_none : keyed entries key = none ↔ key ∉ entries.map Prod.fst := by
  unfold keyed
  rw [Option.map_eq_none_iff, List.find?_eq_none, List.mem_map]
  constructor
  · rintro absent ⟨entry, listed, same⟩
    exact absent entry listed (decide_eq_true same)
  · intro absent entry listed same
    exact absent ⟨entry, listed, of_decide_eq_true same⟩

theorem mem_of_keyed (found : keyed entries key = some value) : key ∈ entries.map Prod.fst := by
  by_contra absent
  rw [keyed_eq_none.2 absent] at found
  cases found

theorem keyed_of_mem (unique : (entries.map Prod.fst).Nodup) (listed : (key, value) ∈ entries) :
    keyed entries key = some value := by
  induction entries with
  | nil => cases listed
  | cons first rest ih =>
    obtain ⟨name, held⟩ := first
    obtain ⟨fresh, apart⟩ := List.nodup_cons.1 unique
    rw [keyed_cons]
    rcases List.mem_cons.1 listed with here | later
    · obtain ⟨rfl, rfl⟩ := Prod.mk.inj here
      exact if_pos rfl
    · have unlike : name ≠ key := by
        rintro rfl
        exact fresh (List.mem_map.2 ⟨_, later, rfl⟩)
      rw [if_neg unlike]
      exact ih apart later

theorem keys_rewriteKeyed : (rewriteKeyed entries key value).map Prod.fst = entries.map Prod.fst := by
  unfold rewriteKeyed
  rw [List.map_map]
  refine List.map_congr_left fun entry _ => ?_
  dsimp only [Function.comp_apply]
  split
  next same => exact same.symm
  next => rfl

theorem keyed_rewriteKeyed (present : key ∈ entries.map Prod.fst) :
    keyed (rewriteKeyed entries key value) other = if key = other then some value else keyed entries other := by
  induction entries with
  | nil => cases present
  | cons first rest ih =>
    obtain ⟨name, held⟩ := first
    unfold rewriteKeyed at ih ⊢
    rw [List.map_cons]
    by_cases own : name = key
    · subst own
      rw [if_pos rfl, keyed_cons, keyed_cons]
      split
      next => rfl
      next unlike =>
        -- a later entry under the same key is rewritten too
        by_cases again : name ∈ rest.map Prod.fst
        · rw [ih again, if_neg unlike]
        · have kept : rest.map (fun entry => if entry.1 = name then (name, value) else entry) = rest := by
            refine (List.map_congr_left fun entry listed => ?_).trans (List.map_id rest)
            exact if_neg fun same => again (List.mem_map.2 ⟨entry, listed, same⟩)
          rw [kept]
    · rw [if_neg own, keyed_cons, keyed_cons]
      have later : key ∈ rest.map Prod.fst := (List.mem_cons.1 present).resolve_left (Ne.symm own)
      rw [ih later]
      by_cases here : name = other
      · rw [if_pos here, if_pos here, if_neg]
        rintro rfl
        exact own here
      · rw [if_neg here, if_neg here]

theorem keyed_retainKeyed (unique : (entries.map Prod.fst).Nodup) (kept : α → Option α) :
    keyed (retainKeyed kept entries) key = (keyed entries key).bind kept := by
  induction entries with
  | nil => rfl
  | cons first rest ih =>
    obtain ⟨name, held⟩ := first
    obtain ⟨fresh, apart⟩ := List.nodup_cons.1 unique
    have later := ih apart
    unfold retainKeyed at later ⊢
    rw [List.filterMap_cons, keyed_cons]
    by_cases own : name = key
    · subst own
      rw [keyed_eq_none.2 fresh] at later
      cases retained : kept held with
      | none => simpa [retained] using later
      | some value => simp [retained, keyed_cons]
    · cases retained : kept held with
      | none => simpa [retained, own] using later
      | some value => simpa [retained, own, keyed_cons] using later

end Reading

end Fauxchange.Lib
