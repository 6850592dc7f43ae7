import Mathlib.Algebra.BigOperators.Group.List.Basic
import Mathlib.Data.List.Nodup
import Std.Data.ExtTreeMap.Lemmas

/-! The entries of a finite map: their sums, what a write does to them, and how they fall apart at a key. -/

namespace Fauxchange.Lib

variable {κ α M : Type} [AddCommMonoid M] {cmp : κ → κ → Ordering} [Std.TransCmp cmp]

def mapSum (weight : κ → α → M) (map : Std.ExtTreeMap κ α cmp) : M :=
  (map.toList.map fun entry => weight entry.1 entry.2).sum

/-- The weight of a key: nothing if it is absent. -/
def weightAt (weight : κ → α → M) (map : Std.ExtTreeMap κ α cmp) (key : κ) : M :=
  (map[key]?.map (weight key)).getD 0

variable (weight : κ → α → M) (map : Std.ExtTreeMap κ α cmp)

theorem mapSum_empty : mapSum weight (∅ : Std.ExtTreeMap κ α cmp) = 0 := by
  have none : (∅ : Std.ExtTreeMap κ α cmp).toList = [] := Std.ExtTreeMap.toList_eq_nil_iff.2 rfl
  rw [mapSum, none]
  rfl

variable [Std.LawfulEqCmp cmp]

theorem nodup_toList : map.toList.Nodup := by
  refine List.nodup_iff_pairwise_ne.2 (Std.ExtTreeMap.distinct_keys_toList.imp fun apart same => apart ?_)
  exact Std.LawfulEqCmp.compare_eq_iff_eq.2 (congrArg Prod.fst same)

/-- A map is one of its entries and the rest. -/
theorem toList_perm_erase {key : κ} {value : α} (present : map[key]? = some value) :
    map.toList.Perm ((key, value) :: (map.erase key).toList) := by
  refine (List.perm_ext_iff_of_nodup (nodup_toList map) (List.nodup_cons.2 ⟨?_, nodup_toList _⟩)).2 fun entry => ?_
  · rw [Std.ExtTreeMap.mem_toList_iff_getElem?_eq_some]
    simp
  · obtain ⟨other, found⟩ := entry
    rw [List.mem_cons, Std.ExtTreeMap.mem_toList_iff_getElem?_eq_some,
      Std.ExtTreeMap.mem_toList_iff_getElem?_eq_some, Std.ExtTreeMap.getElem?_erase, Prod.mk.injEq]
    by_cases same : key = other
    · subst same
      simp [present, eq_comm]
    · have apart : cmp key other ≠ .eq := fun equal => same (Std.LawfulEqCmp.compare_eq_iff_eq.1 equal)
      simp [apart, Ne.symm same]

theorem erase_of_absent {key : κ} (absent : map[key]? = none) : map.erase key = map := by
  refine Std.ExtTreeMap.ext_getElem? fun other => ?_
  rw [Std.ExtTreeMap.getElem?_erase]
  split
  next same => rw [← Std.LawfulEqCmp.compare_eq_iff_eq.1 same, absent]
  next => rfl

/-- Taking a key away takes its weight away. -/
theorem mapSum_erase (key : κ) : mapSum weight map = weightAt weight map key + mapSum weight (map.erase key) := by
  cases present : map[key]? with
  | none => rw [erase_of_absent map present, weightAt, present, Option.map_none, Option.getD_none, zero_add]
  | some value =>
    rw [mapSum, ((toList_perm_erase map present).map _).sum_eq, List.map_cons, List.sum_cons, weightAt, present]
    rfl

theorem erase_insert (key : κ) (value : α) : (map.insert key value).erase key = map.erase key := by
  refine Std.ExtTreeMap.ext_getElem? fun other => ?_
  rw [Std.ExtTreeMap.getElem?_erase, Std.ExtTreeMap.getElem?_erase, Std.ExtTreeMap.getElem?_insert]
  split <;> rfl

/-- Writing a key puts its new weight in the place of the old one. -/
theorem mapSum_insert (key : κ) (value : α) :
    weightAt weight map key + mapSum weight (map.insert key value) = mapSum weight map + weight key value := by
  have written : weightAt weight (map.insert key value) key = weight key value := by
    simp [weightAt]
  rw [mapSum_erase weight (map.insert key value) key, erase_insert, written, mapSum_erase weight map key, add_assoc,
    add_comm (weight key value)]

/-! Splitting a map at a key. -/

section Split
variable {κ α : Type} {cmp : κ → κ → Ordering} [Std.TransCmp cmp]

/-- The entries below a key, and those at it or above. -/
def splitOff (map : Std.ExtTreeMap κ α cmp) (boundary : κ) : Std.ExtTreeMap κ α cmp × Std.ExtTreeMap κ α cmp :=
  (map.filter fun key _ => (cmp key boundary).isLT, map.filter fun key _ => !(cmp key boundary).isLT)

theorem filter_append_rest {γ : Type} {below : γ → Bool} {list : List γ}
    (closed : list.Pairwise fun left right => below right → below left) :
    list.filter below ++ list.filter (fun entry => !below entry) = list := by
  induction list with
  | nil => rfl
  | cons head rest ih =>
    rw [List.pairwise_cons] at closed
    by_cases low : below head
    · simp only [List.filter_cons, low, if_true, Bool.not_true, Bool.false_eq_true, if_false, List.cons_append]
      rw [ih closed.2]
    · have none : rest.filter below = [] :=
        List.filter_eq_nil_iff.2 fun entry member under => low (closed.1 entry member under)
      have all : rest.filter (fun entry => !below entry) = rest := by
        refine List.filter_eq_self.2 fun entry member => ?_
        simpa using fun under => low (closed.1 entry member under)
      simp [low, none, all]

/-- Nothing is lost by a split, and the order is kept. -/
theorem splitOff_toList (map : Std.ExtTreeMap κ α cmp) (boundary : κ) :
    (splitOff map boundary).1.toList ++ (splitOff map boundary).2.toList = map.toList := by
  rw [splitOff, Std.ExtTreeMap.toList_filter, Std.ExtTreeMap.toList_filter]
  apply filter_append_rest
  refine Std.ExtTreeMap.ordered_keys_toList.imp fun {left right} ordered below => ?_
  rw [Ordering.isLT_iff_eq_lt] at below ⊢
  exact Std.TransCmp.lt_trans ordered below

theorem mem_splitOff_below {map : Std.ExtTreeMap κ α cmp} {boundary : κ} {entry : κ × α} :
    entry ∈ (splitOff map boundary).1.toList ↔ entry ∈ map.toList ∧ cmp entry.1 boundary = .lt := by
  rw [splitOff, Std.ExtTreeMap.toList_filter, List.mem_filter, Ordering.isLT_iff_eq_lt]

variable [Std.LawfulEqCmp cmp]

/-- A map with a new key holds its old entries and the new one. -/
theorem toList_insert_perm {map : Std.ExtTreeMap κ α cmp} {key : κ} (value : α) (absent : map[key]? = none) :
    (map.insert key value).toList.Perm ((key, value) :: map.toList) := by
  have written : (map.insert key value)[key]? = some value := Std.ExtTreeMap.getElem?_insert_self
  have split := toList_perm_erase (map.insert key value) written
  rwa [erase_insert, erase_of_absent map absent] at split

/-- A key that is written again changes its own entry only. -/
theorem toList_insert_perm_of_present {map : Std.ExtTreeMap κ α cmp} {key : κ} {old : α} (value : α)
    (present : map[key]? = some old) :
    ∃ others, map.toList.Perm ((key, old) :: others) ∧ (map.insert key value).toList.Perm ((key, value) :: others) := by
  have written : (map.insert key value)[key]? = some value := Std.ExtTreeMap.getElem?_insert_self
  have split := toList_perm_erase (map.insert key value) written
  rw [erase_insert] at split
  exact ⟨_, toList_perm_erase map present, split⟩

/-- In a list sorted by a strict relation, two related entries stand in their order. -/
theorem pair_sublist {γ : Type} {before : γ → γ → Prop} (asymm : ∀ left right, before left right → ¬ before right left)
    {list : List γ} (sorted : list.Pairwise before) {first second : γ} (firstIn : first ∈ list)
    (secondIn : second ∈ list) (ordered : before first second) : [first, second].Sublist list := by
  induction list with
  | nil => cases firstIn
  | cons head rest ih =>
    rw [List.pairwise_cons] at sorted
    cases List.mem_cons.1 firstIn with
    | inl here =>
      subst here
      have later : second ∈ rest := by
        cases List.mem_cons.1 secondIn with
        | inl same => exact absurd ordered (same ▸ fun loop => asymm _ _ loop loop)
        | inr later => exact later
      exact (List.singleton_sublist.2 later).cons_cons first
    | inr there =>
      cases List.mem_cons.1 secondIn with
      | inl same => exact absurd (sorted.1 first there) (same ▸ asymm _ _ ordered)
      | inr later => exact (ih sorted.2 there later).cons head

end Split

end Fauxchange.Lib
