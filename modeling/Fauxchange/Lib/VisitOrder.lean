import Mathlib.Data.Fin.Tuple.Sort
import Mathlib.Data.String.Basic

/-! Iteration in an arbitrary order, and the sorts that make a result independent of it. -/

namespace Fauxchange.Lib

/-- An iteration order that may differ from one visit to the next: for each visit and each size, an
arbitrary permutation of the positions. -/
abbrev VisitOrder := Nat → (size : Nat) → Equiv.Perm (Fin size)

variable {α κ : Type}

def visit (order : VisitOrder) (round : Nat) (list : List α) : List α :=
  List.ofFn fun position => list.get (order round list.length position)

theorem visit_perm (order : VisitOrder) (round : Nat) (list : List α) :
    (visit order round list).Perm list := by
  have shuffled := Equiv.Perm.ofFn_comp_perm (order round list.length) list.get
  rw [List.ofFn_get] at shuffled
  exact shuffled

/-- Two visits of one list are permutations of each other. -/
theorem visit_perm_visit (order other : VisitOrder) (round : Nat) (list : List α) :
    (visit order round list).Perm (visit other round list) :=
  (visit_perm order round list).trans (visit_perm other round list).symm

theorem nodup_eraseDups [DecidableEq α] (list : List α) : list.eraseDups.Nodup := by
  induction size : list.length using Nat.strongRecOn generalizing list with
  | ind count ih =>
    cases list with
    | nil => simp
    | cons head rest =>
      have smaller : (rest.filter fun other => !other == head).length < count := by
        have bound := List.length_filter_le (fun other => !other == head) rest
        simp only [List.length_cons] at size
        omega
      rw [List.eraseDups_cons, List.nodup_cons]
      exact ⟨by simp [List.mem_eraseDups], ih _ smaller _ rfl⟩

/-- The distinct elements of a list are the same in every order of arrival. -/
theorem eraseDups_perm [DecidableEq α] {list other : List α} (perm : list.Perm other) :
    list.eraseDups.Perm other.eraseDups := by
  rw [List.perm_ext_iff_of_nodup (nodup_eraseDups list) (nodup_eraseDups other)]
  intro element
  rw [List.mem_eraseDups, List.mem_eraseDups, perm.mem_iff]

variable [LinearOrder κ]

/-- A stable sort by a key. -/
def sortByKey (key : α → κ) (list : List α) : List α :=
  list.insertionSort (fun left right => key left ≤ key right)

theorem sortByKey_perm (key : α → κ) (list : List α) : (sortByKey key list).Perm list :=
  List.perm_insertionSort _ list

theorem sortByKey_pairwise (key : α → κ) (list : List α) :
    (sortByKey key list).Pairwise (fun left right => key left ≤ key right) :=
  have : Std.Total (fun left right : α => key left ≤ key right) := ⟨fun _ _ => le_total _ _⟩
  have : IsTrans α (fun left right => key left ≤ key right) := ⟨fun _ _ _ first second => le_trans first second⟩
  List.pairwise_insertionSort _ list

theorem sortByKey_of_sorted {key : α → κ} {list : List α}
    (sorted : list.Pairwise (fun left right => key left ≤ key right)) : sortByKey key list = list :=
  sorted.insertionSort_eq

/-- Where the key tells the elements apart, sorting forgets the order of arrival. -/
theorem sortByKey_eq_of_perm (key : α → κ) {list other : List α} (perm : list.Perm other)
    (apart : ∀ left ∈ list, ∀ right ∈ list, key left = key right → left = right) :
    sortByKey key list = sortByKey key other := by
  refine List.Perm.eq_of_pairwise ?_ (sortByKey_pairwise key list) (sortByKey_pairwise key other)
    ((sortByKey_perm key list).trans (perm.trans (sortByKey_perm key other).symm))
  intro left right first second below above
  have inList : left ∈ list := (sortByKey_perm key list).subset first
  have inOther : right ∈ list := perm.symm.subset ((sortByKey_perm key other).subset second)
  exact apart left inList right inOther (le_antisymm below above)

/-- Where the key tells the elements apart, a part of a list sorts as it lies in the whole. -/
theorem sortByKey_filter (key : α → κ) (part : α → Bool) {list : List α}
    (apart : ∀ left ∈ list, ∀ right ∈ list, key left = key right → left = right) :
    sortByKey key (list.filter part) = (sortByKey key list).filter part := by
  have sorted := sortByKey_of_sorted ((sortByKey_pairwise key list).filter part)
  rw [← sorted]
  refine sortByKey_eq_of_perm key ((sortByKey_perm key list).symm.filter part) fun left here right there => ?_
  exact apart left (List.mem_filter.1 here).1 right (List.mem_filter.1 there).1

theorem sortByKey_map {β : Type} (key : β → κ) (read : α → β) (list : List α) :
    sortByKey key (list.map read) = (sortByKey (key ∘ read) list).map read :=
  (List.map_insertionSort _ _ read list fun _ _ _ _ => Iff.rfl).symm

/-- A key that grows along a list tells its elements apart. -/
theorem apart_of_growing {key : α → κ} {list : List α}
    (growing : list.Pairwise (fun early late => key early < key late)) :
    ∀ left ∈ list, ∀ right ∈ list, key left = key right → left = right := by
  have apart : list.Pairwise fun left right => key left = key right → left = right :=
    growing.imp fun below same => absurd same below.ne
  have : Std.Symm fun left right => key left = key right → left = right :=
    ⟨fun _ _ equal same => (equal same.symm).symm⟩
  intro left here right there
  exact apart.forall_of_forall (fun _ _ _ => Eq.refl _) here there

end Fauxchange.Lib
