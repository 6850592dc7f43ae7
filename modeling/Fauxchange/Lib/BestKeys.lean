import Fauxchange.Lib.LastWrite

/-! A finite map ranked by its keys, from either end, and cut to the best of them. -/

namespace Fauxchange.Lib

theorem take_filter {α : Type} {keep : α → Bool} {list : List α} {count : Nat}
    (within : ∀ item ∈ list.take count, keep item = true) : (list.filter keep).take count = list.take count := by
  have split : list.filter keep = list.take count ++ (list.drop count).filter keep := by
    conv_lhs => rw [← List.take_append_drop count list]
    rw [List.filter_append, List.filter_eq_self.2 within]
  rw [split, List.take_append]
  by_cases long : count ≤ list.length
  · have length : (list.take count).length = count := List.length_take_of_le long
    rw [length, Nat.sub_self, List.take_zero, List.append_nil, List.take_take, Nat.min_self]
  · have short : list.drop count = [] := List.drop_eq_nil_of_le (Nat.le_of_not_le long)
    rw [short, List.filter_nil, List.take_nil, List.append_nil, List.take_take, Nat.min_self]

variable {κ α : Type} {cmp : κ → κ → Ordering} [Std.TransCmp cmp]

/-- The entries by their keys, the highest first or the lowest. -/
def ranked (highest : Bool) (map : Std.ExtTreeMap κ α cmp) : List (κ × α) :=
  if highest then map.toList.reverse else map.toList

/-- The best keys. -/
def bestKeys (count : Nat) (highest : Bool) (map : Std.ExtTreeMap κ α cmp) : List κ :=
  ((ranked highest map).take count).map Prod.fst

/-- The entries of the best keys. -/
def keepBest [DecidableEq κ] (count : Nat) (highest : Bool) (map : Std.ExtTreeMap κ α cmp) : Std.ExtTreeMap κ α cmp :=
  map.filter fun key _ => key ∈ bestKeys count highest map

variable {highest : Bool} {count : Nat} {map : Std.ExtTreeMap κ α cmp} {keep : κ → Bool}

theorem ranked_perm (highest : Bool) (map : Std.ExtTreeMap κ α cmp) : (ranked highest map).Perm map.toList := by
  unfold ranked
  split
  · exact List.reverse_perm _
  · exact List.Perm.refl _

theorem ranked_filter : ranked highest (map.filter fun key _ => keep key) = (ranked highest map).filter (keep ·.1) := by
  unfold ranked
  rw [Std.ExtTreeMap.toList_filter]
  split
  next => exact List.filter_reverse.symm
  next => rfl

/-- The best keys of a part that has them are the best keys of the whole. -/
theorem bestKeys_filter (within : ∀ key ∈ bestKeys count highest map, keep key = true) :
    bestKeys count highest (map.filter fun key _ => keep key) = bestKeys count highest map := by
  unfold bestKeys
  rw [ranked_filter, take_filter fun entry member => within entry.1 (List.mem_map_of_mem member)]

variable [Std.LawfulEqCmp cmp]

theorem nodup_ranked (highest : Bool) (map : Std.ExtTreeMap κ α cmp) : ((ranked highest map).map Prod.fst).Nodup :=
  ((ranked_perm highest map).map _).nodup_iff.2 (nodup_keys map)

variable [DecidableEq κ]

theorem ranked_keepBest : ranked highest (keepBest count highest map) = (ranked highest map).take count := by
  have distinct := nodup_ranked highest map
  unfold keepBest
  rw [ranked_filter]
  conv_lhs => rw [← List.take_append_drop count (ranked highest map)]
  have kept : ((ranked highest map).take count).filter (fun entry => decide (entry.1 ∈ bestKeys count highest map)) =
      (ranked highest map).take count :=
    List.filter_eq_self.2 fun entry member => decide_eq_true (List.mem_map_of_mem member)
  have left : ((ranked highest map).drop count).filter (fun entry => decide (entry.1 ∈ bestKeys count highest map)) = [] := by
    refine List.filter_eq_nil_iff.2 fun entry member best => ?_
    rw [← List.take_append_drop count (ranked highest map), List.map_append] at distinct
    exact (List.nodup_append.1 distinct).2.2 _ (of_decide_eq_true best) _ (List.mem_map_of_mem member) rfl
  rw [List.filter_append, kept, left, List.append_nil]

/-- The best entries, written anew. -/
theorem writeAll_best {β : Type} {key : β → κ} {value : β → α} {capture : κ × α → β}
    (keyed : ∀ entry, key (capture entry) = entry.1) (valued : ∀ entry, value (capture entry) = entry.2) :
    writeAll key value ∅ (((ranked highest map).take count).map capture) = keepBest count highest map := by
  have listed : ∀ entry, entry ∈ (ranked highest map).take count ↔ (keepBest count highest map)[entry.1]? = some entry.2 := by
    intro entry
    rw [← ranked_keepBest, (ranked_perm highest _).mem_iff, Std.ExtTreeMap.mem_toList_iff_getElem?_eq_some]
  refine writeAll_eq ?_ fun target found => ?_
  · rw [List.map_map, show key ∘ capture = Prod.fst from funext keyed]
    exact (nodup_ranked highest map).sublist ((List.take_sublist _ _).map _)
  · constructor
    · intro present
      exact ⟨_, List.mem_map_of_mem ((listed (target, found)).2 present), keyed _, valued _⟩
    · rintro ⟨_, member, rfl, rfl⟩
      obtain ⟨entry, best, rfl⟩ := List.mem_map.1 member
      rw [keyed, valued]
      exact (listed entry).1 best

/-- A part that has the best keys is cut to the same entries as the whole. -/
theorem keepBest_filter (within : ∀ key ∈ bestKeys count highest map, keep key = true) :
    keepBest count highest (map.filter fun key _ => keep key) = keepBest count highest map := by
  unfold keepBest
  rw [bestKeys_filter within]
  refine Std.ExtTreeMap.ext_getElem? fun key => ?_
  rw [Std.ExtTreeMap.getElem?_filter', Std.ExtTreeMap.getElem?_filter', Std.ExtTreeMap.getElem?_filter']
  rw [Option.filter_filter]
  refine congrArg (Option.filter · _) (funext fun value => ?_)
  by_cases best : key ∈ bestKeys count highest map
  · rw [within key best, Bool.true_and]
  · rw [decide_eq_false best, Bool.and_false]

end Fauxchange.Lib
