import Std.Data.ExtTreeMap.Lemmas
import Fauxchange.Lib.Effects

/-! A fallible pass over the entries of a map that inserts, under the keys it takes, what it makes of their entries. -/

namespace Fauxchange.Lib

/-- A step of the pass either leaves the map as it is or inserts what it makes of its entry. -/
structure Inserting {ε α β : Type} (taken : String → Prop) (made : String × α → β → Prop)
    (step : Std.ExtTreeMap String β → String × α → Except ε (Std.ExtTreeMap String β)) : Prop where
  skips : ∀ map entry next, step map entry = .ok next → ¬taken entry.1 → next = map
  inserts : ∀ map entry next, step map entry = .ok next → taken entry.1 →
    ∃ value, made entry value ∧ next = map.insert entry.1 value

variable {ε α β : Type} {taken : String → Prop} {made : String × α → β → Prop}
  {step : Std.ExtTreeMap String β → String × α → Except ε (Std.ExtTreeMap String β)}
  {items : List (String × α)} {start final : Std.ExtTreeMap String β} {key : String} {value : α}

theorem Inserting.kept (inserting : Inserting taken made step) (done : items.foldlM step start = .ok final)
    (apart : taken key → ∀ entry ∈ items, entry.1 ≠ key) : final[key]? = start[key]? := by
  induction items generalizing start with
  | nil =>
    cases done
    rfl
  | cons entry rest ih =>
    rw [List.foldlM_cons] at done
    obtain ⟨next, stepped, later⟩ := except_bind_ok done
    rw [ih later fun named other listed => apart named other (List.mem_cons_of_mem _ listed)]
    by_cases named : taken entry.1
    · obtain ⟨_, _, rfl⟩ := inserting.inserts start entry next stepped named
      have unlike : entry.1 ≠ key := by
        intro same
        exact apart (same ▸ named) entry List.mem_cons_self same
      rw [Std.ExtTreeMap.getElem?_insert, if_neg fun same => unlike (Std.LawfulEqCmp.eq_of_compare same)]
    · rw [inserting.skips start entry next stepped named]

theorem Inserting.placed (inserting : Inserting taken made step) (done : items.foldlM step start = .ok final)
    (distinct : items.Pairwise fun entry other => entry.1 ≠ other.1) (named : taken key)
    (listed : (key, value) ∈ items) : ∃ outcome, made (key, value) outcome ∧ final[key]? = some outcome := by
  induction items generalizing start with
  | nil => cases listed
  | cons entry rest ih =>
    rw [List.foldlM_cons] at done
    obtain ⟨next, stepped, later⟩ := except_bind_ok done
    obtain ⟨unlike, apart⟩ := List.pairwise_cons.1 distinct
    rcases List.mem_cons.1 listed with rfl | further
    · obtain ⟨outcome, makes, rfl⟩ := inserting.inserts start _ next stepped named
      refine ⟨outcome, makes, ?_⟩
      rw [inserting.kept later fun _ other member => (unlike other member).symm]
      exact Std.ExtTreeMap.getElem?_insert_self
    · exact ih later apart further

/-- After a pass over a whole map, a key that is taken holds what was made of its entry, and no other holds anything. -/
theorem Inserting.read (inserting : Inserting taken made step) {map : Std.ExtTreeMap String α}
    (done : map.toList.foldlM step ∅ = .ok final) (key : String) :
    (∃ value outcome, taken key ∧ map[key]? = some value ∧ made (key, value) outcome ∧ final[key]? = some outcome) ∨
      (taken key → map[key]? = none) ∧ final[key]? = none := by
  have distinct : map.toList.Pairwise fun entry other => entry.1 ≠ other.1 :=
    Std.ExtTreeMap.distinct_keys_toList.imp fun unlike same => unlike (by rw [same]; exact Std.ReflCmp.compare_self)
  by_cases present : taken key ∧ ∃ value, map[key]? = some value
  · obtain ⟨named, value, found⟩ := present
    obtain ⟨outcome, makes, read⟩ :=
      inserting.placed done distinct named (Std.ExtTreeMap.mem_toList_iff_getElem?_eq_some.2 found)
    exact Or.inl ⟨value, outcome, named, found, makes, read⟩
  · have missing : taken key → map[key]? = none := by
      intro named
      rw [Option.eq_none_iff_forall_ne_some]
      exact fun value found => present ⟨named, value, found⟩
    refine Or.inr ⟨missing, ?_⟩
    rw [inserting.kept done ?_, Std.ExtTreeMap.getElem?_empty]
    intro named entry listed same
    subst same
    rw [Std.ExtTreeMap.mem_toList_iff_getElem?_eq_some.1 listed] at missing
    cases missing named

end Fauxchange.Lib
