import Std.Data.ExtTreeMap
import Std.Data.ExtTreeMap.Lemmas

/-! Finite maps keyed by pairs, ordered lexicographically. -/

namespace Fauxchange.Lib

variable {α β γ : Type} [Ord α] [Ord β]

def pairCompare : α × β → α × β → Ordering :=
  compareLex (compareOn Prod.fst) (compareOn Prod.snd)

instance [Std.TransOrd α] [Std.TransOrd β] : Std.TransCmp (@pairCompare α β _ _) :=
  inferInstanceAs (Std.TransCmp (compareLex (compareOn Prod.fst) (compareOn Prod.snd)))

instance [Std.TransOrd α] [Std.TransOrd β] [Std.LawfulEqOrd α] [Std.LawfulEqOrd β] :
    Std.LawfulEqCmp (@pairCompare α β _ _) where
  eq_of_compare := by
    intro left right same
    simp only [pairCompare, compareLex, compareOn, Ordering.then_eq_eq, Std.LawfulEqCmp.compare_eq_iff_eq] at same
    exact Prod.ext same.1 same.2

@[simp] theorem pairCompare_eq_iff [Std.TransOrd α] [Std.TransOrd β] [Std.LawfulEqOrd α] [Std.LawfulEqOrd β]
    {left right : α × β} : pairCompare left right = .eq ↔ left = right :=
  Std.LawfulEqCmp.compare_eq_iff_eq

abbrev PairMap (α β γ : Type) [Ord α] [Ord β] := Std.ExtTreeMap (α × β) γ pairCompare

end Fauxchange.Lib
