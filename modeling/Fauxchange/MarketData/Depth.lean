import Fauxchange.MarketData.Deltas
import Fauxchange.Lib.BestKeys

/-! A client that keeps the best levels of an aggregate, and what the changes that it is told leave it with. -/

namespace Fauxchange.MarketData
open Lib

/-- Bids are best at the highest price. -/
def BookSide.highest : BookSide → Bool
  | .bid => true
  | .ask => false

namespace Levels

/-- The levels of a side, best first. -/
def best (side : BookSide) (levels : Levels) : List (Nat × Nat) := ranked side.highest (levels.level side)

def bestPrices (depth : Nat) (side : BookSide) (levels : Levels) : List Nat := bestKeys depth side.highest (levels.level side)

def keepDepth (depth : Nat) (levels : Levels) : Levels :=
  ⟨keepBest depth true levels.bids, keepBest depth false levels.asks⟩

theorem level_keepDepth (depth : Nat) (levels : Levels) (side : BookSide) :
    (levels.keepDepth depth).level side = keepBest depth side.highest (levels.level side) := by
  cases side <;> rfl

end Levels

/-- A client has exactly the best levels of the sides that it follows. -/
def HoldsBest (depth : Nat) (follows : BookSide → Bool) (levels client : Levels) : Prop :=
  ∀ side, follows side → client.level side = keepBest depth side.highest (levels.level side)

/-- Only levels that the changes name get among the best ones. -/
def Announced (depth : Nat) (follows : BookSide → Bool) (levels : Levels) (changes : List PriceLevelChange) : Prop :=
  ∀ side, follows side → ∀ price ∈ (changes.foldl Levels.applyChange levels).bestPrices depth side,
    price ∈ levels.bestPrices depth side ∨ ∃ change ∈ changes, change.side = side ∧ change.price = price

instance {depth : Nat} {follows : BookSide → Bool} {levels : Levels} {changes : List PriceLevelChange} :
    Decidable (Announced depth follows levels changes) :=
  decidable_of_iff (∀ side ∈ [BookSide.bid, BookSide.ask], follows side →
      ∀ price ∈ (changes.foldl Levels.applyChange levels).bestPrices depth side,
        price ∈ levels.bestPrices depth side ∨ ∃ change ∈ changes, change.side = side ∧ change.price = price)
    ⟨fun all side => all side (by cases side <;> simp), fun announced side _ => announced side⟩

section Changes
variable {depth : Nat} {follows : BookSide → Bool} {side : BookSide} {levels client : Levels} {changes : List PriceLevelChange}

theorem HoldsBest.best (holds : HoldsBest depth follows levels client) (followed : follows side) :
    client.best side = (levels.best side).take depth := by
  rw [Levels.best, holds side followed, ranked_keepBest]
  rfl

/-- Changes elsewhere leave a side alone. -/
theorem level_applyChange_of_ne {change : PriceLevelChange} (apart : change.side ≠ side) :
    (levels.applyChange change).level side = levels.level side :=
  Levels.level_setLevel_of_ne _ apart.symm _

/-- A client that has a part of a side has, after a change that it is told, that part and the level of the change. -/
theorem applyChange_part {change : PriceLevelChange} {has : Nat → Bool}
    (part : client.level side = (levels.level side).filter fun price _ => has price) :
    (client.applyChange change).level side = ((levels.applyChange change).level side).filter fun price _ =>
      has price || decide (change.side = side ∧ change.price = price) := by
  refine Std.ExtTreeMap.ext_getElem? fun price => ?_
  rw [Std.ExtTreeMap.getElem?_filter', Levels.getElem?_applyChange, Levels.getElem?_applyChange, part,
    Std.ExtTreeMap.getElem?_filter']
  by_cases here : side = change.side ∧ price = change.price
  · have named : change.side = side ∧ change.price = price := ⟨here.1.symm, here.2.symm⟩
    rw [if_pos here, if_pos here, decide_eq_true named]
    split <;> simp [Option.filter]
  · have unnamed : ¬ (change.side = side ∧ change.price = price) := fun named => here ⟨named.1.symm, named.2.symm⟩
    rw [if_neg here, if_neg here, decide_eq_false unnamed]
    simp only [Bool.or_false]

theorem applyChanges_part {has : Nat → Bool} (followed : follows side)
    (part : client.level side = (levels.level side).filter fun price _ => has price) :
    ((changes.filter fun change => follows change.side).foldl Levels.applyChange client).level side =
      ((changes.foldl Levels.applyChange levels).level side).filter fun price _ =>
        has price || changes.any fun change => change.side = side ∧ change.price = price := by
  induction changes generalizing client levels has with
  | nil => simpa using part
  | cons change rest ih =>
    rw [List.foldl_cons]
    by_cases told : follows change.side = true
    · rw [List.filter_cons, if_pos told, List.foldl_cons, ih (applyChange_part part)]
      simp only [List.any_cons, Bool.or_assoc]
    · have apart : change.side ≠ side := fun same => told (same ▸ followed)
      rw [List.filter_cons, if_neg told, ih (part.trans (by rw [level_applyChange_of_ne apart]))]
      simp [apart]

/-- A client that is told the changes of an announced step, and keeps the best, has the best again. -/
theorem HoldsBest.applied (holds : HoldsBest depth follows levels client) (announced : Announced depth follows levels changes) :
    HoldsBest depth follows (changes.foldl Levels.applyChange levels)
      (((changes.filter fun change => follows change.side).foldl Levels.applyChange client).keepDepth depth) := by
  intro side followed
  rw [Levels.level_keepDepth, applyChanges_part followed (holds side followed)]
  refine keepBest_filter fun price best => ?_
  rcases announced side followed price best with before | ⟨change, member, named⟩
  · simp [show price ∈ bestKeys depth side.highest (levels.level side) from before]
  · have told : (changes.any fun change => decide (change.side = side ∧ change.price = price)) = true :=
      List.any_eq_true.2 ⟨change, member, decide_eq_true named⟩
    rw [told, Bool.or_true]

/-- Changes that no followed side has leave a client right. -/
theorem HoldsBest.untold (holds : HoldsBest depth follows levels client)
    (silent : (changes.filter fun change => follows change.side) = []) :
    HoldsBest depth follows (changes.foldl Levels.applyChange levels) client := by
  intro side followed
  have same : (changes.foldl Levels.applyChange levels).level side = levels.level side := by
    have unfollowed := List.filter_eq_nil_iff.1 silent
    clear silent holds
    induction changes generalizing levels with
    | nil => rfl
    | cons change rest ih =>
      obtain ⟨first, later⟩ := List.forall_mem_cons.1 unfollowed
      have apart : change.side ≠ side := fun same => first (same ▸ followed)
      rw [List.foldl_cons, ih later, level_applyChange_of_ne apart]
  rw [same]
  exact holds side followed

end Changes

end Fauxchange.MarketData
