import Fauxchange.Exchange.LeafLaws
import Fauxchange.Exchange.ReferenceLaws

/-! The reference book keeps the laws of a leaf. It prevents no self-trade, which every mode of prevention allows. -/

namespace Fauxchange.Exchange
open Lib

namespace ReferenceBook

theorem takenFrom_matchResult {taken : List (BookOrder × Nat)}
    (distinct : (taken.map fun entry => entry.1.id).Nodup) (id : Nat) :
    (matchResult taken).takenFrom id = takenFrom taken id := by
  have trades : (matchResult taken).takenFrom id =
      ((taken.filter fun entry => entry.1.id = id).map Prod.snd).sum := by
    simp [MatchResult.takenFrom, matchResult, List.filter_map, Function.comp_def]
  rw [trades]
  by_cases listed : ∃ entry ∈ taken, entry.1.id = id
  · obtain ⟨entry, member, rfl⟩ := listed
    rw [filter_of_unique (fun entry : BookOrder × Nat => entry.1.id) distinct member, takenFrom_of_mem distinct member]
    simp
  · push Not at listed
    rw [takenFrom_of_absent listed, List.filter_eq_nil_iff.2 (by simpa using listed)]
    rfl

theorem taken_matchResult (taken : List (BookOrder × Nat)) : (matchResult taken).taken = filledQuantity taken :=
  sum_trades_matchResult taken

variable {orders : List BookOrder} {quantity : Nat} {taken : List (BookOrder × Nat)}

theorem consumes_taken (standing : Standing orders) (sound : Taken orders quantity taken) (owner : Hash32)
    (active : Bool) : Consumes orders owner active (matchResult taken) (ordersAfter orders taken) := by
  rw [ordersAfter_eq standing.open']
  have gives := takenFrom_matchResult sound.distinct
  constructor
  case place =>
    rw [idsOf, map_id_filterMap_reduce]
    exact List.filter_sublist.map _
  case left =>
    intro order member
    obtain ⟨old, listed, reduced⟩ := List.mem_filterMap.1 member
    unfold reduce at reduced
    split at reduced
    next left =>
      obtain rfl := Option.some.inj reduced
      refine ⟨by dsimp only; omega, old, listed, rfl, ?_⟩
      rw [gives]
      dsimp only
      omega
    next => cases reduced
  case filled =>
    intro id listed
    obtain ⟨entry, full, rfl⟩ := List.mem_map.1 listed
    obtain ⟨within, whole⟩ := List.mem_filter.1 full
    obtain ⟨member, -⟩ := sound.makers entry within
    have from' := takenFrom_of_mem sound.distinct within
    refine ⟨?_, entry.1, member, rfl, ?_⟩
    · rw [idsOf, map_id_filterMap_reduce]
      intro kept
      obtain ⟨other, left, same⟩ := List.mem_map.1 kept
      obtain ⟨present, below⟩ := List.mem_filter.1 left
      obtain rfl := standing.unique present member same
      rw [from', of_decide_eq_true whole] at below
      simp at below
    · rw [gives, from', of_decide_eq_true whole]
  case gone =>
    intro old member absent unfilled
    rw [mem_filledOrderIds standing.distinct sound member (standing.open' old member)] at unfilled
    rw [idsOf, map_id_filterMap_reduce] at absent
    exact absurd (List.mem_map.2 ⟨old, List.mem_filter.2 ⟨member, by simpa using unfilled⟩, rfl⟩) absent
  case makers =>
    intro trade listed
    obtain ⟨entry, within, rfl⟩ := List.mem_map.1 listed
    exact List.mem_map_of_mem (sound.makers entry within).1

theorem consumes_nothing (standing : Standing orders) (owner : Hash32) (active : Bool) :
    Consumes orders owner active ⟨[], []⟩ orders :=
  consumes_taken standing (taken_nil orders 0) owner active

/-- What the armed listener has heard of a failed call. -/
theorem heardTrades_armed (leaf after : Leaf) {traded : Option MatchResult}
    (slot : after.slot.map TradeResult.matchResult = traded) :
    heardTrades (@heardMatch referenceUpstream (referenceUpstream.armTradeCapture leaf) after) =
      traded.getD ⟨[], []⟩ := by
  rw [← heard_armed leaf after slot]
  unfold heardTrades heardMatch
  rw [Option.map_map]
  rfl

theorem heardTrades_addMatch {leaf : Leaf} {order : LimitOrder} (active : leaf.status = .active)
    (within : withinSpecs leaf.settings.specs order.price order.quantity = true) :
    heardTrades (@addMatch referenceUpstream leaf order) = matchResult (takenByLimit leaf.orders order) := by
  have result := (@addLimitOrder_eq { leaf with slot := none } order active within).1
  have slot := slot_addLimitOrder active within
  unfold limitResult at result
  cases answer : (addLimitOrder { leaf with slot := none } order).1 with
  | ok trade =>
    rw [@addMatch_of_ok referenceUpstream leaf order trade answer]
    rw [answer] at result
    split at result
    · cases result
    · exact Except.ok.inj result
  | error error =>
    rw [@addMatch_of_error referenceUpstream leaf order error answer]
    refine (heardTrades_armed leaf _ slot).trans ?_
    exact getD_heardOf _

theorem joining_restsWith {order : LimitOrder} {accepted : Bool} {taken : List (BookOrder × Nat)} :
    joining order (restsWith order accepted (matchResult taken)) =
      if accepted = true ∧ tifRests order.timeInForce = true ∧ 0 < order.quantity - filledQuantity taken then
        [order.resting (order.quantity - filledQuantity taken)] else [] := by
  unfold joining restsWith
  rw [taken_matchResult]
  cases accepted <;> cases tifRests order.timeInForce <;> simp

theorem isOk_map {α β ε : Type} (read : α → β) (result : Except ε α) : (result.map read).isOk = result.isOk := by
  cases result <;> rfl

/-- No match is heard of a limit order that is turned down. -/
theorem heardTrades_refused {leaf : Leaf} {order : LimitOrder} (error : String)
    (refused : addLimitOrder { leaf with slot := none } order = (.error error, { leaf with slot := none })) :
    heardTrades (@addMatch referenceUpstream leaf order) = ⟨[], []⟩ := by
  rw [@addMatch_of_error referenceUpstream leaf order error (congrArg Prod.fst refused)]
  have slot : (addLimitOrder { leaf with slot := none } order).2.slot = none := by rw [refused]
  exact heardTrades_armed leaf _ (congrArg (Option.map TradeResult.matchResult) slot)

/-- A limit order that is turned down. -/
theorem consumes_refused {leaf : Leaf} {order : LimitOrder} (error : String) (standing : Standing leaf.orders)
    (refused : addLimitOrder { leaf with slot := none } order = (.error error, { leaf with slot := none }))
    (owner : Hash32) (active : Bool) :
    ∃ kept, Consumes leaf.orders owner active (heardTrades (@addMatch referenceUpstream leaf order)) kept ∧
      (addLimitOrder { leaf with slot := none } order).2.orders = kept ++ joining order
        (restsWith order (addLimitOrder { leaf with slot := none } order).1.isOk
          (heardTrades (@addMatch referenceUpstream leaf order))) := by
  rw [heardTrades_refused error refused, refused]
  exact ⟨leaf.orders, consumes_nothing standing owner active, (List.append_nil _).symm⟩

end ReferenceBook

open ReferenceBook in
def referenceLeafLaws : LeafLaws referenceUpstream where
  orders leaf := leaf.orders
  new_orders _ := rfl
  arm_orders _ := rfl
  byUser leaf owner id := by
    change id ∈ (leaf.orders.filter fun order => order.owner = owner).map BookOrder.id ↔ _
    simp only [List.mem_map, List.mem_filter, decide_eq_true_eq]
    constructor
    · rintro ⟨order, ⟨member, owned⟩, same⟩
      exact ⟨order, member, same, owned⟩
    · rintro ⟨order, member, same, owned⟩
      exact ⟨order, ⟨member, owned⟩, same⟩
  cancelled leaf id hit := by
    refine ⟨?_, rfl⟩
    have present := Except.ok.inj hit
    obtain ⟨order, member, same⟩ := List.any_eq_true.1 present
    exact List.mem_map.2 ⟨order, member, of_decide_eq_true same⟩
  uncancelled leaf id missed := by
    refine List.filter_eq_self.2 fun order member => ?_
    rw [decide_eq_true_eq]
    intro same
    refine missed (congrArg Except.ok (List.any_eq_true.2 ⟨order, member, ?_⟩))
    exact decide_eq_true same
  evicted leaf now ids done := by
    obtain rfl := Except.ok.inj done
    refine ⟨fun id listed => ?_, rfl⟩
    obtain ⟨order, expired, rfl⟩ := List.mem_map.1 listed
    exact List.mem_map_of_mem (List.mem_filter.1 expired).1
  unevicted leaf now error failed := by cases failed
  added leaf order standing _ := by
    by_cases active : leaf.status = .active
    · cases within : withinSpecs leaf.settings.specs order.price order.quantity with
      | false =>
        exact consumes_refused "order violates the specs" standing (by simp [addLimitOrder, active, within]) _ _
      | true =>
        refine ⟨ordersAfter leaf.orders (takenByLimit leaf.orders order), ?_, ?_⟩
        · rw [heardTrades_addMatch active within]
          exact consumes_taken standing (taken_takenByLimit standing.distinct order) _ _
        · rw [heardTrades_addMatch active within, joining_restsWith]
          have view := @viewOf_addLimitOrder { leaf with slot := none } order active within
          have result := (@addLimitOrder_eq { leaf with slot := none } order active within).1
          have orders := congrArg LeafView.orders view
          refine orders.trans ?_
          have accepted := congrArg Except.isOk result
          rw [isOk_map] at accepted
          simp only [limitEffect]
          rw [← accepted]
          rfl
    · exact consumes_refused "instrument is not active" standing (by simp [addLimitOrder, active]) _ _
  submitted leaf id quantity side owner standing _ := by
    have view := viewOf_matched { leaf with slot := none } (walk quantity (makers side none leaf.orders))
    have orders := congrArg LeafView.orders view
    change Consumes leaf.orders owner _ (matchResult _) _
    rw [show (referenceUpstream.submitMarketOrder (referenceUpstream.armTradeCapture leaf) id quantity side owner).2.orders =
      _ from orders]
    exact consumes_taken standing (taken_walk standing.distinct quantity side none) _ _
  wraps matched trade made := by
    obtain rfl := Except.ok.inj made
    rfl

end Fauxchange.Exchange
