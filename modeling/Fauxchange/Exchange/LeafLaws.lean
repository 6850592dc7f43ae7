import Fauxchange.Exchange.TradeLegs

/-! What the venue relies on in a leaf whatever its self-trade prevention does: which resting orders a call removes,
and what it reports of them. -/

namespace Fauxchange.Exchange
open Lib

/-- What a maker gives in a match. -/
def MatchResult.takenFrom (matched : MatchResult) (id : Nat) : Nat :=
  ((matched.trades.filter fun trade => trade.makerOrderId = id).map Trade.quantity).sum

/-- What a match takes in all. -/
def MatchResult.taken (matched : MatchResult) : Nat := (matched.trades.map Trade.quantity).sum

/-- The ids of resting orders. -/
def idsOf (orders : List BookOrder) : List Nat := orders.map BookOrder.id

/-- Resting orders have different ids, and each has a quantity left. -/
structure Standing (orders : List BookOrder) : Prop where
  distinct : (idsOf orders).Nodup
  open' : ∀ order ∈ orders, 0 < order.visibleQuantity

theorem Standing.unique {orders : List BookOrder} (standing : Standing orders) {left right : BookOrder}
    (first : left ∈ orders) (second : right ∈ orders) (same : left.id = right.id) : left = right :=
  List.inj_on_of_nodup_map standing.distinct first second same

/-- What a matching call does to the resting orders: makers are reduced or used up, and self-trade prevention may
cancel orders of the incoming owner. -/
structure Consumes (before : List BookOrder) (owner : Hash32) (active : Bool) (matched : MatchResult)
    (kept : List BookOrder) : Prop where
  place : (idsOf kept).Sublist (idsOf before)
  left : ∀ order ∈ kept, 0 < order.visibleQuantity ∧ ∃ old ∈ before,
    order = { old with visibleQuantity := order.visibleQuantity } ∧
      order.visibleQuantity + matched.takenFrom old.id = old.visibleQuantity
  /-- The match reports exactly the makers that it has used up. -/
  filled : ∀ id ∈ matched.filledOrderIds, id ∉ idsOf kept ∧
    ∃ old ∈ before, old.id = id ∧ matched.takenFrom id = old.visibleQuantity
  /-- What is gone without being used up belonged to the incoming owner, and the prevention is on. -/
  gone : ∀ old ∈ before, old.id ∉ idsOf kept → old.id ∉ matched.filledOrderIds → active = true ∧ old.owner = owner
  makers : ∀ trade ∈ matched.trades, trade.makerOrderId ∈ idsOf before

/-- The trades that the venue hears of, none where no match is heard. -/
def heardTrades (made : Option MadeMatch) : MatchResult := (made.map MadeMatch.matched).getD ⟨[], []⟩

section Calls
variable {U : Upstream}

/-- What is left of a limit order once its call has returned, where it rests. -/
def restsWith (order : LimitOrder) (accepted : Bool) (matched : MatchResult) : Nat :=
  if accepted && tifRests order.timeInForce then order.quantity - matched.taken else 0

/-- The order that joins the book, if anything of it is left. -/
def joining (order : LimitOrder) (left : Nat) : List BookOrder := if 0 < left then [order.resting left] else []

end Calls

/-- The documented behaviour of the upstream leaf under every self-trade prevention. -/
structure LeafLaws (U : Upstream) where
  orders : U.Leaf → List BookOrder
  new_orders : ∀ settings, orders (U.new settings) = []
  arm_orders : ∀ leaf, orders (U.armTradeCapture leaf) = orders leaf
  byUser : ∀ leaf owner id, id ∈ U.ordersByUser leaf owner ↔ ∃ order ∈ orders leaf, order.id = id ∧ order.owner = owner
  /-- A cancel returns true exactly when it removes the order. -/
  cancelled : ∀ leaf id, (U.cancelOrder leaf id).1 = .ok true →
    id ∈ idsOf (orders leaf) ∧ orders (U.cancelOrder leaf id).2 = (orders leaf).filter fun order => order.id ≠ id
  uncancelled : ∀ leaf id, (U.cancelOrder leaf id).1 ≠ .ok true → orders (U.cancelOrder leaf id).2 = orders leaf
  /-- An expiry sweep returns exactly the ids it removes; a refused one removes nothing. -/
  evicted : ∀ leaf now ids, (U.evictExpiredOrders leaf now).1 = .ok ids → (∀ id ∈ ids, id ∈ idsOf (orders leaf)) ∧
    orders (U.evictExpiredOrders leaf now).2 = (orders leaf).filter fun order => order.id ∉ ids
  unevicted : ∀ leaf now error, (U.evictExpiredOrders leaf now).1 = .error error →
    orders (U.evictExpiredOrders leaf now).2 = orders leaf
  /-- A limit order is matched, the armed listener hears of a match whose call fails, and what is left of an accepted
  order that may rest joins the book. -/
  added : ∀ leaf (order : LimitOrder), Standing (orders leaf) → order.id ∉ idsOf (orders leaf) →
    let armed := U.armTradeCapture leaf
    let call := U.addLimitOrder armed order
    let matched := heardTrades (addMatch leaf order)
    ∃ kept, Consumes (orders leaf) order.owner (stpActive armed) matched kept ∧
      orders call.2 = kept ++ joining order (restsWith order call.1.isOk matched)
  /-- A market order is matched and never rests. -/
  submitted : ∀ leaf id quantity side owner, Standing (orders leaf) → id ∉ idsOf (orders leaf) →
    let armed := U.armTradeCapture leaf
    Consumes (orders leaf) owner (stpActive armed) (heardTrades (submitMatch leaf id quantity side owner))
      (orders (U.submitMarketOrder armed id quantity side owner).2)
  wraps : ∀ matched trade, U.tradeResultNew matched = .ok trade → trade.matchResult = matched

end Fauxchange.Exchange
