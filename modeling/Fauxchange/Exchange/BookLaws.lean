import Fauxchange.Exchange.Executor

/-! What the venue relies on in the upstream book: a leaf shows its orders in the order of arrival, and
everything it does without self-trade prevention is determined by them. -/

namespace Fauxchange.Exchange
open Lib

/-- What a leaf shows. The orders stand in the order of their arrival. -/
structure LeafView where
  settings : BookConfig
  status : InstrumentStatus
  orders : List BookOrder

/-- What one call to a leaf comes to: its answer, the trade the armed listener holds when it failed, and the
orders after it. -/
structure Effect where
  result : Except String MatchResult
  traded : Option MatchResult
  orders : List BookOrder

namespace Effect

/-- A call that is turned down without a trade. -/
def refused (error : String) (orders : List BookOrder) : Effect := ⟨.error error, none, orders⟩

/-- The trades of a call, whether it succeeded or not. -/
def matched (effect : Effect) : MatchResult :=
  match effect.result with
  | .ok matched => matched
  | .error _ => effect.traded.getD ⟨[], []⟩

end Effect

/-- A bid at or above an offer. -/
def Crosses (left right : BookOrder) : Prop :=
  left.side = .buy ∧ right.side = .sell ∧ right.price ≤ left.price ∨
    left.side = .sell ∧ right.side = .buy ∧ left.price ≤ right.price

theorem Crosses.symm {left right : BookOrder} (crosses : Crosses left right) : Crosses right left := by
  rcases crosses with ⟨bid, offer, reach⟩ | ⟨offer, bid, reach⟩
  · exact Or.inr ⟨offer, bid, reach⟩
  · exact Or.inl ⟨bid, offer, reach⟩

/-- The order as it would rest with a remaining quantity. -/
def LimitOrder.resting (order : LimitOrder) (remaining : Nat) : BookOrder :=
  ⟨order.id, order.side, order.price, remaining, order.timeInForce, order.owner⟩

/-- The orders of a leaf: in the order of their ids, all below a bound, each with a quantity left, of a time in
force that rests, within 64 bits, and none crossing another. -/
structure Shaped (bound : Nat) (orders : List BookOrder) : Prop where
  sorted : orders.Pairwise fun left right => left.id < right.id
  below : ∀ order ∈ orders, order.id < bound
  open' : ∀ order ∈ orders, 0 < order.visibleQuantity ∧ order.visibleQuantity ≤ u64Max
  priced : ∀ order ∈ orders, order.price ≤ u64Max
  rests : ∀ order ∈ orders, tifRests order.timeInForce = true
  uncrossed : ∀ left ∈ orders, ∀ right ∈ orders, ¬ Crosses left right

theorem Shaped.nodup_ids {bound : Nat} {orders : List BookOrder} (shaped : Shaped bound orders) :
    (orders.map BookOrder.id).Nodup :=
  List.nodup_iff_pairwise_ne.2 (List.pairwise_map.2 (shaped.sorted.imp Nat.ne_of_lt))

/-- What a match does to the resting orders: some are used up, some keep a smaller quantity, all in place. -/
structure Matches (before : List BookOrder) (quantity : Nat) (matched : MatchResult) (kept : List BookOrder) :
    Prop where
  place : (kept.map BookOrder.id).Sublist (before.map BookOrder.id)
  origin : ∀ order ∈ kept, 0 < order.visibleQuantity ∧ ∃ old ∈ before,
    order.visibleQuantity ≤ old.visibleQuantity ∧ order = { old with visibleQuantity := order.visibleQuantity }
  consumed : ∀ order ∈ before, order.id ∈ matched.filledOrderIds ↔ order.id ∉ kept.map BookOrder.id
  filled : ∀ id ∈ matched.filledOrderIds, id ∈ before.map BookOrder.id
  total : (matched.trades.map Trade.quantity).sum ≤ quantity
  few : matched.trades.length ≤ before.length
  priced : ∀ trade ∈ matched.trades, ∃ order ∈ before, order.price = trade.price

/-- What is left of a limit order after a match, where it rests. -/
def remainder (order : LimitOrder) (effect : Effect) : List BookOrder :=
  let remaining := order.quantity - (effect.matched.trades.map Trade.quantity).sum
  if effect.result.isOk ∧ tifRests order.timeInForce ∧ 0 < remaining then [order.resting remaining] else []

/-- A limit order is matched against the resting orders, and what is left of it joins them at the end unless it
crosses one. -/
def LimitSound (orders : List BookOrder) (order : LimitOrder) (effect : Effect) : Prop :=
  ∃ kept, Matches orders order.quantity effect.matched kept ∧ effect.orders = kept ++ remainder order effect ∧
    ∀ rest ∈ remainder order effect, ∀ old ∈ kept, ¬ Crosses rest old

section Calls
variable {U : Upstream}

/-- A call to a leaf shows an effect. -/
structure Shows (view : U.Leaf → LeafView) (leaf : U.Leaf) (result : Except String MatchResult) (after : U.Leaf)
    (effect : Effect) : Prop where
  result : result = effect.result
  after : view after = { view leaf with orders := effect.orders }

/-- A call to an armed leaf shows an effect, and the listener has heard its trades. -/
structure ArmedShows (view : U.Leaf → LeafView) (leaf : U.Leaf) (call : Except String MatchResult × U.Leaf)
    (effect : Effect) : Prop extends Shows view leaf call.1 call.2 effect where
  heard : (slotTradeAfter call.2 (lastTradeSeq (U.armTradeCapture leaf))).map TradeResult.matchResult = effect.traded

/-- The matches of a limit add. -/
def addCall (U : Upstream) (leaf : U.Leaf) (order : LimitOrder) : Except String MatchResult × U.Leaf :=
  ((U.addLimitOrder leaf order).1.map TradeResult.matchResult, (U.addLimitOrder leaf order).2)

end Calls

/-- The documented behaviour of the upstream book: price-time priority over the orders it shows. -/
structure BookLaws (U : Upstream) where
  view : U.Leaf → LeafView
  limit : List BookOrder → LimitOrder → Effect
  market : List BookOrder → Nat → Nat → Side → Hash32 → Effect
  depth : Side → List BookOrder → Except String Nat
  evicted : Nat → List BookOrder → List Nat
  /-- Whether the clock of the book takes an order of this time in force. -/
  unexpired : TimeInForce → Prop
  view_new : ∀ settings, view (U.new settings) = ⟨settings, .active, []⟩
  view_arm : ∀ leaf, view (U.armTradeCapture leaf) = view leaf
  stpMode_eq : ∀ leaf, U.stpMode leaf = (view leaf).settings.stpMode
  feeSchedule_eq : ∀ leaf, U.feeSchedule leaf = (view leaf).settings.feeSchedule
  status_eq : ∀ leaf, U.status leaf = (view leaf).status
  getOrder_eq : ∀ leaf id, U.getOrder leaf id = (view leaf).orders.find? fun order => order.id = id
  bidDepth_eq : ∀ leaf, U.totalBidDepth leaf = depth .buy (view leaf).orders
  askDepth_eq : ∀ leaf, U.totalAskDepth leaf = depth .sell (view leaf).orders
  cancel_result : ∀ leaf id, (U.cancelOrder leaf id).1 = .ok ((view leaf).orders.any fun order => order.id = id)
  cancel_view : ∀ leaf id, view (U.cancelOrder leaf id).2 =
    { view leaf with orders := (view leaf).orders.filter fun order => order.id ≠ id }
  evict_result : ∀ leaf now, (U.evictExpiredOrders leaf now).1 = .ok (evicted now (view leaf).orders)
  evict_view : ∀ leaf now, view (U.evictExpiredOrders leaf now).2 =
    { view leaf with orders := (view leaf).orders.filter fun order => order.id ∉ evicted now (view leaf).orders }
  /-- A status change touches no order. -/
  setStatus_view : ∀ leaf status, (U.setStatus leaf status).1 = .ok () →
    view (U.setStatus leaf status).2 = { view leaf with status := status }
  evicted_of : ∀ now orders, ∀ id ∈ evicted now orders, id ∈ orders.map BookOrder.id
  /-- An active leaf without self-trade prevention matches an order within its specs. -/
  add_shows : ∀ leaf order, (view leaf).status = .active → (view leaf).settings.stpMode = .none →
    withinSpecs (view leaf).settings.specs order.price order.quantity = true →
    Shows view leaf (addCall U leaf order).1 (addCall U leaf order).2 (limit (view leaf).orders order) ∧
      ArmedShows view leaf (addCall U (U.armTradeCapture leaf) order) (limit (view leaf).orders order)
  /-- An order outside the specs is turned down. -/
  add_outside : ∀ leaf order, withinSpecs (view leaf).settings.specs order.price order.quantity = false →
    ∃ error, ArmedShows view leaf (addCall U (U.armTradeCapture leaf) order) (.refused error (view leaf).orders)
  market_shows : ∀ leaf id quantity side owner, (view leaf).settings.stpMode = .none →
    withinSpecs (view leaf).settings.specs 0 quantity = true →
    ArmedShows view leaf (U.submitMarketOrder (U.armTradeCapture leaf) id quantity side owner)
      (market (view leaf).orders id quantity side owner)
  /-- A market order outside the specs is turned down or matched all the same. -/
  market_outside : ∀ leaf id quantity side owner, (view leaf).settings.stpMode = .none →
    withinSpecs (view leaf).settings.specs 0 quantity = false →
    ∃ effect, ArmedShows view leaf (U.submitMarketOrder (U.armTradeCapture leaf) id quantity side owner) effect ∧
      ((∃ error, effect = .refused error (view leaf).orders) ∨
        effect = market (view leaf).orders id quantity side owner)
  limit_sound : ∀ {bound} orders order, Shaped bound orders → bound ≤ order.id →
    LimitSound orders order (limit orders order)
  market_sound : ∀ {bound} orders id quantity side owner, Shaped bound orders → bound ≤ id →
    Matches orders quantity (market orders id quantity side owner).matched
      (market orders id quantity side owner).orders
  /-- An order that crosses nothing rests unchanged. -/
  limit_rests : ∀ {bound} orders order, Shaped bound orders → bound ≤ order.id → 0 < order.quantity →
    tifRests order.timeInForce = true → unexpired order.timeInForce →
    (∀ old ∈ orders, ¬ Crosses (order.resting order.quantity) old) →
    (limit orders order).result = .ok ⟨[], []⟩ ∧
      (limit orders order).orders = orders ++ [order.resting order.quantity]
  tradeResultNew_eq : ∀ matched, ∃ trade, U.tradeResultNew matched = .ok trade ∧ trade.matchResult = matched
  /-- Zero basis points charge nothing. -/
  free_fee : ∀ notional isMaker, U.calculateFee ⟨0, 0⟩ notional isMaker = .ok 0

end Fauxchange.Exchange
