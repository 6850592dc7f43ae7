import Fauxchange.Exchange.Stores

/-! The market-data service: for each instrument an aggregate of its price levels, re-derived from the committed
events, and the venue-wide broadcast of deltas and prints. The ring of the broadcast is an unbounded log here: what
a lagging consumer loses is not part of the service. -/

namespace Fauxchange.MarketData
open Lib Exchange

inductive BookSide where
  | bid
  | ask
  deriving DecidableEq, Repr

/-- `Bid` sorts before `Ask`. -/
def BookSide.isAsk : BookSide → Bool
  | .bid => false
  | .ask => true

def BookSide.ofIsAsk : Bool → BookSide
  | false => .bid
  | true => .ask

@[simp] theorem BookSide.ofIsAsk_isAsk (side : BookSide) : BookSide.ofIsAsk side.isAsk = side := by
  cases side <;> rfl

def bookSide : Side → BookSide
  | .buy => .bid
  | .sell => .ask

structure PriceLevelData where
  price : Nat
  quantity : Nat
  deriving DecidableEq, Repr

/-- A level after a change; a quantity of zero is a level that is gone. -/
structure PriceLevelChange where
  side : BookSide
  price : Nat
  quantity : Nat
  deriving DecidableEq, Repr

inductive WsMessage where
  | orderbookSnapshot (symbol : Symbol) (sequence : Nat) (bids asks : List PriceLevelData)
  | orderbookDelta (symbol : Symbol) (sequence : Nat) (changes : List PriceLevelChange)
  | fill (executionId : ExecutionId) (underlyingSequence venueTs : Nat) (liquidity : LiquidityFlag)
      (symbol : String) (instrument : Symbol) (side : Side) (quantity price : Nat) (edge : Int)
  | trade (tradeId : String) (symbol : Symbol) (price quantity timestamp : Nat)
      (makerOrderId takerOrderId : VenueOrderId)
  | price (symbol : String) (priceCents : Nat)
  deriving DecidableEq, Repr

/-- One resting order as the aggregate tracks it. -/
structure RestingOrder where
  side : BookSide
  price : Nat
  remaining : Nat
  deriving DecidableEq, Repr

/-- The price levels of both sides, each with its total resting quantity. -/
structure Levels where
  bids : Std.ExtTreeMap Nat Nat
  asks : Std.ExtTreeMap Nat Nat

namespace Levels

def empty : Levels := ⟨∅, ∅⟩

def level (levels : Levels) : BookSide → Std.ExtTreeMap Nat Nat
  | .bid => levels.bids
  | .ask => levels.asks

def setLevel (levels : Levels) (side : BookSide) (level : Std.ExtTreeMap Nat Nat) : Levels :=
  match side with
  | .bid => { levels with bids := level }
  | .ask => { levels with asks := level }

def qtyAt (levels : Levels) (side : BookSide) (price : Nat) : Nat := (levels.level side)[price]?.getD 0

@[simp] theorem level_setLevel_self (levels : Levels) (side : BookSide) (level : Std.ExtTreeMap Nat Nat) :
    (levels.setLevel side level).level side = level := by
  cases side <;> rfl

theorem level_setLevel_of_ne (levels : Levels) {side other : BookSide} (apart : other ≠ side)
    (level : Std.ExtTreeMap Nat Nat) : (levels.setLevel side level).level other = levels.level other := by
  cases side <;> cases other <;> first | rfl | exact absurd rfl apart

theorem ext_level {levels other : Levels} (same : ∀ side, levels.level side = other.level side) :
    levels = other := by
  cases levels
  cases other
  obtain rfl := same .bid
  obtain rfl := same .ask
  rfl

def levelData (level : List (Nat × Nat)) : List PriceLevelData := level.map fun entry => ⟨entry.1, entry.2⟩

def truncated (depth : Option Nat) (level : List PriceLevelData) : List PriceLevelData :=
  match depth with
  | some depth => level.take depth
  | none => level

/-- Both sides best first. -/
def snapshot (levels : Levels) (symbol : Symbol) (sequence : Nat) (depth : Option Nat) : WsMessage :=
  .orderbookSnapshot symbol sequence (truncated depth (levelData levels.bids.toList.reverse))
    (truncated depth (levelData levels.asks.toList))

end Levels

structure InstrumentState where
  sequence : Nat
  levels : Levels
  orders : Std.ExtTreeMap VenueOrderId RestingOrder

def InstrumentState.new : InstrumentState := ⟨0, .empty, ∅⟩

/-- The levels an event has touched, in the order in which they are reported. -/
abbrev Touched := PairMap Bool Nat Unit

/-- An aggregate in the course of one event. -/
structure Applying where
  state : InstrumentState
  touched : Touched

namespace Applying

def touch (now : Applying) (side : BookSide) (price : Nat) : Touched := now.touched.insert (side.isAsk, price) ()

/-- Write one side's levels and remember the price. -/
def write (now : Applying) (side : BookSide) (price : Nat) (level : Std.ExtTreeMap Nat Nat) : Applying :=
  ⟨{ now.state with levels := now.state.levels.setLevel side level }, now.touch side price⟩

def setOrders (now : Applying) (orders : Std.ExtTreeMap VenueOrderId RestingOrder) : Applying :=
  { now with state := { now.state with orders := orders } }

/-- An overflowing level clamps. -/
def restOrder (now : Applying) (id : VenueOrderId) (side : BookSide) (price qty : Nat) : Applying :=
  if qty = 0 then now
  else
    let total := now.state.levels.qtyAt side price + qty
    (now.setOrders (now.state.orders.insert id ⟨side, price, qty⟩)).write side price
      ((now.state.levels.level side).insert price (if total ≤ u64Max then total else u64Max))

/-- A level that reaches zero is removed; one that is absent is only touched. -/
def reduceLevel (now : Applying) (side : BookSide) (price amount : Nat) : Applying :=
  now.write side price
    (match (now.state.levels.level side)[price]? with
      | none => now.state.levels.level side
      | some qty =>
        if qty - amount = 0 then (now.state.levels.level side).erase price
        else (now.state.levels.level side).insert price (qty - amount))

/-- A fill takes from a resting maker. -/
def reduceOrder (now : Applying) (id : VenueOrderId) (qty : Nat) : Applying :=
  match now.state.orders[id]? with
  | none => now
  | some order =>
    let remaining := order.remaining - min qty order.remaining
    let orders := if remaining = 0 then now.state.orders.erase id
      else now.state.orders.insert id { order with remaining := remaining }
    (now.setOrders orders).reduceLevel order.side order.price (min qty order.remaining)

def removeOrder (now : Applying) (id : VenueOrderId) : Applying :=
  match now.state.orders[id]? with
  | none => now
  | some order =>
    (now.setOrders (now.state.orders.erase id)).reduceLevel order.side order.price order.remaining

def removeOrders (now : Applying) (ids : List VenueOrderId) : Applying := ids.foldl removeOrder now

def consumeMakerFills (now : Applying) (fills : List Fill) : Applying :=
  fills.foldl (fun now fill =>
    if fill.liquidity = .maker then now.reduceOrder fill.orderId fill.quantity else now) now

/-- What a match and the self-trade prevention around it remove. -/
def consume (now : Applying) (fills : List Fill) (stpCancelled : List CancelledLeg) : Applying :=
  (now.consumeMakerFills fills).removeOrders (stpCancelled.map CancelledLeg.orderId)

def restAdded (now : Applying) (command : VenueCommand) (restingQuantity : Nat) : Applying :=
  match command with
  | .addOrder order =>
    match order.limitPrice with
    | some price => now.restOrder order.orderId (bookSide order.side) price restingQuantity
    | none => now
  | _ => now

def restReplacement (now : Applying) (command : VenueCommand) (restingQuantity : Nat) : Applying :=
  match command with
  | .replace order =>
    match order.limitPrice with
    | some price => now.restOrder order.newOrderId (bookSide order.side) price restingQuantity
    | none => now
  | _ => now

def removeReplaced (now : Applying) (command : VenueCommand) (cancelled : Bool) : Applying :=
  match command with
  | .replace order => if cancelled then now.removeOrder order.orderId else now
  | _ => now

/-- The book effect of a committed outcome. -/
def outcome (now : Applying) (command : VenueCommand) : VenueOutcome → Applying
  | .added fills restingQuantity stpCancelled =>
    let now := now.consume fills stpCancelled
    if 0 < restingQuantity then now.restAdded command restingQuantity else now
  | .market fills _ stpCancelled => now.consume fills stpCancelled
  | .cancelled orderId => now.removeOrder orderId
  | .replace cancelled add =>
    let now := now.removeReplaced command cancelled
    match add with
    | .filled fills stpCancelled => now.consume fills stpCancelled
    | .rested fills restingQuantity stpCancelled =>
      let now := now.consume fills stpCancelled
      if 0 < restingQuantity then now.restReplacement command restingQuantity else now
    | .rejected .. => now
  | .massCancelled affected => now.removeOrders (affected.map CancelledLeg.orderId)
  | .controlApplied swept => now.removeOrders (swept.map CancelledLeg.orderId)
  | .evicted evicted => now.removeOrders evicted
  | .instrumentStatusChanged .. | .rejected .. | .duplicate .. => now

/-- The touched levels with the quantities they end at. -/
def changes (now : Applying) : List PriceLevelChange :=
  now.touched.keys.map fun key =>
    ⟨.ofIsAsk key.1, key.2, now.state.levels.qtyAt (.ofIsAsk key.1) key.2⟩

end Applying

namespace InstrumentState

def applying (state : InstrumentState) (command : VenueCommand) (outcome : VenueOutcome) : Applying :=
  Applying.outcome ⟨state, ∅⟩ command outcome

def apply (state : InstrumentState) (command : VenueCommand) (outcome : VenueOutcome) :
    List PriceLevelChange × InstrumentState :=
  let now := state.applying command outcome
  (now.changes, now.state)

def snapshot (state : InstrumentState) (symbol : Symbol) (depth : Option Nat) : WsMessage :=
  state.levels.snapshot symbol state.sequence depth

end InstrumentState

def marketMakerAccount : AccountId := "@market-maker"

def isMarketMakerAccount (account : AccountId) : Bool := account = marketMakerAccount

def isMarketMakerCommand : VenueCommand → Bool
  | .addOrder order => isMarketMakerAccount order.account
  | .cancelOrder _ _ account => isMarketMakerAccount account
  | .replace order => isMarketMakerAccount order.account
  | _ => false

/-- The single contract a command targets, if it has one. -/
def commandSymbol : VenueCommand → Option Symbol
  | .addOrder order => some order.symbol
  | .cancelOrder symbol .. => some symbol
  | .replace order => some order.symbol
  | .setInstrumentStatus symbol _ => some symbol
  | .massCancel (.book symbol) .. => some symbol
  | _ => none

/-- One print for each execution whose two legs are there. -/
def pairTrades (fills : List Fill) (symbol : Symbol) (venueTs : Nat) : List WsMessage :=
  (fills.map Fill.executionId).eraseDups.filterMap fun executionId =>
    let legs := fills.filter fun fill => fill.executionId = executionId
    let order := fun liquidity => ((legs.filter fun fill => fill.liquidity = liquidity).getLast?).map Fill.orderId
    match legs.getLast?, order .maker, order .taker with
    | some last, some maker, some taker =>
      some (.trade executionId symbol last.price last.quantity venueTs maker taker)
    | _, _, _ => none

/-- The anonymised print of one leg. -/
def fillPrint (event : VenueEvent) (underlying : String) (symbol : Symbol) (fill : Fill) : WsMessage :=
  .fill fill.executionId event.underlyingSequence event.venueTs fill.liquidity underlying symbol fill.side
    fill.quantity fill.price 0

def fillsAndTrades (U : Upstream) (event : VenueEvent) (symbol : Symbol) : List WsMessage :=
  if (outcomeFills event.outcome).isEmpty then []
  else
    match underlyingOf U symbol with
    | none => []
    | some underlying =>
      (outcomeFills event.outcome).map (fillPrint event underlying symbol) ++
        pairTrades (outcomeFills event.outcome) symbol event.venueTs

def pricePrint (event : VenueEvent) : List WsMessage :=
  match event.command, event.outcome with
  | .simStep .., .rejected .. => []
  | .simStep _ underlying price .., _ => [.price underlying price]
  | _, _ => []

structure OrderbookSubscriptionManager where
  instruments : Std.ExtTreeMap Symbol InstrumentState

namespace OrderbookSubscriptionManager

def new : OrderbookSubscriptionManager := ⟨∅⟩

def instrument (manager : OrderbookSubscriptionManager) (symbol : Symbol) : InstrumentState :=
  manager.instruments[symbol]?.getD .new

/-- The snapshot of an instrument without a committed mutation is empty at sequence zero. -/
def orderbookSnapshot (manager : OrderbookSubscriptionManager) (symbol : Symbol) (depth : Option Nat) : WsMessage :=
  (manager.instrument symbol).snapshot symbol depth

/-- The part under the instrument's guard: the fold, and the delta with the sequence it is given. A requote of the
market maker is folded and not published. -/
def fold (manager : OrderbookSubscriptionManager) (symbol : Symbol) (event : VenueEvent) :
    Option (Nat × List PriceLevelChange) × OrderbookSubscriptionManager :=
  let applied := (manager.instrument symbol).apply event.command event.outcome
  if applied.1.isEmpty || isMarketMakerCommand event.command then
    (none, ⟨manager.instruments.insert symbol applied.2⟩)
  else
    let next := if applied.2.sequence < u64Max then applied.2.sequence + 1 else u64Max
    (some (next, applied.1), ⟨manager.instruments.insert symbol { applied.2 with sequence := next }⟩)

/-- The messages of one committed event, in the order in which they are sent once the guard is released, and the
manager after it. -/
def onCommittedEvent (U : Upstream) (manager : OrderbookSubscriptionManager) (event : VenueEvent) :
    List WsMessage × OrderbookSubscriptionManager :=
  match commandSymbol event.command with
  | none => (pricePrint event, manager)
  | some symbol =>
    let (delta, manager) := manager.fold symbol event
    (delta.toList.map (fun delta => .orderbookDelta symbol delta.1 delta.2) ++ fillsAndTrades U event symbol, manager)

end OrderbookSubscriptionManager

end Fauxchange.MarketData
