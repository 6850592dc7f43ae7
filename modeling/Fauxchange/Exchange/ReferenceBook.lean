import Fauxchange.Exchange.Executor

/-! A price-time priority book without self-trade prevention, as an instance of the upstream seam on which
the venue can be run. -/

namespace Fauxchange.Exchange
open Lib

namespace ReferenceBook

/-- A leaf: its orders stand in the order of their arrival. -/
structure Leaf where
  settings : BookConfig
  status : InstrumentStatus
  orders : List BookOrder
  slot : Option TradeResult
  trades : Nat

/-- Whether a taker of a side and limit reaches a resting order. -/
def reaches (side : Side) (limit : Option Nat) (order : BookOrder) : Bool :=
  match side, order.side with
  | .buy, .sell => limit.all (order.price ≤ ·)
  | .sell, .buy => limit.all (· ≤ order.price)
  | _, _ => false

/-- The makers a taker reaches, best price first and then by arrival. -/
def makers (side : Side) (limit : Option Nat) (orders : List BookOrder) : List BookOrder :=
  let reached := orders.filter (reaches side limit)
  match side with
  | .buy => sortByKey BookOrder.price reached
  | .sell => sortByKey (fun order => OrderDual.toDual order.price) reached

/-- How much a taker takes from each maker in turn. -/
def walk : Nat → List BookOrder → List (BookOrder × Nat)
  | _, [] => []
  | quantity, maker :: rest =>
    if quantity = 0 then []
    else (maker, min quantity maker.visibleQuantity) :: walk (quantity - maker.visibleQuantity) rest

/-- What is taken from the order with an id. -/
def takenFrom (taken : List (BookOrder × Nat)) (id : Nat) : Nat :=
  ((taken.find? fun entry => entry.1.id = id).map (·.2)).getD 0

def reduce (taken : List (BookOrder × Nat)) (order : BookOrder) : Option BookOrder :=
  if takenFrom taken order.id < order.visibleQuantity then
    some { order with visibleQuantity := order.visibleQuantity - takenFrom taken order.id }
  else none

def matchResult (taken : List (BookOrder × Nat)) : MatchResult where
  trades := taken.map fun entry => ⟨entry.1.id, entry.1.side, if entry.1.side = .buy then .sell else .buy,
    entry.1.price, entry.2⟩
  filledOrderIds := (taken.filter fun entry => entry.2 = entry.1.visibleQuantity).map (·.1.id)

def filledQuantity (taken : List (BookOrder × Nat)) : Nat := (taken.map (·.2)).sum

/-- What the taker of a limit order takes; a fill-or-kill that cannot fill takes nothing. -/
def takenByLimit (orders : List BookOrder) (order : LimitOrder) : List (BookOrder × Nat) :=
  let taken := walk order.quantity (makers order.side (some order.price) orders)
  if order.timeInForce = .fok ∧ filledQuantity taken < order.quantity then [] else taken

def limitError (order : LimitOrder) (taken : List (BookOrder × Nat)) : Option String :=
  if order.quantity = 0 then some "quantity must be positive"
  else if !tifRests order.timeInForce ∧ filledQuantity taken < order.quantity then some "insufficient liquidity"
  else none

/-- A finished match in the leaf: the makers reduced, the trade in the capture slot. -/
def Leaf.matched (leaf : Leaf) (taken : List (BookOrder × Nat)) : Leaf :=
  if taken = [] then leaf
  else
    { leaf with
      orders := leaf.orders.filterMap (reduce taken)
      slot := some ⟨matchResult taken, leaf.trades + 1⟩
      trades := leaf.trades + 1 }

def Leaf.rest (leaf : Leaf) (order : LimitOrder) (remaining : Nat) : Leaf :=
  if 0 < remaining then
    { leaf with
      orders := leaf.orders ++ [⟨order.id, order.side, order.price, remaining, order.timeInForce, order.owner⟩] }
  else leaf

def addLimitOrder (leaf : Leaf) (order : LimitOrder) : Except String TradeResult × Leaf :=
  if leaf.status ≠ .active then (.error "instrument is not active", leaf)
  else if !withinSpecs leaf.settings.specs order.price order.quantity then (.error "order violates the specs", leaf)
  else
    let taken := takenByLimit leaf.orders order
    let after := leaf.matched taken
    match limitError order taken with
    | some error => (.error error, after)
    | none =>
      (.ok ⟨matchResult taken, leaf.trades + 1⟩,
        if tifRests order.timeInForce then after.rest order (order.quantity - filledQuantity taken) else after)

def submitMarketOrder (leaf : Leaf) (quantity : Nat) (side : Side) : Except String MatchResult × Leaf :=
  let taken := walk quantity (makers side none leaf.orders)
  (.ok (matchResult taken), leaf.matched taken)

def cancelOrder (leaf : Leaf) (id : Nat) : Except String Bool × Leaf :=
  (.ok (leaf.orders.any fun order => order.id = id),
    { leaf with orders := leaf.orders.filter fun order => order.id ≠ id })

def expired (nowMs : Nat) (order : BookOrder) : Bool :=
  match order.timeInForce with
  | .gtd deadline => deadline ≤ nowMs
  | _ => false

def expiredIds (nowMs : Nat) (orders : List BookOrder) : List Nat := (orders.filter (expired nowMs)).map (·.id)

def evictExpiredOrders (leaf : Leaf) (nowMs : Nat) : Except String (List Nat) × Leaf :=
  (.ok (expiredIds nowMs leaf.orders),
    { leaf with orders := leaf.orders.filter fun order => order.id ∉ expiredIds nowMs leaf.orders })

def depth (side : Side) (orders : List BookOrder) : Except String Nat :=
  let total := ((orders.filter fun order => order.side = side).map (·.visibleQuantity)).sum
  if u64Max < total then .error "depth overflows" else .ok total

/-- The lifecycle of an instrument: settling and expired are left only forwards. -/
def canTransition : InstrumentStatus → InstrumentStatus → Bool
  | .pending, .active | .active, .halted | .active, .settling | .active, .expired | .halted, .active
  | .halted, .settling | .halted, .expired | .settling, .expired => true
  | source, target => source = target

def setStatus (leaf : Leaf) (status : InstrumentStatus) : Except String Unit × Leaf :=
  if canTransition leaf.status status then (.ok (), { leaf with status := status })
  else (.error "illegal transition", leaf)

def displayStatus : InstrumentStatus → String
  | .pending => "Pending"
  | .active => "Active"
  | .halted => "Halted"
  | .settling => "Settling"
  | .expired => "Expired"

/-- The grammar, for the listed contracts of one expiry. -/
def parse : String → Except String ParsedSymbol
  | "BTC-20351231-50000-C" => .ok ⟨"BTC", "20351231", 50000, .call⟩
  | "BTC-20351231-50000-P" => .ok ⟨"BTC", "20351231", 50000, .put⟩
  | _ => .error "unlisted symbol"

def toSymbol (parsed : ParsedSymbol) : String :=
  parsed.underlying ++ "-" ++ parsed.expirationStr ++ "-" ++ toString parsed.strike ++
    match parsed.optionStyle with
    | .call => "-C"
    | .put => "-P"

def calculateFee (schedule : FeeSchedule) (notional : Nat) (isMaker : Bool) : Except String Int :=
  .ok ((notional : Int) * (if isMaker then schedule.makerFeeBps else schedule.takerFeeBps) / 10000)

end ReferenceBook

open ReferenceBook in
/-- The reference book behind the upstream seam. -/
def referenceUpstream : Upstream where
  Leaf := ReferenceBook.Leaf
  new settings := ⟨settings, .active, [], none, 0⟩
  stpMode leaf := leaf.settings.stpMode
  feeSchedule leaf := leaf.settings.feeSchedule
  armTradeCapture leaf := { leaf with slot := none }
  lastTradeResult leaf := leaf.slot
  ordersByUser leaf owner := (leaf.orders.filter fun order => order.owner = owner).map (·.id)
  getOrder leaf id := leaf.orders.find? fun order => order.id = id
  totalBidDepth leaf := depth .buy leaf.orders
  totalAskDepth leaf := depth .sell leaf.orders
  addLimitOrder := addLimitOrder
  submitMarketOrder leaf _ quantity side _ := submitMarketOrder leaf quantity side
  tradeResultNew matched := .ok ⟨matched, 0⟩
  cancelOrder := cancelOrder
  evictExpiredOrders := evictExpiredOrders
  status leaf := leaf.status
  setStatus := setStatus
  parse := parse
  toSymbol := toSymbol
  formatExpirationYyyymmdd _ := .ok "20351231"
  calculateFee := calculateFee
  canTransition := canTransition
  isAcceptingOrders status := status = .active
  displayStatus := displayStatus
  displayOrderId id := toString id

/-- The reference book with a second underlying in its grammar. -/
def pairUpstream : Upstream :=
  { referenceUpstream with
    parse := fun symbol =>
      if symbol = "ETH-20351231-3000-C" then .ok ⟨"ETH", "20351231", 3000, .call⟩ else ReferenceBook.parse symbol }

end Fauxchange.Exchange
