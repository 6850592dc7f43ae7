import Fauxchange.Exchange.Executor
import Fauxchange.Exchange.Stores
import Fauxchange.Fix.Codec
import Fauxchange.Venue.OrderIds

/-! The pure seam between the order messages and the sequenced order path: the commands they become, the
reason codes of their rejects, and the execution reports of an observed outcome. -/

namespace Fauxchange.Fix
open Exchange

/-- The venue's boundary error. -/
inductive VenueError where
  | notFound (detail : String)
  | invalidOrder (detail : String)
  | unauthorized
  | forbidden (permission : Permission)
  | instrumentHalted (detail : String)
  | rateLimited
  | overflow
  | sequenceExhausted
  | journalUnavailable
  | shuttingDown
  | upstream (cause : String)
  deriving DecidableEq, Repr

/-- The errors of the sequenced order path, at the boundary. -/
def VenueError.ofSequenced : Exchange.VenueError → VenueError
  | .sequenceExhausted => .sequenceExhausted
  | .journalUnavailable => .journalUnavailable
  | .invalidOrder detail => .invalidOrder detail
  | .notFound detail => .notFound detail
  | .rateLimited => .rateLimited

inductive FixRejectReason where
  | invalid
  | notFound
  | authorization
  | throttle
  | internal
  deriving DecidableEq, Repr

def Permission.debug : Permission → String
  | .read => "Read"
  | .trade => "Trade"
  | .admin => "Admin"

namespace VenueError

def redactedMessage : VenueError → String
  | notFound detail => "not found: " ++ detail
  | invalidOrder detail => "invalid order: " ++ detail
  | unauthorized => "unauthorized"
  | forbidden permission => "missing permission " ++ permission.debug
  | instrumentHalted detail => "instrument not accepting orders: " ++ detail
  | rateLimited => "rate limited"
  | shuttingDown => "shutting down"
  | overflow | sequenceExhausted | journalUnavailable | upstream _ => redactedInternalMessage

def fixReason : VenueError → FixRejectReason
  | notFound _ => .notFound
  | invalidOrder _ | instrumentHalted _ => .invalid
  | unauthorized | forbidden _ => .authorization
  | rateLimited | shuttingDown => .throttle
  | overflow | sequenceExhausted | journalUnavailable | upstream _ => .internal

/-- Unknown, foreign and gone orders are one reject at the client boundary. -/
def maskedCancelReject (kind : RejectKind) (maskedReason : String) : VenueError :=
  match kind with
  | .notFound | .notOwner | .notResting => notFound maskedReason
  | .instrumentNotActive => instrumentHalted maskedReason
  | .invalidOrder | .notFillable => invalidOrder maskedReason
  | .internal => journalUnavailable

end VenueError

/-- The reason and the redacted text of a reject; the message that carries them is the context's. -/
structure FixReject where
  reason : FixRejectReason
  text : Option String
  deriving DecidableEq, Repr

def VenueError.fixReject (error : VenueError) : FixReject := ⟨error.fixReason, some error.redactedMessage⟩

namespace OrderFlow

def ordRejReasonDuplicate : Nat := 6
def duplicateClOrdIdText : String := "client_order_id reused with a different order"
def cancelRejectMaskedReason : String := "unknown order"
def businessRejectUnsupportedMsgType : Nat := 3

def seamSide : OrderSide → Side
  | .buy => .buy
  | .sell => .sell

def fixSide : Side → OrderSide
  | .buy => .buy
  | .sell => .sell

def liquidityInd : LiquidityFlag → LastLiquidityInd
  | .maker => .maker
  | .taker => .taker

def seamTimeInForce (tif : FixTif) (expireTime : Option UtcTimestamp) : Except VenueError TimeInForce :=
  match tif with
  | .day => .ok .day
  | .gtc => .ok .gtc
  | .ioc => .ok .ioc
  | .fok => .ok .fok
  | .gtd =>
    match expireTime with
    | none => .error (.invalidOrder "GTD order requires ExpireTime (126)")
    | some expire =>
      match expire.toEpochMs with
      | none => .error (.invalidOrder "GTD ExpireTime (126) is before the Unix epoch")
      | some deadline => .ok (.gtd deadline)

/-- Whether an unfilled remainder rests. -/
def tifRests : TimeInForce → Bool
  | .gtc | .gtd _ | .day => true
  | .ioc | .fok => false

/-- The order command that both protocols build. -/
def addOrderCommand (symbol : Symbol) (orderId : VenueOrderId) (account : AccountId) (owner : Hash32)
    (clientOrderId : Option ClientOrderId) (side : Side) (orderType : Exchange.OrderType) (limitPrice : Option Nat)
    (quantity : Nat) (timeInForce : TimeInForce) : VenueCommand :=
  .addOrder { symbol, orderId, account, owner, clientOrderId, side, orderType, limitPrice, quantity, timeInForce,
              stpMode := .none }

/-- A market order is the primitive without a price that does not rest. -/
def toAddCommand (order : NewOrderSingle) (orderId : VenueOrderId) (account : AccountId) (owner : Hash32) :
    Except VenueError VenueCommand := do
  let (orderType, limitPrice, timeInForce) ← match order.ordType with
    | .market => .ok (Exchange.OrderType.market, none, TimeInForce.ioc)
    | .limit => do
      let tif ← seamTimeInForce order.timeInForce order.expireTime
      .ok (Exchange.OrderType.limit, order.price, tif)
  .ok (addOrderCommand order.symbol orderId account owner (some order.clOrdId) (seamSide order.side) orderType
    limitPrice order.orderQty timeInForce)

def toCancelCommand (cancel : OrderCancelRequest) (account : AccountId) (target : VenueOrderId) : VenueCommand :=
  .cancelOrder cancel.symbol target account

/-- A replacement rests until it is cancelled; a market replacement has no price. -/
def toReplaceCommand (replace : OrderCancelReplaceRequest) (account : AccountId) (target newOrderId : VenueOrderId) :
    VenueCommand :=
  .replace {
    symbol := replace.symbol
    orderId := target
    newOrderId := newOrderId
    account := account
    clientOrderId := some replace.clOrdId
    origClientOrderId := some replace.origClOrdId
    side := seamSide replace.side
    limitPrice := match replace.ordType with
      | .limit => replace.price
      | .market => none
    quantity := replace.orderQty
    timeInForce := .gtc
    stpMode := .none }

def ordRejReason : FixRejectReason → Nat
  | .invalid => 11
  | .notFound => 5
  | .authorization => 6
  | .throttle | .internal => 99

def cxlRejReason : FixRejectReason → Nat
  | .notFound => 1
  | .invalid | .authorization | .throttle | .internal => 2

end OrderFlow

/-- An execution report without its header. -/
structure ExecReportSpec where
  orderId : VenueOrderId
  execId : ExecutionId
  execType : ExecType
  ordStatus : OrdStatus
  symbol : Symbol
  side : OrderSide
  leavesQty : Nat
  cumQty : Nat
  lastQty : Option Nat
  lastPx : Option Nat
  price : Option Nat
  secondaryExecId : Nat
  transactTime : UtcTimestamp
  commission : Option Int
  commType : Option CommType
  lastLiquidityInd : Option LastLiquidityInd
  ordRejReason : Option Nat
  text : Option String
  deriving DecidableEq

def ExecReportSpec.intoReport (spec : ExecReportSpec) (header : StandardHeader) : ExecutionReport where
  header := header
  orderId := spec.orderId
  execId := spec.execId
  execType := spec.execType
  ordStatus := spec.ordStatus
  symbol := spec.symbol
  side := spec.side
  leavesQty := spec.leavesQty
  cumQty := spec.cumQty
  lastQty := spec.lastQty
  lastPx := spec.lastPx
  price := spec.price
  secondaryExecId := spec.secondaryExecId
  transactTime := spec.transactTime
  commission := spec.commission
  commType := spec.commType
  lastLiquidityInd := spec.lastLiquidityInd
  ordRejReason := spec.ordRejReason
  text := spec.text

namespace OrderFlow

/-- `checked_add(..).unwrap_or(..)`: an overflowing sum keeps the first summand. -/
def checkedSum (total quantity : Nat) : Nat := if total + quantity ≤ u64Max then total + quantity else total

/-- What the reports of one placement share. -/
structure Placement where
  symbol : Symbol
  side : OrderSide
  quantity : Nat
  price : Option Nat
  orderId : VenueOrderId
  sequence : Nat
  venueTs : Nat
  lineage : LineageId
  underlying : String

namespace Placement

/-- A report that is no fill; its execution index is above the index of every fill. -/
def milestone (placement : Placement) (execType : ExecType) (ordStatus : OrdStatus) (index leaves cum : Nat) :
    ExecReportSpec where
  orderId := placement.orderId
  execId := placement.lineage.executionId placement.underlying placement.sequence (min index u32Max)
  execType := execType
  ordStatus := ordStatus
  symbol := placement.symbol
  side := placement.side
  leavesQty := leaves
  cumQty := cum
  lastQty := none
  lastPx := none
  price := placement.price
  secondaryExecId := placement.sequence
  transactTime := .fromEpochMs placement.venueTs
  commission := none
  commType := none
  lastLiquidityInd := none
  ordRejReason := none
  text := none

/-- The report of one committed fill, with the quantity filled so far. -/
def trade (placement : Placement) (leg : ExecutionRecord) (cum : Nat) : ExecReportSpec where
  orderId := placement.orderId
  execId := leg.executionId
  execType := .trade
  ordStatus := if placement.quantity ≤ cum then .filled else .partiallyFilled
  symbol := placement.symbol
  side := placement.side
  leavesQty := placement.quantity - cum
  cumQty := cum
  lastQty := some leg.quantity
  lastPx := some leg.priceCents
  price := placement.price
  secondaryExecId := placement.sequence
  transactTime := .fromEpochMs leg.executedAt
  commission := some leg.feeCents
  commType := some .absolute
  lastLiquidityInd := some (liquidityInd leg.liquidity)
  ordRejReason := none
  text := none

/-- One report a fill, with the running total. -/
def trades (placement : Placement) : Nat → List ExecutionRecord → List ExecReportSpec
  | _, [] => []
  | cum, leg :: rest =>
    placement.trade leg (checkedSum cum leg.quantity) :: placement.trades (checkedSum cum leg.quantity) rest

end Placement

def filledBy (legs : List ExecutionRecord) : Nat :=
  legs.foldl (fun cum leg => checkedSum cum leg.quantity) 0

/-- The stream of an accepted placement or replacement: the accept, a trade for each fill, and a cancel
where a remainder does not rest. -/
def renderPlacementReports (placement : Placement) (acceptExecType : ExecType) (acceptOrdStatus : OrdStatus)
    (tif : TimeInForce) (takerLegs : List ExecutionRecord) : List ExecReportSpec :=
  let filled := filledBy takerLegs
  placement.milestone acceptExecType acceptOrdStatus takerLegs.length placement.quantity 0 ::
    placement.trades 0 takerLegs ++
    if filled < placement.quantity ∧ ¬ tifRests tif then
      [placement.milestone .canceled .canceled (takerLegs.length + 1) 0 filled]
    else []

def renderNewOrderReports (order : NewOrderSingle) (orderId : VenueOrderId) (sequence venueTs : Nat)
    (lineage : LineageId) (underlying : String) (tif : TimeInForce) (takerLegs : List ExecutionRecord) :
    List ExecReportSpec :=
  renderPlacementReports
    ⟨order.symbol, order.side, order.orderQty, order.price, orderId, sequence, venueTs, lineage, underlying⟩
    .new .new tif takerLegs

def renderReplaceReports (replace : OrderCancelReplaceRequest) (newOrderId : VenueOrderId) (sequence venueTs : Nat)
    (lineage : LineageId) (underlying : String) (takerLegs : List ExecutionRecord) : List ExecReportSpec :=
  let price := match replace.ordType with
    | .limit => replace.price
    | .market => none
  renderPlacementReports
    ⟨replace.symbol, replace.side, replace.orderQty, price, newOrderId, sequence, venueTs, lineage, underlying⟩
    .replaced .replaced .gtc takerLegs

/-- One order taken off the book by a cancel or a sweep; the quantity filled before is not surfaced. -/
def renderMassCancelLegReport (symbol : Symbol) (side : OrderSide) (orderId : VenueOrderId) (sequence venueTs : Nat)
    (lineage : LineageId) (underlying : String) (index : Nat) : ExecReportSpec where
  orderId := orderId
  execId := lineage.executionId underlying sequence index
  execType := .canceled
  ordStatus := .canceled
  symbol := symbol
  side := side
  leavesQty := 0
  cumQty := 0
  lastQty := none
  lastPx := none
  price := none
  secondaryExecId := sequence
  transactTime := .fromEpochMs venueTs
  commission := none
  commType := none
  lastLiquidityInd := none
  ordRejReason := none
  text := none

def renderCancelReport (symbol : Symbol) (side : OrderSide) (orderId : VenueOrderId) (sequence venueTs : Nat)
    (lineage : LineageId) (underlying : String) : ExecReportSpec :=
  renderMassCancelLegReport symbol side orderId sequence venueTs lineage underlying 0

/-- The current status of an order as its committed fills tell it. -/
def renderStatusReport (symbol : Symbol) (side : OrderSide) (orderId : VenueOrderId) (quantity cum readTs : Nat)
    (lastLeg : Option ExecutionRecord) (lineage : LineageId) (underlying : String) : ExecReportSpec :=
  let sequence := (lastLeg.map ExecutionRecord.underlyingSequence).getD 0
  { orderId
    execId := lineage.executionId underlying sequence 0
    execType := if 0 < cum then .trade else .new
    ordStatus := if quantity ≤ cum ∧ 0 < quantity then .filled else if 0 < cum then .partiallyFilled else .new
    symbol
    side
    leavesQty := quantity - cum
    cumQty := cum
    lastQty := lastLeg.map ExecutionRecord.quantity
    lastPx := lastLeg.map ExecutionRecord.priceCents
    price := none
    secondaryExecId := sequence
    transactTime := .fromEpochMs ((lastLeg.map ExecutionRecord.executedAt).getD readTs)
    commission := none
    commType := none
    lastLiquidityInd := none
    ordRejReason := none
    text := none }

end OrderFlow

end Fauxchange.Fix
