import Fauxchange.Fix.Router

/-! The order routes of the REST gateway: a placement is checked, answered from the stores where its client order id
already resolves to the same order, and submitted to the sequenced path otherwise. -/

namespace Fauxchange.Rest
open Exchange hiding VenueError
open Fauxchange.Fix

inductive DtoSide where
  | buy
  | sell
  deriving DecidableEq, Repr

/-- The time in force on the wire; the expiry of a good-'til-date order is a field of its own. -/
inductive DtoTif where
  | gtc
  | ioc
  | fok
  | gtd
  deriving DecidableEq, Repr

structure PlaceLimitOrderRequest where
  side : DtoSide
  price : Nat
  quantity : Nat
  timeInForce : Option DtoTif
  gtdExpiresAt : Option Nat
  clientOrderId : Option ClientOrderId
  deriving DecidableEq, Repr

structure PlaceMarketOrderRequest where
  side : DtoSide
  quantity : Nat
  clientOrderId : Option ClientOrderId
  deriving DecidableEq, Repr

inductive LimitOrderStatus where
  | accepted
  | filled
  | partiallyFilled
  | rejected
  deriving DecidableEq, Repr

inductive MarketOrderStatus where
  | filled
  | partiallyFilled
  | rejected
  deriving DecidableEq, Repr

structure PlaceLimitOrderResponse where
  orderId : VenueOrderId
  status : LimitOrderStatus
  filledQuantity : Nat
  remainingQuantity : Nat
  sequence : Nat
  message : String
  deriving DecidableEq, Repr

structure FillPrint where
  price : Nat
  quantity : Nat
  deriving DecidableEq, Repr

structure PlaceMarketOrderResponse where
  orderId : VenueOrderId
  status : MarketOrderStatus
  filledQuantity : Nat
  remainingQuantity : Nat
  averagePrice : Option Nat
  sequence : Nat
  fills : List FillPrint
  deriving DecidableEq, Repr

def maxPriceCents : Nat := 1000000000000
def maxOrderQuantity : Nat := 1000000

/-- The first rule of the order shape that is violated. -/
def validateOrderShape (orderType : Exchange.OrderType) (limitPrice : Option Nat) (quantity : Nat) :
    Except VenueError Unit :=
  if quantity = 0 then .error (.invalidOrder "order quantity must be positive")
  else if maxOrderQuantity < quantity then
    .error (.invalidOrder ("order quantity " ++ toString quantity ++ " exceeds MAX_ORDER_QUANTITY (" ++
      toString maxOrderQuantity ++ ")"))
  else
    match orderType, limitPrice with
    | .limit, none => .error (.invalidOrder "limit order requires a limit price")
    | .market, some _ => .error (.invalidOrder "market order must not carry a limit price")
    | .limit, some price =>
      if price = 0 then .error (.invalidOrder "limit price must be positive")
      else if maxPriceCents < price then
        .error (.invalidOrder ("limit price " ++ toString price ++ " cents exceeds MAX_PRICE_CENTS (" ++
          toString maxPriceCents ++ ")"))
      else .ok ()
    | .market, none => .ok ()

/-- A good-'til-date order, and no other, has an expiry, and one that is still ahead. -/
def validateGtdExpiry (timeInForce : DtoTif) (gtdExpiresAt : Option Nat) (now : Nat) : Except VenueError Unit :=
  match timeInForce, gtdExpiresAt with
  | .gtd, some expiry =>
    if now < expiry then .ok ()
    else
      .error (.invalidOrder ("GTD expiry " ++ toString expiry ++
        " ms must be strictly in the future (venue-clock now " ++ toString now ++ " ms)"))
  | .gtd, none => .error (.invalidOrder "GTD order requires a gtd_expires_at instant")
  | _, some _ => .error (.invalidOrder "gtd_expires_at is only valid with a GTD time-in-force")
  | _, none => .ok ()

def PlaceLimitOrderRequest.validate (request : PlaceLimitOrderRequest) (now : Nat) : Except VenueError Unit := do
  validateOrderShape .limit (some request.price) request.quantity
  validateGtdExpiry (request.timeInForce.getD .gtc) request.gtdExpiresAt now

def PlaceMarketOrderRequest.validate (request : PlaceMarketOrderRequest) : Except VenueError Unit :=
  validateOrderShape .market none request.quantity

def seamSide : DtoSide → Side
  | .buy => .buy
  | .sell => .sell

def seamTif (tif : DtoTif) (gtdExpiresAt : Option Nat) : Except VenueError Exchange.TimeInForce :=
  match tif with
  | .gtc => .ok .gtc
  | .ioc => .ok .ioc
  | .fok => .ok .fok
  | .gtd =>
    match gtdExpiresAt with
    | some deadline => .ok (.gtd deadline)
    | none => .error (.invalidOrder "GTD order requires a gtd_expires_at instant")

def styleChar : OptionStyle → String
  | .call => "C"
  | .put => "P"

def parseStyle (segment : String) : Except VenueError OptionStyle :=
  if segment = "call" then .ok .call
  else if segment = "put" then .ok .put
  else .error (.invalidOrder ("option style must be 'call' or 'put', got '" ++ segment ++ "'"))

/-- `Symbol::parse`: the canonical form of what the grammar accepts. -/
def parseSymbol (U : Upstream) (raw : String) : Except VenueError Symbol :=
  match U.parse raw with
  | .ok parsed => .ok (U.toSymbol parsed)
  | .error reason => .error (.invalidOrder ("invalid symbol '" ++ raw ++ "': " ++ reason))

def buildSymbol (U : Upstream) (underlying expiration : String) (strike : Nat) (style : OptionStyle) :
    Except VenueError Symbol :=
  parseSymbol U (underlying ++ "-" ++ expiration ++ "-" ++ toString strike ++ "-" ++ styleChar style)

/-- The segments of a contract's path. -/
structure ContractPath where
  underlying : String
  expiration : String
  strike : Nat
  style : String
  deriving DecidableEq, Repr

/-- The identity that the middleware has admitted. -/
structure Authorized where
  account : AccountId
  permissions : List Permission
  deriving DecidableEq, Repr

def require (auth : Authorized) (required : Permission) : Except VenueError Unit :=
  if auth.permissions.any fun held => held.grants required then .ok () else .error (.forbidden required)

/-- The venue as a route finds it. -/
structure RestState extends AppState where
  restIngressCounter : Nat

/-- The session of a stamp is the account; the sequence is the venue's own count of REST submissions. -/
def RestState.nextRestIngressStamp (venue : RestState) (account : AccountId) : Except VenueError IngressStamp :=
  if venue.restIngressCounter < u64Max then .ok ⟨account, venue.restIngressCounter⟩ else .error .sequenceExhausted

/-- A fill can never exceed the order, so the zero is unreachable. -/
def remaining (total taken : Nat) : Nat := total - taken

/-- The checked sum of the quantities of some fills. -/
def checkedFilled (fills : List (Nat × Nat)) : Except VenueError Nat :=
  fills.foldlM (fun total fill => if total + fill.2 ≤ u64Max then .ok (total + fill.2) else .error .overflow) 0

/-- The status of a limit order, from the fills that were observed and the time in force alone. -/
def limitStatus (tif : DtoTif) (filled quantity : Nat) : LimitOrderStatus × String :=
  if quantity ≤ filled then (.filled, "order filled")
  else
    match tif with
    | .fok =>
      if filled = 0 then (.rejected, "fill-or-kill not fillable; killed")
      else (.partiallyFilled, "fill-or-kill partial; remainder killed")
    | .ioc =>
      if filled = 0 then (.rejected, "immediate-or-cancel not marketable; killed")
      else (.partiallyFilled, "immediate-or-cancel partial; remainder canceled")
    | .gtc | .gtd =>
      if filled = 0 then (.accepted, "order accepted; resting")
      else (.partiallyFilled, "order partially filled; remainder resting")

def marketStatus (filled quantity : Nat) : MarketOrderStatus :=
  if filled = 0 then .rejected else if quantity ≤ filled then .filled else .partiallyFilled

/-- The totals of some fills: their quantity and their notional, in 128 bits. -/
def vwapTotals (fills : List (Nat × Nat)) : Except VenueError (Nat × Nat) :=
  fills.foldlM (fun totals fill =>
    if totals.1 + fill.2 < 2 ^ 128 ∧ totals.2 + fill.1 * fill.2 < 2 ^ 128 then
      .ok (totals.1 + fill.2, totals.2 + fill.1 * fill.2)
    else .error .overflow) (0, 0)

/-- The volume-weighted average price, truncated to whole cents. -/
def vwapCents (fills : List (Nat × Nat)) : Except VenueError (Option Nat) := do
  let totals ← vwapTotals fills
  if totals.1 = 0 then .ok none
  else if totals.2 / totals.1 ≤ u64Max then .ok (some (totals.2 / totals.1))
  else .error .overflow

/-- The fills of a stored order and their sum. -/
def replayTerminal (venue : AppState) (account : AccountId) (orderId : VenueOrderId) :
    Except VenueError (List (Nat × Nat) × Nat) := do
  let fills := (venue.takerLegsForOrder account orderId).map fun leg => (leg.priceCents, leg.quantity)
  let filled ← checkedFilled fills
  .ok (fills, filled)

/-- The record that a client order id resolves to, where it is of the same contract, side and quantity. -/
def confirmedHit (venue : AppState) (account : AccountId) (clientOrderId : Option ClientOrderId) (symbol : Symbol)
    (side : Side) (quantity : Nat) : Option ClOrdIdRecord :=
  (clientOrderId.bind (venue.resolveClientOrderId account)).filter fun record =>
    record.symbol = symbol ∧ record.side = side ∧ record.quantity = quantity

/-- The identity that is rendered for an answered placement. -/
def identityOf (orderId : VenueOrderId) (receipt : Receipt) : VenueOrderId × Nat :=
  match receipt.outcome with
  | some outcome => outcome.renderedIdentity orderId receipt.underlyingSequence
  | none => (orderId, receipt.underlyingSequence)

/-- The aggressor's fills that a receipt carries. -/
def receiptFills (receipt : Receipt) : List (Nat × Nat) :=
  match receipt.outcome with
  | some outcome => outcome.takerFillLegs
  | none => []

/-- What a placement hands to the ingress, and the id that it has minted for it. -/
structure PlacementCall where
  orderId : VenueOrderId
  command : VenueCommand
  stamp : IngressStamp
  deriving DecidableEq

section Limit
variable (request : PlaceLimitOrderRequest)

def limitFilled (orderId : VenueOrderId) (sequence filled : Nat) : PlaceLimitOrderResponse :=
  let status := limitStatus (request.timeInForce.getD .gtc) filled request.quantity
  ⟨orderId, status.1, filled, remaining request.quantity filled, sequence, status.2⟩

/-- A retry is answered from the stores: nothing is minted and nothing is submitted. -/
def replayLimit (venue : AppState) (account : AccountId) (record : ClOrdIdRecord) :
    Except VenueError PlaceLimitOrderResponse := do
  let replayed ← replayTerminal venue account record.orderId
  .ok (limitFilled request record.orderId record.sequence replayed.2)

def limitCall (venue : RestState) (account : AccountId) (underlying : String) (symbol : Symbol) :
    Except VenueError PlacementCall := do
  let owner ← venue.ownerFor account
  let tif ← seamTif (request.timeInForce.getD .gtc) request.gtdExpiresAt
  let orderId := venue.mintOrderId underlying
  let stamp ← venue.nextRestIngressStamp account
  .ok ⟨orderId, OrderFlow.addOrderCommand symbol orderId account owner request.clientOrderId (seamSide request.side)
    .limit (some request.price) request.quantity tif, stamp⟩

/-- The observed outcome; that of a duplicate is its stored terminal. -/
def renderLimit (orderId : VenueOrderId) (receipt : Receipt) : Except VenueError PlaceLimitOrderResponse :=
  match receipt.outcome.map VenueOutcome.terminal with
  | some (.rejected _ reason) =>
    .ok ⟨(identityOf orderId receipt).1, .rejected, 0, remaining request.quantity 0, (identityOf orderId receipt).2,
      reason⟩
  | _ => do
    let filled ← checkedFilled (receiptFills receipt)
    .ok (limitFilled request (identityOf orderId receipt).1 (identityOf orderId receipt).2 filled)

/-- The placement by way of the sequenced path. -/
def submitLimit (venue : RestState) (account : AccountId) (underlying : String) (symbol : Symbol) :
    Option (Except VenueError PlaceLimitOrderResponse) :=
  match limitCall request venue account underlying symbol with
  | .error error => some (.error error)
  | .ok call => (venue.submit call.command call.stamp).map fun answer => answer.bind (renderLimit request call.orderId)

end Limit

/-- The checks of the route, in order. -/
def checkLimit (U : Upstream) (nowMs : Nat) (auth : Authorized) (path : ContractPath) (request : PlaceLimitOrderRequest) :
    Except VenueError Symbol := do
  require auth .trade
  request.validate nowMs
  let style ← parseStyle path.style
  buildSymbol U path.underlying path.expiration path.strike style

/-- `place_limit_order`; there is no response while a submission is under way. -/
def placeLimitOrder (U : Upstream) (venue : RestState) (auth : Authorized) (path : ContractPath)
    (request : PlaceLimitOrderRequest) : Option (Except VenueError PlaceLimitOrderResponse) :=
  match checkLimit U venue.nowMs auth path request with
  | .error error => some (.error error)
  | .ok symbol =>
    match confirmedHit venue.toAppState auth.account request.clientOrderId symbol (seamSide request.side)
        request.quantity with
    | some record => some (replayLimit request venue.toAppState auth.account record)
    | none => submitLimit request venue auth.account path.underlying symbol

section Market
variable (request : PlaceMarketOrderRequest)

def marketFilled (orderId : VenueOrderId) (sequence filled : Nat) (fills : List (Nat × Nat)) :
    Except VenueError PlaceMarketOrderResponse := do
  let averagePrice ← vwapCents fills
  .ok ⟨orderId, marketStatus filled request.quantity, filled, remaining request.quantity filled, averagePrice, sequence,
    fills.map fun fill => ⟨fill.1, fill.2⟩⟩

def replayMarket (venue : AppState) (account : AccountId) (record : ClOrdIdRecord) :
    Except VenueError PlaceMarketOrderResponse := do
  let replayed ← replayTerminal venue account record.orderId
  marketFilled request record.orderId record.sequence replayed.2 replayed.1

def marketCall (venue : RestState) (account : AccountId) (underlying : String) (symbol : Symbol) :
    Except VenueError PlacementCall := do
  let owner ← venue.ownerFor account
  let orderId := venue.mintOrderId underlying
  let stamp ← venue.nextRestIngressStamp account
  .ok ⟨orderId, OrderFlow.addOrderCommand symbol orderId account owner request.clientOrderId (seamSide request.side)
    .market none request.quantity .ioc, stamp⟩

def renderMarket (orderId : VenueOrderId) (receipt : Receipt) : Except VenueError PlaceMarketOrderResponse := do
  let filled ← checkedFilled (receiptFills receipt)
  marketFilled request (identityOf orderId receipt).1 (identityOf orderId receipt).2 filled (receiptFills receipt)

def submitMarket (venue : RestState) (account : AccountId) (underlying : String) (symbol : Symbol) :
    Option (Except VenueError PlaceMarketOrderResponse) :=
  match marketCall request venue account underlying symbol with
  | .error error => some (.error error)
  | .ok call => (venue.submit call.command call.stamp).map fun answer => answer.bind (renderMarket request call.orderId)

end Market

def checkMarket (U : Upstream) (auth : Authorized) (path : ContractPath) (request : PlaceMarketOrderRequest) :
    Except VenueError Symbol := do
  require auth .trade
  request.validate
  let style ← parseStyle path.style
  buildSymbol U path.underlying path.expiration path.strike style

/-- `place_market_order`. -/
def placeMarketOrder (U : Upstream) (venue : RestState) (auth : Authorized) (path : ContractPath)
    (request : PlaceMarketOrderRequest) : Option (Except VenueError PlaceMarketOrderResponse) :=
  match checkMarket U auth path request with
  | .error error => some (.error error)
  | .ok symbol =>
    match confirmedHit venue.toAppState auth.account request.clientOrderId symbol (seamSide request.side)
        request.quantity with
    | some record => some (replayMarket request venue.toAppState auth.account record)
    | none => submitMarket request venue auth.account path.underlying symbol

end Fauxchange.Rest
