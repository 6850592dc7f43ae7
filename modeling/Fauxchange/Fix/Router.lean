import Fauxchange.Fix.Session
import Fauxchange.Lib.VisitOrder
import Fauxchange.MarketData.Subscription

/-! The session around its state machine: the logon with its checks against the account registry, the order
messages onto the sequenced path, the market data from the shared broadcast, and the three events that the
acceptor drives. -/

namespace Fauxchange.Fix
open Exchange Lib OrderFlow MarketData

inductive RateLimitTier where
  | read
  | trade
  | admin
  deriving DecidableEq, Repr

/-- The tier of the highest permission held. -/
def RateLimitTier.fromPermissions (permissions : List Permission) : RateLimitTier :=
  if .admin ∈ permissions then .admin else if .trade ∈ permissions then .trade else .read

inductive RateLimitKey where
  | account (account : AccountId) (revocationEpoch : Nat) (tier : RateLimitTier)
  | peer (peer : String)
  deriving DecidableEq, Repr

/-- The row of the account registry that a session reads. -/
structure Account where
  id : AccountId
  owner : Hash32
  permissions : List Permission
  revocationEpoch : Nat
  fixCompIds : Option (String × String)
  deriving DecidableEq

structure SweptLeg where
  leg : CancelledLeg
  sequence : Nat
  deriving DecidableEq, Repr

structure MassCancelDelivery where
  swept : List SweptLeg
  fanout : FanoutSummary
  deriving DecidableEq, Repr

inductive FeedEnd where
  | empty
  | lagged
  | closed
  deriving DecidableEq, Repr

/-- The venue as one dispatch of a session finds it: its clock, the account registry and the rate limiter, the
exchange, its stores, and what the market-data receiver holds. A submission without an answer is one that is
still under way when the dispatch is dropped. -/
structure AppState where
  nowMs : Nat
  lineageId : LineageId
  allowed : RateLimitKey → Bool
  verifyFixPassword : String → String → Option AccountId
  account : AccountId → Option Account
  resolveClientOrderId : AccountId → ClientOrderId → Option ClOrdIdRecord
  orderIdCounter : Nat
  submit : VenueCommand → IngressStamp → Option (Except VenueError Receipt)
  submitMassCancel : VenueCommand → Option (Except VenueError MassCancelDelivery)
  executions : AccountId → Except StoreError (List ExecutionRecord)
  orderbookSnapshot : Symbol → Option Nat → WsMessage
  received : List WsMessage
  feedEnd : FeedEnd
  hashOrder : VisitOrder

namespace AppState

def currentRevocationEpoch (venue : AppState) (account : AccountId) : Option Nat :=
  (venue.account account).map Account.revocationEpoch

def ownerFor (venue : AppState) (account : AccountId) : Except VenueError Hash32 :=
  match venue.account account with
  | some row => .ok row.owner
  | none => .error .unauthorized

def mintOrderId (venue : AppState) (underlying : String) : VenueOrderId :=
  Venue.mintedId venue.lineageId underlying venue.orderIdCounter

/-- The taker legs of an order; a store that fails has none. -/
def takerLegsForOrder (venue : AppState) (account : AccountId) (orderId : VenueOrderId) : List ExecutionRecord :=
  match venue.executions account with
  | .ok records => records.filter fun record => record.orderId = orderId ∧ record.liquidity = .taker
  | .error _ => []

/-- The taker legs of an order that one command has committed. -/
def immediateExecutionRecords (venue : AppState) (account : AccountId) (orderId : VenueOrderId) (sequence : Nat) :
    List ExecutionRecord :=
  match venue.executions account with
  | .ok records => records.filter fun record =>
      record.orderId = orderId ∧ record.underlyingSequence = sequence ∧ record.liquidity = .taker
  | .error _ => []

end AppState

def underlyingOfSymbol (U : Upstream) (symbol : Symbol) : String := (underlyingOf U symbol).getD ""

namespace RequestedSides

def fromEntryTypes (entryTypes : List MdEntryType) : RequestedSides :=
  ⟨.bid ∈ entryTypes, .offer ∈ entryTypes⟩

def any (sides : RequestedSides) : Bool := sides.bids || sides.asks

def includes (sides : RequestedSides) : BookSide → Bool
  | .bid => sides.bids
  | .ask => sides.asks

end RequestedSides

def requestsTradeTape (entryTypes : List MdEntryType) : Bool := .trade ∈ entryTypes

def entryTypeFor : BookSide → MdEntryType
  | .bid => .bid
  | .ask => .offer

/-- The levels of a snapshot on the requested sides, bids first. -/
def snapshotEntries (bids asks : List PriceLevelData) (sides : RequestedSides) : List SnapshotEntry :=
  let rendered := fun (entryType : MdEntryType) (level : PriceLevelData) =>
    (⟨entryType, level.price, level.quantity⟩ : SnapshotEntry)
  (if sides.bids then bids.map (rendered .bid) else []) ++ if sides.asks then asks.map (rendered .offer) else []

/-- The changes of a delta on the requested sides; a quantity of zero deletes the level. -/
def incrementalEntries (symbol : Symbol) (changes : List PriceLevelChange) (sides : RequestedSides) :
    List IncrementalEntry :=
  (changes.filter fun change => sides.includes change.side).map fun change =>
    ⟨if change.quantity = 0 then .delete else .change, entryTypeFor change.side, symbol, change.price,
      change.quantity⟩

def snapshotProjection (message : WsMessage) (sides : RequestedSides) : Option (Nat × List SnapshotEntry) :=
  match message with
  | .orderbookSnapshot _ sequence bids asks => some (sequence, snapshotEntries bids asks sides)
  | _ => none

def maxTrackedOrdersPerSession : Nat := 100000
def maxMdSymbolsPerSession : Nat := 256
def maxMdFramesPerCycle : Nat := 512

/-- Whether the session's account has been revoked since its logon. -/
def VenueFixSession.revoked (session : VenueFixSession) (venue : AppState) : Bool :=
  match session.fsm.account with
  | none => false
  | some account =>
    match venue.currentRevocationEpoch account with
    | some current => session.fsm.sessionEpoch < current
    | none => true

def VenueFixSession.rateLimited (session : VenueFixSession) (venue : AppState) : Bool :=
  match session.fsm.account with
  | none => true
  | some account =>
    !venue.allowed (.account account session.fsm.sessionEpoch (.fromPermissions session.fsm.permissions))

/-- A client id on the session's account: the session's own map first, then the venue's index. -/
def VenueFixSession.resolveOrder (session : VenueFixSession) (venue : AppState) (account : AccountId)
    (clOrdId : ClientOrderId) : Option ResolvedOrder :=
  match session.placed[clOrdId]? with
  | some placed => some placed.toResolvedOrder
  | none => (venue.resolveClientOrderId account clOrdId).map .fromIndex

def VenueFixSession.ingressStamp (session : VenueFixSession) (message : DecodedMessage) : IngressStamp :=
  ⟨(session.fsm.clientComp.map Subtype.val).getD "fix", (headerOf message).msgSeqNum⟩

section Logon
variable [Ironfix]

/-- Claims the lease of a key, if no live session holds it. -/
def tryClaim (key : SessionKey) : SessionM Bool :=
  .transition fun dispatch =>
    if key ∈ dispatch.leases then (.ok false, dispatch)
    else (.ok true, { dispatch with leases := key :: dispatch.leases, lease := some key })

def handleLogon (venue : AppState) (logon : Logon) (now : Nat) : SessionM Reaction := do
  let dispatch ← get
  if ¬ venue.allowed (.peer dispatch.peer) then logoutClose now "logon rate limited"
  else if logon.heartBtInt = 0 ∨ dispatch.fsm.config.maxHeartBtIntSecs < logon.heartBtInt then
    logoutClose now "unacceptable heartbeat interval"
  else match (venue.verifyFixPassword logon.username logon.password).bind venue.account with
  | none => logoutClose now "authentication failed"
  | some account =>
    if 0 < account.revocationEpoch then logoutClose now "account revoked"
    else if account.fixCompIds ≠ some (logon.header.senderCompId.val, logon.header.targetCompId.val) then
      logoutClose now "session binding violation"
    else do
      let claimed ← tryClaim ⟨account.id, logon.header.senderCompId.val, logon.header.targetCompId.val⟩
      if ¬ claimed then logoutClose now "session already active"
      else
        admitLogon account.id account.permissions account.revocationEpoch logon.heartBtInt
          (logon.resetSeqNumFlag.getD false) logon.header.msgSeqNum now

end Logon

/-- Tracks a placed order; a full map leaves a new client id untracked. -/
def trackPlaced (clOrdId : ClientOrderId) (placed : PlacedOrder) : SessionM Unit :=
  modify fun dispatch =>
    if maxTrackedOrdersPerSession ≤ dispatch.placed.size ∧ clOrdId ∉ dispatch.placed then dispatch
    else { dispatch with placed := dispatch.placed.insert clOrdId placed }

def dropPlaced (clOrdId : ClientOrderId) : SessionM Unit :=
  modify fun dispatch => { dispatch with placed := dispatch.placed.erase clOrdId }

/-- Drops the client id that an order is tracked under. -/
def dropPlacedOrder (venue : AppState) (orderId : VenueOrderId) : SessionM Unit :=
  modify fun dispatch =>
    match (visit venue.hashOrder 0 dispatch.placed.toList).find? fun entry => entry.2.orderId = orderId with
    | some (clOrdId, _) => { dispatch with placed := dispatch.placed.erase clOrdId }
    | none => dispatch

/-- Hands a command to the exchange and waits for the answer. -/
def submitting {α : Type} (answer : Option (Except VenueError α)) (command : VenueCommand) (stamp : IngressStamp) :
    SessionM (Except VenueError α) :=
  .transition fun dispatch =>
    let called := fun accepted =>
      { dispatch with calls := dispatch.calls ++ [⟨dispatch.fsm.key, stamp, command, accepted⟩] }
    match answer with
    | none => (.error .unanswered, called none)
    | some (.ok receipt) => (.ok (.ok receipt), called (some true))
    | some (.error error) => (.ok (.error error), called (some false))

section Orders
variable [Ironfix] (U : Upstream) (venue : AppState)

/-- The status of an order from its committed fills, for a retry and for a status request. -/
def renderTrackedStatus (order : ResolvedOrder) (now : Nat) : SessionM Reaction := do
  let dispatch ← get
  match dispatch.fsm.account with
  | none => pure .cont
  | some account =>
    let legs := venue.takerLegsForOrder account order.orderId
    emitReportSpecs [renderStatusReport order.symbol order.side order.orderId order.quantity (filledBy legs) now
      legs.getLast? venue.lineageId (underlyingOfSymbol U order.symbol)] now

def rejectNewOrder (order : NewOrderSingle) (error : VenueError) (now : Nat) : SessionM Reaction :=
  emitOrderRejected order.symbol order.side order.price error.fixReject now

/-- The journaled rejection of a place. -/
def rejectNewOrderOutcome (order : NewOrderSingle) (reason : String) (now : Nat) : SessionM Reaction :=
  emitOrderRejectedCode order.symbol order.side order.price (ordRejReason .invalid) (some reason) now

def rejectCancel (orderId : VenueOrderId) (origClOrdId clOrdId : ClientOrderId) (responseTo : CxlRejResponseTo)
    (error : VenueError) (now : Nat) : SessionM Reaction :=
  emitCancelRejectError orderId origClOrdId clOrdId responseTo .rejected error.fixReject now

def maskedCancelError (kind : RejectKind) : VenueError := .maskedCancelReject kind cancelRejectMaskedReason

/-- The replacement was refused after the cancel had taken the order off the book. -/
def rejectReplaceAdd (orderId : VenueOrderId) (origClOrdId clOrdId : ClientOrderId) (reason : String) (now : Nat) :
    SessionM Reaction :=
  emitCancelRejectError orderId origClOrdId clOrdId .orderCancelReplaceRequest .canceled
    (VenueError.invalidOrder reason).fixReject now

/-- What a new order resolves to before it is submitted. -/
structure Admitted where
  underlying : String
  tif : TimeInForce
  orderId : VenueOrderId
  command : VenueCommand

/-- The checks before a submission, in order; the first that fails gives the reject. -/
def admitNewOrder (session : VenueFixSession) (account : AccountId) (order : NewOrderSingle) :
    Except VenueError Admitted := do
  if session.rateLimited venue then .error .rateLimited
  let owner ← venue.ownerFor account
  let underlying ← match U.parse order.symbol with
    | .ok parsed => .ok parsed.underlying
    | .error cause => .error (.upstream cause)
  let tif ← match order.ordType with
    | .market => .ok .ioc
    | .limit => seamTimeInForce order.timeInForce order.expireTime
  let orderId := venue.mintOrderId underlying
  let command ← toAddCommand order orderId account owner
  .ok { underlying, tif, orderId, command }

/-- The reports of a submitted new order, from the observed outcome. -/
def renderPlaced (order : NewOrderSingle) (account : AccountId) (admitted : Admitted) (receipt : Receipt) (now : Nat) :
    SessionM Reaction :=
  match receipt.outcome with
  | some (.rejected _ reason) => rejectNewOrderOutcome order reason now
  | _ => do
    trackPlaced order.clOrdId
      ⟨⟨admitted.orderId, order.symbol, order.side, order.orderQty⟩, .ofNewOrder order⟩
    let legs := venue.immediateExecutionRecords account admitted.orderId receipt.underlyingSequence
    emitReportSpecs (renderNewOrderReports order admitted.orderId receipt.underlyingSequence receipt.venueTs
      venue.lineageId admitted.underlying admitted.tif legs) now

def routeNewOrder (order : NewOrderSingle) (stamp : IngressStamp) (now : Nat) : SessionM Reaction := do
  let dispatch ← get
  match dispatch.fsm.account with
  | none => pure .cont
  | some account =>
    match dispatch.placed[order.clOrdId]? with
    | some placed =>
      if placed.fingerprint = .ofNewOrder order then renderTrackedStatus U venue placed.toResolvedOrder now
      else
        emitOrderRejectedCode order.symbol order.side order.price ordRejReasonDuplicate
          (some duplicateClOrdIdText) now
    | none =>
      match admitNewOrder U venue dispatch.toVenueFixSession account order with
      | .error error => rejectNewOrder order error now
      | .ok admitted => do
        match ← submitting (venue.submit admitted.command stamp) admitted.command stamp with
        | .ok receipt => do
          let reaction ← renderPlaced venue order account admitted receipt now
          persistInbound
          pure reaction
        | .error error => rejectNewOrder order error now

/-- The report of a cancel that has been sequenced. -/
def renderCancelled (cancel : OrderCancelRequest) (resolved : ResolvedOrder) (receipt : Receipt) (now : Nat) :
    SessionM Reaction :=
  match receipt.outcome with
  | some (.rejected kind _) =>
    rejectCancel resolved.orderId cancel.origClOrdId cancel.clOrdId .orderCancelRequest (maskedCancelError kind) now
  | _ => do
    dropPlaced cancel.origClOrdId
    emitReportSpecs [renderCancelReport resolved.symbol resolved.side resolved.orderId receipt.underlyingSequence
      receipt.venueTs venue.lineageId (underlyingOfSymbol U resolved.symbol)] now

def routeCancel (cancel : OrderCancelRequest) (stamp : IngressStamp) (now : Nat) : SessionM Reaction := do
  let dispatch ← get
  match dispatch.fsm.account with
  | none => pure .cont
  | some account =>
    if dispatch.rateLimited venue then
      rejectCancel "NONE" cancel.origClOrdId cancel.clOrdId .orderCancelRequest .rateLimited now
    else match dispatch.resolveOrder venue account cancel.origClOrdId with
    | none =>
      rejectCancel "NONE" cancel.origClOrdId cancel.clOrdId .orderCancelRequest
        (.notFound cancelRejectMaskedReason) now
    | some resolved => do
      let command := toCancelCommand cancel account resolved.orderId
      match ← submitting (venue.submit command stamp) command stamp with
      | .ok receipt => do
        let reaction ← renderCancelled U venue cancel resolved receipt now
        persistInbound
        pure reaction
      | .error error =>
        rejectCancel resolved.orderId cancel.origClOrdId cancel.clOrdId .orderCancelRequest error now

/-- The report of a replace that has been sequenced: refused whole, cancelled without its replacement, or
replaced. -/
def renderReplaced (replace : OrderCancelReplaceRequest) (account : AccountId) (resolved : ResolvedOrder)
    (newOrderId : VenueOrderId) (receipt : Receipt) (now : Nat) : SessionM Reaction :=
  match receipt.outcome with
  | some (.rejected kind _) =>
    rejectCancel resolved.orderId replace.origClOrdId replace.clOrdId .orderCancelReplaceRequest
      (maskedCancelError kind) now
  | some (.replace cancelled (.rejected _ reason)) => do
    if cancelled then dropPlaced replace.origClOrdId else pure ()
    rejectReplaceAdd resolved.orderId replace.origClOrdId replace.clOrdId reason now
  | _ => do
    dropPlaced replace.origClOrdId
    trackPlaced replace.clOrdId
      ⟨⟨newOrderId, replace.symbol, replace.side, replace.orderQty⟩, .ofReplace replace⟩
    let legs := venue.immediateExecutionRecords account newOrderId receipt.underlyingSequence
    emitReportSpecs (renderReplaceReports replace newOrderId receipt.underlyingSequence receipt.venueTs
      venue.lineageId (underlyingOfSymbol U replace.symbol) legs) now

def routeReplace (replace : OrderCancelReplaceRequest) (stamp : IngressStamp) (now : Nat) : SessionM Reaction := do
  let dispatch ← get
  match dispatch.fsm.account with
  | none => pure .cont
  | some account =>
    if dispatch.rateLimited venue then
      rejectCancel "NONE" replace.origClOrdId replace.clOrdId .orderCancelReplaceRequest .rateLimited now
    else match dispatch.resolveOrder venue account replace.origClOrdId with
    | none =>
      rejectCancel "NONE" replace.origClOrdId replace.clOrdId .orderCancelReplaceRequest
        (.notFound cancelRejectMaskedReason) now
    | some resolved => do
      let newOrderId := venue.mintOrderId (underlyingOfSymbol U replace.symbol)
      let command := toReplaceCommand replace account resolved.orderId newOrderId
      match ← submitting (venue.submit command stamp) command stamp with
      | .ok receipt => do
        let reaction ← renderReplaced U venue replace account resolved newOrderId receipt now
        persistInbound
        pure reaction
      | .error error =>
        rejectCancel resolved.orderId replace.origClOrdId replace.clOrdId .orderCancelReplaceRequest error now

/-- The report of each swept leg; a swept order is no longer tracked. -/
def sweptReports (now : Nat) : Nat → List SweptLeg → SessionM (List ExecReportSpec)
  | _, [] => pure []
  | index, swept :: rest => do
    dropPlacedOrder venue swept.leg.orderId
    if u32Max < index + 1 then throw (.sealed .sequenceExhausted)
    else do
      let later ← sweptReports now (index + 1) rest
      pure (renderMassCancelLegReport swept.leg.symbol (fixSide swept.leg.side) swept.leg.orderId swept.sequence now
        venue.lineageId (underlyingOfSymbol U swept.leg.symbol) index :: later)

def renderMassCancel (response : MassCancelResponse) (affected : List SweptLeg) (now : Nat) : SessionM Reaction := do
  let specs ← sweptReports U venue now 0 affected
  emitMassCancelAccepted response (affected.map fun swept => swept.leg.orderId) specs now

/-- The scope of the sweep and the response that echoes it. -/
def massCancelScope (request : OrderMassCancelRequest) : Option (MassCancelScope × MassCancelResponse) :=
  match request.massCancelRequestType with
  | .all => some (.underlying, .all)
  | .security => request.symbol.map fun symbol => (.book symbol, .security)

def routeMassCancel (request : OrderMassCancelRequest) (stamp : IngressStamp) (now : Nat) : SessionM Reaction := do
  let dispatch ← get
  match dispatch.fsm.account with
  | none => pure .cont
  | some account =>
    if dispatch.rateLimited venue then emitMassCancelRejected now
    else match venue.ownerFor account, massCancelScope request with
    | .ok owner, some (scope, response) => do
      let command := VenueCommand.massCancel scope (.byUser owner) account
      match ← submitting (venue.submitMassCancel command) command stamp with
      | .ok delivery => do
        let reaction ← renderMassCancel U venue response delivery.swept now
        persistInbound
        pure reaction
      | .error _ => emitMassCancelRejected now
    | _, _ => emitMassCancelRejected now

def routeStatus (status : OrderStatusRequest) (now : Nat) : SessionM Reaction := do
  let dispatch ← get
  match dispatch.fsm.account with
  | none => pure .cont
  | some account =>
    let resolved := match status.orderId, status.clOrdId with
      | some orderId, _ =>
        ((visit venue.hashOrder 0 dispatch.placed.toList).find? fun entry => entry.2.orderId = orderId).map
          fun entry => entry.2.toResolvedOrder
      | none, some clOrdId => dispatch.resolveOrder venue account clOrdId
      | none, none => none
    match resolved with
    | none => emitOrderRejected status.symbol .buy none (VenueError.notFound "order not found or not readable").fixReject now
    | some order => renderTrackedStatus U venue order now

end Orders

section MarketData
variable [Ironfix] (venue : AppState)

def setMarketData (marketData : Option (Std.ExtTreeMap Symbol MdSymbolSub)) : SessionM Unit :=
  modify fun dispatch => { dispatch with marketData := marketData }

/-- Writes one entry of a live subscription. -/
def writeSub (symbol : Symbol) (sub : MdSymbolSub) : SessionM Unit :=
  modify fun dispatch => { dispatch with marketData := dispatch.marketData.map fun symbols => symbols.insert symbol sub }

def duplicateSymbol (symbols : List Symbol) : Bool := ¬ symbols.Nodup

/-- Why a subscription is refused whole. -/
def subscribeRefusal (subscribed : Option (Std.ExtTreeMap Symbol MdSymbolSub)) (request : MarketDataRequest) :
    Option (Nat × String) :=
  let live := subscribed.getD ∅
  if requestsTradeTape request.entryTypes then
    some (MdRejReason.unsupportedEntryType,
      "Trade (269=2) market data is not served over FIX; request only Bid/Offer")
  else if ¬ (RequestedSides.fromEntryTypes request.entryTypes).any then
    some (MdRejReason.unsupportedEntryType, "only Bid/Offer market data is served over FIX")
  else if live.toList.any fun entry => entry.2.mdReqId == request.mdReqId then
    some (MdRejReason.duplicate, "duplicate MDReqID")
  else if duplicateSymbol request.symbols then
    some (MdRejReason.duplicate, "duplicate symbol within the market-data request")
  else if request.symbols.any fun symbol => symbol ∈ live then
    some (MdRejReason.duplicate,
      "symbol already subscribed on this session; unsubscribe (263=2) before re-subscribing")
  else if maxMdSymbolsPerSession < live.size + (request.symbols.filter fun symbol => symbol ∉ live).length then
    some (MdRejReason.insufficientBandwidth, "market-data subscription limit reached")
  else none

/-- The snapshots of the requested symbols, each with its entry in the subscription. -/
def subscribeSymbols (request : MarketDataRequest) (now : Nat) : List Symbol → SessionM (List Frame)
  | [] => pure []
  | symbol :: rest => do
    let sides := RequestedSides.fromEntryTypes request.entryTypes
    let depth := if request.marketDepth = 0 then none else some request.marketDepth
    match snapshotProjection (venue.orderbookSnapshot symbol depth) sides with
    | none => do
      writeSub symbol ⟨request.mdReqId, sides, depth, 0⟩
      subscribeSymbols request now rest
    | some (sequence, entries) => do
      writeSub symbol ⟨request.mdReqId, sides, depth, sequence⟩
      let frame ← emitMdSnapshot request.mdReqId symbol sequence entries now
      let frames ← subscribeSymbols request now rest
      pure (frame :: frames)

def subscribeMarketData (request : MarketDataRequest) (now : Nat) : SessionM Reaction := do
  let dispatch ← get
  match subscribeRefusal dispatch.marketData request with
  | some (reason, text) => emitMdRequestReject request.mdReqId reason (some text) now
  | none => do
    setMarketData (some (dispatch.marketData.getD ∅))
    let frames ← subscribeSymbols venue request now request.symbols
    pure (.emit frames)

def unsubscribeMarketData (request : MarketDataRequest) : SessionM Reaction := do
  let dispatch ← get
  setMarketData (dispatch.marketData.bind fun live =>
    let kept := request.symbols.foldl (fun symbols symbol => symbols.erase symbol) live
    if kept.isEmpty then none else some kept)
  pure .cont

def routeMarketData (request : MarketDataRequest) (now : Nat) : SessionM Reaction :=
  match request.subscriptionRequestType with
  | .snapshotPlusUpdates => subscribeMarketData venue request now
  | .unsubscribe => unsubscribeMarketData request

/-- A fresh snapshot of every subscribed symbol, after the receiver has lost deltas. -/
def resnapshotSubscriptions (now : Nat) : List (Symbol × MdSymbolSub) → SessionM (List Frame)
  | [] => pure []
  | (symbol, sub) :: rest =>
    match snapshotProjection (venue.orderbookSnapshot symbol sub.depth) sub.sides with
    | none => resnapshotSubscriptions now rest
    | some (sequence, entries) => do
      let frame ← emitMdSnapshot sub.mdReqId symbol sequence entries now
      writeSub symbol { sub with baseline := sequence }
      let frames ← resnapshotSubscriptions now rest
      pure (frame :: frames)

/-- The deltas of the subscribed symbols past their baselines, in order. -/
def projectDeltas (now : Nat) : List WsMessage → SessionM (List Frame)
  | [] => pure []
  | .orderbookDelta symbol sequence changes :: rest => do
    let dispatch ← get
    match dispatch.marketData.bind fun symbols => symbols[symbol]? with
    | none => projectDeltas now rest
    | some sub =>
      if sequence ≤ sub.baseline then projectDeltas now rest
      else do
        writeSub symbol { sub with baseline := sequence }
        match incrementalEntries symbol changes sub.sides with
        | [] => projectDeltas now rest
        | entries => do
          let frame ← emitMdIncremental sub.mdReqId sequence entries now
          let frames ← projectDeltas now rest
          pure (frame :: frames)
  | _ :: rest => projectDeltas now rest

/-- One cycle of the receiver: at most a bounded number of messages, then what it reported last. -/
def drainMarketData (now : Nat) : SessionM (List Frame) := do
  let dispatch ← get
  match dispatch.marketData with
  | none => pure []
  | some live =>
    if maxMdFramesPerCycle ≤ venue.received.length then projectDeltas now (venue.received.take maxMdFramesPerCycle)
    else match venue.feedEnd with
    | .empty => projectDeltas now venue.received
    | .lagged => resnapshotSubscriptions venue now (visit venue.hashOrder 0 live.toList)
    | .closed => do
      setMarketData none
      pure []

/-- The pending market data goes out with the reaction, unless the session closes. -/
def appendMarketData (reaction : Reaction) (now : Nat) : SessionM Reaction := do
  let dispatch ← get
  if reaction.control = .close ∨ dispatch.marketData.isNone then pure reaction
  else do
    let frames ← drainMarketData venue now
    pure { reaction with frames := reaction.frames ++ frames }

end MarketData

section Events
variable [Ironfix] (U : Upstream) (venue : AppState)

def routeOrder (message : DecodedMessage) (now : Nat) : SessionM Reaction := do
  let dispatch ← get
  let stamp := dispatch.ingressStamp message
  match message with
  | .newOrderSingle order => routeNewOrder U venue order stamp now
  | .orderCancelRequest cancel => routeCancel U venue cancel stamp now
  | .orderCancelReplaceRequest replace => routeReplace U venue replace stamp now
  | .orderMassCancelRequest request => routeMassCancel U venue request stamp now
  | .orderStatusRequest status => routeStatus U venue status now
  | .marketDataRequest request => routeMarketData venue request now
  | _ => pure .cont

/-- What becomes of an active message: a reaction, or a route. -/
def respond : ActiveDisposition → SessionM Reaction
  | .reacted reaction => pure reaction
  | .route message => routeOrder U venue message venue.nowMs

/-- The reaction to one message, before the market data. -/
def reactTo (message : DecodedMessage) : SessionM Reaction := do
  let dispatch ← get
  match dispatch.fsm.phase with
  | .awaitingLogon => do
    onInbound (headerOf message) venue.nowMs
    match message with
    | .logon logon => handleLogon venue logon venue.nowMs
    | _ => logoutClose venue.nowMs "expected Logon"
  | .active | .awaitingResend => do
    let disposition ← handleActive message venue.nowMs (dispatch.revoked venue)
    respond U venue disposition
  | .closing => pure .closeSilent

def onMessage (message : DecodedMessage) : SessionM Reaction := do
  let reaction ← reactTo U venue message
  appendMarketData venue reaction venue.nowMs

def onDecodeError (error : FixDecodeError) : SessionM Reaction := do
  let dispatch ← get
  match dispatch.fsm.phase with
  | .awaitingLogon | .closing => pure .closeSilent
  | .active | .awaitingResend => rejectDecodeError error venue.nowMs

def onTick : SessionM Reaction := do
  let dispatch ← get
  let reaction ← SessionFsm.onTick venue.nowMs (dispatch.revoked venue)
  appendMarketData venue reaction venue.nowMs

end Events

end Fauxchange.Fix
