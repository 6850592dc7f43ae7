import Fauxchange.Exchange.Actor
import Fauxchange.Exchange.Snapshot
import Fauxchange.Lib.VisitOrder

/-! The matching executor of one underlying: it drives the upstream hierarchy, keeps the venue's registries
and captures each outcome. Where the source iterates a hash map or a hash set, the visit takes an arbitrary
order, one for each sequence. -/

namespace Fauxchange.Exchange
open Lib

def marketMakerOwner : Hash32 := (BitVec.ofNat 8 0xEE).replicate 32

def redactedInternalMessage : String := "internal error"

def notOrderOwnerReason : String := "requesting account does not own the order"

inductive MoneyError where
  | overflow
  | negativeCents (value : Int)
  deriving DecidableEq, Repr

/-- The venue identity of a resting order, keyed by its engine id. -/
structure RestingRecord where
  symbol : Symbol
  venueOrderId : VenueOrderId
  account : AccountId
  owner : Hash32
  side : Side
  deriving DecidableEq, Repr

/-- The two order maps of the executor, kept in lockstep. -/
structure OrderRegistry where
  resting : Std.ExtTreeMap Nat RestingRecord
  venueToEngine : Std.ExtTreeMap VenueOrderId Nat

namespace OrderRegistry

def new : OrderRegistry := ⟨∅, ∅⟩

def registerResting (registry : OrderRegistry) (engineId : Nat) (record : RestingRecord) : OrderRegistry where
  resting := registry.resting.insert engineId record
  venueToEngine := registry.venueToEngine.insert record.venueOrderId engineId

def removeResting (registry : OrderRegistry) (engineId : Nat) : OrderRegistry :=
  match registry.resting[engineId]? with
  | some record => ⟨registry.resting.erase engineId, registry.venueToEngine.erase record.venueOrderId⟩
  | none => registry

def removeAll (registry : OrderRegistry) (engineIds : List Nat) : OrderRegistry :=
  engineIds.foldl removeResting registry

def accountOwns (registry : OrderRegistry) (engineId : Nat) (account : AccountId) : Bool :=
  match registry.resting[engineId]? with
  | some record => record.account = account
  | none => false

end OrderRegistry

/-- The statuses a `SetInstrumentStatus` has recorded; an absent instrument is active. -/
structure InstrumentStatusRegistry where
  statuses : Std.ExtTreeMap Symbol InstrumentStatus

namespace InstrumentStatusRegistry

def new : InstrumentStatusRegistry := ⟨∅⟩

def statusOf (registry : InstrumentStatusRegistry) (symbol : Symbol) : InstrumentStatus :=
  registry.statuses[symbol]?.getD .active

def isAcceptingOrders (U : Upstream) (registry : InstrumentStatusRegistry) (symbol : Symbol) : Bool :=
  U.isAcceptingOrders (registry.statusOf symbol)

def tryTransition (U : Upstream) (registry : InstrumentStatusRegistry) (symbol : Symbol)
    (target : InstrumentStatus) : Except String InstrumentStatus × InstrumentStatusRegistry :=
  if U.canTransition (registry.statusOf symbol) target then
    (.ok target, ⟨registry.statuses.insert symbol target⟩)
  else
    (.error ("illegal instrument status transition from " ++ U.displayStatus (registry.statusOf symbol) ++
      " to " ++ U.displayStatus target), registry)

end InstrumentStatusRegistry

structure CapturedFills where
  fills : List Fill
  takerFilled : Nat
  filledMakerIds : List Nat

def CapturedFills.none : CapturedFills := ⟨[], 0, []⟩

structure AddResult where
  fills : List Fill
  restingQuantity : Nat
  stpCancelled : List CancelledLeg
  reason : String
  deriving DecidableEq, Repr

/-- What both placement paths hand to a leaf. -/
structure Placement where
  symbol : Symbol
  orderId : VenueOrderId
  account : AccountId
  owner : Hash32
  side : Side
  quantity : Nat
  timeInForce : TimeInForce
  deriving DecidableEq, Repr

def AddOrder.placement (order : AddOrder) : Placement :=
  ⟨order.symbol, order.orderId, order.account, order.owner, order.side, order.quantity, order.timeInForce⟩

/-- The replacement inherits the owner of the order it replaces. -/
def Replace.placement (order : Replace) (owner : Hash32) : Placement :=
  ⟨order.symbol, order.newOrderId, order.account, owner, order.side, order.quantity, order.timeInForce⟩

def Placement.record (placement : Placement) : RestingRecord :=
  ⟨placement.symbol, placement.orderId, placement.account, placement.owner, placement.side⟩

def engineOrderId (sequence : Nat) : Nat := sequence

def tifRests : TimeInForce → Bool
  | .gtc | .gtd _ | .day => true
  | .ioc | .fok => false

def addHasMutation (add : AddResult) : Bool :=
  !add.fills.isEmpty || 0 < add.restingQuantity || !add.stpCancelled.isEmpty

def rejectReason (reason : String) : String :=
  if reason = "" then "order was not fillable and did not rest" else reason

def classifyAddLeg (add : AddResult) : AddOutcome :=
  if !addHasMutation add then .rejected .notFillable (rejectReason add.reason)
  else if 0 < add.restingQuantity then .rested add.fills add.restingQuantity add.stpCancelled
  else .filled add.fills add.stpCancelled

/-- The order path's reading of a finished limit add. -/
def limitOutcome (add : AddResult) : VenueOutcome :=
  if addHasMutation add then .added add.fills add.restingQuantity add.stpCancelled
  else .rejected .notFillable (rejectReason add.reason)

section Leaf
variable {U : Upstream}

def ownerRestingIds (leaf : U.Leaf) (owner : Hash32) : List Nat := (U.ordersByUser leaf owner).dedup

def lastTradeSeq (leaf : U.Leaf) : Option Nat := (U.lastTradeResult leaf).map (·.engineSeq)

def slotTradeAfter (leaf : U.Leaf) (beforeSeq : Option Nat) : Option TradeResult :=
  match U.lastTradeResult leaf, beforeSeq with
  | some trade, none => some trade
  | some trade, some before => if before < trade.engineSeq then some trade else none
  | none, _ => none

def perLegFee (U : Upstream) (schedule : Option FeeSchedule) (price quantity : Nat) (isMaker : Bool) :
    Except MoneyError Int :=
  match schedule with
  | none => .ok 0
  | some schedule =>
    if 2 ^ 128 ≤ price * quantity then .error .overflow
    else
      match U.calculateFee schedule (price * quantity) isMaker with
      | .error _ => .error .overflow
      | .ok fee => if -2 ^ 63 ≤ fee ∧ fee < 2 ^ 63 then .ok fee else .error .overflow

/-- The identity of a match's maker; the defensive arm keeps an unregistered one attributable. -/
def makerIdentity (U : Upstream) (registry : OrderRegistry) (makerOrderId : Nat) :
    VenueOrderId × AccountId × Hash32 :=
  match registry.resting[makerOrderId]? with
  | some record => (record.venueOrderId, record.account, record.owner)
  | none => (U.displayOrderId makerOrderId, "unknown", 0)

/-- The maker leg and the taker leg of one trade. -/
def tradeLegs (U : Upstream) (ctx : ExecutionContext) (registry : OrderRegistry) (taker : Placement)
    (schedule : Option FeeSchedule) (index : Nat) (trade : Trade) : Except MoneyError (List Fill) :=
  let executionId := ctx.lineageId.executionId ctx.underlying ctx.sequence index
  let maker := makerIdentity U registry trade.makerOrderId
  match perLegFee U schedule trade.price trade.quantity true with
  | .error error => .error error
  | .ok makerFee =>
    match perLegFee U schedule trade.price trade.quantity false with
    | .error error => .error error
    | .ok takerFee => .ok
      [⟨executionId, maker.1, maker.2.1, maker.2.2, trade.makerSide, .maker, trade.price, trade.quantity, makerFee⟩,
        ⟨executionId, taker.orderId, taker.account, taker.owner, trade.takerSide, .taker, trade.price,
          trade.quantity, takerFee⟩]

/-- The loop over the trades: the index fits 32 bits, the price and the running total 64. -/
def tradesLegs (U : Upstream) (ctx : ExecutionContext) (registry : OrderRegistry) (taker : Placement)
    (schedule : Option FeeSchedule) : Nat → Nat → List Trade → Except MoneyError (List Fill × Nat)
  | _, takerFilled, [] => .ok ([], takerFilled)
  | index, takerFilled, trade :: rest =>
    if 2 ^ 32 ≤ index ∨ 2 ^ 64 ≤ trade.price ∨ u64Max < takerFilled + trade.quantity then .error .overflow
    else
      match tradeLegs U ctx registry taker schedule index trade with
      | .error error => .error error
      | .ok legs =>
        match tradesLegs U ctx registry taker schedule (index + 1) (takerFilled + trade.quantity) rest with
        | .error error => .error error
        | .ok (fills, total) => .ok (legs ++ fills, total)

def buildFills (U : Upstream) (ctx : ExecutionContext) (registry : OrderRegistry) (matched : MatchResult)
    (taker : Placement) (schedule : Option FeeSchedule) : Except MoneyError CapturedFills :=
  match tradesLegs U ctx registry taker schedule 0 0 matched.trades with
  | .error error => .error error
  | .ok (fills, takerFilled) => .ok ⟨fills, takerFilled, matched.filledOrderIds⟩

/-- The fills of an add that failed: only the armed trade listener has them. -/
def slotFills (ctx : ExecutionContext) (registry : OrderRegistry) (leaf : U.Leaf) (beforeSeq : Option Nat)
    (taker : Placement) (schedule : Option FeeSchedule) : Except MoneyError CapturedFills :=
  match slotTradeAfter leaf beforeSeq with
  | some trade => buildFills U ctx registry trade.matchResult taker schedule
  | none => .ok .none

def stpRemoved (before after filled : List Nat) (incoming : Nat) : List Nat :=
  before.filter fun id => id ≠ incoming ∧ id ∉ after ∧ id ∉ filled

def stpLeg (record : RestingRecord) : CancelledLeg :=
  ⟨record.venueOrderId, record.owner, record.symbol, record.side, .selfTradePrevention⟩

/-- `before` is iterated as a hash set. -/
def stpCancelledDiff (order : VisitOrder) (round : Nat) (registry : OrderRegistry)
    (before after filled : List Nat) (incoming : Nat) : List CancelledLeg × OrderRegistry :=
  let removed := stpRemoved (visit order round before) after filled incoming
  (sortByKey CancelledLeg.orderId (removed.filterMap fun id => registry.resting[id]?.map stpLeg),
    registry.removeAll removed)

/-- The shared tail of the two matching paths: prune the consumed makers, then the STP removals. -/
def settleMatch (order : VisitOrder) (ctx : ExecutionContext) (registry : OrderRegistry)
    (captured : CapturedFills) (stpActive : Bool) (before after : List Nat) :
    List CancelledLeg × OrderRegistry :=
  let registry := registry.removeAll captured.filledMakerIds
  if stpActive then
    stpCancelledDiff order ctx.sequence registry before after captured.filledMakerIds (engineOrderId ctx.sequence)
  else ([], registry)

def stpActive (leaf : U.Leaf) : Bool := U.stpMode leaf ≠ .none

def runAdd (order : VisitOrder) (ctx : ExecutionContext) (registry : OrderRegistry) (leaf : U.Leaf)
    (placement : Placement) (limitPrice : Nat) : AddResult × OrderRegistry × U.Leaf :=
  let armed := U.armTradeCapture leaf
  let engineId := engineOrderId ctx.sequence
  let added := U.addLimitOrder armed
    ⟨engineId, placement.side, limitPrice, placement.quantity, placement.timeInForce, placement.owner⟩
  let captured := match added.1 with
    | .ok trade => buildFills U ctx registry trade.matchResult placement (U.feeSchedule armed)
    | .error _ => slotFills ctx registry added.2 (lastTradeSeq armed) placement (U.feeSchedule armed)
  let reason := match added.1 with
    | .ok _ => ""
    | .error error => error
  match captured with
  | .error _ => (⟨[], 0, [], redactedInternalMessage⟩, registry, added.2)
  | .ok captured =>
    let settled := settleMatch order ctx registry captured (stpActive armed)
      (ownerRestingIds armed placement.owner) (ownerRestingIds added.2 placement.owner)
    let rests := added.1.isOk && tifRests placement.timeInForce
    let restingQuantity := if rests then placement.quantity - captured.takerFilled else 0
    let registry := if 0 < restingQuantity then settled.2.registerResting engineId placement.record else settled.2
    (⟨captured.fills, restingQuantity, settled.1, reason⟩, registry, added.2)

/-- The depth a market order of a side meets. -/
def oppositeDepth (leaf : U.Leaf) : Side → Except String Nat
  | .buy => U.totalAskDepth leaf
  | .sell => U.totalBidDepth leaf

/-- Only a depth read of zero takes the empty-book path. -/
def executeMarket (order : VisitOrder) (ctx : ExecutionContext) (registry : OrderRegistry) (leaf : U.Leaf)
    (placement : Placement) : VenueOutcome × OrderRegistry × U.Leaf :=
  let armed := U.armTradeCapture leaf
  match oppositeDepth armed placement.side with
  | .ok 0 => (.market [] placement.quantity [], registry, armed)
  | _ =>
    let matched := U.submitMarketOrder armed (engineOrderId ctx.sequence) placement.quantity placement.side
      placement.owner
    let captured := match matched.1 with
      | .ok result =>
        match U.tradeResultNew result with
        | .ok trade => buildFills U ctx registry trade.matchResult placement (U.feeSchedule armed)
        | .error _ => .error .overflow
      | .error _ => slotFills ctx registry matched.2 (lastTradeSeq armed) placement (U.feeSchedule armed)
    match captured with
    | .error _ => (.market [] placement.quantity [], registry, matched.2)
    | .ok captured =>
      let settled := settleMatch order ctx registry captured (stpActive armed)
        (ownerRestingIds armed placement.owner) (ownerRestingIds matched.2 placement.owner)
      (.market captured.fills (placement.quantity - captured.takerFilled) settled.1, settled.2, matched.2)

end Leaf

namespace UnderlyingOrderBook
variable {U : Upstream}

def crossUnderlying (symbol : Symbol) (expected : String) : String :=
  "cross-underlying symbol '" ++ symbol ++ "' does not match underlying '" ++ expected ++ "'"

def resolveLeafVivify (book : UnderlyingOrderBook U) (symbol : Symbol) :
    Except String (LeafAddress × UnderlyingOrderBook U) :=
  match U.parse symbol with
  | .error error => .error error
  | .ok parsed =>
    if parsed.underlying ≠ book.underlying then .error (crossUnderlying symbol book.underlying)
    else .ok (parsed.address, book.vivify parsed.address)

def resolveLeafRead (book : UnderlyingOrderBook U) (symbol : Symbol) : Option (LeafAddress × U.Leaf) :=
  match U.parse symbol with
  | .error _ => none
  | .ok parsed =>
    if parsed.underlying ≠ book.underlying then none
    else (book.leaf? parsed.address).map fun leaf => (parsed.address, leaf)

end UnderlyingOrderBook

/-- The state a command is executed on. -/
structure SequencedState (U : Upstream) where
  underlyingBook : UnderlyingOrderBook U
  registry : OrderRegistry
  idempotency : IdempotencyMap
  instrumentStatus : InstrumentStatusRegistry

def massCancelMatches (U : Upstream) (record : RestingRecord) (scope : MassCancelScope)
    (scopeExpiry : Option String) (cancelType : MassCancelType) (accountScope : Option AccountId) : Bool :=
  let accountMatches := match accountScope with
    | some account => record.account = account
    | none => true
  let typeMatches := match cancelType with
    | .all => true
    | .bySide side => record.side = side
    | .byUser owner => record.owner = owner
  let scopeMatches := match scope with
    | .underlying => true
    | .book symbol => record.symbol = symbol
    | .expiration _ =>
      match U.parse record.symbol with
      | .ok parsed => some parsed.expirationStr = scopeExpiry
      | .error _ => false
    | .strike _ strike =>
      match U.parse record.symbol with
      | .ok parsed => some parsed.expirationStr = scopeExpiry ∧ parsed.strike = strike
      | .error _ => false
  accountMatches && typeMatches && scopeMatches

/-- The expiry of a scope that has one, in canonical form. -/
def scopeExpiry (U : Upstream) : MassCancelScope → Option (Except String String)
  | .expiration expiry | .strike expiry _ => some (U.formatExpirationYyyymmdd expiry)
  | .underlying | .book _ => none

def massCancelLeg (record : RestingRecord) : CancelledLeg :=
  ⟨record.venueOrderId, record.owner, record.symbol, record.side, .massCancel⟩

namespace SequencedState
variable {U : Upstream}

def fromBook (book : UnderlyingOrderBook U) : SequencedState U := ⟨book, .new, ∅, .new⟩

def new (underlying : String) : SequencedState U := fromBook (.new underlying)

/-- Write a leaf and the registry back. -/
def commitLeaf (state : SequencedState U) (address : LeafAddress) (registry : OrderRegistry)
    (leaf : U.Leaf) : SequencedState U :=
  { state with underlyingBook := state.underlyingBook.setLeaf address leaf, registry := registry }

def instrumentNotActiveReason (U : Upstream) (symbol : Symbol) (status : InstrumentStatus) : String :=
  "instrument " ++ symbol ++ " is " ++ U.displayStatus status ++ " and is not accepting orders"

def executeAddOrder (order : VisitOrder) (state : SequencedState U) (ctx : ExecutionContext)
    (placement : Placement) (orderType : OrderType) (limitPrice : Option Nat) :
    VenueOutcome × SequencedState U :=
  match state.underlyingBook.resolveLeafVivify placement.symbol with
  | .error reason => (.rejected .invalidOrder reason, state)
  | .ok (address, book) =>
    let state := { state with underlyingBook := book }
    if !state.instrumentStatus.isAcceptingOrders U placement.symbol then
      (.rejected .instrumentNotActive (instrumentNotActiveReason U placement.symbol
        (state.instrumentStatus.statusOf placement.symbol)), state)
    else
      match orderType, limitPrice with
      | .market, _ =>
        let matched := executeMarket order ctx state.registry (book.leafAt address) placement
        (matched.1, state.commitLeaf address matched.2.1 matched.2.2)
      | .limit, none => (.rejected .invalidOrder "limit order requires a limit price", state)
      | .limit, some price =>
        let added := runAdd order ctx state.registry (book.leafAt address) placement price
        (limitOutcome added.1, state.commitLeaf address added.2.1 added.2.2)

def fingerprint (order : AddOrder) : IdempotencyFingerprint :=
  ⟨order.symbol, order.side, order.orderType, order.limitPrice, order.quantity, order.timeInForce⟩

def addWithIdempotency (visits : VisitOrder) (state : SequencedState U) (ctx : ExecutionContext)
    (order : AddOrder) : VenueOutcome × SequencedState U :=
  match order.clientOrderId with
  | none => state.executeAddOrder visits ctx order.placement order.orderType order.limitPrice
  | some clientOrderId =>
    match state.idempotency[(order.account, clientOrderId)]? with
    | some entry =>
      if entry.fingerprint = fingerprint order then
        (.duplicate entry.orderId entry.sequence entry.terminal, state)
      else (.rejected .invalidOrder "client_order_id was reused with a different order", state)
    | none =>
      let (outcome, state) := state.executeAddOrder visits ctx order.placement order.orderType order.limitPrice
      (outcome, { state with
        idempotency := state.idempotency.insert (order.account, clientOrderId)
          ⟨fingerprint order, order.orderId, ctx.sequence, outcome⟩ })

def executeCancel (state : SequencedState U) (symbol : Symbol) (orderId : VenueOrderId)
    (account : AccountId) : VenueOutcome × SequencedState U :=
  match state.underlyingBook.resolveLeafRead symbol with
  | none => (.rejected .notFound "order not found", state)
  | some (address, leaf) =>
    match state.registry.venueToEngine[orderId]? with
    | none => (.rejected .notFound "order not found", state)
    | some engineId =>
      if !state.registry.accountOwns engineId account then (.rejected .notOwner notOrderOwnerReason, state)
      else
        match U.cancelOrder leaf engineId with
        | (.ok true, leaf) =>
          (.cancelled orderId, state.commitLeaf address (state.registry.removeResting engineId) leaf)
        | (.ok false, leaf) =>
          (.rejected .notResting "order is not resting", state.commitLeaf address state.registry leaf)
        | (.error error, leaf) => (.rejected .internal error, state.commitLeaf address state.registry leaf)

/-- Cancel, then add, in one turn. No status gate stands on this path. -/
def executeReplace (visits : VisitOrder) (state : SequencedState U) (ctx : ExecutionContext)
    (order : Replace) : VenueOutcome × SequencedState U :=
  match state.underlyingBook.resolveLeafVivify order.symbol with
  | .error reason => (.rejected .invalidOrder reason, state)
  | .ok (address, book) =>
    let state := { state with underlyingBook := book }
    match state.registry.venueToEngine[order.orderId]? with
    | none => (.rejected .notFound "order not found", state)
    | some engineId =>
      if !state.registry.accountOwns engineId order.account then
        (.rejected .notOwner notOrderOwnerReason, state)
      else
        let owner := (state.registry.resting[engineId]?.map (·.owner)).getD 0
        match U.cancelOrder (book.leafAt address) engineId with
        | (.ok true, leaf) =>
          let registry := state.registry.removeResting engineId
          match order.limitPrice with
          | some price =>
            let added := runAdd visits ctx registry leaf (order.placement owner) price
            (.replace true (classifyAddLeg added.1), state.commitLeaf address added.2.1 added.2.2)
          | none =>
            (.replace true (.rejected .invalidOrder "replacement add requires a limit price"),
              state.commitLeaf address registry leaf)
        | (_, leaf) =>
          (.rejected .notResting "order is not resting", state.commitLeaf address state.registry leaf)

def executeSetInstrumentStatus (state : SequencedState U) (symbol : Symbol) (status : InstrumentStatus) :
    VenueOutcome × SequencedState U :=
  match state.underlyingBook.resolveLeafVivify symbol with
  | .error reason => (.rejected .invalidOrder reason, state)
  | .ok (_, book) =>
    let state := { state with underlyingBook := book }
    match state.instrumentStatus.tryTransition U symbol status with
    | (.ok applied, registry) =>
      (.instrumentStatusChanged symbol applied, { state with instrumentStatus := registry })
    | (.error error, _) => (.rejected .invalidOrder error, state)

/-- The orders a sweep selects, sorted by venue order id. -/
def sweepTargets (order : VisitOrder) (round : Nat) (state : SequencedState U) (scope : MassCancelScope)
    (cancelType : MassCancelType) (accountScope : Option AccountId) : List (Nat × RestingRecord) :=
  let expiry := (scopeExpiry U scope).bind Except.toOption
  sortByKey (fun target => target.2.venueOrderId)
    ((visit order round state.registry.resting.toList).filter fun target =>
      massCancelMatches U target.2 scope expiry cancelType accountScope)

def cancelTargets (state : SequencedState U) : List (Nat × RestingRecord) →
    List CancelledLeg × SequencedState U
  | [] => ([], state)
  | (engineId, record) :: rest =>
    match state.underlyingBook.resolveLeafRead record.symbol with
    | none => state.cancelTargets rest
    | some (address, leaf) =>
      match U.cancelOrder leaf engineId with
      | (.ok true, leaf) =>
        let (legs, last) :=
          (state.commitLeaf address (state.registry.removeResting engineId) leaf).cancelTargets rest
        (massCancelLeg record :: legs, last)
      | (_, leaf) => (state.commitLeaf address state.registry leaf).cancelTargets rest

def sweepMatching (order : VisitOrder) (round : Nat) (state : SequencedState U) (scope : MassCancelScope)
    (cancelType : MassCancelType) (accountScope : Option AccountId) :
    List CancelledLeg × SequencedState U :=
  state.cancelTargets (state.sweepTargets order round scope cancelType accountScope)

def executeMassCancel (order : VisitOrder) (round : Nat) (state : SequencedState U) (scope : MassCancelScope)
    (cancelType : MassCancelType) (account : AccountId) : VenueOutcome × SequencedState U :=
  match scopeExpiry U scope with
  | some (.error error) =>
    (.rejected .invalidOrder ("mass-cancel scope expiry is unresolvable: " ++ error), state)
  | _ =>
    let accountScope := match cancelType with
      | .all => none
      | .byUser _ | .bySide _ => some account
    let (affected, state) := state.sweepMatching order round scope cancelType accountScope
    (.massCancelled affected, state)

/-- The distinct symbols that hold a resting order, in the order of the visit. -/
def restingSymbols (order : VisitOrder) (round : Nat) (registry : OrderRegistry) : List Symbol :=
  ((visit order round registry.resting.values).map (·.symbol)).eraseDups

def evictLeaf (nowMs : Nat) (book : UnderlyingOrderBook U) (symbol : Symbol) :
    List Nat × UnderlyingOrderBook U :=
  match book.resolveLeafRead symbol with
  | none => ([], book)
  | some (address, leaf) =>
    match U.evictExpiredOrders leaf nowMs with
    | (.ok ids, leaf) => (ids, book.setLeaf address leaf)
    | (.error _, leaf) => ([], book.setLeaf address leaf)

def evictLeaves (nowMs : Nat) (book : UnderlyingOrderBook U) : List Symbol → List Nat × UnderlyingOrderBook U
  | [] => ([], book)
  | symbol :: rest =>
    let first := evictLeaf nowMs book symbol
    let others := evictLeaves nowMs first.2 rest
    (first.1 ++ others.1, others.2)

/-- The venue ids of the evicted orders that are registered, each pruned as it is met. -/
def pruneEvicted (registry : OrderRegistry) : List Nat → List VenueOrderId × OrderRegistry
  | [] => ([], registry)
  | engineId :: rest =>
    match registry.resting[engineId]? with
    | none => pruneEvicted registry rest
    | some record =>
      let others := pruneEvicted (registry.removeResting engineId) rest
      (record.venueOrderId :: others.1, others.2)

def executeEvictExpired (order : VisitOrder) (round : Nat) (state : SequencedState U) (nowMs : Nat) :
    VenueOutcome × SequencedState U :=
  let swept := evictLeaves nowMs state.underlyingBook (restingSymbols order round state.registry)
  let pruned := pruneEvicted state.registry swept.1
  (.evicted (sortByKey id pruned.1), { state with underlyingBook := swept.2, registry := pruned.2 })

def executeMarketMakerControl (order : VisitOrder) (round : Nat) (state : SequencedState U)
    (knobs : MarketMakerControlKnobs) : VenueOutcome × SequencedState U :=
  if knobs.enabled = some false then
    let (swept, state) := state.sweepMatching order round .underlying (.byUser marketMakerOwner) none
    (.controlApplied swept, state)
  else (.controlApplied [], state)

def execute (order : VisitOrder) (state : SequencedState U) (ctx : ExecutionContext) :
    VenueOutcome × SequencedState U :=
  match ctx.command with
  | .addOrder payload => state.addWithIdempotency order ctx payload
  | .cancelOrder symbol orderId account => state.executeCancel symbol orderId account
  | .replace payload => state.executeReplace order ctx payload
  | .massCancel scope cancelType account => state.executeMassCancel order ctx.sequence scope cancelType account
  | .setInstrumentStatus symbol status => state.executeSetInstrumentStatus symbol status
  | .evictExpiredOrders nowMs => state.executeEvictExpired order ctx.sequence nowMs
  | .marketMakerControl knobs => state.executeMarketMakerControl order ctx.sequence knobs
  | .clock _ | .simStep .. => (.controlApplied [], state)

end SequencedState

/-- The executor of one process: the sequenced state, the knobs its control sink has received if one is
installed, and the order in which its hash maps are iterated. -/
structure MatchingExecutor (U : Upstream) where
  state : SequencedState U
  mmControl : Option (List MarketMakerControlKnobs)
  hashOrder : VisitOrder

namespace MatchingExecutor
variable {U : Upstream}

def new (underlying : String) (hashOrder : VisitOrder) : MatchingExecutor U :=
  ⟨.new underlying, none, hashOrder⟩

def withMmControlSink (executor : MatchingExecutor U) : MatchingExecutor U :=
  { executor with mmControl := some [] }

/-- The live-only effect of a control command. -/
def applyControl (sink : Option (List MarketMakerControlKnobs)) :
    VenueCommand → Option (List MarketMakerControlKnobs)
  | .marketMakerControl knobs => sink.map (· ++ [knobs])
  | _ => sink

end MatchingExecutor

instance (U : Upstream) : CommandExecutor (MatchingExecutor U) where
  execute executor ctx :=
    let (outcome, state) := executor.state.execute executor.hashOrder ctx
    (outcome, { executor with state := state, mmControl := MatchingExecutor.applyControl executor.mmControl ctx.command })

end Fauxchange.Exchange
