import Fauxchange.Fix.Dialect
import Fauxchange.Fix.Timestamp

/-! The typed messages of the dialect. Integers are `Nat`; the width of a field is checked where the
decoder parses it. -/

namespace Fauxchange.Fix
open Exchange

/-- A comp id of at most 32 bytes. -/
abbrev CompId := { value : String // value.utf8ByteSize ≤ 32 }

def CompId.new (value : String) : Option CompId :=
  if short : value.utf8ByteSize ≤ 32 then some ⟨value, short⟩ else none

structure StandardHeader where
  senderCompId : CompId
  targetCompId : CompId
  msgSeqNum : Nat
  sendingTime : UtcTimestamp
  deriving DecidableEq

structure Logon where
  header : StandardHeader
  heartBtInt : Nat
  username : String
  password : String
  resetSeqNumFlag : Option Bool
  deriving DecidableEq

structure Logout where
  header : StandardHeader
  text : Option String
  deriving DecidableEq

structure Heartbeat where
  header : StandardHeader
  testReqId : Option String
  deriving DecidableEq

structure TestRequest where
  header : StandardHeader
  testReqId : String
  deriving DecidableEq

structure ResendRequest where
  header : StandardHeader
  beginSeqNo : Nat
  endSeqNo : Nat
  deriving DecidableEq

structure SequenceReset where
  header : StandardHeader
  newSeqNo : Nat
  gapFillFlag : Option Bool
  deriving DecidableEq

structure Reject where
  header : StandardHeader
  refSeqNum : Nat
  sessionRejectReason : Option SessionRejectReason
  refTagId : Option Nat
  text : Option String
  deriving DecidableEq

structure NewOrderSingle where
  header : StandardHeader
  clOrdId : ClientOrderId
  account : Option AccountId
  symbol : Symbol
  side : OrderSide
  transactTime : UtcTimestamp
  ordType : OrdType
  price : Option Nat
  orderQty : Nat
  timeInForce : FixTif
  expireTime : Option UtcTimestamp
  deriving DecidableEq

structure OrderCancelRequest where
  header : StandardHeader
  origClOrdId : ClientOrderId
  clOrdId : ClientOrderId
  symbol : Symbol
  side : OrderSide
  deriving DecidableEq

structure OrderCancelReplaceRequest where
  header : StandardHeader
  origClOrdId : ClientOrderId
  clOrdId : ClientOrderId
  symbol : Symbol
  side : OrderSide
  ordType : OrdType
  price : Option Nat
  orderQty : Nat
  deriving DecidableEq

structure OrderMassCancelRequest where
  header : StandardHeader
  clOrdId : ClientOrderId
  massCancelRequestType : MassCancelRequestType
  symbol : Option Symbol
  deriving DecidableEq

structure OrderStatusRequest where
  header : StandardHeader
  orderId : Option VenueOrderId
  clOrdId : Option ClientOrderId
  symbol : Symbol
  deriving DecidableEq

structure ExecutionReport where
  header : StandardHeader
  orderId : VenueOrderId
  execId : ExecutionId
  execType : ExecType
  ordStatus : OrdStatus
  symbol : Symbol
  side : OrderSide
  leavesQty : Nat
  cumQty : Nat
  lastQty : Option Nat
  lastPx : Option Nat
  price : Option Nat
  secondaryExecId : Nat
  transactTime : UtcTimestamp
  commission : Option Int
  commType : Option CommType
  lastLiquidityInd : Option LastLiquidityInd
  ordRejReason : Option Nat
  text : Option String
  deriving DecidableEq

structure OrderCancelReject where
  header : StandardHeader
  orderId : VenueOrderId
  clOrdId : ClientOrderId
  origClOrdId : ClientOrderId
  ordStatus : OrdStatus
  cxlRejResponseTo : CxlRejResponseTo
  cxlRejReason : Nat
  text : Option String
  deriving DecidableEq

structure OrderMassCancelReport where
  header : StandardHeader
  massCancelResponse : MassCancelResponse
  totalAffectedOrders : Nat
  affectedOrders : List VenueOrderId
  deriving DecidableEq

structure BusinessMessageReject where
  header : StandardHeader
  refSeqNum : Nat
  refMsgType : String
  businessRejectReason : Nat
  text : Option String
  deriving DecidableEq

structure MarketDataRequest where
  header : StandardHeader
  mdReqId : String
  subscriptionRequestType : SubscriptionRequestType
  marketDepth : Nat
  entryTypes : List MdEntryType
  symbols : List Symbol
  deriving DecidableEq

structure SnapshotEntry where
  entryType : MdEntryType
  price : Nat
  size : Nat
  deriving DecidableEq

structure MarketDataSnapshotFullRefresh where
  header : StandardHeader
  mdReqId : String
  symbol : Symbol
  rptSeq : Nat
  entries : List SnapshotEntry
  deriving DecidableEq

structure IncrementalEntry where
  updateAction : MdUpdateAction
  entryType : MdEntryType
  symbol : Symbol
  price : Nat
  size : Nat
  deriving DecidableEq

structure MarketDataIncrementalRefresh where
  header : StandardHeader
  mdReqId : String
  rptSeq : Nat
  entries : List IncrementalEntry
  deriving DecidableEq

structure MarketDataRequestReject where
  header : StandardHeader
  mdReqId : String
  mdReqRejReason : Nat
  text : Option String
  deriving DecidableEq

inductive DecodedMessage where
  | logon (message : Logon)
  | logout (message : Logout)
  | heartbeat (message : Heartbeat)
  | testRequest (message : TestRequest)
  | resendRequest (message : ResendRequest)
  | sequenceReset (message : SequenceReset)
  | reject (message : Reject)
  | newOrderSingle (message : NewOrderSingle)
  | orderCancelRequest (message : OrderCancelRequest)
  | orderCancelReplaceRequest (message : OrderCancelReplaceRequest)
  | orderMassCancelRequest (message : OrderMassCancelRequest)
  | orderStatusRequest (message : OrderStatusRequest)
  | executionReport (message : ExecutionReport)
  | orderCancelReject (message : OrderCancelReject)
  | orderMassCancelReport (message : OrderMassCancelReport)
  | businessMessageReject (message : BusinessMessageReject)
  | marketDataRequest (message : MarketDataRequest)
  | marketDataSnapshotFullRefresh (message : MarketDataSnapshotFullRefresh)
  | marketDataIncrementalRefresh (message : MarketDataIncrementalRefresh)
  | marketDataRequestReject (message : MarketDataRequestReject)
  deriving DecidableEq

/-- The standard header of any decoded message. -/
def headerOf : DecodedMessage → StandardHeader
  | .logon message => message.header
  | .logout message => message.header
  | .heartbeat message => message.header
  | .testRequest message => message.header
  | .resendRequest message => message.header
  | .sequenceReset message => message.header
  | .reject message => message.header
  | .newOrderSingle message => message.header
  | .orderCancelRequest message => message.header
  | .orderCancelReplaceRequest message => message.header
  | .orderMassCancelRequest message => message.header
  | .orderStatusRequest message => message.header
  | .executionReport message => message.header
  | .orderCancelReject message => message.header
  | .orderMassCancelReport message => message.header
  | .businessMessageReject message => message.header
  | .marketDataRequest message => message.header
  | .marketDataSnapshotFullRefresh message => message.header
  | .marketDataIncrementalRefresh message => message.header
  | .marketDataRequestReject message => message.header

/-- The messages routed to the order path. -/
def isOrderEntryMessage : DecodedMessage → Bool
  | .newOrderSingle _ | .orderCancelRequest _ | .orderCancelReplaceRequest _ | .orderMassCancelRequest _
  | .orderStatusRequest _ => true
  | _ => false

def isApplicationMessage : DecodedMessage → Bool
  | .marketDataRequest _ => true
  | message => isOrderEntryMessage message

/-- The messages whose durable consumption waits for their exchange effect. -/
def isOrderEntryMutation : DecodedMessage → Bool
  | .newOrderSingle _ | .orderCancelRequest _ | .orderCancelReplaceRequest _ | .orderMassCancelRequest _ => true
  | _ => false

inductive Permission where
  | read
  | trade
  | admin
  deriving DecidableEq, Repr

/-- `Admin` implies `Trade`, which implies `Read`. -/
def Permission.grants : Permission → Permission → Bool
  | .admin, _ => true
  | .trade, required => required = .read ∨ required = .trade
  | .read, required => required = .read

def requiredPermission : DecodedMessage → Option Permission
  | .logon _ | .logout _ | .heartbeat _ | .testRequest _ | .resendRequest _ | .sequenceReset _ | .reject _ => none
  | .newOrderSingle _ | .orderCancelRequest _ | .orderCancelReplaceRequest _ | .orderMassCancelRequest _ =>
    some .trade
  | _ => some .read

end Fauxchange.Fix
