import Fauxchange.Fix.OrderFlow
import Fauxchange.Fix.Store
import Fauxchange.Lib.Effects

/-! The acceptor's session: its state, the emission of one outbound frame, the inbound counters, the admission
of a logon, the messages of an admitted session and the cadence tick. -/

namespace Fauxchange.Fix
open Exchange Lib OrderFlow

inductive SessionPhase where
  | awaitingLogon
  | active
  | awaitingResend
  | closing
  deriving DecidableEq, Repr

structure SessionConfig where
  logonTimeoutMs : Nat
  maxHeartBtIntSecs : Nat
  deriving DecidableEq, Repr

inductive SessionError where
  | sequenceExhausted
  | store (error : SessionStoreError)
  | noPeer
  | encode (error : FixEncodeError)
  deriving DecidableEq, Repr

/-- Why a dispatch ends early: an error that seals the session, or a submission that is not answered before
the dispatch is dropped. -/
inductive Halt where
  | sealed (error : SessionError)
  | unanswered
  deriving DecidableEq, Repr

inductive SessionControl where
  | continued
  | close
  deriving DecidableEq, Repr

structure Reaction where
  frames : List Frame
  control : SessionControl
  deriving DecidableEq

namespace Reaction

def cont : Reaction := ⟨[], .continued⟩
def closeSilent : Reaction := ⟨[], .close⟩
def emit (frames : List Frame) : Reaction := ⟨frames, .continued⟩
def emitClose (frames : List Frame) : Reaction := ⟨frames, .close⟩

end Reaction

inductive ActiveDisposition where
  | reacted (reaction : Reaction)
  | route (message : DecodedMessage)
  deriving DecidableEq

structure SessionFsm where
  phase : SessionPhase
  config : SessionConfig
  account : Option AccountId
  permissions : List Permission
  sessionEpoch : Nat
  key : Option SessionKey
  venueComp : Option CompId
  clientComp : Option CompId
  counters : SessionCounters
  heartBtIntMs : Nat
  acceptedAtMs : Nat
  lastInboundMs : Nat
  lastOutboundMs : Nat
  awaitingTestReqSinceMs : Option Nat
  deriving DecidableEq

namespace SessionFsm

def new (config : SessionConfig) (acceptedAtMs : Nat) : SessionFsm where
  phase := .awaitingLogon
  config := config
  account := none
  permissions := []
  sessionEpoch := 0
  key := none
  venueComp := none
  clientComp := none
  counters := .default
  heartBtIntMs := 0
  acceptedAtMs := acceptedAtMs
  lastInboundMs := acceptedAtMs
  lastOutboundMs := acceptedAtMs
  awaitingTestReqSinceMs := none

def hasPermission (fsm : SessionFsm) : Option Permission → Bool
  | none => true
  | some required => fsm.permissions.any fun held => held.grants required

/-- A filled gap ends the wait for the resend. -/
def leaveResend (fsm : SessionFsm) : SessionFsm :=
  if fsm.phase = .awaitingResend then { fsm with phase := .active } else fsm

def setInbound (fsm : SessionFsm) (next : Nat) : SessionFsm :=
  { fsm with counters := { fsm.counters with nextTargetSeq := next } }

end SessionFsm

/-- The economic fields of a placement, to tell a retry from another order under one client id. -/
structure OrderFingerprint where
  symbol : Symbol
  side : OrderSide
  ordType : OrdType
  price : Option Nat
  orderQty : Nat
  timeInForce : FixTif
  expireTime : Option UtcTimestamp
  deriving DecidableEq

def OrderFingerprint.ofNewOrder (order : NewOrderSingle) : OrderFingerprint :=
  ⟨order.symbol, order.side, order.ordType, order.price, order.orderQty, order.timeInForce, order.expireTime⟩

def OrderFingerprint.ofReplace (replace : OrderCancelReplaceRequest) : OrderFingerprint :=
  ⟨replace.symbol, replace.side, replace.ordType, replace.price, replace.orderQty, .gtc, none⟩

/-- What a client id names, from the session's own map or from the venue's index. -/
structure ResolvedOrder where
  orderId : VenueOrderId
  symbol : Symbol
  side : OrderSide
  quantity : Nat
  deriving DecidableEq

def ResolvedOrder.fromIndex (record : ClOrdIdRecord) : ResolvedOrder :=
  ⟨record.orderId, record.symbol, fixSide record.side, record.quantity⟩

structure PlacedOrder extends ResolvedOrder where
  fingerprint : OrderFingerprint
  deriving DecidableEq

/-- The book sides that a market-data request asks for. -/
structure RequestedSides where
  bids : Bool
  asks : Bool
  deriving DecidableEq, Repr

/-- One subscribed symbol, with the last sequence that the client has seen. -/
structure MdSymbolSub where
  mdReqId : String
  sides : RequestedSides
  depth : Option Nat
  baseline : Nat
  deriving DecidableEq, Repr

/-- The session of one connection, with the key whose lease it holds. -/
structure VenueFixSession where
  peer : String
  fsm : SessionFsm
  lease : Option SessionKey
  placed : Std.ExtTreeMap ClientOrderId PlacedOrder
  marketData : Option (Std.ExtTreeMap Symbol MdSymbolSub)

def VenueFixSession.new (peer : String) (config : SessionConfig) (acceptedAtMs : Nat) : VenueFixSession :=
  ⟨peer, .new config acceptedAtMs, none, ∅, none⟩

structure IngressStamp where
  sessionId : String
  msgSeq : Nat
  deriving DecidableEq, Repr

/-- One submission to the exchange; `accepted` is missing where no answer came. -/
structure ExchangeCall where
  key : Option SessionKey
  stamp : IngressStamp
  command : VenueCommand
  accepted : Option Bool
  deriving DecidableEq, Repr

/-- What one dispatch of a session works on: the session, the durable store, the live leases, and a record of
its submissions. -/
structure Dispatch extends VenueFixSession where
  store : FixSessionStore
  leases : List SessionKey
  calls : List ExchangeCall

abbrev SessionM := Fallible Halt Dispatch

def setFsm (change : SessionFsm → SessionFsm) : SessionM Unit :=
  modify fun dispatch => { dispatch with fsm := change dispatch.fsm }

/-- One operation of the store; its failure seals the session. -/
def onStore {α : Type} (operation : FixSessionStore → Except SessionStoreError α × FixSessionStore) : SessionM α :=
  .transition fun dispatch =>
    match operation dispatch.store with
    | (.ok value, store) => (.ok value, { dispatch with store := store })
    | (.error error, store) => (.error (.sealed (.store error)), { dispatch with store := store })

/-- The reply identity is that of the last inbound header. -/
def onInbound (header : StandardHeader) (now : Nat) : SessionM Unit :=
  setFsm fun fsm => { fsm with
    venueComp := some header.targetCompId
    clientComp := some header.senderCompId
    lastInboundMs := now
    awaitingTestReqSinceMs := none }

section Emission
variable [Ironfix]

/-- Stores a frame of a bound session, in one operation with the advanced outbound counter. -/
def storeFrame (key : Option SessionKey) (entry : StoredOutbound) (next : Nat) : SessionM Unit :=
  match key with
  | none => pure ()
  | some key => onStore fun store => store.storeOutboundAndAdvance key entry next

/-- Builds one frame at the next outbound number, stores it, and only then advances in memory. -/
def emit (now : Nat) (build : StandardHeader → Frame) : SessionM Frame := do
  let dispatch ← get
  match dispatch.fsm.venueComp, dispatch.fsm.clientComp with
  | some sender, some target =>
    let seq := dispatch.fsm.counters.nextSenderSeq
    let frame := build ⟨sender, target, seq, .fromEpochMs now⟩
    match frame.encode, checkedNext seq with
    | .error error, _ => throw (.sealed (.encode error))
    | .ok _, none => throw (.sealed .sequenceExhausted)
    | .ok bytes, some next => do
      storeFrame dispatch.fsm.key ⟨seq, frame, bytes.length⟩ next
      setFsm fun fsm => { fsm with
        counters := { fsm.counters with nextSenderSeq := next }
        lastOutboundMs := now }
      pure frame
  | _, _ => throw (.sealed .noPeer)

/-- Emits one frame and goes on. -/
def emitOne (now : Nat) (build : StandardHeader → DecodedMessage) : SessionM Reaction := do
  let frame ← emit now fun header => .message (build header)
  pure (.emit [frame])

def emitReports (now : Nat) : List ExecReportSpec → SessionM (List Frame)
  | [] => pure []
  | spec :: rest => do
    let frame ← emit now fun header => .message (.executionReport (spec.intoReport header))
    let frames ← emitReports now rest
    pure (frame :: frames)

def emitReportSpecs (specs : List ExecReportSpec) (now : Nat) : SessionM Reaction := do
  let frames ← emitReports now specs
  pure (.emit frames)

/-- The terminal frame of a refused logon or of a broken session. -/
def logoutClose (now : Nat) (reason : String) : SessionM Reaction := do
  setFsm fun fsm => { fsm with phase := .closing }
  let frame ← emit now fun header => .message (.logout ⟨header, some reason⟩)
  pure (.emitClose [frame])

end Emission

/-- Saves the counters as they are in memory, both directions. -/
def persistCounters : SessionM Unit := do
  let dispatch ← get
  match dispatch.fsm.key with
  | none => pure ()
  | some key => onStore fun store => store.saveCounters key dispatch.fsm.counters

/-- The deferred inbound advance of a routed mutation, once its exchange effect is committed. -/
def persistInbound : SessionM Unit := persistCounters

def nextInbound : SessionM Nat := do
  let dispatch ← get
  match checkedNext dispatch.fsm.counters.nextTargetSeq with
  | none => throw (.sealed .sequenceExhausted)
  | some next => pure next

def advanceInboundInMemory : SessionM Unit := do
  let next ← nextInbound
  setFsm fun fsm => (fsm.setInbound next).leaveResend

def advanceInbound : SessionM Unit := do
  let next ← nextInbound
  setFsm fun fsm => fsm.setInbound next
  persistCounters

def consumeInbound : SessionM Unit := do
  advanceInbound
  setFsm SessionFsm.leaveResend

section Admission
variable [Ironfix]

/-- The counters that a logon resumes from, with the start of a gap to be requested. -/
def resumeCounters (key : SessionKey) (stored : SessionCounters) (resetFlag : Bool) (logonSeq now : Nat) :
    SessionM (SessionCounters × Option Nat) :=
  if resetFlag then do
    onStore fun store => store.recordReset key
      ⟨now, .logonReset, stored.nextSenderSeq, stored.nextTargetSeq, firstSeqNum, firstSeqNum⟩ .default
    pure ({ SessionCounters.default with nextTargetSeq := firstSeqNum + 1 }, none)
  else if logonSeq = stored.nextTargetSeq then
    match checkedNext logonSeq with
    | none => throw (.sealed .sequenceExhausted)
    | some next => pure ({ stored with nextTargetSeq := next }, none)
  else pure (stored, some stored.nextTargetSeq)

/-- The credential-free acknowledgement, then the request for what is missing. -/
def acknowledgeLogon (heartBtIntSecs : Nat) (resetFlag : Bool) (gapBegin : Option Nat) (now : Nat) :
    SessionM Reaction := do
  let ack ← emit now fun header => .logonAck header heartBtIntSecs resetFlag
  match gapBegin with
  | none => pure (.emit [ack])
  | some first => do
    let resend ← emit now fun header => .message (.resendRequest ⟨header, first, 0⟩)
    pure (.emit [ack, resend])

/-- Admits a verified logon: the presented number is checked against the durable expectation before anything
is bound. -/
def admitLogon (account : AccountId) (permissions : List Permission) (sessionEpoch heartBtIntSecs : Nat)
    (resetFlag : Bool) (logonSeq now : Nat) : SessionM Reaction := do
  let dispatch ← get
  match dispatch.fsm.venueComp, dispatch.fsm.clientComp with
  | some sender, some target => do
    let key : SessionKey := ⟨account, target.val, sender.val⟩
    let stored ← onStore fun store => store.loadCounters key
    if ¬ resetFlag ∧ logonSeq < stored.nextTargetSeq then logoutClose now "MsgSeqNum too low"
    else do
      setFsm fun fsm => { fsm with
        account := some account
        permissions := permissions
        sessionEpoch := sessionEpoch
        heartBtIntMs := heartBtIntSecs * 1000
        key := some key }
      let (counters, gapBegin) ← resumeCounters key stored resetFlag logonSeq now
      setFsm fun fsm => { fsm with counters := counters }
      onStore fun store => store.saveCounters key counters
      setFsm fun fsm => { fsm with phase := if gapBegin.isSome then .awaitingResend else .active }
      acknowledgeLogon heartBtIntSecs resetFlag gapBegin now
  | _, _ => throw (.sealed .noPeer)

end Admission

def ordRejReasonNotAuthorized : Nat := 0
def cxlRejReasonNotAuthorized : Nat := 2
def textNotAuthorized : String := "insufficient permission"

namespace MdRejReason

def duplicate : Nat := 1
def insufficientBandwidth : Nat := 2
def insufficientPermissions : Nat := 3
def unsupportedEntryType : Nat := 8

end MdRejReason

section Replies
variable [Ironfix]

/-- A rejected order has no venue order and no execution: its ids are markers of the session. -/
def rejectedReport (header : StandardHeader) (symbol : Symbol) (side : OrderSide) (price : Option Nat)
    (seq ordRejReason now : Nat) (text : Option String) : ExecutionReport where
  header := header
  orderId := "NONE"
  execId := "REJECT:" ++ toString seq
  execType := .rejected
  ordStatus := .rejected
  symbol := symbol
  side := side
  leavesQty := 0
  cumQty := 0
  lastQty := none
  lastPx := none
  price := price
  secondaryExecId := 0
  transactTime := .fromEpochMs now
  commission := none
  commType := none
  lastLiquidityInd := none
  ordRejReason := some ordRejReason
  text := text

def emitOrderRejectedCode (symbol : Symbol) (side : OrderSide) (price : Option Nat) (ordRejReason : Nat)
    (text : Option String) (now : Nat) : SessionM Reaction := do
  let dispatch ← get
  emitOne now fun header => .executionReport
    (rejectedReport header symbol side price dispatch.fsm.counters.nextSenderSeq ordRejReason now text)

def emitOrderRejected (symbol : Symbol) (side : OrderSide) (price : Option Nat) (reject : FixReject) (now : Nat) :
    SessionM Reaction :=
  emitOrderRejectedCode symbol side price (ordRejReason reject.reason) reject.text now

def emitCancelReject (orderId : VenueOrderId) (origClOrdId clOrdId : ClientOrderId) (responseTo : CxlRejResponseTo)
    (ordStatus : OrdStatus) (reason : Nat) (text : Option String) (now : Nat) : SessionM Reaction :=
  emitOne now fun header => .orderCancelReject
    ⟨header, orderId, clOrdId, origClOrdId, ordStatus, responseTo, reason, text⟩

/-- The reject of a cancel or a replace without the permission. -/
def cancelReject (origClOrdId clOrdId : ClientOrderId) (responseTo : CxlRejResponseTo) (now : Nat) :
    SessionM Reaction :=
  emitCancelReject "NONE" origClOrdId clOrdId responseTo .rejected cxlRejReasonNotAuthorized
    (some textNotAuthorized) now

def emitCancelRejectError (orderId : VenueOrderId) (origClOrdId clOrdId : ClientOrderId)
    (responseTo : CxlRejResponseTo) (ordStatus : OrdStatus) (reject : FixReject) (now : Nat) : SessionM Reaction :=
  emitCancelReject orderId origClOrdId clOrdId responseTo ordStatus (cxlRejReason reject.reason) reject.text now

def emitMassCancelRejected (now : Nat) : SessionM Reaction :=
  emitOne now fun header => .orderMassCancelReport ⟨header, .rejected, 0, []⟩

/-- The acknowledgement with every swept order, then one report an order. -/
def emitMassCancelAccepted (response : MassCancelResponse) (affectedOrders : List VenueOrderId)
    (specs : List ExecReportSpec) (now : Nat) : SessionM Reaction :=
  if u32Max < affectedOrders.length then throw (.sealed .sequenceExhausted)
  else do
    let report ← emit now fun header =>
      .message (.orderMassCancelReport ⟨header, response, affectedOrders.length, affectedOrders⟩)
    let frames ← emitReports now specs
    pure (.emit (report :: frames))

def emitMdSnapshot (mdReqId : String) (symbol : Symbol) (rptSeq : Nat) (entries : List SnapshotEntry) (now : Nat) :
    SessionM Frame :=
  emit now fun header => .message (.marketDataSnapshotFullRefresh ⟨header, mdReqId, symbol, rptSeq, entries⟩)

def emitMdIncremental (mdReqId : String) (rptSeq : Nat) (entries : List IncrementalEntry) (now : Nat) :
    SessionM Frame :=
  emit now fun header => .message (.marketDataIncrementalRefresh ⟨header, mdReqId, rptSeq, entries⟩)

def emitMdRequestReject (mdReqId : String) (reason : Nat) (text : Option String) (now : Nat) : SessionM Reaction :=
  emitOne now fun header => .marketDataRequestReject ⟨header, mdReqId, reason, text⟩

def emitBusinessReject (refSeqNum : Nat) (refMsgType : String) (businessRejectReason : Nat) (text : Option String)
    (now : Nat) : SessionM Reaction :=
  emitOne now fun header => .businessMessageReject ⟨header, refSeqNum, refMsgType, businessRejectReason, text⟩

/-- A session-level reject at the expected inbound number. -/
def sessionReject (now : Nat) (reason : SessionRejectReason) (refTag : Option Nat) : SessionM Reaction := do
  let dispatch ← get
  emitOne now fun header => .reject ⟨header, dispatch.fsm.counters.nextTargetSeq, some reason, refTag, none⟩

/-- The reject of a malformed frame; the inbound counter stays. -/
def rejectDecodeError (error : FixDecodeError) (now : Nat) : SessionM Reaction :=
  match error.rejectRoute with
  | .sessionReject reason refTag => sessionReject now reason refTag
  | .businessMessageReject => do
    let refMsgType := match error with
      | .unsupportedApplicationMsgType msgType => msgType
      | _ => ""
    let dispatch ← get
    emitBusinessReject dispatch.fsm.counters.nextTargetSeq refMsgType businessRejectUnsupportedMsgType
      (some "unsupported message type") now

/-- The reject of a message without the permission, in the context of the message. -/
def permissionReject (message : DecodedMessage) (now : Nat) : SessionM Reaction :=
  match message with
  | .newOrderSingle order =>
    emitOrderRejectedCode order.symbol order.side order.price ordRejReasonNotAuthorized (some textNotAuthorized) now
  | .orderCancelRequest cancel => cancelReject cancel.origClOrdId cancel.clOrdId .orderCancelRequest now
  | .orderCancelReplaceRequest replace =>
    cancelReject replace.origClOrdId replace.clOrdId .orderCancelReplaceRequest now
  | .orderMassCancelRequest _ => emitMassCancelRejected now
  | .marketDataRequest request =>
    emitMdRequestReject request.mdReqId MdRejReason.insufficientPermissions (some textNotAuthorized) now
  | _ => pure .cont

end Replies

section Active
variable [Ironfix]

/-- A gap fill at an old number; it takes no new number and is not stored. -/
def gapFillFrame (fsm : SessionFsm) (atSeq newSeqNo now : Nat) : Except Halt Frame :=
  match fsm.venueComp, fsm.clientComp with
  | some sender, some target =>
    let frame := Frame.message (.sequenceReset ⟨⟨sender, target, atSeq, .fromEpochMs now⟩, newSeqNo, some true⟩)
    match frame.encode with
    | .error error => .error (.sealed (.encode error))
    | .ok _ => .ok frame
  | _, _ => .error (.sealed .noPeer)

/-- The stored frames of a range verbatim, with a gap fill up to the next stored one where the log has none. -/
def servedFrames (gapFill : Nat → Nat → Except Halt Frame) (upper : Nat) :
    Nat → List StoredOutbound → Except Halt (List Frame)
  | seq, [] =>
    if seq ≤ upper then do
      let filled ← gapFill seq (upper + 1)
      .ok [filled]
    else .ok []
  | seq, entry :: rest =>
    if upper < seq then .ok []
    else if entry.seq = seq then do
      let frames ← servedFrames gapFill upper (seq + 1) rest
      .ok (entry.frame :: frames)
    else if entry.seq ≤ upper then do
      let filled ← gapFill seq entry.seq
      let frames ← servedFrames gapFill upper (entry.seq + 1) rest
      .ok (filled :: entry.frame :: frames)
    else do
      let filled ← gapFill seq (upper + 1)
      .ok [filled]

/-- The range is cut to what the venue has sent. -/
def serveResend (resend : ResendRequest) (now : Nat) : SessionM Reaction := do
  let dispatch ← get
  match dispatch.fsm.key with
  | none => throw (.sealed .noPeer)
  | some key => do
    let stored ← onStore fun store => store.outboundRange key resend.beginSeqNo resend.endSeqNo
    let lastSent := max dispatch.fsm.counters.nextSenderSeq firstSeqNum - 1
    let upper := if resend.endSeqNo = 0 then lastSent else min resend.endSeqNo lastSent
    let gapFill := fun atSeq newSeqNo => gapFillFrame dispatch.fsm atSeq newSeqNo now
    match servedFrames gapFill upper resend.beginSeqNo stored with
    | .error halt => throw halt
    | .ok frames => pure (.emit frames)

/-- A gap fill only moves the expectation forward; an administrative reset sets it and is journaled. The
number of the message itself is not looked at. -/
def handleSequenceReset (reset : SequenceReset) (now : Nat) : SessionM Reaction := do
  let dispatch ← get
  match dispatch.fsm.key with
  | none => throw (.sealed .noPeer)
  | some key =>
    if reset.gapFillFlag = some true then
      if dispatch.fsm.counters.nextTargetSeq ≤ reset.newSeqNo then do
        setFsm fun fsm => fsm.setInbound reset.newSeqNo
        persistCounters
        setFsm SessionFsm.leaveResend
        pure .cont
      else pure .cont
    else do
      let counters := dispatch.fsm.counters
      setFsm fun fsm => fsm.setInbound reset.newSeqNo
      onStore fun store => store.recordReset key
        ⟨now, .sequenceReset, counters.nextSenderSeq, counters.nextTargetSeq, counters.nextSenderSeq, reset.newSeqNo⟩
        { counters with nextTargetSeq := reset.newSeqNo }
      setFsm SessionFsm.leaveResend
      pure .cont

/-- The session-level messages, in order. -/
def dispatchActiveBody (message : DecodedMessage) (now : Nat) : SessionM Reaction :=
  match message with
  | .sequenceReset _ | .heartbeat _ | .reject _ => pure .cont
  | .testRequest test => emitOne now fun header => .heartbeat ⟨header, some test.testReqId⟩
  | .resendRequest resend => serveResend resend now
  | .logout _ => do
    setFsm fun fsm => { fsm with phase := .closing }
    let frame ← emit now fun header => .message (.logout ⟨header, none⟩)
    pure (.emitClose [frame])
  | _ => sessionReject now .invalidMsgType (some Tag.msgType)

/-- Whether a new order names an account other than the session's. -/
def foreignAccount (fsm : SessionFsm) : DecodedMessage → Bool
  | .newOrderSingle order => order.account.isSome ∧ order.account ≠ fsm.account
  | _ => false

/-- The permission and the attribution of an application message in order; a mutation is consumed in memory
only. -/
def gateApplication (message : DecodedMessage) (now : Nat) : SessionM ActiveDisposition := do
  let dispatch ← get
  if ¬ dispatch.fsm.hasPermission (requiredPermission message) then do
    let reaction ← permissionReject message now
    consumeInbound
    pure (.reacted reaction)
  else if foreignAccount dispatch.fsm message then do
    let reaction ← sessionReject now .valueIsIncorrect (some Tag.account)
    consumeInbound
    pure (.reacted reaction)
  else do
    if isOrderEntryMutation message then advanceInboundInMemory else consumeInbound
    pure (.route message)

/-- A message against the expected number: past it the gap is requested, below it the message is ignored. -/
def handleInSequence (message : DecodedMessage) (now : Nat) : SessionM ActiveDisposition := do
  let dispatch ← get
  let expected := dispatch.fsm.counters.nextTargetSeq
  if expected < (headerOf message).msgSeqNum then do
    setFsm fun fsm => { fsm with phase := .awaitingResend }
    let reaction ← emitOne now fun header => .resendRequest ⟨header, expected, 0⟩
    pure (.reacted reaction)
  else if (headerOf message).msgSeqNum < expected then pure (.reacted .cont)
  else if isApplicationMessage message then gateApplication message now
  else do
    let reaction ← dispatchActiveBody message now
    consumeInbound
    pure (.reacted reaction)

/-- A message of an admitted session. A sequence reset is taken whatever its own number. -/
def handleActive (message : DecodedMessage) (now : Nat) (revoked : Bool) : SessionM ActiveDisposition := do
  onInbound (headerOf message) now
  if revoked then do
    let reaction ← logoutClose now "account revoked"
    pure (.reacted reaction)
  else match message with
  | .sequenceReset reset => do
    let reaction ← handleSequenceReset reset now
    pure (.reacted reaction)
  | _ => handleInSequence message now

/-- A heartbeat after an interval of outbound silence. -/
def heartbeatDue (now : Nat) : SessionM (List Frame) := do
  let dispatch ← get
  if dispatch.fsm.heartBtIntMs ≤ now - dispatch.fsm.lastOutboundMs then do
    let beat ← emit now fun header => .message (.heartbeat ⟨header, none⟩)
    pure [beat]
  else pure []

/-- A test request after an interval of inbound silence, a close after another one without a reply. -/
def livenessDue (now : Nat) : SessionM Reaction := do
  let dispatch ← get
  match dispatch.fsm.awaitingTestReqSinceMs with
  | none =>
    if dispatch.fsm.heartBtIntMs ≤ now - dispatch.fsm.lastInboundMs then do
      let probe ← emit now fun header =>
        .message (.testRequest ⟨header, "TR-" ++ toString dispatch.fsm.counters.nextSenderSeq⟩)
      setFsm fun fsm => { fsm with awaitingTestReqSinceMs := some now }
      pure (.emit [probe])
    else pure (.emit [])
  | some since =>
    if dispatch.fsm.heartBtIntMs ≤ now - since then logoutClose now "heartbeat timeout" else pure (.emit [])

/-- The logon timeout, the revocation and the heartbeat cadence. -/
def SessionFsm.onTick (now : Nat) (revoked : Bool) : SessionM Reaction := do
  let dispatch ← get
  match dispatch.fsm.phase with
  | .awaitingLogon =>
    if dispatch.fsm.config.logonTimeoutMs ≤ now - dispatch.fsm.acceptedAtMs then do
      setFsm fun fsm => { fsm with phase := .closing }
      pure .closeSilent
    else pure .cont
  | .active | .awaitingResend =>
    if revoked then logoutClose now "account revoked"
    else if dispatch.fsm.heartBtIntMs = 0 then pure .cont
    else do
      let beats ← heartbeatDue now
      let reaction ← livenessDue now
      pure { reaction with frames := beats ++ reaction.frames }
  | .closing => pure .closeSilent

end Active

end Fauxchange.Fix
