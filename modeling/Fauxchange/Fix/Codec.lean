import Fauxchange.Fix.Messages

/-! The tag-value plumbing: the field writer, the typed field reader with its repeating groups, and the
encoder and decoder of every message. `ironfix` frames and parses the fields. -/

namespace Fauxchange.Fix
open Exchange Lib

/-- One tag-value pair; `none` stands for a value that is not UTF-8. -/
structure Field where
  tag : Nat
  value : Option String
  deriving DecidableEq, Repr

inductive FixEncodeError where
  | encode
  deriving DecidableEq, Repr

structure RawMessage where
  beginString : Option String
  msgType : String
  fields : List Field
  deriving DecidableEq, Repr

/-- `ironfix`: the framing encoder, the framing decoder, and the message types it has a name for. -/
class Ironfix where
  finish : List Field → Except FixEncodeError (List UInt8)
  decode : List UInt8 → Option RawMessage
  isNamed : String → Bool

def beginString : String := "FIX.4.4"

namespace FieldWriter

def str (tag : Nat) (value : String) : List Field := [⟨tag, some value⟩]

def optStr (tag : Nat) : Option String → List Field
  | some value => str tag value
  | none => []

def new (msgType : String) : List Field := str Tag.msgType msgType

def u64 (tag value : Nat) : List Field := str tag (toString value)

def optU64 (tag : Nat) : Option Nat → List Field
  | some value => u64 tag value
  | none => []

def optBool (tag : Nat) : Option Bool → List Field
  | some true => str tag "Y"
  | some false => str tag "N"
  | none => []

end FieldWriter

/-- The fields of a message, or of one entry of a repeating group, in wire order. -/
abbrev FieldBag := List Field

/-- `parse::<uN>()`: an optional plus sign, then digits within the width. -/
def parseUint (bound : Nat) (text : String) : Option Nat :=
  let digits := match text.toList with
    | '+' :: rest => rest
    | characters => characters
  if digits = [] then none else checkedDigits bound digits

namespace FieldBag
variable (fields : FieldBag)

/-- The first value of a tag. -/
def find (tag : Nat) : Option (Option String) :=
  (List.find? (fun field => field.tag == tag) fields).map Field.value

def optStr (tag : Nat) : Except FixDecodeError (Option String) :=
  match find fields tag with
  | some (some text) => .ok (some text)
  | some none => .error (.incorrectDataFormat tag "value is not valid utf-8")
  | none => .ok none

def reqStr (tag : Nat) : Except FixDecodeError String := do
  match ← optStr fields tag with
  | some text => .ok text
  | none => .error (.missingRequiredField tag)

def optU64 (tag : Nat) : Except FixDecodeError (Option Nat) := do
  match ← optStr fields tag with
  | none => .ok none
  | some text =>
    match parseUint u64Max text with
    | some value => .ok (some value)
    | none =>
      .error (.incorrectDataFormat tag ("'" ++ truncateUntrusted text ++ "' is not a valid unsigned integer"))

def reqU64 (tag : Nat) : Except FixDecodeError Nat := do
  match ← optU64 fields tag with
  | some value => .ok value
  | none => .error (.missingRequiredField tag)

def reqU32 (tag : Nat) : Except FixDecodeError Nat := do
  let value ← reqU64 fields tag
  if value ≤ u32Max then .ok value
  else .error (.incorrectDataFormat tag ("'" ++ toString value ++ "' exceeds the 32-bit range"))

def optU16 (tag : Nat) : Except FixDecodeError (Option Nat) := do
  match ← optStr fields tag with
  | none => .ok none
  | some text =>
    match parseUint u16Max text with
    | some value => .ok (some value)
    | none =>
      .error (.incorrectDataFormat tag ("'" ++ truncateUntrusted text ++ "' is not a valid 16-bit reason code"))

def reqU16 (tag : Nat) : Except FixDecodeError Nat := do
  match ← optU16 fields tag with
  | some value => .ok value
  | none => .error (.missingRequiredField tag)

def optBool (tag : Nat) : Except FixDecodeError (Option Bool) := do
  match ← optStr fields tag with
  | some "Y" => .ok (some true)
  | some "N" => .ok (some false)
  | some other =>
    .error (.incorrectDataFormat tag ("'" ++ truncateUntrusted other ++ "' is not a FIX boolean (Y/N)"))
  | none => .ok none

/-- The entries of a group region: the delimiter opens one, a member extends it, another tag ends the
region. A member before the first delimiter is an order violation. -/
def splitGroup (countTag declared delimiterTag : Nat) (memberTags : List Nat) :
    Option FieldBag → List Field → Except FixDecodeError (List FieldBag)
  | current, [] => .ok current.toList
  | current, field :: rest =>
    if field.tag = delimiterTag then do
      let later ← splitGroup countTag declared delimiterTag memberTags (some [field]) rest
      .ok (current.toList ++ later)
    else if field.tag ∈ memberTags then
      match current with
      | some entry => splitGroup countTag declared delimiterTag memberTags (some (entry ++ [field])) rest
      | none => .error (.groupCountMismatch countTag declared 0)
    else .ok current.toList

/-- A repeating group with its declared count, one bag an entry. -/
def group (countTag delimiterTag : Nat) (memberTags : List Nat) : Except FixDecodeError (List FieldBag) := do
  let declared ← reqU32 fields countTag
  if maxGroupEntries < declared then .error (.tooManyGroupEntries countTag declared maxGroupEntries)
  else
    let region := (List.dropWhile (fun field => field.tag != countTag) fields).drop 1
    let groups ← splitGroup countTag declared delimiterTag memberTags none region
    if groups.length = declared then .ok groups
    else .error (.groupCountMismatch countTag declared groups.length)

def requiredGroup (countTag delimiterTag : Nat) (memberTags : List Nat) : Except FixDecodeError (List FieldBag) := do
  let groups ← group fields countTag delimiterTag memberTags
  if groups = [] then .error (.emptyGroup countTag) else .ok groups

/-- Whether a tag may stand more than once. -/
def repeatable (symbolRepeatable : Bool) (tag : Nat) : Bool :=
  tag ∈ pureGroupMemberTags || tag == Tag.symbol && symbolRepeatable

def rejectDuplicates (symbolRepeatable : Bool) : List Nat → List Field → Except FixDecodeError Unit
  | _, [] => .ok ()
  | seen, field :: rest =>
    if repeatable symbolRepeatable field.tag then rejectDuplicates symbolRepeatable seen rest
    else if field.tag ∈ seen then .error (.duplicateTag (if field.tag ≤ u16Max then field.tag else u16Max))
    else rejectDuplicates symbolRepeatable (field.tag :: seen) rest

def rejectDuplicateScalarTags (symbolRepeatable : Bool) : Except FixDecodeError Unit :=
  rejectDuplicates symbolRepeatable [] fields

end FieldBag

def UtcTimestamp.parse (tag : Nat) (value : String) : Except FixDecodeError UtcTimestamp :=
  if isValidUtcTimestamp value then .ok ⟨value⟩
  else .error (.incorrectDataFormat tag
    ("'" ++ truncateUntrusted value ++ "' is not a FIX UTC timestamp (YYYYMMDD-HH:MM:SS[.sss])"))

def decodeCompId (tag : Nat) (value : String) : Except FixDecodeError CompId :=
  match CompId.new value with
  | some compId => .ok compId
  | none => .error (.incorrectDataFormat tag "comp id exceeds the 32-byte limit")

/-- `Symbol::parse`: the upstream grammar, then the canonical rendering. -/
def Symbol.parse (U : Upstream) (raw : String) : Except FixDecodeError Symbol :=
  match U.parse raw with
  | .ok parsed => .ok (U.toSymbol parsed)
  | .error reason => .error (.malformedSymbol (truncateUntrusted ("invalid symbol '" ++ raw ++ "': " ++ reason)))

def decodePrice (tag : Nat) (raw : String) : Except FixDecodeError Nat :=
  match parseDecimalToCents raw with
  | .ok cents => .ok cents
  | .error source => .error (.price tag source)

/-- An optional field read through a parser of its text. -/
def decodeOptional {α : Type} (fields : FieldBag) (tag : Nat) (parse : String → Except FixDecodeError α) :
    Except FixDecodeError (Option α) := do
  match ← fields.optStr tag with
  | some raw => .ok (some (← parse raw))
  | none => .ok none

def decodeOptionalPrice (fields : FieldBag) (tag : Nat) : Except FixDecodeError (Option Nat) :=
  decodeOptional fields tag (decodePrice tag)

def StandardHeader.decode (fields : FieldBag) : Except FixDecodeError StandardHeader := do
  let senderCompId ← decodeCompId Tag.senderCompId (← fields.reqStr Tag.senderCompId)
  let targetCompId ← decodeCompId Tag.targetCompId (← fields.reqStr Tag.targetCompId)
  let msgSeqNum ← fields.reqU64 Tag.msgSeqNum
  let sendingTime ← UtcTimestamp.parse Tag.sendingTime (← fields.reqStr Tag.sendingTime)
  .ok { senderCompId, targetCompId, msgSeqNum, sendingTime }

def StandardHeader.encode (header : StandardHeader) : List Field :=
  FieldWriter.str Tag.senderCompId header.senderCompId.val ++
  FieldWriter.str Tag.targetCompId header.targetCompId.val ++
  FieldWriter.u64 Tag.msgSeqNum header.msgSeqNum ++
  FieldWriter.str Tag.sendingTime header.sendingTime.value

section Encoders
open FieldWriter

def Logon.encode (message : Logon) : List Field :=
  new "A" ++ message.header.encode ++ u64 Tag.encryptMethod 0 ++ u64 Tag.heartBtInt message.heartBtInt ++
  str Tag.username message.username ++ str Tag.password message.password ++
  optBool Tag.resetSeqNumFlag message.resetSeqNumFlag

def Logout.encode (message : Logout) : List Field :=
  new "5" ++ message.header.encode ++ optStr Tag.text message.text

def Heartbeat.encode (message : Heartbeat) : List Field :=
  new "0" ++ message.header.encode ++ optStr Tag.testReqId message.testReqId

def TestRequest.encode (message : TestRequest) : List Field :=
  new "1" ++ message.header.encode ++ str Tag.testReqId message.testReqId

def ResendRequest.encode (message : ResendRequest) : List Field :=
  new "2" ++ message.header.encode ++ u64 Tag.beginSeqNo message.beginSeqNo ++ u64 Tag.endSeqNo message.endSeqNo

def SequenceReset.encode (message : SequenceReset) : List Field :=
  new "4" ++ message.header.encode ++ u64 Tag.newSeqNo message.newSeqNo ++
  optBool Tag.gapFillFlag message.gapFillFlag

def Reject.encode (message : Reject) : List Field :=
  new "3" ++ message.header.encode ++ u64 Tag.refSeqNum message.refSeqNum ++
  optU64 Tag.refTagId message.refTagId ++
  optU64 Tag.sessionRejectReason (message.sessionRejectReason.map SessionRejectReason.toFix) ++
  optStr Tag.text message.text

def NewOrderSingle.encode (message : NewOrderSingle) : List Field :=
  new "D" ++ message.header.encode ++ str Tag.clOrdId message.clOrdId ++ optStr Tag.account message.account ++
  str Tag.symbol message.symbol ++ str Tag.side (toFix message.side) ++
  str Tag.transactTime message.transactTime.value ++ str Tag.ordType (toFix message.ordType) ++
  optStr Tag.price (message.price.map renderCentsToDecimal) ++ u64 Tag.orderQty message.orderQty ++
  str Tag.timeInForce (toFix message.timeInForce) ++
  optStr Tag.expireTime (message.expireTime.map UtcTimestamp.value)

def OrderCancelRequest.encode (message : OrderCancelRequest) : List Field :=
  new "F" ++ message.header.encode ++ str Tag.origClOrdId message.origClOrdId ++
  str Tag.clOrdId message.clOrdId ++ str Tag.symbol message.symbol ++ str Tag.side (toFix message.side)

def OrderCancelReplaceRequest.encode (message : OrderCancelReplaceRequest) : List Field :=
  new "G" ++ message.header.encode ++ str Tag.origClOrdId message.origClOrdId ++
  str Tag.clOrdId message.clOrdId ++ str Tag.symbol message.symbol ++ str Tag.side (toFix message.side) ++
  str Tag.ordType (toFix message.ordType) ++ optStr Tag.price (message.price.map renderCentsToDecimal) ++
  u64 Tag.orderQty message.orderQty

def OrderMassCancelRequest.encode (message : OrderMassCancelRequest) : List Field :=
  new "q" ++ message.header.encode ++ str Tag.clOrdId message.clOrdId ++
  str Tag.massCancelRequestType (toFix message.massCancelRequestType) ++ optStr Tag.symbol message.symbol

def OrderStatusRequest.encode (message : OrderStatusRequest) : List Field :=
  new "H" ++ message.header.encode ++ optStr Tag.orderId message.orderId ++
  optStr Tag.clOrdId message.clOrdId ++ str Tag.symbol message.symbol

def ExecutionReport.encode (message : ExecutionReport) : List Field :=
  new "8" ++ message.header.encode ++ str Tag.orderId message.orderId ++ str Tag.execId message.execId ++
  str Tag.execType (toFix message.execType) ++ str Tag.ordStatus (toFix message.ordStatus) ++
  str Tag.symbol message.symbol ++ str Tag.side (toFix message.side) ++ u64 Tag.leavesQty message.leavesQty ++
  u64 Tag.cumQty message.cumQty ++ optU64 Tag.lastQty message.lastQty ++
  optStr Tag.lastPx (message.lastPx.map renderCentsToDecimal) ++
  optStr Tag.price (message.price.map renderCentsToDecimal) ++
  u64 Tag.secondaryExecId message.secondaryExecId ++ str Tag.transactTime message.transactTime.value ++
  optStr Tag.commission (message.commission.map renderSignedCentsToDecimal) ++
  optStr Tag.commType (message.commType.map toFix) ++
  optStr Tag.lastLiquidityInd (message.lastLiquidityInd.map toFix) ++
  optU64 Tag.ordRejReason message.ordRejReason ++ optStr Tag.text message.text

def OrderCancelReject.encode (message : OrderCancelReject) : List Field :=
  new "9" ++ message.header.encode ++ str Tag.orderId message.orderId ++ str Tag.clOrdId message.clOrdId ++
  str Tag.origClOrdId message.origClOrdId ++ str Tag.ordStatus (toFix message.ordStatus) ++
  str Tag.cxlRejResponseTo (toFix message.cxlRejResponseTo) ++ u64 Tag.cxlRejReason message.cxlRejReason ++
  optStr Tag.text message.text

def OrderMassCancelReport.encode (message : OrderMassCancelReport) : List Field :=
  new "r" ++ message.header.encode ++ str Tag.massCancelResponse (toFix message.massCancelResponse) ++
  u64 Tag.totalAffectedOrders message.totalAffectedOrders ++
  u64 Tag.noAffectedOrders message.affectedOrders.length ++
  message.affectedOrders.flatMap (str Tag.affectedOrderId)

def BusinessMessageReject.encode (message : BusinessMessageReject) : List Field :=
  new "j" ++ message.header.encode ++ u64 Tag.refSeqNum message.refSeqNum ++
  str Tag.refMsgType message.refMsgType ++ u64 Tag.businessRejectReason message.businessRejectReason ++
  optStr Tag.text message.text

def MarketDataRequest.encode (message : MarketDataRequest) : List Field :=
  new "V" ++ message.header.encode ++ str Tag.mdReqId message.mdReqId ++
  str Tag.subscriptionRequestType (toFix message.subscriptionRequestType) ++
  u64 Tag.marketDepth message.marketDepth ++ u64 Tag.noMdEntryTypes message.entryTypes.length ++
  message.entryTypes.flatMap (fun entryType => str Tag.mdEntryType (toFix entryType)) ++
  u64 Tag.noRelatedSym message.symbols.length ++ message.symbols.flatMap (str Tag.symbol)

def SnapshotEntry.encode (entry : SnapshotEntry) : List Field :=
  str Tag.mdEntryType (toFix entry.entryType) ++ str Tag.mdEntryPx (renderCentsToDecimal entry.price) ++
  u64 Tag.mdEntrySize entry.size

def MarketDataSnapshotFullRefresh.encode (message : MarketDataSnapshotFullRefresh) : List Field :=
  new "W" ++ message.header.encode ++ str Tag.mdReqId message.mdReqId ++ str Tag.symbol message.symbol ++
  u64 Tag.rptSeq message.rptSeq ++ u64 Tag.noMdEntries message.entries.length ++
  message.entries.flatMap SnapshotEntry.encode

def IncrementalEntry.encode (entry : IncrementalEntry) : List Field :=
  str Tag.mdUpdateAction (toFix entry.updateAction) ++ str Tag.mdEntryType (toFix entry.entryType) ++
  str Tag.symbol entry.symbol ++ str Tag.mdEntryPx (renderCentsToDecimal entry.price) ++
  u64 Tag.mdEntrySize entry.size

def MarketDataIncrementalRefresh.encode (message : MarketDataIncrementalRefresh) : List Field :=
  new "X" ++ message.header.encode ++ str Tag.mdReqId message.mdReqId ++ u64 Tag.rptSeq message.rptSeq ++
  u64 Tag.noMdEntries message.entries.length ++ message.entries.flatMap IncrementalEntry.encode

def MarketDataRequestReject.encode (message : MarketDataRequestReject) : List Field :=
  new "Y" ++ message.header.encode ++ str Tag.mdReqId message.mdReqId ++
  u64 Tag.mdReqRejReason message.mdReqRejReason ++ optStr Tag.text message.text

/-- The venue's `Logon (A)` ack, built without the credential fields. -/
def encodeLogonAck (header : StandardHeader) (heartBtIntSecs : Nat) (resetFlag : Bool) : List Field :=
  new "A" ++ header.encode ++ u64 Tag.encryptMethod 0 ++ u64 Tag.heartBtInt heartBtIntSecs ++
  optBool Tag.resetSeqNumFlag (if resetFlag then some true else none)

end Encoders

/-- The fields that a message hands to the framing encoder. -/
def DecodedMessage.fields : DecodedMessage → List Field
  | .logon message => message.encode
  | .logout message => message.encode
  | .heartbeat message => message.encode
  | .testRequest message => message.encode
  | .resendRequest message => message.encode
  | .sequenceReset message => message.encode
  | .reject message => message.encode
  | .newOrderSingle message => message.encode
  | .orderCancelRequest message => message.encode
  | .orderCancelReplaceRequest message => message.encode
  | .orderMassCancelRequest message => message.encode
  | .orderStatusRequest message => message.encode
  | .executionReport message => message.encode
  | .orderCancelReject message => message.encode
  | .orderMassCancelReport message => message.encode
  | .businessMessageReject message => message.encode
  | .marketDataRequest message => message.encode
  | .marketDataSnapshotFullRefresh message => message.encode
  | .marketDataIncrementalRefresh message => message.encode
  | .marketDataRequestReject message => message.encode

def DecodedMessage.encode [Ironfix] (message : DecodedMessage) : Except FixEncodeError (List UInt8) :=
  Ironfix.finish message.fields

section Decoders
variable (U : Upstream) (header : StandardHeader) (fields : FieldBag)

def Logon.decodeBody : Except FixDecodeError Logon := do
  let encryptMethod ← fields.reqU64 Tag.encryptMethod
  if encryptMethod ≠ 0 then .error (.valueIsIncorrect Tag.encryptMethod (toString encryptMethod))
  else
    let heartBtInt ← fields.reqU32 Tag.heartBtInt
    let username ← fields.reqStr Tag.username
    let password ← fields.reqStr Tag.password
    let resetSeqNumFlag ← fields.optBool Tag.resetSeqNumFlag
    .ok { header, heartBtInt, username, password, resetSeqNumFlag }

def Logout.decodeBody : Except FixDecodeError Logout := do
  let text ← fields.optStr Tag.text
  .ok { header, text }

def Heartbeat.decodeBody : Except FixDecodeError Heartbeat := do
  let testReqId ← fields.optStr Tag.testReqId
  .ok { header, testReqId }

def TestRequest.decodeBody : Except FixDecodeError TestRequest := do
  let testReqId ← fields.reqStr Tag.testReqId
  .ok { header, testReqId }

def ResendRequest.decodeBody : Except FixDecodeError ResendRequest := do
  let beginSeqNo ← fields.reqU64 Tag.beginSeqNo
  let endSeqNo ← fields.reqU64 Tag.endSeqNo
  .ok { header, beginSeqNo, endSeqNo }

def SequenceReset.decodeBody : Except FixDecodeError SequenceReset := do
  let newSeqNo ← fields.reqU64 Tag.newSeqNo
  let gapFillFlag ← fields.optBool Tag.gapFillFlag
  .ok { header, newSeqNo, gapFillFlag }

def Reject.decodeBody : Except FixDecodeError Reject := do
  let code ← fields.optU16 Tag.sessionRejectReason
  let refSeqNum ← fields.reqU64 Tag.refSeqNum
  let refTagId ← fields.optU16 Tag.refTagId
  let text ← fields.optStr Tag.text
  .ok { header, refSeqNum, sessionRejectReason := code.map SessionRejectReason.fromFix, refTagId, text }

def NewOrderSingle.decodeBody : Except FixDecodeError NewOrderSingle := do
  let ordType ← (fromFix (← fields.reqStr Tag.ordType) : Except FixDecodeError OrdType)
  let price ← decodeOptionalPrice fields Tag.price
  if ordType = .limit ∧ price = none then .error (.missingConditionalField Tag.price "OrdType=2 (Limit)")
  else
    let timeInForce ← FixTif.fromFixOrDefault (← fields.optStr Tag.timeInForce)
    let expireTime ← decodeOptional fields Tag.expireTime (UtcTimestamp.parse Tag.expireTime)
    if timeInForce = .gtd ∧ expireTime = none then
      .error (.missingConditionalField Tag.expireTime "TimeInForce=6 (GTD)")
    else
      let clOrdId ← fields.reqStr Tag.clOrdId
      let account ← fields.optStr Tag.account
      let symbol ← Symbol.parse U (← fields.reqStr Tag.symbol)
      let side ← fromFix (← fields.reqStr Tag.side)
      let transactTime ← UtcTimestamp.parse Tag.transactTime (← fields.reqStr Tag.transactTime)
      let orderQty ← fields.reqU64 Tag.orderQty
      .ok { header, clOrdId, account, symbol, side, transactTime, ordType, price, orderQty, timeInForce, expireTime }

def OrderCancelRequest.decodeBody : Except FixDecodeError OrderCancelRequest := do
  let origClOrdId ← fields.reqStr Tag.origClOrdId
  let clOrdId ← fields.reqStr Tag.clOrdId
  let symbol ← Symbol.parse U (← fields.reqStr Tag.symbol)
  let side ← fromFix (← fields.reqStr Tag.side)
  .ok { header, origClOrdId, clOrdId, symbol, side }

def OrderCancelReplaceRequest.decodeBody : Except FixDecodeError OrderCancelReplaceRequest := do
  let ordType ← (fromFix (← fields.reqStr Tag.ordType) : Except FixDecodeError OrdType)
  let price ← decodeOptionalPrice fields Tag.price
  if ordType = .limit ∧ price = none then .error (.missingConditionalField Tag.price "OrdType=2 (Limit)")
  else
    let origClOrdId ← fields.reqStr Tag.origClOrdId
    let clOrdId ← fields.reqStr Tag.clOrdId
    let symbol ← Symbol.parse U (← fields.reqStr Tag.symbol)
    let side ← fromFix (← fields.reqStr Tag.side)
    let orderQty ← fields.reqU64 Tag.orderQty
    .ok { header, origClOrdId, clOrdId, symbol, side, ordType, price, orderQty }

def OrderMassCancelRequest.decodeBody : Except FixDecodeError OrderMassCancelRequest := do
  let massCancelRequestType ←
    (fromFix (← fields.reqStr Tag.massCancelRequestType) : Except FixDecodeError MassCancelRequestType)
  let symbol ← decodeOptional fields Tag.symbol (Symbol.parse U)
  if massCancelRequestType = .security ∧ symbol = none then
    .error (.missingConditionalField Tag.symbol "MassCancelRequestType=1 (per security)")
  else
    let clOrdId ← fields.reqStr Tag.clOrdId
    .ok { header, clOrdId, massCancelRequestType, symbol }

def OrderStatusRequest.decodeBody : Except FixDecodeError OrderStatusRequest := do
  let orderId ← fields.optStr Tag.orderId
  let clOrdId ← fields.optStr Tag.clOrdId
  if orderId = none ∧ clOrdId = none then .error (.missingRequiredChoice Tag.orderId Tag.clOrdId)
  else
    let symbol ← Symbol.parse U (← fields.reqStr Tag.symbol)
    .ok { header, orderId, clOrdId, symbol }

def decodeCommission (raw : String) : Except FixDecodeError Int :=
  match parseSignedDecimalToCents raw with
  | .ok cents => .ok cents
  | .error source => .error (.price Tag.commission source)

/-- `Commission` and `CommType` stand together or not at all. -/
def ExecutionReport.decodeBody : Except FixDecodeError ExecutionReport := do
  let commission ← decodeOptional fields Tag.commission decodeCommission
  let commType ← (decodeOptional fields Tag.commType fromFix : Except FixDecodeError (Option CommType))
  if commission.isSome ∧ commType.isNone then
    .error (.missingConditionalField Tag.commType "Commission (12) is present")
  else if commission.isNone ∧ commType.isSome then
    .error (.missingConditionalField Tag.commission "CommType (13) is present")
  else
    let lastLiquidityInd ← decodeOptional fields Tag.lastLiquidityInd fromFix
    let orderId ← fields.reqStr Tag.orderId
    let execId ← fields.reqStr Tag.execId
    let execType ← fromFix (← fields.reqStr Tag.execType)
    let ordStatus ← fromFix (← fields.reqStr Tag.ordStatus)
    let symbol ← Symbol.parse U (← fields.reqStr Tag.symbol)
    let side ← fromFix (← fields.reqStr Tag.side)
    let leavesQty ← fields.reqU64 Tag.leavesQty
    let cumQty ← fields.reqU64 Tag.cumQty
    let lastQty ← fields.optU64 Tag.lastQty
    let lastPx ← decodeOptionalPrice fields Tag.lastPx
    let price ← decodeOptionalPrice fields Tag.price
    let secondaryExecId ← fields.reqU64 Tag.secondaryExecId
    let transactTime ← UtcTimestamp.parse Tag.transactTime (← fields.reqStr Tag.transactTime)
    let ordRejReason ← fields.optU16 Tag.ordRejReason
    let text ← fields.optStr Tag.text
    .ok { header, orderId, execId, execType, ordStatus, symbol, side, leavesQty, cumQty, lastQty, lastPx, price,
          secondaryExecId, transactTime, commission, commType, lastLiquidityInd, ordRejReason, text }

def OrderCancelReject.decodeBody : Except FixDecodeError OrderCancelReject := do
  let orderId ← fields.reqStr Tag.orderId
  let clOrdId ← fields.reqStr Tag.clOrdId
  let origClOrdId ← fields.reqStr Tag.origClOrdId
  let ordStatus ← fromFix (← fields.reqStr Tag.ordStatus)
  let cxlRejResponseTo ← fromFix (← fields.reqStr Tag.cxlRejResponseTo)
  let cxlRejReason ← fields.reqU16 Tag.cxlRejReason
  let text ← fields.optStr Tag.text
  .ok { header, orderId, clOrdId, origClOrdId, ordStatus, cxlRejResponseTo, cxlRejReason, text }

def OrderMassCancelReport.decodeBody : Except FixDecodeError OrderMassCancelReport := do
  let entries ← fields.group Tag.noAffectedOrders Tag.affectedOrderId [Tag.affectedOrderId]
  let affectedOrders ← entries.mapM fun (entry : FieldBag) => entry.reqStr Tag.affectedOrderId
  let massCancelResponse ← fromFix (← fields.reqStr Tag.massCancelResponse)
  let totalAffectedOrders ← fields.reqU32 Tag.totalAffectedOrders
  .ok { header, massCancelResponse, totalAffectedOrders, affectedOrders }

def BusinessMessageReject.decodeBody : Except FixDecodeError BusinessMessageReject := do
  let refSeqNum ← fields.reqU64 Tag.refSeqNum
  let refMsgType ← fields.reqStr Tag.refMsgType
  let businessRejectReason ← fields.reqU16 Tag.businessRejectReason
  let text ← fields.optStr Tag.text
  .ok { header, refSeqNum, refMsgType, businessRejectReason, text }

def MarketDataRequest.decodeBody : Except FixDecodeError MarketDataRequest := do
  let entryTypeEntries ← fields.requiredGroup Tag.noMdEntryTypes Tag.mdEntryType [Tag.mdEntryType]
  let entryTypes ← entryTypeEntries.mapM fun (entry : FieldBag) => do fromFix (← entry.reqStr Tag.mdEntryType)
  let symbolEntries ← fields.requiredGroup Tag.noRelatedSym Tag.symbol [Tag.symbol]
  let symbols ← symbolEntries.mapM fun (entry : FieldBag) => do Symbol.parse U (← entry.reqStr Tag.symbol)
  let mdReqId ← fields.reqStr Tag.mdReqId
  let subscriptionRequestType ← fromFix (← fields.reqStr Tag.subscriptionRequestType)
  let marketDepth ← fields.reqU32 Tag.marketDepth
  .ok { header, mdReqId, subscriptionRequestType, marketDepth, entryTypes, symbols }

def SnapshotEntry.decode (entry : FieldBag) : Except FixDecodeError SnapshotEntry := do
  let entryType ← fromFix (← entry.reqStr Tag.mdEntryType)
  let price ← decodePrice Tag.mdEntryPx (← entry.reqStr Tag.mdEntryPx)
  let size ← entry.reqU64 Tag.mdEntrySize
  .ok { entryType, price, size }

def MarketDataSnapshotFullRefresh.decodeBody : Except FixDecodeError MarketDataSnapshotFullRefresh := do
  let entryBags ← fields.group Tag.noMdEntries Tag.mdEntryType [Tag.mdEntryType, Tag.mdEntryPx, Tag.mdEntrySize]
  let entries ← entryBags.mapM SnapshotEntry.decode
  let mdReqId ← fields.reqStr Tag.mdReqId
  let symbol ← Symbol.parse U (← fields.reqStr Tag.symbol)
  let rptSeq ← fields.reqU64 Tag.rptSeq
  .ok { header, mdReqId, symbol, rptSeq, entries }

def IncrementalEntry.decode (entry : FieldBag) : Except FixDecodeError IncrementalEntry := do
  let updateAction ← fromFix (← entry.reqStr Tag.mdUpdateAction)
  let entryType ← fromFix (← entry.reqStr Tag.mdEntryType)
  let symbol ← Symbol.parse U (← entry.reqStr Tag.symbol)
  let price ← decodePrice Tag.mdEntryPx (← entry.reqStr Tag.mdEntryPx)
  let size ← entry.reqU64 Tag.mdEntrySize
  .ok { updateAction, entryType, symbol, price, size }

def MarketDataIncrementalRefresh.decodeBody : Except FixDecodeError MarketDataIncrementalRefresh := do
  let entryBags ← fields.group Tag.noMdEntries Tag.mdUpdateAction
    [Tag.mdUpdateAction, Tag.mdEntryType, Tag.symbol, Tag.mdEntryPx, Tag.mdEntrySize]
  let entries ← entryBags.mapM (IncrementalEntry.decode U)
  let mdReqId ← fields.reqStr Tag.mdReqId
  let rptSeq ← fields.reqU64 Tag.rptSeq
  .ok { header, mdReqId, rptSeq, entries }

def MarketDataRequestReject.decodeBody : Except FixDecodeError MarketDataRequestReject := do
  let mdReqId ← fields.reqStr Tag.mdReqId
  let mdReqRejReason ← fields.reqU16 Tag.mdReqRejReason
  let text ← fields.optStr Tag.text
  .ok { header, mdReqId, mdReqRejReason, text }

/-- The dispatch on `MsgType`; a type `ironfix` names but the venue has no handler for is a business
reject, an unnamed one a session reject. -/
def decodeBody [Ironfix] (msgType : String) : Except FixDecodeError DecodedMessage :=
  match msgType with
  | "A" => (Logon.decodeBody header fields).map .logon
  | "5" => (Logout.decodeBody header fields).map .logout
  | "0" => (Heartbeat.decodeBody header fields).map .heartbeat
  | "1" => (TestRequest.decodeBody header fields).map .testRequest
  | "2" => (ResendRequest.decodeBody header fields).map .resendRequest
  | "4" => (SequenceReset.decodeBody header fields).map .sequenceReset
  | "3" => (Reject.decodeBody header fields).map .reject
  | "D" => (NewOrderSingle.decodeBody U header fields).map .newOrderSingle
  | "F" => (OrderCancelRequest.decodeBody U header fields).map .orderCancelRequest
  | "G" => (OrderCancelReplaceRequest.decodeBody U header fields).map .orderCancelReplaceRequest
  | "q" => (OrderMassCancelRequest.decodeBody U header fields).map .orderMassCancelRequest
  | "H" => (OrderStatusRequest.decodeBody U header fields).map .orderStatusRequest
  | "8" => (ExecutionReport.decodeBody U header fields).map .executionReport
  | "9" => (OrderCancelReject.decodeBody header fields).map .orderCancelReject
  | "r" => (OrderMassCancelReport.decodeBody header fields).map .orderMassCancelReport
  | "j" => (BusinessMessageReject.decodeBody header fields).map .businessMessageReject
  | "V" => (MarketDataRequest.decodeBody U header fields).map .marketDataRequest
  | "W" => (MarketDataSnapshotFullRefresh.decodeBody U header fields).map .marketDataSnapshotFullRefresh
  | "X" => (MarketDataIncrementalRefresh.decodeBody U header fields).map .marketDataIncrementalRefresh
  | "Y" => (MarketDataRequestReject.decodeBody header fields).map .marketDataRequestReject
  | other =>
    if Ironfix.isNamed other then .error (.unsupportedApplicationMsgType (truncateUntrusted other))
    else .error (.unsupportedMsgType (truncateUntrusted other))

end Decoders

def symbolRepeatsInMsgType (msgType : String) : Bool := msgType = "V" ∨ msgType = "X"

/-- The checks after framing, then the header and the body. -/
def decodeRaw [Ironfix] (U : Upstream) (raw : RawMessage) : Except FixDecodeError DecodedMessage :=
  match raw.beginString with
  | none => .error .framing
  | some actual =>
    if actual ≠ beginString then .error (.beginStringMismatch (truncateUntrusted actual))
    else if maxFieldsPerMessage < raw.fields.length then
      .error (.tooManyFields raw.fields.length maxFieldsPerMessage)
    else do
      FieldBag.rejectDuplicateScalarTags raw.fields (symbolRepeatsInMsgType raw.msgType)
      let header ← StandardHeader.decode raw.fields
      decodeBody U header raw.fields raw.msgType

/-- `decode`: the typed message of a complete frame. -/
def decode [Ironfix] (U : Upstream) (bytes : List UInt8) : Except FixDecodeError DecodedMessage :=
  match Ironfix.decode bytes with
  | none => .error .framing
  | some raw => decodeRaw U raw

end Fauxchange.Fix
