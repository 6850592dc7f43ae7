import Fauxchange.Fix.Templates

/-! What the decoder of each message reads from a frame of it: the message, where its values are ones that their texts
give back. -/

namespace Fauxchange.Fix
open Exchange Lib FieldBag

namespace DecodedMessage

/-- The integers of a message are within the widths of their types. -/
def Widths : DecodedMessage → Prop
  | .logon m => m.heartBtInt ≤ u32Max
  | .resendRequest m => m.beginSeqNo ≤ u64Max ∧ m.endSeqNo ≤ u64Max
  | .sequenceReset m => m.newSeqNo ≤ u64Max
  | .reject m =>
    m.refSeqNum ≤ u64Max ∧ (∀ tag ∈ m.refTagId, tag ≤ u16Max) ∧ ∀ reason ∈ m.sessionRejectReason, reason.toFix ≤ u16Max
  | .newOrderSingle m => (∀ price ∈ m.price, price ≤ u64Max) ∧ m.orderQty ≤ u64Max
  | .orderCancelReplaceRequest m => (∀ price ∈ m.price, price ≤ u64Max) ∧ m.orderQty ≤ u64Max
  | .executionReport m =>
    (m.leavesQty ≤ u64Max ∧ m.cumQty ≤ u64Max ∧ m.secondaryExecId ≤ u64Max) ∧ (∀ qty ∈ m.lastQty, qty ≤ u64Max) ∧
      (∀ price ∈ m.lastPx, price ≤ u64Max) ∧ (∀ price ∈ m.price, price ≤ u64Max) ∧
      (∀ amount ∈ m.commission, i64Min ≤ amount ∧ amount ≤ i64Max) ∧ ∀ reason ∈ m.ordRejReason, reason ≤ u16Max
  | .orderCancelReject m => m.cxlRejReason ≤ u16Max
  | .orderMassCancelReport m => m.totalAffectedOrders ≤ u32Max
  | .businessMessageReject m => m.refSeqNum ≤ u64Max ∧ m.businessRejectReason ≤ u16Max
  | .marketDataRequest m => m.marketDepth ≤ u32Max
  | .marketDataSnapshotFullRefresh m => m.rptSeq ≤ u64Max ∧ ∀ entry ∈ m.entries, entry.price ≤ u64Max ∧ entry.size ≤ u64Max
  | .marketDataIncrementalRefresh m => m.rptSeq ≤ u64Max ∧ ∀ entry ∈ m.entries, entry.price ≤ u64Max ∧ entry.size ≤ u64Max
  | .marketDataRequestReject m => m.mdReqRejReason ≤ u16Max
  | _ => True

/-- What the types of a message guarantee: the widths, and symbols in their canonical form. -/
structure Typed (U : Upstream) (message : DecodedMessage) : Prop where
  sequence : (headerOf message).msgSeqNum ≤ u64Max
  widths : message.Widths
  canonical : ∀ symbol ∈ message.symbols, Symbol.parse U symbol = .ok symbol

/-- What the decoders demand between the fields of a message, and of the sizes of its groups. -/
def Conditions : DecodedMessage → Prop
  | .newOrderSingle m => ¬ (m.ordType = .limit ∧ m.price = none) ∧ ¬ (m.timeInForce = .gtd ∧ m.expireTime = none)
  | .orderCancelReplaceRequest m => ¬ (m.ordType = .limit ∧ m.price = none)
  | .orderMassCancelRequest m => ¬ (m.massCancelRequestType = .security ∧ m.symbol = none)
  | .orderStatusRequest m => ¬ (m.orderId = none ∧ m.clOrdId = none)
  | .executionReport m => m.commission.isSome = m.commType.isSome
  | .orderMassCancelReport m => m.affectedOrders.length ≤ maxGroupEntries
  | .marketDataRequest m =>
    (m.entryTypes ≠ [] ∧ m.entryTypes.length ≤ maxGroupEntries) ∧ m.symbols ≠ [] ∧ m.symbols.length ≤ maxGroupEntries
  | .marketDataSnapshotFullRefresh m => m.entries.length ≤ maxGroupEntries
  | .marketDataIncrementalRefresh m => m.entries.length ≤ maxGroupEntries
  | _ => True

/-- A message that meets its field conditions. -/
structure Meets (message : DecodedMessage) : Prop where
  printable : ∀ text ∈ message.strings, Printable text
  conditions : message.Conditions

/-- The values that are not read back as they were: a reason with a code that has a name of its own, the least amount,
and more increments than the fields of one frame can hold. -/
def Faithful (kept : Nat) : DecodedMessage → Prop
  | .reject m => ∀ code, m.sessionRejectReason = some (.other code) → SessionRejectReason.fromFix code = .other code
  | .executionReport m => m.commission ≠ some i64Min
  | .marketDataIncrementalRefresh m => 8 + 5 * m.entries.length + kept ≤ maxFieldsPerMessage
  | _ => True

/-- Every timestamp has the format that is parsed. -/
def Dated (message : DecodedMessage) : Prop := ∀ timestamp ∈ message.timestamps, isValidUtcTimestamp timestamp.value

instance (message : DecodedMessage) : Decidable message.Dated :=
  inferInstanceAs (Decidable (∀ timestamp ∈ message.timestamps, _))

end DecodedMessage

section Values
variable {tag : Nat}

theorem parse_timestamp {timestamp : UtcTimestamp} (valid : isValidUtcTimestamp timestamp.value) :
    UtcTimestamp.parse tag timestamp.value = .ok timestamp :=
  if_pos valid

theorem decodeCompId_val (compId : CompId) : decodeCompId tag compId.val = .ok compId := by
  have fresh : CompId.new compId.val = some compId := dif_pos compId.property
  unfold decodeCompId
  rw [fresh]

theorem decodePrice_render {cents : Nat} (fits : cents ≤ u64Max) : decodePrice tag (renderCentsToDecimal cents) = .ok cents := by
  unfold decodePrice
  rw [parseDecimalToCents_render fits]

theorem decodeCommission_render {amount : Int} (fits : amount.natAbs ≤ i64Max) :
    decodeCommission (renderSignedCentsToDecimal amount) = .ok amount := by
  unfold decodeCommission
  rw [parseSigned_render_iff.2 fits]

end Values

section Bodies
variable {U : Upstream} {fields : FieldBag}

theorem StandardHeader.decode_laid {message : DecodedMessage} (laid : Laid message.slots message.groups fields)
    (sequence : (headerOf message).msgSeqNum ≤ u64Max) (dated : isValidUtcTimestamp (headerOf message).sendingTime.value) :
    StandardHeader.decode fields = .ok (headerOf message) := by
  have sender : fields.reqStr Tag.senderCompId = .ok (headerOf message).senderCompId.val := reqStr_of_find (laid.find rfl)
  have target : fields.reqStr Tag.targetCompId = .ok (headerOf message).targetCompId.val := reqStr_of_find (laid.find rfl)
  have number : fields.reqU64 Tag.msgSeqNum = .ok (headerOf message).msgSeqNum := reqU64_of_find (laid.find rfl) sequence
  have sent : fields.reqStr Tag.sendingTime = .ok (headerOf message).sendingTime.value := reqStr_of_find (laid.find rfl)
  unfold StandardHeader.decode
  simp only [sender, target, number, sent, decodeCompId_val, parse_timestamp dated, bind, Except.bind]

theorem Logon.decodeBody_laid {m : Logon} (laid : Laid (DecodedMessage.logon m).slots [] fields)
    (widths : m.heartBtInt ≤ u32Max) : Logon.decodeBody m.header fields = .ok m := by
  have encryptMethod : fields.reqU64 Tag.encryptMethod = .ok 0 := reqU64_of_find (laid.find rfl) (by decide)
  have heartBtInt : fields.reqU32 Tag.heartBtInt = .ok m.heartBtInt := reqU32_of_find (laid.find rfl) widths
  have username : fields.reqStr Tag.username = .ok m.username := reqStr_of_find (laid.find rfl)
  have password : fields.reqStr Tag.password = .ok m.password := reqStr_of_find (laid.find rfl)
  have resetSeqNumFlag : fields.optBool Tag.resetSeqNumFlag = .ok m.resetSeqNumFlag := optBool_of_find (laid.find rfl)
  unfold Logon.decodeBody
  simp only [encryptMethod, heartBtInt, username, password, resetSeqNumFlag, bind, Except.bind, ne_eq, not_true, if_false]

theorem Logout.decodeBody_laid {m : Logout} (laid : Laid (DecodedMessage.logout m).slots [] fields) :
    Logout.decodeBody m.header fields = .ok m := by
  have text : fields.optStr Tag.text = .ok m.text := optStr_of_find (laid.find rfl)
  unfold Logout.decodeBody
  simp only [text, bind, Except.bind]

theorem Heartbeat.decodeBody_laid {m : Heartbeat} (laid : Laid (DecodedMessage.heartbeat m).slots [] fields) :
    Heartbeat.decodeBody m.header fields = .ok m := by
  have testReqId : fields.optStr Tag.testReqId = .ok m.testReqId := optStr_of_find (laid.find rfl)
  unfold Heartbeat.decodeBody
  simp only [testReqId, bind, Except.bind]

theorem TestRequest.decodeBody_laid {m : TestRequest} (laid : Laid (DecodedMessage.testRequest m).slots [] fields) :
    TestRequest.decodeBody m.header fields = .ok m := by
  have testReqId : fields.reqStr Tag.testReqId = .ok m.testReqId := reqStr_of_find (laid.find rfl)
  unfold TestRequest.decodeBody
  simp only [testReqId, bind, Except.bind]

theorem ResendRequest.decodeBody_laid {m : ResendRequest} (laid : Laid (DecodedMessage.resendRequest m).slots [] fields)
    (widths : (DecodedMessage.resendRequest m).Widths) : ResendRequest.decodeBody m.header fields = .ok m := by
  obtain ⟨beginWidth, endWidth⟩ := widths
  have beginSeqNo : fields.reqU64 Tag.beginSeqNo = .ok m.beginSeqNo := reqU64_of_find (laid.find rfl) beginWidth
  have endSeqNo : fields.reqU64 Tag.endSeqNo = .ok m.endSeqNo := reqU64_of_find (laid.find rfl) endWidth
  unfold ResendRequest.decodeBody
  simp only [beginSeqNo, endSeqNo, bind, Except.bind]

theorem SequenceReset.decodeBody_laid {m : SequenceReset} (laid : Laid (DecodedMessage.sequenceReset m).slots [] fields)
    (widths : m.newSeqNo ≤ u64Max) : SequenceReset.decodeBody m.header fields = .ok m := by
  have newSeqNo : fields.reqU64 Tag.newSeqNo = .ok m.newSeqNo := reqU64_of_find (laid.find rfl) widths
  have gapFillFlag : fields.optBool Tag.gapFillFlag = .ok m.gapFillFlag := optBool_of_find (laid.find rfl)
  unfold SequenceReset.decodeBody
  simp only [newSeqNo, gapFillFlag, bind, Except.bind]

/-- A reason is read back unless it is a named code kept as another one. -/
theorem SessionRejectReason.fromFix_toFix {reason : SessionRejectReason}
    (faithful : ∀ code, reason = .other code → fromFix code = .other code) : fromFix reason.toFix = reason := by
  cases reason with
  | other code => exact faithful code rfl
  | _ => rfl

theorem Reject.decodeBody_laid {m : Reject} (laid : Laid (DecodedMessage.reject m).slots [] fields)
    (widths : (DecodedMessage.reject m).Widths) {kept : Nat} (faithful : (DecodedMessage.reject m).Faithful kept) :
    Reject.decodeBody m.header fields = .ok m := by
  obtain ⟨seqWidth, tagWidth, reasonWidth⟩ := widths
  have code : fields.optU16 Tag.sessionRejectReason = .ok (m.sessionRejectReason.map SessionRejectReason.toFix) := by
    refine optU16_of_find (laid.find rfl) fun number member => ?_
    obtain ⟨reason, present, rfl⟩ := Option.map_eq_some_iff.1 member
    exact reasonWidth reason present
  have refSeqNum : fields.reqU64 Tag.refSeqNum = .ok m.refSeqNum := reqU64_of_find (laid.find rfl) seqWidth
  have refTagId : fields.optU16 Tag.refTagId = .ok m.refTagId := optU16_of_find (laid.find rfl) tagWidth
  have text : fields.optStr Tag.text = .ok m.text := optStr_of_find (laid.find rfl)
  have back : (m.sessionRejectReason.map SessionRejectReason.toFix).map SessionRejectReason.fromFix = m.sessionRejectReason := by
    cases present : m.sessionRejectReason with
    | none => rfl
    | some reason =>
      exact congrArg some (SessionRejectReason.fromFix_toFix fun code same => faithful code (present.trans (congrArg some same)))
  unfold Reject.decodeBody
  simp only [code, refSeqNum, refTagId, text, back, bind, Except.bind]

section Reads
variable {tag : Nat}

theorem decodePrice_of_find {price : Option Nat} (found : fields.find tag = (price.map renderCentsToDecimal).map some)
    (widths : ∀ cents ∈ price, cents ≤ u64Max) : decodeOptionalPrice fields tag = .ok price :=
  decodeOptional_of_find found fun cents member => decodePrice_render (widths cents member)

theorem decodeFix_of_find {α : Type} [FixEnum α] {value : Option α} (found : fields.find tag = (value.map toFix).map some) :
    decodeOptional fields tag fromFix = .ok value :=
  decodeOptional_of_find found fun variant _ => fromFix_toFix variant

end Reads

theorem NewOrderSingle.decodeBody_laid {m : NewOrderSingle} (laid : Laid (DecodedMessage.newOrderSingle m).slots [] fields)
    (typed : (DecodedMessage.newOrderSingle m).Typed U) (dated : (DecodedMessage.newOrderSingle m).Dated)
    (conditions : (DecodedMessage.newOrderSingle m).Conditions) : NewOrderSingle.decodeBody U m.header fields = .ok m := by
  obtain ⟨priceWidth, qtyWidth⟩ := typed.widths
  obtain ⟨priced, expiring⟩ := conditions
  have canonical : Symbol.parse U m.symbol = .ok m.symbol := typed.canonical _ List.mem_cons_self
  have transacted : isValidUtcTimestamp m.transactTime.value := dated _ (List.mem_cons_of_mem _ List.mem_cons_self)
  have ordType : fields.reqStr Tag.ordType = .ok (toFix m.ordType) := reqStr_of_find (laid.find rfl)
  have price : decodeOptionalPrice fields Tag.price = .ok m.price := decodePrice_of_find (laid.find rfl) priceWidth
  have timeInForce : fields.optStr Tag.timeInForce = .ok (some (toFix m.timeInForce)) := optStr_of_find (laid.find rfl)
  have expireTime : decodeOptional fields Tag.expireTime (UtcTimestamp.parse Tag.expireTime) = .ok m.expireTime :=
    decodeOptional_of_find (laid.find rfl) fun timestamp member => parse_timestamp
      (dated _ (List.mem_cons_of_mem _ (List.mem_cons_of_mem _ (Option.mem_toList.2 member))))
  have clOrdId : fields.reqStr Tag.clOrdId = .ok m.clOrdId := reqStr_of_find (laid.find rfl)
  have account : fields.optStr Tag.account = .ok m.account := optStr_of_find (laid.find rfl)
  have symbol : fields.reqStr Tag.symbol = .ok m.symbol := reqStr_of_find (laid.find rfl)
  have side : fields.reqStr Tag.side = .ok (toFix m.side) := reqStr_of_find (laid.find rfl)
  have transactTime : fields.reqStr Tag.transactTime = .ok m.transactTime.value := reqStr_of_find (laid.find rfl)
  have orderQty : fields.reqU64 Tag.orderQty = .ok m.orderQty := reqU64_of_find (laid.find rfl) qtyWidth
  unfold NewOrderSingle.decodeBody
  simp only [ordType, fromFix_toFix, price, if_neg priced, timeInForce, FixTif.fromFixOrDefault, expireTime,
    if_neg expiring, clOrdId, account, symbol, canonical, side, transactTime, parse_timestamp transacted, orderQty, bind,
    Except.bind]

theorem OrderCancelRequest.decodeBody_laid {m : OrderCancelRequest}
    (laid : Laid (DecodedMessage.orderCancelRequest m).slots [] fields)
    (typed : (DecodedMessage.orderCancelRequest m).Typed U) : OrderCancelRequest.decodeBody U m.header fields = .ok m := by
  have canonical : Symbol.parse U m.symbol = .ok m.symbol := typed.canonical _ List.mem_cons_self
  have origClOrdId : fields.reqStr Tag.origClOrdId = .ok m.origClOrdId := reqStr_of_find (laid.find rfl)
  have clOrdId : fields.reqStr Tag.clOrdId = .ok m.clOrdId := reqStr_of_find (laid.find rfl)
  have symbol : fields.reqStr Tag.symbol = .ok m.symbol := reqStr_of_find (laid.find rfl)
  have side : fields.reqStr Tag.side = .ok (toFix m.side) := reqStr_of_find (laid.find rfl)
  unfold OrderCancelRequest.decodeBody
  simp only [origClOrdId, clOrdId, symbol, canonical, side, fromFix_toFix, bind, Except.bind]

theorem OrderCancelReplaceRequest.decodeBody_laid {m : OrderCancelReplaceRequest}
    (laid : Laid (DecodedMessage.orderCancelReplaceRequest m).slots [] fields)
    (typed : (DecodedMessage.orderCancelReplaceRequest m).Typed U) (priced : ¬ (m.ordType = .limit ∧ m.price = none)) :
    OrderCancelReplaceRequest.decodeBody U m.header fields = .ok m := by
  obtain ⟨priceWidth, qtyWidth⟩ := typed.widths
  have canonical : Symbol.parse U m.symbol = .ok m.symbol := typed.canonical _ List.mem_cons_self
  have ordType : fields.reqStr Tag.ordType = .ok (toFix m.ordType) := reqStr_of_find (laid.find rfl)
  have price : decodeOptionalPrice fields Tag.price = .ok m.price := decodePrice_of_find (laid.find rfl) priceWidth
  have origClOrdId : fields.reqStr Tag.origClOrdId = .ok m.origClOrdId := reqStr_of_find (laid.find rfl)
  have clOrdId : fields.reqStr Tag.clOrdId = .ok m.clOrdId := reqStr_of_find (laid.find rfl)
  have symbol : fields.reqStr Tag.symbol = .ok m.symbol := reqStr_of_find (laid.find rfl)
  have side : fields.reqStr Tag.side = .ok (toFix m.side) := reqStr_of_find (laid.find rfl)
  have orderQty : fields.reqU64 Tag.orderQty = .ok m.orderQty := reqU64_of_find (laid.find rfl) qtyWidth
  unfold OrderCancelReplaceRequest.decodeBody
  simp only [ordType, fromFix_toFix, price, if_neg priced, origClOrdId, clOrdId, symbol, canonical, side, orderQty, bind,
    Except.bind]

theorem OrderMassCancelRequest.decodeBody_laid {m : OrderMassCancelRequest}
    (laid : Laid (DecodedMessage.orderMassCancelRequest m).slots [] fields)
    (typed : (DecodedMessage.orderMassCancelRequest m).Typed U)
    (named : ¬ (m.massCancelRequestType = .security ∧ m.symbol = none)) :
    OrderMassCancelRequest.decodeBody U m.header fields = .ok m := by
  have massCancelRequestType : fields.reqStr Tag.massCancelRequestType = .ok (toFix m.massCancelRequestType) :=
    reqStr_of_find (laid.find rfl)
  have found : fields.find Tag.symbol = (m.symbol.map id).map some := by
    rw [Option.map_id]
    exact laid.find rfl
  have symbol : decodeOptional fields Tag.symbol (Symbol.parse U) = .ok m.symbol :=
    decodeOptional_of_find found fun symbol member => typed.canonical symbol (Option.mem_toList.2 member)
  have clOrdId : fields.reqStr Tag.clOrdId = .ok m.clOrdId := reqStr_of_find (laid.find rfl)
  unfold OrderMassCancelRequest.decodeBody
  simp only [massCancelRequestType, fromFix_toFix, symbol, if_neg named, clOrdId, bind, Except.bind]

theorem OrderStatusRequest.decodeBody_laid {m : OrderStatusRequest}
    (laid : Laid (DecodedMessage.orderStatusRequest m).slots [] fields)
    (typed : (DecodedMessage.orderStatusRequest m).Typed U) (chosen : ¬ (m.orderId = none ∧ m.clOrdId = none)) :
    OrderStatusRequest.decodeBody U m.header fields = .ok m := by
  have canonical : Symbol.parse U m.symbol = .ok m.symbol := typed.canonical _ List.mem_cons_self
  have orderId : fields.optStr Tag.orderId = .ok m.orderId := optStr_of_find (laid.find rfl)
  have clOrdId : fields.optStr Tag.clOrdId = .ok m.clOrdId := optStr_of_find (laid.find rfl)
  have symbol : fields.reqStr Tag.symbol = .ok m.symbol := reqStr_of_find (laid.find rfl)
  unfold OrderStatusRequest.decodeBody
  simp only [orderId, clOrdId, if_neg chosen, symbol, canonical, bind, Except.bind]

theorem ExecutionReport.decodeBody_laid {m : ExecutionReport} (laid : Laid (DecodedMessage.executionReport m).slots [] fields)
    (typed : (DecodedMessage.executionReport m).Typed U) (dated : (DecodedMessage.executionReport m).Dated)
    (paired : m.commission.isSome = m.commType.isSome) (faithful : m.commission ≠ some i64Min) :
    ExecutionReport.decodeBody U m.header fields = .ok m := by
  obtain ⟨⟨leavesWidth, cumWidth, secondaryWidth⟩, lastWidth, pxWidth, priceWidth, amountWidth, reasonWidth⟩ := typed.widths
  have canonical : Symbol.parse U m.symbol = .ok m.symbol := typed.canonical _ List.mem_cons_self
  have transacted : isValidUtcTimestamp m.transactTime.value := dated _ (List.mem_cons_of_mem _ List.mem_cons_self)
  have commission : decodeOptional fields Tag.commission decodeCommission = .ok m.commission := by
    refine decodeOptional_of_find (laid.find rfl) fun amount member => decodeCommission_render ?_
    obtain ⟨least, greatest⟩ := amountWidth amount member
    have apart : amount ≠ i64Min := fun same => faithful (same ▸ member)
    have bottom : i64Min = -2 ^ 63 := rfl
    have top : i64Max = 2 ^ 63 - 1 := rfl
    omega
  have commType : (decodeOptional fields Tag.commType fromFix : Except FixDecodeError (Option CommType)) = .ok m.commType :=
    decodeFix_of_find (laid.find rfl)
  have lastLiquidityInd : decodeOptional fields Tag.lastLiquidityInd fromFix = .ok m.lastLiquidityInd :=
    decodeFix_of_find (laid.find rfl)
  have orderId : fields.reqStr Tag.orderId = .ok m.orderId := reqStr_of_find (laid.find rfl)
  have execId : fields.reqStr Tag.execId = .ok m.execId := reqStr_of_find (laid.find rfl)
  have execType : fields.reqStr Tag.execType = .ok (toFix m.execType) := reqStr_of_find (laid.find rfl)
  have ordStatus : fields.reqStr Tag.ordStatus = .ok (toFix m.ordStatus) := reqStr_of_find (laid.find rfl)
  have symbol : fields.reqStr Tag.symbol = .ok m.symbol := reqStr_of_find (laid.find rfl)
  have side : fields.reqStr Tag.side = .ok (toFix m.side) := reqStr_of_find (laid.find rfl)
  have leavesQty : fields.reqU64 Tag.leavesQty = .ok m.leavesQty := reqU64_of_find (laid.find rfl) leavesWidth
  have cumQty : fields.reqU64 Tag.cumQty = .ok m.cumQty := reqU64_of_find (laid.find rfl) cumWidth
  have lastQty : fields.optU64 Tag.lastQty = .ok m.lastQty := optU64_of_find (laid.find rfl) lastWidth
  have lastPx : decodeOptionalPrice fields Tag.lastPx = .ok m.lastPx := decodePrice_of_find (laid.find rfl) pxWidth
  have price : decodeOptionalPrice fields Tag.price = .ok m.price := decodePrice_of_find (laid.find rfl) priceWidth
  have secondaryExecId : fields.reqU64 Tag.secondaryExecId = .ok m.secondaryExecId :=
    reqU64_of_find (laid.find rfl) secondaryWidth
  have transactTime : fields.reqStr Tag.transactTime = .ok m.transactTime.value := reqStr_of_find (laid.find rfl)
  have ordRejReason : fields.optU16 Tag.ordRejReason = .ok m.ordRejReason := optU16_of_find (laid.find rfl) reasonWidth
  have text : fields.optStr Tag.text = .ok m.text := optStr_of_find (laid.find rfl)
  have typeFirst : ¬ (m.commission.isSome = true ∧ m.commType.isNone = true) := by
    rintro ⟨present, absent⟩
    rw [Option.isNone_iff_eq_none] at absent
    rw [present, absent] at paired
    cases paired
  have amountFirst : ¬ (m.commission.isNone = true ∧ m.commType.isSome = true) := by
    rintro ⟨absent, present⟩
    rw [Option.isNone_iff_eq_none] at absent
    rw [present, absent] at paired
    cases paired
  unfold ExecutionReport.decodeBody
  simp only [commission, commType, if_neg typeFirst, if_neg amountFirst, lastLiquidityInd, orderId, execId, execType,
    ordStatus, symbol, canonical, side, leavesQty, cumQty, lastQty, lastPx, price, secondaryExecId, transactTime,
    parse_timestamp transacted, ordRejReason, text, fromFix_toFix, bind, Except.bind]

theorem OrderCancelReject.decodeBody_laid {m : OrderCancelReject}
    (laid : Laid (DecodedMessage.orderCancelReject m).slots [] fields) (widths : m.cxlRejReason ≤ u16Max) :
    OrderCancelReject.decodeBody m.header fields = .ok m := by
  have orderId : fields.reqStr Tag.orderId = .ok m.orderId := reqStr_of_find (laid.find rfl)
  have clOrdId : fields.reqStr Tag.clOrdId = .ok m.clOrdId := reqStr_of_find (laid.find rfl)
  have origClOrdId : fields.reqStr Tag.origClOrdId = .ok m.origClOrdId := reqStr_of_find (laid.find rfl)
  have ordStatus : fields.reqStr Tag.ordStatus = .ok (toFix m.ordStatus) := reqStr_of_find (laid.find rfl)
  have cxlRejResponseTo : fields.reqStr Tag.cxlRejResponseTo = .ok (toFix m.cxlRejResponseTo) := reqStr_of_find (laid.find rfl)
  have cxlRejReason : fields.reqU16 Tag.cxlRejReason = .ok m.cxlRejReason := reqU16_of_find (laid.find rfl) widths
  have text : fields.optStr Tag.text = .ok m.text := optStr_of_find (laid.find rfl)
  unfold OrderCancelReject.decodeBody
  simp only [orderId, clOrdId, origClOrdId, ordStatus, cxlRejResponseTo, cxlRejReason, text, fromFix_toFix, bind, Except.bind]

theorem BusinessMessageReject.decodeBody_laid {m : BusinessMessageReject}
    (laid : Laid (DecodedMessage.businessMessageReject m).slots [] fields)
    (widths : (DecodedMessage.businessMessageReject m).Widths) : BusinessMessageReject.decodeBody m.header fields = .ok m := by
  obtain ⟨seqWidth, reasonWidth⟩ := widths
  have refSeqNum : fields.reqU64 Tag.refSeqNum = .ok m.refSeqNum := reqU64_of_find (laid.find rfl) seqWidth
  have refMsgType : fields.reqStr Tag.refMsgType = .ok m.refMsgType := reqStr_of_find (laid.find rfl)
  have businessRejectReason : fields.reqU16 Tag.businessRejectReason = .ok m.businessRejectReason :=
    reqU16_of_find (laid.find rfl) reasonWidth
  have text : fields.optStr Tag.text = .ok m.text := optStr_of_find (laid.find rfl)
  unfold BusinessMessageReject.decodeBody
  simp only [refSeqNum, refMsgType, businessRejectReason, text, bind, Except.bind]

theorem MarketDataRequestReject.decodeBody_laid {m : MarketDataRequestReject}
    (laid : Laid (DecodedMessage.marketDataRequestReject m).slots [] fields) (widths : m.mdReqRejReason ≤ u16Max) :
    MarketDataRequestReject.decodeBody m.header fields = .ok m := by
  have mdReqId : fields.reqStr Tag.mdReqId = .ok m.mdReqId := reqStr_of_find (laid.find rfl)
  have mdReqRejReason : fields.reqU16 Tag.mdReqRejReason = .ok m.mdReqRejReason := reqU16_of_find (laid.find rfl) widths
  have text : fields.optStr Tag.text = .ok m.text := optStr_of_find (laid.find rfl)
  unfold MarketDataRequestReject.decodeBody
  simp only [mdReqId, mdReqRejReason, text, bind, Except.bind]

section Entries

theorem entry_single {tag : Nat} (text : String) : Entry tag [tag] (FieldWriter.str tag text) :=
  ⟨⟨tag, some text⟩, [], rfl, rfl, nofun⟩

theorem entry_snapshot (entry : SnapshotEntry) :
    Entry Tag.mdEntryType [Tag.mdEntryType, Tag.mdEntryPx, Tag.mdEntrySize] entry.encode := by
  refine ⟨⟨Tag.mdEntryType, _⟩, [⟨Tag.mdEntryPx, _⟩, ⟨Tag.mdEntrySize, _⟩], rfl, rfl, ?_⟩
  simp +decide

theorem entry_incremental (entry : IncrementalEntry) :
    Entry Tag.mdUpdateAction [Tag.mdUpdateAction, Tag.mdEntryType, Tag.symbol, Tag.mdEntryPx, Tag.mdEntrySize] entry.encode := by
  refine ⟨⟨Tag.mdUpdateAction, _⟩, [⟨Tag.mdEntryType, _⟩, ⟨Tag.symbol, _⟩, ⟨Tag.mdEntryPx, _⟩, ⟨Tag.mdEntrySize, _⟩],
    rfl, rfl, ?_⟩
  simp +decide

theorem SnapshotEntry.decode_encode {entry : SnapshotEntry} (widths : entry.price ≤ u64Max ∧ entry.size ≤ u64Max) :
    SnapshotEntry.decode entry.encode = .ok entry := by
  have entryType : FieldBag.reqStr entry.encode Tag.mdEntryType = .ok (toFix entry.entryType) := reqStr_of_find rfl
  have price : FieldBag.reqStr entry.encode Tag.mdEntryPx = .ok (renderCentsToDecimal entry.price) := reqStr_of_find rfl
  have size : FieldBag.reqU64 entry.encode Tag.mdEntrySize = .ok entry.size := reqU64_of_find rfl widths.2
  unfold SnapshotEntry.decode
  simp only [entryType, fromFix_toFix, price, decodePrice_render widths.1, size, bind, Except.bind]

theorem IncrementalEntry.decode_encode {entry : IncrementalEntry} (canonical : Symbol.parse U entry.symbol = .ok entry.symbol)
    (widths : entry.price ≤ u64Max ∧ entry.size ≤ u64Max) : IncrementalEntry.decode U entry.encode = .ok entry := by
  have updateAction : FieldBag.reqStr entry.encode Tag.mdUpdateAction = .ok (toFix entry.updateAction) := reqStr_of_find rfl
  have entryType : FieldBag.reqStr entry.encode Tag.mdEntryType = .ok (toFix entry.entryType) := reqStr_of_find rfl
  have symbol : FieldBag.reqStr entry.encode Tag.symbol = .ok entry.symbol := reqStr_of_find rfl
  have price : FieldBag.reqStr entry.encode Tag.mdEntryPx = .ok (renderCentsToDecimal entry.price) := reqStr_of_find rfl
  have size : FieldBag.reqU64 entry.encode Tag.mdEntrySize = .ok entry.size := reqU64_of_find rfl widths.2
  unfold IncrementalEntry.decode
  simp only [updateAction, entryType, fromFix_toFix, symbol, canonical, price, decodePrice_render widths.1, size, bind,
    Except.bind]

end Entries

theorem OrderMassCancelReport.decodeBody_laid {m : OrderMassCancelReport}
    (laid : Laid (DecodedMessage.orderMassCancelReport m).slots (DecodedMessage.orderMassCancelReport m).groups fields)
    (widths : m.totalAffectedOrders ≤ u32Max) (few : m.affectedOrders.length ≤ maxGroupEntries) :
    OrderMassCancelReport.decodeBody m.header fields = .ok m := by
  have grouped : fields.group Tag.noAffectedOrders Tag.affectedOrderId [Tag.affectedOrderId] =
      .ok (m.affectedOrders.map (FieldWriter.str Tag.affectedOrderId)) := by
    have row : Laid ((⟨Tag.msgType, some "r"⟩ :: (m.header.slots ++
        [⟨Tag.massCancelResponse, some (toFix m.massCancelResponse)⟩,
          ⟨Tag.totalAffectedOrders, some (toString m.totalAffectedOrders)⟩])) ++
        [⟨Tag.noAffectedOrders, some (toString m.affectedOrders.length)⟩])
        ((m.affectedOrders.map (FieldWriter.str Tag.affectedOrderId)).flatten ++ []) fields := by
      rw [List.append_nil]
      exact laid
    exact row.lastGroup (List.length_map _) (List.forall_mem_map.2 fun orderId _ => entry_single orderId) nofun
      ⟨by decide, by decide⟩ few
  have affectedOrders : (m.affectedOrders.map (FieldWriter.str Tag.affectedOrderId)).mapM
      (fun entry : FieldBag => entry.reqStr Tag.affectedOrderId) = .ok m.affectedOrders :=
    mapM_map_ok fun orderId _ => reqStr_of_find rfl
  have massCancelResponse : fields.reqStr Tag.massCancelResponse = .ok (toFix m.massCancelResponse) :=
    reqStr_of_find (laid.find rfl)
  have totalAffectedOrders : fields.reqU32 Tag.totalAffectedOrders = .ok m.totalAffectedOrders :=
    reqU32_of_find (laid.find rfl) widths
  unfold OrderMassCancelReport.decodeBody
  simp only [grouped, affectedOrders, massCancelResponse, fromFix_toFix, totalAffectedOrders, bind, Except.bind]

theorem requiredGroup_of_group {countTag delimiterTag : Nat} {memberTags : List Nat} {bags : List FieldBag}
    (grouped : fields.group countTag delimiterTag memberTags = .ok bags) (some : bags ≠ []) :
    fields.requiredGroup countTag delimiterTag memberTags = .ok bags := by
  unfold requiredGroup
  simp only [grouped, bind, Except.bind, if_neg some]

section Request
variable {m : MarketDataRequest}

theorem MarketDataRequest.entryTypes_laid
    (laid : Laid (DecodedMessage.marketDataRequest m).slots (DecodedMessage.marketDataRequest m).groups fields)
    (some' : m.entryTypes ≠ []) (few : m.entryTypes.length ≤ maxGroupEntries) :
    fields.requiredGroup Tag.noMdEntryTypes Tag.mdEntryType [Tag.mdEntryType] =
      .ok (m.entryTypes.map fun entryType => FieldWriter.str Tag.mdEntryType (toFix entryType)) := by
  have row : Laid ((⟨Tag.msgType, some "V"⟩ :: (m.header.slots ++
      [⟨Tag.mdReqId, some m.mdReqId⟩, ⟨Tag.subscriptionRequestType, some (toFix m.subscriptionRequestType)⟩,
        ⟨Tag.marketDepth, some (toString m.marketDepth)⟩])) ++
      [⟨Tag.noMdEntryTypes, some (toString m.entryTypes.length)⟩])
      ((m.entryTypes.map fun entryType => FieldWriter.str Tag.mdEntryType (toFix entryType)).flatten ++
        ⟨Tag.noRelatedSym, some (toString m.symbols.length)⟩ :: m.symbols.flatMap (FieldWriter.str Tag.symbol)) fields := laid
  refine requiredGroup_of_group (row.lastGroup (List.length_map _) ?_ ?_ ⟨by decide, by decide⟩ few) ?_
  · exact List.forall_mem_map.2 fun entryType _ => entry_single (toFix entryType)
  · intro field member
    obtain rfl := Option.some.inj member
    exact ⟨(by decide : Tag.noRelatedSym ≠ Tag.mdEntryType), (by decide : Tag.noRelatedSym ∉ [Tag.mdEntryType])⟩
  · exact fun empty => some' (List.map_eq_nil_iff.1 empty)

/-- The second group starts behind the entries of the first. -/
theorem MarketDataRequest.symbols_laid
    (laid : Laid (DecodedMessage.marketDataRequest m).slots (DecodedMessage.marketDataRequest m).groups fields)
    (some' : m.symbols ≠ []) (few : m.symbols.length ≤ maxGroupEntries) :
    fields.requiredGroup Tag.noRelatedSym Tag.symbol [Tag.symbol] = .ok (m.symbols.map (FieldWriter.str Tag.symbol)) := by
  have split : written (DecodedMessage.marketDataRequest m).slots ++ (DecodedMessage.marketDataRequest m).groups =
      (written (DecodedMessage.marketDataRequest m).slots ++
        m.entryTypes.flatMap (fun entryType => FieldWriter.str Tag.mdEntryType (toFix entryType))) ++
      ⟨Tag.noRelatedSym, some (toString m.symbols.length)⟩ :: ((m.symbols.map (FieldWriter.str Tag.symbol)).flatten ++ []) := by
    rw [List.append_nil, List.append_assoc]
    rfl
  refine requiredGroup_of_group (laid.group split (List.length_map _) ?_ ?_ nofun ⟨by decide, by decide, by decide⟩ few) ?_
  · intro field member
    rcases List.mem_append.1 member with scalar | typed
    · obtain ⟨slot, listed, tagged, -⟩ := mem_written scalar
      have counted : (⟨Tag.noRelatedSym, some (toString m.symbols.length)⟩ : Field) ∈
          (DecodedMessage.marketDataRequest m).groups :=
        List.mem_append_right _ List.mem_cons_self
      rw [tagged]
      exact (laid.apart slot listed _ counted).symm
    · obtain ⟨entryType, -, inside⟩ := List.mem_flatMap.1 typed
      obtain rfl := List.mem_singleton.1 inside
      exact (by decide : Tag.mdEntryType ≠ Tag.noRelatedSym)
  · exact List.forall_mem_map.2 fun symbol _ => entry_single symbol
  · exact fun empty => some' (List.map_eq_nil_iff.1 empty)

/-- An entry of one field gives the value that its text is parsed to. -/
theorem decode_single {α : Type} {tag : Nat} {parse : String → Except FixDecodeError α} {text : String} {value : α}
    (back : parse text = .ok value) :
    (do parse (← FieldBag.reqStr (FieldWriter.str tag text) tag) : Except FixDecodeError α) = .ok value := by
  have read : FieldBag.reqStr (FieldWriter.str tag text) tag = .ok text :=
    reqStr_of_find (by simp [FieldWriter.str, FieldBag.find])
  rw [read]
  exact back

theorem MarketDataRequest.decodeBody_laid
    (laid : Laid (DecodedMessage.marketDataRequest m).slots (DecodedMessage.marketDataRequest m).groups fields)
    (typed : (DecodedMessage.marketDataRequest m).Typed U) (conditions : (DecodedMessage.marketDataRequest m).Conditions) :
    MarketDataRequest.decodeBody U m.header fields = .ok m := by
  obtain ⟨⟨someTypes, fewTypes⟩, someSymbols, fewSymbols⟩ := conditions
  have typeBags := MarketDataRequest.entryTypes_laid laid someTypes fewTypes
  have symbolBags := MarketDataRequest.symbols_laid laid someSymbols fewSymbols
  have entryTypes : (m.entryTypes.map fun entryType => FieldWriter.str Tag.mdEntryType (toFix entryType)).mapM
      (fun (entry : FieldBag) => do fromFix (← entry.reqStr Tag.mdEntryType)) = .ok m.entryTypes :=
    mapM_map_ok fun entryType _ => decode_single (fromFix_toFix entryType)
  have symbols : (m.symbols.map (FieldWriter.str Tag.symbol)).mapM
      (fun (entry : FieldBag) => do Symbol.parse U (← entry.reqStr Tag.symbol)) = .ok m.symbols :=
    mapM_map_ok fun symbol listed => decode_single (typed.canonical symbol listed)
  have mdReqId : fields.reqStr Tag.mdReqId = .ok m.mdReqId := reqStr_of_find (laid.find rfl)
  have subscriptionRequestType : fields.reqStr Tag.subscriptionRequestType = .ok (toFix m.subscriptionRequestType) :=
    reqStr_of_find (laid.find rfl)
  have marketDepth : fields.reqU32 Tag.marketDepth = .ok m.marketDepth := reqU32_of_find (laid.find rfl) typed.widths
  unfold MarketDataRequest.decodeBody
  rw [typeBags]
  dsimp only [bind, Except.bind] at entryTypes symbols ⊢
  rw [entryTypes, symbolBags]
  dsimp only
  rw [symbols, mdReqId]
  dsimp only
  rw [subscriptionRequestType]
  dsimp only
  rw [fromFix_toFix, marketDepth]

end Request

theorem MarketDataSnapshotFullRefresh.decodeBody_laid {m : MarketDataSnapshotFullRefresh}
    (laid : Laid (DecodedMessage.marketDataSnapshotFullRefresh m).slots (DecodedMessage.marketDataSnapshotFullRefresh m).groups
      fields)
    (typed : (DecodedMessage.marketDataSnapshotFullRefresh m).Typed U) (few : m.entries.length ≤ maxGroupEntries) :
    MarketDataSnapshotFullRefresh.decodeBody U m.header fields = .ok m := by
  obtain ⟨seqWidth, entryWidths⟩ := typed.widths
  have canonical : Symbol.parse U m.symbol = .ok m.symbol := typed.canonical _ List.mem_cons_self
  have entryBags : fields.group Tag.noMdEntries Tag.mdEntryType [Tag.mdEntryType, Tag.mdEntryPx, Tag.mdEntrySize] =
      .ok (m.entries.map SnapshotEntry.encode) := by
    have row : Laid ((⟨Tag.msgType, some "W"⟩ :: (m.header.slots ++
        [⟨Tag.mdReqId, some m.mdReqId⟩, ⟨Tag.symbol, some m.symbol⟩, ⟨Tag.rptSeq, some (toString m.rptSeq)⟩])) ++
        [⟨Tag.noMdEntries, some (toString m.entries.length)⟩]) ((m.entries.map SnapshotEntry.encode).flatten ++ []) fields := by
      rw [List.append_nil]
      exact laid
    exact row.lastGroup (List.length_map _) (List.forall_mem_map.2 fun entry _ => entry_snapshot entry) nofun
      ⟨by decide, by decide⟩ few
  have entries : (m.entries.map SnapshotEntry.encode).mapM SnapshotEntry.decode = .ok m.entries :=
    mapM_map_ok fun entry listed => SnapshotEntry.decode_encode (entryWidths entry listed)
  have mdReqId : fields.reqStr Tag.mdReqId = .ok m.mdReqId := reqStr_of_find (laid.find rfl)
  have symbol : fields.reqStr Tag.symbol = .ok m.symbol := reqStr_of_find (laid.find rfl)
  have rptSeq : fields.reqU64 Tag.rptSeq = .ok m.rptSeq := reqU64_of_find (laid.find rfl) seqWidth
  unfold MarketDataSnapshotFullRefresh.decodeBody
  simp only [entryBags, entries, mdReqId, symbol, canonical, rptSeq, bind, Except.bind]

theorem MarketDataIncrementalRefresh.decodeBody_laid {m : MarketDataIncrementalRefresh}
    (laid : Laid (DecodedMessage.marketDataIncrementalRefresh m).slots (DecodedMessage.marketDataIncrementalRefresh m).groups
      fields)
    (typed : (DecodedMessage.marketDataIncrementalRefresh m).Typed U) (few : m.entries.length ≤ maxGroupEntries) :
    MarketDataIncrementalRefresh.decodeBody U m.header fields = .ok m := by
  obtain ⟨seqWidth, entryWidths⟩ := typed.widths
  have entryBags : fields.group Tag.noMdEntries Tag.mdUpdateAction
      [Tag.mdUpdateAction, Tag.mdEntryType, Tag.symbol, Tag.mdEntryPx, Tag.mdEntrySize] =
      .ok (m.entries.map IncrementalEntry.encode) := by
    have row : Laid ((⟨Tag.msgType, some "X"⟩ :: (m.header.slots ++
        [⟨Tag.mdReqId, some m.mdReqId⟩, ⟨Tag.rptSeq, some (toString m.rptSeq)⟩])) ++
        [⟨Tag.noMdEntries, some (toString m.entries.length)⟩]) ((m.entries.map IncrementalEntry.encode).flatten ++ []) fields := by
      rw [List.append_nil]
      exact laid
    exact row.lastGroup (List.length_map _) (List.forall_mem_map.2 fun entry _ => entry_incremental entry) nofun
      ⟨by decide, by decide⟩ few
  have entries : (m.entries.map IncrementalEntry.encode).mapM (IncrementalEntry.decode U) = .ok m.entries :=
    mapM_map_ok fun entry listed => IncrementalEntry.decode_encode
      (typed.canonical _ (List.mem_map_of_mem listed)) (entryWidths entry listed)
  have mdReqId : fields.reqStr Tag.mdReqId = .ok m.mdReqId := reqStr_of_find (laid.find rfl)
  have rptSeq : fields.reqU64 Tag.rptSeq = .ok m.rptSeq := reqU64_of_find (laid.find rfl) seqWidth
  unfold MarketDataIncrementalRefresh.decodeBody
  simp only [entryBags, entries, mdReqId, rptSeq, bind, Except.bind]

/-- Every decoder reads its own message back. -/
theorem decodeBody_laid [Ironfix] {message : DecodedMessage} {kept : Nat} (laid : Laid message.slots message.groups fields)
    (typed : message.Typed U) (dated : message.Dated) (conditions : message.Conditions) (faithful : message.Faithful kept) :
    decodeBody U (headerOf message) fields message.msgType = .ok message := by
  cases message with
  | logon m => exact congrArg (Except.map _) (Logon.decodeBody_laid laid typed.widths)
  | logout m => exact congrArg (Except.map _) (Logout.decodeBody_laid laid)
  | heartbeat m => exact congrArg (Except.map _) (Heartbeat.decodeBody_laid laid)
  | testRequest m => exact congrArg (Except.map _) (TestRequest.decodeBody_laid laid)
  | resendRequest m => exact congrArg (Except.map _) (ResendRequest.decodeBody_laid laid typed.widths)
  | sequenceReset m => exact congrArg (Except.map _) (SequenceReset.decodeBody_laid laid typed.widths)
  | reject m => exact congrArg (Except.map _) (Reject.decodeBody_laid laid typed.widths faithful)
  | newOrderSingle m => exact congrArg (Except.map _) (NewOrderSingle.decodeBody_laid laid typed dated conditions)
  | orderCancelRequest m => exact congrArg (Except.map _) (OrderCancelRequest.decodeBody_laid laid typed)
  | orderCancelReplaceRequest m =>
    exact congrArg (Except.map _) (OrderCancelReplaceRequest.decodeBody_laid laid typed conditions)
  | orderMassCancelRequest m => exact congrArg (Except.map _) (OrderMassCancelRequest.decodeBody_laid laid typed conditions)
  | orderStatusRequest m => exact congrArg (Except.map _) (OrderStatusRequest.decodeBody_laid laid typed conditions)
  | executionReport m => exact congrArg (Except.map _) (ExecutionReport.decodeBody_laid laid typed dated conditions faithful)
  | orderCancelReject m => exact congrArg (Except.map _) (OrderCancelReject.decodeBody_laid laid typed.widths)
  | orderMassCancelReport m => exact congrArg (Except.map _) (OrderMassCancelReport.decodeBody_laid laid typed.widths conditions)
  | businessMessageReject m => exact congrArg (Except.map _) (BusinessMessageReject.decodeBody_laid laid typed.widths)
  | marketDataRequest m => exact congrArg (Except.map _) (MarketDataRequest.decodeBody_laid laid typed conditions)
  | marketDataSnapshotFullRefresh m =>
    exact congrArg (Except.map _) (MarketDataSnapshotFullRefresh.decodeBody_laid laid typed conditions)
  | marketDataIncrementalRefresh m =>
    exact congrArg (Except.map _) (MarketDataIncrementalRefresh.decodeBody_laid laid typed conditions)
  | marketDataRequestReject m => exact congrArg (Except.map _) (MarketDataRequestReject.decodeBody_laid laid typed.widths)

end Bodies

namespace DecodedMessage
variable {message : DecodedMessage}

theorem scalarTags_append (symbolRepeatable : Bool) (front back : FieldBag) :
    scalarTags symbolRepeatable (front ++ back) = scalarTags symbolRepeatable front ++ scalarTags symbolRepeatable back := by
  unfold scalarTags
  rw [List.map_append, List.filter_append]

/-- Fields that may all be repeated hold no scalar. -/
theorem scalarTags_eq_nil {symbolRepeatable : Bool} {fields : FieldBag}
    (all : ∀ field ∈ fields, repeatable symbolRepeatable field.tag = true) : scalarTags symbolRepeatable fields = [] := by
  refine List.filter_eq_nil_iff.2 fun tag member => ?_
  obtain ⟨field, listed, rfl⟩ := List.mem_map.1 member
  rw [all field listed]
  decide

/-- Of the tags in the groups only the count of a second group may not be repeated. -/
theorem groups_unique (message : DecodedMessage) :
    (scalarTags (symbolRepeatsInMsgType message.msgType) message.groups).Nodup := by
  have members (repeats : ∀ tag ∈ message.groupTags, repeatable (symbolRepeatsInMsgType message.msgType) tag = true) :
      (scalarTags (symbolRepeatsInMsgType message.msgType) message.groups).Nodup := by
    rw [scalarTags_eq_nil fun field member => repeats _ (message.groups_tags field member)]
    exact List.nodup_nil
  cases message with
  | marketDataRequest m =>
    have types : scalarTags true (m.entryTypes.flatMap fun entryType => FieldWriter.str Tag.mdEntryType (toFix entryType)) = [] := by
      refine scalarTags_eq_nil fun field member => ?_
      obtain ⟨entryType, -, inside⟩ := List.mem_flatMap.1 member
      obtain rfl := List.mem_singleton.1 inside
      rfl
    have symbols : scalarTags true (m.symbols.flatMap (FieldWriter.str Tag.symbol)) = [] := by
      refine scalarTags_eq_nil fun field member => ?_
      obtain ⟨symbol, -, inside⟩ := List.mem_flatMap.1 member
      obtain rfl := List.mem_singleton.1 inside
      rfl
    have whole : scalarTags true (marketDataRequest m).groups = [Tag.noRelatedSym] := by
      refine (scalarTags_append true _ _).trans ?_
      rw [types, List.nil_append]
      exact congrArg (Tag.noRelatedSym :: ·) symbols
    have repeats : symbolRepeatsInMsgType (marketDataRequest m).msgType = true := rfl
    rw [repeats, whole]
    exact List.nodup_singleton _
  | orderMassCancelReport m | marketDataSnapshotFullRefresh m | marketDataIncrementalRefresh m =>
    refine members ?_
    dsimp only [groupTags, msgType]
    decide
  | _ => exact List.nodup_nil

theorem length_flatMap_of_same {α : Type} (size : Nat) (write : α → List Field) (values : List α)
    (each : ∀ value, (write value).length = size) : (values.flatMap write).length = values.length * size := by
  induction values with
  | nil => exact (Nat.zero_mul size).symm
  | cons value rest ih => rw [List.flatMap_cons, List.length_append, each, ih, List.length_cons, Nat.succ_mul, Nat.add_comm]

theorem length_increments (m : MarketDataIncrementalRefresh) :
    (marketDataIncrementalRefresh m).fields.length = 8 + 5 * m.entries.length := by
  have entries := length_flatMap_of_same 5 IncrementalEntry.encode m.entries fun _ => rfl
  have scalars : (written (marketDataIncrementalRefresh m).slots).length = 8 := rfl
  have groups : (marketDataIncrementalRefresh m).groups = m.entries.flatMap IncrementalEntry.encode := rfl
  rw [fields_eq, List.length_append, scalars, groups, entries]
  omega

/-- Only increments can fill a frame. -/
theorem length_le (conditions : message.Conditions) {kept : Nat} (faithful : message.Faithful kept) (few : kept ≤ 3) :
    message.fields.length + kept ≤ maxFieldsPerMessage := by
  have top : maxFieldsPerMessage = 4096 := rfl
  have most : maxGroupEntries = 1024 := rfl
  have scalars := length_written_le message.slots
  have whole : message.fields.length = (written message.slots).length + message.groups.length := by
    rw [fields_eq, List.length_append]
  cases message with
  | marketDataIncrementalRefresh m =>
    rw [length_increments]
    exact faithful
  | orderMassCancelReport m =>
    have entries := length_flatMap_of_same 1 (FieldWriter.str Tag.affectedOrderId) m.affectedOrders fun _ => rfl
    have groups : (orderMassCancelReport m).groups = m.affectedOrders.flatMap (FieldWriter.str Tag.affectedOrderId) := rfl
    have slots : (orderMassCancelReport m).slots.length = 8 := rfl
    have size : m.affectedOrders.length ≤ maxGroupEntries := conditions
    rw [groups, entries] at whole
    omega
  | marketDataSnapshotFullRefresh m =>
    have entries := length_flatMap_of_same 3 SnapshotEntry.encode m.entries fun _ => rfl
    have groups : (marketDataSnapshotFullRefresh m).groups = m.entries.flatMap SnapshotEntry.encode := rfl
    have slots : (marketDataSnapshotFullRefresh m).slots.length = 9 := rfl
    have size : m.entries.length ≤ maxGroupEntries := conditions
    rw [groups, entries] at whole
    omega
  | marketDataRequest m =>
    have types := length_flatMap_of_same 1 (fun entryType => FieldWriter.str Tag.mdEntryType (toFix entryType)) m.entryTypes fun _ => rfl
    have symbols := length_flatMap_of_same 1 (FieldWriter.str Tag.symbol) m.symbols fun _ => rfl
    have groups : (marketDataRequest m).groups.length =
        (m.entryTypes.flatMap fun entryType => FieldWriter.str Tag.mdEntryType (toFix entryType)).length +
          ((m.symbols.flatMap (FieldWriter.str Tag.symbol)).length + 1) := List.length_append
    have slots : (marketDataRequest m).slots.length = 9 := rfl
    obtain ⟨⟨-, fewTypes⟩, -, fewSymbols⟩ := conditions
    rw [groups, types, symbols] at whole
    omega
  | _ =>
    rw [whole]
    exact Nat.le_trans (Nat.add_le_add (Nat.add_le_add_right scalars _) few) (Nat.le_of_ble_eq_true rfl)

end DecodedMessage

end Fauxchange.Fix
