import Fauxchange.Fix.PriceGrammar
import Fauxchange.Fix.Slots

/-! The twenty messages as slots and groups, what their types guarantee, and the conditions that a message has to meet.
A message that meets them can be framed. -/

namespace Fauxchange.Fix
open Exchange Lib

def StandardHeader.slots (header : StandardHeader) : List WireSlot :=
  [⟨Tag.senderCompId, some header.senderCompId.val⟩, ⟨Tag.targetCompId, some header.targetCompId.val⟩,
    ⟨Tag.msgSeqNum, some (toString header.msgSeqNum)⟩, ⟨Tag.sendingTime, some header.sendingTime.value⟩]

namespace DecodedMessage

def msgType : DecodedMessage → String
  | .logon _ => "A"
  | .logout _ => "5"
  | .heartbeat _ => "0"
  | .testRequest _ => "1"
  | .resendRequest _ => "2"
  | .sequenceReset _ => "4"
  | .reject _ => "3"
  | .newOrderSingle _ => "D"
  | .orderCancelRequest _ => "F"
  | .orderCancelReplaceRequest _ => "G"
  | .orderMassCancelRequest _ => "q"
  | .orderStatusRequest _ => "H"
  | .executionReport _ => "8"
  | .orderCancelReject _ => "9"
  | .orderMassCancelReport _ => "r"
  | .businessMessageReject _ => "j"
  | .marketDataRequest _ => "V"
  | .marketDataSnapshotFullRefresh _ => "W"
  | .marketDataIncrementalRefresh _ => "X"
  | .marketDataRequestReject _ => "Y"

/-- The slots after the header. The last one of a message with groups is the count of its first group. -/
def body : DecodedMessage → List WireSlot
  | .logon m =>
    [⟨Tag.encryptMethod, some (toString 0)⟩, ⟨Tag.heartBtInt, some (toString m.heartBtInt)⟩,
      ⟨Tag.username, some m.username⟩, ⟨Tag.password, some m.password⟩,
      ⟨Tag.resetSeqNumFlag, m.resetSeqNumFlag.map boolText⟩]
  | .logout m => [⟨Tag.text, m.text⟩]
  | .heartbeat m => [⟨Tag.testReqId, m.testReqId⟩]
  | .testRequest m => [⟨Tag.testReqId, some m.testReqId⟩]
  | .resendRequest m => [⟨Tag.beginSeqNo, some (toString m.beginSeqNo)⟩, ⟨Tag.endSeqNo, some (toString m.endSeqNo)⟩]
  | .sequenceReset m => [⟨Tag.newSeqNo, some (toString m.newSeqNo)⟩, ⟨Tag.gapFillFlag, m.gapFillFlag.map boolText⟩]
  | .reject m =>
    [⟨Tag.refSeqNum, some (toString m.refSeqNum)⟩, ⟨Tag.refTagId, m.refTagId.map toString⟩,
      ⟨Tag.sessionRejectReason, (m.sessionRejectReason.map SessionRejectReason.toFix).map toString⟩, ⟨Tag.text, m.text⟩]
  | .newOrderSingle m =>
    [⟨Tag.clOrdId, some m.clOrdId⟩, ⟨Tag.account, m.account⟩, ⟨Tag.symbol, some m.symbol⟩,
      ⟨Tag.side, some (toFix m.side)⟩, ⟨Tag.transactTime, some m.transactTime.value⟩,
      ⟨Tag.ordType, some (toFix m.ordType)⟩, ⟨Tag.price, m.price.map renderCentsToDecimal⟩,
      ⟨Tag.orderQty, some (toString m.orderQty)⟩, ⟨Tag.timeInForce, some (toFix m.timeInForce)⟩,
      ⟨Tag.expireTime, m.expireTime.map UtcTimestamp.value⟩]
  | .orderCancelRequest m =>
    [⟨Tag.origClOrdId, some m.origClOrdId⟩, ⟨Tag.clOrdId, some m.clOrdId⟩, ⟨Tag.symbol, some m.symbol⟩,
      ⟨Tag.side, some (toFix m.side)⟩]
  | .orderCancelReplaceRequest m =>
    [⟨Tag.origClOrdId, some m.origClOrdId⟩, ⟨Tag.clOrdId, some m.clOrdId⟩, ⟨Tag.symbol, some m.symbol⟩,
      ⟨Tag.side, some (toFix m.side)⟩, ⟨Tag.ordType, some (toFix m.ordType)⟩,
      ⟨Tag.price, m.price.map renderCentsToDecimal⟩, ⟨Tag.orderQty, some (toString m.orderQty)⟩]
  | .orderMassCancelRequest m =>
    [⟨Tag.clOrdId, some m.clOrdId⟩, ⟨Tag.massCancelRequestType, some (toFix m.massCancelRequestType)⟩,
      ⟨Tag.symbol, m.symbol⟩]
  | .orderStatusRequest m => [⟨Tag.orderId, m.orderId⟩, ⟨Tag.clOrdId, m.clOrdId⟩, ⟨Tag.symbol, some m.symbol⟩]
  | .executionReport m =>
    [⟨Tag.orderId, some m.orderId⟩, ⟨Tag.execId, some m.execId⟩, ⟨Tag.execType, some (toFix m.execType)⟩,
      ⟨Tag.ordStatus, some (toFix m.ordStatus)⟩, ⟨Tag.symbol, some m.symbol⟩, ⟨Tag.side, some (toFix m.side)⟩,
      ⟨Tag.leavesQty, some (toString m.leavesQty)⟩, ⟨Tag.cumQty, some (toString m.cumQty)⟩,
      ⟨Tag.lastQty, m.lastQty.map toString⟩, ⟨Tag.lastPx, m.lastPx.map renderCentsToDecimal⟩,
      ⟨Tag.price, m.price.map renderCentsToDecimal⟩, ⟨Tag.secondaryExecId, some (toString m.secondaryExecId)⟩,
      ⟨Tag.transactTime, some m.transactTime.value⟩, ⟨Tag.commission, m.commission.map renderSignedCentsToDecimal⟩,
      ⟨Tag.commType, m.commType.map toFix⟩, ⟨Tag.lastLiquidityInd, m.lastLiquidityInd.map toFix⟩,
      ⟨Tag.ordRejReason, m.ordRejReason.map toString⟩, ⟨Tag.text, m.text⟩]
  | .orderCancelReject m =>
    [⟨Tag.orderId, some m.orderId⟩, ⟨Tag.clOrdId, some m.clOrdId⟩, ⟨Tag.origClOrdId, some m.origClOrdId⟩,
      ⟨Tag.ordStatus, some (toFix m.ordStatus)⟩, ⟨Tag.cxlRejResponseTo, some (toFix m.cxlRejResponseTo)⟩,
      ⟨Tag.cxlRejReason, some (toString m.cxlRejReason)⟩, ⟨Tag.text, m.text⟩]
  | .orderMassCancelReport m =>
    [⟨Tag.massCancelResponse, some (toFix m.massCancelResponse)⟩,
      ⟨Tag.totalAffectedOrders, some (toString m.totalAffectedOrders)⟩,
      ⟨Tag.noAffectedOrders, some (toString m.affectedOrders.length)⟩]
  | .businessMessageReject m =>
    [⟨Tag.refSeqNum, some (toString m.refSeqNum)⟩, ⟨Tag.refMsgType, some m.refMsgType⟩,
      ⟨Tag.businessRejectReason, some (toString m.businessRejectReason)⟩, ⟨Tag.text, m.text⟩]
  | .marketDataRequest m =>
    [⟨Tag.mdReqId, some m.mdReqId⟩, ⟨Tag.subscriptionRequestType, some (toFix m.subscriptionRequestType)⟩,
      ⟨Tag.marketDepth, some (toString m.marketDepth)⟩, ⟨Tag.noMdEntryTypes, some (toString m.entryTypes.length)⟩]
  | .marketDataSnapshotFullRefresh m =>
    [⟨Tag.mdReqId, some m.mdReqId⟩, ⟨Tag.symbol, some m.symbol⟩, ⟨Tag.rptSeq, some (toString m.rptSeq)⟩,
      ⟨Tag.noMdEntries, some (toString m.entries.length)⟩]
  | .marketDataIncrementalRefresh m =>
    [⟨Tag.mdReqId, some m.mdReqId⟩, ⟨Tag.rptSeq, some (toString m.rptSeq)⟩,
      ⟨Tag.noMdEntries, some (toString m.entries.length)⟩]
  | .marketDataRequestReject m =>
    [⟨Tag.mdReqId, some m.mdReqId⟩, ⟨Tag.mdReqRejReason, some (toString m.mdReqRejReason)⟩, ⟨Tag.text, m.text⟩]

def slots (message : DecodedMessage) : List WireSlot :=
  ⟨Tag.msgType, some message.msgType⟩ :: ((headerOf message).slots ++ message.body)

/-- The fields after the first count. -/
def groups : DecodedMessage → List Field
  | .orderMassCancelReport m => m.affectedOrders.flatMap (FieldWriter.str Tag.affectedOrderId)
  | .marketDataRequest m =>
    m.entryTypes.flatMap (fun entryType => FieldWriter.str Tag.mdEntryType (toFix entryType)) ++
      ⟨Tag.noRelatedSym, some (toString m.symbols.length)⟩ :: m.symbols.flatMap (FieldWriter.str Tag.symbol)
  | .marketDataSnapshotFullRefresh m => m.entries.flatMap SnapshotEntry.encode
  | .marketDataIncrementalRefresh m => m.entries.flatMap IncrementalEntry.encode
  | _ => []

theorem headed (header : StandardHeader) : header.encode = written header.slots := rfl

theorem executionReport_fields (m : ExecutionReport) : m.encode = written (slots (.executionReport m)) := by
  unfold ExecutionReport.encode slots body headerOf msgType
  simp only [headed, FieldWriter.new, FieldWriter.str_eq, FieldWriter.optStr_eq, FieldWriter.u64_eq,
    FieldWriter.optU64_eq, written_cons, written_append, written_nil, List.append_assoc, List.append_nil]

/-- What a message hands to the framing is its slots and its groups. -/
theorem fields_eq (message : DecodedMessage) : message.fields = written message.slots ++ message.groups := by
  cases message with
  | executionReport m => exact (executionReport_fields m).trans (List.append_nil _).symm
  | marketDataRequest m =>
    unfold fields MarketDataRequest.encode slots body groups headerOf msgType
    simp only [headed, FieldWriter.new, FieldWriter.u64_eq, written_cons, written_append, written_nil, List.append_assoc,
      List.append_nil]
    rfl
  | _ =>
    simp only [fields, Logon.encode, Logout.encode, Heartbeat.encode, TestRequest.encode, ResendRequest.encode,
      SequenceReset.encode, Reject.encode, NewOrderSingle.encode, OrderCancelRequest.encode,
      OrderCancelReplaceRequest.encode, OrderMassCancelRequest.encode, OrderStatusRequest.encode,
      OrderCancelReject.encode, OrderMassCancelReport.encode, BusinessMessageReject.encode,
      MarketDataSnapshotFullRefresh.encode, MarketDataIncrementalRefresh.encode, MarketDataRequestReject.encode, headed,
      FieldWriter.new, FieldWriter.str_eq, FieldWriter.optStr_eq, FieldWriter.u64_eq, FieldWriter.optU64_eq,
      FieldWriter.optBool_eq]
    simp only [slots, body, groups, headerOf, msgType, written_cons, written_append, written_nil, List.append_assoc,
      List.append_nil]

theorem slots_keys (message : DecodedMessage) : (message.slots.map WireSlot.tag).Nodup := by
  cases message <;> simp +decide [slots, body, headerOf, StandardHeader.slots]

theorem slots_inner (message : DecodedMessage) : ∀ slot ∈ message.slots, slot.tag ∉ framingTags := by
  cases message <;> simp +decide [slots, body, headerOf, StandardHeader.slots]

theorem slots_width (message : DecodedMessage) : ∀ slot ∈ message.slots, slot.tag ≤ u32Max := by
  cases message <;> simp +decide [slots, body, headerOf, StandardHeader.slots]

/-- The tags that stand in the groups. -/
def groupTags : DecodedMessage → List Nat
  | .orderMassCancelReport _ => [Tag.affectedOrderId]
  | .marketDataRequest _ => [Tag.mdEntryType, Tag.noRelatedSym, Tag.symbol]
  | .marketDataSnapshotFullRefresh _ => [Tag.mdEntryType, Tag.mdEntryPx, Tag.mdEntrySize]
  | .marketDataIncrementalRefresh _ => [Tag.mdUpdateAction, Tag.mdEntryType, Tag.symbol, Tag.mdEntryPx, Tag.mdEntrySize]
  | _ => []

theorem groups_tags (message : DecodedMessage) : ∀ field ∈ message.groups, field.tag ∈ message.groupTags := by
  cases message with
  | orderMassCancelReport m | marketDataSnapshotFullRefresh m | marketDataIncrementalRefresh m =>
    intro field member
    obtain ⟨entry, -, inside⟩ := List.mem_flatMap.1 member
    have tagged := @List.mem_map_of_mem _ _ _ _ Field.tag inside
    exact tagged
  | marketDataRequest m =>
    intro field member
    rcases List.mem_append.1 member with entries | symbols
    · obtain ⟨entryType, -, inside⟩ := List.mem_flatMap.1 entries
      obtain rfl := List.mem_singleton.1 inside
      exact List.mem_cons_self
    · rcases List.mem_cons.1 symbols with rfl | later
      · exact List.mem_cons_of_mem _ List.mem_cons_self
      · obtain ⟨symbol, -, inside⟩ := List.mem_flatMap.1 later
        obtain rfl := List.mem_singleton.1 inside
        exact List.mem_cons_of_mem _ (List.mem_cons_of_mem _ List.mem_cons_self)
  | _ => exact nofun

theorem groupTags_inner (message : DecodedMessage) : ∀ tag ∈ message.groupTags, tag ∉ framingTags ∧ tag ≤ u32Max := by
  cases message <;> simp +decide [groupTags]

theorem groupTags_apart (message : DecodedMessage) : ∀ slot ∈ message.slots, slot.tag ∉ message.groupTags := by
  cases message <;> simp +decide [slots, body, headerOf, StandardHeader.slots, groupTags]

end DecodedMessage

section Texts

theorem printable_toString (value : Nat) : Printable (toString value) := by
  refine ⟨fun empty => ?_, toList_toString_free rfl value⟩
  have digits : (toString value).toList = Nat.toDigits 10 value := Nat.toList_repr ..
  rw [empty] at digits
  exact Nat.toDigits_ne_nil digits.symm

theorem printable_toFix {α : Type} [FixEnum α] (variant : α) : Printable (toFix variant) :=
  FixEnum.printable variant (FixEnum.complete variant)

theorem printable_boolText (flag : Bool) : Printable (boolText flag) := by
  cases flag <;> exact ⟨by decide, by decide⟩

theorem printable_cents (cents : Nat) : Printable (renderCentsToDecimal cents) := by
  have alphabet := List.all_eq_true.1 (alphabet_written (renderedDecimal cents))
  rw [← renderCentsChars_eq] at alphabet
  have free : '\x01' ∉ (renderCentsToDecimal cents).toList := fun member => by
    unfold renderCentsToDecimal at member
    rw [String.toList_ofList] at member
    exact absurd (alphabet _ member) (by decide)
  refine ⟨fun empty => ?_, free⟩
  have dot : '.' ∈ (renderCentsToDecimal cents).toList := by
    unfold renderCentsToDecimal renderCentsChars
    simp
  rw [empty] at dot
  cases dot

theorem printable_signed (amount : Int) : Printable (renderSignedCentsToDecimal amount) := by
  unfold renderSignedCentsToDecimal
  split
  next =>
    obtain ⟨present, free⟩ := printable_cents amount.natAbs
    refine ⟨fun empty => ?_, ?_⟩
    · exact present (String.append_eq_empty_iff.1 empty).2
    · rw [String.toList_append, List.mem_append, not_or]
      exact ⟨by decide, free⟩
  next => exact printable_cents _

end Texts

namespace DecodedMessage

def timestamps : DecodedMessage → List UtcTimestamp
  | .newOrderSingle m => m.header.sendingTime :: m.transactTime :: m.expireTime.toList
  | .executionReport m => [m.header.sendingTime, m.transactTime]
  | message => [(headerOf message).sendingTime]

def symbols : DecodedMessage → List Symbol
  | .newOrderSingle m => [m.symbol]
  | .orderCancelRequest m => [m.symbol]
  | .orderCancelReplaceRequest m => [m.symbol]
  | .orderMassCancelRequest m => m.symbol.toList
  | .orderStatusRequest m => [m.symbol]
  | .executionReport m => [m.symbol]
  | .marketDataRequest m => m.symbols
  | .marketDataSnapshotFullRefresh m => [m.symbol]
  | .marketDataIncrementalRefresh m => m.entries.map IncrementalEntry.symbol
  | _ => []

/-- The values that are any text: ids, credentials and free texts. -/
def texts : DecodedMessage → List String
  | .logon m => [m.username, m.password]
  | .logout m => m.text.toList
  | .heartbeat m => m.testReqId.toList
  | .testRequest m => [m.testReqId]
  | .resendRequest _ | .sequenceReset _ => []
  | .reject m => m.text.toList
  | .newOrderSingle m => m.clOrdId :: m.account.toList
  | .orderCancelRequest m => [m.origClOrdId, m.clOrdId]
  | .orderCancelReplaceRequest m => [m.origClOrdId, m.clOrdId]
  | .orderMassCancelRequest m => [m.clOrdId]
  | .orderStatusRequest m => m.orderId.toList ++ m.clOrdId.toList
  | .executionReport m => m.orderId :: m.execId :: m.text.toList
  | .orderCancelReject m => m.orderId :: m.clOrdId :: m.origClOrdId :: m.text.toList
  | .orderMassCancelReport m => m.affectedOrders
  | .businessMessageReject m => m.refMsgType :: m.text.toList
  | .marketDataRequest m => [m.mdReqId]
  | .marketDataSnapshotFullRefresh m => [m.mdReqId]
  | .marketDataIncrementalRefresh m => [m.mdReqId]
  | .marketDataRequestReject m => m.mdReqId :: m.text.toList

/-- Every string of a message. -/
def strings (message : DecodedMessage) : List String :=
  (headerOf message).senderCompId.val :: (headerOf message).targetCompId.val ::
    (message.timestamps.map UtcTimestamp.value ++ message.symbols ++ message.texts)

theorem msgType_printable (message : DecodedMessage) : Printable message.msgType := by
  cases message <;> dsimp only [msgType] <;> exact ⟨by decide, by decide⟩

end DecodedMessage

section Plain
variable {tag : Nat}

/-- A slot whose text can stand in a field. -/
def WireSlot.Plain (slot : WireSlot) : Prop := ∀ text ∈ slot.text, Printable text

theorem plain_some {text : String} : WireSlot.Plain ⟨tag, some text⟩ ↔ Printable text :=
  ⟨fun plain => plain text rfl, fun printable _ same => Option.some.inj same ▸ printable⟩

theorem plain_iff {text : Option String} : WireSlot.Plain ⟨tag, text⟩ ↔ ∀ value ∈ text.toList, Printable value := by
  cases text with
  | none => exact iff_of_true nofun nofun
  | some value => exact plain_some.trans List.forall_mem_singleton.symm

theorem plain_map {α : Type} {render : α → String} (each : ∀ value, Printable (render value)) (value : Option α) :
    WireSlot.Plain ⟨tag, value.map render⟩ := by
  intro text same
  obtain ⟨part, -, rfl⟩ := Option.map_eq_some_iff.1 same
  exact each part

end Plain

namespace DecodedMessage

theorem slots_plain {message : DecodedMessage} (printable : ∀ text ∈ message.strings, Printable text) :
    ∀ slot ∈ message.slots, slot.Plain := by
  have typed : WireSlot.Plain ⟨Tag.msgType, some message.msgType⟩ := plain_some.2 message.msgType_printable
  unfold strings at printable
  unfold slots
  simp only [List.forall_mem_cons, List.forall_mem_append] at printable
  obtain ⟨sender, target, ⟨dates, symbols⟩, texts⟩ := printable
  rw [List.forall_mem_cons, List.forall_mem_append]
  refine ⟨typed, ?_, ?_⟩
  · have sent : Printable (headerOf message).sendingTime.value := by
      cases message <;> exact dates _ List.mem_cons_self
    unfold StandardHeader.slots
    simp only [List.forall_mem_cons, plain_some, printable_toString]
    exact ⟨sender, target, trivial, sent, nofun⟩
  · unfold body
    cases message
    all_goals
      simp only [DecodedMessage.timestamps, DecodedMessage.symbols, DecodedMessage.texts, List.map_cons, List.map_nil,
        List.forall_mem_cons, List.forall_mem_append] at dates symbols texts
      simp only [List.forall_mem_cons, List.forall_mem_nil, plain_some, printable_toString, printable_toFix,
        plain_map printable_toString, plain_map printable_cents, plain_map printable_signed, plain_map printable_toFix,
        plain_map printable_boolText, true_and, and_true]
    all_goals
      try simp only [plain_iff, Option.toList_map]
      tauto

/-- A field of a group has a text that can stand there. -/
theorem groups_printable {message : DecodedMessage} (printable : ∀ text ∈ message.strings, Printable text) :
    ∀ field ∈ message.groups, ∃ text, field.value = some text ∧ Printable text := by
  unfold strings at printable
  simp only [List.forall_mem_cons, List.forall_mem_append] at printable
  obtain ⟨-, -, ⟨-, symbols⟩, texts⟩ := printable
  cases message with
  | orderMassCancelReport m =>
    intro field member
    obtain ⟨orderId, listed, inside⟩ := List.mem_flatMap.1 member
    obtain rfl := List.mem_singleton.1 inside
    exact ⟨orderId, rfl, texts orderId listed⟩
  | marketDataRequest m =>
    intro field member
    rcases List.mem_append.1 member with entries | named
    · obtain ⟨entryType, -, inside⟩ := List.mem_flatMap.1 entries
      obtain rfl := List.mem_singleton.1 inside
      exact ⟨_, rfl, printable_toFix entryType⟩
    · rcases List.mem_cons.1 named with rfl | later
      · exact ⟨_, rfl, printable_toString _⟩
      · obtain ⟨symbol, listed, inside⟩ := List.mem_flatMap.1 later
        obtain rfl := List.mem_singleton.1 inside
        exact ⟨symbol, rfl, symbols symbol listed⟩
  | marketDataSnapshotFullRefresh m =>
    intro field member
    obtain ⟨entry, -, inside⟩ := List.mem_flatMap.1 member
    simp only [SnapshotEntry.encode, FieldWriter.str, FieldWriter.u64, List.cons_append, List.nil_append, List.mem_cons,
      List.not_mem_nil, or_false] at inside
    rcases inside with rfl | rfl | rfl
    · exact ⟨_, rfl, printable_toFix _⟩
    · exact ⟨_, rfl, printable_cents _⟩
    · exact ⟨_, rfl, printable_toString _⟩
  | marketDataIncrementalRefresh m =>
    intro field member
    obtain ⟨entry, listed, inside⟩ := List.mem_flatMap.1 member
    simp only [IncrementalEntry.encode, FieldWriter.str, FieldWriter.u64, List.cons_append, List.nil_append, List.mem_cons,
      List.not_mem_nil, or_false] at inside
    rcases inside with rfl | rfl | rfl | rfl | rfl
    · exact ⟨_, rfl, printable_toFix _⟩
    · exact ⟨_, rfl, printable_toFix _⟩
    · exact ⟨_, rfl, symbols _ (List.mem_map_of_mem listed)⟩
    · exact ⟨_, rfl, printable_cents _⟩
    · exact ⟨_, rfl, printable_toString _⟩
  | _ => exact nofun

theorem fields_head (message : DecodedMessage) : ∃ rest, message.fields = ⟨Tag.msgType, some message.msgType⟩ :: rest :=
  ⟨written ((headerOf message).slots ++ message.body) ++ message.groups, message.fields_eq⟩

/-- A message with printable strings can be framed. -/
theorem sendable {message : DecodedMessage} (printable : ∀ text ∈ message.strings, Printable text) :
    Sendable message.fields := by
  obtain ⟨rest, starts⟩ := message.fields_head
  refine ⟨⟨message.msgType, rest, starts⟩, fun field member => ?_, fun field member => ?_⟩
  · rw [fields_eq] at member
    rcases List.mem_append.1 member with scalar | grouped
    · obtain ⟨slot, listed, tagged, -⟩ := mem_written scalar
      rw [tagged]
      exact ⟨message.slots_inner slot listed, message.slots_width slot listed⟩
    · exact message.groupTags_inner _ (message.groups_tags field grouped)
  · rw [fields_eq] at member
    rcases List.mem_append.1 member with scalar | grouped
    · obtain ⟨slot, listed, -, text, present, valued⟩ := mem_written scalar
      exact ⟨text, valued, slots_plain printable slot listed text present⟩
    · exact groups_printable printable field grouped

/-- A frame of a message holds its slots and its groups. -/
theorem laid [Ironfix] {message : DecodedMessage} {kept : Nat} {bytes : List UInt8} {raw : RawMessage}
    (framed : Framed kept message.fields bytes raw) : Laid message.slots message.groups raw.fields := by
  obtain ⟨lead, trail, row, -, framing⟩ := framed.around
  refine ⟨⟨lead, trail, by rw [row, fields_eq], framing⟩, message.slots_keys, message.slots_inner, ?_, ?_⟩
  · intro slot listed field member same
    exact message.groupTags_apart slot listed (same ▸ message.groups_tags field member)
  · intro field member
    exact (message.groupTags_inner _ (message.groups_tags field member)).1

theorem msgType_of_framed [Ironfix] {message : DecodedMessage} {kept : Nat} {bytes : List UInt8} {raw : RawMessage}
    (framed : Framed kept message.fields bytes raw) : raw.msgType = message.msgType := by
  obtain ⟨rest, starts⟩ := message.fields_head
  have typed := framed.typed
  rw [starts, List.head?_cons] at typed
  injection typed with same
  injection same with _ same
  exact (Option.some.inj same).symm

end DecodedMessage

end Fauxchange.Fix
