import Fauxchange.Fix.Groups
import Fauxchange.Fix.MessageBodies

/-! Every message that a decoder accepts is one that its types and its field conditions allow, and has no value that would
be read back as another one. -/

namespace Fauxchange.Fix
open Exchange Lib FieldBag

section Reads
variable {U : Upstream} {fields : FieldBag} {header : StandardHeader} {tag : Nat}

theorem parse_timestamp_ok {value : String} {timestamp : UtcTimestamp} (parsed : UtcTimestamp.parse tag value = .ok timestamp) :
    isValidUtcTimestamp timestamp.value := by
  unfold UtcTimestamp.parse at parsed
  split at parsed
  next valid =>
    cases parsed
    exact valid
  next => cases parsed

/-- An optional value that was read is one that its parser gives. -/
theorem decodeOptional_ok {α : Type} {parse : String → Except FixDecodeError α} {value : α}
    (decoded : decodeOptional fields tag parse = .ok (some value)) : ∃ text, parse text = .ok value := by
  obtain ⟨raw, -, decoded⟩ := except_bind_ok decoded
  cases raw with
  | none => cases decoded
  | some text =>
    obtain ⟨part, parsed, same⟩ := except_bind_ok decoded
    cases same
    exact ⟨text, parsed⟩

theorem decodeCommission_ok {text : String} {amount : Int} (decoded : decodeCommission text = .ok amount) :
    amount.natAbs ≤ i64Max := by
  unfold decodeCommission at decoded
  split at decoded
  next cents read =>
    cases decoded
    obtain ⟨signed, -, rfl, fits⟩ := parseSigned_eq_ok.1 read
    unfold SignedText.scaled
    split <;> omega
  next => cases decoded


theorem parseUint_le {bound value : Nat} {text : String} (parsed : parseUint bound text = some value) : value ≤ bound := by
  unfold parseUint at parsed
  dsimp only at parsed
  rw [Option.ite_none_left_eq_some] at parsed
  exact (checkedDigits_eq_some.1 parsed.2).2.2

theorem reqU64_le {value : Nat} (read : fields.reqU64 tag = .ok value) : value ≤ u64Max := by
  obtain ⟨field, -, -, text, -, parsed⟩ := reqU64_ok read
  exact parseUint_le parsed

theorem reqU32_le {value : Nat} (read : fields.reqU32 tag = .ok value) : value ≤ u32Max := by
  obtain ⟨wide, -, read⟩ := except_bind_ok read
  split at read
  next fits =>
    cases read
    exact fits
  next => cases read

theorem optU64_le {value : Option Nat} (read : fields.optU64 tag = .ok value) : ∀ number ∈ value, number ≤ u64Max := by
  obtain ⟨raw, -, read⟩ := except_bind_ok read
  cases raw with
  | none =>
    cases read
    exact nofun
  | some text =>
    dsimp only at read
    split at read
    next number parsed =>
      cases read
      intro other member
      obtain rfl := Option.some.inj member
      exact parseUint_le parsed
    next => cases read

theorem optU16_le {value : Option Nat} (read : fields.optU16 tag = .ok value) : ∀ number ∈ value, number ≤ u16Max := by
  obtain ⟨raw, -, read⟩ := except_bind_ok read
  cases raw with
  | none =>
    cases read
    exact nofun
  | some text =>
    dsimp only at read
    split at read
    next number parsed =>
      cases read
      intro other member
      obtain rfl := Option.some.inj member
      exact parseUint_le parsed
    next => cases read

theorem reqU16_le {value : Nat} (read : fields.reqU16 tag = .ok value) : value ≤ u16Max := by
  obtain ⟨optional, opened, read⟩ := except_bind_ok read
  cases optional with
  | none => cases read
  | some number =>
    cases read
    exact optU16_le opened _ rfl

theorem decodePrice_le {text : String} {price : Nat} (decoded : decodePrice tag text = .ok price) : price ≤ u64Max := by
  obtain ⟨decimal, -, -, fits⟩ := parseDecimalToCents_eq_ok.1 (decodePrice_ok decoded)
  exact fits

theorem decodeOptionalPrice_le {price : Option Nat} (decoded : decodeOptionalPrice fields tag = .ok price) :
    ∀ cents ∈ price, cents ≤ u64Max := by
  rintro cents rfl
  obtain ⟨text, parsed⟩ := decodeOptional_ok decoded
  exact decodePrice_le parsed

/-- A group that is accepted has no more entries than a group may have. -/
theorem group_few {countTag delimiterTag : Nat} {memberTags : List Nat} {bags : List FieldBag}
    (grouped : fields.group countTag delimiterTag memberTags = .ok bags) : bags.length ≤ maxGroupEntries := by
  obtain ⟨declared, -, grouped⟩ := except_bind_ok grouped
  split at grouped
  next => cases grouped
  next few =>
    obtain ⟨groups, -, grouped⟩ := except_bind_ok grouped
    split at grouped
    next same =>
      cases grouped
      exact same ▸ Nat.not_lt.1 few
    next => cases grouped

theorem requiredGroup_some {countTag delimiterTag : Nat} {memberTags : List Nat} {bags : List FieldBag}
    (grouped : fields.requiredGroup countTag delimiterTag memberTags = .ok bags) : bags ≠ [] := by
  obtain ⟨groups, -, grouped⟩ := except_bind_ok grouped
  split at grouped
  next => cases grouped
  next some =>
    cases grouped
    exact some

theorem StandardHeader.decode_ok (decoded : StandardHeader.decode fields = .ok header) :
    header.msgSeqNum ≤ u64Max ∧ isValidUtcTimestamp header.sendingTime.value := by
  obtain ⟨senderText, -, decoded⟩ := except_bind_ok decoded
  obtain ⟨sender, -, decoded⟩ := except_bind_ok decoded
  obtain ⟨targetText, -, decoded⟩ := except_bind_ok decoded
  obtain ⟨target, -, decoded⟩ := except_bind_ok decoded
  obtain ⟨number, numbered, decoded⟩ := except_bind_ok decoded
  obtain ⟨sentText, -, decoded⟩ := except_bind_ok decoded
  obtain ⟨sent, parsed, decoded⟩ := except_bind_ok decoded
  cases decoded
  exact ⟨reqU64_le numbered, parse_timestamp_ok parsed⟩

/-- The canonical text of a contract is parsed to itself. -/
def Renormal (U : Upstream) : Prop := ∀ text symbol, Symbol.parse U text = .ok symbol → Symbol.parse U symbol = .ok symbol

end Reads

/-- A message as a decoder gives it under a header. -/
structure Accepted (U : Upstream) (header : StandardHeader) (message : DecodedMessage) : Prop where
  headed : headerOf message = header
  widths : message.Widths
  canonical : ∀ symbol ∈ message.symbols, ∃ text, Symbol.parse U text = .ok symbol
  conditions : message.Conditions
  dated : isValidUtcTimestamp header.sendingTime.value → message.Dated
  faithful : (∀ m, message ≠ .marketDataIncrementalRefresh m) → ∀ kept, message.Faithful kept

section Bodies
variable {U : Upstream} {fields : FieldBag} {header : StandardHeader}

/-- A message with no timestamp of its own is dated with its header. -/
theorem dated_of_header {message : DecodedMessage} (only : message.timestamps = [header.sendingTime]) :
    isValidUtcTimestamp header.sendingTime.value → message.Dated := by
  intro valid
  unfold DecodedMessage.Dated
  rw [only]
  exact List.forall_mem_singleton.2 valid

theorem Logon.accepted {m : Logon} (decoded : Logon.decodeBody header fields = .ok m) : Accepted U header (.logon m) := by
  obtain ⟨encrypt, -, decoded⟩ := except_bind_ok decoded
  split at decoded
  next => cases decoded
  next =>
    obtain ⟨heartBtInt, beat, decoded⟩ := except_bind_ok decoded
    obtain ⟨username, -, decoded⟩ := except_bind_ok decoded
    obtain ⟨password, -, decoded⟩ := except_bind_ok decoded
    obtain ⟨flag, -, decoded⟩ := except_bind_ok decoded
    cases decoded
    exact ⟨rfl, reqU32_le beat, nofun, trivial, dated_of_header rfl, fun _ _ => trivial⟩

theorem Logout.accepted {m : Logout} (decoded : Logout.decodeBody header fields = .ok m) : Accepted U header (.logout m) := by
  obtain ⟨text, -, decoded⟩ := except_bind_ok decoded
  cases decoded
  exact ⟨rfl, trivial, nofun, trivial, dated_of_header rfl, fun _ _ => trivial⟩

theorem Heartbeat.accepted {m : Heartbeat} (decoded : Heartbeat.decodeBody header fields = .ok m) :
    Accepted U header (.heartbeat m) := by
  obtain ⟨testReqId, -, decoded⟩ := except_bind_ok decoded
  cases decoded
  exact ⟨rfl, trivial, nofun, trivial, dated_of_header rfl, fun _ _ => trivial⟩

theorem TestRequest.accepted {m : TestRequest} (decoded : TestRequest.decodeBody header fields = .ok m) :
    Accepted U header (.testRequest m) := by
  obtain ⟨testReqId, -, decoded⟩ := except_bind_ok decoded
  cases decoded
  exact ⟨rfl, trivial, nofun, trivial, dated_of_header rfl, fun _ _ => trivial⟩

theorem ResendRequest.accepted {m : ResendRequest} (decoded : ResendRequest.decodeBody header fields = .ok m) :
    Accepted U header (.resendRequest m) := by
  obtain ⟨beginSeqNo, first, decoded⟩ := except_bind_ok decoded
  obtain ⟨endSeqNo, last, decoded⟩ := except_bind_ok decoded
  cases decoded
  exact ⟨rfl, ⟨reqU64_le first, reqU64_le last⟩, nofun, trivial, dated_of_header rfl, fun _ _ => trivial⟩

theorem SequenceReset.accepted {m : SequenceReset} (decoded : SequenceReset.decodeBody header fields = .ok m) :
    Accepted U header (.sequenceReset m) := by
  obtain ⟨newSeqNo, next, decoded⟩ := except_bind_ok decoded
  obtain ⟨flag, -, decoded⟩ := except_bind_ok decoded
  cases decoded
  exact ⟨rfl, reqU64_le next, nofun, trivial, dated_of_header rfl, fun _ _ => trivial⟩

/-- A code that is read as unnamed has no name. -/
theorem fromFix_other {number code : Nat} (read : SessionRejectReason.fromFix number = .other code) :
    SessionRejectReason.fromFix code = .other code := by
  have same : number = code := by
    rw [← SessionRejectReason.toFix_fromFix number, read]
    rfl
  rw [← same, read, same]

theorem Reject.accepted {m : Reject} (decoded : Reject.decodeBody header fields = .ok m) : Accepted U header (.reject m) := by
  obtain ⟨code, coded, decoded⟩ := except_bind_ok decoded
  obtain ⟨refSeqNum, numbered, decoded⟩ := except_bind_ok decoded
  obtain ⟨refTagId, tagged, decoded⟩ := except_bind_ok decoded
  obtain ⟨text, -, decoded⟩ := except_bind_ok decoded
  cases decoded
  refine ⟨rfl, ⟨reqU64_le numbered, optU16_le tagged, ?_⟩, nofun, trivial, dated_of_header rfl, fun _ _ => ?_⟩
  · intro reason member
    obtain ⟨number, present, rfl⟩ := Option.map_eq_some_iff.1 member
    rw [SessionRejectReason.toFix_fromFix]
    exact optU16_le coded number present
  · intro unnamed kept
    obtain ⟨number, -, read⟩ := Option.map_eq_some_iff.1 kept
    exact fromFix_other read

theorem OrderCancelReject.accepted {m : OrderCancelReject} (decoded : OrderCancelReject.decodeBody header fields = .ok m) :
    Accepted U header (.orderCancelReject m) := by
  obtain ⟨orderId, -, decoded⟩ := except_bind_ok decoded
  obtain ⟨clOrdId, -, decoded⟩ := except_bind_ok decoded
  obtain ⟨origClOrdId, -, decoded⟩ := except_bind_ok decoded
  obtain ⟨statusText, -, decoded⟩ := except_bind_ok decoded
  obtain ⟨status, -, decoded⟩ := except_bind_ok decoded
  obtain ⟨responseText, -, decoded⟩ := except_bind_ok decoded
  obtain ⟨response, -, decoded⟩ := except_bind_ok decoded
  obtain ⟨reason, reasoned, decoded⟩ := except_bind_ok decoded
  obtain ⟨text, -, decoded⟩ := except_bind_ok decoded
  cases decoded
  exact ⟨rfl, reqU16_le reasoned, nofun, trivial, dated_of_header rfl, fun _ _ => trivial⟩

theorem BusinessMessageReject.accepted {m : BusinessMessageReject}
    (decoded : BusinessMessageReject.decodeBody header fields = .ok m) : Accepted U header (.businessMessageReject m) := by
  obtain ⟨refSeqNum, numbered, decoded⟩ := except_bind_ok decoded
  obtain ⟨refMsgType, -, decoded⟩ := except_bind_ok decoded
  obtain ⟨reason, reasoned, decoded⟩ := except_bind_ok decoded
  obtain ⟨text, -, decoded⟩ := except_bind_ok decoded
  cases decoded
  exact ⟨rfl, ⟨reqU64_le numbered, reqU16_le reasoned⟩, nofun, trivial, dated_of_header rfl, fun _ _ => trivial⟩

theorem MarketDataRequestReject.accepted {m : MarketDataRequestReject}
    (decoded : MarketDataRequestReject.decodeBody header fields = .ok m) : Accepted U header (.marketDataRequestReject m) := by
  obtain ⟨mdReqId, -, decoded⟩ := except_bind_ok decoded
  obtain ⟨reason, reasoned, decoded⟩ := except_bind_ok decoded
  obtain ⟨text, -, decoded⟩ := except_bind_ok decoded
  cases decoded
  exact ⟨rfl, reqU16_le reasoned, nofun, trivial, dated_of_header rfl, fun _ _ => trivial⟩

theorem NewOrderSingle.accepted {m : NewOrderSingle} (decoded : NewOrderSingle.decodeBody U header fields = .ok m) :
    Accepted U header (.newOrderSingle m) := by
  obtain ⟨typeText, -, decoded⟩ := except_bind_ok decoded
  obtain ⟨ordType, -, decoded⟩ := except_bind_ok decoded
  obtain ⟨price, priced, decoded⟩ := except_bind_ok decoded
  split at decoded
  next => cases decoded
  next limited =>
    obtain ⟨tifText, -, decoded⟩ := except_bind_ok decoded
    obtain ⟨timeInForce, -, decoded⟩ := except_bind_ok decoded
    obtain ⟨expireTime, expires, decoded⟩ := except_bind_ok decoded
    split at decoded
    next => cases decoded
    next expiring =>
      obtain ⟨clOrdId, -, decoded⟩ := except_bind_ok decoded
      obtain ⟨account, -, decoded⟩ := except_bind_ok decoded
      obtain ⟨symbolText, -, decoded⟩ := except_bind_ok decoded
      obtain ⟨symbol, named, decoded⟩ := except_bind_ok decoded
      obtain ⟨sideText, -, decoded⟩ := except_bind_ok decoded
      obtain ⟨side, -, decoded⟩ := except_bind_ok decoded
      obtain ⟨transactText, -, decoded⟩ := except_bind_ok decoded
      obtain ⟨transactTime, transacted, decoded⟩ := except_bind_ok decoded
      obtain ⟨orderQty, sized, decoded⟩ := except_bind_ok decoded
      cases decoded
      refine ⟨rfl, ⟨decodeOptionalPrice_le priced, reqU64_le sized⟩, List.forall_mem_singleton.2 ⟨_, named⟩,
        ⟨limited, expiring⟩, fun valid => ?_, fun _ _ => trivial⟩
      refine List.forall_mem_cons.2 ⟨valid, List.forall_mem_cons.2 ⟨parse_timestamp_ok transacted, fun timestamp member => ?_⟩⟩
      obtain rfl := Option.mem_toList.1 member
      obtain ⟨text, parsed⟩ := decodeOptional_ok expires
      exact parse_timestamp_ok parsed

theorem OrderCancelRequest.accepted {m : OrderCancelRequest} (decoded : OrderCancelRequest.decodeBody U header fields = .ok m) :
    Accepted U header (.orderCancelRequest m) := by
  obtain ⟨origClOrdId, -, decoded⟩ := except_bind_ok decoded
  obtain ⟨clOrdId, -, decoded⟩ := except_bind_ok decoded
  obtain ⟨symbolText, -, decoded⟩ := except_bind_ok decoded
  obtain ⟨symbol, named, decoded⟩ := except_bind_ok decoded
  obtain ⟨sideText, -, decoded⟩ := except_bind_ok decoded
  obtain ⟨side, -, decoded⟩ := except_bind_ok decoded
  cases decoded
  exact ⟨rfl, trivial, List.forall_mem_singleton.2 ⟨_, named⟩, trivial, dated_of_header rfl, fun _ _ => trivial⟩

theorem OrderCancelReplaceRequest.accepted {m : OrderCancelReplaceRequest}
    (decoded : OrderCancelReplaceRequest.decodeBody U header fields = .ok m) :
    Accepted U header (.orderCancelReplaceRequest m) := by
  obtain ⟨typeText, -, decoded⟩ := except_bind_ok decoded
  obtain ⟨ordType, -, decoded⟩ := except_bind_ok decoded
  obtain ⟨price, priced, decoded⟩ := except_bind_ok decoded
  split at decoded
  next => cases decoded
  next limited =>
    obtain ⟨origClOrdId, -, decoded⟩ := except_bind_ok decoded
    obtain ⟨clOrdId, -, decoded⟩ := except_bind_ok decoded
    obtain ⟨symbolText, -, decoded⟩ := except_bind_ok decoded
    obtain ⟨symbol, named, decoded⟩ := except_bind_ok decoded
    obtain ⟨sideText, -, decoded⟩ := except_bind_ok decoded
    obtain ⟨side, -, decoded⟩ := except_bind_ok decoded
    obtain ⟨orderQty, sized, decoded⟩ := except_bind_ok decoded
    cases decoded
    exact ⟨rfl, ⟨decodeOptionalPrice_le priced, reqU64_le sized⟩, List.forall_mem_singleton.2 ⟨_, named⟩, limited,
      dated_of_header rfl, fun _ _ => trivial⟩

theorem OrderMassCancelRequest.accepted {m : OrderMassCancelRequest}
    (decoded : OrderMassCancelRequest.decodeBody U header fields = .ok m) : Accepted U header (.orderMassCancelRequest m) := by
  obtain ⟨typeText, -, decoded⟩ := except_bind_ok decoded
  obtain ⟨requestType, -, decoded⟩ := except_bind_ok decoded
  obtain ⟨symbol, named, decoded⟩ := except_bind_ok decoded
  split at decoded
  next => cases decoded
  next secured =>
    obtain ⟨clOrdId, -, decoded⟩ := except_bind_ok decoded
    cases decoded
    refine ⟨rfl, trivial, fun symbol member => ?_, secured, dated_of_header rfl, fun _ _ => trivial⟩
    obtain rfl := Option.mem_toList.1 member
    exact decodeOptional_ok named

theorem OrderStatusRequest.accepted {m : OrderStatusRequest} (decoded : OrderStatusRequest.decodeBody U header fields = .ok m) :
    Accepted U header (.orderStatusRequest m) := by
  obtain ⟨orderId, -, decoded⟩ := except_bind_ok decoded
  obtain ⟨clOrdId, -, decoded⟩ := except_bind_ok decoded
  split at decoded
  next => cases decoded
  next chosen =>
    obtain ⟨symbolText, -, decoded⟩ := except_bind_ok decoded
    obtain ⟨symbol, named, decoded⟩ := except_bind_ok decoded
    cases decoded
    exact ⟨rfl, trivial, List.forall_mem_singleton.2 ⟨_, named⟩, chosen, dated_of_header rfl, fun _ _ => trivial⟩

theorem ExecutionReport.accepted {m : ExecutionReport} (decoded : ExecutionReport.decodeBody U header fields = .ok m) :
    Accepted U header (.executionReport m) := by
  obtain ⟨commission, charged, decoded⟩ := except_bind_ok decoded
  obtain ⟨commType, -, decoded⟩ := except_bind_ok decoded
  split at decoded
  next => cases decoded
  next typeFirst =>
    split at decoded
    next => cases decoded
    next amountFirst =>
      obtain ⟨lastLiquidityInd, -, decoded⟩ := except_bind_ok decoded
      obtain ⟨orderId, -, decoded⟩ := except_bind_ok decoded
      obtain ⟨execId, -, decoded⟩ := except_bind_ok decoded
      obtain ⟨execText, -, decoded⟩ := except_bind_ok decoded
      obtain ⟨execType, -, decoded⟩ := except_bind_ok decoded
      obtain ⟨statusText, -, decoded⟩ := except_bind_ok decoded
      obtain ⟨ordStatus, -, decoded⟩ := except_bind_ok decoded
      obtain ⟨symbolText, -, decoded⟩ := except_bind_ok decoded
      obtain ⟨symbol, named, decoded⟩ := except_bind_ok decoded
      obtain ⟨sideText, -, decoded⟩ := except_bind_ok decoded
      obtain ⟨side, -, decoded⟩ := except_bind_ok decoded
      obtain ⟨leavesQty, leaves, decoded⟩ := except_bind_ok decoded
      obtain ⟨cumQty, filled, decoded⟩ := except_bind_ok decoded
      obtain ⟨lastQty, lastSized, decoded⟩ := except_bind_ok decoded
      obtain ⟨lastPx, lastPriced, decoded⟩ := except_bind_ok decoded
      obtain ⟨price, priced, decoded⟩ := except_bind_ok decoded
      obtain ⟨secondaryExecId, numbered, decoded⟩ := except_bind_ok decoded
      obtain ⟨transactText, -, decoded⟩ := except_bind_ok decoded
      obtain ⟨transactTime, transacted, decoded⟩ := except_bind_ok decoded
      obtain ⟨ordRejReason, reasoned, decoded⟩ := except_bind_ok decoded
      obtain ⟨text, -, decoded⟩ := except_bind_ok decoded
      cases decoded
      have bottom : i64Min = -2 ^ 63 := rfl
      have top : i64Max = 2 ^ 63 - 1 := rfl
      have within : ∀ amount ∈ commission, amount.natAbs ≤ i64Max := by
        rintro amount rfl
        obtain ⟨text, parsed⟩ := decodeOptional_ok charged
        exact decodeCommission_ok parsed
      refine ⟨rfl, ⟨⟨reqU64_le leaves, reqU64_le filled, reqU64_le numbered⟩, optU64_le lastSized,
        decodeOptionalPrice_le lastPriced, decodeOptionalPrice_le priced, fun amount member => ?_, optU16_le reasoned⟩,
        List.forall_mem_singleton.2 ⟨_, named⟩, ?_, fun valid => ?_, fun _ _ same => ?_⟩
      · have size := within amount member
        omega
      · cases commission <;> cases commType <;> simp_all [DecodedMessage.Conditions]
      · exact List.forall_mem_cons.2 ⟨valid, List.forall_mem_singleton.2 (parse_timestamp_ok transacted)⟩
      · have size := within i64Min same
        rw [bottom, top] at size
        omega

theorem OrderMassCancelReport.accepted {m : OrderMassCancelReport}
    (decoded : OrderMassCancelReport.decodeBody header fields = .ok m) : Accepted U header (.orderMassCancelReport m) := by
  obtain ⟨bags, grouped, decoded⟩ := except_bind_ok decoded
  obtain ⟨entries, read, decoded⟩ := except_bind_ok decoded
  obtain ⟨responseText, -, decoded⟩ := except_bind_ok decoded
  obtain ⟨response, -, decoded⟩ := except_bind_ok decoded
  obtain ⟨total, counted, decoded⟩ := except_bind_ok decoded
  cases decoded
  have same := (forall₂_of_mapM read).length_eq
  exact ⟨rfl, reqU32_le counted, nofun, (Nat.le_of_eq same.symm).trans (group_few grouped), dated_of_header rfl, fun _ _ => trivial⟩

/-- Every value of a decoded list was decoded. -/
theorem mem_mapM {α β ε : Type} {decode : α → Except ε β} {items : List α} {values : List β}
    (decoded : items.mapM decode = .ok values) : ∀ value ∈ values, ∃ item, decode item = .ok value := by
  intro value member
  have each := forall₂_of_mapM decoded
  obtain ⟨place, bound, rfl⟩ := List.getElem_of_mem member
  exact ⟨_, each.get (each.length_eq ▸ bound) bound⟩

theorem MarketDataRequest.accepted {m : MarketDataRequest} (decoded : MarketDataRequest.decodeBody U header fields = .ok m) :
    Accepted U header (.marketDataRequest m) := by
  obtain ⟨typeBags, groupedTypes, decoded⟩ := except_bind_ok decoded
  obtain ⟨entryTypes, readTypes, decoded⟩ := except_bind_ok decoded
  obtain ⟨symbolBags, groupedSymbols, decoded⟩ := except_bind_ok decoded
  obtain ⟨symbols, readSymbols, decoded⟩ := except_bind_ok decoded
  obtain ⟨mdReqId, -, decoded⟩ := except_bind_ok decoded
  obtain ⟨typeText, -, decoded⟩ := except_bind_ok decoded
  obtain ⟨requestType, -, decoded⟩ := except_bind_ok decoded
  obtain ⟨depth, deep, decoded⟩ := except_bind_ok decoded
  cases decoded
  have types := (forall₂_of_mapM readTypes).length_eq
  have named := (forall₂_of_mapM readSymbols).length_eq
  have someTypes : entryTypes ≠ [] := fun empty => by
    rw [empty] at types
    exact requiredGroup_some groupedTypes (List.eq_nil_of_length_eq_zero types)
  have someSymbols : symbols ≠ [] := fun empty => by
    rw [empty] at named
    exact requiredGroup_some groupedSymbols (List.eq_nil_of_length_eq_zero named)
  refine ⟨rfl, reqU32_le deep, fun symbol member => ?_, ⟨⟨someTypes, types ▸ group_few (requiredGroup_ok groupedTypes)⟩,
    someSymbols, named ▸ group_few (requiredGroup_ok groupedSymbols)⟩, dated_of_header rfl, fun _ _ => trivial⟩
  obtain ⟨bag, read⟩ := mem_mapM readSymbols symbol member
  obtain ⟨text, -, parsed⟩ := except_bind_ok read
  exact ⟨text, parsed⟩

theorem SnapshotEntry.decode_le {bag : FieldBag} {entry : SnapshotEntry} (decoded : SnapshotEntry.decode bag = .ok entry) :
    entry.price ≤ u64Max ∧ entry.size ≤ u64Max := by
  obtain ⟨typeText, -, decoded⟩ := except_bind_ok decoded
  obtain ⟨entryType, -, decoded⟩ := except_bind_ok decoded
  obtain ⟨priceText, -, decoded⟩ := except_bind_ok decoded
  obtain ⟨price, priced, decoded⟩ := except_bind_ok decoded
  obtain ⟨size, sized, decoded⟩ := except_bind_ok decoded
  cases decoded
  exact ⟨decodePrice_le priced, reqU64_le sized⟩

theorem IncrementalEntry.decode_le {bag : FieldBag} {entry : IncrementalEntry}
    (decoded : IncrementalEntry.decode U bag = .ok entry) :
    (entry.price ≤ u64Max ∧ entry.size ≤ u64Max) ∧ ∃ text, Symbol.parse U text = .ok entry.symbol := by
  obtain ⟨actionText, -, decoded⟩ := except_bind_ok decoded
  obtain ⟨action, -, decoded⟩ := except_bind_ok decoded
  obtain ⟨typeText, -, decoded⟩ := except_bind_ok decoded
  obtain ⟨entryType, -, decoded⟩ := except_bind_ok decoded
  obtain ⟨symbolText, -, decoded⟩ := except_bind_ok decoded
  obtain ⟨symbol, named, decoded⟩ := except_bind_ok decoded
  obtain ⟨priceText, -, decoded⟩ := except_bind_ok decoded
  obtain ⟨price, priced, decoded⟩ := except_bind_ok decoded
  obtain ⟨size, sized, decoded⟩ := except_bind_ok decoded
  cases decoded
  exact ⟨⟨decodePrice_le priced, reqU64_le sized⟩, symbolText, named⟩

theorem MarketDataSnapshotFullRefresh.accepted {m : MarketDataSnapshotFullRefresh}
    (decoded : MarketDataSnapshotFullRefresh.decodeBody U header fields = .ok m) :
    Accepted U header (.marketDataSnapshotFullRefresh m) := by
  obtain ⟨bags, grouped, decoded⟩ := except_bind_ok decoded
  obtain ⟨entries, read, decoded⟩ := except_bind_ok decoded
  obtain ⟨mdReqId, -, decoded⟩ := except_bind_ok decoded
  obtain ⟨symbolText, -, decoded⟩ := except_bind_ok decoded
  obtain ⟨symbol, named, decoded⟩ := except_bind_ok decoded
  obtain ⟨rptSeq, numbered, decoded⟩ := except_bind_ok decoded
  cases decoded
  have same := (forall₂_of_mapM read).length_eq
  refine ⟨rfl, ⟨reqU64_le numbered, fun entry member => ?_⟩, List.forall_mem_singleton.2 ⟨_, named⟩,
    (Nat.le_of_eq same.symm).trans (group_few grouped), dated_of_header rfl, fun _ _ => trivial⟩
  obtain ⟨bag, decodes⟩ := mem_mapM read entry member
  exact SnapshotEntry.decode_le decodes

theorem MarketDataIncrementalRefresh.accepted {m : MarketDataIncrementalRefresh}
    (decoded : MarketDataIncrementalRefresh.decodeBody U header fields = .ok m) :
    Accepted U header (.marketDataIncrementalRefresh m) := by
  obtain ⟨bags, grouped, decoded⟩ := except_bind_ok decoded
  obtain ⟨entries, read, decoded⟩ := except_bind_ok decoded
  obtain ⟨mdReqId, -, decoded⟩ := except_bind_ok decoded
  obtain ⟨rptSeq, numbered, decoded⟩ := except_bind_ok decoded
  cases decoded
  have same := (forall₂_of_mapM read).length_eq
  refine ⟨rfl, ⟨reqU64_le numbered, fun entry member => ?_⟩, fun symbol member => ?_, (Nat.le_of_eq same.symm).trans (group_few grouped),
    dated_of_header rfl, fun other => absurd rfl (other _)⟩
  · obtain ⟨bag, decodes⟩ := mem_mapM read entry member
    exact (IncrementalEntry.decode_le decodes).1
  · obtain ⟨entry, listed, rfl⟩ := List.mem_map.1 member
    obtain ⟨bag, decodes⟩ := mem_mapM read entry listed
    exact (IncrementalEntry.decode_le decodes).2

/-- What the dispatch accepts, one of the decoders has accepted. -/
theorem decodeBody_accepted [Ironfix] {msgType : String} {message : DecodedMessage}
    (decoded : decodeBody U header fields msgType = .ok message) : message.msgType = msgType ∧ Accepted U header message := by
  unfold decodeBody at decoded
  split at decoded
  case h_21 => split at decoded <;> cases decoded
  all_goals obtain ⟨part, read, rfl⟩ := map_ok decoded
  case h_1 => exact ⟨rfl, Logon.accepted read⟩
  case h_2 => exact ⟨rfl, Logout.accepted read⟩
  case h_3 => exact ⟨rfl, Heartbeat.accepted read⟩
  case h_4 => exact ⟨rfl, TestRequest.accepted read⟩
  case h_5 => exact ⟨rfl, ResendRequest.accepted read⟩
  case h_6 => exact ⟨rfl, SequenceReset.accepted read⟩
  case h_7 => exact ⟨rfl, Reject.accepted read⟩
  case h_8 => exact ⟨rfl, NewOrderSingle.accepted read⟩
  case h_9 => exact ⟨rfl, OrderCancelRequest.accepted read⟩
  case h_10 => exact ⟨rfl, OrderCancelReplaceRequest.accepted read⟩
  case h_11 => exact ⟨rfl, OrderMassCancelRequest.accepted read⟩
  case h_12 => exact ⟨rfl, OrderStatusRequest.accepted read⟩
  case h_13 => exact ⟨rfl, ExecutionReport.accepted read⟩
  case h_14 => exact ⟨rfl, OrderCancelReject.accepted read⟩
  case h_15 => exact ⟨rfl, OrderMassCancelReport.accepted read⟩
  case h_16 => exact ⟨rfl, BusinessMessageReject.accepted read⟩
  case h_17 => exact ⟨rfl, MarketDataRequest.accepted read⟩
  case h_18 => exact ⟨rfl, MarketDataSnapshotFullRefresh.accepted read⟩
  case h_19 => exact ⟨rfl, MarketDataIncrementalRefresh.accepted read⟩
  case h_20 => exact ⟨rfl, MarketDataRequestReject.accepted read⟩

end Bodies

end Fauxchange.Fix
