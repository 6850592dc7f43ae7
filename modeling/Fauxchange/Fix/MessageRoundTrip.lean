import Fauxchange.Fix.AcceptedMessages

/-! The round trip of the dialect. A message comes back from its own frame exactly when it is dated and has no value that
is read back as another one, and every message that was accepted comes back. -/

namespace Fauxchange.Fix
open Exchange Lib FieldBag

/-- The message is encoded, the frame is decoded to the same message, and what is decoded is encoded to the same frame. -/
def RoundTrips [Ironfix] (U : Upstream) (message : DecodedMessage) : Prop :=
  ∃ bytes, message.encode = .ok bytes ∧ decode U bytes = .ok message ∧
    ∀ again, decode U bytes = .ok again → again.encode = .ok bytes

section Raw
variable [Ironfix] {U : Upstream} {raw : RawMessage} {message : DecodedMessage}

theorem decodeRaw_ok (decoded : decodeRaw U raw = .ok message) :
    raw.fields.length ≤ maxFieldsPerMessage ∧ ∃ header, StandardHeader.decode raw.fields = .ok header ∧
      decodeBody U header raw.fields raw.msgType = .ok message := by
  unfold decodeRaw at decoded
  split at decoded
  next => cases decoded
  next =>
    split at decoded
    next => cases decoded
    next =>
      split at decoded
      next => cases decoded
      next few =>
        obtain ⟨-, -, decoded⟩ := except_bind_ok decoded
        obtain ⟨header, headed, decoded⟩ := except_bind_ok decoded
        exact ⟨Nat.not_lt.1 few, header, headed, decoded⟩

theorem decodeRaw_of_parts {header : StandardHeader} (begins : raw.beginString = some beginString)
    (few : raw.fields.length ≤ maxFieldsPerMessage)
    (unique : rejectDuplicateScalarTags raw.fields (symbolRepeatsInMsgType raw.msgType) = .ok ())
    (headed : StandardHeader.decode raw.fields = .ok header)
    (bodied : decodeBody U header raw.fields raw.msgType = .ok message) : decodeRaw U raw = .ok message := by
  unfold decodeRaw
  rw [begins]
  dsimp only
  rw [if_neg (not_not_intro rfl), if_neg (Nat.not_lt.2 few), unique, headed]
  exact bodied

variable {kept : Nat} {bytes : List UInt8}

theorem length_framed (framed : Framed kept message.fields bytes raw) :
    raw.fields.length = message.fields.length + kept ∧ kept ≤ 3 := by
  obtain ⟨lead, trail, row, total, framing⟩ := framed.around
  have few := framing.length_le
  rw [List.length_map, List.length_append, total] at few
  refine ⟨?_, few⟩
  rw [row, List.length_append, List.length_append]
  omega

/-- A frame of a message whose values their texts give back is decoded to the message. -/
theorem decodeRaw_framed (framed : Framed kept message.fields bytes raw) (typed : message.Typed U)
    (conditions : message.Conditions) (dated : message.Dated) (faithful : message.Faithful kept) :
    decodeRaw U raw = .ok message := by
  have laid := DecodedMessage.laid framed
  have type := DecodedMessage.msgType_of_framed framed
  obtain ⟨length, few⟩ := length_framed framed
  have sent : isValidUtcTimestamp (headerOf message).sendingTime.value := by
    cases message <;> exact dated _ List.mem_cons_self
  refine decodeRaw_of_parts framed.begins ?_ ?_ (StandardHeader.decode_laid laid typed.sequence sent) ?_
  · rw [length]
    exact DecodedMessage.length_le conditions faithful few
  · rw [type]
    exact laid.unique message.groups_unique
  · rw [type]
    exact decodeBody_laid laid typed dated conditions faithful

end Raw

section Exact
variable [Ironfix] {U : Upstream} {message : DecodedMessage} {kept : Nat}

/-- What was decoded is dated, and no value of it stands for another one. -/
theorem decodeRaw_accepted {raw : RawMessage} (decoded : decodeRaw U raw = .ok message) :
    raw.fields.length ≤ maxFieldsPerMessage ∧ message.msgType = raw.msgType ∧
      Accepted U (headerOf message) message ∧ (headerOf message).msgSeqNum ≤ u64Max ∧ message.Dated := by
  obtain ⟨few, header, headed, bodied⟩ := decodeRaw_ok decoded
  obtain ⟨type, accepted⟩ := decodeBody_accepted bodied
  obtain ⟨sequence, sent⟩ := StandardHeader.decode_ok headed
  have same := accepted.headed
  subst same
  exact ⟨few, type, accepted, sequence, accepted.dated sent⟩

theorem roundTrips_of_frames (frames : Frames kept) (typed : message.Typed U) (meets : message.Meets) (dated : message.Dated)
    (faithful : message.Faithful kept) : RoundTrips U message := by
  obtain ⟨bytes, raw, framed⟩ := frames message.fields (DecodedMessage.sendable meets.printable)
  have read : decode U bytes = .ok message := by
    unfold decode
    rw [framed.parsed]
    exact decodeRaw_framed framed typed meets.conditions dated faithful
  refine ⟨bytes, framed.written, read, fun again decoded => ?_⟩
  obtain rfl : message = again := Except.ok.inj (read.symm.trans decoded)
  exact framed.written

/-- Of the messages that meet their field conditions exactly those come back from their frames that are dated and have no
value that is read back as another one. -/
theorem messages_roundTrip_iff (frames : Frames kept) (typed : message.Typed U) (meets : message.Meets) :
    RoundTrips U message ↔ message.Dated ∧ message.Faithful kept := by
  constructor
  · rintro ⟨bytes, encoded, decoded, -⟩
    obtain ⟨sent, raw, framed⟩ := frames message.fields (DecodedMessage.sendable meets.printable)
    obtain rfl : sent = bytes := Except.ok.inj (framed.written.symm.trans encoded)
    unfold decode at decoded
    rw [framed.parsed] at decoded
    obtain ⟨few, -, accepted, -, dated⟩ := decodeRaw_accepted decoded
    obtain ⟨length, -⟩ := length_framed framed
    refine ⟨dated, ?_⟩
    cases message with
    | marketDataIncrementalRefresh m =>
      rw [length, DecodedMessage.length_increments] at few
      exact few
    | _ => exact accepted.faithful nofun kept
  · rintro ⟨dated, faithful⟩
    exact roundTrips_of_frames frames typed meets dated faithful

end Exact

section Counts
variable {fields : FieldBag}

theorem countP_cons_tag {tag : Nat} {tags : List Nat} (fresh : tag ∉ tags) :
    fields.countP (fun field => field.tag ∈ tag :: tags) =
      fields.occurrences tag + fields.countP (fun field => field.tag ∈ tags) := by
  induction fields with
  | nil => rfl
  | cons field rest ih =>
    have here : FieldBag.occurrences (field :: rest) tag =
        FieldBag.occurrences rest tag + if field.tag == tag then 1 else 0 := List.countP_cons
    rw [List.countP_cons, List.countP_cons, ih, here]
    by_cases same : field.tag = tag
    · simp [same, fresh]
      omega
    · simp [same]
      omega

/-- Different tags share no field. -/
theorem sum_occurrences {tags : List Nat} (distinct : tags.Nodup) :
    fields.countP (fun field => field.tag ∈ tags) = (tags.map fields.occurrences).sum := by
  induction tags with
  | nil => simp
  | cons tag rest ih =>
    obtain ⟨fresh, later⟩ := List.nodup_cons.1 distinct
    rw [countP_cons_tag fresh, ih later, List.map_cons, List.sum_cons]

theorem occurs_of_reqStr {tag : Nat} {text : String} (read : fields.reqStr tag = .ok text) : 1 ≤ fields.occurrences tag := by
  obtain ⟨field, first, here, -⟩ := reqStr_ok read
  rw [← here]
  exact occurs_of_mem (List.mem_of_find?_eq_some first)

theorem occurs_of_reqU64 {tag value : Nat} (read : fields.reqU64 tag = .ok value) : 1 ≤ fields.occurrences tag := by
  obtain ⟨field, first, here, -⟩ := reqU64_ok read
  rw [← here]
  exact occurs_of_mem (List.mem_of_find?_eq_some first)

def incrementTags : List Nat := [Tag.mdUpdateAction, Tag.mdEntryType, Tag.symbol, Tag.mdEntryPx, Tag.mdEntrySize]

def headerTags : List Nat := [Tag.senderCompId, Tag.targetCompId, Tag.msgSeqNum, Tag.sendingTime]

/-- All tags of a frame with a refresh. -/
def refreshTags : List Nat :=
  framingTags ++ (Tag.msgType :: headerTags ++ [Tag.mdReqId, Tag.rptSeq, Tag.noMdEntries] ++ incrementTags)

theorem header_occurs {header : StandardHeader} (headed : StandardHeader.decode fields = .ok header) :
    ∀ tag ∈ headerTags, 1 ≤ fields.occurrences tag := by
  obtain ⟨senderText, sender, headed⟩ := except_bind_ok headed
  obtain ⟨senderCompId, -, headed⟩ := except_bind_ok headed
  obtain ⟨targetText, target, headed⟩ := except_bind_ok headed
  obtain ⟨targetCompId, -, headed⟩ := except_bind_ok headed
  obtain ⟨number, numbered, headed⟩ := except_bind_ok headed
  obtain ⟨sentText, sent, headed⟩ := except_bind_ok headed
  unfold headerTags
  simp only [List.forall_mem_cons]
  exact ⟨occurs_of_reqStr sender, occurs_of_reqStr target, occurs_of_reqU64 numbered, occurs_of_reqStr sent, nofun⟩

theorem increments_occur {U : Upstream} {header : StandardHeader} {m : MarketDataIncrementalRefresh}
    (bodied : MarketDataIncrementalRefresh.decodeBody U header fields = .ok m) :
    (∀ tag ∈ [Tag.mdReqId, Tag.rptSeq, Tag.noMdEntries], 1 ≤ fields.occurrences tag) ∧
      ∀ tag ∈ incrementTags, m.entries.length ≤ fields.occurrences tag := by
  obtain ⟨bags, grouped, bodied⟩ := except_bind_ok bodied
  obtain ⟨entries, read, bodied⟩ := except_bind_ok bodied
  obtain ⟨mdReqId, requested, bodied⟩ := except_bind_ok bodied
  obtain ⟨rptSeq, reported, bodied⟩ := except_bind_ok bodied
  cases bodied
  have places : bags.length = entries.length := (forall₂_of_mapM read).length_eq
  constructor
  · obtain ⟨declared, -⟩ := FieldBag.group_ok List.mem_cons_self grouped
    obtain ⟨wide, counted, -⟩ := except_bind_ok declared
    simp only [List.forall_mem_cons]
    exact ⟨occurs_of_reqStr requested, occurs_of_reqU64 reported, occurs_of_reqU64 counted, nofun⟩
  · intro tag member
    obtain ⟨before, rest, cut⟩ := cut_of_group List.mem_cons_self (readsFirst_incremental U) grouped read
    have floor := cut.floor member
    have total := cut.occurrences_eq tag
    dsimp only
    omega

end Counts

/-- A frame as it is parsed: with the type of its message, and with the framing fields that are kept. -/
structure Whole (kept : Nat) (raw : RawMessage) : Prop where
  typed : 1 ≤ FieldBag.occurrences raw.fields Tag.msgType
  framed : kept ≤ raw.fields.countP fun field => field.tag ∈ framingTags

section Stable
variable [Ironfix] {U : Upstream} {message : DecodedMessage} {kept : Nat} {raw : RawMessage}

/-- The scalars of a refresh that was accepted, and the tags of its entries, stand in its frame as often as they are written
again. -/
theorem increments_fit {m : MarketDataIncrementalRefresh} (whole : Whole kept raw)
    (decoded : decodeRaw U raw = .ok (.marketDataIncrementalRefresh m)) :
    8 + 5 * m.entries.length + kept ≤ raw.fields.length := by
  obtain ⟨-, header, headed, bodied⟩ := decodeRaw_ok decoded
  obtain ⟨type, -⟩ := decodeBody_accepted bodied
  rw [← type] at bodied
  obtain ⟨part, bodied, same⟩ := map_ok bodied
  cases same
  have heads := header_occurs headed
  obtain ⟨scalars, entries⟩ := increments_occur bodied
  have framing := @sum_occurrences raw.fields framingTags (by decide)
  have all := @sum_occurrences raw.fields refreshTags (by decide)
  have most : raw.fields.countP (fun field => field.tag ∈ refreshTags) ≤ raw.fields.length := List.countP_le_length
  have typed := whole.typed
  have kept := whole.framed
  unfold headerTags at heads
  unfold incrementTags at entries
  rw [framing] at kept
  rw [all] at most
  unfold refreshTags headerTags incrementTags at most
  rw [List.map_append, List.sum_append] at most
  simp only [List.map_cons, List.map_append, List.map_nil, List.sum_cons, List.sum_append, List.sum_nil, List.cons_append,
    List.forall_mem_cons] at most heads scalars entries
  omega

/-- Every message that was accepted comes back from its own frame. -/
theorem accepted_roundTrips (frames : Frames kept) (renormal : Renormal U) (whole : Whole kept raw)
    (decoded : decodeRaw U raw = .ok message) (printable : ∀ text ∈ message.strings, Printable text) : RoundTrips U message := by
  obtain ⟨few, -, accepted, sequence, dated⟩ := decodeRaw_accepted decoded
  have canonical : ∀ symbol ∈ message.symbols, Symbol.parse U symbol = .ok symbol := fun symbol member => by
    obtain ⟨text, parsed⟩ := accepted.canonical symbol member
    exact renormal text symbol parsed
  have faithful : message.Faithful kept := by
    cases message with
    | marketDataIncrementalRefresh m => exact Nat.le_trans (increments_fit whole decoded) few
    | _ => exact accepted.faithful nofun kept
  exact roundTrips_of_frames frames ⟨sequence, accepted.widths, canonical⟩ ⟨printable, accepted.conditions⟩ dated faithful

end Stable

section Refreshes

theorem renormal_reference : Renormal referenceUpstream := by
  intro text symbol parsed
  have listed : symbol = "BTC-20351231-50000-C" ∨ symbol = "BTC-20351231-50000-P" := by
    unfold Symbol.parse at parsed
    split at parsed
    next contract grammar =>
      obtain rfl := Except.ok.inj parsed
      change ReferenceBook.parse text = .ok contract at grammar
      unfold ReferenceBook.parse at grammar
      split at grammar
      next =>
        cases grammar
        exact Or.inl (by decide +kernel)
      next =>
        cases grammar
        exact Or.inr (by decide +kernel)
      next => cases grammar
    next => cases parsed
  rcases listed with rfl | rfl
  · decide +kernel
  · decide +kernel

theorem maker_short : "MAKER".utf8ByteSize ≤ 32 := by decide +kernel

theorem gateway_short : "GATEWAY".utf8ByteSize ≤ 32 := by decide +kernel

def makerHeader : StandardHeader := ⟨⟨"GATEWAY", gateway_short⟩, ⟨"MAKER", maker_short⟩, 2, ⟨"20240329-12:00:00.500"⟩⟩

def bidMoves : DecodedMessage :=
  .marketDataIncrementalRefresh ⟨makerHeader, "R-1", 7,
    [⟨.change, .bid, "BTC-20351231-50000-C", 1050, 5⟩, ⟨.delete, .offer, "BTC-20351231-50000-P", 0, 0⟩]⟩

theorem bidMoves_roundTrips : @RoundTrips referenceWire referenceUpstream bidMoves :=
  (@messages_roundTrip_iff referenceWire referenceUpstream bidMoves 3 referenceWire_frames
    ⟨by decide, by simp +decide [bidMoves, DecodedMessage.Widths], by decide +kernel⟩
    ⟨by decide +kernel, (by decide : 2 ≤ maxGroupEntries)⟩).2
    ⟨by decide +kernel, (by decide : 8 + 5 * 2 + 3 ≤ maxFieldsPerMessage)⟩

/-- A refresh with a price of more zeroes than are written, and with a foreign field after its entries. -/
def bidFrame : RawMessage where
  beginString := some beginString
  msgType := "X"
  fields :=
    [⟨8, some "FIX.4.4"⟩, ⟨9, some "120"⟩, ⟨Tag.msgType, some "X"⟩] ++ makerHeader.encode ++
      [⟨Tag.mdReqId, some "R-1"⟩, ⟨Tag.rptSeq, some "007"⟩, ⟨Tag.noMdEntries, some "1"⟩, ⟨Tag.mdUpdateAction, some "1"⟩,
        ⟨Tag.symbol, some "BTC-20351231-50000-C"⟩, ⟨Tag.mdEntryType, some "0"⟩, ⟨Tag.mdEntrySize, some "+5"⟩,
        ⟨Tag.mdEntryPx, some "0010.5"⟩, ⟨5000, some "x"⟩, ⟨10, some "000"⟩]

theorem bidFrame_roundTrips : @RoundTrips referenceWire referenceUpstream
    (.marketDataIncrementalRefresh ⟨makerHeader, "R-1", 7, [⟨.change, .bid, "BTC-20351231-50000-C", 1050, 5⟩]⟩) :=
  @accepted_roundTrips referenceWire referenceUpstream _ 3 bidFrame referenceWire_frames renormal_reference
    ⟨by decide +kernel, by decide +kernel⟩ (by decide +kernel) (by decide +kernel)

end Refreshes

end Fauxchange.Fix
