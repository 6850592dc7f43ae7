import Fauxchange.Exchange.StoreRebuild
import Fauxchange.Lib.LastWrite

/-! The client order ids after a restart. Live, the last commit to write a client order id counts, whichever underlying
it is on; the recovery replays one underlying after the other, so there the underlying that boots last counts. -/

namespace Fauxchange.Exchange
open Lib Microstructure

/-- What an event does to the index: the client order ids it retires and those it records, in order. -/
def correlationWrites (event : VenueEvent) : List (ClientKey × Option ClOrdIdRecord) :=
  match event.command, event.outcome with
  | .addOrder order, .added .. | .addOrder order, .market .. =>
    (order.clientOrderId.map fun clOrdId => ((order.account, clOrdId),
      some ⟨order.orderId, order.symbol, order.side, order.quantity, event.underlyingSequence⟩)).toList
  | .replace order, .replace cancelled add =>
    (if cancelled then (order.origClientOrderId.map fun original => ((order.account, original), none)).toList else []) ++
      match add with
      | .rejected .. => []
      | _ => (order.clientOrderId.map fun clOrdId => ((order.account, clOrdId),
          some ⟨order.newOrderId, order.symbol, order.side, order.quantity, event.underlyingSequence⟩)).toList
  | _, _ => []

/-- What an event leaves under a key, if it writes it: a record, or nothing. -/
def touches (key : ClientKey) (event : VenueEvent) : Option (Option ClOrdIdRecord) :=
  lastTouch (fun write => if write.1 = key then some write.2 else none) (correlationWrites event)

namespace ClOrdIdIndex

/-- One write. -/
def write (index : ClOrdIdIndex) (entry : ClientKey × Option ClOrdIdRecord) : ClOrdIdIndex :=
  match entry.2 with
  | none => index.retire entry.1.1 entry.1.2
  | some record => recordOrWarn index entry.1.1 entry.1.2 record

/-- The index takes a write: a record under a new key passes both ceilings. -/
def Accepts (index : ClOrdIdIndex) (entry : ClientKey × Option ClOrdIdRecord) : Prop :=
  ∀ record, entry.2 = some record → (index.record entry.1.1 entry.1.2 record).1 = .ok ()

/-- The writes in turn, none of them refused. -/
def AcceptsAll (index : ClOrdIdIndex) : List (ClientKey × Option ClOrdIdRecord) → Prop
  | [] => True
  | entry :: rest => index.Accepts entry ∧ (index.write entry).AcceptsAll rest

/-- The index once the actors have published a list of events. -/
def publishAll (index : ClOrdIdIndex) (events : List VenueEvent) : ClOrdIdIndex :=
  events.foldl (fun index event => applyCommittedCorrelation index event.underlyingSequence event.command event.outcome)
    index

theorem applyCommittedCorrelation_eq (index : ClOrdIdIndex) (event : VenueEvent) :
    applyCommittedCorrelation index event.underlyingSequence event.command event.outcome =
      (correlationWrites event).foldl write index := by
  obtain ⟨schema, sequence, venueTs, command, outcome⟩ := event
  cases command with
  | addOrder order =>
    obtain ⟨symbol, orderId, account, owner, clOrdId, side, orderType, limitPrice, quantity, tif, stp⟩ := order
    cases clOrdId <;> cases outcome <;> rfl
  | replace order =>
    obtain ⟨symbol, orderId, newOrderId, account, clOrdId, original, side, limitPrice, quantity, tif⟩ := order
    cases outcome with
    | replace cancelled add => cases cancelled <;> cases original <;> cases clOrdId <;> cases add <;> rfl
    | _ => rfl
  | _ => cases outcome <;> rfl

theorem publishAll_eq (index : ClOrdIdIndex) (events : List VenueEvent) :
    index.publishAll events = (events.flatMap correlationWrites).foldl write index := by
  induction events generalizing index with
  | nil => rfl
  | cons event rest ih =>
    rw [List.flatMap_cons, List.foldl_append, ← applyCommittedCorrelation_eq]
    exact ih _

theorem record_map {index : ClOrdIdIndex} {account : AccountId} {clOrdId : ClientOrderId} {entry : ClOrdIdRecord}
    (taken : (index.record account clOrdId entry).1 = .ok ()) :
    (index.record account clOrdId entry).2.map = index.map.insert (account, clOrdId) entry := by
  revert taken
  unfold ClOrdIdIndex.record
  split
  · intro taken
    rfl
  · split
    · intro taken
      cases taken
    · dsimp only
      split
      · intro taken
        cases taken
      · intro taken
        rfl

/-- An accepted write sets its key and no other. -/
theorem resolve_write {index : ClOrdIdIndex} {entry : ClientKey × Option ClOrdIdRecord} (accepts : index.Accepts entry)
    (key : ClientKey) :
    (index.write entry).map[key]? = if entry.1 = key then entry.2 else index.map[key]? := by
  obtain ⟨⟨account, clOrdId⟩, value⟩ := entry
  cases value with
  | some record =>
    have taken := record_map (accepts record rfl)
    change (index.record account clOrdId record).2.map[key]? = _
    rw [taken, Std.ExtTreeMap.getElem?_insert]
    simp only [pairCompare_eq_iff]
  | none =>
    unfold write retire
    dsimp only
    split
    next present =>
      have erased : (index.map.erase (account, clOrdId))[key]? =
          if (account, clOrdId) = key then none else index.map[key]? := by
        rw [Std.ExtTreeMap.getElem?_erase]
        simp only [pairCompare_eq_iff]
      split
      · exact erased
      · split <;> exact erased
    next absent =>
      split
      next same =>
        rw [← same]
        exact Std.ExtTreeMap.getElem?_eq_none absent
      next => rfl

/-- The last write of a key is what resolves. -/
theorem resolve_writes {index : ClOrdIdIndex} {writes : List (ClientKey × Option ClOrdIdRecord)}
    (accepts : index.AcceptsAll writes) (key : ClientKey) :
    (writes.foldl write index).map[key]? =
      (lastTouch (fun write => if write.1 = key then some write.2 else none) writes).getD index.map[key]? := by
  induction writes generalizing index with
  | nil => rfl
  | cons entry rest ih =>
    rw [List.foldl_cons, ih accepts.2, resolve_write accepts.1, lastTouch_cons]
    cases lastTouch (fun write => if write.1 = key then some write.2 else none) rest with
    | some value => rfl
    | none =>
      rw [Option.none_or]
      by_cases same : entry.1 = key
      · rw [if_pos same, if_pos same]
        rfl
      · rw [if_neg same, if_neg same]

theorem resolve_publishAll {index : ClOrdIdIndex} {events : List VenueEvent}
    (accepts : index.AcceptsAll (events.flatMap correlationWrites)) (key : ClientKey) :
    (index.publishAll events).map[key]? = (lastTouch (touches key) events).getD index.map[key]? := by
  rw [publishAll_eq, resolve_writes accepts, lastTouch_flatMap]
  rfl

end ClOrdIdIndex

section Recorded
variable {U : Upstream}

/-- A record names the contract of a placement that the venue has not refused. -/
theorem recorded_cases {event : VenueEvent} {write : ClientKey × Option ClOrdIdRecord} {record : ClOrdIdRecord}
    (written : write ∈ correlationWrites event) (recorded : write.2 = some record) :
    ((∃ placed, event.command = .addOrder placed ∧ placed.symbol = record.symbol) ∨
      ∃ amended, event.command = .replace amended ∧ amended.symbol = record.symbol) ∧
    (∀ kind reason, event.outcome ≠ .rejected kind reason) ∧ ∀ id sequence terminal,
      event.outcome ≠ .duplicate id sequence terminal := by
  obtain ⟨schema, sequence, venueTs, command, outcome⟩ := event
  have placing : ∀ {id : Option ClientOrderId} {account : AccountId} {entry : ClOrdIdRecord},
      write ∈ (id.map fun id => ((account, id), some entry)).toList → entry.symbol = record.symbol := by
    intro id account entry listed
    obtain ⟨id, -, rfl⟩ := Option.map_eq_some_iff.1 (Option.mem_toList.1 listed)
    rw [← Option.some.inj recorded]
  cases command with
  | addOrder placed =>
    cases outcome with
    | added => exact ⟨Or.inl ⟨placed, rfl, placing written⟩, by simp, by simp⟩
    | market => exact ⟨Or.inl ⟨placed, rfl, placing written⟩, by simp, by simp⟩
    | _ => cases written
  | replace amended =>
    cases outcome with
    | replace cancelled add =>
      refine ⟨Or.inr ⟨amended, rfl, ?_⟩, by simp, by simp⟩
      rcases List.mem_append.1 written with retired | placed
      · split at retired
        · obtain ⟨original, -, rfl⟩ := Option.map_eq_some_iff.1 (Option.mem_toList.1 retired)
          cases recorded
        · cases retired
      · cases add with
        | rejected => cases placed
        | _ => exact placing placed
    | _ => cases written
  | _ => cases outcome <;> cases written

/-- A client order id is recorded for a contract of the executor's underlying. -/
theorem SequencedState.execute_writes_symbol (order : VisitOrder) (state : SequencedState U) (ctx : ExecutionContext)
    {write : ClientKey × Option ClOrdIdRecord} {record : ClOrdIdRecord}
    (written : write ∈ correlationWrites (.new ctx.sequence ctx.venueTs ctx.command (state.execute order ctx).1))
    (recorded : write.2 = some record) : underlyingOf U record.symbol = some state.underlyingBook.underlying := by
  obtain ⟨named, accepted, fresh⟩ := recorded_cases written recorded
  change (∃ placed, ctx.command = _ ∧ _) ∨ ∃ amended, ctx.command = _ ∧ _ at named
  change ∀ kind reason, (state.execute order ctx).1 ≠ _ at accepted
  change ∀ id sequence terminal, (state.execute order ctx).1 ≠ _ at fresh
  cases resolved : state.underlyingBook.resolveLeafVivify record.symbol with
  | ok found => exact resolveLeafVivify_underlying resolved
  | error reason =>
    exfalso
    unfold execute at accepted fresh
    rcases named with ⟨placed, command, symbol⟩ | ⟨amended, command, symbol⟩
    · rw [← symbol] at resolved
      have refused : ∀ type price, state.executeAddOrder order ctx placed.placement type price =
          (.rejected .invalidOrder reason, state) := by
        intro type price
        unfold executeAddOrder
        rw [show placed.placement.symbol = placed.symbol from rfl, resolved]
      have answered : (∃ kind reason, (state.addWithIdempotency order ctx placed).1 = .rejected kind reason) ∨
          ∃ id sequence terminal, (state.addWithIdempotency order ctx placed).1 = .duplicate id sequence terminal := by
        simp only [addWithIdempotency, refused]
        split
        · exact Or.inl ⟨_, _, rfl⟩
        · split
          · split
            · exact Or.inr ⟨_, _, _, rfl⟩
            · exact Or.inl ⟨_, _, rfl⟩
          · exact Or.inl ⟨_, _, rfl⟩
      rw [command] at accepted fresh
      rcases answered with ⟨kind, why, rejected⟩ | ⟨id, sequence, terminal, duplicate⟩
      · exact accepted _ _ rejected
      · exact fresh _ _ _ duplicate
    · rw [← symbol] at resolved
      simp only [command, executeReplace, resolved] at accepted
      exact accepted _ _ rfl

end Recorded

section Boot
variable {U : Upstream} {lineage : LineageId} {microstructure : Option MicrostructureConfig} {hashOrder : VisitOrder}

theorem reduceCommands_index {records : List JournalRecord} {underlying : String} {executor last : MatchingExecutor U}
    {index published : Option ClOrdIdIndex} {commands : List JournalCommand} {events : List VenueEvent}
    (reduced : reduceCommands records underlying lineage microstructure executor index commands =
      .ok (events, last, published)) : published = index.map fun index => index.publishAll events := by
  induction commands generalizing executor index events with
  | nil =>
    cases reduced
    cases published <;> rfl
  | cons command rest ih =>
    simp only [reduceCommands] at reduced
    split at reduced
    · cases reduced
    · split at reduced
      · cases reduced
      · split at reduced
        · cases reduced
        next later =>
          cases reduced
          rw [ih later, Option.map_map]
          rfl

/-- The recovery publishes what it has derived. -/
theorem reduceIntoExecutor_index {records : List JournalRecord} {underlying : String} {executor : MatchingExecutor U}
    {index : Option ClOrdIdIndex} {recovered : Recovered U}
    (reduced : reduceIntoExecutor records executor underlying lineage microstructure index = .ok recovered) :
    recovered.clordidIndex = index.map fun index => index.publishAll recovered.events := by
  unfold reduceIntoExecutor at reduced
  split at reduced
  · cases reduced
  next commands =>
    cases reduced
    exact reduceCommands_index commands

/-- The boot pass: the underlyings recover in turn, all into one index. -/
def recoverAll (U : Upstream) (lineage : LineageId) (microstructure : Option MicrostructureConfig)
    (hashOrder : VisitOrder) (index : Option ClOrdIdIndex) : List Lane → Except JournalError (Option ClOrdIdIndex)
  | [] => .ok index
  | lane :: rest =>
    match reduceIntoExecutor lane.records (freshExecutor U lane.underlying microstructure none hashOrder)
        lane.underlying lineage microstructure index with
    | .error error => .error error
    | .ok recovered => recoverAll U lineage microstructure hashOrder recovered.clordidIndex rest

/-- The stored event and the re-derived one write the same. -/
theorem correlationWrites_of_matches {stored derived : VenueEvent} (same : stored.envelope = derived.envelope)
    (matched : storedEventMatches stored derived = true) : correlationWrites stored = correlationWrites derived := by
  rcases of_decide_eq_true matched with rfl | upgraded
  · rfl
  · rw [← upgraded]
    unfold upgradeLegacyRejectKind
    split
    next kept _ =>
      unfold correlationWrites
      rw [kept]
      cases stored.command <;> rfl
    next kept _ =>
      unfold correlationWrites
      rw [kept]
      cases stored.command <;> rfl
    next => rfl

/-- A run of the actors up to a crash at which every journaled command is committed. -/
structure CommittedRun (lanes : List Lane) (merged : List (String × VenueEvent)) : Prop where
  apart : (lanes.map Lane.underlying).Nodup
  crashed : ∀ lane ∈ lanes, lane.Crashed
  committed : ∀ lane ∈ lanes, lane.cut = []
  interleaves : Interleaves lanes merged

/-- The events in the order in which the recovery replays them. -/
def inBootOrder (lanes : List Lane) : List (String × VenueEvent) :=
  lanes.flatMap fun lane => lane.emitted.map fun event => (lane.underlying, event)

/-- The underlying that writes a key last, with what it leaves there. -/
def lastWriter (key : ClientKey) (events : List (String × VenueEvent)) : Option (String × Option ClOrdIdRecord) :=
  lastTouch (fun entry => (touches key entry.2).map (entry.1, ·)) events

/-- The underlying that writes a key last writes it last in both orders, or else both end with a retirement. -/
def WritesLastInBoth (key : ClientKey) (events others : List (String × VenueEvent)) : Prop :=
  (lastWriter key events).map Prod.fst = (lastWriter key others).map Prod.fst ∨
    (lastWriter key events).map Prod.snd = some none ∧ (lastWriter key others).map Prod.snd = some none

section Lane
variable {lane : Lane} {recovered : Recovered U}

theorem Boots.whole (boots : Boots lineage microstructure hashOrder lane recovered) (crashed : lane.Crashed)
    (committed : lane.cut = []) {α : Type} {reads : VenueEvent → List α}
    (agree : ∀ {stored derived}, VenueEvent.envelope stored = VenueEvent.envelope derived →
      storedEventMatches stored derived = true → reads stored = reads derived) :
    recovered.events.flatMap reads = lane.emitted.flatMap reads := by
  have answered := (boots.answers crashed).2
  rw [committed, List.map_eq_nil_iff] at answered
  rw [boots.reads crashed agree, answered, List.flatMap_nil, List.append_nil]

/-- What a committed event records is a contract of its underlying. -/
theorem Boots.recorded_symbol (boots : Boots lineage microstructure hashOrder lane recovered) (crashed : lane.Crashed)
    (committed : lane.cut = []) {event : VenueEvent} (emitted : event ∈ lane.emitted)
    {write : ClientKey × Option ClOrdIdRecord} {record : ClOrdIdRecord} (written : write ∈ correlationWrites event)
    (recorded : write.2 = some record) : underlyingOf U record.symbol = some lane.underlying := by
  have listed : write ∈ lane.emitted.flatMap correlationWrites := List.mem_flatMap.2 ⟨event, emitted, written⟩
  rw [← boots.whole crashed committed correlationWrites_of_matches, ← boots.reexecuted crashed] at listed
  obtain ⟨derived, member, wrote⟩ := List.mem_flatMap.1 listed
  have each : ∀ (executor : MatchingExecutor U) command, executor.state.underlyingBook.underlying = lane.underlying →
      write ∈ correlationWrites (deriveEvent lane.underlying lineage executor command).1 →
        underlyingOf U record.symbol = some lane.underlying := by
    intro executor command named wrote
    rw [← named]
    exact SequencedState.execute_writes_symbol executor.hashOrder executor.state
      (command.context lane.underlying lineage) wrote recorded
  exact @reexecute_forall _ _ _ (fun event => write ∈ correlationWrites event →
    underlyingOf U record.symbol = some lane.underlying) each _ _ rfl derived member wrote

end Lane

section Run
variable {lanes : List Lane} {merged : List (String × VenueEvent)}

theorem recoverAll_booted {index last : Option ClOrdIdIndex}
    (done : recoverAll U lineage microstructure hashOrder index lanes = .ok last) :
    ∀ lane ∈ lanes, ∃ recovered : Recovered U, Boots lineage microstructure hashOrder lane recovered := by
  induction lanes generalizing index with
  | nil => simp
  | cons lane rest ih =>
    simp only [recoverAll] at done
    split at done
    · cases done
    next recovered reduced =>
      intro other member
      rcases List.mem_cons.1 member with rfl | later
      · exact ⟨recovered, index, reduced⟩
      · exact ih done other later

/-- The boot pass publishes the committed events in boot order. -/
theorem recoverAll_index {index : ClOrdIdIndex} {last : Option ClOrdIdIndex} (crashed : ∀ lane ∈ lanes, lane.Crashed)
    (committed : ∀ lane ∈ lanes, lane.cut = [])
    (done : recoverAll U lineage microstructure hashOrder (some index) lanes = .ok last) :
    last = some (index.publishAll ((inBootOrder lanes).map Prod.snd)) := by
  induction lanes generalizing index with
  | nil =>
    cases done
    rfl
  | cons lane rest ih =>
    simp only [recoverAll] at done
    split at done
    · cases done
    next recovered reduced =>
      have boots : Boots lineage microstructure hashOrder lane recovered := ⟨some index, reduced⟩
      have same := boots.whole (crashed lane (by simp)) (committed lane (by simp)) correlationWrites_of_matches
      have published := reduceIntoExecutor_index reduced
      rw [Option.map_some, ClOrdIdIndex.publishAll_eq, same, ← ClOrdIdIndex.publishAll_eq] at published
      rw [published] at done
      rw [ih (fun other member => crashed other (List.mem_cons_of_mem _ member))
        (fun other member => committed other (List.mem_cons_of_mem _ member)) done]
      unfold inBootOrder ClOrdIdIndex.publishAll
      rw [List.flatMap_cons, List.map_append, List.foldl_append, List.map_map]
      rw [show lane.emitted.map (Prod.snd ∘ fun event => (lane.underlying, event)) = lane.emitted from
        List.map_id' lane.emitted]

/-- A log of tagged events and its last writer. -/
theorem lastTouch_map_snd (key : ClientKey) (events : List (String × VenueEvent)) :
    lastTouch (touches key) (events.map Prod.snd) = (lastWriter key events).map Prod.snd := by
  unfold lastWriter
  induction events with
  | nil => rfl
  | cons first rest ih =>
    rw [List.map_cons, lastTouch_cons, lastTouch_cons, ih, Option.map_or, Option.map_map]
    cases touches key first.2 <;> rfl

theorem lastWriter_owned {key : ClientKey} {events : List (String × VenueEvent)} {underlying : String}
    {left : Option ClOrdIdRecord} (last : lastWriter key events = some (underlying, left)) :
    lastTouch (touches key) (eventsOn underlying events) = some left := by
  rw [eventsOn, lastTouch_map]
  exact lastTouch_owned last

theorem eventsOn_inBootOrder (lanes : List Lane) (underlying : String) :
    eventsOn underlying (inBootOrder lanes) =
      (lanes.filter fun lane => lane.underlying = underlying).flatMap Lane.emitted := by
  unfold eventsOn inBootOrder
  rw [List.filter_flatMap, List.map_flatMap]
  induction lanes with
  | nil => rfl
  | cons lane rest ih =>
    rw [List.flatMap_cons, ih]
    by_cases same : lane.underlying = underlying
    · rw [List.filter_cons_of_pos (by simpa using same), List.flatMap_cons]
      refine congrArg (· ++ _) ?_
      rw [List.filter_eq_self.2 (by simp [same]), List.map_map]
      exact List.map_id' lane.emitted
    · rw [List.filter_cons_of_neg (by simpa using same)]
      simp [same]

theorem mem_eventsOn {underlying : String} {event : VenueEvent} {events : List (String × VenueEvent)} :
    event ∈ eventsOn underlying events ↔ (underlying, event) ∈ events := by
  unfold eventsOn
  rw [List.mem_map]
  constructor
  · rintro ⟨⟨tag, other⟩, member, rfl⟩
    obtain ⟨listed, same⟩ := List.mem_filter.1 member
    rw [← of_decide_eq_true same]
    exact listed
  · intro listed
    exact ⟨(underlying, event), List.mem_filter.2 ⟨listed, by simp⟩, rfl⟩

/-- A key that one order leaves alone is left alone by the other. -/
theorem lastWriter_none {events others : List (String × VenueEvent)}
    (same : ∀ underlying, eventsOn underlying events = eventsOn underlying others) {key : ClientKey}
    (silent : lastWriter key events = none) : lastWriter key others = none := by
  refine lastTouch_eq_none_iff.2 fun entry listed => ?_
  have there : (entry.1, entry.2) ∈ events := mem_eventsOn.1 ((same entry.1).symm ▸ mem_eventsOn.2 listed)
  exact lastTouch_eq_none_iff.1 silent _ there

/-- The last writer of a key has left what it leaves in both orders. -/
theorem lastWriter_left {events others : List (String × VenueEvent)}
    (same : ∀ underlying, eventsOn underlying events = eventsOn underlying others) {key : ClientKey}
    {underlying : String} {left right : Option ClOrdIdRecord} (one : lastWriter key events = some (underlying, left))
    (other : lastWriter key others = some (underlying, right)) : left = right := by
  have here := lastWriter_owned one
  rw [same underlying, lastWriter_owned other] at here
  exact (Option.some.inj here).symm

namespace CommittedRun
variable (run : CommittedRun lanes merged)

include run in
/-- Every underlying brings the same events in both orders. -/
theorem eventsOn_eq (underlying : String) : eventsOn underlying merged = eventsOn underlying (inBootOrder lanes) := by
  rw [eventsOn_inBootOrder]
  by_cases hosted : underlying ∈ lanes.map Lane.underlying
  · obtain ⟨lane, listed, rfl⟩ := List.mem_map.1 hosted
    rw [filter_of_unique Lane.underlying run.apart listed, run.interleaves.ordered lane listed, List.flatMap_singleton]
  · have nobody : (lanes.filter fun lane => lane.underlying = underlying) = [] := by
      refine List.filter_eq_nil_iff.2 fun lane listed same => hosted ?_
      exact List.mem_map.2 ⟨lane, listed, of_decide_eq_true same⟩
    rw [nobody]
    refine List.map_eq_nil_iff.2 (List.filter_eq_nil_iff.2 fun entry member same => hosted ?_)
    rw [← of_decide_eq_true same]
    exact run.interleaves.hosted entry member

include run in
/-- The boot order is one of the orders in which the actors may have committed. -/
theorem replayed : CommittedRun lanes (inBootOrder lanes) where
  apart := run.apart
  crashed := run.crashed
  committed := run.committed
  interleaves := by
    refine ⟨fun entry member => ?_, fun lane listed => ?_⟩
    · obtain ⟨lane, listed, tagged⟩ := List.mem_flatMap.1 member
      obtain ⟨event, -, rfl⟩ := List.mem_map.1 tagged
      exact List.mem_map_of_mem listed
    · rw [← run.eventsOn_eq]
      exact run.interleaves.ordered lane listed

include run in
/-- A record that a writer leaves is one of a contract of its underlying. -/
theorem lastWriter_symbol
    (booted : ∀ lane ∈ lanes, ∃ recovered : Recovered U, Boots lineage microstructure hashOrder lane recovered)
    {key : ClientKey} {underlying : String} {record : ClOrdIdRecord}
    (last : lastWriter key merged = some (underlying, some record)) :
    underlyingOf U record.symbol = some underlying := by
  have owned := lastWriter_owned last
  rw [run.eventsOn_eq underlying] at owned
  obtain ⟨entry, listed, touched⟩ := exists_of_lastTouch owned
  obtain ⟨lane, member, tagged⟩ := List.mem_flatMap.1 (mem_eventsOn.1 listed)
  obtain ⟨event, emitted, same⟩ := List.mem_map.1 tagged
  obtain ⟨rfl, rfl⟩ := Prod.mk.inj same
  obtain ⟨write, written, here⟩ := exists_of_lastTouch touched
  have recorded : write.2 = some record := by
    split at here
    · exact Option.some.inj here
    · cases here
  obtain ⟨recovered, boots⟩ := booted lane member
  exact boots.recorded_symbol (run.crashed lane member) (run.committed lane member) emitted written recorded

include run in
/-- The recovered index resolves what the live one has resolved exactly when each client order id is written last by
the same underlying in both orders, or retired last in both. -/
theorem recovered_resolves_iff {maxEntries maxPerAccount : Nat} {recovered : ClOrdIdIndex}
    (live_below : (ClOrdIdIndex.withCeilings maxEntries maxPerAccount).AcceptsAll
      ((merged.map Prod.snd).flatMap correlationWrites))
    (boot_below : (ClOrdIdIndex.withCeilings maxEntries maxPerAccount).AcceptsAll
      (((inBootOrder lanes).map Prod.snd).flatMap correlationWrites))
    (done : recoverAll U lineage microstructure hashOrder (some (.withCeilings maxEntries maxPerAccount)) lanes =
      .ok (some recovered)) :
    (∀ account clOrdId, recovered.resolve account clOrdId =
        ((ClOrdIdIndex.withCeilings maxEntries maxPerAccount).publishAll (merged.map Prod.snd)).resolve account clOrdId) ↔
      ∀ key, WritesLastInBoth key merged (inBootOrder lanes) := by
  have booted := recoverAll_booted done
  have published := Option.some.inj (recoverAll_index run.crashed run.committed done)
  have reads : ∀ {events : List (String × VenueEvent)}, (ClOrdIdIndex.withCeilings maxEntries maxPerAccount).AcceptsAll
      ((events.map Prod.snd).flatMap correlationWrites) → ∀ account clOrdId,
        ((ClOrdIdIndex.withCeilings maxEntries maxPerAccount).publishAll (events.map Prod.snd)).resolve account clOrdId =
          ((lastWriter (account, clOrdId) events).map Prod.snd).getD none := by
    intro events below account clOrdId
    rw [← lastTouch_map_snd]
    refine (ClOrdIdIndex.resolve_publishAll below (account, clOrdId)).trans ?_
    exact congrArg (Option.getD _) Std.ExtTreeMap.getElem?_empty
  have same := run.eventsOn_eq
  subst published
  constructor
  · rintro resolves ⟨account, clOrdId⟩
    have equal := resolves account clOrdId
    rw [reads boot_below, reads live_below] at equal
    unfold WritesLastInBoth
    cases live : lastWriter (account, clOrdId) merged with
    | none =>
      rw [lastWriter_none same live]
      exact Or.inl rfl
    | some last =>
      obtain ⟨underlying, left⟩ := last
      cases boot : lastWriter (account, clOrdId) (inBootOrder lanes) with
      | none =>
        have none := lastWriter_none (fun underlying => (same underlying).symm) boot
        rw [live] at none
        cases none
      | some last =>
        obtain ⟨other, right⟩ := last
        rw [boot, live] at equal
        obtain rfl : right = left := equal
        cases right with
        | none => exact Or.inr ⟨rfl, rfl⟩
        | some record =>
          have here := run.lastWriter_symbol booted live
          have there := run.replayed.lastWriter_symbol booted boot
          rw [here] at there
          refine Or.inl (congrArg some ?_)
          exact Option.some.inj there
  · intro settled account clOrdId
    rw [reads boot_below, reads live_below]
    rcases settled (account, clOrdId) with writer | ⟨live, boot⟩
    · cases live : lastWriter (account, clOrdId) merged with
      | none => rw [lastWriter_none same live]
      | some last =>
        obtain ⟨underlying, left⟩ := last
        rw [live] at writer
        obtain ⟨⟨other, right⟩, boot, rfl⟩ := Option.map_eq_some_iff.1 writer.symm
        rw [boot, lastWriter_left same live boot]
    · rw [live, boot]

end CommittedRun

end Run

end Boot

/-- One underlying takes one bid, which carries the client order id. -/
def clientRun (underlying : String) (contract : Symbol) (orderId : VenueOrderId) : BootedRun where
  underlying := underlying
  lineageId := "run-1"
  microstructure := none
  sink := none
  hashOrder := fun _ _ => Equiv.refl _
  script := []
  fanOut := []
  epoch := 0
  clordidIndex := none
  inputs := [⟨1, .addOrder ⟨contract, orderId, "acct-1", 7, some "c-1", .buy, .limit, some 100, 1, .gtc, .none⟩⟩]
  landed := []

def btcRun : BootedRun := clientRun "BTC" "BTC-20351231-50000-C" "btc-order"
def ethRun : BootedRun := clientRun "ETH" "ETH-20351231-3000-C" "eth-order"

/-- Bitcoin boots first and ether second. -/
def clientLanes : List Lane := [btcRun.lane pairUpstream, ethRun.lane pairUpstream]

/-- Live, ether has committed first, or else bitcoin has. -/
def etherFirst : List (String × VenueEvent) := inBootOrder clientLanes.reverse
def bitcoinFirst : List (String × VenueEvent) := inBootOrder clientLanes

theorem clientLanes_crashed : ∀ lane ∈ clientLanes, lane.Crashed := by
  intro lane listed
  rcases List.mem_pair.1 listed with rfl | rfl
  · exact btcRun.lane_crashed pairUpstream (by decide)
  · exact ethRun.lane_crashed pairUpstream (by decide)

theorem etherFirst_committed : CommittedRun clientLanes etherFirst :=
  ⟨by decide, clientLanes_crashed, by decide, by decide, by decide⟩

theorem bitcoinFirst_committed : CommittedRun clientLanes bitcoinFirst :=
  ⟨by decide, clientLanes_crashed, by decide, by decide, by decide⟩

def clientIndex : ClOrdIdIndex := .withCeilings 10 10

def clientRecovered : ClOrdIdIndex :=
  match recoverAll pairUpstream "run-1" none (fun _ _ => Equiv.refl _) (some clientIndex) clientLanes with
  | .ok (some index) => index
  | _ => clientIndex

theorem client_recovered :
    recoverAll pairUpstream "run-1" none (fun _ _ => Equiv.refl _) (some clientIndex) clientLanes =
      .ok (some clientRecovered) := rfl

theorem etherFirst_below : clientIndex.AcceptsAll ((etherFirst.map Prod.snd).flatMap correlationWrites) := by
  refine ⟨fun record same => ?_, fun record same => ?_, trivial⟩
  · cases same
    rfl
  · cases same
    rfl

theorem bitcoinFirst_below : clientIndex.AcceptsAll ((bitcoinFirst.map Prod.snd).flatMap correlationWrites) := by
  refine ⟨fun record same => ?_, fun record same => ?_, trivial⟩
  · cases same
    rfl
  · cases same
    rfl

/-- Bitcoin commits last and ether boots last: the recovered index names the order of the other underlying. -/
theorem client_id_rebound :
    CommittedRun clientLanes etherFirst ∧
      clientIndex.AcceptsAll ((etherFirst.map Prod.snd).flatMap correlationWrites) ∧
      clientIndex.AcceptsAll (((inBootOrder clientLanes).map Prod.snd).flatMap correlationWrites) ∧
      recoverAll pairUpstream "run-1" none (fun _ _ => Equiv.refl _) (some clientIndex) clientLanes =
        .ok (some clientRecovered) ∧
      ¬ ∀ account clOrdId, clientRecovered.resolve account clOrdId =
        (clientIndex.publishAll (etherFirst.map Prod.snd)).resolve account clOrdId := by
  refine ⟨etherFirst_committed, etherFirst_below, bitcoinFirst_below, client_recovered, fun resolves => ?_⟩
  have recovered : (clientRecovered.resolve "acct-1" "c-1").map ClOrdIdRecord.orderId = some "eth-order" := rfl
  have live : ((clientIndex.publishAll (etherFirst.map Prod.snd)).resolve "acct-1" "c-1").map
      ClOrdIdRecord.orderId = some "btc-order" := rfl
  rw [resolves, live] at recovered
  revert recovered
  decide

theorem bitcoinFirst_resolves :
    (∀ account clOrdId, clientRecovered.resolve account clOrdId =
        (clientIndex.publishAll (bitcoinFirst.map Prod.snd)).resolve account clOrdId) ↔
      ∀ key, WritesLastInBoth key bitcoinFirst (inBootOrder clientLanes) :=
  bitcoinFirst_committed.recovered_resolves_iff bitcoinFirst_below bitcoinFirst_below client_recovered

end Fauxchange.Exchange
