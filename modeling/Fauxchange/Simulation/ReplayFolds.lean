import Fauxchange.Exchange.SweepTurns
import Fauxchange.Lib.Superseded
import Fauxchange.Simulation.Replay

/-! The two stores that a replay returns: the log keeps one leg under each key, and the positions fold every leg that
is presented to them. -/

namespace Fauxchange.Exchange
open Lib

/-- The contracts, the cash and the fees of a position. -/
def PositionState.figures (state : PositionState) : Int × Int × Int := (state.netQuantity, state.cashExFee, state.fees)

/-- What one leg adds to them. -/
def PositionLeg.figures (leg : PositionLeg) : Int × Int × Int := (leg.signed, -(leg.signed * leg.price), leg.fee)

/-- A recorded leg as the positions take it. -/
def ExecutionRecord.leg (record : ExecutionRecord) : PositionLeg :=
  ⟨record.account, record.instrument, record.symbol, record.side, record.quantity, record.priceCents, record.feeCents⟩

/-- What the legs of one account in one contract come to. -/
def figuresOf (account : AccountId) (symbol : Symbol) (records : List ExecutionRecord) : Int × Int × Int :=
  ((records.filter fun record => record.account = account ∧ record.instrument = symbol).map fun record =>
    record.leg.figures).sum

theorem storeLegs_leg {U : Upstream} {event : VenueEvent} {leg : StoreLeg} (member : leg ∈ storeLegs U event) :
    leg.record.leg = leg.leg := by
  unfold storeLegs at member
  split at member
  · cases member
  · split at member
    · cases member
    · obtain ⟨fill, -, rfl⟩ := List.mem_map.1 member
      rfl

theorem figuresOf_leg (account : AccountId) (symbol : Symbol) (records : List ExecutionRecord) :
    ((InMemoryPositionsStore.legsAt (account, symbol) (records.map ExecutionRecord.leg)).map PositionLeg.figures).sum =
      figuresOf account symbol records := by
  unfold InMemoryPositionsStore.legsAt figuresOf
  rw [List.filter_map, List.map_map]
  refine congrArg List.sum (congrArg (List.map _) (List.filter_congr fun record _ => ?_))
  exact decide_eq_decide.2 Prod.mk_inj

theorem PositionState.foldAll_figures {state last : PositionState} {legs : List PositionLeg}
    (folded : state.foldAll legs = .ok last) : last.figures = state.figures + (legs.map PositionLeg.figures).sum := by
  induction legs generalizing state with
  | nil =>
    cases folded
    exact (add_zero _).symm
  | cons leg rest ih =>
    simp only [foldAll] at folded
    split at folded
    next next step =>
      obtain ⟨quantity, cash, fees, -⟩ := fold_ok step
      have moved : next.figures = state.figures + leg.figures := by
        unfold figures PositionLeg.figures
        rw [quantity, cash, fees, Int.sub_eq_add_neg]
        rfl
      rw [ih folded, moved, List.map_cons, List.sum_cons, add_assoc]
    next => cases folded

/-- From nothing, the position under a key is the fold of the legs of that key. -/
theorem InMemoryPositionsStore.applyAll_figures {last : InMemoryPositionsStore} {legs : List PositionLeg}
    (applied : new.applyAll legs = .ok last) (key : AccountId × Symbol) :
    (last.positions[key]?.getD (.new "")).figures = ((legsAt key legs).map PositionLeg.figures).sum := by
  have entry := applyAll_iff.1 applied key
  rw [show new.positions[key]? = none from Std.ExtTreeMap.getElem?_empty] at entry
  cases present : legsAt key legs with
  | nil =>
    rw [present] at entry
    rw [← Except.ok.inj entry]
    rfl
  | cons leg rest =>
    rw [present] at entry
    dsimp only [foldedAt, Option.getD_none] at entry
    cases folded : (PositionState.new leg.underlying).foldAll (leg :: rest) with
    | error error =>
      rw [folded] at entry
      cases entry
    | ok state =>
      rw [folded] at entry
      rw [← Except.ok.inj entry, Option.getD_some, PositionState.foldAll_figures folded]
      exact zero_add _

/-- What a leg adds to the figures of one account in one contract. -/
def ExecutionRecord.weightAt (account : AccountId) (symbol : Symbol) (record : ExecutionRecord) : Int × Int × Int :=
  if record.account = account ∧ record.instrument = symbol then record.leg.figures else 0

theorem figuresOf_eq (account : AccountId) (symbol : Symbol) (records : List ExecutionRecord) :
    figuresOf account symbol records = (records.map (ExecutionRecord.weightAt account symbol)).sum := by
  induction records with
  | nil => rfl
  | cons record rest ih =>
    unfold figuresOf at ih ⊢
    rw [List.map_cons, List.sum_cons, ← ih, ExecutionRecord.weightAt, List.filter_cons]
    split
    next own => rw [if_pos (of_decide_eq_true own), List.map_cons, List.sum_cons]
    next foreign => rw [if_neg fun own => foreign (decide_eq_true own), zero_add]

theorem InMemoryExecutionsStore.writes_record :
    Writes InMemoryExecutionsStore.records ExecutionRecord.key StoredExecution.record record := by
  intro store leg
  unfold record
  split
  next existing _ => exact ⟨⟨existing.ord, leg⟩, rfl, rfl⟩
  next => exact ⟨⟨store.nextOrd, leg⟩, rfl, rfl⟩

/-- The listed legs of an account in a contract sum to what the map holds of them. -/
theorem InMemoryExecutionsStore.figuresOf_list (store : InMemoryExecutionsStore) (account : AccountId) (symbol : Symbol) :
    figuresOf account symbol (store.list account ⟨none, none⟩) =
      mapSum (fun _ stored => stored.record.weightAt account symbol) store.records := by
  have sorted := ((sortByKey_perm StoredExecution.ord (store.stored.filter fun stored =>
    stored.record.account = account ∧ (none : Option String).all (stored.record.symbol = ·))).map StoredExecution.record)
  have listed : (store.list account ⟨none, none⟩).Perm _ := sorted
  have own : ∀ legs : List StoredExecution, figuresOf account symbol ((legs.filter fun stored =>
      stored.record.account = account ∧ (none : Option String).all (stored.record.symbol = ·)).map StoredExecution.record) =
        figuresOf account symbol (legs.map StoredExecution.record) := by
    intro legs
    unfold figuresOf
    rw [List.filter_map, List.filter_map, List.filter_filter]
    refine congrArg List.sum (congrArg _ (congrArg _ (List.filter_congr fun stored _ => ?_)))
    simp
    tauto
  have same : figuresOf account symbol (store.list account ⟨none, none⟩) =
      figuresOf account symbol ((store.stored.filter fun stored =>
        stored.record.account = account ∧ (none : Option String).all (stored.record.symbol = ·)).map
          StoredExecution.record) := by
    rw [figuresOf_eq, figuresOf_eq]
    exact (listed.map _).sum_eq
  rw [same, own, figuresOf_eq, mapSum, stored, List.map_map, List.map_map]
  rfl

theorem InMemoryExecutionsStore.figuresOf_own (store : InMemoryExecutionsStore) (account : AccountId) (symbol : Symbol) :
    figuresOf account symbol (store.list account ⟨none, none⟩) =
      (((store.list account ⟨none, none⟩).filter fun record => record.instrument = symbol).map fun record =>
        record.leg.figures).sum := by
  refine congrArg List.sum (congrArg (List.map _) (List.filter_congr fun record listed => ?_))
  obtain ⟨stored, matched, rfl⟩ := List.mem_map.1 listed
  have kept := (List.mem_filter.1 ((sortByKey_perm _ _).subset matched)).2
  have own : stored.record.account = account := (of_decide_eq_true kept).1
  simp [own]

/-- What the log shows of the legs it was given, and what it has replaced, make up all of them. -/
theorem InMemoryExecutionsStore.figuresOf_recordAll (records : List ExecutionRecord) (account : AccountId)
    (symbol : Symbol) :
    figuresOf account symbol ((new.recordAll records).list account ⟨none, none⟩) +
      figuresOf account symbol (superseded ExecutionRecord.key records) = figuresOf account symbol records := by
  rw [figuresOf_list, figuresOf_eq, figuresOf_eq]
  exact writes_record.mapSum (ExecutionRecord.weightAt account symbol) rfl records

end Fauxchange.Exchange

namespace Fauxchange.Simulation
open Lib Exchange Microstructure

/-- The reported legs of an account in a contract. -/
def ReplayReport.legsOf {U : Upstream} (report : ReplayReport U) (account : AccountId) (symbol : Symbol) :
    List ExecutionRecord :=
  (report.executions.list account ⟨none, none⟩).filter fun record => record.instrument = symbol

/-- Every reported position is the fold of its reported legs: contracts, cash and fees. -/
def ReplayReport.Folds {U : Upstream} (report : ReplayReport U) : Prop :=
  ∀ account symbol, (report.positions.positions[(account, symbol)]?.getD (.new "")).figures =
    ((report.legsOf account symbol).map fun record => record.leg.figures).sum

section Presented
variable (U : Upstream) (hashOrder : VisitOrder) (serializedLen : JournalRecord → Nat)
  (microstructure : Option MicrostructureConfig)

/-- The legs that a stream re-executes to on its own. -/
def streamLegs (stream : JournalStream) : List StoreLeg :=
  match recoverStream U hashOrder serializedLen microstructure stream with
  | .ok recovered => recovered.events.flatMap (storeLegs U)
  | .error _ => []

/-- The legs of the streams in the order of their underlyings. -/
def presentedLegs (streams : List JournalStream) : List ExecutionRecord :=
  ((sortByKey JournalStream.underlying streams).flatMap
    (streamLegs U hashOrder serializedLen microstructure)).map StoreLeg.record

end Presented

/-- The legs that are presented again under their key come to nothing in every account and contract. -/
def RepeatsCancel (presented : List ExecutionRecord) : Prop :=
  ∀ account symbol, figuresOf account symbol (superseded ExecutionRecord.key presented) = 0

section Replayed
variable {U : Upstream} {hashOrder : VisitOrder} {serializedLen : JournalRecord → Nat}
  {microstructure : Option MicrostructureConfig}

theorem projectEvents_ok {underlying : String} {stores last : StoreFanOut U} {events : List VenueEvent}
    (unsealed : stores.sealed = false) (projected : projectEvents underlying stores events = .ok last) :
    stores.Takes (events.flatMap (storeLegs U)) last := by
  induction events generalizing stores with
  | nil => exact StoreFanOut.takes_nil.2 (Except.ok.inj projected)
  | cons event rest ih =>
    unfold projectEvents at projected
    split at projected
    next next emitted =>
      have taken := (StoreFanOut.emit_ok event unsealed).1 emitted
      exact StoreFanOut.takes_append.2 ⟨next, taken, ih (taken.sealed.trans unsealed) projected⟩
    next => cases projected

/-- A replay that succeeds has put the legs of every stream into the stores. -/
theorem replayAll_takes {stores : StoreFanOut U} {streams : List JournalStream}
    {replayed : List (UnderlyingReplay U) × StoreFanOut U} (unsealed : stores.sealed = false)
    (done : replayAll U hashOrder serializedLen microstructure stores streams = .ok replayed) :
    stores.Takes (streams.flatMap (streamLegs U hashOrder serializedLen microstructure)) replayed.2 := by
  induction streams generalizing stores replayed with
  | nil =>
    cases done
    exact StoreFanOut.takes_nil.2 rfl
  | cons stream rest ih =>
    unfold replayAll at done
    obtain ⟨recovered, ran, later⟩ := except_bind_ok done
    obtain ⟨next, projected, later⟩ := except_bind_ok later
    obtain ⟨⟨replays, last⟩, others, same⟩ := except_bind_ok later
    cases same
    have legs : streamLegs U hashOrder serializedLen microstructure stream = recovered.events.flatMap (storeLegs U) := by
      unfold streamLegs
      rw [ran]
    have reopened : { stores with sealed := false } = stores := by rw [← unsealed]
    rw [reopened] at projected
    have taken := projectEvents_ok unsealed projected
    have remaining := ih (taken.sealed.trans unsealed) others
    rw [List.flatMap_cons, legs]
    exact StoreFanOut.takes_append.2 ⟨next, taken, remaining⟩

/-- The positions take the legs of the streams as the log has recorded them. -/
theorem streamLegs_leg {streams : List JournalStream} :
    (streams.flatMap (streamLegs U hashOrder serializedLen microstructure)).map StoreLeg.leg =
      ((streams.flatMap (streamLegs U hashOrder serializedLen microstructure)).map StoreLeg.record).map
        ExecutionRecord.leg := by
  rw [List.map_map]
  refine List.map_congr_left fun leg member => ?_
  obtain ⟨stream, -, here⟩ := List.mem_flatMap.1 member
  unfold streamLegs at here
  split at here
  next recovered _ =>
    obtain ⟨event, -, brought⟩ := List.mem_flatMap.1 here
    exact (storeLegs_leg brought).symm
  next => cases here

/-- The positions have folded every presented leg, and the log shows all but the replaced ones. -/
theorem replayStreamsInner_folds_iff {streams : List JournalStream} {report : ReplayReport U}
    (replayed : replayStreamsInner U hashOrder serializedLen streams microstructure = .ok report) :
    report.Folds ↔ RepeatsCancel (presentedLegs U hashOrder serializedLen microstructure streams) := by
  unfold replayStreamsInner at replayed
  obtain ⟨⟨replays, stores⟩, ran, same⟩ := except_bind_ok replayed
  cases same
  obtain ⟨positions, applied, rfl⟩ := replayAll_takes rfl ran
  refine forall_congr' fun account => forall_congr' fun symbol => ?_
  have folded := InMemoryPositionsStore.applyAll_figures applied (account, symbol)
  rw [streamLegs_leg, figuresOf_leg] at folded
  have shown := InMemoryExecutionsStore.figuresOf_recordAll
    (presentedLegs U hashOrder serializedLen microstructure streams) account symbol
  rw [InMemoryExecutionsStore.figuresOf_own] at shown
  rw [folded]
  change figuresOf account symbol (presentedLegs U hashOrder serializedLen microstructure streams) = _ ↔ _
  rw [← shown]
  exact add_eq_left

/-- An accepted record stands under a key of its own. -/
theorem appendRecord_keyed {stream : JournalStream} {records next : List JournalRecord} {record : JournalRecord}
    (keyed : (records.map JournalRecord.key).Nodup)
    (appended : stream.appendRecord serializedLen records record = .ok next) :
    (next.map JournalRecord.key).Nodup := by
  unfold JournalStream.appendRecord at appended
  split at appended
  · cases appended
  · split at appended
    next done =>
      cases appended
      rw [show next = (appendContract records record).2 from (congrArg Prod.snd done).symm, appendContract_records]
      by_cases taken : record.key ∈ records.map JournalRecord.key
      · rw [LateLog.write_of_taken _ taken]
        exact keyed
      · rw [LateLog.write_of_free _ taken, List.map_append, List.map_singleton]
        exact List.nodup_append.2 ⟨keyed, List.nodup_singleton _, fun key listed other last same =>
          taken (List.mem_singleton.1 last ▸ same ▸ listed)⟩
    next => cases appended

theorem buildJournal_keyed {stream : JournalStream} {journal : List JournalRecord}
    (built : stream.buildJournal serializedLen = .ok journal) : (journal.map JournalRecord.key).Nodup :=
  @foldlM_ok _ _ _ _ (fun records => (records.map JournalRecord.key).Nodup)
    (fun _ _ _ keyed appended => appendRecord_keyed keyed appended) _ _ _ List.nodup_nil built

/-- A stream that recovers has executed the commands of its journal. -/
theorem recoverStream_ok {stream : JournalStream} {recovered : Recovered U}
    (ran : recoverStream U hashOrder serializedLen microstructure stream = .ok recovered) :
    ∃ journal, stream.buildJournal serializedLen = .ok journal ∧
      (reexecute stream.underlying stream.header.lineageId
        (freshExecutor U stream.underlying microstructure none hashOrder) (commandRecordsInOrder journal)).1 =
          recovered.events := by
  obtain ⟨journal, built, ran⟩ := except_bind_ok ran
  refine ⟨journal, built, ?_⟩
  unfold recover at ran
  split at ran
  · cases ran
  · rw [readFrom_zero] at ran
    cases reduced : reduceIntoExecutor journal (freshExecutor U stream.underlying microstructure none hashOrder)
        stream.underlying stream.header.lineageId microstructure none with
    | error error =>
      rw [reduced] at ran
      cases ran
    | ok last =>
      rw [reduced] at ran
      cases ran
      exact congrArg Prod.fst (reduceIntoExecutor_executor _ _ reduced)

/-- What the ids of a stream's trades begin with. -/
def JournalStream.idPrefix (stream : JournalStream) : String := stream.header.lineageId ++ ":" ++ stream.underlying

variable (laws : MatchLaws U)

include laws in
/-- The legs of one stream: none under a key of another, and all under ids of the stream. -/
theorem streamLegs_keys (stream : JournalStream) :
    ((streamLegs U hashOrder serializedLen microstructure stream).map fun leg => leg.record.key).Nodup ∧
      ∀ leg ∈ streamLegs U hashOrder serializedLen microstructure stream, ∃ sequence index,
        leg.record.executionId = stream.header.lineageId.executionId stream.underlying sequence index := by
  unfold streamLegs
  split
  next recovered ran =>
    obtain ⟨journal, built, executed⟩ := recoverStream_ok ran
    have distinct := UnderlyingActor.commandRecordsInOrder_nodup (buildJournal_keyed built)
    have sorted : (commandRecordsInOrder journal).Pairwise fun early late => early.sequence ≤ late.sequence :=
      sortByKey_pairwise JournalCommand.sequence _
    have ascending : (commandRecordsInOrder journal).Pairwise fun early late => early.sequence < late.sequence :=
      (sorted.and (List.pairwise_map.1 distinct)).imp fun both => Nat.lt_of_le_of_ne both.1 both.2
    obtain ⟨keys, named⟩ := @reexecute_legs_keys U laws stream.header.lineageId stream.underlying
      (freshExecutor U stream.underlying microstructure none hashOrder) _ ascending
    rw [executed] at keys named
    refine ⟨keys, fun leg brought => ?_⟩
    obtain ⟨command, -, index, same⟩ := named leg brought
    exact ⟨command.sequence, index, same⟩
  next => simp

include laws in
/-- Where no two streams name their trades alike, no leg is presented twice. -/
theorem repeatsCancel_of_apart {streams : List JournalStream} (apart : (streams.map JournalStream.idPrefix).Nodup) :
    RepeatsCancel (presentedLegs U hashOrder serializedLen microstructure streams) := by
  have distinct : ((presentedLegs U hashOrder serializedLen microstructure streams).map ExecutionRecord.key).Nodup := by
    unfold presentedLegs
    rw [List.map_map, List.map_flatMap]
    have sorted : ((sortByKey JournalStream.underlying streams).map JournalStream.idPrefix).Nodup :=
      ((sortByKey_perm _ streams).map _).nodup_iff.2 apart
    refine List.nodup_flatMap.2 ⟨fun stream _ => (streamLegs_keys laws stream).1, ?_⟩
    refine (List.pairwise_map.1 sorted).imp fun unlike key here there => unlike ?_
    obtain ⟨leg, brought, rfl⟩ := List.mem_map.1 here
    obtain ⟨other, found, same⟩ := List.mem_map.1 there
    obtain ⟨sequence, index, named⟩ := (streamLegs_keys laws _).2 leg brought
    obtain ⟨last, place, called⟩ := (streamLegs_keys laws _).2 other found
    have ids : leg.record.executionId = other.record.executionId := (congrArg Prod.fst same).symm
    rw [named, called] at ids
    exact (LineageId.executionId_parts ids).1
  intro account symbol
  rw [superseded_of_nodup distinct]
  rfl

include laws in
/-- The streams of venues of different lineages, and of different underlyings of one venue, are replayed into stores that
agree. -/
theorem replayStreamsInner_folds {streams : List JournalStream} {report : ReplayReport U}
    (apart : (streams.map JournalStream.idPrefix).Nodup)
    (replayed : replayStreamsInner U hashOrder serializedLen streams microstructure = .ok report) : report.Folds :=
  (replayStreamsInner_folds_iff replayed).2 (repeatsCancel_of_apart laws apart)

end Replayed

/-- The reported positions are the folds of the reported legs exactly when the legs presented again come to nothing. -/
theorem replay_folds_iff (U : Upstream) (hashOrder : VisitOrder) (serializedLen : JournalRecord → Nat)
    (maxGuaranteedExactNotional : FeeSchedule → Nat) (display : MicrostructureConfigError → String) :
    (∀ streams report, replayStreams U hashOrder serializedLen streams = .ok report →
      (report.Folds ↔ RepeatsCancel (presentedLegs U hashOrder serializedLen none streams))) ∧
    ∀ bundle report, replayBundle maxGuaranteedExactNotional display U hashOrder serializedLen bundle = .ok report →
      (report.Folds ↔ RepeatsCancel
        (presentedLegs U hashOrder serializedLen (some bundle.microstructure.config) bundle.streams)) := by
  refine ⟨fun streams report => replayStreamsInner_folds_iff, fun bundle report replayed => ?_⟩
  unfold replayBundle at replayed
  obtain ⟨⟨⟩, -, admitted⟩ := except_bind_ok replayed
  obtain ⟨⟨⟩, -, ran⟩ := except_bind_ok admitted
  exact replayStreamsInner_folds_iff ran

/-- An account sells a contract to another one. -/
def soldRun : BootedRun :=
  { sweptRun "a" "b" with
    inputs := [⟨1, testOrder "a" .sell 100⟩,
      ⟨2, .addOrder ⟨"BTC-20351231-50000-C", "b", "acct-2", 8, none, .buy, .limit, some 100, 1, .gtc, .none⟩⟩] }

def soldStream : JournalStream := ⟨"BTC", ⟨venueEnvelopeSchema, soldRun.lineageId⟩, soldRun.records referenceUpstream⟩

theorem sold_folds : ∃ report,
    replayStreamsInner referenceUpstream (fun _ _ => Equiv.refl _) (fun _ => 0) [soldStream] none = .ok report ∧ report.Folds := by
  have apart : ([soldStream].map JournalStream.idPrefix).Nodup := List.nodup_singleton _
  obtain ⟨report, replayed⟩ : ∃ report,
      replayStreamsInner referenceUpstream (fun _ _ => Equiv.refl _) (fun _ => 0) [soldStream] none = .ok report := ⟨_, rfl⟩
  exact ⟨report, replayed, replayStreamsInner_folds matchLaws_reference apart replayed⟩

/-- Listed twice, the stream reports one leg of each account and positions of two contracts. -/
theorem listed_twice : ∃ report,
    replayStreams referenceUpstream (fun _ _ => Equiv.refl _) (fun _ => 0) [soldStream, soldStream] = .ok report ∧
      (report.executions.list "acct-2" ⟨none, none⟩).map ExecutionRecord.quantity = [1] ∧
        (report.positions.positions[("acct-2", "BTC-20351231-50000-C")]?).map PositionState.netQuantity = some 2 ∧
          ¬report.Folds := by
  refine ⟨_, rfl, by decide, by decide, fun folds => ?_⟩
  have bought := folds "acct-2" "BTC-20351231-50000-C"
  revert bought
  decide

end Fauxchange.Simulation
