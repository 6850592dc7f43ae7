import Fauxchange.Exchange.Conservation
import Fauxchange.Exchange.Recovery

/-! The stores after a restart. Live, the actors of all underlyings feed them in turn; at boot each recovered stream
is projected whole, one underlying after the other. -/

namespace Fauxchange.Exchange
open Lib Microstructure

section Woven
variable {U : Upstream}

/-- A leg stands under the underlying that its contract parses to. -/
def StoreLeg.Filed (U : Upstream) (leg : StoreLeg) : Prop :=
  leg.leg.symbol = leg.record.instrument ∧ underlyingOf U leg.leg.symbol = some leg.record.symbol

theorem storeLegs_filed {event : VenueEvent} {leg : StoreLeg} (member : leg ∈ storeLegs U event) : leg.Filed U := by
  unfold storeLegs at member
  split at member
  · cases member
  · split at member
    · cases member
    next filed =>
      obtain ⟨fill, -, rfl⟩ := List.mem_map.1 member
      exact ⟨rfl, filed⟩

/-- The legs of one underlying. -/
def legsOn (underlying : String) (legs : List StoreLeg) : List StoreLeg :=
  legs.filter fun leg => leg.record.symbol = underlying

/-- Two orders of arrival in which every underlying brings the same legs in the same order. -/
def Woven (legs others : List StoreLeg) : Prop := ∀ underlying, legsOn underlying legs = legsOn underlying others

section Same
variable {legs others : List StoreLeg} (woven : Woven legs others) (filed : ∀ leg ∈ legs, leg.Filed U)
  (others_filed : ∀ leg ∈ others, leg.Filed U)

include woven in
/-- The two orders bring each leg equally often. -/
theorem Woven.perm : legs.Perm others := by
  classical
  refine List.perm_iff_count.2 fun leg => ?_
  have reads : ∀ list : List StoreLeg, list.count leg = (legsOn leg.record.symbol list).count leg := by
    intro list
    exact (List.count_filter (by simp)).symm
  rw [reads legs, reads others, woven leg.record.symbol]

include woven in
theorem Woven.mem_iff (leg : StoreLeg) : leg ∈ legs ↔ leg ∈ others := woven.perm.mem_iff

theorem legsAt_of_filed {list : List StoreLeg} (every : ∀ leg ∈ list, leg.Filed U) (key : AccountId × Symbol) :
    InMemoryPositionsStore.legsAt key (list.map StoreLeg.leg) =
      match underlyingOf U key.2 with
      | none => []
      | some underlying => InMemoryPositionsStore.legsAt key ((legsOn underlying list).map StoreLeg.leg) := by
  unfold InMemoryPositionsStore.legsAt
  split
  next none =>
    rw [List.filter_eq_nil_iff]
    intro leg member here
    obtain ⟨leg, listed, rfl⟩ := List.mem_map.1 member
    have named := (every leg listed).2
    rw [show leg.leg.symbol = key.2 from congrArg Prod.snd (of_decide_eq_true here), none] at named
    cases named
  next underlying some =>
    rw [List.filter_map, List.filter_map]
    unfold legsOn
    rw [List.filter_filter]
    refine congrArg _ (List.filter_congr fun leg member => ?_)
    by_cases here : (leg.leg.account, leg.leg.symbol) = key
    · have named := (every leg member).2
      rw [show leg.leg.symbol = key.2 from congrArg Prod.snd here, some] at named
      simp [here, Option.some.inj named]
    · simp [here]

include woven filed others_filed in
/-- Every key sees the same legs in the same order. -/
theorem Woven.legsAt (key : AccountId × Symbol) :
    InMemoryPositionsStore.legsAt key (legs.map StoreLeg.leg) =
      InMemoryPositionsStore.legsAt key (others.map StoreLeg.leg) := by
  rw [legsAt_of_filed filed, legsAt_of_filed others_filed]
  split
  · rfl
  next underlying _ => rw [woven underlying]

end Same

/-- Two pairs of stores that show the same: the folds, the set of records, and the listings by underlying. -/
structure SameStores (left right : StoreFanOut U) : Prop where
  positions : left.positions = right.positions
  records : ∀ key : ExecutionId × Bool, left.executions.records[key]?.map StoredExecution.record =
    right.executions.records[key]?.map StoredExecution.record
  listed : ∀ account underlying limit, left.executions.list account ⟨some underlying, limit⟩ =
    right.executions.list account ⟨some underlying, limit⟩

variable {legs others : List StoreLeg} {stores last : StoreFanOut U}

theorem records_recordAll {records : List ExecutionRecord} (distinct : (records.map ExecutionRecord.key).Nodup)
    (key : ExecutionId × Bool) (record : ExecutionRecord) :
    (InMemoryExecutionsStore.new.recordAll records).records[key]?.map StoredExecution.record = some record ↔
      record ∈ records ∧ record.key = key := by
  rw [Option.map_eq_some_iff]
  constructor
  · rintro ⟨stored, here, rfl⟩
    obtain ⟨index, listed, keyed, -⟩ := (InMemoryExecutionsStore.new_recordAll distinct key stored).1 here
    exact ⟨List.mem_of_getElem? listed, keyed⟩
  · rintro ⟨member, keyed⟩
    obtain ⟨index, listed⟩ := List.mem_iff_getElem?.1 member
    exact ⟨⟨index % 2 ^ 64, record⟩, (InMemoryExecutionsStore.new_recordAll distinct key _).2 ⟨index, listed, keyed, rfl⟩,
      rfl⟩

/-- The order in which the underlyings take turns leaves no trace. -/
theorem Woven.sameStores (woven : Woven legs others) (filed : ∀ leg ∈ legs, leg.Filed U)
    (distinct : (legs.map fun leg => leg.record.key).Nodup) (room : legs.length < 2 ^ 64)
    (taken : (StoreFanOut.new U).Takes legs stores) (others_taken : (StoreFanOut.new U).Takes others last) :
    SameStores stores last := by
  have others_filed : ∀ leg ∈ others, leg.Filed U := fun leg member => filed leg ((woven.mem_iff leg).2 member)
  have others_distinct : (others.map fun leg => leg.record.key).Nodup := (woven.perm.map _).nodup_iff.1 distinct
  have others_room : others.length < 2 ^ 64 := woven.perm.length_eq ▸ room
  obtain ⟨positions, applied, rfl⟩ := taken
  obtain ⟨others_positions, others_applied, rfl⟩ := others_taken
  have keys : ((legs.map StoreLeg.record).map ExecutionRecord.key).Nodup := by
    rw [List.map_map]
    exact distinct
  have others_keys : ((others.map StoreLeg.record).map ExecutionRecord.key).Nodup := by
    rw [List.map_map]
    exact others_distinct
  refine ⟨?_, ?_, ?_⟩
  · have same := (InMemoryPositionsStore.applyAll_congr (woven.legsAt filed others_filed) positions).1 applied
    rw [others_applied] at same
    exact (Except.ok.inj same).symm
  · intro key
    refine Option.ext fun record => ?_
    refine (records_recordAll keys key record).trans (Iff.trans ?_ (records_recordAll others_keys key record).symm)
    simp only [List.mem_map]
    constructor
    · rintro ⟨⟨leg, member, rfl⟩, keyed⟩
      exact ⟨⟨leg, (woven.mem_iff leg).1 member, rfl⟩, keyed⟩
    · rintro ⟨⟨leg, member, rfl⟩, keyed⟩
      exact ⟨⟨leg, (woven.mem_iff leg).2 member, rfl⟩, keyed⟩
  · intro account underlying limit
    have reads : ∀ list : List StoreLeg, ((list.map StoreLeg.record).filter fun leg =>
        leg.account = account ∧ (some underlying).all (leg.symbol = ·)) =
          ((legsOn underlying list).map StoreLeg.record).filter fun leg => leg.account = account := by
      intro list
      rw [List.filter_map, List.filter_map, legsOn, List.filter_filter]
      refine congrArg _ (List.filter_congr fun leg _ => ?_)
      simp
    refine (InMemoryExecutionsStore.list_recordAll keys (by simpa using room) account _).trans
      (Eq.trans ?_ (InMemoryExecutionsStore.list_recordAll others_keys (by simpa using others_room) account _).symm)
    dsimp only
    rw [reads legs, reads others, woven underlying]

end Woven

section Lanes
variable {U : Upstream}

/-- The stored event and the re-derived one bring the same legs. -/
theorem storeLegs_of_matches {stored derived : VenueEvent} (same : stored.envelope = derived.envelope)
    (matched : storedEventMatches stored derived = true) : storeLegs U stored = storeLegs U derived := by
  have fills : outcomeFills stored.outcome = outcomeFills derived.outcome := by
    rcases of_decide_eq_true matched with rfl | upgraded
    · rfl
    · rw [← upgraded]
      unfold upgradeLegacyRejectKind
      split
      next kept _ =>
        rw [kept]
        rfl
      next kept _ =>
        rw [kept]
        rfl
      next => rfl
  obtain ⟨schema, sequence, venueTs, command, outcome⟩ := stored
  obtain ⟨schema', sequence', venueTs', command', outcome'⟩ := derived
  obtain ⟨rfl, rfl, rfl⟩ := JournalCommand.mk.inj same
  unfold storeLegs
  dsimp only at fills ⊢
  rw [fills]
  rfl

/-- The rebuild of one underlying is a fan-out of its own over the shared stores. -/
def rebuildStoresFromEvents (stores : StoreFanOut U) (events : List VenueEvent) :
    Except FanOutSealed (StoreFanOut U) :=
  { stores with sealed := false }.emitAll events

/-- The underlyings in boot order. -/
def rebuildAll (stores : StoreFanOut U) : List (Recovered U) → Except FanOutSealed (StoreFanOut U)
  | [] => .ok stores
  | recovered :: rest =>
    match rebuildStoresFromEvents stores recovered.events with
    | .ok next => rebuildAll next rest
    | .error error => .error error

theorem rebuildAll_ok {stores last : StoreFanOut U} (unsealed : stores.sealed = false) (booted : List (Recovered U)) :
    rebuildAll stores booted = .ok last ↔
      stores.Takes ((booted.flatMap Recovered.events).flatMap (storeLegs U)) last := by
  induction booted generalizing stores with
  | nil =>
    rw [List.flatMap_nil, List.flatMap_nil, StoreFanOut.takes_nil, rebuildAll]
    exact ⟨Except.ok.inj, congrArg _⟩
  | cons recovered rest ih =>
    have open' : { stores with sealed := false } = stores := by rw [← unsealed]
    rw [List.flatMap_cons, List.flatMap_append, StoreFanOut.takes_append]
    simp only [rebuildAll, rebuildStoresFromEvents, open']
    constructor
    · intro rebuilt
      split at rebuilt
      next next done =>
        have taken := (StoreFanOut.emitAll_ok _ unsealed).1 done
        exact ⟨next, taken, (ih (taken.sealed.trans unsealed)).1 rebuilt⟩
      next => cases rebuilt
    · rintro ⟨next, taken, later⟩
      rw [(StoreFanOut.emitAll_ok _ unsealed).2 taken]
      exact (ih (taken.sealed.trans unsealed)).2 later

/-- One underlying at the crash: the records of its journal, the events its actor has handed to the fan-out, and the
journaled commands whose event it has not. -/
structure Lane where
  underlying : String
  records : List JournalRecord
  emitted : List VenueEvent
  cut : List JournalCommand

/-- What the write-ahead discipline leaves behind. -/
structure Lane.Crashed (lane : Lane) : Prop where
  commands : commandRecordsInOrder lane.records = lane.emitted.map VenueEvent.envelope ++ lane.cut
  ascending : (lane.emitted.map VenueEvent.envelope ++ lane.cut).Pairwise fun early late =>
    early.sequence < late.sequence
  stored : ∀ event ∈ lane.emitted, storedEventAt lane.records event.underlyingSequence = some event
  few : lane.cut.length ≤ 1

/-- The underlying of an actor run at its crash. -/
def BootedRun.lane (U : Upstream) (run : BootedRun) : Lane :=
  let emitted := ((run.actor U).run run.inputs).2.fanOut.handed
  ⟨run.underlying, run.records U, emitted, (run.commands U).drop emitted.length⟩

/-- Every run of an actor from an empty journal, under any faults and crashing at any point, leaves its underlying so. -/
theorem BootedRun.lane_crashed (U : Upstream) (run : BootedRun) (rivalFree : RivalFreeRun (run.actor U) run.inputs) :
    (run.lane U).Crashed := by
  have initial : Ledger (run.origin U) [] .running (run.actor U) := Origin.ledger _ _ _ _ _
  obtain ⟨events, phase, ledger, -⟩ := initial.run run.inputs rivalFree
  rw [List.nil_append] at ledger
  have handed : ((run.actor U).run run.inputs).2.fanOut.handed = events := ledger.handed
  obtain ⟨stray, commands, -, short⟩ := ledger.durable_commands run.landed
  obtain ⟨count, sequences⟩ := ledger.consecutive run.landed
  have replayed := ledger.replayed_eq run.landed
  have start : (run.origin U).start = 0 := rfl
  rw [start, readFrom_zero] at replayed
  rw [start] at commands sequences
  have journaled : run.commands U = events.map VenueEvent.envelope ++ (phase.pending.map VenueEvent.envelope ++ stray) := by
    rw [← List.append_assoc, ← List.map_append]
    exact replayed.trans commands
  have cut : (run.commands U).drop events.length = phase.pending.map VenueEvent.envelope ++ stray := by
    rw [journaled, List.drop_append_of_le_length (by simp)]
    simp
  have whole : run.commands U = events.map VenueEvent.envelope ++ (run.commands U).drop events.length := by
    rw [cut]
    exact journaled
  unfold BootedRun.lane
  dsimp only
  rw [handed]
  refine ⟨whole, ?_, fun event member => ledger.settledEventAt run.landed member, ?_⟩
  · dsimp only
    rw [← whole]
    have ascending := List.pairwise_lt_range' (s := 0) (n := count)
    rw [← sequences, List.pairwise_map] at ascending
    rw [show run.commands U = _ from replayed]
    exact ascending
  · dsimp only
    rw [cut, List.length_append, List.length_map]
    rw [List.length_append] at short
    omega

/-- The boot recovery of an underlying succeeds. -/
def Boots (lineage : LineageId) (microstructure : Option MicrostructureConfig) (hashOrder : VisitOrder) (lane : Lane)
    (recovered : Recovered U) : Prop :=
  ∃ index, reduceIntoExecutor lane.records (freshExecutor U lane.underlying microstructure none hashOrder)
    lane.underlying lineage microstructure index = .ok recovered

/-- The actors have emitted their events in some order. -/
structure Interleaves (lanes : List Lane) (merged : List (String × VenueEvent)) : Prop where
  hosted : ∀ entry ∈ merged, entry.1 ∈ lanes.map Lane.underlying
  ordered : ∀ lane ∈ lanes, eventsOn lane.underlying merged = lane.emitted

/-- The events that only the recovery has derived. -/
def trailing (lane : Lane) (recovered : Recovered U) : List VenueEvent := recovered.events.drop lane.emitted.length

section Derived
variable (laws : MatchLaws U) {lineage : LineageId} {underlying : String}

/-- What holds of every event an executor of an underlying derives holds of all that it derives in turn. -/
theorem reexecute_forall {holds : VenueEvent → Prop}
    (each : ∀ (executor : MatchingExecutor U) command, executor.state.underlyingBook.underlying = underlying →
      holds (deriveEvent underlying lineage executor command).1)
    (executor : MatchingExecutor U) (commands : List JournalCommand)
    (named : executor.state.underlyingBook.underlying = underlying) :
    ∀ event ∈ (reexecute underlying lineage executor commands).1, holds event := by
  induction commands generalizing executor with
  | nil => simp [reexecute]
  | cons command rest ih =>
    have kept := SequencedState.execute_underlying executor.hashOrder executor.state
      (command.context underlying lineage)
    intro event member
    rcases List.mem_cons.1 member with rfl | later
    · exact each executor command named
    · exact ih _ (kept.trans named) event later

/-- The legs of an executor's events stand under its underlying. -/
theorem reexecute_legs_symbol (executor : MatchingExecutor U) (commands : List JournalCommand)
    (named : executor.state.underlyingBook.underlying = underlying) :
    ∀ leg ∈ (reexecute underlying lineage executor commands).1.flatMap (storeLegs U),
      leg.record.symbol = underlying := by
  intro leg member
  obtain ⟨event, derived, brought⟩ := List.mem_flatMap.1 member
  have each : ∀ (executor : MatchingExecutor U) command, executor.state.underlyingBook.underlying = underlying →
      ∀ leg ∈ storeLegs U (deriveEvent underlying lineage executor command).1, leg.record.symbol = underlying := by
    intro executor command named leg here
    have filed := (storeLegs_filed here).2
    unfold storeLegs at here
    split at here
    · cases here
    next symbol command' =>
      split at here
      · cases here
      next under parsed =>
        obtain ⟨fill, filled, rfl⟩ := List.mem_map.1 here
        obtain ⟨other, same, parses⟩ := SequencedState.execute_fills_symbol executor.hashOrder executor.state
          (command.context underlying lineage) (List.ne_nil_of_mem filled)
        have equal : symbol = other := Option.some.inj (command'.symm.trans same)
        rw [equal, parses, named] at parsed
        exact (Option.some.inj parsed).symm
  have filed := @reexecute_forall _ _ _ (fun event => ∀ leg ∈ storeLegs U event, leg.record.symbol = underlying) each
    executor commands named event derived
  exact filed leg brought

include laws in
/-- The keys of an executor's legs: named after its underlying, and none twice. -/
theorem reexecute_legs_keys (executor : MatchingExecutor U) {commands : List JournalCommand}
    (ascending : commands.Pairwise fun early late => early.sequence < late.sequence) :
    (((reexecute underlying lineage executor commands).1.flatMap (storeLegs U)).map fun leg =>
        leg.record.key).Nodup ∧
      ∀ leg ∈ (reexecute underlying lineage executor commands).1.flatMap (storeLegs U), ∃ command ∈ commands, ∃ index,
        leg.record.executionId = lineage.executionId underlying command.sequence index := by
  let executors : Executors U := fun _ => executor
  have climbing : Ascending (commands.map (Commit.mk underlying)) := by
    refine List.pairwise_map.2 (ascending.imp ?_)
    intro early late below _
    exact below
  obtain ⟨pairs, twins, legs⟩ := executors.storeLegs_commitAll lineage laws (commands.map (Commit.mk underlying))
  rw [executors.commitAll_alone] at legs
  have keys := twins_keys twins
  rw [← legs, List.map_map] at keys
  refine ⟨?_, ?_⟩
  · have distinct := bothKeys_nodup (executors.tradesOf_nodup lineage climbing)
    rw [← keys] at distinct
    exact distinct
  · intro leg member
    have keyed := List.mem_map_of_mem (f := ExecutionRecord.key ∘ StoreLeg.record) member
    rw [keys] at keyed
    obtain ⟨id, named, either⟩ := List.mem_flatMap.1 keyed
    obtain ⟨made, traded, rfl⟩ := List.mem_map.1 named
    obtain ⟨commit, listed, index, origin⟩ := Executors.mem_tradesOf lineage traded
    obtain ⟨command, sent, rfl⟩ := List.mem_map.1 listed
    refine ⟨command, sent, index, ?_⟩
    rw [← origin]
    rcases List.mem_pair.1 either with same | same <;> exact congrArg Prod.fst same

include laws in
/-- The keys of the legs of one event. -/
theorem deriveEvent_legs_keys (executor : MatchingExecutor U) (command : JournalCommand) :
    ((storeLegs U (deriveEvent underlying lineage executor command).1).map fun leg => leg.record.key).Nodup ∧
      ∀ leg ∈ storeLegs U (deriveEvent underlying lineage executor command).1, ∃ index,
        leg.record.executionId = lineage.executionId underlying command.sequence index := by
  have alone := @reexecute_legs_keys U laws lineage underlying executor [command] (List.pairwise_singleton ..)
  simp only [reexecute, List.flatMap_singleton, List.mem_singleton, exists_eq_left] at alone
  exact alone

end Derived

section Boot
variable {lineage : LineageId} {microstructure : Option MicrostructureConfig} {hashOrder : VisitOrder} {lane : Lane}
  {recovered : Recovered U}

/-- A recovered stream answers the journaled commands. -/
theorem Boots.reexecuted (boots : Boots lineage microstructure hashOrder lane recovered) (crashed : lane.Crashed) :
    (reexecute lane.underlying lineage (freshExecutor U lane.underlying microstructure none hashOrder)
      (lane.emitted.map VenueEvent.envelope ++ lane.cut)).1 = recovered.events := by
  obtain ⟨index, reduced⟩ := boots
  have executed := reduceIntoExecutor_executor lane.underlying lineage reduced
  rw [crashed.commands] at executed
  rw [executed]

/-- The trailing events answer what was cut off. -/
theorem Boots.answers (boots : Boots lineage microstructure hashOrder lane recovered) (crashed : lane.Crashed) :
    (recovered.events.take lane.emitted.length).map VenueEvent.envelope = lane.emitted.map VenueEvent.envelope ∧
      (trailing lane recovered).map VenueEvent.envelope = lane.cut := by
  have answers : recovered.events.map VenueEvent.envelope = lane.emitted.map VenueEvent.envelope ++ lane.cut := by
    rw [← boots.reexecuted crashed]
    exact reexecute_envelopes _ _ _ _
  constructor
  · rw [List.map_take, answers, List.take_append_of_le_length (by simp), List.take_of_length_le (by simp)]
  · rw [trailing, List.map_drop, answers, List.drop_append_of_le_length (by simp)]
    simp

/-- A reading that the oracle settles reads the recovered stream as the emitted events and the trailing one. -/
theorem Boots.reads {α : Type} {reads : VenueEvent → List α} (boots : Boots lineage microstructure hashOrder lane recovered)
    (crashed : lane.Crashed) (agree : ∀ {stored derived}, VenueEvent.envelope stored = VenueEvent.envelope derived →
      storedEventMatches stored derived = true → reads stored = reads derived) :
    recovered.events.flatMap reads = lane.emitted.flatMap reads ++ (trailing lane recovered).flatMap reads := by
  have head := (boots.answers crashed).1
  obtain ⟨index, reduced⟩ := boots
  have agreed := reduceIntoExecutor_matches lane.underlying lineage reduced
  have paired : ∀ {stored derived : List VenueEvent},
      derived.map VenueEvent.envelope = stored.map VenueEvent.envelope →
      (∀ event ∈ stored, storedEventAt lane.records event.underlyingSequence = some event) →
      (∀ event ∈ derived, ∀ other, storedEventAt lane.records event.underlyingSequence = some other →
        storedEventMatches other event = true) →
      derived.flatMap reads = stored.flatMap reads := by
    intro stored derived same durable checked
    induction stored generalizing derived with
    | nil =>
      rw [List.map_nil, List.map_eq_nil_iff] at same
      rw [same]
    | cons event rest ih =>
      cases derived with
      | nil => cases same
      | cons first others =>
        obtain ⟨one, more⟩ := List.cons.inj same
        have sequence : first.underlyingSequence = event.underlyingSequence := congrArg JournalCommand.sequence one
        have matched := checked first (by simp) event (sequence ▸ durable event (by simp))
        rw [List.flatMap_cons, List.flatMap_cons, agree one.symm matched,
          ih more (fun other member => durable other (List.mem_cons_of_mem _ member))
            (fun other member => checked other (List.mem_cons_of_mem _ member))]
  conv_lhs => rw [← List.take_append_drop lane.emitted.length recovered.events]
  rw [List.flatMap_append, paired head crashed.stored fun event member => agreed event (List.mem_of_mem_take member)]
  rfl

theorem Boots.legs (boots : Boots lineage microstructure hashOrder lane recovered) (crashed : lane.Crashed) :
    recovered.events.flatMap (storeLegs U) =
      lane.emitted.flatMap (storeLegs U) ++ (trailing lane recovered).flatMap (storeLegs U) :=
  boots.reads crashed storeLegs_of_matches

theorem Boots.symbol (boots : Boots lineage microstructure hashOrder lane recovered) (crashed : lane.Crashed) :
    ∀ leg ∈ recovered.events.flatMap (storeLegs U), leg.record.symbol = lane.underlying := by
  rw [← boots.reexecuted crashed]
  exact reexecute_legs_symbol _ _ rfl

end Boot

section Venue
variable {lineage : LineageId} {microstructure : Option MicrostructureConfig} {hashOrder : VisitOrder}

/-- A booted venue: each hosted underlying with what its recovery has returned. -/
structure BootedVenue (lineage : LineageId) (microstructure : Option MicrostructureConfig) (hashOrder : VisitOrder)
    (boots : List (Lane × Recovered U)) : Prop where
  apart : (boots.map fun boot => boot.1.underlying).Nodup
  crashed : ∀ boot ∈ boots, boot.1.Crashed
  booted : ∀ boot ∈ boots, Boots lineage microstructure hashOrder boot.1 boot.2

/-- The events that only the recovery has derived, in boot order. -/
def allTrailing (boots : List (Lane × Recovered U)) : List VenueEvent := boots.flatMap fun boot => trailing boot.1 boot.2

variable {boots : List (Lane × Recovered U)} {merged : List (String × VenueEvent)}

/-- The legs in the order of the boot, and in the order of the live process followed by the trailing events. -/
def bootLegs (boots : List (Lane × Recovered U)) : List StoreLeg :=
  ((boots.map Prod.snd).flatMap Recovered.events).flatMap (storeLegs U)

def liveLegs (boots : List (Lane × Recovered U)) (merged : List (String × VenueEvent)) : List StoreLeg :=
  (merged.map Prod.snd).flatMap (storeLegs U) ++ (allTrailing boots).flatMap (storeLegs U)

theorem bootLegs_eq (boots : List (Lane × Recovered U)) :
    bootLegs boots = boots.flatMap fun boot => boot.2.events.flatMap (storeLegs U) := by
  simp only [bootLegs, List.flatMap_map, List.flatMap_assoc]

/-- Where the legs of each element stand under its tag, the legs of an underlying are those of the elements tagged
with it. -/
theorem legsOn_flatMap {α : Type} {tag : α → String} {legs : α → List StoreLeg} {list : List α}
    (named : ∀ element ∈ list, ∀ leg ∈ legs element, leg.record.symbol = tag element) (underlying : String) :
    legsOn underlying (list.flatMap legs) = (list.filter fun element => tag element = underlying).flatMap legs := by
  induction list with
  | nil => rfl
  | cons head rest ih =>
    have here := named head (by simp)
    have later := ih fun element member => named element (List.mem_cons_of_mem _ member)
    rw [List.flatMap_cons, legsOn, List.filter_append]
    change legsOn underlying _ ++ legsOn underlying _ = _
    rw [later]
    by_cases same : tag head = underlying
    · rw [List.filter_cons_of_pos (by simpa using same), List.flatMap_cons]
      refine congrArg (· ++ _) (List.filter_eq_self.2 fun leg member => ?_)
      exact decide_eq_true ((here leg member).trans same)
    · rw [List.filter_cons_of_neg (by simpa using same)]
      have none : legsOn underlying (legs head) = [] := by
        refine List.filter_eq_nil_iff.2 fun leg member equal => same ?_
        exact (here leg member).symm.trans (of_decide_eq_true equal)
      rw [none, List.nil_append]

namespace BootedVenue
variable (venue : BootedVenue lineage microstructure hashOrder boots)

include venue in
theorem emitted_symbol (interleaves : Interleaves (boots.map Prod.fst) merged) :
    ∀ entry ∈ merged, ∀ leg ∈ storeLegs U entry.2, leg.record.symbol = entry.1 := by
  intro entry member leg brought
  obtain ⟨lane, hosted, same⟩ := List.mem_map.1 (interleaves.hosted entry member)
  obtain ⟨boot, listed, rfl⟩ := List.mem_map.1 hosted
  have emitted : entry.2 ∈ boot.1.emitted := by
    rw [← interleaves.ordered boot.1 hosted]
    exact List.mem_map.2 ⟨entry, List.mem_filter.2 ⟨member, by simp [same]⟩, rfl⟩
  rw [← same]
  refine (venue.booted boot listed).symbol (venue.crashed boot listed) leg ?_
  rw [(venue.booted boot listed).legs (venue.crashed boot listed)]
  exact List.mem_append_left _ (List.mem_flatMap.2 ⟨entry.2, emitted, brought⟩)

include venue in
theorem trailing_symbol :
    ∀ boot ∈ boots, ∀ leg ∈ (trailing boot.1 boot.2).flatMap (storeLegs U), leg.record.symbol = boot.1.underlying := by
  intro boot listed leg brought
  refine (venue.booted boot listed).symbol (venue.crashed boot listed) leg ?_
  rw [(venue.booted boot listed).legs (venue.crashed boot listed)]
  exact List.mem_append_right _ brought

include venue in
/-- The boot and the live process take the legs of every underlying in the same order. -/
theorem woven (interleaves : Interleaves (boots.map Prod.fst) merged) :
    Woven (bootLegs boots) (liveLegs boots merged) := by
  intro underlying
  have booted := @legsOn_flatMap _ (fun boot : Lane × Recovered U => boot.1.underlying)
    (fun boot => boot.2.events.flatMap (storeLegs U)) boots
    (fun boot listed => (venue.booted boot listed).symbol (venue.crashed boot listed)) underlying
  have emitted := @legsOn_flatMap _ Prod.fst (fun entry : String × VenueEvent => storeLegs U entry.2) merged
    (venue.emitted_symbol interleaves) underlying
  have late := @legsOn_flatMap _ (fun boot : Lane × Recovered U => boot.1.underlying)
    (fun boot => (trailing boot.1 boot.2).flatMap (storeLegs U)) boots venue.trailing_symbol underlying
  have live : legsOn underlying (liveLegs boots merged) =
      (eventsOn underlying merged).flatMap (storeLegs U) ++
        (boots.filter fun boot => boot.1.underlying = underlying).flatMap
          fun boot => (trailing boot.1 boot.2).flatMap (storeLegs U) := by
    rw [← late]
    unfold liveLegs allTrailing eventsOn
    rw [List.flatMap_map, List.flatMap_map, List.flatMap_assoc, ← emitted]
    exact List.filter_append ..
  rw [bootLegs_eq, booted, live]
  by_cases hosted : underlying ∈ boots.map fun boot => boot.1.underlying
  · obtain ⟨boot, listed, rfl⟩ := List.mem_map.1 hosted
    rw [filter_of_unique (fun boot : Lane × Recovered U => boot.1.underlying) venue.apart listed,
      interleaves.ordered boot.1 (List.mem_map_of_mem listed), List.flatMap_singleton, List.flatMap_singleton]
    exact (venue.booted boot listed).legs (venue.crashed boot listed)
  · have nobody : (boots.filter fun boot => boot.1.underlying = underlying) = [] := by
      refine List.filter_eq_nil_iff.2 fun boot listed same => hosted ?_
      exact List.mem_map.2 ⟨boot, listed, of_decide_eq_true same⟩
    have silent : eventsOn underlying merged = [] := by
      refine List.map_eq_nil_iff.2 (List.filter_eq_nil_iff.2 fun entry member same => hosted ?_)
      have host := interleaves.hosted entry member
      rw [List.map_map, of_decide_eq_true same] at host
      exact host
    rw [nobody, silent]
    rfl

include venue in
theorem bootLegs_keys (laws : MatchLaws U) : ((bootLegs boots).map fun leg => leg.record.key).Nodup := by
  rw [bootLegs_eq, List.map_flatMap]
  have lanes : ∀ boot ∈ boots, ((boot.2.events.flatMap (storeLegs U)).map fun leg => leg.record.key).Nodup ∧
      ∀ leg ∈ boot.2.events.flatMap (storeLegs U), ∃ command index,
        leg.record.executionId = lineage.executionId boot.1.underlying (JournalCommand.sequence command) index := by
    intro boot listed
    rw [← (venue.booted boot listed).reexecuted (venue.crashed boot listed)]
    obtain ⟨distinct, named⟩ := @reexecute_legs_keys U laws lineage boot.1.underlying
      (freshExecutor U boot.1.underlying microstructure none hashOrder) _ (venue.crashed boot listed).ascending
    exact ⟨distinct, fun leg brought => (named leg brought).imp fun _ => And.right⟩
  refine List.nodup_flatMap.2 ⟨fun boot listed => (lanes boot listed).1, ?_⟩
  refine (List.pairwise_map.1 venue.apart).imp_of_mem ?_
  intro boot other listed present apart key here there
  obtain ⟨leg, brought, rfl⟩ := List.mem_map.1 here
  obtain ⟨second, found, same⟩ := List.mem_map.1 there
  obtain ⟨command, index, named⟩ := (lanes boot listed).2 leg brought
  obtain ⟨last, place, called⟩ := (lanes other present).2 second found
  have ids : second.record.executionId = leg.record.executionId := congrArg Prod.fst same
  rw [named, called] at ids
  exact apart (LineageId.executionId_inj ids).1.symm

end BootedVenue

/-- The stores of a boot against those of the process before it. -/
structure RebuildsStores (boots : List (Lane × Recovered U)) (merged : List (String × VenueEvent)) : Prop where
  /-- The rebuild succeeds exactly when the live process has sealed nothing and the trailing events do not. -/
  accepted : (∃ rebuilt, rebuildAll (.new U) (boots.map Prod.snd) = .ok rebuilt) ↔
    ∃ live, (StoreFanOut.new U).emitAll (merged.map Prod.snd) = .ok live ∧
      ∃ completed, live.emitAll (allTrailing boots) = .ok completed
  /-- It shows what the live stores show once the trailing events are projected as well. -/
  same : ∀ rebuilt live completed, rebuildAll (.new U) (boots.map Prod.snd) = .ok rebuilt →
    (StoreFanOut.new U).emitAll (merged.map Prod.snd) = .ok live → live.emitAll (allTrailing boots) = .ok completed →
      SameStores rebuilt completed
  /-- A trailing event answers a journaled command that was cut off, and each underlying has at most one. -/
  trailing : (allTrailing boots).map VenueEvent.envelope = boots.flatMap fun boot => boot.1.cut
  few : ∀ boot ∈ boots, boot.1.cut.length ≤ 1
  /-- Where nothing was cut off, it shows what the live stores show. -/
  whole : (∀ boot ∈ boots, boot.1.cut = []) → ∀ rebuilt live, rebuildAll (.new U) (boots.map Prod.snd) = .ok rebuilt →
    (StoreFanOut.new U).emitAll (merged.map Prod.snd) = .ok live → SameStores rebuilt live

theorem takes_liveLegs {completed : StoreFanOut U} :
    (StoreFanOut.new U).Takes (liveLegs boots merged) completed ↔
      ∃ live, (StoreFanOut.new U).emitAll (merged.map Prod.snd) = .ok live ∧
        live.emitAll (allTrailing boots) = .ok completed := by
  unfold liveLegs
  rw [StoreFanOut.takes_append]
  constructor
  · rintro ⟨live, early, late⟩
    exact ⟨live, (StoreFanOut.emitAll_ok _ rfl).2 early, (StoreFanOut.emitAll_ok _ early.sealed).2 late⟩
  · rintro ⟨live, early, late⟩
    have taken := (StoreFanOut.emitAll_ok _ rfl).1 early
    exact ⟨live, taken, (StoreFanOut.emitAll_ok _ taken.sealed).1 late⟩

/-- In whatever order the actors of a venue have emitted, and wherever the crash has cut them off, the boot rebuilds
the stores of the live process with at most one trailing event for each underlying on top. -/
theorem BootedVenue.rebuildsStores (venue : BootedVenue lineage microstructure hashOrder boots) (laws : MatchLaws U)
    (interleaves : Interleaves (boots.map Prod.fst) merged) (room : (bootLegs boots).length < 2 ^ 64) :
    RebuildsStores boots merged := by
  have woven := venue.woven interleaves
  have filed : ∀ leg ∈ bootLegs boots, leg.Filed U := by
    intro leg member
    obtain ⟨event, -, brought⟩ := List.mem_flatMap.1 member
    exact storeLegs_filed brought
  have others_filed : ∀ leg ∈ liveLegs boots merged, leg.Filed U := fun leg member =>
    filed leg ((woven.mem_iff leg).2 member)
  have keys := venue.bootLegs_keys laws
  have same : ∀ rebuilt live completed, rebuildAll (.new U) (boots.map Prod.snd) = .ok rebuilt →
      (StoreFanOut.new U).emitAll (merged.map Prod.snd) = .ok live → live.emitAll (allTrailing boots) = .ok completed →
        SameStores rebuilt completed := by
    intro rebuilt live completed rebuild early late
    exact woven.sameStores filed keys room ((rebuildAll_ok rfl _).1 rebuild) (takes_liveLegs.2 ⟨live, early, late⟩)
  have answers : (allTrailing boots).map VenueEvent.envelope = boots.flatMap fun boot => boot.1.cut := by
    unfold allTrailing
    rw [List.map_flatMap]
    refine List.flatMap_congr fun boot listed => ?_
    exact ((venue.booted boot listed).answers (venue.crashed boot listed)).2
  refine ⟨?_, same, answers, fun boot listed => (venue.crashed boot listed).few, ?_⟩
  · constructor
    · rintro ⟨rebuilt, rebuild⟩
      obtain ⟨positions, applied, -⟩ := (rebuildAll_ok rfl _).1 rebuild
      have moved := (InMemoryPositionsStore.applyAll_congr (woven.legsAt filed others_filed) positions).1 applied
      obtain ⟨live, early, late⟩ := takes_liveLegs.1 ⟨positions, moved, rfl⟩
      exact ⟨live, early, _, late⟩
    · rintro ⟨live, early, completed, late⟩
      obtain ⟨positions, applied, -⟩ := takes_liveLegs.2 ⟨live, early, late⟩
      have moved := (InMemoryPositionsStore.applyAll_congr (woven.legsAt filed others_filed) positions).2 applied
      exact ⟨_, (rebuildAll_ok rfl _).2 ⟨positions, moved, rfl⟩⟩
  · intro uncut rebuilt live rebuild early
    have none : allTrailing boots = [] := by
      rw [← List.map_eq_nil_iff, answers, List.flatMap_eq_nil_iff]
      exact uncut
    refine same rebuilt live live rebuild early ?_
    rw [none]
    rfl

end Venue

end Lanes

/-- An offer rests and a bid takes it; the journal refuses the event of the bid, and the process ends there. -/
def cutOffRun : BootedRun :=
  { sweptRun "a" "b" with
    script := [.quiet .none, .quiet .none, .quiet .none, .quiet (.appendFailed "connection closed")]
    inputs := [⟨1, testOrder "a" .sell 100⟩, ⟨2, testOrder "b" .buy 100⟩] }

def cutOffLane : Lane := cutOffRun.lane referenceUpstream

def cutOffMerged : List (String × VenueEvent) := cutOffLane.emitted.map fun event => ("BTC", event)

/-- What the boot recovers of it. -/
def cutOffRecovered : Recovered referenceUpstream :=
  match reduceIntoExecutor cutOffLane.records
      (freshExecutor referenceUpstream "BTC" none none fun _ _ => Equiv.refl _) "BTC" "run-1" none none with
  | .ok recovered => recovered
  | .error _ => ⟨[], freshExecutor referenceUpstream "BTC" none none fun _ _ => Equiv.refl _, none, none⟩

theorem cutOff_booted :
    BootedVenue "run-1" none (fun _ _ => Equiv.refl _) [(cutOffLane, cutOffRecovered)] where
  apart := by simp
  crashed := by
    intro boot member
    obtain rfl := List.mem_singleton.1 member
    exact cutOffRun.lane_crashed referenceUpstream (by decide)
  booted := by
    intro boot member
    obtain rfl := List.mem_singleton.1 member
    exact ⟨none, rfl⟩

theorem cutOff_interleaves : Interleaves [cutOffLane] cutOffMerged :=
  ⟨by decide, by decide⟩

theorem cutOff_rebuildsStores :
    cutOffRecovered.events.length = 2 ∧ RebuildsStores [(cutOffLane, cutOffRecovered)] cutOffMerged :=
  ⟨by decide, cutOff_booted.rebuildsStores matchLaws_reference cutOff_interleaves (by decide)⟩

/-- The live process has recorded no trade, and the boot records one. -/
theorem cut_off_trade_rebuilt :
    BootedVenue "run-1" none (fun _ _ => Equiv.refl _) [(cutOffLane, cutOffRecovered)] ∧
      Interleaves [cutOffLane] cutOffMerged ∧
        ∃ rebuilt live, rebuildAll (.new referenceUpstream) [cutOffRecovered] = .ok rebuilt ∧
          (StoreFanOut.new referenceUpstream).emitAll (cutOffMerged.map Prod.snd) = .ok live ∧
            ¬ SameStores rebuilt live := by
  refine ⟨cutOff_booted, cutOff_interleaves, _, _, rfl, rfl, ?_⟩
  intro same
  have taken := same.records ("run-1:BTC:1:0", true)
  revert taken
  decide

end Fauxchange.Exchange
