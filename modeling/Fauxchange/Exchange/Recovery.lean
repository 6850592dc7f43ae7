import Fauxchange.Exchange.ActorRuns
import Fauxchange.Exchange.HashOrder
import Fauxchange.Exchange.ReferenceBook
import Fauxchange.Microstructure.Config

/-! Recovery as re-execution: the reducer over the records of one journal, with the stored events as its
integrity oracle, and what it rebuilds from a journal the actor wrote. -/

namespace Fauxchange.Exchange
open Lib Microstructure

/-- A stored reject of an old envelope decodes to `internal`; it takes the re-derived kind. -/
def upgradeLegacyRejectKind (stored derived : VenueEvent) : VenueEvent :=
  match stored.outcome, derived.outcome with
  | .rejected .internal reason, .rejected kind _ => { stored with outcome := .rejected kind reason }
  | .replace cancelled (.rejected .internal reason), .replace _ (.rejected kind _) =>
    { stored with outcome := .replace cancelled (.rejected kind reason) }
  | _, _ => stored

def storedEventMatches (stored derived : VenueEvent) : Bool :=
  stored = derived ∨ upgradeLegacyRejectKind stored derived = derived

structure Recovered (U : Upstream) where
  events : List VenueEvent
  executor : MatchingExecutor U
  lastSequence : Option Nat
  clordidIndex : Option ClOrdIdIndex

section Reduce
variable {U : Upstream}

/-- The re-execution admission; without a configuration there is none. -/
def admitRecorded (U : Upstream) (microstructure : Option MicrostructureConfig) (command : VenueCommand) :
    Except JournalError Unit :=
  match microstructure with
  | none => .ok ()
  | some config =>
    match checkOrderAdmission U config command with
    | .ok () => .ok ()
    | .error error => .error (.priceOutOfBand error.display)

/-- The loop of the reducer over the commands in order. -/
def reduceCommands (records : List JournalRecord) (underlying : String) (lineage : LineageId)
    (microstructure : Option MicrostructureConfig) (executor : MatchingExecutor U)
    (index : Option ClOrdIdIndex) : List JournalCommand →
    Except JournalError (List VenueEvent × MatchingExecutor U × Option ClOrdIdIndex)
  | [] => .ok ([], executor, index)
  | command :: rest =>
    match admitRecorded U microstructure command.command with
    | .error error => .error error
    | .ok () =>
      let derived := deriveEvent underlying lineage executor command
      if (storedEventAt records command.sequence).any fun stored => !storedEventMatches stored derived.1 then
        .error (.corruption underlying command.sequence)
      else
        let index := index.map fun index =>
          applyCommittedCorrelation index derived.1.underlyingSequence derived.1.command derived.1.outcome
        match reduceCommands records underlying lineage microstructure derived.2 index rest with
        | .error error => .error error
        | .ok (events, last) => .ok (derived.1 :: events, last)

def reduceIntoExecutor (records : List JournalRecord) (executor : MatchingExecutor U) (underlying : String)
    (lineage : LineageId) (microstructure : Option MicrostructureConfig) (index : Option ClOrdIdIndex) :
    Except JournalError (Recovered U) :=
  match reduceCommands records underlying lineage microstructure executor index (commandRecordsInOrder records) with
  | .error error => .error error
  | .ok (events, executor, index) => .ok ⟨events, executor, (records.map JournalRecord.sequence).max?, index⟩

/-- The book settings of a venue, bare without a configuration. -/
def bookSettings (underlying : String) : Option MicrostructureConfig → BookConfig
  | none => .bare
  | some config => config.bookConfig underlying

/-- The executor a process builds for an underlying before its first command. -/
def freshExecutor (U : Upstream) (underlying : String) (microstructure : Option MicrostructureConfig)
    (sink : Option (List MarketMakerControlKnobs)) (hashOrder : VisitOrder) : MatchingExecutor U :=
  ⟨.fromBook ⟨underlying, bookSettings underlying microstructure, ∅⟩, sink, hashOrder⟩

theorem storedEventMatches_self (event : VenueEvent) : storedEventMatches event event = true := by
  simp [storedEventMatches]

variable (underlying : String) (lineage : LineageId)

/-- Along a re-execution, every command that sweeps finds the resting venue order ids apart. -/
def ApartRun (executor : MatchingExecutor U) : List JournalCommand → Prop
  | [] => True
  | command :: rest =>
    executor.state.SweepsApart command.command ∧
      ApartRun (deriveEvent underlying lineage executor command).2 rest

theorem ApartRun.split {executor : MatchingExecutor U} {early late : List JournalCommand}
    (apart : ApartRun underlying lineage executor (early ++ late)) :
    ApartRun underlying lineage executor early ∧
      ApartRun underlying lineage (reexecute underlying lineage executor early).2 late := by
  induction early generalizing executor with
  | nil => exact ⟨trivial, apart⟩
  | cons command rest ih =>
    obtain ⟨first, later⟩ := ih apart.2
    exact ⟨⟨apart.1, first⟩, later⟩

/-- Two processes in the same state derive the same event, whatever their hash orders and sinks. -/
theorem deriveEvent_hash {executor other : MatchingExecutor U} (same : executor.state = other.state)
    (command : JournalCommand) (apart : executor.state.SweepsApart command.command) :
    (deriveEvent underlying lineage executor command).1 = (deriveEvent underlying lineage other command).1 ∧
      (deriveEvent underlying lineage executor command).2.state =
        (deriveEvent underlying lineage other command).2.state := by
  have executed := SequencedState.execute_hash executor.hashOrder other.hashOrder executor.state
    (command.context underlying lineage) apart
  simp only [deriveEvent, CommandExecutor.execute]
  rw [executed, same]
  exact ⟨rfl, rfl⟩

/-- So they re-execute any list of commands to the same events and the same state. -/
theorem reexecute_hash {executor other : MatchingExecutor U} (same : executor.state = other.state)
    (commands : List JournalCommand) (apart : ApartRun underlying lineage executor commands) :
    (reexecute underlying lineage executor commands).1 = (reexecute underlying lineage other commands).1 ∧
      (reexecute underlying lineage executor commands).2.state =
        (reexecute underlying lineage other commands).2.state := by
  induction commands generalizing executor other with
  | nil => exact ⟨rfl, same⟩
  | cons command rest ih =>
    obtain ⟨event, state⟩ := deriveEvent_hash underlying lineage same command apart.1
    obtain ⟨events, last⟩ := ih state apart.2
    exact ⟨by simp only [reexecute, event, events], last⟩

/-- The reducer accepts what it re-derives, when every command is admitted and every stored event is the
re-derived one. -/
theorem reduceCommands_ok (records : List JournalRecord) (microstructure : Option MicrostructureConfig)
    (executor : MatchingExecutor U) (index : Option ClOrdIdIndex) (commands : List JournalCommand)
    (admitted : ∀ command ∈ commands, admitRecorded U microstructure command.command = .ok ())
    (stored : ∀ event ∈ (reexecute underlying lineage executor commands).1, ∀ other,
      storedEventAt records event.underlyingSequence = some other → other = event) :
    ∃ last, reduceCommands records underlying lineage microstructure executor index commands =
      .ok ((reexecute underlying lineage executor commands).1, (reexecute underlying lineage executor commands).2,
        last) := by
  induction commands generalizing executor index with
  | nil => exact ⟨index, rfl⟩
  | cons command rest ih =>
    have now := admitted command (by simp)
    have oracle : ((storedEventAt records command.sequence).any fun other =>
        !storedEventMatches other (deriveEvent underlying lineage executor command).1) = false := by
      cases found : storedEventAt records command.sequence with
      | none => rfl
      | some other =>
        have same := stored (deriveEvent underlying lineage executor command).1 (by simp [reexecute]) other found
        simp [same, storedEventMatches_self]
    obtain ⟨last, later⟩ := ih (deriveEvent underlying lineage executor command).2
      (index.map fun index => applyCommittedCorrelation index
        (deriveEvent underlying lineage executor command).1.underlyingSequence
        (deriveEvent underlying lineage executor command).1.command
        (deriveEvent underlying lineage executor command).1.outcome)
      (fun other member => admitted other (List.mem_cons_of_mem _ member))
      (fun event member => stored event (by simp [reexecute, member]))
    refine ⟨last, ?_⟩
    simp only [reduceCommands, now, oracle, later, reexecute]
    rfl

/-- What the reducer returns is what the commands re-execute to. -/
theorem reduceCommands_executor {records : List JournalRecord} {executor last : MatchingExecutor U}
    {microstructure : Option MicrostructureConfig} {index published : Option ClOrdIdIndex}
    {commands : List JournalCommand} {events : List VenueEvent}
    (reduced : reduceCommands records underlying lineage microstructure executor index commands =
      .ok (events, last, published)) : reexecute underlying lineage executor commands = (events, last) := by
  induction commands generalizing executor index events with
  | nil =>
    cases reduced
    rfl
  | cons command rest ih =>
    simp only [reduceCommands] at reduced
    split at reduced
    · cases reduced
    · split at reduced
      · cases reduced
      · split at reduced
        · cases reduced
        next later =>
          cases reduced
          simp only [reexecute, ih later]

/-- The reducer has held every derived event against the stored one. -/
theorem reduceCommands_matches {records : List JournalRecord} {executor last : MatchingExecutor U}
    {microstructure : Option MicrostructureConfig} {index published : Option ClOrdIdIndex}
    {commands : List JournalCommand} {events : List VenueEvent}
    (reduced : reduceCommands records underlying lineage microstructure executor index commands =
      .ok (events, last, published)) :
    ∀ event ∈ events, ∀ stored, storedEventAt records event.underlyingSequence = some stored →
      storedEventMatches stored event = true := by
  induction commands generalizing executor index events with
  | nil =>
    cases reduced
    simp
  | cons command rest ih =>
    simp only [reduceCommands] at reduced
    split at reduced
    · cases reduced
    · split at reduced
      · cases reduced
      next agreed =>
        split at reduced
        · cases reduced
        next later =>
          cases reduced
          intro event member stored found
          rcases List.mem_cons.1 member with rfl | listed
          · have here : storedEventAt records command.sequence = some stored := found
            rw [here] at agreed
            simpa using agreed
          · exact ih later event listed stored found

theorem reduceIntoExecutor_executor {records : List JournalRecord} {executor : MatchingExecutor U}
    {microstructure : Option MicrostructureConfig} {index : Option ClOrdIdIndex} {recovered : Recovered U}
    (reduced : reduceIntoExecutor records executor underlying lineage microstructure index = .ok recovered) :
    reexecute underlying lineage executor (commandRecordsInOrder records) = (recovered.events, recovered.executor) := by
  unfold reduceIntoExecutor at reduced
  split at reduced
  · cases reduced
  next commands =>
    cases reduced
    exact reduceCommands_executor underlying lineage commands

theorem reduceIntoExecutor_matches {records : List JournalRecord} {executor : MatchingExecutor U}
    {microstructure : Option MicrostructureConfig} {index : Option ClOrdIdIndex} {recovered : Recovered U}
    (reduced : reduceIntoExecutor records executor underlying lineage microstructure index = .ok recovered) :
    ∀ event ∈ recovered.events, ∀ stored, storedEventAt records event.underlyingSequence = some stored →
      storedEventMatches stored event = true := by
  unfold reduceIntoExecutor at reduced
  split at reduced
  · cases reduced
  next commands =>
    cases reduced
    exact reduceCommands_matches underlying lineage commands

theorem reduceIntoExecutor_of_commands {records : List JournalRecord} {executor last : MatchingExecutor U}
    {microstructure : Option MicrostructureConfig} {index published : Option ClOrdIdIndex} {events : List VenueEvent}
    (reduced : reduceCommands records underlying lineage microstructure executor index
      (commandRecordsInOrder records) = .ok (events, last, published)) :
    reduceIntoExecutor records executor underlying lineage microstructure index =
      .ok ⟨events, last, (records.map JournalRecord.sequence).max?, published⟩ := by
  simp only [reduceIntoExecutor, reduced]

end Reduce

@[simp] theorem readFrom_zero (records : List JournalRecord) : readFrom records 0 = records := by
  simp [readFrom]

section Oracle
variable {E : Type} [CommandExecutor E] {origin : Origin E} {events : List VenueEvent} {phase : Phase}
  {actor : FaultActor E}

/-- The durable events of a run are those its executor derived. -/
theorem Ledger.stored_mem (ledger : Ledger origin events phase actor) (fresh : origin.prior = [])
    (positions : List Nat) {event : VenueEvent}
    (durable : event ∈ ((LateLog.settle JournalRecord.key actor.journal.log positions).records).filterMap
      JournalRecord.asEvent?) : event ∈ events ++ phase.pending := by
  obtain ⟨tail, records, shape⟩ := ledger.tail positions
  rw [records, Origin.base, fresh, List.nil_append, List.filterMap_append, filterMap_asEvent?_pairs] at durable
  rcases List.mem_append.1 durable with old | new
  · exact List.mem_append_left _ old
  · rcases shape with ⟨rfl, -⟩ | ⟨stray, -, rfl, -⟩ | ⟨last, pending, rfl | rfl⟩
    · cases new
    · simp [JournalRecord.asEvent?] at new
    · simp [JournalRecord.asEvent?] at new
    · simp only [VenueEvent.pair, List.filterMap_cons, JournalRecord.asEvent?, List.filterMap_nil,
        List.mem_singleton] at new
      rw [pending, new]
      simp

/-- Re-execution by the original executor meets its own stored events. -/
theorem Ledger.oracle (ledger : Ledger origin events phase actor) (fresh : origin.prior = [])
    (start : origin.start = 0) (positions : List Nat) :
    ∀ event ∈ (reexecute origin.underlying origin.lineageId origin.executor (commandRecordsInOrder
        (LateLog.settle JournalRecord.key actor.journal.log positions).records)).1, ∀ other,
      Exchange.storedEventAt (LateLog.settle JournalRecord.key actor.journal.log positions).records
        event.underlyingSequence = some other → other = event := by
  intro event derived other found
  have durable := ledger.stored_mem fresh positions (List.mem_of_find?_eq_some found)
  have sequence : other.underlyingSequence = event.underlyingSequence := by
    simpa using List.find?_some found
  have high := (ledger.gapless.mem_range durable).2
  obtain ⟨stray, commands, order, -⟩ := ledger.durable_commands positions
  rw [← ledger.replayed_eq, start, readFrom_zero] at commands
  rw [commands, reexecute_append, ledger.executed] at derived
  rcases List.mem_append.1 derived with own | late
  · have unique : ((events ++ phase.pending).map VenueEvent.underlyingSequence).Nodup :=
      ledger.gapless ▸ List.nodup_range'
    exact List.inj_on_of_nodup_map unique durable own sequence
  · -- a stray command has no stored event: its sequence is past those of the ledger
    exfalso
    have envelope : event.envelope ∈ stray := by
      have answered := reexecute_envelopes origin.underlying origin.lineageId actor.executor.inner stray
      rw [← answered]
      exact List.mem_map.2 ⟨event, late, rfl⟩
    have place : event.underlyingSequence ∈ stray.map JournalCommand.sequence :=
      List.mem_map.2 ⟨_, envelope, rfl⟩
    rw [order, List.mem_range'_1] at place
    omega

/-- The stored events head the re-derived ones, and at most one more follows. -/
theorem Ledger.eventsFrom_prefix (ledger : Ledger origin events phase actor) (fresh : origin.prior = [])
    (start : origin.start = 0) (positions : List Nat) :
    ∃ trailing, (reexecute origin.underlying origin.lineageId origin.executor (commandRecordsInOrder
        (LateLog.settle JournalRecord.key actor.journal.log positions).records)).1 =
          eventsFrom (LateLog.settle JournalRecord.key actor.journal.log positions).records 0 ++ trailing ∧
      trailing.length ≤ 1 := by
  obtain ⟨stray, commands, -, short⟩ := ledger.durable_commands positions
  rw [← ledger.replayed_eq, start, readFrom_zero] at commands
  have derived : (reexecute origin.underlying origin.lineageId origin.executor (commandRecordsInOrder
      (LateLog.settle JournalRecord.key actor.journal.log positions).records)).1 =
        events ++ (phase.pending ++
          (reexecute origin.underlying origin.lineageId actor.executor.inner stray).1) := by
    rw [commands, reexecute_append, ledger.executed, List.append_assoc]
  have strayed : (reexecute origin.underlying origin.lineageId actor.executor.inner stray).1.length =
      stray.length := by
    rw [← List.length_map (f := VenueEvent.envelope), reexecute_envelopes]
  rw [List.length_append] at short
  obtain ⟨tail, records, shape⟩ := ledger.tail positions
  have stored : eventsFrom (LateLog.settle JournalRecord.key actor.journal.log positions).records 0 =
      events ++ tail.filterMap JournalRecord.asEvent? := by
    rw [eventsFrom, readFrom_zero, records, Origin.base, fresh, List.nil_append, List.filterMap_append,
      filterMap_asEvent?_pairs]
  rw [derived, stored]
  generalize (reexecute origin.underlying origin.lineageId actor.executor.inner stray).1 = late at strayed ⊢
  rcases shape with ⟨rfl, -⟩ | ⟨other, -, rfl, -⟩ | ⟨last, pending, rfl | rfl⟩
  · exact ⟨phase.pending ++ late, by simp, by rw [List.length_append]; omega⟩
  · exact ⟨phase.pending ++ late, by simp [JournalRecord.asEvent?], by rw [List.length_append]; omega⟩
  · exact ⟨phase.pending ++ late, by simp [JournalRecord.asEvent?], by rw [List.length_append]; omega⟩
  · exact ⟨late, by simp [pending, VenueEvent.pair, List.filterMap_cons, JournalRecord.asEvent?], by omega⟩

end Oracle

/-- The sequence a recovered underlying continues from. -/
def nextAfter (records : List JournalRecord) : Nat :=
  match (records.map JournalRecord.sequence).max? with
  | none => 0
  | some last => last + 1

theorem lt_nextAfter {records : List JournalRecord} {record : JournalRecord} (member : record ∈ records) :
    record.sequence < nextAfter records := by
  have listed : record.sequence ∈ records.map JournalRecord.sequence := List.mem_map_of_mem member
  unfold nextAfter
  split
  next empty =>
    rw [List.max?_eq_none_iff.1 empty] at listed
    cases listed
  next last found =>
    have low := (List.max?_eq_some_iff.1 found).2 _ listed
    omega

/-- A pair written at the next sequence moves it by one. -/
theorem nextAfter_append_pair {records : List JournalRecord} {event : VenueEvent}
    (next : event.underlyingSequence = nextAfter records) :
    nextAfter (records ++ event.pair) = event.underlyingSequence + 1 := by
  have found : ((records ++ event.pair).map JournalRecord.sequence).max? = some event.underlyingSequence := by
    refine List.max?_eq_some_iff.2 ⟨by simp [VenueEvent.pair, JournalRecord.sequence], ?_⟩
    intro sequence member
    rw [List.map_append] at member
    rcases List.mem_append.1 member with old | new
    · obtain ⟨record, durable, rfl⟩ := List.mem_map.1 old
      have low := lt_nextAfter durable
      omega
    · have same : sequence = event.underlyingSequence := by
        simpa [VenueEvent.pair, JournalRecord.sequence, VenueEvent.envelope] using new
      omega
  simp only [nextAfter, found]

/-- Further submissions, stamped from a sequence on. -/
def stampFrom : Nat → List Submission → List JournalCommand
  | _, [] => []
  | next, input :: rest => ⟨next, input.venueTs, input.command⟩ :: stampFrom (next + 1) rest

/-- A process that boots an underlying on an empty journal, its run under a script of faults, and the
writes in flight that have landed by the time of its crash. -/
structure BootedRun where
  underlying : String
  lineageId : LineageId
  microstructure : Option MicrostructureConfig
  sink : Option (List MarketMakerControlKnobs)
  hashOrder : VisitOrder
  script : List AppendTurn
  fanOut : List (Option FanOutSealed)
  epoch : Nat
  clordidIndex : Option ClOrdIdIndex
  inputs : List Submission
  landed : List Nat

namespace BootedRun
variable (U : Upstream) (run : BootedRun)

def live : MatchingExecutor U := freshExecutor U run.underlying run.microstructure run.sink run.hashOrder

def origin : Origin (MatchingExecutor U) :=
  ⟨run.underlying, run.lineageId, 0, [], run.live U, fun _ member => absurd member List.not_mem_nil⟩

def actor : FaultActor (MatchingExecutor U) :=
  (run.origin U).actor run.script run.fanOut run.epoch run.clordidIndex

/-- The journal the run leaves behind. -/
def records : List JournalRecord :=
  (LateLog.settle JournalRecord.key ((run.actor U).run run.inputs).2.journal.log run.landed).records

def commands : List JournalCommand := commandRecordsInOrder (run.records U)

/-- The live executor once it has executed every journaled command. -/
def executed : MatchingExecutor U := (reexecute run.underlying run.lineageId (run.live U) (run.commands U)).2

/-- Submissions after the recovery. -/
def continuation (further : List Submission) : List JournalCommand := stampFrom (nextAfter (run.records U)) further

/-- Recovery in a process of another hash order rebuilds what a live executor holds after the journaled
commands. -/
structure Recovers (recoveryOrder : VisitOrder) (index : Option ClOrdIdIndex) (further : List Submission)
    (recovered : Recovered U) : Prop where
  /-- The reducer succeeds. -/
  reduced : reduceIntoExecutor (run.records U)
    (freshExecutor U run.underlying run.microstructure none recoveryOrder) run.underlying run.lineageId
    run.microstructure index = .ok recovered
  /-- One event for each journaled command, in order. -/
  answered : recovered.events.map VenueEvent.envelope = run.commands U
  /-- They are the stored events, and at most one for a trailing command without one. -/
  stored : ∃ trailing, recovered.events = eventsFrom (run.records U) 0 ++ trailing ∧ trailing.length ≤ 1
  /-- The book, the registries, the idempotency map and the statuses are those of the live executor. -/
  rebuilt : recovered.executor.state = (run.executed U).state
  /-- Continuing gives the outcomes of the uninterrupted run. -/
  continued : (reexecute run.underlying run.lineageId recovered.executor (run.continuation U further)).1 =
    (reexecute run.underlying run.lineageId (run.executed U) (run.continuation U further)).1

/-- Any run of the actor from an empty journal, under any faults and crashing at any point, is recovered by a
process of any hash order, as long as no ambiguous write-ahead meets a rival and no command that sweeps finds
two resting orders under one venue order id. -/
theorem recovers (recoveryOrder : VisitOrder) (index : Option ClOrdIdIndex) (further : List Submission)
    (rivalFree : RivalFreeRun (run.actor U) run.inputs)
    (admitted : ∀ command ∈ run.commands U, admitRecorded U run.microstructure command.command = .ok ())
    (apart : ApartRun run.underlying run.lineageId (run.live U) (run.commands U ++ run.continuation U further)) :
    ∃ recovered, run.Recovers U recoveryOrder index further recovered := by
  have initial : Ledger (run.origin U) [] .running (run.actor U) := Origin.ledger _ _ _ _ _
  obtain ⟨events, phase, ledger, -⟩ := initial.run run.inputs rivalFree
  rw [List.nil_append] at ledger
  obtain ⟨before, after⟩ := apart.split
  have booted : (run.live U).state =
      (freshExecutor U run.underlying run.microstructure none recoveryOrder).state := rfl
  obtain ⟨derived, state⟩ := reexecute_hash run.underlying run.lineageId booted _ before
  -- the oracle and the stored events, as the recovering process re-derives them
  have oracle := ledger.oracle rfl rfl run.landed
  have heads := ledger.eventsFrom_prefix rfl rfl run.landed
  change ∀ event ∈ (reexecute run.underlying run.lineageId (run.live U) (run.commands U)).1, ∀ other,
    storedEventAt (run.records U) event.underlyingSequence = some other → other = event at oracle
  change ∃ trailing, (reexecute run.underlying run.lineageId (run.live U) (run.commands U)).1 =
    eventsFrom (run.records U) 0 ++ trailing ∧ trailing.length ≤ 1 at heads
  rw [derived] at oracle heads
  obtain ⟨last, reduced⟩ := reduceCommands_ok run.underlying run.lineageId (run.records U) run.microstructure
    (freshExecutor U run.underlying run.microstructure none recoveryOrder) index (run.commands U) admitted oracle
  refine ⟨_, reduceIntoExecutor_of_commands run.underlying run.lineageId reduced, ?_, heads, state.symm, ?_⟩
  · exact reexecute_envelopes run.underlying run.lineageId _ (run.commands U)
  · exact (reexecute_hash run.underlying run.lineageId state _ after).1.symm

end BootedRun

/-- A one-contract limit order of the test contract. -/
def testOrder (orderId : VenueOrderId) (side : Side) (price : Nat) : VenueCommand :=
  .addOrder ⟨"BTC-20351231-50000-C", orderId, "acct-1", 7, none, side, .limit, some price, 1, .gtc, .none⟩

/-- A bid and an offer rest, then everything is cancelled. -/
def sweptRun (bid offer : VenueOrderId) : BootedRun where
  underlying := "BTC"
  lineageId := "run-1"
  microstructure := none
  sink := none
  hashOrder := fun _ _ => Equiv.refl _
  script := []
  fanOut := []
  epoch := 0
  clordidIndex := none
  inputs := [⟨1, testOrder bid .buy 100⟩, ⟨2, testOrder offer .sell 200⟩, ⟨3, .massCancel .underlying .all "acct-1"⟩]
  landed := []

/-- The two orders share their venue order id, and the recovering process meets them in the other order. -/
theorem shared_id_not_recovered :
    ¬ ∃ recovered, (sweptRun "v" "v").Recovers referenceUpstream (fun _ _ => Fin.revPerm) none [] recovered := by
  rintro ⟨recovered, faithful⟩
  have failed : (reduceIntoExecutor ((sweptRun "v" "v").records referenceUpstream)
      (freshExecutor referenceUpstream (sweptRun "v" "v").underlying (sweptRun "v" "v").microstructure none
        fun _ _ => Fin.revPerm)
      (sweptRun "v" "v").underlying (sweptRun "v" "v").lineageId (sweptRun "v" "v").microstructure none).isOk =
        false := by
    decide
  rw [faithful.reduced] at failed
  cases failed

theorem distinct_ids_recovered :
    ∃ recovered, (sweptRun "a" "b").Recovers referenceUpstream (fun _ _ => Fin.revPerm) none
      [⟨4, testOrder "c" .buy 100⟩] recovered :=
  (sweptRun "a" "b").recovers referenceUpstream (fun _ _ => Fin.revPerm) none [⟨4, testOrder "c" .buy 100⟩]
    (by decide) (fun _ _ => rfl)
    ⟨fun _ => .of_nodup (by decide), fun _ => .of_nodup (by decide), fun _ => .of_nodup (by decide),
      fun _ => .of_nodup (by decide), trivial⟩

end Fauxchange.Exchange
