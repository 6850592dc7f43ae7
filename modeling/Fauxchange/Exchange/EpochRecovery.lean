import Fauxchange.Exchange.RestoreAtomic
import Fauxchange.Exchange.RoundTrip

/-! Recovery of a journal with epochs. The reducer skips the markers, so it rebuilds what the commands alone come
to: the live state, as long as every restore swapped in what it found. -/

namespace Fauxchange.Exchange
open Lib Microstructure

/-- The journaled commands, in append order. -/
def journaledCommands (records : List JournalRecord) : List JournalCommand :=
  records.filterMap JournalRecord.asCommand?

namespace FaultJournal
variable {journal : FaultJournal} {record : JournalRecord}

/-- A committed write-ahead at a free key has made its own command durable. -/
theorem Quiet.committed (quiet : journal.Quiet) {command : JournalCommand}
    (free : (JournalRecord.command command).key ∉ journal.records.map JournalRecord.key)
    (committed : (writeAheadCommand journal command.sequence (.command command)).1 = .committed) :
    (writeAheadCommand journal command.sequence (.command command)).2.records = journal.records ++ [.command command] := by
  have written := appendContract_of_free free
  rw [writeAheadCommand_journal]
  change (journal.append (.command command)).2.records = _
  rcases quiet.append_cases (.command command) with ⟨-, answer⟩ | ⟨-, -, records⟩ | ⟨-, -, ⟨error, refused⟩, records⟩
  · rw [written] at answer
    exact congrArg Prod.snd answer
  · rw [records, written]
  · rcases writeAheadCommand_committed committed with accepted | ⟨-, found⟩
    · have answer : (journal.append (.command command)).1 = .ok () := accepted
      rw [refused] at answer
      cases answer
    · obtain ⟨other, durable, key⟩ := exists_of_contains found
      have old : other ∈ journal.records := records ▸ durable
      exact absurd (List.mem_map.2 ⟨other, old, key⟩) free

/-- The append of an event or a marker adds no command. -/
theorem Quiet.commands_append (quiet : journal.Quiet) (other : record.asCommand? = none) :
    journaledCommands (journal.append record).2.records = journaledCommands journal.records := by
  have written : journaledCommands (appendContract journal.records record).2 = journaledCommands journal.records := by
    rw [appendContract_records]
    unfold LateLog.write journaledCommands
    split
    · rfl
    · simp [List.filterMap_append, other]
  rcases quiet.append_cases record with ⟨-, answer⟩ | ⟨-, -, records⟩ | ⟨-, -, -, records⟩
  · rw [← written, ← answer]
  · rw [records, written]
  · rw [records]

end FaultJournal

namespace UnderlyingActor
variable {U : Upstream} {laws : BookLaws U} {actor : VenueActor U} {microstructure : Option MicrostructureConfig}
  {recoveryOrder : VisitOrder}

/-- The venue order ids that the journaled commands have placed. -/
def placed (actor : VenueActor U) : List VenueOrderId := placedIds (journaledCommands actor.journal.records)

/-- What the journaled commands alone come to, in a recovering process. -/
def replayed (actor : VenueActor U) (microstructure : Option MicrostructureConfig) (recoveryOrder : VisitOrder) :
    MatchingExecutor U :=
  (reexecute actor.underlying actor.lineageId
    (freshExecutor U actor.underlying microstructure none recoveryOrder) (journaledCommands actor.journal.records)).2

/-- A submission with a fresh venue order id and 64-bit values within the specs, on an executor with room. -/
structure Regular (actor : VenueActor U) (microstructure : Option MicrostructureConfig) (input : Submission) :
    Prop where
  unplaced : ∀ orderId, input.command.placedId = some orderId → orderId ∉ actor.placed
  ranged : input.command.Ranged
  roomy : Roomy actor.executor.state
  within : input.command.WithinSpecs (bookSettings actor.underlying microstructure).specs

/-- A snapshot of what the executor shows now, with every instrument active and no order expired. -/
structure Current (laws : BookLaws U) (actor : VenueActor U) (snapshot : VenueSnapshot) : Prop where
  cut : snapshot.executor = actor.executor.captureState
  unexpired : Unexpired laws actor.executor
  active : AllActive actor.executor

/-- The runs of an actor from boot, through regular submissions and restores of current snapshots, under whatever
the journal answers. -/
inductive CurrentRun (laws : BookLaws U) (microstructure : Option MicrostructureConfig) : VenueActor U → Prop where
  | booted {actor : VenueActor U} (running : actor.sealed = none) (quiet : actor.journal.Quiet)
      (empty : actor.journal.records = []) (neutral : Neutral (bookSettings actor.underlying microstructure))
      (fresh : actor.executor.state = .fromBook ⟨actor.underlying, bookSettings actor.underlying microstructure, ∅⟩) :
      CurrentRun laws microstructure actor
  | handled {actor : VenueActor U} (run : CurrentRun laws microstructure actor) {input : Submission}
      (regular : Regular actor microstructure input) : CurrentRun laws microstructure (actor.handle input).2
  | restored {actor : VenueActor U} (run : CurrentRun laws microstructure actor) (hashOrder : VisitOrder)
      (venueTs : Nat) {snapshot : VenueSnapshot} (fingerprint : String) (current : Current laws actor snapshot) :
      CurrentRun laws microstructure (actor.restore hashOrder venueTs snapshot fingerprint).2

/-- The live executor and the replayed one, side by side. -/
structure Followed (laws : BookLaws U) (microstructure : Option MicrostructureConfig) (recoveryOrder : VisitOrder)
    (actor : VenueActor U) : Prop where
  fronted : Fronted actor
  sorted : (journaledCommands actor.journal.records).Pairwise fun left right => left.sequence < right.sequence
  alike : Alike laws (actor.replayed microstructure recoveryOrder).state actor.executor.state
  settings : (actor.replayed microstructure recoveryOrder).state.underlyingBook.config =
    bookSettings actor.underlying microstructure
  specs : actor.executor.state.underlyingBook.config.specs = (bookSettings actor.underlying microstructure).specs ∨
    actor.executor.state.underlyingBook.config.specs = none
  running : actor.sealed = none →
    Kept laws actor.placed actor.nextSequence (actor.replayed microstructure recoveryOrder).state ∧
      Coherent laws actor.executor.state actor.nextSequence ∧
      ∀ command ∈ journaledCommands actor.journal.records, command.sequence < actor.nextSequence

theorem advance_frame {J E F : Type} (actor : UnderlyingActor J E F) :
    actor.advance.underlying = actor.underlying ∧ actor.advance.lineageId = actor.lineageId ∧
      actor.advance.journal = actor.journal ∧
      (actor.advance.sealed = none → actor.advance.nextSequence = actor.nextSequence + 1) := by
  unfold advance
  split
  next next advanced => exact ⟨rfl, rfl, rfl, fun _ => (checkedNext_eq_some.1 advanced).2⟩
  next => exact ⟨rfl, rfl, rfl, fun opened => by cases opened⟩

theorem Regular.admits (followed : Followed laws microstructure recoveryOrder actor) (input : Submission)
    (regular : Regular actor microstructure input) :
    Admits actor.placed actor.nextSequence (actor.replayed microstructure recoveryOrder).state (actor.envelope input) where
  fresh := Nat.le_refl _
  unplaced := regular.unplaced
  ranged := regular.ranged
  roomy := by
    unfold Roomy
    rw [followed.alike.registry]
    exact regular.roomy

/-- A turn that has made its command durable and executed it takes the replay one command further. -/
theorem Followed.executed (followed : Followed laws microstructure recoveryOrder actor) (opened : actor.sealed = none)
    {input : Submission} (regular : Regular actor microstructure input) {after : VenueActor U}
    (underlying : after.underlying = actor.underlying) (lineage : after.lineageId = actor.lineageId)
    (commands : journaledCommands after.journal.records =
      journaledCommands actor.journal.records ++ [actor.envelope input])
    (executor : after.executor = (actor.derived input).2) (fronted : Fronted after)
    (next : after.sealed = none → after.nextSequence = actor.nextSequence + 1) :
    Followed laws microstructure recoveryOrder after := by
  obtain ⟨kept, coherent, below⟩ := followed.running opened
  have admits := regular.admits followed
  have replayed : after.replayed microstructure recoveryOrder = (deriveEvent actor.underlying actor.lineageId
      (actor.replayed microstructure recoveryOrder) (actor.envelope input)).2 := by
    unfold UnderlyingActor.replayed
    rw [underlying, lineage, commands, reexecute_append]
    rfl
  have within : (actor.envelope input).command.WithinSpecs
      (actor.replayed microstructure recoveryOrder).state.underlyingBook.config.specs := by
    rw [followed.settings]
    exact regular.within
  have within' : (actor.envelope input).command.WithinSpecs actor.executor.state.underlyingBook.config.specs := by
    rcases followed.specs with same | none
    · rw [same]
      exact regular.within
    · rw [none]
      exact VenueCommand.withinSpecs_none _
  obtain ⟨-, alike⟩ := @Alike.derive U laws actor.underlying actor.lineageId _ _ _ _ _ followed.alike kept coherent
    admits within within'
  have settings := congrArg Prod.snd (@deriveEvent_identity U actor.underlying actor.lineageId
    (actor.replayed microstructure recoveryOrder) (actor.envelope input))
  have settings' := congrArg Prod.snd (@deriveEvent_identity U actor.underlying actor.lineageId actor.executor
    (actor.envelope input))
  simp only [SequencedState.identity] at settings settings'
  have grown : actor.placed ++ (actor.envelope input).command.placedId.toList = after.placed := by
    unfold placed
    rw [commands, placedIds_append, placedIds_cons]
    simp [placedIds]
  constructor
  · exact fronted
  · rw [commands, List.pairwise_append]
    refine ⟨followed.sorted, List.pairwise_singleton _ _, fun early member late last => ?_⟩
    rw [List.mem_singleton.1 last]
    exact below early member
  · rw [replayed, executor]
    exact alike
  · rw [replayed, underlying, settings]
    exact followed.settings
  · rw [executor, underlying]
    have config : (actor.derived input).2.state.underlyingBook.config = actor.executor.state.underlyingBook.config :=
      settings'
    rw [config]
    exact followed.specs
  · intro running
    rw [next running, replayed, ← grown, executor, commands]
    refine ⟨kept.derive admits, ?_, fun command member => ?_⟩
    · exact coherent.execute actor.executor.hashOrder (Nat.le_refl _) regular.roomy regular.ranged
    · rcases List.mem_append.1 member with early | last
      · exact Nat.lt_succ_of_lt (below command early)
      · rw [List.mem_singleton.1 last]
        exact Nat.lt_succ_self _

/-- A turn that leaves the commands and the executor alone. -/
theorem Followed.of_eq (followed : Followed laws microstructure recoveryOrder actor) {after : VenueActor U}
    (underlying : after.underlying = actor.underlying) (lineage : after.lineageId = actor.lineageId)
    (commands : journaledCommands after.journal.records = journaledCommands actor.journal.records)
    (executor : after.executor = actor.executor) (fronted : Fronted after) (sealed : after.sealed = actor.sealed)
    (next : after.nextSequence = actor.nextSequence) : Followed laws microstructure recoveryOrder after := by
  have replayed : after.replayed microstructure recoveryOrder = actor.replayed microstructure recoveryOrder := by
    unfold UnderlyingActor.replayed
    rw [underlying, lineage, commands]
  have placed : after.placed = actor.placed := by
    unfold UnderlyingActor.placed
    rw [commands]
  constructor
  · exact fronted
  · rw [commands]
    exact followed.sorted
  · rw [replayed, executor]
    exact followed.alike
  · rw [replayed, underlying]
    exact followed.settings
  · rw [executor, underlying]
    exact followed.specs
  · rw [sealed, next, placed, replayed, executor, commands]
    exact followed.running

theorem Followed.free (followed : Followed laws microstructure recoveryOrder actor) (opened : actor.sealed = none)
    (input : Submission) :
    (JournalRecord.command (actor.envelope input)).key ∉ actor.journal.records.map JournalRecord.key := by
  intro taken
  obtain ⟨record, durable, same⟩ := List.mem_map.1 taken
  rcases followed.fronted.behind opened record durable with early | here
  · have place : record.sequence = actor.nextSequence := congrArg Prod.fst same
    omega
  · rw [here] at same
    cases same

/-- The commands behind a committed write-ahead and whatever became of its event. -/
theorem Followed.commands (followed : Followed laws microstructure recoveryOrder actor) (opened : actor.sealed = none)
    {input : Submission} {journal last : FaultJournal} (ahead : actor.ahead input = (.committed, journal))
    {result : Except JournalError Unit}
    (stored : VenueJournal.append journal (.event (actor.derived input).1) = (result, last)) :
    journaledCommands last.records = journaledCommands actor.journal.records ++ [actor.envelope input] := by
  have quiet : journal.Quiet := ahead_journal ahead ▸ followed.fronted.quiet.append rfl
  have appended : (journal.append (.event (actor.derived input).1)).2 = last := congrArg Prod.snd stored
  have committed : (actor.ahead input).1 = .committed := congrArg Prod.fst ahead
  have durable : (actor.ahead input).2.records = actor.journal.records ++ [.command (actor.envelope input)] :=
    followed.fronted.quiet.committed (followed.free opened input) committed
  rw [ahead] at durable
  rw [← appended, quiet.commands_append rfl, show journal.records = _ from durable]
  simp [journaledCommands, List.filterMap_append, JournalRecord.asCommand?]

theorem Followed.handle (followed : Followed laws microstructure recoveryOrder actor) {input : Submission}
    (regular : Regular actor microstructure input) :
    Followed laws microstructure recoveryOrder (actor.handle input).2 := by
  have fronted := followed.fronted.handle input
  generalize result : actor.handle input = reply at fronted ⊢
  have turn := actor.handle_turn input
  rw [result] at turn
  obtain ⟨reply, last⟩ := reply
  cases turn with
  | refused reason closed => exact followed
  | reused journal opened ahead =>
    have reuse : (actor.ahead input).1 = .reuse := congrArg Prod.fst ahead
    have kept : (actor.ahead input).2.records = actor.journal.records :=
      followed.fronted.quiet.reuse (followed.free opened input) reuse
    rw [ahead] at kept
    exact followed.of_eq rfl rfl (congrArg journaledCommands kept) rfl fronted rfl rfl
  | eventLost journal last error opened ahead lost =>
    exact followed.executed opened regular rfl rfl (followed.commands opened ahead lost) rfl fronted
      fun running => by cases running
  | projectionFailed journal last error fanOut opened ahead stored failed =>
    exact followed.executed opened regular rfl rfl (followed.commands opened ahead stored) rfl fronted
      fun running => by cases running
  | committed journal last fanOut opened ahead stored emitted =>
    obtain ⟨underlying, lineage, journal', next⟩ := advance_frame
      { ({ actor with journal := last, executor := (actor.derived input).2 }.publish
          (actor.derived input).1) with fanOut := fanOut }
    have commands := congrArg (fun journal => journaledCommands (FaultJournal.records journal)) journal'
    exact followed.executed opened regular underlying lineage
      (commands.trans (followed.commands opened ahead stored)) (advance_executor _) fronted next

/-- A turn that leaves the commands alone and swaps in an executor that shows the same. -/
theorem Followed.swapped (followed : Followed laws microstructure recoveryOrder actor) (opened : actor.sealed = none)
    {after : VenueActor U} (underlying : after.underlying = actor.underlying)
    (lineage : after.lineageId = actor.lineageId)
    (commands : journaledCommands after.journal.records = journaledCommands actor.journal.records)
    (alike : Alike laws actor.executor.state after.executor.state)
    (coherent : Coherent laws after.executor.state actor.nextSequence)
    (bare : after.executor.state.underlyingBook.config = .bare) (fronted : Fronted after)
    (next : after.nextSequence = actor.nextSequence + 1) : Followed laws microstructure recoveryOrder after := by
  obtain ⟨kept, -, below⟩ := followed.running opened
  have replayed : after.replayed microstructure recoveryOrder = actor.replayed microstructure recoveryOrder := by
    unfold UnderlyingActor.replayed
    rw [underlying, lineage, commands]
  have placed : after.placed = actor.placed := by
    unfold UnderlyingActor.placed
    rw [commands]
  constructor
  · exact fronted
  · rw [commands]
    exact followed.sorted
  · rw [replayed]
    exact followed.alike.trans alike
  · rw [replayed, underlying]
    exact followed.settings
  · rw [bare]
    exact Or.inr rfl
  · intro _
    rw [next, placed, replayed, commands]
    exact ⟨⟨kept.coherent.mono (Nat.le_succ _), kept.tracked.mono (Nat.le_succ _)⟩, coherent.mono (Nat.le_succ _),
      fun command member => Nat.lt_succ_of_lt (below command member)⟩

/-- A restore of the current snapshot swaps in what it found. -/
theorem Followed.restore (followed : Followed laws microstructure recoveryOrder actor) (hashOrder : VisitOrder)
    (venueTs : Nat) {snapshot : VenueSnapshot} (fingerprint : String) (current : Current laws actor snapshot) :
    Followed laws microstructure recoveryOrder (actor.restore hashOrder venueTs snapshot fingerprint).2 := by
  have fronted : Fronted (actor.restore hashOrder venueTs snapshot fingerprint).2 := followed.fronted.restore
  cases done : actor.prepareRestore hashOrder snapshot fingerprint with
  | error error =>
    rw [restore_of_unprepared done]
    exact followed
  | ok prepared =>
    have ready := prepareRestore_prepared done
    obtain ⟨kept, coherent, below⟩ := followed.running ready.opened
    have commands := followed.fronted.quiet.commands_append
      (show (actor.marker venueTs snapshot prepared.2.1).asCommand? = none from rfl)
    cases answer : (actor.journal.append (actor.marker venueTs snapshot prepared.2.1)).1 with
    | error error =>
      rw [restore_of_refused done answer] at fronted ⊢
      exact followed.of_eq rfl rfl commands rfl fronted rfl rfl
    | ok =>
      rw [restore_of_accepted done answer] at fronted ⊢
      have live : Kept laws actor.placed actor.nextSequence actor.executor.state :=
        ⟨coherent, followed.alike.registry ▸ kept.tracked⟩
      obtain ⟨restored, swapped, kept', alike⟩ := live.alike_restored current.unexpired current.active hashOrder
        (show actor.executor.state.underlyingBook.underlying = _ from rfl)
      have executor := ready.executor
      rw [current.cut, show actor.executor.prepareRestore hashOrder actor.executor.captureState = _ from swapped]
        at executor
      obtain rfl := Except.ok.inj executor
      have bare := (MatchingExecutor.prepareRestore_bare swapped).2.1
      exact followed.swapped ready.opened rfl rfl commands alike kept'.coherent bare fronted ready.next

theorem CurrentRun.followed (run : CurrentRun laws microstructure actor) (recoveryOrder : VisitOrder) :
    Followed laws microstructure recoveryOrder actor := by
  induction run with
  | @booted actor running quiet empty neutral fresh =>
    have replayed : actor.replayed microstructure recoveryOrder =
        freshExecutor U actor.underlying microstructure none recoveryOrder := by
      unfold UnderlyingActor.replayed
      rw [empty]
      rfl
    have coherent := @coherent_fromBook U laws actor.underlying _ neutral actor.nextSequence
    refine ⟨⟨quiet, fun _ record durable => ?_⟩, ?_, ?_, ?_, Or.inl ?_, fun _ => ⟨⟨?_, ?_⟩, ?_, ?_⟩⟩
    · rw [empty] at durable
      cases durable
    · rw [empty]
      exact List.Pairwise.nil
    · rw [replayed, fresh]
      exact Alike.refl _
    · rw [replayed]
      rfl
    · rw [fresh]
      rfl
    · rw [replayed]
      exact coherent
    · rw [replayed, placed, empty]
      exact OrderRegistry.tracked_new _
    · rw [fresh]
      exact coherent
    · rw [empty]
      intro command member
      cases member
  | handled run regular ih => exact ih.handle regular
  | restored run hashOrder venueTs fingerprint current ih => exact ih.restore hashOrder venueTs fingerprint current

/-- Recovery of the journal of any such run stops, or it returns an executor with the registries, the statuses and
the orders of the live one. -/
theorem recovered_alike_live (run : CurrentRun laws microstructure actor) (recoveryOrder : VisitOrder) (index : Option ClOrdIdIndex) :
    (∃ error, reduceIntoExecutor actor.journal.records
        (freshExecutor U actor.underlying microstructure none recoveryOrder) actor.underlying actor.lineageId
        microstructure index = .error error) ∨
      ∃ recovered, reduceIntoExecutor actor.journal.records
          (freshExecutor U actor.underlying microstructure none recoveryOrder) actor.underlying actor.lineageId
          microstructure index = .ok recovered ∧ Alike laws recovered.executor.state actor.executor.state := by
  have followed := run.followed recoveryOrder
  cases reduced : reduceIntoExecutor actor.journal.records
      (freshExecutor U actor.underlying microstructure none recoveryOrder) actor.underlying actor.lineageId
      microstructure index with
  | error error => exact Or.inl ⟨error, rfl⟩
  | ok recovered =>
    refine Or.inr ⟨recovered, rfl, ?_⟩
    have rebuilt := congrArg Prod.snd (reduceIntoExecutor_executor actor.underlying actor.lineageId reduced)
    rw [commandRecordsInOrder_of_sorted (followed.sorted.imp Nat.le_of_lt)] at rebuilt
    have alike := followed.alike
    unfold UnderlyingActor.replayed journaledCommands at alike
    rw [rebuilt] at alike
    exact alike

end UnderlyingActor

section Runs

/-- A bid of BTC rests. -/
def bidActor : VenueActor referenceUpstream := ((freshActor []).handle ⟨1, testOrder "a" .buy 100⟩).2

/-- A second bid rests on top of it. -/
def twoBids (actor : VenueActor referenceUpstream) : VenueActor referenceUpstream :=
  (actor.handle ⟨2, testOrder "b" .buy 90⟩).2

def bidSnapshot : VenueSnapshot := bidActor.capture 1 "snap-1" "fp"

def restoreBid (actor : VenueActor referenceUpstream) : VenueActor referenceUpstream :=
  (actor.restore (fun _ _ => Equiv.refl _) 3 bidSnapshot "fp").2

/-- The recovery of its journal in another process. -/
def recoverBids (actor : VenueActor referenceUpstream) : Except JournalError (Recovered referenceUpstream) :=
  reduceIntoExecutor actor.journal.records (freshExecutor referenceUpstream actor.underlying none none
    fun _ _ => Fin.revPerm) actor.underlying actor.lineageId none none

/-- The snapshot is restored before the second bid. -/
theorem current_restore_recovered :
    (∃ error, recoverBids (twoBids (restoreBid bidActor)) = .error error) ∨
      ∃ recovered, recoverBids (twoBids (restoreBid bidActor)) = .ok recovered ∧
        Alike referenceLaws recovered.executor.state (twoBids (restoreBid bidActor)).executor.state := by
  have booted : UnderlyingActor.CurrentRun referenceLaws none (freshActor []) :=
    .booted rfl (by simp [freshActor, FaultJournal.Quiet]) rfl neutral_bare rfl
  have first : UnderlyingActor.CurrentRun referenceLaws none bidActor :=
    booted.handled ⟨by decide, ⟨by decide, by simp [u64Max]⟩, by decide, VenueCommand.withinSpecs_none _⟩
  have restored : UnderlyingActor.CurrentRun referenceLaws none (restoreBid bidActor) :=
    first.restored _ 3 "fp" ⟨rfl, fun _ _ => trivial, fun _ => rfl⟩
  have second : UnderlyingActor.CurrentRun referenceLaws none (twoBids (restoreBid bidActor)) :=
    restored.handled ⟨by decide, ⟨by decide, by simp [u64Max]⟩, by decide, VenueCommand.withinSpecs_none _⟩
  exact UnderlyingActor.recovered_alike_live second (fun _ _ => Fin.revPerm) none

/-- The snapshot is restored after the second bid, and recovery brings the bid back. -/
theorem rolled_back_bid_recovered :
    ∃ recovered, recoverBids (restoreBid (twoBids bidActor)) = .ok recovered ∧
      ¬ Alike referenceLaws recovered.executor.state (restoreBid (twoBids bidActor)).executor.state := by
  have counted : (recoverBids (restoreBid (twoBids bidActor))).toOption.map (fun recovered =>
      recovered.executor.state.registry.resting.size) = some 2 := by
    decide
  cases done : recoverBids (restoreBid (twoBids bidActor)) with
  | error error =>
    rw [done] at counted
    cases counted
  | ok recovered =>
    rw [done] at counted
    refine ⟨recovered, rfl, fun alike => ?_⟩
    have size : recovered.executor.state.registry.resting.size = 2 := Option.some.inj counted
    rw [alike.registry] at size
    revert size
    decide

end Runs

end Fauxchange.Exchange
