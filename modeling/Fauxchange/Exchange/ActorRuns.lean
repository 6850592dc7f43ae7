import Fauxchange.Exchange.ActorLedger
import Fauxchange.Lib.KeyedEntries

/-! Whole runs of the actor under every script of faults: the write-ahead contract when in-flight writes
never land late, and the fidelity of executions when they may. -/

namespace Fauxchange.Exchange
open Lib

section Quiet
variable {E : Type}

/-- An actor whose journal never lands a write late and holds nothing past its ledger while open. -/
structure Hushed (origin : Origin E) (actor : FaultActor E) : Prop where
  quiet : actor.journal.Quiet
  bare : actor.sealed = none → actor.journal.records = origin.base actor.fanOut.handed

theorem Hushed.advance {origin : Origin E} (actor : FaultActor E) (hushed : Hushed origin actor) :
    Hushed origin actor.advance := by
  unfold UnderlyingActor.advance
  split
  · exact ⟨hushed.quiet, hushed.bare⟩
  · exact ⟨hushed.quiet, by simp⟩

theorem Origin.hushed (origin : Origin E) (faults : List AppendFault) (fanOut : List (Option FanOutSealed))
    (epoch : Nat) (index : Option ClOrdIdIndex) :
    Hushed origin (origin.actor (faults.map AppendTurn.quiet) fanOut epoch index) where
  quiet := by
    intro turn member
    obtain ⟨fault, -, rfl⟩ := List.mem_map.1 member
    exact ⟨rfl, rfl⟩
  bare := fun _ => by simp [base, actor, FaultJournal.records]

end Quiet

section Runs
variable {E : Type} [CommandExecutor E]

/-- Along a run, no ambiguous write-ahead meets a rival command of its sequence. -/
def RivalFreeRun (actor : FaultActor E) : List Submission → Prop
  | [] => True
  | input :: rest =>
    (actor.sealed = none → actor.journal.RivalFree (actor.envelope input)) ∧
      RivalFreeRun (actor.handle input).2 rest

instance decidableRivalFreeRun : (actor : FaultActor E) → (inputs : List Submission) →
    Decidable (RivalFreeRun actor inputs)
  | _, [] => .isTrue trivial
  | actor, input :: rest =>
    have := decidableRivalFreeRun (actor.handle input).2 rest
    inferInstanceAs (Decidable ((actor.sealed = none → actor.journal.RivalFree (actor.envelope input)) ∧
      RivalFreeRun (actor.handle input).2 rest))

theorem RivalFreeRun.split {actor : FaultActor E} {early late : List Submission}
    (rivalFree : RivalFreeRun actor (early ++ late)) :
    RivalFreeRun actor early ∧ RivalFreeRun (actor.run early).2 late := by
  induction early generalizing actor with
  | nil => exact ⟨trivial, rivalFree⟩
  | cons input rest ih =>
    obtain ⟨first, later⟩ := ih rivalFree.2
    exact ⟨⟨rivalFree.1, first⟩, later⟩

variable {origin : Origin E} {events : List VenueEvent} {phase : Phase} {actor : FaultActor E}

/-- The ledger of a whole run, and the receipts it acknowledged. -/
theorem Ledger.run (ledger : Ledger origin events phase actor) (inputs : List Submission)
    (rivalFree : RivalFreeRun actor inputs) :
    ∃ grown phase', Ledger origin (events ++ grown) phase' (actor.run inputs).2 ∧
      ∀ receipt, .ok receipt ∈ (actor.run inputs).1 → ∃ event ∈ grown,
        receipt = Receipt.committed event.underlyingSequence event.venueTs event.outcome := by
  induction inputs generalizing events phase actor with
  | nil => exact ⟨[], phase, by rw [List.append_nil]; exact ledger, by simp [UnderlyingActor.run]⟩
  | cons input rest ih =>
    obtain ⟨first, middle, step, reply⟩ := ledger.handle input rivalFree.1
    obtain ⟨later, last, tail, replies⟩ := ih step rivalFree.2
    refine ⟨first ++ later, last, by simpa [UnderlyingActor.run_cons] using tail, ?_⟩
    intro receipt acknowledged
    rw [UnderlyingActor.run_cons] at acknowledged
    rcases List.mem_cons.1 acknowledged with now | after
    · obtain ⟨event, rfl, same⟩ := reply receipt now.symm
      exact ⟨event, by simp, same⟩
    · obtain ⟨event, member, same⟩ := replies receipt after
      exact ⟨event, List.mem_append_right _ member, same⟩

/-- Whatever lands later, the durable records are the base and a short tail. -/
theorem Ledger.tail (ledger : Ledger origin events phase actor) (positions : List Nat) :
    ∃ tail, (LateLog.settle JournalRecord.key actor.journal.log positions).records = origin.base events ++ tail ∧
      (tail = [] ∧ phase.pending = [] ∨
        (∃ stray : JournalCommand, stray.sequence = origin.start + events.length ∧ tail = [.command stray] ∧
          phase.pending = []) ∨
        ∃ event, phase.pending = [event] ∧ (tail = [.command event.envelope] ∨ tail = event.pair)) := by
  cases phase with
  | running =>
    obtain ⟨-, next, front⟩ := ledger.position
    have settled := front.settle ledger.grounded positions
    rcases settled.tail with bare | ⟨stray, here, grown⟩
    · exact ⟨[], by simpa using bare, Or.inl ⟨rfl, rfl⟩⟩
    · exact ⟨[.command stray], grown, Or.inr (Or.inl ⟨stray, here.trans next, rfl, rfl⟩)⟩
  | unpaired event =>
    have gapless : origin.Gapless (events ++ [event]) := ledger.gapless
    have grounded : FaultJournal.Base (origin.base events) origin.start event.underlyingSequence :=
      gapless.last ▸ gapless.init.grounded
    have settled := ledger.position.2.settle grounded positions
    rcases settled.tail with half | full
    · exact ⟨_, half, Or.inr (Or.inr ⟨event, rfl, Or.inl rfl⟩)⟩
    · exact ⟨_, full, Or.inr (Or.inr ⟨event, rfl, Or.inr rfl⟩)⟩
  | closed =>
    obtain ⟨-, records, taken⟩ := ledger.position
    refine ⟨[], ?_, Or.inl ⟨rfl, rfl⟩⟩
    rw [List.append_nil, ← records]
    exact LateLog.settle_records_of_taken _ _ positions fun record flies => by
      change record.key ∈ actor.journal.records.map _
      rw [records]
      exact taken record flies

theorem Ledger.gapless_events (ledger : Ledger origin events phase actor) : origin.Gapless events := by
  have whole := ledger.gapless
  cases phase with
  | running => simpa [Phase.pending] using whole
  | unpaired event => exact Origin.Gapless.init whole
  | closed => simpa [Phase.pending] using whole

/-- The stream from the start on: the pairs of the ledger and a short tail. -/
theorem Ledger.stream (ledger : Ledger origin events phase actor) (positions : List Nat) :
    ∃ tail, readFrom (LateLog.settle JournalRecord.key actor.journal.log positions).records origin.start =
        events.flatMap VenueEvent.pair ++ tail ∧
      (tail = [] ∧ phase.pending = [] ∨
        (∃ stray : JournalCommand, stray.sequence = origin.start + events.length ∧ tail = [.command stray] ∧
          phase.pending = []) ∨
        ∃ event, phase.pending = [event] ∧ (tail = [.command event.envelope] ∨ tail = event.pair)) := by
  obtain ⟨tail, records, shape⟩ := ledger.tail positions
  refine ⟨tail, ?_, shape⟩
  rw [records]
  refine ledger.gapless_events.readFrom tail ?_
  intro record member
  rcases shape with ⟨rfl, -⟩ | ⟨stray, here, rfl, -⟩ | ⟨event, pending, half⟩
  · cases member
  · obtain rfl := List.mem_singleton.1 member
    change origin.start ≤ stray.sequence
    omega
  · have whole : origin.Gapless (events ++ [event]) := pending ▸ ledger.gapless
    have here := whole.last
    have bound : origin.start ≤ event.underlyingSequence := by omega
    rcases half with rfl | rfl
    · obtain rfl := List.mem_singleton.1 member
      exact bound
    · simp only [VenueEvent.pair, List.mem_cons, List.not_mem_nil, or_false] at member
      rcases member with rfl | rfl <;> exact bound

/-- The durable commands are those the executor has run, in order, and at most one more. -/
theorem Ledger.durable_commands (ledger : Ledger origin events phase actor) (positions : List Nat) :
    ∃ stray : List JournalCommand,
      commandsFrom (LateLog.settle JournalRecord.key actor.journal.log positions).records origin.start =
          (events ++ phase.pending).map VenueEvent.envelope ++ stray ∧
        stray.map JournalCommand.sequence =
          List.range' (origin.start + (events ++ phase.pending).length) stray.length ∧
        (events ++ phase.pending).length + stray.length ≤ events.length + 1 := by
  obtain ⟨tail, stream, shape⟩ := ledger.stream positions
  rw [commandsFrom, stream, List.filterMap_append, filterMap_asCommand?_pairs]
  rcases shape with ⟨rfl, pending⟩ | ⟨stray, here, rfl, pending⟩ | ⟨event, pending, half⟩
  · exact ⟨[], by simp [pending], rfl, by simp [pending]⟩
  · exact ⟨[stray], by simp [pending, JournalRecord.asCommand?], by simp [pending, here], by simp [pending]⟩
  · refine ⟨[], ?_, rfl, by simp [pending]⟩
    rcases half with rfl | rfl <;> simp [pending, VenueEvent.pair, JournalRecord.asCommand?]

/-- The durable events are those handed to the fan-out, and at most the pending one. -/
theorem Ledger.durable_events (ledger : Ledger origin events phase actor) (positions : List Nat) :
    events <+: eventsFrom (LateLog.settle JournalRecord.key actor.journal.log positions).records origin.start := by
  obtain ⟨tail, stream, -⟩ := ledger.stream positions
  rw [eventsFrom, stream, List.filterMap_append, filterMap_asEvent?_pairs]
  exact List.prefix_append _ _

theorem Hushed.free (hushed : Hushed origin actor) (ledger : Ledger origin events phase actor)
    (opened : actor.sealed = none) (input : Submission) :
    (actor.commandRecord input).key ∉ actor.journal.records.map JournalRecord.key := by
  obtain rfl := ledger.running opened
  rw [hushed.bare opened, ledger.handed]
  exact ledger.grounded.key_free _

theorem Hushed.rivalFree (hushed : Hushed origin actor) (ledger : Ledger origin events phase actor)
    (opened : actor.sealed = none) (input : Submission) : actor.journal.RivalFree (actor.envelope input) :=
  hushed.quiet.rivalFree (hushed.free ledger opened input)

theorem Hushed.handle (hushed : Hushed origin actor) (ledger : Ledger origin events phase actor)
    (input : Submission) : Hushed origin (actor.handle input).2 := by
  have ahead : (actor.ahead input).2.Quiet := by
    unfold UnderlyingActor.ahead
    rw [writeAheadCommand_journal]
    exact hushed.quiet.append rfl
  generalize result : actor.handle input = reply
  have turn := actor.handle_turn input
  rw [result] at turn
  obtain ⟨reply, last⟩ := reply
  cases turn with
  | refused reason closed => exact hushed
  | reused journal opened reused =>
    rw [reused] at ahead
    refine ⟨ahead, fun _ => ?_⟩
    have free := hushed.free ledger opened input
    have still := hushed.quiet.reuse free (show (actor.ahead input).1 = .reuse by rw [reused])
    change (actor.ahead input).2.records = _ at still
    rw [reused] at still
    exact still.trans (hushed.bare opened)
  | eventLost journal last error opened committed lost =>
    rw [committed] at ahead
    exact ⟨ahead.append lost, by simp⟩
  | projectionFailed journal last error fanOut opened committed stored failed =>
    rw [committed] at ahead
    exact ⟨ahead.append stored, by simp⟩
  | committed journal last fanOut opened committed stored emitted =>
    rw [committed] at ahead
    have rivalFree := hushed.rivalFree ledger opened input
    obtain rfl := ledger.running opened
    have handed := emit_handed emitted
    obtain ⟨records, -⟩ := ledger.stored input rivalFree committed stored
    rw [← ledger.handed, ← handed] at records
    exact Hushed.advance
        { ({ actor with journal := last, executor := (actor.derived input).2 }.publish
            (actor.derived input).1) with fanOut := fanOut }
      ⟨ahead.append stored, fun _ => records⟩

theorem Hushed.run (hushed : Hushed origin actor) (ledger : Ledger origin events phase actor)
    (inputs : List Submission) : RivalFreeRun actor inputs := by
  induction inputs generalizing events phase actor with
  | nil => trivial
  | cons input rest ih =>
    have rivalFree := fun opened => hushed.rivalFree ledger opened input
    obtain ⟨grown, phase', later, -⟩ := ledger.handle input rivalFree
    exact ⟨rivalFree, ih (hushed.handle ledger input) later⟩

/-- The stored event at a sequence of the ledger is the ledger's own, whatever has landed since. -/
theorem Ledger.settledEventAt (ledger : Ledger origin events phase actor) (positions : List Nat) {event : VenueEvent}
    (member : event ∈ events) :
    storedEventAt (LateLog.settle JournalRecord.key actor.journal.log positions).records event.underlyingSequence =
      some event := by
  obtain ⟨tail, records, -⟩ := ledger.tail positions
  have low := (ledger.gapless_events.mem_range member).1
  have old : (origin.prior.filterMap JournalRecord.asEvent?).find?
      (fun other => other.underlyingSequence = event.underlyingSequence) = none := by
    rw [List.find?_eq_none]
    intro other present
    obtain ⟨record, durable, shape⟩ := List.mem_filterMap.1 present
    rw [JournalRecord.asEvent?_eq_some] at shape
    have early : other.underlyingSequence < origin.start := by
      simpa [shape, JournalRecord.sequence] using origin.settled record durable
    simp only [decide_eq_true_eq]
    omega
  have unique : (events.map VenueEvent.underlyingSequence).Nodup := ledger.gapless_events ▸ List.nodup_range'
  unfold Exchange.storedEventAt
  rw [records, Origin.base, List.filterMap_append, List.filterMap_append, filterMap_asEvent?_pairs,
    List.find?_append, List.find?_append, old, find?_of_unique _ unique member]
  rfl

theorem Ledger.storedEventAt (ledger : Ledger origin events phase actor) {event : VenueEvent}
    (member : event ∈ events) :
    storedEventAt actor.journal.records event.underlyingSequence = some event :=
  ledger.settledEventAt [] member

/-- Whoever runs the executor has first made the command durable at its sequence. -/
theorem Ledger.executes (ledger : Ledger origin events phase actor) (input : Submission)
    (rivalFree : actor.sealed = none → actor.journal.RivalFree (actor.envelope input))
    (executed : (actor.handle input).2.executor.log ≠ actor.executor.log) :
    (actor.handle input).2.executor.log = actor.executor.log ++ [actor.context input] ∧
      (actor.ahead input).2.records = origin.base events ++ [actor.commandRecord input] ∧
      commandAt (actor.ahead input).2.records actor.nextSequence = some (actor.envelope input) := by
  rcases actor.handle_executor input with same | ⟨opened, committed, same⟩
  · exact absurd (by rw [same]) executed
  · obtain rfl := ledger.running opened
    have durable := ledger.durable input (rivalFree opened) committed
    exact ⟨by rw [same]; rfl, durable, by rw [durable]; exact ledger.grounded.commandAt rfl⟩

/-- The write-ahead contract of a run from `start`. -/
structure WriteAheadContract (start : Nat) (actor : FaultActor E) (inputs : List Submission) : Prop where
  /-- At most one command for each sequence, without a gap. -/
  gapless : (commandsFrom (actor.run inputs).2.journal.records start).map JournalCommand.sequence =
    List.range' start (commandsFrom (actor.run inputs).2.journal.records start).length
  /-- Every command but possibly the last has its event. -/
  paired : ∀ command ∈ (commandsFrom (actor.run inputs).2.journal.records start).dropLast,
    ∃ event ∈ eventsFrom (actor.run inputs).2.journal.records start, event.envelope = command
  /-- The fan-out is handed a prefix of the journaled events. -/
  emitted : (actor.run inputs).2.fanOut.handed <+: eventsFrom (actor.run inputs).2.journal.records start
  /-- It is handed them in sequence order and never twice. -/
  ordered : (actor.run inputs).2.fanOut.handed.map VenueEvent.underlyingSequence =
    List.range' start (actor.run inputs).2.fanOut.handed.length
  /-- A receipt carries the outcome of the journaled event at its sequence. -/
  receipts : ∀ receipt, .ok receipt ∈ (actor.run inputs).1 → ∃ event,
    storedEventAt (actor.run inputs).2.journal.records receipt.underlyingSequence = some event ∧
      receipt.outcome = some event.outcome
  /-- The executor runs at most once for each sequence. -/
  once : ((actor.run inputs).2.executor.log.map ExecutionContext.sequence).Nodup
  /-- It runs only on the turn's own command, once that is journaled. -/
  journaledFirst : ∀ early input late, inputs = early ++ input :: late →
    ((actor.run early).2.handle input).2.executor.log ≠ (actor.run early).2.executor.log →
      ((actor.run early).2.handle input).2.executor.log =
          (actor.run early).2.executor.log ++ [(actor.run early).2.context input] ∧
        (actor.run early).2.commandRecord input ∈ ((actor.run early).2.ahead input).2.records
  /-- Once sealed, nothing is executed, journaled or emitted any more. -/
  sealedStays : ∀ early late, inputs = early ++ late → (actor.run early).2.sealed ≠ none →
    (actor.run inputs).2 = (actor.run early).2

/-- Every run of the actor, under every script of append faults and of fan-out faults, keeps the
write-ahead contract. -/
theorem run_writeAheadContract (origin : Origin E) (faults : List AppendFault)
    (fanOut : List (Option FanOutSealed)) (epoch : Nat) (index : Option ClOrdIdIndex)
    (inputs : List Submission) :
    WriteAheadContract origin.start (origin.actor (faults.map AppendTurn.quiet) fanOut epoch index) inputs := by
  generalize start : origin.actor (faults.map AppendTurn.quiet) fanOut epoch index = actor
  have initial : Ledger origin [] .running actor := start ▸ origin.ledger _ _ _ _
  have hushed : Hushed origin actor := start ▸ origin.hushed _ _ _ _
  have rivalFree := hushed.run initial inputs
  obtain ⟨events, phase, ledger, receipts⟩ := initial.run inputs rivalFree
  rw [List.nil_append] at ledger
  obtain ⟨stray, commands, order, short⟩ := ledger.durable_commands []
  have prefixed := ledger.durable_events []
  rw [LateLog.settle_nil] at commands prefixed
  change commandsFrom (actor.run inputs).2.journal.records origin.start = _ at commands
  refine ⟨?_, ?_, ?_, ?_, ?_, ?_, ?_, ?_⟩
  · rw [commands, List.map_append, order, List.map_map]
    have mapped : (events ++ phase.pending).map (JournalCommand.sequence ∘ VenueEvent.envelope) =
        List.range' origin.start (events ++ phase.pending).length := ledger.gapless
    rw [mapped, List.range'_append_1]
    simp [Nat.add_assoc]
  · intro command member
    rw [commands, List.map_append, List.append_assoc] at member
    have early : command ∈ events.map VenueEvent.envelope :=
      mem_of_mem_dropLast_append (by simp at short ⊢; omega) member
    obtain ⟨event, present, rfl⟩ := List.mem_map.1 early
    exact ⟨event, prefixed.subset present, rfl⟩
  · rw [ledger.handed]
    exact prefixed
  · rw [ledger.handed]
    exact ledger.gapless_events
  · intro receipt acknowledged
    obtain ⟨event, member, rfl⟩ := receipts receipt acknowledged
    exact ⟨event, ledger.storedEventAt member, rfl⟩
  · rw [ledger.logged, List.map_map]
    have mapped : (events ++ phase.pending).map (ExecutionContext.sequence ∘
        fun event => event.envelope.context origin.underlying origin.lineageId) =
        List.range' origin.start (events ++ phase.pending).length := ledger.gapless
    rw [mapped]
    exact List.nodup_range'
  · intro early input late split executed
    rw [split] at rivalFree
    obtain ⟨first, later⟩ := rivalFree.split
    obtain ⟨done, phase', middle, -⟩ := initial.run early first
    obtain ⟨grown, durable, -⟩ := middle.executes input later.1 executed
    exact ⟨grown, durable ▸ by simp⟩
  · rintro early late rfl closed
    rw [UnderlyingActor.run_append]
    exact UnderlyingActor.run_sealed _ closed late

/-- Whatever has landed, the durable commands carry consecutive sequences. -/
theorem Ledger.consecutive (ledger : Ledger origin events phase actor) (positions : List Nat) :
    ∃ count, (commandsFrom (LateLog.settle JournalRecord.key actor.journal.log positions).records
      origin.start).map JournalCommand.sequence = List.range' origin.start count := by
  obtain ⟨stray, commands, order, -⟩ := ledger.durable_commands positions
  have mapped : (events ++ phase.pending).map (JournalCommand.sequence ∘ VenueEvent.envelope) =
      List.range' origin.start (events ++ phase.pending).length := ledger.gapless
  exact ⟨_, by rw [commands, List.map_append, order, List.map_map, mapped, List.range'_append_1]⟩

/-- The commands are journaled in the order of their sequences. -/
theorem Ledger.replayed_eq (ledger : Ledger origin events phase actor) (positions : List Nat) :
    commandRecordsInOrder (readFrom (LateLog.settle JournalRecord.key actor.journal.log positions).records
        origin.start) =
      commandsFrom (LateLog.settle JournalRecord.key actor.journal.log positions).records origin.start := by
  obtain ⟨count, sequences⟩ := ledger.consecutive positions
  refine commandRecordsInOrder_of_sorted (?_ : (commandsFrom _ _).Pairwise _)
  have ascending := List.pairwise_lt_range' (s := origin.start) (n := count)
  rw [← sequences, List.pairwise_map] at ascending
  exact ascending.imp Nat.le_of_lt

/-- The commands that are re-executed from the start of a ledger, whatever has landed since. -/
theorem Ledger.replayed (ledger : Ledger origin events phase actor) (positions : List Nat) :
    ∃ stray : List JournalCommand,
      commandRecordsInOrder (readFrom (LateLog.settle JournalRecord.key actor.journal.log positions).records
        origin.start) = (events ++ phase.pending).map VenueEvent.envelope ++ stray := by
  obtain ⟨stray, commands, -⟩ := ledger.durable_commands positions
  exact ⟨stray, (ledger.replayed_eq positions).trans commands⟩

/-- The journal's command at an executed sequence is the executed one, whatever has landed since. -/
theorem Ledger.commandAt (ledger : Ledger origin events phase actor) (positions : List Nat) {event : VenueEvent}
    (member : event ∈ events ++ phase.pending) :
    commandAt (LateLog.settle JournalRecord.key actor.journal.log positions).records event.underlyingSequence =
      some event.envelope := by
  obtain ⟨stray, commands, -⟩ := ledger.durable_commands positions
  obtain ⟨count, sequences⟩ := ledger.consecutive positions
  have low := (ledger.gapless.mem_range member).1
  have unique : ((commandsFrom (LateLog.settle JournalRecord.key actor.journal.log positions).records
      origin.start).map JournalCommand.sequence).Nodup := sequences ▸ List.nodup_range'
  rw [commandAt_eq_find? _ low]
  have durable : event.envelope ∈ commandsFrom (LateLog.settle JournalRecord.key actor.journal.log positions).records
      origin.start := by
    rw [commands]
    exact List.mem_append_left _ (List.mem_map.2 ⟨event, member, rfl⟩)
  exact find?_of_unique JournalCommand.sequence unique durable

/-- The executor runs what the journal records, at the time and for good, so that re-execution
re-derives what was acknowledged. -/
structure FaithfulExecution (origin : Origin E) (actor : FaultActor E) (inputs : List Submission) : Prop where
  /-- When the executor runs a command, the journal's command at that sequence is that command. -/
  journaled : ∀ early input late, inputs = early ++ input :: late →
    ((actor.run early).2.handle input).2.executor.log ≠ (actor.run early).2.executor.log →
      commandAt ((actor.run early).2.ahead input).2.records (actor.run early).2.nextSequence =
        some ((actor.run early).2.envelope input)
  /-- It stays so, whatever lands later. -/
  lasting : ∀ positions, ∀ context ∈ (actor.run inputs).2.executor.log,
    commandAt (LateLog.settle JournalRecord.key (actor.run inputs).2.journal.log positions).records
      context.sequence = some ⟨context.sequence, context.venueTs, context.command⟩
  /-- Re-executing the journal gives every acknowledged outcome again. -/
  rederived : ∀ positions receipt, .ok receipt ∈ (actor.run inputs).1 →
    ∃ event ∈ (reexecute origin.underlying origin.lineageId origin.executor (commandRecordsInOrder
        (readFrom (LateLog.settle JournalRecord.key (actor.run inputs).2.journal.log positions).records
          origin.start))).1,
      event.underlyingSequence = receipt.underlyingSequence ∧ receipt.outcome = some event.outcome

/-- A run in which no ambiguous write-ahead has a rival executes faithfully. -/
theorem rivalFree_faithfulExecution (origin : Origin E) (script : List AppendTurn)
    (fanOut : List (Option FanOutSealed)) (epoch : Nat) (index : Option ClOrdIdIndex)
    (inputs : List Submission) (rivalFree : RivalFreeRun (origin.actor script fanOut epoch index) inputs) :
    FaithfulExecution origin (origin.actor script fanOut epoch index) inputs := by
  have initial := origin.ledger script fanOut epoch index
  obtain ⟨events, phase, ledger, receipts⟩ := initial.run inputs rivalFree
  rw [List.nil_append] at ledger
  refine ⟨?_, ?_, ?_⟩
  · intro early input late split executed
    rw [split] at rivalFree
    obtain ⟨first, later⟩ := rivalFree.split
    obtain ⟨done, phase', middle, -⟩ := initial.run early first
    exact (middle.executes input later.1 executed).2.2
  · intro positions context member
    rw [ledger.logged] at member
    obtain ⟨event, present, rfl⟩ := List.mem_map.1 member
    exact ledger.commandAt positions present
  · intro positions receipt acknowledged
    obtain ⟨event, member, rfl⟩ := receipts receipt acknowledged
    obtain ⟨stray, commands⟩ := ledger.replayed positions
    refine ⟨event, ?_, rfl, rfl⟩
    rw [commands, reexecute_append, ledger.executed]
    exact List.mem_append_left _ (List.mem_append_left _ member)

end Runs

def freshOrigin : Origin PlaceholderExecutor := ⟨"BTC", "run-1", 0, [], ⟨⟩, by simp⟩

def bidFor (quantity : Nat) : VenueCommand :=
  .addOrder ⟨"BTC-20240329-50000-C", "run-1:BTC:g0:0", "acct-1", 0, none, .buy, .limit, some 100, quantity, .gtc, .none⟩

/-- The first append times out and lands late; the second, of another command at the reused sequence,
times out as well, and its read-back finds the first. -/
def rivalScript : List AppendTurn :=
  [⟨[], .ambiguous "timeout" false, []⟩, ⟨[0], .ambiguous "timeout" false, []⟩]

theorem rival_not_faithfulExecution :
    ¬ FaithfulExecution freshOrigin (freshOrigin.actor rivalScript [] 0 none) [⟨1, bidFor 1⟩, ⟨2, bidFor 2⟩] := by
  intro faithful
  have journaled := faithful.journaled [⟨1, bidFor 1⟩] ⟨2, bidFor 2⟩ [] rfl (by decide)
  revert journaled
  decide

/-- The same command retried after its first append landed late. -/
theorem retry_faithfulExecution :
    RivalFreeRun (freshOrigin.actor rivalScript [] 0 none) [⟨1, bidFor 1⟩, ⟨1, bidFor 1⟩] ∧
      FaithfulExecution freshOrigin (freshOrigin.actor rivalScript [] 0 none) [⟨1, bidFor 1⟩, ⟨1, bidFor 1⟩] :=
  have rivalFree : RivalFreeRun (freshOrigin.actor rivalScript [] 0 none) [⟨1, bidFor 1⟩, ⟨1, bidFor 1⟩] := by decide
  ⟨rivalFree, rivalFree_faithfulExecution freshOrigin rivalScript [] 0 none _ rivalFree⟩

end Fauxchange.Exchange
