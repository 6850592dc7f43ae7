import Fauxchange.Exchange.ActorTurn
import Fauxchange.Exchange.FaultJournal

/-! The actor over a faulty journal, a recording executor and a failing fan-out. The ledger of a run is
the list of its journaled events; every turn keeps the actor in step with it. -/

namespace Fauxchange.Exchange
open Lib

/-- An executor that records the contexts it is run on. -/
structure Logged (E : Type) where
  inner : E
  log : List ExecutionContext

instance {E : Type} [CommandExecutor E] : CommandExecutor (Logged E) where
  execute logged context :=
    let (outcome, inner) := CommandExecutor.execute logged.inner context
    (outcome, ⟨inner, logged.log ++ [context]⟩)

/-- A fan-out that records the events handed to it and fails by script. -/
structure ScriptedFanOut where
  script : List (Option FanOutSealed)
  handed : List VenueEvent

def ScriptedFanOut.emit (fanOut : ScriptedFanOut) (event : VenueEvent) :
    Except FanOutSealed Unit × ScriptedFanOut :=
  (match fanOut.script.headD none with
    | none => .ok ()
    | some failure => .error failure,
    ⟨fanOut.script.tail, fanOut.handed ++ [event]⟩)

instance : FanOut ScriptedFanOut where
  emit := ScriptedFanOut.emit

abbrev FaultActor (E : Type) := UnderlyingActor FaultJournal (Logged E) ScriptedFanOut

/-- Where a run starts: the durable records so far and the executor they left. -/
structure Origin (E : Type) where
  underlying : String
  lineageId : LineageId
  start : Nat
  prior : List JournalRecord
  executor : E
  settled : ∀ record ∈ prior, record.sequence < start

namespace Origin
variable {E : Type}

/-- The actor at the start of a run, under scripts of journal and fan-out faults. -/
def actor (origin : Origin E) (script : List AppendTurn) (fanOut : List (Option FanOutSealed))
    (epoch : Nat) (index : Option ClOrdIdIndex) : FaultActor E :=
  ⟨origin.underlying, origin.lineageId, ⟨⟨origin.prior, []⟩, script⟩, ⟨origin.executor, []⟩,
    ⟨fanOut, []⟩, origin.start, epoch, none, index⟩

/-- The durable records of a run whose journaled events are `events`. -/
def base (origin : Origin E) (events : List VenueEvent) : List JournalRecord :=
  origin.prior ++ events.flatMap VenueEvent.pair

theorem base_append (origin : Origin E) (events : List VenueEvent) (event : VenueEvent) :
    origin.base (events ++ [event]) = origin.base events ++ event.pair := by
  simp [base]

/-- The events carry the sequences from the start on, without a gap. -/
def Gapless (origin : Origin E) (events : List VenueEvent) : Prop :=
  events.map VenueEvent.underlyingSequence = List.range' origin.start events.length

theorem Gapless.append {origin : Origin E} {events : List VenueEvent} {event : VenueEvent}
    (gapless : origin.Gapless events) (here : event.underlyingSequence = origin.start + events.length) :
    origin.Gapless (events ++ [event]) := by
  unfold Gapless at gapless ⊢
  rw [List.map_append, gapless, List.length_append, List.length_singleton, List.range'_concat, Nat.one_mul]
  simp [here]

theorem Gapless.last {origin : Origin E} {events : List VenueEvent} {event : VenueEvent}
    (gapless : origin.Gapless (events ++ [event])) : event.underlyingSequence = origin.start + events.length := by
  have same := congrArg List.getLast? gapless
  simpa [List.range'_concat] using same

theorem Gapless.init {origin : Origin E} {events : List VenueEvent} {event : VenueEvent}
    (gapless : origin.Gapless (events ++ [event])) : origin.Gapless events := by
  have same := congrArg List.dropLast gapless
  simpa [Gapless, List.range'_concat] using same

theorem Gapless.mem_range {origin : Origin E} {events : List VenueEvent} (gapless : origin.Gapless events)
    {event : VenueEvent} (member : event ∈ events) :
    origin.start ≤ event.underlyingSequence ∧ event.underlyingSequence < origin.start + events.length := by
  have present : event.underlyingSequence ∈ List.range' origin.start events.length :=
    gapless ▸ List.mem_map.2 ⟨event, member, rfl⟩
  simpa [List.mem_range'_1] using present

/-- A gapless run leaves a base that is complete below the next sequence. -/
theorem Gapless.grounded {origin : Origin E} {events : List VenueEvent} (gapless : origin.Gapless events) :
    FaultJournal.Base (origin.base events) origin.start (origin.start + events.length) where
  below := by
    intro sequence low high
    have present : sequence ∈ events.map VenueEvent.underlyingSequence := by
      rw [gapless, List.mem_range'_1]
      exact ⟨low, high⟩
    obtain ⟨event, member, rfl⟩ := List.mem_map.1 present
    refine List.mem_map.2 ⟨.command event.envelope, ?_, rfl⟩
    exact List.mem_append_right _ (List.mem_flatMap.2 ⟨event, member, by simp [VenueEvent.pair]⟩)
  fresh := by
    intro record member
    rcases List.mem_append.1 member with old | new
    · have early := origin.settled record old
      omega
    · obtain ⟨event, present, pairing⟩ := List.mem_flatMap.1 new
      have bound := (gapless.mem_range present).2
      simp only [VenueEvent.pair, List.mem_cons, List.not_mem_nil, or_false] at pairing
      rcases pairing with rfl | rfl <;> exact bound

/-- Reading the stream of a gapless run from its start leaves out the prior records only. -/
theorem Gapless.readFrom {origin : Origin E} {events : List VenueEvent} (gapless : origin.Gapless events)
    (tail : List JournalRecord) (late : ∀ record ∈ tail, origin.start ≤ record.sequence) :
    Exchange.readFrom (origin.base events ++ tail) origin.start = events.flatMap VenueEvent.pair ++ tail := by
  have old : origin.prior.filter (fun record => decide (origin.start ≤ record.sequence)) = [] := by
    rw [List.filter_eq_nil_iff]
    intro record member
    have early := origin.settled record member
    simp only [decide_eq_true_eq]
    omega
  have new : ∀ record ∈ events.flatMap VenueEvent.pair ++ tail, origin.start ≤ record.sequence := by
    intro record member
    rcases List.mem_append.1 member with paired | last
    · obtain ⟨event, present, pairing⟩ := List.mem_flatMap.1 paired
      have bound := (gapless.mem_range present).1
      simp only [VenueEvent.pair, List.mem_cons, List.not_mem_nil, or_false] at pairing
      rcases pairing with rfl | rfl <;> exact bound
    · exact late record last
  rw [Exchange.readFrom, base, List.append_assoc, List.filter_append, old, List.nil_append, List.filter_eq_self]
  exact fun record member => decide_eq_true (new record member)

end Origin

/-- The state a run leaves the actor in: accepting commands, sealed with an unpaired last command, or
sealed behind a complete journal. -/
inductive Phase where
  | running
  | unpaired (event : VenueEvent)
  | closed

/-- The events derived by the executor but not yet fanned out. -/
def Phase.pending : Phase → List VenueEvent
  | .unpaired event => [event]
  | _ => []

section Ledger
variable {E : Type} [CommandExecutor E]

def Phase.Holds (origin : Origin E) (events : List VenueEvent) (actor : FaultActor E) : Phase → Prop
  | .running => actor.sealed = none ∧ actor.nextSequence = origin.start + events.length ∧
      FaultJournal.Front (origin.base events) origin.start actor.nextSequence actor.journal.log
  | .unpaired event => actor.sealed ≠ none ∧
      FaultJournal.Behind (origin.base events) origin.start event actor.journal.log
  | .closed => actor.sealed ≠ none ∧ actor.journal.records = origin.base events ∧
      ∀ record ∈ actor.journal.log.inFlight, record.key ∈ (origin.base events).map JournalRecord.key

/-- The ledger of a run: its journaled events account for the journal, the executor, its log and
the fan-out. -/
structure Ledger (origin : Origin E) (events : List VenueEvent) (phase : Phase) (actor : FaultActor E) :
    Prop where
  underlying : actor.underlying = origin.underlying
  lineageId : actor.lineageId = origin.lineageId
  gapless : origin.Gapless (events ++ phase.pending)
  executed : reexecute origin.underlying origin.lineageId origin.executor
    ((events ++ phase.pending).map VenueEvent.envelope) = (events ++ phase.pending, actor.executor.inner)
  logged : actor.executor.log =
    (events ++ phase.pending).map fun event => event.envelope.context origin.underlying origin.lineageId
  handed : actor.fanOut.handed = events
  position : phase.Holds origin events actor

theorem Origin.ledger (origin : Origin E) (script : List AppendTurn) (fanOut : List (Option FanOutSealed))
    (epoch : Nat) (index : Option ClOrdIdIndex) :
    Ledger origin [] .running (origin.actor script fanOut epoch index) where
  underlying := rfl
  lineageId := rfl
  gapless := rfl
  executed := rfl
  logged := rfl
  handed := rfl
  position := ⟨rfl, rfl, Or.inl (by simp [base, actor]), by simp [actor]⟩

variable {origin : Origin E} {events : List VenueEvent} {phase : Phase} {actor : FaultActor E}

/-- An open actor is running. -/
theorem Ledger.running (ledger : Ledger origin events phase actor) (opened : actor.sealed = none) :
    phase = .running := by
  cases phase with
  | running => rfl
  | unpaired event => exact absurd opened ledger.position.1
  | closed => exact absurd opened ledger.position.1

/-- What executing the next command does to the executor's side of the ledger. -/
theorem Ledger.execute (ledger : Ledger origin events .running actor) (input : Submission) :
    origin.Gapless (events ++ [(actor.derived input).1]) ∧
      reexecute origin.underlying origin.lineageId origin.executor
        ((events ++ [(actor.derived input).1]).map VenueEvent.envelope) =
          (events ++ [(actor.derived input).1], (actor.derived input).2.inner) ∧
      (actor.derived input).2.log = (events ++ [(actor.derived input).1]).map
        fun event => event.envelope.context origin.underlying origin.lineageId := by
  obtain ⟨-, next, -⟩ := ledger.position
  have gapless : origin.Gapless events := by simpa [Phase.pending] using ledger.gapless
  have executed := ledger.executed
  have logged := ledger.logged
  simp only [Phase.pending, List.append_nil] at executed logged
  refine ⟨gapless.append next, ?_, ?_⟩
  · rw [List.map_append, reexecute_append, executed, ← ledger.underlying, ← ledger.lineageId]
    rfl
  · rw [List.map_append, ← logged, ← ledger.underlying, ← ledger.lineageId]
    rfl

theorem Ledger.grounded (ledger : Ledger origin events .running actor) :
    FaultJournal.Base (origin.base events) origin.start actor.nextSequence := by
  have gapless : origin.Gapless events := by simpa [Phase.pending] using ledger.gapless
  obtain ⟨-, next, -⟩ := ledger.position
  exact next ▸ gapless.grounded

/-- After the write-ahead append the journal is still at the frontier. -/
theorem Ledger.ahead (ledger : Ledger origin events .running actor) (input : Submission) :
    FaultJournal.Front (origin.base events) origin.start actor.nextSequence (actor.ahead input).2.log := by
  obtain ⟨-, next, front⟩ := ledger.position
  have low : origin.start ≤ actor.nextSequence := by omega
  unfold UnderlyingActor.ahead
  rw [writeAheadCommand_journal]
  exact front.append ledger.grounded _ (actor.envelope input) low rfl

/-- A committed write-ahead has made the turn's own command durable. -/
theorem Ledger.durable (ledger : Ledger origin events .running actor) (input : Submission)
    (rivalFree : actor.journal.RivalFree (actor.envelope input))
    (committed : (actor.ahead input).1 = .committed) :
    (actor.ahead input).2.records = origin.base events ++ [.command (actor.derived input).1.envelope] := by
  obtain ⟨-, next, front⟩ := ledger.position
  have low : origin.start ≤ actor.nextSequence := by omega
  exact front.committed ledger.grounded _ (actor.envelope input) low rfl rivalFree committed

/-- A confirmed event append completes the pair. -/
theorem Ledger.stored (ledger : Ledger origin events .running actor) (input : Submission)
    (rivalFree : actor.journal.RivalFree (actor.envelope input)) {journal last : FaultJournal}
    (ahead : actor.ahead input = (.committed, journal))
    (stored : VenueJournal.append journal (.event (actor.derived input).1) = (.ok (), last)) :
    last.records = origin.base (events ++ [(actor.derived input).1]) ∧
      ∀ record ∈ last.log.inFlight, ∃ pending : JournalCommand, record = .command pending ∧
        origin.start ≤ pending.sequence ∧ pending.sequence ≤ actor.nextSequence := by
  have front := ledger.ahead input
  have durable := ledger.durable input rivalFree (by rw [ahead])
  rw [ahead] at front durable
  have appended : journal.append (.event (actor.derived input).1) = (.ok (), last) := stored
  obtain ⟨-, accepted⟩ := FaultJournal.Behind.append (actor.derived input).1 ledger.grounded journal
    front durable
  rw [appended] at accepted
  obtain ⟨full, flying⟩ := accepted rfl
  exact ⟨by rw [origin.base_append]; exact full, fun record flies => front.flying record (flying flies)⟩

/-- What stays in flight behind a complete pair can no longer land. -/
theorem Ledger.taken (ledger : Ledger origin events .running actor) (input : Submission)
    {pending : JournalCommand} (low : origin.start ≤ pending.sequence)
    (high : pending.sequence ≤ actor.nextSequence) :
    (JournalRecord.command pending).key ∈
      (origin.base (events ++ [(actor.derived input).1])).map JournalRecord.key := by
  obtain ⟨-, next, -⟩ := ledger.position
  refine (ledger.execute input).1.grounded.below _ low ?_
  change pending.sequence < _
  rw [List.length_append, List.length_singleton]
  omega

theorem Ledger.reused (ledger : Ledger origin events .running actor) (input : Submission) {journal : FaultJournal}
    (ahead : (actor.ahead input).2 = journal) :
    Ledger origin events .running { actor with journal := journal } := by
  obtain ⟨opened, next, -⟩ := ledger.position
  have front := ledger.ahead input
  rw [ahead] at front
  exact { ledger with position := ⟨opened, next, front⟩ }

theorem Ledger.eventLost (ledger : Ledger origin events .running actor) (input : Submission)
    (rivalFree : actor.journal.RivalFree (actor.envelope input)) {journal last : FaultJournal}
    (ahead : actor.ahead input = (.committed, journal))
    (lost : (VenueJournal.append journal (.event (actor.derived input).1)).2 = last) :
    Ledger origin events (.unpaired (actor.derived input).1)
      { actor with
        journal := last, executor := (actor.derived input).2, sealed := some .journalUnavailable } := by
  obtain ⟨gapless, executed, logged⟩ := ledger.execute input
  have front := ledger.ahead input
  have durable := ledger.durable input rivalFree (by rw [ahead])
  rw [ahead] at front durable
  have behind := (FaultJournal.Behind.append (actor.derived input).1 ledger.grounded journal
    front durable).1
  exact
    { ledger with
      gapless := gapless
      executed := executed
      logged := logged
      position := ⟨by simp, lost ▸ behind⟩ }

theorem emit_handed {fanOut last : ScriptedFanOut} {event : VenueEvent} {result : Except FanOutSealed Unit}
    (emitted : FanOut.emit fanOut event = (result, last)) : last.handed = fanOut.handed ++ [event] :=
  (congrArg (fun outcome => outcome.2.handed) emitted).symm

/-- A turn whose pair is complete and whose event was handed to the fan-out extends the ledger. -/
theorem Ledger.extend (ledger : Ledger origin events .running actor) (input : Submission) {after : FaultActor E}
    (underlying : after.underlying = actor.underlying) (lineageId : after.lineageId = actor.lineageId)
    (executor : after.executor = (actor.derived input).2)
    (handed : after.fanOut.handed = actor.fanOut.handed ++ [(actor.derived input).1])
    (finished : phase.pending = [])
    (position : phase.Holds origin (events ++ [(actor.derived input).1]) after) :
    Ledger origin (events ++ [(actor.derived input).1]) phase after := by
  obtain ⟨gapless, executed, logged⟩ := ledger.execute input
  exact
    { underlying := underlying.trans ledger.underlying
      lineageId := lineageId.trans ledger.lineageId
      gapless := by rw [finished, List.append_nil]; exact gapless
      executed := by rw [finished, List.append_nil, executor]; exact executed
      logged := by rw [finished, List.append_nil, executor]; exact logged
      handed := by rw [handed, ledger.handed]
      position := position }

/-- Advancing the counter behind a complete pair keeps the actor running, or seals it at the last
sequence. -/
theorem Ledger.advance (ledger : Ledger origin events .running actor) (input : Submission) (after : FaultActor E)
    (underlying : after.underlying = actor.underlying) (lineageId : after.lineageId = actor.lineageId)
    (executor : after.executor = (actor.derived input).2)
    (handed : after.fanOut.handed = actor.fanOut.handed ++ [(actor.derived input).1])
    (opened : after.sealed = none) (same : after.nextSequence = actor.nextSequence)
    (records : after.journal.records = origin.base (events ++ [(actor.derived input).1]))
    (flying : ∀ record ∈ after.journal.log.inFlight, ∃ pending : JournalCommand, record = .command pending ∧
      origin.start ≤ pending.sequence ∧ pending.sequence ≤ actor.nextSequence) :
    ∃ phase', Ledger origin (events ++ [(actor.derived input).1]) phase' after.advance := by
  obtain ⟨-, next, -⟩ := ledger.position
  unfold UnderlyingActor.advance
  split
  next sequence advanced =>
    obtain ⟨-, rfl⟩ := checkedNext_eq_some.1 advanced
    refine ⟨.running, ledger.extend input underlying lineageId executor handed rfl
      ⟨opened, ?_, Or.inl records, ?_⟩⟩
    · change after.nextSequence + 1 = _
      rw [List.length_append, List.length_singleton]
      omega
    · intro record flies
      obtain ⟨pending, shape, low, high⟩ := flying record flies
      exact ⟨pending, shape, low, Nat.le_succ_of_le (same ▸ high)⟩
  next =>
    refine ⟨.closed, ledger.extend input underlying lineageId executor handed rfl ⟨by simp, records, ?_⟩⟩
    intro record flies
    obtain ⟨pending, rfl, low, high⟩ := flying record flies
    exact ledger.taken input low high

/-- Every turn keeps a ledger, provided that an ambiguous write-ahead has no rival. -/
theorem Ledger.handle (ledger : Ledger origin events phase actor) (input : Submission)
    (rivalFree : actor.sealed = none → actor.journal.RivalFree (actor.envelope input)) :
    ∃ grown phase', Ledger origin (events ++ grown) phase' (actor.handle input).2 ∧
      ∀ receipt, (actor.handle input).1 = .ok receipt → ∃ event, grown = [event] ∧
        receipt = Receipt.committed event.underlyingSequence event.venueTs event.outcome := by
  generalize result : actor.handle input = reply
  have turn := actor.handle_turn input
  rw [result] at turn
  obtain ⟨reply, last⟩ := reply
  cases turn with
  | refused reason closed => exact ⟨[], phase, by simpa using ledger, by simp⟩
  | reused journal opened ahead =>
    obtain rfl := ledger.running opened
    exact ⟨[], .running, by simpa using ledger.reused input (by rw [ahead]), by simp⟩
  | eventLost journal last error opened ahead lost =>
    obtain rfl := ledger.running opened
    refine ⟨[], .unpaired (actor.derived input).1, ?_, by simp⟩
    simpa using ledger.eventLost input (rivalFree opened) ahead (by rw [lost])
  | projectionFailed journal last error fanOut opened ahead stored failed =>
    obtain rfl := ledger.running opened
    obtain ⟨records, flying⟩ := ledger.stored input (rivalFree opened) ahead stored
    refine ⟨[(actor.derived input).1], .closed, ?_, by simp⟩
    refine ledger.extend input rfl rfl rfl (emit_handed failed) rfl ⟨by simp, records, ?_⟩
    intro record flies
    obtain ⟨pending, rfl, low, high⟩ := flying record flies
    exact ledger.taken input low high
  | committed journal last fanOut opened ahead stored emitted =>
    obtain rfl := ledger.running opened
    obtain ⟨records, flying⟩ := ledger.stored input (rivalFree opened) ahead stored
    obtain ⟨phase', later⟩ := ledger.advance input
        { ({ actor with journal := last, executor := (actor.derived input).2 }.publish
            (actor.derived input).1) with fanOut := fanOut }
      rfl rfl rfl (emit_handed emitted) opened rfl records flying
    exact ⟨[(actor.derived input).1], phase', later, fun receipt same => ⟨_, rfl, (Except.ok.inj same).symm⟩⟩

end Ledger
end Fauxchange.Exchange
