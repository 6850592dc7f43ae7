import Fauxchange.Venue.FloorHomes

/-! The streams that a floor leaves behind. The journal of each actor holds one record for each key, and the commands in
it, durable or in flight, are those that the venue's producers bring: what a crash leaves is what a boot may find. -/

namespace Fauxchange.Exchange
open Lib

section Journals
variable {property : JournalRecord → Prop}

theorem FaultJournal.append_carries {journal : FaultJournal} {record : JournalRecord}
    (carries : journal.log.Carries JournalRecord.key property) (holds : property record) :
    (journal.append record).2.log.Carries JournalRecord.key property := by
  refine LateLog.Carries.settle ?_ journal.turn.after
  have settled := carries.settle journal.turn.before
  generalize LateLog.settle JournalRecord.key journal.log journal.turn.before = log at settled ⊢
  have written := settled.write holds
  rw [← appendContract_records] at written
  split
  · exact written
  · exact settled
  · exact settled
  · exact written
  · exact settled.fly holds

variable {U : Upstream} {actor : VenueActor U} {input : Submission}

/-- A turn appends its command and its event, or fewer. -/
theorem UnderlyingActor.handle_carries (carries : actor.journal.log.Carries JournalRecord.key property)
    (command : property (actor.commandRecord input)) (event : property (.event (actor.derived input).1)) :
    (actor.handle input).2.journal.log.Carries JournalRecord.key property := by
  have turn := actor.handle_turn input
  generalize actor.handle input = result at turn ⊢
  obtain ⟨reply, after⟩ := result
  have first : ∀ {ahead : WriteAhead} {journal : FaultJournal}, actor.ahead input = (ahead, journal) →
      journal.log.Carries JournalRecord.key property := by
    intro ahead journal done
    rw [← ahead_journal done]
    exact FaultJournal.append_carries carries command
  have second : ∀ {ahead : WriteAhead} {journal last : FaultJournal} {reply : Except JournalError Unit},
      actor.ahead input = (ahead, journal) →
      VenueJournal.append journal (.event (actor.derived input).1) = (reply, last) →
      last.log.Carries JournalRecord.key property := by
    intro ahead journal last reply done stored
    have same : (journal.append (.event (actor.derived input).1)).2 = last := congrArg Prod.snd stored
    rw [← same]
    exact FaultJournal.append_carries (first done) event
  cases turn with
  | refused => exact carries
  | reused journal opened ahead => exact first ahead
  | eventLost journal last error opened ahead lost => exact second ahead lost
  | projectionFailed journal last error fanOut opened ahead stored failed => exact second ahead stored
  | committed journal last fanOut opened ahead stored emitted =>
    dsimp only
    split
    · exact second ahead stored
    · exact second ahead stored

end Journals

end Fauxchange.Exchange

namespace Fauxchange.Venue
open Exchange Lib UnderlyingActor

/-- A record without a command that the producers do not bring to the underlying. -/
def Written (lineage : LineageId) (underlying : String) (record : JournalRecord) : Prop :=
  ∀ command : JournalCommand, record = .command command → BroughtTo lineage underlying command.command

namespace Floor
variable {U : Upstream} {floor : Floor U} {underlying : String} {input : Submission} {config : BootConfig}
  {streams : String → Option Stream}

/-- What the journals of a floor hold. -/
def Kept (floor : Floor U) : Prop :=
  ∀ underlying actor, floor.actors underlying = some actor →
    actor.journal.log.Carries JournalRecord.key (Written floor.lineageId underlying)

theorem Kept.turn (kept : floor.Kept) (brings : BroughtTo floor.lineageId underlying input.command) :
    (floor.turn underlying input).2.Kept := by
  unfold Kept
  rw [floor.turn_lineageId underlying input]
  intro other after present
  cases held : floor.actors underlying with
  | none =>
    rw [turn_absent held] at present
    exact kept other after present
  | some actor =>
    rw [turn_hosted held] at present
    rcases seat_cases rfl present with ⟨rfl, rfl⟩ | ⟨-, before⟩
    · refine @handle_carries _ U (floor.lend actor) input (kept other actor held) ?_ ?_
      · intro command same
        cases same
        exact brings
      · exact fun command wrong => by cases wrong
    · exact kept other after before

theorem kept_boot (keyed : KeyedStreams streams) (homes : HomedStreams streams)
    (booted : Floor.boot U config streams = .ok floor) : floor.Kept := by
  obtain ⟨probed, start⟩ := Floor.booted_from booted
  intro underlying actor present
  obtain ⟨found, probe, spawned⟩ := start.hosted underlying actor present
  cases found with
  | none =>
    have fresh : actor = freshActor U config floor.lineageId underlying := spawned
    subst fresh
    exact ⟨List.nodup_nil, List.forall_mem_nil _, List.forall_mem_nil _⟩
  | some pair =>
    obtain ⟨stream, recovered⟩ := pair
    obtain ⟨other, listed, held, same, -⟩ := start.found (underlying, recovered) (recoveredOf_entry.2 ⟨stream, probe⟩)
    obtain rfl : stream = other := by
      have equal := congrArg Prod.snd (List.inj_on_of_nodup_map start.apart probe listed rfl)
      cases equal
      rfl
    have journal : actor.journal.log = ⟨stream.records, []⟩ := by
      have spawned : recoveredActor U config floor.lineageId underlying stream recovered = .ok actor := spawned
      unfold recoveredActor at spawned
      dsimp only at spawned
      split at spawned
      · cases spawned
      · split at spawned
        · cases spawned
        · cases spawned
          rfl
    rw [journal]
    refine ⟨keyed underlying stream held, fun record durable command command' => ?_, List.forall_mem_nil _⟩
    subst command'
    rw [← same]
    exact homes underlying stream held command durable

/-- The durable streams after a crash, which lets some of the writes in flight land. A venue without a database leaves
nothing new. -/
def leaves (floor : Floor U) (config : BootConfig) (streams : String → Option Stream) (landed : String → List Nat) :
    String → Option Stream :=
  fun underlying =>
    match floor.actors underlying with
    | some actor =>
      if config.database then
        some ⟨floor.lineageId, (LateLog.settle JournalRecord.key actor.journal.log (landed underlying)).records⟩
      else streams underlying
    | none => streams underlying

variable {landed : String → List Nat}

theorem leaves_cases {stream : Stream} (left : floor.leaves config streams landed underlying = some stream) :
    streams underlying = some stream ∨ ∃ actor, floor.actors underlying = some actor ∧
      stream = ⟨floor.lineageId, (LateLog.settle JournalRecord.key actor.journal.log (landed underlying)).records⟩ := by
  unfold leaves at left
  split at left
  next actor held =>
    split at left
    · exact Or.inr ⟨actor, held, (Option.some.inj left).symm⟩
    · exact Or.inl left
  next => exact Or.inl left

theorem Kept.keyed (kept : floor.Kept) (keyed : KeyedStreams streams) :
    KeyedStreams (floor.leaves config streams landed) := by
  intro underlying stream left
  rcases leaves_cases left with before | ⟨actor, held, rfl⟩
  · exact keyed underlying stream before
  · exact ((kept underlying actor held).settle _).keyed

theorem Kept.homed (kept : floor.Kept) (homes : HomedStreams streams) :
    HomedStreams (floor.leaves config streams landed) := by
  intro underlying stream left
  rcases leaves_cases left with before | ⟨actor, held, rfl⟩
  · exact homes underlying stream before
  · exact fun command durable => ((kept underlying actor held).settle _).durable _ durable command rfl

end Floor

end Fauxchange.Venue
