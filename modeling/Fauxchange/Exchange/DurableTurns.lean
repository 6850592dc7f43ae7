import Fauxchange.Exchange.ActorTurn
import Fauxchange.Exchange.FaultJournal

/-! What a turn leaves durable, on any journal: nothing durable is ever lost, and a write-ahead that commits without a
rival is durable at its sequence, which no later turn uses again. -/

namespace Fauxchange.Lib.LateLog
variable {R K : Type} [DecidableEq K] (key : R → K)

/-- Nothing lands under a key that is taken. -/
theorem mem_of_mem_settle_of_taken {log : LateLog R} {positions : List Nat} {record : R}
    (member : record ∈ (settle key log positions).records) (taken : key record ∈ log.records.map key) :
    record ∈ log.records := by
  have kept : (∀ other ∈ log.records, other ∈ (settle key log positions).records) ∧
      ∀ other ∈ (settle key log positions).records, key other ∈ log.records.map key → other ∈ log.records := by
    refine settle_induction key (P := fun later => (∀ other ∈ log.records, other ∈ later.records) ∧
      ∀ other ∈ later.records, key other ∈ log.records.map key → other ∈ log.records) ?_ log positions
      ⟨fun _ same => same, fun _ same _ => same⟩
    rintro later position ⟨durable, only⟩
    unfold land
    split
    · exact ⟨durable, only⟩
    next landed _ =>
      refine ⟨fun other old => mem_write_of_mem key _ (durable other old), fun other present used => ?_⟩
      unfold write at present
      dsimp only at present
      split at present
      · exact only other present used
      next free =>
        rcases List.mem_append.1 present with old | new
        · exact only other old used
        · rw [List.mem_singleton.1 new] at used
          obtain ⟨owner, old, same⟩ := List.mem_map.1 used
          exact absurd (List.mem_map.2 ⟨owner, durable owner old, same⟩) free
  exact kept.2 record member taken

end Fauxchange.Lib.LateLog

namespace Fauxchange.Exchange
open Lib JournalRecord

namespace FaultJournal
variable {journal : FaultJournal} {record other : JournalRecord}

/-- What is durable stays durable under an append. -/
theorem mem_append_of_mem (record : JournalRecord) (durable : other ∈ journal.records) :
    other ∈ (journal.append record).2.records := by
  have settled : other ∈ (LateLog.settle key journal.log journal.turn.before).records :=
    LateLog.mem_settle_of_mem key durable
  have attempted : other ∈ (attempt (LateLog.settle key journal.log journal.turn.before) record journal.turn.fault).2.records := by
    unfold attempt
    split
    · dsimp only
      rw [appendContract_records]
      exact LateLog.mem_write_of_mem key _ settled
    · exact settled
    · exact settled
    · dsimp only
      rw [appendContract_records]
      exact LateLog.mem_write_of_mem key _ settled
    · exact settled
  exact LateLog.mem_settle_of_mem key attempted

/-- A write-ahead that commits without a rival has made its own command durable. -/
theorem mem_of_committed {command : JournalCommand} (rivalFree : journal.RivalFree command)
    (committed : (writeAheadCommand journal command.sequence (.command command)).1 = .committed) :
    .command command ∈ (writeAheadCommand journal command.sequence (.command command)).2.records := by
  rw [writeAheadCommand_journal]
  rcases writeAheadCommand_committed committed with accepted | ⟨⟨detail, unknown⟩, found⟩
  · exact LateLog.mem_settle_of_mem key (attempt_ok accepted)
  · obtain ⟨landed, fault⟩ := attempt_ambiguous unknown
    obtain ⟨record, durable, place⟩ := exists_of_contains found
    have own : record = .command command ∨ record ∈ journal.contenders command := by
      change record ∈ (LateLog.settle key (attempt (LateLog.settle key journal.log journal.turn.before)
        (.command command) journal.turn.fault).2 journal.turn.after).records at durable
      unfold contenders
      rw [fault] at durable ⊢
      cases landed with
      | true =>
        -- the landed append takes the key, so nothing that lands later counts
        have written : (attempt (LateLog.settle key journal.log journal.turn.before) (.command command)
            (.ambiguous detail true)).2.records =
              LateLog.write key (LateLog.settle key journal.log journal.turn.before).records (.command command) :=
          appendContract_records _ _
        have taken : key record ∈ (attempt (LateLog.settle key journal.log journal.turn.before) (.command command)
            (.ambiguous detail true)).2.records.map key := by
          rw [written, place]
          exact LateLog.key_mem_write key _ (.command command)
        have early := LateLog.mem_of_mem_settle_of_taken key durable taken
        rw [written] at early
        rcases LateLog.mem_write key early with old | same
        · exact Or.inr (List.mem_append.2 (LateLog.mem_settle key old))
        · exact Or.inl same
      | false =>
        rcases LateLog.mem_settle key durable with early | late
        · exact Or.inr (List.mem_append_left _ (List.mem_append.2 (LateLog.mem_settle key early)))
        · exact Or.inr (List.mem_append_right _ late)
    rcases own with same | rival
    · exact same ▸ durable
    · exact rivalFree record rival place ▸ durable

end FaultJournal

namespace UnderlyingActor
variable {E F : Type} [CommandExecutor E] [FanOut F] {actor : UnderlyingActor FaultJournal E F}

/-- A sequence that no later turn uses. -/
def Past (actor : UnderlyingActor FaultJournal E F) (sequence : Nat) : Prop :=
  actor.sealed = none → sequence < actor.nextSequence

omit [CommandExecutor E] [FanOut F] in
theorem past_advance {sequence : Nat} (reached : sequence ≤ actor.nextSequence) : actor.advance.Past sequence := by
  unfold advance
  split
  next next advanced =>
    have step : next = actor.nextSequence + 1 := (checkedNext_eq_some.1 advanced).2
    intro _
    change sequence < next
    omega
  next => exact fun wrong => (by cases wrong)

omit [CommandExecutor E] [FanOut F] in
theorem mem_advance {record : JournalRecord} (durable : record ∈ actor.journal.records) :
    record ∈ actor.advance.journal.records := by
  unfold advance
  split <;> exact durable

/-- A turn loses nothing that is durable, and goes back to no sequence. -/
theorem handle_keeps (input : Submission) : (∀ record ∈ actor.journal.records,
      record ∈ (actor.handle input).2.journal.records) ∧
    ∀ sequence, actor.Past sequence → (actor.handle input).2.Past sequence := by
  generalize result : actor.handle input = reply
  have turn := actor.handle_turn input
  rw [result] at turn
  obtain ⟨reply, last⟩ := reply
  have written : ∀ {answer : WriteAhead} {journal : FaultJournal}, actor.ahead input = (answer, journal) →
      ∀ record ∈ actor.journal.records, record ∈ journal.records := by
    intro answer journal ahead record durable
    have same : (actor.journal.append (actor.commandRecord input)).2 = journal :=
      (writeAheadCommand_journal actor.journal actor.nextSequence (actor.commandRecord input)).symm.trans
        (congrArg Prod.snd ahead)
    exact same ▸ FaultJournal.mem_append_of_mem _ durable
  have stored : ∀ {journal ended : FaultJournal} {answer : Except JournalError Unit},
      VenueJournal.append journal (.event (actor.derived input).1) = (answer, ended) →
      ∀ record ∈ journal.records, record ∈ ended.records := by
    intro journal ended answer appended record durable
    have same : (journal.append (.event (actor.derived input).1)).2 = ended := congrArg Prod.snd appended
    exact same ▸ FaultJournal.mem_append_of_mem _ durable
  cases turn with
  | refused reason closed => exact ⟨fun _ durable => durable, fun _ past => past⟩
  | reused journal opened ahead => exact ⟨written ahead, fun _ past => past⟩
  | eventLost journal ended error opened ahead lost =>
    exact ⟨fun record durable => stored lost record (written ahead record durable), fun _ _ wrong => (by cases wrong)⟩
  | projectionFailed journal ended error fanOut opened ahead kept failed =>
    exact ⟨fun record durable => stored kept record (written ahead record durable), fun _ _ wrong => (by cases wrong)⟩
  | committed journal ended fanOut opened ahead kept emitted =>
    refine ⟨fun record durable => ?_, fun sequence past => past_advance (Nat.le_of_lt (past opened))⟩
    exact mem_advance (stored kept record (written ahead record durable))

/-- The command of a turn whose write-ahead commits without a rival: durable at the sequence of the turn, which is past
then. -/
theorem handle_commits {input : Submission} (opened : actor.sealed = none) (committed : (actor.ahead input).1 = .committed)
    (rivalFree : actor.journal.RivalFree (actor.envelope input)) :
    .command (actor.envelope input) ∈ (actor.handle input).2.journal.records ∧
      (actor.handle input).2.Past actor.nextSequence := by
  have durable := FaultJournal.mem_of_committed rivalFree committed
  change _ ∈ (actor.ahead input).2.records at durable
  generalize result : actor.handle input = reply
  have turn := actor.handle_turn input
  rw [result] at turn
  obtain ⟨reply, last⟩ := reply
  have stored : ∀ {journal ended : FaultJournal} {answer : Except JournalError Unit},
      actor.ahead input = (.committed, journal) →
      VenueJournal.append journal (.event (actor.derived input).1) = (answer, ended) →
      .command (actor.envelope input) ∈ ended.records := by
    intro journal ended answer ahead appended
    rw [ahead] at durable
    have same : (journal.append (.event (actor.derived input).1)).2 = ended := congrArg Prod.snd appended
    exact same ▸ FaultJournal.mem_append_of_mem _ durable
  cases turn with
  | refused reason closed =>
    rw [opened] at closed
    cases closed
  | reused journal opened ahead =>
    rw [ahead] at committed
    cases committed
  | eventLost journal ended error opened ahead lost => exact ⟨stored ahead lost, fun wrong => (by cases wrong)⟩
  | projectionFailed journal ended error fanOut opened ahead kept failed =>
    exact ⟨stored ahead kept, fun wrong => (by cases wrong)⟩
  | committed journal ended fanOut opened ahead kept emitted =>
    exact ⟨mem_advance (stored ahead kept), past_advance (Nat.le_refl _)⟩

end UnderlyingActor

end Fauxchange.Exchange
