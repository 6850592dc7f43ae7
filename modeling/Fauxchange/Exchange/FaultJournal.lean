import Fauxchange.Exchange.Reexecution

/-! Append lemmas for the scripted journal. The durable records are a `base` that is complete below the
next sequence, followed by at most one command at it; what is still in flight was written at or
before it. -/

namespace Fauxchange.Exchange.FaultJournal
open Lib JournalRecord

/-- A stream whose commands are complete from `start` and which holds nothing at `next`. -/
structure Base (base : List JournalRecord) (start next : Nat) : Prop where
  below : ∀ sequence, start ≤ sequence → sequence < next → (sequence, RecordKind.command) ∈ base.map key
  fresh : ∀ record ∈ base, record.sequence < next

/-- A log at the frontier of a base. -/
structure Front (base : List JournalRecord) (start next : Nat) (log : LateLog JournalRecord) : Prop where
  tail : log.records = base ∨
    ∃ stray : JournalCommand, stray.sequence = next ∧ log.records = base ++ [.command stray]
  flying : ∀ record ∈ log.inFlight,
    ∃ pending : JournalCommand, record = .command pending ∧ start ≤ pending.sequence ∧ pending.sequence ≤ next

variable {base : List JournalRecord} {start next : Nat} {log : LateLog JournalRecord}

theorem Base.key_free (grounded : Base base start next) (kind : RecordKind) : (next, kind) ∉ base.map key := by
  intro member
  obtain ⟨record, present, same⟩ := List.mem_map.1 member
  have early := grounded.fresh record present
  have here : record.sequence = next := congrArg Prod.fst same
  omega

theorem Base.commandAt (grounded : Base base start next) {command : JournalCommand}
    (here : command.sequence = next) : commandAt (base ++ [.command command]) next = some command := by
  have early : (base.filterMap asCommand?).find? (fun other => other.sequence = next) = none := by
    rw [List.find?_eq_none]
    intro other present
    obtain ⟨record, durable, shape⟩ := List.mem_filterMap.1 present
    rw [asCommand?_eq_some] at shape
    have below : other.sequence < next := by simpa [shape, JournalRecord.sequence] using grounded.fresh record durable
    simp only [decide_eq_true_eq]
    omega
  unfold Exchange.commandAt
  rw [List.filterMap_append, List.find?_append, early]
  simp [asCommand?, here]

/-- Once a command is durable at the next sequence, nothing in flight can land. -/
theorem Front.settle_records_of_stray (grounded : Base base start next) (front : Front base start next log)
    (positions : List Nat) {stray : JournalCommand} (here : stray.sequence = next)
    (grown : log.records = base ++ [.command stray]) :
    (LateLog.settle key log positions).records = log.records := by
  apply LateLog.settle_records_of_taken
  intro record member
  obtain ⟨pending, rfl, low, high⟩ := front.flying record member
  rw [grown, List.map_append]
  rcases Nat.lt_or_eq_of_le high with early | same
  · exact List.mem_append_left _ (grounded.below _ low early)
  · exact List.mem_append_right _ (by simp [here, same])

theorem Front.settle (grounded : Base base start next) (front : Front base start next log)
    (positions : List Nat) : Front base start next (LateLog.settle key log positions) := by
  have flying : ∀ record ∈ (LateLog.settle key log positions).inFlight,
      ∃ pending : JournalCommand, record = .command pending ∧ start ≤ pending.sequence ∧ pending.sequence ≤ next :=
    fun record member => front.flying record (LateLog.settle_inFlight_subset key log positions member)
  refine ⟨?_, flying⟩
  rcases front.tail with bare | ⟨stray, here, grown⟩
  · have others : ∀ record ∈ log.inFlight,
        key record ∈ log.records.map key ∨ key record = (next, RecordKind.command) := by
      intro record member
      obtain ⟨pending, rfl, low, high⟩ := front.flying record member
      rcases Nat.lt_or_eq_of_le high with early | same
      · exact Or.inl (bare ▸ grounded.below _ low early)
      · exact Or.inr (by simp [same])
    rcases LateLog.settle_records_of_one_free key log positions _ others with same | ⟨record, member, here, same⟩
    · exact Or.inl (same.trans bare)
    · obtain ⟨pending, rfl, -, -⟩ := front.flying record member
      exact Or.inr ⟨pending, congrArg Prod.fst here, by rw [same, bare]⟩
  · exact Or.inr ⟨stray, here, (front.settle_records_of_stray grounded positions here grown).trans grown⟩

/-- At the frontier the contract either appends the command or leaves the records alone. -/
theorem Front.write (grounded : Base base start next) (front : Front base start next log)
    (command : JournalCommand) (here : command.sequence = next) :
    Front base start next { log with records := (appendContract log.records (.command command)).2 } := by
  refine ⟨?_, front.flying⟩
  rw [appendContract_records]
  rcases front.tail with bare | ⟨stray, placed, grown⟩
  · have free : key (.command command) ∉ log.records.map key := by
      rw [bare, key_command, here]
      exact grounded.key_free _
    exact Or.inr ⟨command, here, (LateLog.write_of_free key free).trans (by rw [bare])⟩
  · have taken : key (.command command) ∈ log.records.map key := by
      simp [grown, here, placed]
    exact Or.inr ⟨stray, placed, (LateLog.write_of_taken key taken).trans grown⟩

theorem Front.attempt (grounded : Base base start next) (front : Front base start next log)
    (command : JournalCommand) (low : start ≤ next) (here : command.sequence = next) (fault : AppendFault) :
    Front base start next (FaultJournal.attempt log (.command command) fault).2 := by
  match fault with
  | .none => exact front.write grounded command here
  | .appendFailed _ => exact front
  | .resourceLimit .. => exact front
  | .ambiguous _ true => exact front.write grounded command here
  | .ambiguous _ false =>
    refine ⟨front.tail, ?_⟩
    intro record member
    rcases List.mem_append.1 member with old | new
    · exact front.flying record old
    · exact ⟨command, List.mem_singleton.1 new, by omega, by omega⟩

theorem Front.append (grounded : Base base start next) (journal : FaultJournal)
    (front : Front base start next journal.log) (command : JournalCommand) (low : start ≤ next)
    (here : command.sequence = next) :
    Front base start next (journal.append (.command command)).2.log :=
  ((front.settle grounded _).attempt grounded command low here _).settle grounded _

/-- At the frontier, a durable command of the next sequence is the whole tail. -/
theorem Front.records_of_mem (grounded : Base base start next) (front : Front base start next log)
    {command : JournalCommand} (here : command.sequence = next) (member : .command command ∈ log.records) :
    log.records = base ++ [.command command] := by
  rcases front.tail with bare | ⟨stray, -, grown⟩
  · exact absurd (grounded.fresh _ (bare ▸ member)) (by simp [JournalRecord.sequence, here])
  · rw [grown] at member ⊢
    rcases List.mem_append.1 member with old | new
    · exact absurd (grounded.fresh _ old) (by simp [JournalRecord.sequence, here])
    · rw [List.mem_singleton.1 new]

/-- The records that can be durable when an ambiguous append of `command` is read back, apart from the
append itself: those durable before it, those that land before it, and those that land after it
unless it has landed first. -/
def contenders (journal : FaultJournal) (command : JournalCommand) : List JournalRecord :=
  let settled := LateLog.settle key journal.log journal.turn.before
  match journal.turn.fault with
  | .ambiguous _ true => journal.records ++ LateLog.picked key journal.log journal.turn.before
  | .ambiguous _ false =>
    journal.records ++ LateLog.picked key journal.log journal.turn.before ++
      LateLog.picked key { settled with inFlight := settled.inFlight ++ [.command command] } journal.turn.after
  | _ => []

/-- No other command competes for the sequence of an ambiguous append. -/
def RivalFree (journal : FaultJournal) (command : JournalCommand) : Prop :=
  ∀ rival ∈ journal.contenders command, rival.key = (command.sequence, .command) → rival = .command command

instance (journal : FaultJournal) (command : JournalCommand) : Decidable (journal.RivalFree command) :=
  inferInstanceAs (Decidable (∀ rival ∈ _, _))

theorem attempt_ok {record : JournalRecord} {fault : AppendFault}
    (accepted : (attempt log record fault).1 = .ok ()) : record ∈ (attempt log record fault).2.records := by
  match fault with
  | .none => exact appendContract_ok accepted
  | .appendFailed _ => cases accepted
  | .resourceLimit .. => cases accepted
  | .ambiguous _ true => cases accepted
  | .ambiguous _ false => cases accepted

theorem appendContract_not_ambiguous {records : List JournalRecord} {record : JournalRecord} {detail : String} :
    (appendContract records record).1 ≠ .error (.ambiguous detail) := by
  unfold appendContract
  split
  · split <;> simp
  · simp

theorem attempt_ambiguous {record : JournalRecord} {fault : AppendFault} {detail : String}
    (unknown : (attempt log record fault).1 = .error (.ambiguous detail)) :
    ∃ landed, fault = .ambiguous detail landed := by
  match fault with
  | .none => exact absurd unknown appendContract_not_ambiguous
  | .appendFailed _ => cases unknown
  | .resourceLimit .. => cases unknown
  | .ambiguous _ true => cases unknown; exact ⟨true, rfl⟩
  | .ambiguous _ false => cases unknown; exact ⟨false, rfl⟩

/-- What is durable after an ambiguous append is the append itself or one of its contenders. -/
theorem mem_append_of_ambiguous (grounded : Base base start next) (journal : FaultJournal)
    (front : Front base start next journal.log) (command : JournalCommand) (low : start ≤ next)
    (here : command.sequence = next) {detail : String} {landed : Bool}
    (fault : journal.turn.fault = .ambiguous detail landed) {record : JournalRecord}
    (durable : record ∈ (journal.append (.command command)).2.records) :
    record = .command command ∨ record ∈ journal.contenders command := by
  have settled := front.settle grounded journal.turn.before
  have attempted := settled.attempt grounded command low here journal.turn.fault
  change record ∈ (LateLog.settle key (attempt (LateLog.settle key journal.log journal.turn.before)
    (.command command) journal.turn.fault).2 journal.turn.after).records at durable
  unfold contenders
  rw [fault] at durable attempted ⊢
  cases landed with
  | true =>
    -- the landed append takes the key, so nothing that lands later counts
    have taken : (attempt (LateLog.settle key journal.log journal.turn.before) (.command command)
        (.ambiguous detail true)).2.records =
        LateLog.write key (LateLog.settle key journal.log journal.turn.before).records (.command command) :=
      appendContract_records _ _
    rcases attempted.tail with bare | ⟨stray, placed, grown⟩
    · have held := LateLog.key_mem_write key
        (LateLog.settle key journal.log journal.turn.before).records (.command command)
      rw [← taken, bare, key_command, here] at held
      exact absurd held (grounded.key_free _)
    · rw [attempted.settle_records_of_stray grounded _ placed grown, taken] at durable
      rcases LateLog.mem_write key durable with old | same
      · exact Or.inr (List.mem_append.2 (LateLog.mem_settle key old))
      · exact Or.inl same
  | false =>
    rcases LateLog.mem_settle key durable with early | late
    · exact Or.inr (List.mem_append_left _ (List.mem_append.2 (LateLog.mem_settle key early)))
    · exact Or.inr (List.mem_append_right _ late)

/-- Without a rival, a write-ahead that is answered `Committed` has made its own command durable, right
behind the base. -/
theorem Front.committed (grounded : Base base start next) (journal : FaultJournal)
    (front : Front base start next journal.log) (command : JournalCommand) (low : start ≤ next)
    (here : command.sequence = next) (rivalFree : journal.RivalFree command)
    (committed : (writeAheadCommand journal next (.command command)).1 = .committed) :
    (writeAheadCommand journal next (.command command)).2.records = base ++ [.command command] := by
  have final := front.append grounded journal command low here
  rw [writeAheadCommand_journal]
  apply final.records_of_mem grounded here
  rcases writeAheadCommand_committed committed with accepted | ⟨⟨detail, unknown⟩, found⟩
  · exact LateLog.mem_settle_of_mem key (attempt_ok accepted)
  · obtain ⟨landed, fault⟩ := attempt_ambiguous unknown
    obtain ⟨record, durable, place⟩ := exists_of_contains found
    rcases mem_append_of_ambiguous grounded journal front command low here fault durable with own | rival
    · exact own ▸ durable
    · exact rivalFree record rival (here ▸ place) ▸ durable

/-- One attempt to append the event of a durable command. -/
theorem attempt_event {event : VenueEvent} (free : key (.event event) ∉ log.records.map key) (fault : AppendFault) :
    ((attempt log (.event event) fault).1 = .ok () →
      (attempt log (.event event) fault).2 = { log with records := log.records ++ [.event event] }) ∧
    ((attempt log (.event event) fault).2.records = log.records ∨
      (attempt log (.event event) fault).2.records = log.records ++ [.event event]) ∧
    (∀ record ∈ (attempt log (.event event) fault).2.inFlight, record ∈ log.inFlight ∨ record = .event event) := by
  have written := appendContract_of_free free
  match fault with
  | .none => simp +contextual [attempt, written]
  | .appendFailed _ => simp +contextual [attempt]
  | .resourceLimit .. => simp +contextual [attempt]
  | .ambiguous _ true => simp +contextual [attempt, written]
  | .ambiguous _ false => simp [attempt]

/-- A log whose frontier command is durable, with or without its event. -/
structure Behind (base : List JournalRecord) (start : Nat) (event : VenueEvent) (log : LateLog JournalRecord) :
    Prop where
  tail : log.records = base ++ [.command event.envelope] ∨ log.records = base ++ event.pair
  flying : ∀ record ∈ log.inFlight,
    (∃ pending : JournalCommand, record = .command pending ∧ start ≤ pending.sequence ∧
      pending.sequence ≤ event.underlyingSequence) ∨ record = .event event

theorem Behind.taken {event : VenueEvent} (grounded : Base base start event.underlyingSequence)
    (behind : Behind base start event log) {record : JournalRecord} (flies : record ∈ log.inFlight) :
    key record ∈ (base ++ [JournalRecord.command event.envelope]).map key ∨ record = .event event := by
  rw [List.map_append]
  rcases behind.flying record flies with ⟨pending, rfl, low, high⟩ | same
  · rcases Nat.lt_or_eq_of_le high with early | here
    · exact Or.inl (List.mem_append_left _ (grounded.below _ low early))
    · exact Or.inl (List.mem_append_right _ (by simp [VenueEvent.envelope, here]))
  · exact Or.inr same

theorem Behind.settle_records_of_pair {event : VenueEvent} (grounded : Base base start event.underlyingSequence)
    (behind : Behind base start event log) (full : log.records = base ++ event.pair) (positions : List Nat) :
    (LateLog.settle key log positions).records = base ++ event.pair := by
  rw [← full]
  apply LateLog.settle_records_of_taken
  intro record flies
  rw [full]
  rcases behind.taken grounded flies with old | rfl
  · simp only [List.map_append, List.mem_append] at old ⊢
    exact old.imp_right fun same => by simpa [VenueEvent.pair] using Or.inl same
  · simp [VenueEvent.pair]

theorem Behind.settle {event : VenueEvent} (grounded : Base base start event.underlyingSequence)
    (behind : Behind base start event log) (positions : List Nat) :
    Behind base start event (LateLog.settle key log positions) := by
  refine ⟨?_, fun record flies =>
    behind.flying record (LateLog.settle_inFlight_subset key log positions flies)⟩
  rcases behind.tail with half | full
  · have others : ∀ record ∈ log.inFlight,
        key record ∈ log.records.map key ∨ key record = (event.underlyingSequence, RecordKind.event) := by
      intro record flies
      rw [half]
      exact (behind.taken grounded flies).imp_right (fun same => by rw [same]; rfl)
    rcases LateLog.settle_records_of_one_free key log positions _ others with same | ⟨record, flies, here, same⟩
    · exact Or.inl (same.trans half)
    · rcases behind.flying record flies with ⟨pending, rfl, -, -⟩ | rfl
      · simp at here
      · exact Or.inr (by simp [same, half, VenueEvent.pair])
  · exact Or.inr (behind.settle_records_of_pair grounded full positions)

/-- The event of a durable frontier command is appended behind it, or is lost, or lands although its
append reported a failure. -/
theorem Behind.append (event : VenueEvent) (grounded : Base base start event.underlyingSequence)
    (journal : FaultJournal) (front : Front base start event.underlyingSequence journal.log)
    (durable : journal.records = base ++ [.command event.envelope]) :
    Behind base start event (journal.append (.event event)).2.log ∧
      ((journal.append (.event event)).1 = .ok () →
        (journal.append (.event event)).2.records = base ++ event.pair ∧
          (journal.append (.event event)).2.log.inFlight ⊆ journal.log.inFlight) := by
  have still : (LateLog.settle key journal.log journal.turn.before).records = base ++ [.command event.envelope] :=
    (front.settle_records_of_stray grounded _ rfl durable).trans durable
  have free : key (.event event) ∉ (LateLog.settle key journal.log journal.turn.before).records.map key := by
    rw [still, List.map_append, List.mem_append, key_event]
    exact not_or.2 ⟨grounded.key_free _, by simp⟩
  have kept := LateLog.settle_inFlight_subset key journal.log journal.turn.before
  obtain ⟨accepted, grown, flying⟩ := attempt_event free journal.turn.fault
  have attempted : Behind base start event
      (attempt (LateLog.settle key journal.log journal.turn.before) (.event event) journal.turn.fault).2 := by
    refine ⟨grown.imp (·.trans still) fun same => ?_, fun record flies => ?_⟩
    · simp [same, still, VenueEvent.pair]
    · exact (flying record flies).imp_left fun old => front.flying record (kept old)
  refine ⟨attempted.settle grounded _, fun ok => ?_⟩
  have written := accepted ok
  have full : (attempt (LateLog.settle key journal.log journal.turn.before) (.event event)
      journal.turn.fault).2.records = base ++ event.pair := by
    simp [written, still, VenueEvent.pair]
  refine ⟨attempted.settle_records_of_pair grounded full _, ?_⟩
  intro record flies
  have early : record ∈ (attempt (LateLog.settle key journal.log journal.turn.before) (.event event)
      journal.turn.fault).2.inFlight := LateLog.settle_inFlight_subset key _ journal.turn.after flies
  rw [written] at early
  exact kept early

/-- No write in flight ever lands late. -/
def Quiet (journal : FaultJournal) : Prop := ∀ turn ∈ journal.script, turn.before = [] ∧ turn.after = []

theorem Quiet.turn {journal : FaultJournal} (quiet : journal.Quiet) :
    journal.turn.before = [] ∧ journal.turn.after = [] := by
  unfold FaultJournal.turn
  cases script : journal.script with
  | nil => exact ⟨rfl, rfl⟩
  | cons turn rest => exact quiet turn (by simp [script])

theorem Quiet.append {journal last : FaultJournal} (quiet : journal.Quiet) {record : JournalRecord}
    {result : Except JournalError Unit} (appended : VenueJournal.append journal record = (result, last)) :
    last.Quiet := by
  have next : last = (journal.append record).2 := (congrArg Prod.snd appended).symm
  rw [next]
  exact fun turn member => quiet turn (List.mem_of_mem_tail member)

theorem Quiet.append_eq {journal : FaultJournal} (quiet : journal.Quiet) (record : JournalRecord) :
    journal.append record = ((attempt journal.log record journal.turn.fault).1,
      ⟨(attempt journal.log record journal.turn.fault).2, journal.script.tail⟩) := by
  obtain ⟨before, after⟩ := quiet.turn
  simp [FaultJournal.append, before, after]

/-- Without late landings a reused sequence leaves the journal as it was. -/
theorem Quiet.reuse {journal : FaultJournal} (quiet : journal.Quiet) {command : JournalCommand}
    (free : key (.command command) ∉ journal.records.map key)
    (reuse : (writeAheadCommand journal command.sequence (.command command)).1 = .reuse) :
    (writeAheadCommand journal command.sequence (.command command)).2.records = journal.records := by
  have written : appendContract journal.log.records (.command command) =
      (.ok (), journal.log.records ++ [.command command]) := appendContract_of_free free
  have attempted := quiet.append_eq (.command command)
  have unconfirmed : (journal.append (.command command)).1 ≠ .ok () ∧
      ∀ detail, (journal.append (.command command)).1 = .error (.ambiguous detail) →
        (journal.append (.command command)).2.contains command.sequence .command = false :=
    writeAheadCommand_reuse reuse
  rw [writeAheadCommand_journal]
  change (journal.append (.command command)).2.records = _
  rw [attempted] at unconfirmed ⊢
  match fault : journal.turn.fault with
  | .none => exact absurd (by simp [attempt, fault, written]) unconfirmed.1
  | .appendFailed _ => simp [attempt, FaultJournal.records]
  | .resourceLimit .. => simp [attempt, FaultJournal.records]
  | .ambiguous detail true =>
    -- the record has landed, so the read-back finds it
    have absent := unconfirmed.2 detail (by simp [attempt, fault])
    have durable : .command command ∈ FaultJournal.records
        ⟨(attempt journal.log (.command command) journal.turn.fault).2, journal.script.tail⟩ := by
      simp [FaultJournal.records, attempt, fault, written]
    exact absurd (absent.symm.trans (contains_of_mem durable)) (by simp)
  | .ambiguous _ false => simp [attempt, FaultJournal.records]

/-- Without late landings an ambiguous append at a free key has no rival. -/
theorem Quiet.rivalFree {journal : FaultJournal} (quiet : journal.Quiet) {command : JournalCommand}
    (free : key (.command command) ∉ journal.records.map key) : journal.RivalFree command := by
  obtain ⟨before, after⟩ := quiet.turn
  intro rival contends place
  have durable : rival ∈ journal.records := by
    unfold contenders at contends
    rw [before, after] at contends
    split at contends <;> simp_all [LateLog.picked]
  exact absurd (List.mem_map.2 ⟨rival, durable, place⟩) free

end Fauxchange.Exchange.FaultJournal
