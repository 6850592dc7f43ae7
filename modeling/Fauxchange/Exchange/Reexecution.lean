import Fauxchange.Exchange.Actor
import Mathlib.Data.List.Sort

/-! Re-execution of a journal by an arbitrary executor: the order of the commands, the stored events
and the events the commands derive. -/

namespace Fauxchange.Exchange

/-- The write-ahead commands in ascending sequence order; events and epoch markers are skipped. -/
def commandRecordsInOrder (records : List JournalRecord) : List JournalCommand :=
  (records.filterMap JournalRecord.asCommand?).insertionSort (fun left right => left.sequence ≤ right.sequence)

def storedEventAt (records : List JournalRecord) (sequence : Nat) : Option VenueEvent :=
  (records.filterMap JournalRecord.asEvent?).find? (fun event => event.underlyingSequence = sequence)

/-- The journaled commands and events at a sequence or later, in append order. -/
def commandsFrom (records : List JournalRecord) (first : Nat) : List JournalCommand :=
  (readFrom records first).filterMap JournalRecord.asCommand?

def eventsFrom (records : List JournalRecord) (first : Nat) : List VenueEvent :=
  (readFrom records first).filterMap JournalRecord.asEvent?

/-- The command journaled at a sequence. -/
def commandAt (records : List JournalRecord) (sequence : Nat) : Option JournalCommand :=
  (records.filterMap JournalRecord.asCommand?).find? (fun command => command.sequence = sequence)

/-- The command envelope an event is paired with. -/
def VenueEvent.envelope (event : VenueEvent) : JournalCommand :=
  ⟨event.underlyingSequence, event.venueTs, event.command⟩

def VenueEvent.pair (event : VenueEvent) : List JournalRecord := [.command event.envelope, .event event]

def JournalCommand.context (command : JournalCommand) (underlying : String) (lineage : LineageId) :
    ExecutionContext :=
  ⟨underlying, lineage, command.sequence, command.venueTs, command.command⟩

section Reexecute
variable {E : Type} [CommandExecutor E] (underlying : String) (lineage : LineageId)

/-- The event one command derives, and the executor after it. -/
def deriveEvent (executor : E) (command : JournalCommand) : VenueEvent × E :=
  let (outcome, executor) := CommandExecutor.execute executor (command.context underlying lineage)
  (VenueEvent.new command.sequence command.venueTs command.command outcome, executor)

def reexecute (executor : E) : List JournalCommand → List VenueEvent × E
  | [] => ([], executor)
  | command :: rest =>
    let (event, next) := deriveEvent underlying lineage executor command
    let (events, last) := reexecute next rest
    (event :: events, last)

@[simp] theorem deriveEvent_envelope (executor : E) (command : JournalCommand) :
    (deriveEvent underlying lineage executor command).1.envelope = command := rfl

theorem reexecute_append (executor : E) (early late : List JournalCommand) :
    reexecute underlying lineage executor (early ++ late) =
      ((reexecute underlying lineage executor early).1 ++
        (reexecute underlying lineage (reexecute underlying lineage executor early).2 late).1,
        (reexecute underlying lineage (reexecute underlying lineage executor early).2 late).2) := by
  induction early generalizing executor with
  | nil => rfl
  | cons command rest ih => simp [reexecute, ih]

/-- The derived events answer the commands one for one. -/
theorem reexecute_envelopes (executor : E) (commands : List JournalCommand) :
    (reexecute underlying lineage executor commands).1.map VenueEvent.envelope = commands := by
  induction commands generalizing executor with
  | nil => rfl
  | cons command rest ih => simp [reexecute, ih]

end Reexecute

theorem commandRecordsInOrder_of_sorted {records : List JournalRecord}
    (sorted : (records.filterMap JournalRecord.asCommand?).Pairwise
      (fun left right => left.sequence ≤ right.sequence)) :
    commandRecordsInOrder records = records.filterMap JournalRecord.asCommand? :=
  sorted.insertionSort_eq

/-- A search from a later start on finds the same command. -/
theorem commandAt_eq_find? (records : List JournalRecord) {first sequence : Nat} (late : first ≤ sequence) :
    commandAt records sequence =
      (commandsFrom records first).find? (fun command => command.sequence = sequence) := by
  unfold commandAt commandsFrom readFrom
  induction records with
  | nil => rfl
  | cons record rest ih =>
    by_cases kept : first ≤ record.sequence
    · rw [List.filter_cons_of_pos (by simpa using kept), List.filterMap_cons, List.filterMap_cons]
      cases record.asCommand? with
      | none => exact ih
      | some command => simp only [List.find?_cons, ih]
    · rw [List.filter_cons_of_neg (by simpa using kept), List.filterMap_cons]
      cases shape : record.asCommand? with
      | none => exact ih
      | some command =>
        rw [JournalRecord.asCommand?_eq_some] at shape
        have early : ¬ command.sequence = sequence := by
          intro same
          rw [shape] at kept
          exact kept (late.trans_eq same.symm)
        simp only [List.find?_cons, early, decide_false, ih]

@[simp] theorem filterMap_asCommand?_pairs (events : List VenueEvent) :
    (events.flatMap VenueEvent.pair).filterMap JournalRecord.asCommand? = events.map VenueEvent.envelope := by
  induction events with
  | nil => rfl
  | cons event rest ih => simp [VenueEvent.pair, List.filterMap_cons, JournalRecord.asCommand?, ih]

@[simp] theorem filterMap_asEvent?_pairs (events : List VenueEvent) :
    (events.flatMap VenueEvent.pair).filterMap JournalRecord.asEvent? = events := by
  induction events with
  | nil => rfl
  | cons event rest ih => simp [VenueEvent.pair, List.filterMap_cons, JournalRecord.asEvent?, ih]

end Fauxchange.Exchange
