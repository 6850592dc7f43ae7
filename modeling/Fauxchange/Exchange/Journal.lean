import Fauxchange.Exchange.Envelope
import Fauxchange.Lib.LateLog

/-! The journal contract: one record for each `(sequence, kind)`, first writer wins, a differing
re-append is a conflict. `FaultJournal` drives that contract through a script of append faults. -/

namespace Fauxchange.Exchange
open Lib

inductive RecordKind where
  | command
  | event
  | epoch
  deriving DecidableEq, Repr

/-- The epoch marker of a snapshot restore. -/
structure SnapshotRestored where
  schema : String
  underlyingSequence : Nat
  venueTs : Nat
  snapshotId : String
  epoch : Nat
  lineageId : LineageId
  deriving DecidableEq, Repr

def SnapshotRestored.new (sequence venueTs : Nat) (snapshotId : String) (epoch : Nat)
    (lineageId : LineageId) : SnapshotRestored :=
  ⟨venueEnvelopeSchema, sequence, venueTs, snapshotId, epoch, lineageId⟩

/-- The write-ahead command envelope. -/
structure JournalCommand where
  sequence : Nat
  venueTs : Nat
  command : VenueCommand
  deriving DecidableEq, Repr

inductive JournalRecord where
  | command (command : JournalCommand)
  | event (event : VenueEvent)
  | epoch (marker : SnapshotRestored)
  deriving DecidableEq, Repr

namespace JournalRecord

def sequence : JournalRecord → Nat
  | .command stamped => stamped.sequence
  | .event stored => stored.underlyingSequence
  | .epoch marker => marker.underlyingSequence

def kind : JournalRecord → RecordKind
  | .command _ => .command
  | .event _ => .event
  | .epoch _ => .epoch

/-- The uniqueness key of the stream. -/
def key (record : JournalRecord) : Nat × RecordKind := (record.sequence, record.kind)

def asCommand? : JournalRecord → Option JournalCommand
  | .command stamped => some stamped
  | _ => none

def asEvent? : JournalRecord → Option VenueEvent
  | .event stored => some stored
  | _ => none

@[simp] theorem key_command (stamped : JournalCommand) :
    key (.command stamped) = (stamped.sequence, .command) := rfl

@[simp] theorem key_event (stored : VenueEvent) :
    key (.event stored) = (stored.underlyingSequence, .event) := rfl

@[simp] theorem key_epoch (marker : SnapshotRestored) :
    key (.epoch marker) = (marker.underlyingSequence, .epoch) := rfl

theorem asCommand?_eq_some {record : JournalRecord} {stamped : JournalCommand} :
    record.asCommand? = some stamped ↔ record = .command stamped := by
  cases record <;> simp [asCommand?]

theorem asEvent?_eq_some {record : JournalRecord} {stored : VenueEvent} :
    record.asEvent? = some stored ↔ record = .event stored := by
  cases record <;> simp [asEvent?]

end JournalRecord

inductive JournalError where
  | appendFailed (detail : String)
  | ambiguous (detail : String)
  | conflict (sequence : Nat) (kind : RecordKind)
  | corruption (underlying : String) (sequence : Nat)
  | schemaTooNew (found : String)
  | backend (operation : String)
  | resourceLimit (limit : String) (found ceiling : Nat)
  | configRejected (detail : String)
  | priceOutOfBand (detail : String)
  deriving DecidableEq, Repr

def maxJournalRecordBytes : Nat := 2 * 1024 * 1024

/-- The ceiling on a record. The estimate that spares the serialization of a small record never falls below its
length. -/
def checkRecordSize (serializedLen : JournalRecord → Nat) (record : JournalRecord) : Except JournalError Unit :=
  if maxJournalRecordBytes < serializedLen record then
    .error (.resourceLimit "record_bytes" (serializedLen record) maxJournalRecordBytes)
  else .ok ()

/-- The part of the `VenueJournal` seam that the single writer drives. -/
class VenueJournal (J : Type) where
  append : J → JournalRecord → Except JournalError Unit × J
  contains : J → Nat → RecordKind → Bool

/-- The in-memory store's append: an identical re-append is a no-op, a differing one a conflict. -/
def appendContract (records : List JournalRecord) (record : JournalRecord) :
    Except JournalError Unit × List JournalRecord :=
  match records.find? (fun existing => existing.key = record.key) with
  | some existing =>
    if existing = record then (.ok (), records)
    else (.error (.conflict record.sequence record.kind), records)
  | none => (.ok (), records ++ [record])

/-- Every record at a sequence or later, in append order. -/
def readFrom (records : List JournalRecord) (first : Nat) : List JournalRecord :=
  records.filter (fun record => first ≤ record.sequence)

/-- How one append fails. An ambiguous append that did not land stays in flight. -/
inductive AppendFault where
  | none
  | appendFailed (detail : String)
  | resourceLimit (limit : String) (found ceiling : Nat)
  | ambiguous (detail : String) (landed : Bool)
  deriving DecidableEq, Repr

/-- One append of the script: the in-flight writes that become durable before it, its fault, and
those that become durable between it and the read-back. -/
structure AppendTurn where
  before : List Nat
  fault : AppendFault
  after : List Nat
  deriving DecidableEq, Repr

def AppendTurn.quiet (fault : AppendFault) : AppendTurn := ⟨[], fault, []⟩

/-- A journal that honours the contract under a script of faults; past its script it never fails. -/
structure FaultJournal where
  log : LateLog JournalRecord
  script : List AppendTurn

namespace FaultJournal

def records (journal : FaultJournal) : List JournalRecord := journal.log.records

def turn (journal : FaultJournal) : AppendTurn := journal.script.headD (.quiet .none)

def attempt (log : LateLog JournalRecord) (record : JournalRecord) :
    AppendFault → Except JournalError Unit × LateLog JournalRecord
  | .none =>
    let (result, records) := appendContract log.records record
    (result, { log with records := records })
  | .appendFailed detail => (.error (.appendFailed detail), log)
  | .resourceLimit limit found ceiling => (.error (.resourceLimit limit found ceiling), log)
  | .ambiguous detail true =>
    (.error (.ambiguous detail), { log with records := (appendContract log.records record).2 })
  | .ambiguous detail false =>
    (.error (.ambiguous detail), { log with inFlight := log.inFlight ++ [record] })

def append (journal : FaultJournal) (record : JournalRecord) : Except JournalError Unit × FaultJournal :=
  let turn := journal.turn
  let (result, log) := attempt (LateLog.settle JournalRecord.key journal.log turn.before) record turn.fault
  (result, ⟨LateLog.settle JournalRecord.key log turn.after, journal.script.tail⟩)

def contains (journal : FaultJournal) (sequence : Nat) (kind : RecordKind) : Bool :=
  (readFrom journal.records sequence).any (fun record => record.sequence = sequence ∧ record.kind = kind)

instance : VenueJournal FaultJournal where
  append := append
  contains := contains

end FaultJournal

theorem FaultJournal.exists_of_contains {journal : FaultJournal} {sequence : Nat} {kind : RecordKind}
    (found : journal.contains sequence kind = true) :
    ∃ record ∈ journal.records, record.key = (sequence, kind) := by
  obtain ⟨record, member, same⟩ := List.any_eq_true.1 found
  have place := of_decide_eq_true same
  exact ⟨record, (List.mem_filter.1 member).1, Prod.ext place.1 place.2⟩

theorem FaultJournal.contains_of_mem {journal : FaultJournal} {record : JournalRecord}
    (durable : record ∈ journal.records) : journal.contains record.sequence record.kind = true :=
  List.any_eq_true.2 ⟨record, List.mem_filter.2 ⟨durable, by simp⟩, by simp⟩

theorem appendContract_of_free {records : List JournalRecord} {record : JournalRecord}
    (free : record.key ∉ records.map JournalRecord.key) :
    appendContract records record = (.ok (), records ++ [record]) := by
  have absent : records.find? (fun existing => existing.key = record.key) = none := by
    simp only [List.find?_eq_none, decide_eq_true_eq]
    exact fun existing member same => free (List.mem_map.2 ⟨existing, member, same⟩)
  simp [appendContract, absent]

/-- The records after a contract append are those of the first-writer-wins log. -/
theorem appendContract_records (records : List JournalRecord) (record : JournalRecord) :
    (appendContract records record).2 = LateLog.write JournalRecord.key records record := by
  by_cases free : record.key ∈ records.map JournalRecord.key
  · rw [LateLog.write_of_taken _ free]
    obtain ⟨existing, member, same⟩ := List.mem_map.1 free
    unfold appendContract
    split
    · split <;> rfl
    next absent =>
      simp only [List.find?_eq_none, decide_eq_true_eq] at absent
      exact absurd same (absent existing member)
  · rw [LateLog.write_of_free _ free, appendContract_of_free free]

/-- A contract append that succeeds leaves its own record durable. -/
theorem appendContract_ok {records : List JournalRecord} {record : JournalRecord}
    (accepted : (appendContract records record).1 = .ok ()) :
    record ∈ (appendContract records record).2 := by
  unfold appendContract at accepted ⊢
  split
  next existing found =>
    split
    next same => exact same ▸ List.mem_of_find?_eq_some found
    next different => simp [found, different] at accepted
  next absent => simp

end Fauxchange.Exchange
