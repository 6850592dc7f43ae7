import Fauxchange.Exchange.ClOrdIdIndex
import Fauxchange.Exchange.Journal

/-! The single-writer actor of one underlying: write-ahead the command, execute it, append the paired
event, fan out, advance. A turn reads the venue clock once; the reading is an argument here. -/

namespace Fauxchange.Exchange

structure ExecutionContext where
  underlying : String
  lineageId : LineageId
  sequence : Nat
  venueTs : Nat
  command : VenueCommand
  deriving DecidableEq, Repr

class CommandExecutor (E : Type) where
  execute : E → ExecutionContext → VenueOutcome × E

/-- The executor of a venue whose matching is not wired. -/
structure PlaceholderExecutor where

instance : CommandExecutor PlaceholderExecutor where
  execute executor _ := (.rejected .internal "matching not wired yet (pending #007)", executor)

structure FanOutSealed where
  projection : String
  detail : String
  deriving DecidableEq, Repr

class FanOut (F : Type) where
  emit : F → VenueEvent → Except FanOutSealed Unit × F

/-- The errors a turn of the actor or a submission returns. -/
inductive VenueError where
  | sequenceExhausted
  | journalUnavailable
  | invalidOrder (detail : String)
  | notFound (detail : String)
  | rateLimited
  deriving DecidableEq, Repr

structure FanoutSummary where
  okCount : Nat
  total : Nat
  deriving DecidableEq, Repr

structure Receipt where
  underlyingSequence : Nat
  venueTs : Nat
  outcome : Option VenueOutcome
  fanout : Option FanoutSummary
  deriving DecidableEq, Repr

def Receipt.committed (sequence venueTs : Nat) (outcome : VenueOutcome) : Receipt :=
  ⟨sequence, venueTs, some outcome, none⟩

def Receipt.control (sequence venueTs : Nat) : Receipt := ⟨sequence, venueTs, none, none⟩

inductive SealReason where
  | sequenceExhausted
  | journalUnavailable
  | projectionFailed
  deriving DecidableEq, Repr

def SealReason.asError : SealReason → VenueError
  | .sequenceExhausted => .sequenceExhausted
  | .journalUnavailable => .journalUnavailable
  | .projectionFailed => .journalUnavailable

inductive WriteAhead where
  | committed
  | reuse
  deriving DecidableEq, Repr

structure UnderlyingActor (J E F : Type) where
  underlying : String
  lineageId : LineageId
  journal : J
  executor : E
  fanOut : F
  nextSequence : Nat
  epoch : Nat
  sealed : Option SealReason
  clordidIndex : Option ClOrdIdIndex

/-- One submitted command with the clock reading of its turn. -/
structure Submission where
  venueTs : Nat
  command : VenueCommand
  deriving DecidableEq, Repr

section Turn
variable {J E F : Type} [VenueJournal J] [CommandExecutor E] [FanOut F]

/-- An ambiguous append is resolved by a read-back of the durable tail; every other failure reuses
the sequence. -/
def writeAheadCommand (journal : J) (sequence : Nat) (record : JournalRecord) : WriteAhead × J :=
  match VenueJournal.append journal record with
  | (.ok (), journal) => (.committed, journal)
  | (.error (.ambiguous _), journal) =>
    if VenueJournal.contains journal sequence .command then (.committed, journal) else (.reuse, journal)
  | (.error _, journal) => (.reuse, journal)

theorem writeAheadCommand_journal (journal : J) (sequence : Nat) (record : JournalRecord) :
    (writeAheadCommand journal sequence record).2 = (VenueJournal.append journal record).2 := by
  unfold writeAheadCommand
  split
  next same => rw [same]
  next same => rw [same]; split <;> rfl
  next same => rw [same]

/-- A write-ahead commits on a confirmed append, or on an ambiguous one whose key is read back. -/
theorem writeAheadCommand_committed {journal : J} {sequence : Nat} {record : JournalRecord}
    (committed : (writeAheadCommand journal sequence record).1 = .committed) :
    (VenueJournal.append journal record).1 = .ok () ∨
      (∃ detail, (VenueJournal.append journal record).1 = .error (.ambiguous detail)) ∧
        VenueJournal.contains (VenueJournal.append journal record).2 sequence .command = true := by
  unfold writeAheadCommand at committed
  split at committed
  next same => exact Or.inl (by rw [same])
  next detail last same =>
    rw [same]
    split at committed
    next found => exact Or.inr ⟨⟨detail, rfl⟩, found⟩
    next => cases committed
  next => cases committed

/-- A sequence is reused when nothing confirms the append, neither its answer nor the read-back. -/
theorem writeAheadCommand_reuse {journal : J} {sequence : Nat} {record : JournalRecord}
    (reuse : (writeAheadCommand journal sequence record).1 = .reuse) :
    (VenueJournal.append journal record).1 ≠ .ok () ∧
      ∀ detail, (VenueJournal.append journal record).1 = .error (.ambiguous detail) →
        VenueJournal.contains (VenueJournal.append journal record).2 sequence .command = false := by
  unfold writeAheadCommand at reuse
  split at reuse
  next => cases reuse
  next detail last same =>
    rw [same]
    split at reuse
    next => cases reuse
    next absent => exact ⟨by simp, fun _ _ => by simpa using absent⟩
  next error last known same =>
    rw [same]
    exact ⟨by simp, fun detail unknown => absurd (Except.error.inj unknown) (known detail)⟩

namespace UnderlyingActor

def commandRecord (actor : UnderlyingActor J E F) (input : Submission) : JournalRecord :=
  .command ⟨actor.nextSequence, input.venueTs, input.command⟩

def context (actor : UnderlyingActor J E F) (input : Submission) : ExecutionContext :=
  ⟨actor.underlying, actor.lineageId, actor.nextSequence, input.venueTs, input.command⟩

/-- The post-journal publication of the correlation. -/
def publish (actor : UnderlyingActor J E F) (event : VenueEvent) : UnderlyingActor J E F :=
  { actor with
    clordidIndex := actor.clordidIndex.map fun index =>
      applyCommittedCorrelation index event.underlyingSequence event.command event.outcome }

/-- The checked advance of the counter; exhaustion seals. -/
def advance (actor : UnderlyingActor J E F) : UnderlyingActor J E F :=
  match checkedNext actor.nextSequence with
  | some next => { actor with nextSequence := next }
  | none => { actor with sealed := some .sequenceExhausted }

/-- One sequenced turn. -/
def handle (actor : UnderlyingActor J E F) (input : Submission) :
    Except VenueError Receipt × UnderlyingActor J E F :=
  match actor.sealed with
  | some reason => (.error reason.asError, actor)
  | none =>
    match writeAheadCommand actor.journal actor.nextSequence (actor.commandRecord input) with
    | (.reuse, journal) => (.error .journalUnavailable, { actor with journal := journal })
    | (.committed, journal) =>
      let (outcome, executor) := CommandExecutor.execute actor.executor (actor.context input)
      let event := VenueEvent.new actor.nextSequence input.venueTs input.command outcome
      match VenueJournal.append journal (.event event) with
      | (.error _, journal) =>
        (.error .journalUnavailable,
          { actor with journal := journal, executor := executor, sealed := some .journalUnavailable })
      | (.ok (), journal) =>
        let actor := { actor with journal := journal, executor := executor }.publish event
        match FanOut.emit actor.fanOut event with
        | (.error _, fanOut) =>
          (.error .journalUnavailable, { actor with fanOut := fanOut, sealed := some .projectionFailed })
        | (.ok (), fanOut) =>
          (.ok (Receipt.committed event.underlyingSequence event.venueTs event.outcome),
            { actor with fanOut := fanOut }.advance)

/-- The turns of a run, with the replies in order. -/
def run (actor : UnderlyingActor J E F) : List Submission →
    List (Except VenueError Receipt) × UnderlyingActor J E F
  | [] => ([], actor)
  | input :: rest =>
    let (reply, next) := actor.handle input
    let (replies, last) := next.run rest
    (reply :: replies, last)

end UnderlyingActor
end Turn

end Fauxchange.Exchange
