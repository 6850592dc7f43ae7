import Fauxchange.Exchange.ActorRuns
import Fauxchange.Fix.OrderFlow
import Fauxchange.Lib.Mailbox

/-! The actor of one underlying behind its mailbox. Whatever its handles submit, and whenever the owner shuts it down, its
turns are those of one sequential run of the commands that its mailbox took, in the order it took them. -/

namespace Fauxchange.Venue
open Lib
open Exchange hiding VenueError
open Fauxchange.Fix (VenueError)

/-- What an actor reads back of its journal for a snapshot. -/
class JournalReads (J : Type) where
  readFrom : J → Nat → Except JournalError (List JournalRecord)
  lastSequence : J → Option Nat

instance : JournalReads FaultJournal where
  readFrom journal first := .ok (Exchange.readFrom journal.records first)
  lastSequence journal := (journal.records.map JournalRecord.sequence).max?

structure JournalSnapshot where
  lastSequence : Option Nat
  records : List JournalRecord
  deriving DecidableEq, Repr

inductive ActorMessage where
  | command (command : VenueCommand)
  | snapshot
  deriving DecidableEq, Repr

inductive ActorReply where
  | command (result : Except VenueError Receipt)
  | snapshot (result : Except VenueError JournalSnapshot)
  deriving DecidableEq, Repr

def rejectShuttingDown : ActorMessage → ActorReply
  | .command _ => .command (.error .shuttingDown)
  | .snapshot => .snapshot (.error .shuttingDown)

/-- A handle's error for a message that the mailbox did not take. -/
def stoppedError : TurnedAway → VenueError
  | .full => .rateLimited
  | .closed cancelled => if cancelled then .shuttingDown else .journalUnavailable

section Mailbox
variable {J E F : Type} [VenueJournal J] [JournalReads J] [CommandExecutor E] [FanOut F]

/-- The journal as a snapshot shows it; a read that fails is no empty journal. -/
def journalSnapshot (actor : UnderlyingActor J E F) : Except VenueError JournalSnapshot :=
  match JournalReads.readFrom actor.journal 0 with
  | .ok records => .ok ⟨JournalReads.lastSequence actor.journal, records⟩
  | .error _ => .error .journalUnavailable

/-- One message of the mailbox. A command's turn reads the venue clock. -/
def process (actor : UnderlyingActor J E F) (venueTs : Nat) : ActorMessage → ActorReply × UnderlyingActor J E F
  | .command command =>
    let turned := actor.handle ⟨venueTs, command⟩
    (.command (turned.1.mapError VenueError.ofSequenced), turned.2)
  | .snapshot => (.snapshot (journalSnapshot actor), actor)

/-- The capacity is at least one. -/
def actorMailbox (J E F : Type) [VenueJournal J] [JournalReads J] [CommandExecutor E] [FanOut F] (mailboxCapacity : Nat) :
    MailboxServer (UnderlyingActor J E F) Nat ActorMessage ActorReply where
  turn := process
  refuse := rejectShuttingDown
  capacity := max mailboxCapacity 1

/-- The turns among the messages that were served. -/
def submissions (served : List (Nat × ActorMessage)) : List Submission :=
  served.filterMap fun
    | (venueTs, .command command) => some ⟨venueTs, command⟩
    | _ => none

/-- How the callers of a mailbox find it: each command is answered by its turn after the turns of the commands before it, as
if no one else had been there, each snapshot shows the journal that these turns left, and a message that a shutdown came
before is refused. -/
structure Serialized (actor : UnderlyingActor J E F) (mailboxCapacity : Nat)
    (box : Mailbox (UnderlyingActor J E F) ActorMessage ActorReply) (served : List (Nat × ActorMessage)) (refused : List ActorMessage) :
    Prop where
  accepted : box.accepted = served.map Prod.snd ++ refused ++ box.waiting
  turns : box.state = (actor.run (submissions served)).2
  commands : ∀ before venueTs command after, served = before ++ (venueTs, .command command) :: after →
    box.answers[before.length]? =
      some (.command (((actor.run (submissions before)).2.handle ⟨venueTs, command⟩).1.mapError VenueError.ofSequenced))
  snapshots : ∀ before venueTs after, served = before ++ (venueTs, .snapshot) :: after →
    box.answers[before.length]? = some (.snapshot (journalSnapshot (actor.run (submissions before)).2))
  refusals : box.answers.drop served.length = refused.map rejectShuttingDown
  refusing : refused ≠ [] → box.cancelled = true
  room : box.queue.length ≤ max mailboxCapacity 1
  away : ∀ entry ∈ box.turnedAway, stoppedError entry.2 = .rateLimited ∨ stoppedError entry.2 = .shuttingDown

/-- Between the snapshots the actor takes the turns of its commands. -/
theorem serve_run (mailboxCapacity : Nat) (actor : UnderlyingActor J E F) (served : List (Nat × ActorMessage)) :
    ((actorMailbox J E F mailboxCapacity).serve actor served).2 = (actor.run (submissions served)).2 := by
  induction served generalizing actor with
  | nil => rfl
  | cons entry rest ih =>
    obtain ⟨venueTs, message⟩ := entry
    cases message with
    | snapshot => exact ih actor
    | command command => exact ih (actor.handle ⟨venueTs, command⟩).2

variable {mailboxCapacity : Nat} {actor : UnderlyingActor J E F} {box : Mailbox (UnderlyingActor J E F) ActorMessage ActorReply}
  {served : List (Nat × ActorMessage)} {refused : List ActorMessage}

theorem Serialized.of_linearized (linear : (actorMailbox J E F mailboxCapacity).Linearized actor box served refused) :
    Serialized actor mailboxCapacity box served refused := by
  have place (before : List (Nat × ActorMessage)) (venueTs : Nat) (message : ActorMessage) (after : List (Nat × ActorMessage))
      (split : served = before ++ (venueTs, message) :: after) :
      box.answers[before.length]? = some (process (actor.run (submissions before)).2 venueTs message).1 := by
    have within : before.length < ((actorMailbox J E F mailboxCapacity).serve actor served).1.length := by
      rw [MailboxServer.serve_length, split, List.length_append, List.length_cons]
      omega
    rw [linear.answers, List.getElem?_append_left within, split, MailboxServer.serve_at, serve_run]
    rfl
  refine ⟨linear.accepted, linear.state.trans (serve_run mailboxCapacity actor served), ?_, ?_, ?_, linear.refusing, linear.room, ?_⟩
  · intro before venueTs command after split
    exact place before venueTs (.command command) after split
  · intro before venueTs after split
    exact place before venueTs .snapshot after split
  · rw [linear.answers, List.drop_append_of_le_length (by rw [MailboxServer.serve_length]), List.drop_eq_nil_of_le
      (by rw [MailboxServer.serve_length])]
    rfl
  · intro entry member
    rcases linear.away entry member with full | closed
    · rw [full]
      exact Or.inl rfl
    · rw [closed]
      exact Or.inr rfl

/-- In every interleaving of submissions, snapshots and a shutdown with the loop of the actor, the mailbox answers as one
sequential run of the commands that it took. -/
theorem mailbox_serialized {steps : List (MailboxStep Nat ActorMessage)}
    (ran : runFrom (actorMailbox J E F mailboxCapacity).step (.opened actor) steps = some box) :
    ∃ served refused, Serialized actor mailboxCapacity box served refused := by
  obtain ⟨served, refused, linear⟩ := MailboxServer.Linearized.run ran
  exact ⟨served, refused, .of_linearized linear⟩

end Mailbox

/-! A shutdown between two clock ticks: the first has its turn, the second is in the hand of the loop, and a snapshot waits. -/

def shutdownSteps : List (MailboxStep Nat ActorMessage) :=
  [.send (.command (.clock 1)), .send (.command (.clock 2)), .send .snapshot, .receive, .turn 7, .receive, .cancel]

def shutdownActor : FaultActor PlaceholderExecutor := freshOrigin.actor [] [] 0 none

def shutdownBox : Mailbox (FaultActor PlaceholderExecutor) ActorMessage ActorReply :=
  (runFrom (actorMailbox _ _ _ 4).step (.opened shutdownActor) shutdownSteps).getD (.opened shutdownActor)

theorem shutdownBox_run : runFrom (actorMailbox _ _ _ 4).step (.opened shutdownActor) shutdownSteps = some shutdownBox := by
  have finished : (runFrom (actorMailbox _ _ _ 4).step (.opened shutdownActor) shutdownSteps).isSome = true := by decide +kernel
  rw [shutdownBox, ← Option.get_eq_getD _ (h := finished), Option.some_get]

theorem shutdown_serialized : ∃ served refused, Serialized shutdownActor 4 shutdownBox served refused :=
  mailbox_serialized shutdownBox_run

end Fauxchange.Venue
