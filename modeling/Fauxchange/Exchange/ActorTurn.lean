import Fauxchange.Exchange.Reexecution

/-! What one turn of the actor can do, said once, and the runs that follow from it. -/

namespace Fauxchange.Exchange.UnderlyingActor

theorem advance_executor {J E F : Type} (actor : UnderlyingActor J E F) :
    actor.advance.executor = actor.executor := by
  unfold advance
  split <;> rfl

variable {J E F : Type} [VenueJournal J] [CommandExecutor E] [FanOut F]

/-- The envelope the write-ahead append carries. -/
def envelope (actor : UnderlyingActor J E F) (input : Submission) : JournalCommand :=
  ⟨actor.nextSequence, input.venueTs, input.command⟩

/-- The event the turn derives, and the executor after it. -/
def derived (actor : UnderlyingActor J E F) (input : Submission) : VenueEvent × E :=
  deriveEvent actor.underlying actor.lineageId actor.executor (actor.envelope input)

def ahead (actor : UnderlyingActor J E F) (input : Submission) : WriteAhead × J :=
  writeAheadCommand actor.journal actor.nextSequence (actor.commandRecord input)

/-- The ways a turn can end. -/
inductive Turn (actor : UnderlyingActor J E F) (input : Submission) :
    Except VenueError Receipt → UnderlyingActor J E F → Prop where
  | refused (reason : SealReason) (closed : actor.sealed = some reason) :
      Turn actor input (.error reason.asError) actor
  | reused (journal : J) (opened : actor.sealed = none) (ahead : actor.ahead input = (.reuse, journal)) :
      Turn actor input (.error .journalUnavailable) { actor with journal := journal }
  | eventLost (journal last : J) (error : JournalError) (opened : actor.sealed = none)
      (ahead : actor.ahead input = (.committed, journal))
      (lost : VenueJournal.append journal (.event (actor.derived input).1) = (.error error, last)) :
      Turn actor input (.error .journalUnavailable)
        { actor with journal := last, executor := (actor.derived input).2, sealed := some .journalUnavailable }
  | projectionFailed (journal last : J) (error : FanOutSealed) (fanOut : F) (opened : actor.sealed = none)
      (ahead : actor.ahead input = (.committed, journal))
      (stored : VenueJournal.append journal (.event (actor.derived input).1) = (.ok (), last))
      (failed : FanOut.emit actor.fanOut (actor.derived input).1 = (.error error, fanOut)) :
      Turn actor input (.error .journalUnavailable)
        { ({ actor with journal := last, executor := (actor.derived input).2 }.publish
            (actor.derived input).1) with fanOut := fanOut, sealed := some .projectionFailed }
  | committed (journal last : J) (fanOut : F) (opened : actor.sealed = none)
      (ahead : actor.ahead input = (.committed, journal))
      (stored : VenueJournal.append journal (.event (actor.derived input).1) = (.ok (), last))
      (emitted : FanOut.emit actor.fanOut (actor.derived input).1 = (.ok (), fanOut)) :
      Turn actor input
        (.ok (Receipt.committed actor.nextSequence input.venueTs (actor.derived input).1.outcome))
        { ({ actor with journal := last, executor := (actor.derived input).2 }.publish
            (actor.derived input).1) with fanOut := fanOut }.advance

theorem handle_turn (actor : UnderlyingActor J E F) (input : Submission) :
    Turn actor input (actor.handle input).1 (actor.handle input).2 := by
  unfold handle
  split
  next reason closed => exact .refused reason closed
  next opened =>
    split
    next journal reuse => exact .reused journal opened reuse
    next journal commit =>
      dsimp only
      split
      next error last lost => exact .eventLost journal last error opened commit lost
      next last stored =>
        split
        next error fanOut failed => exact .projectionFailed journal last error fanOut opened commit stored failed
        next fanOut emitted => exact .committed journal last fanOut opened commit stored emitted

/-- A turn runs the executor exactly on a committed write-ahead. -/
theorem handle_executor (actor : UnderlyingActor J E F) (input : Submission) :
    (actor.handle input).2.executor = actor.executor ∨
      actor.sealed = none ∧ (actor.ahead input).1 = .committed ∧
        (actor.handle input).2.executor = (actor.derived input).2 := by
  generalize result : actor.handle input = reply
  have turn := actor.handle_turn input
  rw [result] at turn
  obtain ⟨reply, last⟩ := reply
  cases turn with
  | refused => exact Or.inl rfl
  | reused => exact Or.inl rfl
  | eventLost journal last error opened ahead lost => exact Or.inr ⟨opened, by rw [ahead], rfl⟩
  | projectionFailed journal last error fanOut opened ahead stored failed =>
    exact Or.inr ⟨opened, by rw [ahead], rfl⟩
  | committed journal last fanOut opened ahead stored emitted =>
    exact Or.inr ⟨opened, by rw [ahead], advance_executor _⟩

theorem run_cons (actor : UnderlyingActor J E F) (input : Submission) (rest : List Submission) :
    actor.run (input :: rest) =
      ((actor.handle input).1 :: ((actor.handle input).2.run rest).1, ((actor.handle input).2.run rest).2) := rfl

theorem run_append (actor : UnderlyingActor J E F) (early late : List Submission) :
    actor.run (early ++ late) =
      ((actor.run early).1 ++ ((actor.run early).2.run late).1, ((actor.run early).2.run late).2) := by
  induction early generalizing actor with
  | nil => rfl
  | cons input rest ih => simp [run_cons, ih]

/-- A sealed actor refuses every further command and changes nothing. -/
theorem run_sealed (actor : UnderlyingActor J E F) (closed : actor.sealed ≠ none) (inputs : List Submission) :
    (actor.run inputs).2 = actor := by
  induction inputs with
  | nil => rfl
  | cons input rest ih =>
    have same : (actor.handle input).2 = actor := by
      obtain ⟨reason, sealing⟩ := Option.ne_none_iff_exists'.1 closed
      unfold handle
      rw [sealing]
    rw [run_cons, same]
    exact ih

end Fauxchange.Exchange.UnderlyingActor
