import Fauxchange.Fix.Refused

/-! The frames of a session that are well framed but do not decode, and what they do to the frames after them. -/

namespace Fauxchange.Fix
open Exchange Lib Fallible FixSessionStore

/-- The number that a reject refers to. -/
def Frame.refSeqNum? : Frame → Option Nat
  | .message (.reject reject) => some reject.refSeqNum
  | .message (.businessMessageReject reject) => some reject.refSeqNum
  | _ => none

/-- Where a session is in its stream of consecutive numbers: the number of the next frame, and that of the first
frame since the last sequence reset that has not decoded. -/
structure StreamPlace where
  next : Nat
  undecoded : Option Nat
  deriving DecidableEq, Repr

namespace StreamPlace

/-- The first frame that does not decode is what a session keeps waiting for. -/
def expected (place : StreamPlace) : Nat := place.undecoded.getD place.next

def advance (place : StreamPlace) : SessionEvent → StreamPlace
  | .tick => place
  | .decodeError _ => ⟨place.next + 1, some place.expected⟩
  | .message (.sequenceReset _) => ⟨place.next + 1, none⟩
  | .message _ => ⟨place.next + 1, place.undecoded⟩

/-- The event is the next of the stream; a sequence reset announces the number after its own. -/
def Follows (place : StreamPlace) : SessionEvent → Prop
  | .message message => (headerOf message).msgSeqNum = place.next ∧
      ∀ reset, message = .sequenceReset reset → reset.newSeqNo = place.next + 1
  | _ => True

/-- What has not decoded lies behind. -/
def Behind (place : StreamPlace) : Prop := ∀ number ∈ place.undecoded, number < place.next

variable {place : StreamPlace} {event : SessionEvent}

theorem Behind.expected_le (behind : place.Behind) : place.expected ≤ place.next := by
  unfold expected
  cases undecoded : place.undecoded with
  | none => exact le_rfl
  | some number => exact (behind number undecoded).le

theorem Behind.expected_eq_iff (behind : place.Behind) : place.expected = place.next ↔ place.undecoded = none := by
  unfold expected
  cases undecoded : place.undecoded with
  | none => exact iff_of_true rfl rfl
  | some number => exact iff_of_false (behind number undecoded).ne (Option.some_ne_none number)

theorem Behind.advance (behind : place.Behind) (event : SessionEvent) : (place.advance event).Behind := by
  have kept : StreamPlace.Behind ⟨place.next + 1, place.undecoded⟩ :=
    fun number member => Nat.lt_succ_of_lt (behind number member)
  cases event with
  | tick => exact behind
  | decodeError error =>
    rintro number ⟨⟩
    exact Nat.lt_succ_of_le behind.expected_le
  | message message =>
    cases message with
    | sequenceReset reset => exact fun number member => nomatch member
    | _ => exact kept

/-- How a session answers the next event of its stream. A message closes the session (it is revoked, or logs out), or
moves the expectation; where an earlier frame has not decoded, it is answered by the request for everything from
that frame on. -/
def Answers (place : StreamPlace) (reaction : Reaction) (reached : Dispatch) : SessionEvent → Prop
  | .tick => reached.expected = place.expected
  | .decodeError _ => (∃ frame, reaction.frames = [frame] ∧ frame.refSeqNum? = some place.expected) ∧
      reached.expected = place.expected
  | .message (.sequenceReset _) => reaction.control = .close ∨ reached.expected = place.next + 1
  | .message _ => reaction.control = .close ∨
      match place.undecoded with
      | none => reached.expected = place.next + 1
      | some first => reached.expected = first ∧
          ∃ header later, reaction.frames = .message (.resendRequest ⟨header, first, 0⟩) :: later

/-- Where a session goes on, its expectation moves as its place does. -/
theorem Answers.expected {reaction : Reaction} {reached : Dispatch} (answers : place.Answers reaction reached event)
    (continued : reaction.control = .continued) : reached.expected = (place.advance event).expected := by
  have ordered : (reaction.control = .close ∨
      match place.undecoded with
      | none => reached.expected = place.next + 1
      | some first => reached.expected = first ∧
          ∃ header later, reaction.frames = .message (.resendRequest ⟨header, first, 0⟩) :: later) →
      reached.expected = StreamPlace.expected ⟨place.next + 1, place.undecoded⟩ := by
    rintro (closes | moved)
    · cases closes.symm.trans continued
    · unfold StreamPlace.expected
      revert moved
      cases place.undecoded with
      | none => exact id
      | some first => exact And.left
  cases event with
  | tick => exact answers
  | decodeError error => exact answers.2
  | message message =>
    cases message with
    | sequenceReset reset =>
      rcases answers with closes | moved
      · cases closes.symm.trans continued
      · exact moved
    | _ => exact ordered answers

end StreamPlace

section Resets
variable {key : SessionKey} {dispatch reached : Dispatch} {reaction : Reaction} {now : Nat}

theorem onStore_expected {α : Type} {operation : FixSessionStore → Except SessionStoreError α × FixSessionStore} {value : α}
    (finished : exec (onStore operation) dispatch = (.ok value, reached)) : reached.expected = dispatch.expected := by
  unfold onStore at finished
  rw [exec_transition] at finished
  split at finished
  next =>
    cases finished
    rfl
  next => cases finished

/-- A sequence reset that does not go back moves the expectation to the number that it announces. -/
theorem handleSequenceReset_expects {reset : SequenceReset} (bound : dispatch.fsm.key = some key)
    (forward : dispatch.expected ≤ reset.newSeqNo)
    (finished : exec (handleSequenceReset reset now) dispatch = (.ok reaction, reached)) :
    reached.expected = reset.newSeqNo := by
  unfold handleSequenceReset at finished
  rw [exec_get_bind, bound] at finished
  dsimp only at finished
  split at finished
  next gapFill =>
    rw [if_pos (show dispatch.fsm.counters.nextTargetSeq ≤ _ from forward), setFsm, exec_modify_bind] at finished
    obtain ⟨saved, middle, persisted, finished⟩ := exec_bind_eq_ok finished
    cases finished
    have left := leaveResend_quiet middle
    have kept : middle.expected = reset.newSeqNo := by
      unfold persistCounters at persisted
      rw [exec_get_bind] at persisted
      split at persisted
      next =>
        cases persisted
        rfl
      next => exact onStore_expected persisted
    exact (congrArg Standing.inbound left.standing).trans kept
  next administrative =>
    rw [setFsm, exec_modify_bind] at finished
    obtain ⟨saved, middle, journaled, finished⟩ := exec_bind_eq_ok finished
    cases finished
    have left := leaveResend_quiet middle
    exact (congrArg Standing.inbound left.standing).trans (onStore_expected journaled)

end Resets

section Answers
variable [Ironfix] {U : Upstream} {venue : AppState} {key : SessionKey} {message : DecodedMessage} {error : FixDecodeError}
  {dispatch reached : Dispatch} {reaction : Reaction} {now : Nat}

/-- A frame that does not decode is answered by one reject at the expected number, and is not counted. -/
theorem onDecodeError_rejects (serving : dispatch.fsm.phase.stage = 1)
    (finished : exec (onDecodeError venue error) dispatch = (.ok reaction, reached)) :
    (∃ frame, reaction.frames = [frame] ∧ frame.refSeqNum? = some dispatch.expected) ∧ reaction.control = .continued ∧
      reached.expected = dispatch.expected := by
  have same : reached.expected = dispatch.expected := by
    have yields : Yields (fun _ => True) Reaction.frames (onDecodeError venue error) := onDecodeError_yields
    have kept := yields.expected dispatch
    rw [finished] at kept
    exact kept
  have answered : exec (rejectDecodeError error venue.nowMs) dispatch = (.ok reaction, reached) := by
    unfold onDecodeError at finished
    rw [exec_get_bind] at finished
    revert serving finished
    cases dispatch.fsm.phase with
    | awaitingLogon => nofun
    | closing => nofun
    | active => exact fun _ finished => finished
    | awaitingResend => exact fun _ finished => finished
  suffices rejected : ∃ frame, reaction = .emit [frame] ∧ frame.refSeqNum? = some dispatch.expected by
    obtain ⟨frame, rfl, refers⟩ := rejected
    exact ⟨⟨frame, rfl, refers⟩, rfl, same⟩
  unfold rejectDecodeError at answered
  split at answered
  next reason refTag routed =>
    unfold sessionReject at answered
    rw [exec_get_bind] at answered
    obtain ⟨⟨header, rfl⟩, -⟩ := emitOne_builds answered
    exact ⟨_, rfl, rfl⟩
  next routed =>
    dsimp only at answered
    rw [exec_get_bind] at answered
    obtain ⟨⟨header, rfl⟩, -⟩ := emitOne_builds answered
    exact ⟨_, rfl, rfl⟩

theorem handleInSequence_past (past : dispatch.expected < (headerOf message).msgSeqNum)
    (finished : exec (handleInSequence message venue.nowMs >>= respond U venue) dispatch = (.ok reaction, reached)) :
    reached.expected = dispatch.expected ∧
      ∃ header, reaction = .emit [.message (.resendRequest ⟨header, dispatch.expected, 0⟩)] := by
  rw [handleInSequence_respond, if_pos (show dispatch.fsm.counters.nextTargetSeq < _ from past), setFsm, exec_modify_bind] at finished
  have yields : Yields (fun _ => True) Reaction.frames (emitOne venue.nowMs fun header =>
      .resendRequest ⟨header, dispatch.expected, 0⟩) := emitOne_yields fun _ => rfl
  have kept := yields.expected { dispatch with fsm := { dispatch.fsm with phase := .awaitingResend } }
  obtain ⟨⟨header, asked⟩, -⟩ := emitOne_builds finished
  refine ⟨?_, header, asked⟩
  rw [show exec (emitOne venue.nowMs fun header => .resendRequest ⟨header, dispatch.expected, 0⟩) _ = _ from finished] at kept
  exact kept

/-- A message past the expected number is answered by the request for everything from that number on, and is not
counted. -/
theorem onMessage_past (serving : dispatch.fsm.phase.stage = 1) (ordinary : ∀ reset, message ≠ .sequenceReset reset)
    (past : dispatch.expected < (headerOf message).msgSeqNum)
    (finished : exec (onMessage U venue message) dispatch = (.ok reaction, reached)) :
    reaction.control = .close ∨ reached.expected = dispatch.expected ∧
      ∃ header later, reaction.frames = .message (.resendRequest ⟨header, dispatch.expected, 0⟩) :: later := by
  refine (onMessage_serving serving finished).imp_right ?_
  rintro ⟨replied, middle, handled, -, same, later, frames⟩
  rw [answerHeard_ordinary ordinary] at handled
  have ahead : (dispatch.heard (headerOf message) venue.nowMs).expected < (headerOf message).msgSeqNum := past
  obtain ⟨kept, header, rfl⟩ := handleInSequence_past ahead handled
  exact ⟨same.trans kept, header, later, frames⟩

theorem onMessage_reset {reset : SequenceReset} (bound : dispatch.fsm.key = some key) (serving : dispatch.fsm.phase.stage = 1)
    (forward : dispatch.expected ≤ reset.newSeqNo)
    (finished : exec (onMessage U venue (.sequenceReset reset)) dispatch = (.ok reaction, reached)) :
    reaction.control = .close ∨ reached.expected = reset.newSeqNo := by
  refine (onMessage_serving serving finished).imp_right ?_
  rintro ⟨replied, middle, handled, -, same, -⟩
  have held : (dispatch.heard (headerOf (.sequenceReset reset)) venue.nowMs).fsm.key = some key := bound
  exact same.trans (handleSequenceReset_expects held forward handled)

/-- A closing session answers nothing. -/
theorem handle_closing {event : SessionEvent} (closing : dispatch.fsm.phase = .closing)
    (finished : exec (event.handle U venue) dispatch = (.ok reaction, reached)) : reaction.control = .close := by
  cases event with
  | message message =>
    rw [SessionEvent.handle, onMessage_closing closing] at finished
    cases finished
    rfl
  | decodeError error =>
    unfold SessionEvent.handle onDecodeError at finished
    rw [exec_get_bind, closing] at finished
    cases finished
    rfl
  | tick =>
    unfold SessionEvent.handle onTick SessionFsm.onTick at finished
    rw [exec_get_bind, bind_assoc, exec_get_bind, closing, pure_bind] at finished
    exact (appendMarketData_keeps finished).1

/-- A session whose expectation is that of its place in a stream answers the next event of the stream so. -/
theorem handle_answers {event : SessionEvent} {place : StreamPlace} (behind : place.Behind) (bound : dispatch.fsm.key = some key)
    (serving : dispatch.fsm.phase.stage = 1) (expects : dispatch.expected = place.expected) (follows : place.Follows event)
    (finished : exec (event.handle U venue) dispatch = (.ok reaction, reached)) : place.Answers reaction reached event := by
  cases event with
  | tick =>
    have yields : Yields (fun _ => True) Reaction.frames (onTick venue) := onTick_yields
    have kept := yields.expected dispatch
    rw [show exec (onTick venue) dispatch = _ from finished] at kept
    exact kept.trans expects
  | decodeError error =>
    obtain ⟨⟨frame, only, refers⟩, -, same⟩ := onDecodeError_rejects serving finished
    exact ⟨⟨frame, only, expects ▸ refers⟩, same.trans expects⟩
  | message message =>
    obtain ⟨numbered, announces⟩ := follows
    have ordered : (∀ reset, message ≠ .sequenceReset reset) → reaction.control = .close ∨
        match place.undecoded with
        | none => reached.expected = place.next + 1
        | some first => reached.expected = first ∧
            ∃ header later, reaction.frames = .message (.resendRequest ⟨header, first, 0⟩) :: later := by
      intro ordinary
      cases undecoded : place.undecoded with
      | none =>
        have waits : dispatch.expected = place.next := expects.trans (behind.expected_eq_iff.2 undecoded)
        have consumed := onMessage_consumes bound serving ordinary (numbered.trans waits.symm) finished
        exact consumed.imp_right fun moved => moved.trans (congrArg (· + 1) waits)
      | some first =>
        obtain rfl : dispatch.expected = first := by
          rw [expects, StreamPlace.expected, undecoded]
          rfl
        exact onMessage_past serving ordinary ((behind _ undecoded).trans_eq numbered.symm) finished
    cases message with
    | sequenceReset reset =>
      have announced : reset.newSeqNo = place.next + 1 := announces reset rfl
      have forward : dispatch.expected ≤ reset.newSeqNo := by
        rw [expects, announced]
        exact Nat.le_succ_of_le behind.expected_le
      exact (onMessage_reset bound serving forward finished).imp_right fun moved => moved.trans announced
    | _ => exact ordered nofun

end Answers

/-- The event that an action brings to a connection. -/
def AcceptorAction.event? (connection : Nat) : AcceptorAction → Option SessionEvent
  | .dispatch other event _ _ _ => if other = connection then some event else none
  | _ => none

/-- An acceptor with the place of one of its connections in the stream that it is brought. -/
structure StreamWatch where
  acceptor : Acceptor
  place : StreamPlace

namespace StreamWatch

def step [Ironfix] (U : Upstream) (connection : Nat) (watch : StreamWatch) (action : AcceptorAction) : Option StreamWatch :=
  (watch.acceptor.step U action).map fun next => ⟨next, ((action.event? connection).map watch.place.advance).getD watch.place⟩

/-- The connection is not accepted anew, and it is brought the next event of the stream. -/
def Streams (connection : Nat) (watch : StreamWatch) (action : AcceptorAction) : Prop :=
  (∀ peer now, action ≠ .accept connection peer now) ∧ ∀ event ∈ action.event? connection, watch.place.Follows event

/-- The session of the connection expects what its place in the stream says. -/
structure Stalls (connection : Nat) (watch : StreamWatch) : Prop where
  orderly : Orderly watch.acceptor
  behind : watch.place.Behind
  admitted : ∀ {session}, watch.acceptor.sessions connection = some session → session.fsm.phase.stage ≠ 0
  expects : ∀ {session}, watch.acceptor.sessions connection = some session → session.fsm.phase.stage = 1 →
    session.fsm.counters.nextTargetSeq = watch.place.expected

section Steps
variable [Ironfix] {U : Upstream} {connection : Nat} {acceptor next : Acceptor} {action : AcceptorAction}
  {after : VenueFixSession}

omit [Ironfix] in
theorem unload_session {result : Except Halt Reaction} {reached : Dispatch} {room : Nat}
    (present : (acceptor.unload connection room (result, reached)).sessions connection = some after) :
    ∃ reaction, result = .ok reaction ∧ reaction.control = .continued ∧ after = reached.toVenueFixSession := by
  change acceptor.seat connection (if outlives result room then some reached.toVenueFixSession else none) connection = _ at present
  rw [seat_self] at present
  split at present
  next live =>
    obtain ⟨reaction, rfl⟩ := outlives_ok live
    have kept := of_decide_eq_true live
    exact ⟨reaction, rfl, kept.1, (Option.some.inj present).symm⟩
  next => cases present

/-- The session of a connection that is not accepted anew is the one of before, or what an event has left. -/
theorem step_session (taken : acceptor.step U action = some next) (kept : ∀ peer now, action ≠ .accept connection peer now)
    (present : next.sessions connection = some after) :
    (action.event? connection = none ∧ acceptor.sessions connection = some after) ∨
      ∃ session event venue outages reaction reached, action.event? connection = some event ∧
        acceptor.sessions connection = some session ∧
        acceptor.outcome U session event venue outages = (.ok reaction, reached) ∧ reaction.control = .continued ∧
        after = reached.toVenueFixSession := by
  cases action with
  | accept other peer now =>
    have apart : connection ≠ other := fun same => kept peer now (by rw [same])
    cases seated : acceptor.sessions other with
    | some session => simp [Acceptor.step, seated] at taken
    | none =>
      simp only [Acceptor.step, seated, Option.some.injEq] at taken
      subst taken
      exact Or.inl ⟨rfl, (seat_of_ne _ apart).symm.trans present⟩
  | dispatch other event venue outages room =>
    cases seated : acceptor.sessions other with
    | none => simp [Acceptor.step, seated] at taken
    | some session =>
      simp only [Acceptor.step, seated, Option.some.injEq] at taken
      subst taken
      by_cases mine : other = connection
      · subst mine
        obtain ⟨reaction, answered, continued, rfl⟩ := unload_session present
        exact Or.inr ⟨session, event, venue, outages, reaction, _, if_pos rfl, seated, Prod.ext answered rfl, continued, rfl⟩
      · exact Or.inl ⟨if_neg mine, (seat_of_ne _ (Ne.symm mine)).symm.trans present⟩
  | disconnect other =>
    cases seated : acceptor.sessions other with
    | none => simp [Acceptor.step, seated] at taken
    | some session =>
      simp only [Acceptor.step, seated, Option.some.injEq] at taken
      subst taken
      by_cases mine : connection = other
      · subst mine
        cases (seat_self none).symm.trans present
      · exact Or.inl ⟨rfl, (seat_of_ne _ mine).symm.trans present⟩
  | crash =>
    cases taken
    cases present

/-- An event that the session of the connection outlives. -/
theorem Stalls.turned {watch : StreamWatch} {session : VenueFixSession} {event : SessionEvent} {venue : AppState}
    {outages : List (Option String)} {reaction : Reaction} {reached : Dispatch} (stalls : watch.Stalls connection)
    (seated : watch.acceptor.sessions connection = some session) (follows : watch.place.Follows event)
    (ran : watch.acceptor.outcome U session event venue outages = (.ok reaction, reached))
    (continued : reaction.control = .continued) :
    reached.fsm.phase.stage ≠ 0 ∧ reached.expected = (watch.place.advance event).expected := by
  have sitting := stalls.orderly.sitting seated
  have admitted := stalls.admitted seated
  have handled : exec (event.handle U venue) (watch.acceptor.load session outages) = (.ok reaction, reached) := ran
  have serving : session.fsm.phase.stage = 1 := by
    cases phase : session.fsm.phase with
    | awaitingLogon => exact absurd (by rw [phase]; rfl) admitted
    | active => rfl
    | awaitingResend => rfl
    | closing =>
      have closes : reaction.control = .close := by
        refine handle_closing ?_ handled
        exact phase
      cases closes.symm.trans continued
  obtain ⟨key, bound⟩ := sitting.serving serving
  have awaits : session.fsm.phase = .awaitingLogon → session.fsm.key = none := by
    intro waiting
    rw [waiting] at admitted
    exact absurd rfl admitted
  have reacted : Reacted event venue (watch.acceptor.load session outages) (.ok reaction : Except Halt Reaction) reached := by
    have all : Reacted event venue (watch.acceptor.load session outages) (watch.acceptor.outcome U session event venue outages).1
        (watch.acceptor.outcome U session event venue outages).2 := sitting.reacted
    rw [ran] at all
    exact all
  refine ⟨?_, ?_⟩
  · rcases reacted.leased awaits with ⟨-, -, -, same | closed⟩ | ⟨waiting, -⟩
    · exact fun early => admitted (same.symm.trans early)
    · rw [closed]
      nofun
    · exact absurd (congrArg SessionPhase.stage waiting) admitted
  · have held : (watch.acceptor.load session outages).fsm.key = some key := bound
    have answers : watch.place.Answers reaction reached event :=
      handle_answers stalls.behind held serving (stalls.expects seated serving) follows handled
    exact answers.expected continued

theorem Stalls.step {watch later : StreamWatch} (stalls : watch.Stalls connection) (streams : watch.Streams connection action)
    (taken : watch.step U connection action = some later) : later.Stalls connection := by
  obtain ⟨next, moved, rfl⟩ := Option.map_eq_some_iff.1 taken
  have behind : StreamPlace.Behind (((action.event? connection).map watch.place.advance).getD watch.place) := by
    cases action.event? connection with
    | none => exact stalls.behind
    | some event => exact stalls.behind.advance event
  have sessions : ∀ {after}, next.sessions connection = some after → after.fsm.phase.stage ≠ 0 ∧ (after.fsm.phase.stage = 1 →
      after.fsm.counters.nextTargetSeq = (((action.event? connection).map watch.place.advance).getD watch.place).expected) := by
    intro after present
    rcases step_session moved streams.1 present with
      ⟨idle, earlier⟩ | ⟨session, event, venue, outages, reaction, reached, brought, seated, ran, continued, rfl⟩
    · rw [idle]
      exact ⟨stalls.admitted earlier, stalls.expects earlier⟩
    · rw [brought]
      have turned := stalls.turned seated (streams.2 event brought) ran continued
      exact ⟨turned.1, fun _ => turned.2⟩
  exact ⟨stalls.orderly.step moved, behind, fun present => (sessions present).1, fun present => (sessions present).2⟩

/-- In every run, whatever the other sessions do: once the session of a connection is admitted and is brought a stream
of consecutive numbers, each frame that does not decode is answered by exactly one reject and is not counted. The
reject refers to the number of the first such frame since the last sequence reset, so to the frame's own number
exactly if it is that one; until the next sequence reset every later message is answered by a request for
everything from there on, and before it every message is taken in order. -/
theorem undecodable_stalls (backend : Backend) (config : SessionConfig) (earlier actions : List AcceptorAction)
    {session current : VenueFixSession} {watch : StreamWatch} {event : SessionEvent} {venue : AppState}
    {outages : List (Option String)} {reaction : Reaction} {reached : Dispatch}
    (opened : runFrom (Acceptor.step U) (.new backend config) earlier = some acceptor)
    (present : acceptor.sessions connection = some session) (serving : session.fsm.phase.stage = 1)
    (streams : Throughout (StreamWatch.step U connection) (Streams connection)
      ⟨acceptor, session.fsm.counters.nextTargetSeq, none⟩ actions)
    (run : runFrom (StreamWatch.step U connection) ⟨acceptor, session.fsm.counters.nextTargetSeq, none⟩ actions = some watch)
    (seated : watch.acceptor.sessions connection = some current) (active : current.fsm.phase.stage = 1)
    (follows : watch.place.Follows event)
    (ran : watch.acceptor.outcome U current event venue outages = (.ok reaction, reached)) :
    watch.place.Answers reaction reached event ∧
      (watch.place.expected = watch.place.next ↔ watch.place.undecoded = none) := by
  have orderly : Orderly acceptor :=
    runFrom_preserved (fun _ _ _ orderly taken => orderly.step taken) (orderly_new backend config) opened
  have start : Stalls connection ⟨acceptor, session.fsm.counters.nextTargetSeq, none⟩ := by
    refine ⟨orderly, nofun, fun seated => ?_, fun seated _ => ?_⟩
    · cases present.symm.trans seated
      rw [serving]
      exact one_ne_zero
    · cases present.symm.trans seated
      rfl
  have stalls : watch.Stalls connection :=
    runFrom_invariant (fun _ _ _ stalls streams taken => stalls.step streams taken) start streams run
  obtain ⟨key, bound⟩ := (stalls.orderly.sitting seated).serving active
  refine ⟨?_, stalls.behind.expected_eq_iff⟩
  have handled : exec (event.handle U venue) (watch.acceptor.load current outages) = (.ok reaction, reached) := ran
  have held : (watch.acceptor.load current outages).fsm.key = some key := bound
  exact handle_answers stalls.behind held active (stalls.expects seated active) follows handled

end Steps

end StreamWatch

def strayFrame (error : FixDecodeError) : AcceptorAction := .dispatch 0 (.decodeError error) aliceVenue [] 16

/-- A bad side and an unsupported message, then a heartbeat. -/
def strayFrames : List AcceptorAction :=
  [strayFrame (.valueIsIncorrect Tag.side "9"), strayFrame (.unsupportedApplicationMsgType "AE"),
    aliceSends (.heartbeat ⟨aliceHeader 4, none⟩)]

/-- The numbers that the rejects on the wire refer to. -/
def rejectsReferred (acceptor : Acceptor) : List Nat := acceptor.emitted.filterMap fun sent => sent.2.refSeqNum?

abbrev referenceStream := @StreamWatch.step referenceWire referenceUpstream 0

theorem strayFrame_stalls : ∃ acceptor watch session reaction reached,
    runFrom referenceStep (.new .postgres ⟨30000, 60⟩) admittedAlice = some acceptor ∧
      runFrom referenceStream ⟨acceptor, 2, none⟩ [strayFrame (.valueIsIncorrect Tag.side "9")] = some watch ∧
      watch.acceptor.sessions 0 = some session ∧
      @Acceptor.outcome referenceWire referenceUpstream watch.acceptor session (.message (.heartbeat ⟨aliceHeader 3, none⟩))
        aliceVenue [] = (.ok reaction, reached) ∧
      reaction.control = .continued ∧ watch.place = ⟨3, some 2⟩ ∧
      watch.place.Answers reaction reached (.message (.heartbeat ⟨aliceHeader 3, none⟩)) := by
  have computed : ((runFrom referenceStep (.new .postgres ⟨30000, 60⟩) admittedAlice).bind fun acceptor =>
      (acceptor.sessions 0).bind fun first =>
      (runFrom referenceStream ⟨acceptor, first.fsm.counters.nextTargetSeq, none⟩
        [strayFrame (.valueIsIncorrect Tag.side "9")]).bind fun watch =>
      (watch.acceptor.sessions 0).bind fun session =>
      (@Acceptor.outcome referenceWire referenceUpstream watch.acceptor session
        (.message (.heartbeat ⟨aliceHeader 3, none⟩)) aliceVenue []).1.toOption.map fun reaction =>
      (first.fsm.phase.stage, first.fsm.counters.nextTargetSeq, session.fsm.phase.stage, reaction.control, watch.place)) =
      some (1, 2, 1, .continued, ⟨3, some 2⟩) := by decide +kernel
  obtain ⟨acceptor, opened, computed⟩ := Option.bind_eq_some_iff.1 computed
  obtain ⟨first, present, computed⟩ := Option.bind_eq_some_iff.1 computed
  obtain ⟨watch, run, computed⟩ := Option.bind_eq_some_iff.1 computed
  obtain ⟨session, seated, computed⟩ := Option.bind_eq_some_iff.1 computed
  obtain ⟨reaction, answered, computed⟩ := Option.map_eq_some_iff.1 computed
  simp only [Prod.mk.injEq] at computed
  obtain ⟨serving, expected, active, continued, place⟩ := computed
  have ran : @Acceptor.outcome referenceWire referenceUpstream watch.acceptor session
      (.message (.heartbeat ⟨aliceHeader 3, none⟩)) aliceVenue [] = (.ok reaction, _) :=
    Prod.ext (except_of_toOption answered) rfl
  have streams : Throughout referenceStream (StreamWatch.Streams 0) ⟨acceptor, first.fsm.counters.nextTargetSeq, none⟩
      [strayFrame (.valueIsIncorrect Tag.side "9")] := by
    refine ⟨⟨nofun, fun event member => ?_⟩, fun _ _ => trivial⟩
    cases member
    trivial
  have follows : watch.place.Follows (.message (.heartbeat ⟨aliceHeader 3, none⟩)) := by
    rw [place]
    exact ⟨rfl, nofun⟩
  refine ⟨acceptor, watch, session, reaction, _, opened, expected ▸ run, seated, ran, continued, place, ?_⟩
  exact (@StreamWatch.undecodable_stalls referenceWire _ _ _ _ _ _ _ _ _ _ _ _ _ _ _ opened present serving streams run
    seated active follows ran).1

/-- The second frame is answered under the number of the first, and the heartbeat by a resend request. -/
theorem strayFrames_stall : ∃ acceptor watch,
    runFrom referenceStep (.new .postgres ⟨30000, 60⟩) admittedAlice = some acceptor ∧
      runFrom referenceStream ⟨acceptor, 2, none⟩ strayFrames = some watch ∧ watch.place.next = 5 ∧
      ¬ rejectsReferred watch.acceptor = [2, 3] ∧ ¬ resendsAsked watch.acceptor = [] ∧
      expectedAtFirst watch.acceptor = some (some aliceKey, 2) := by
  have computed : ((runFrom referenceStep (.new .postgres ⟨30000, 60⟩) admittedAlice).bind fun acceptor =>
      (runFrom referenceStream ⟨acceptor, 2, none⟩ strayFrames).map fun watch =>
      ((watch.place.next, expectedAtFirst watch.acceptor), rejectsReferred watch.acceptor, resendsAsked watch.acceptor)) =
      some ((5, some (some aliceKey, 2)), [2, 2], [2]) := by decide +kernel
  obtain ⟨acceptor, opened, computed⟩ := Option.bind_eq_some_iff.1 computed
  obtain ⟨watch, run, computed⟩ := Option.map_eq_some_iff.1 computed
  simp only [Prod.mk.injEq] at computed
  obtain ⟨⟨next, expected⟩, referred, asked⟩ := computed
  refine ⟨acceptor, watch, opened, run, next, ?_, ?_, expected⟩
  · rw [referred]
    decide
  · rw [asked]
    decide

end Fauxchange.Fix
