import Fauxchange.Fix.Admission
import Fauxchange.Fix.Connections

/-! What one dispatch of a session does, whatever the event and the phase. -/

namespace Fauxchange.Fix
open Exchange Lib Fallible FixSessionStore

namespace SessionEvent

/-- A message is heard unless the session is closing. -/
def heard (event : SessionEvent) (venue : AppState) (dispatch : Dispatch) : Dispatch :=
  match event with
  | message decoded =>
    if dispatch.fsm.phase = .closing then dispatch else dispatch.heard (headerOf decoded) venue.nowMs
  | _ => dispatch

/-- The logon that an event brings. -/
def logon? : SessionEvent → Option Logon
  | message (.logon logon) => some logon
  | _ => none

end SessionEvent

/-- What one dispatch does: it only sends, or it takes a message of an admitted session, or a logon. -/
inductive Reacted {α : Type} (event : SessionEvent) (venue : AppState) (dispatch : Dispatch) (result : Except Halt α)
    (reached : Dispatch) : Prop where
  | sent (sends : Sends (event.heard venue dispatch) reached)
  | turned {key : SessionKey} {message : DecodedMessage} (asked : event = .message message)
      (bound : dispatch.fsm.key = some key)
      (turn : Turn venue key message (event.heard venue dispatch) result reached)
  | logged {logon : Logon} (asked : event.logon? = some logon) (waiting : dispatch.fsm.phase = .awaitingLogon)
      (admission : Admission logon venue (event.heard venue dispatch) result reached)

section Dispatching
variable {U : Upstream} {good : Frame → Prop} {venue : AppState} {dispatch : Dispatch} {event : SessionEvent}

theorem mem_shownFrames {result : Except Halt Reaction} {frame : Frame} (shown : frame ∈ shownFrames result) :
    ∃ reaction, result = .ok reaction ∧ frame ∈ reaction.frames := by
  cases result with
  | error halt => cases shown
  | ok reaction => exact ⟨reaction, rfl, shown⟩

/-- A dispatch that only sends, with the frames that it shows. -/
theorem Yields.reacted {m : SessionM Reaction} (yields : Yields good Reaction.frames m) (event : SessionEvent)
    (dispatch : Dispatch) (speaks : Speaks good (event.heard venue dispatch)) :
    Reacted event venue dispatch (exec m (event.heard venue dispatch)).1 (exec m (event.heard venue dispatch)).2 ∧
      ∀ frame ∈ shownFrames (exec m (event.heard venue dispatch)).1, good frame := by
  have now := yields _ speaks
  refine ⟨.sent now.1, fun frame shown => ?_⟩
  obtain ⟨reaction, result, member⟩ := mem_shownFrames shown
  exact now.2 reaction result frame member

variable [Ironfix]

/-- The market data that goes out with the answer to a logon. -/
theorem Admits.appended {logon : Logon} {start : Dispatch} {m : SessionM Reaction}
    (admits : Admits good logon venue dispatch (exec m start)) (now : Nat) (speaks : Speaks good (exec m start).2) :
    Admits good logon venue dispatch (exec (m >>= fun reaction => appendMarketData venue reaction now) start) := by
  rw [exec_bind]
  revert admits speaks
  rcases exec m start with ⟨halt | reaction, reached⟩
  · exact fun admits _ => ⟨admits.1, nofun⟩
  · intro admits speaks
    have yields : Yields good Reaction.frames (appendMarketData venue reaction now) :=
      appendMarketData_yields (admits.2 reaction rfl)
    have later := yields reached speaks
    exact ⟨admits.1.trans later.1, later.2⟩

theorem onDecodeError_yields {error : FixDecodeError} : Yields good Reaction.frames (onDecodeError venue error) := by
  refine .get fun seen => ?_
  cases seen.fsm.phase with
  | awaitingLogon => exact .pure (List.forall_mem_nil _)
  | closing => exact .pure (List.forall_mem_nil _)
  | active => exact rejectDecodeError_yields
  | awaitingResend => exact rejectDecodeError_yields

theorem onTick_yields : Yields good Reaction.frames (onTick venue) :=
  .get fun _ => .bind SessionFsm.onTick_yields fun _ allowed => appendMarketData_yields allowed

/-- A session that awaits its logon hears it, and then checks it. -/
theorem onMessage_logon {logon : Logon} (waiting : dispatch.fsm.phase = .awaitingLogon) :
    exec (onMessage U venue (.logon logon)) dispatch =
      exec (handleLogon venue logon venue.nowMs >>= fun reaction => appendMarketData venue reaction venue.nowMs)
        (dispatch.heard logon.header venue.nowMs) := by
  unfold onMessage reactTo
  rw [bind_assoc, exec_get_bind, waiting]
  dsimp only
  rw [bind_assoc, onInbound, setFsm, exec_modify_bind]
  rfl

/-- Any other message closes it. -/
theorem onMessage_early {decoded : DecodedMessage} (waiting : dispatch.fsm.phase = .awaitingLogon)
    (other : SessionEvent.logon? (.message decoded) = none) :
    exec (onMessage U venue decoded) dispatch =
      exec (logoutClose venue.nowMs "expected Logon" >>= fun reaction => appendMarketData venue reaction venue.nowMs)
        (dispatch.heard (headerOf decoded) venue.nowMs) := by
  unfold onMessage reactTo
  rw [bind_assoc, exec_get_bind, waiting]
  dsimp only
  rw [bind_assoc, onInbound, setFsm, exec_modify_bind]
  cases decoded with
  | logon logon => cases other
  | _ => rfl

theorem onMessage_closing {decoded : DecodedMessage} (closing : dispatch.fsm.phase = .closing) :
    exec (onMessage U venue decoded) dispatch = (.ok .closeSilent, dispatch) := by
  unfold onMessage reactTo
  rw [bind_assoc, exec_get_bind, closing]
  rfl

/-- One dispatch of a session that has a key wherever it serves its messages. -/
theorem SessionEvent.handle_reacted (good : Frame → Prop)
    (bound : dispatch.fsm.phase.stage = 1 → ∃ key, dispatch.fsm.key = some key)
    (speaks : Speaks good (event.heard venue dispatch))
    (named : dispatch.fsm.phase = .awaitingLogon → ∀ logon, event.logon? = some logon → Named good logon.header dispatch.store) :
    Reacted event venue dispatch ((event.handle U venue).exec dispatch).1 ((event.handle U venue).exec dispatch).2 ∧
      ∀ frame ∈ shownFrames ((event.handle U venue).exec dispatch).1, good frame := by
  cases event with
  | decodeError error => exact onDecodeError_yields.reacted _ dispatch speaks
  | tick => exact onTick_yields.reacted _ dispatch speaks
  | message decoded =>
    change Reacted (.message decoded) venue dispatch (exec (onMessage U venue decoded) dispatch).1
      (exec (onMessage U venue decoded) dispatch).2 ∧ ∀ frame ∈ shownFrames (exec (onMessage U venue decoded) dispatch).1, good frame
    by_cases closing : dispatch.fsm.phase = .closing
    · have heard : SessionEvent.heard (.message decoded) venue dispatch = dispatch := if_pos closing
      rw [onMessage_closing closing]
      refine ⟨.sent ?_, List.forall_mem_nil _⟩
      rw [heard]
    · have heard : SessionEvent.heard (.message decoded) venue dispatch = dispatch.heard (headerOf decoded) venue.nowMs :=
        if_neg closing
      rw [heard] at speaks
      by_cases waiting : dispatch.fsm.phase = .awaitingLogon
      · cases asked : SessionEvent.logon? (.message decoded) with
        | none =>
          have yields : Yields good Reaction.frames (logoutClose venue.nowMs "expected Logon" >>= fun reaction =>
              appendMarketData venue reaction venue.nowMs) :=
            .bind logoutClose_yields fun _ allowed => appendMarketData_yields allowed
          have reacted := yields.reacted (.message decoded) dispatch (heard ▸ speaks)
          rw [heard] at reacted
          rw [onMessage_early waiting asked]
          exact reacted
        | some logon =>
          obtain rfl : decoded = .logon logon := by
            cases decoded with
            | logon own => cases asked; rfl
            | _ => cases asked
          have admits : Admits good logon venue (dispatch.heard logon.header venue.nowMs)
              (exec (handleLogon venue logon venue.nowMs) (dispatch.heard logon.header venue.nowMs)) :=
            handleLogon_admits rfl rfl speaks (named waiting logon rfl)
          have appended := admits.appended venue.nowMs (admits.1.speaks speaks (named waiting logon rfl))
          rw [onMessage_logon waiting]
          refine ⟨.logged rfl waiting (heard ▸ appended.1), fun frame shown => ?_⟩
          obtain ⟨reaction, result, member⟩ := mem_shownFrames shown
          exact appended.2 reaction result frame member
      · have serving : dispatch.fsm.phase.stage = 1 := by
          cases phase : dispatch.fsm.phase with
          | awaitingLogon => exact absurd phase waiting
          | active => rfl
          | awaitingResend => rfl
          | closing => exact absurd phase closing
        obtain ⟨key, held⟩ := bound serving
        have answers := onMessage_answers (U := U) held serving speaks
        refine ⟨.turned rfl held (heard ▸ answers.1), fun frame shown => ?_⟩
        obtain ⟨reaction, result, member⟩ := mem_shownFrames shown
        exact answers.2 reaction result frame member

end Dispatching

end Fauxchange.Fix
