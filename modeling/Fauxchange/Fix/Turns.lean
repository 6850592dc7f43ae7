import Fauxchange.Fix.Sends

/-! What one message does to an admitted session: the ways in which the inbound counter moves, when it is
saved, and what reaches the exchange. -/

namespace Fauxchange.Fix
open Exchange Lib Fallible FixSessionStore

/-- A change of the session alone. -/
structure Moved (change : Standing → Standing) (dispatch reached : Dispatch) : Prop where
  standing : reached.standing = change dispatch.standing
  outbound : reached.outbound = dispatch.outbound
  onward : dispatch.Onward reached
  store : Agree dispatch.store reached.store

/-- One durable write other than a frame. -/
structure Writes (write : StoreWrite) (dispatch reached : Dispatch) : Prop where
  standing : reached.standing = dispatch.standing
  outbound : reached.outbound = dispatch.outbound
  onward : dispatch.Onward reached
  store : Wrote write dispatch.store reached.store

def Standing.expect (next : Nat) (standing : Standing) : Standing := { standing with inbound := next }

def Standing.submitted (call : ExchangeCall) (standing : Standing) : Standing :=
  { standing with calls := standing.calls ++ [call] }

def Standing.observed (header : StandardHeader) (standing : Standing) : Standing :=
  { standing with venueComp := some header.targetCompId, clientComp := some header.senderCompId }

/-- The message is consumed in memory. -/
def Advanced (dispatch reached : Dispatch) : Prop :=
  dispatch.standing.inbound < u64Max ∧ Moved (Standing.expect (dispatch.standing.inbound + 1)) dispatch reached

/-- A mutation that passes the gate: its consumption is saved only after its exchange effect. -/
def Defers (fsm : SessionFsm) (message : DecodedMessage) : Prop :=
  isOrderEntryMutation message = true ∧ fsm.hasPermission (requiredPermission message) = true ∧
    foreignAccount fsm message = false

instance (fsm : SessionFsm) (message : DecodedMessage) : Decidable (Defers fsm message) :=
  inferInstanceAs (Decidable (_ ∧ _ ∧ _))

theorem Defers.ordinary {fsm : SessionFsm} {message : DecodedMessage} (defers : Defers fsm message) (reset : SequenceReset) :
    message ≠ .sequenceReset reset := by
  rintro rfl
  cases defers.1

/-- A message that is consumed and saved at once, where it is in order. -/
structure Plain (fsm : SessionFsm) (message : DecodedMessage) : Prop where
  handled : ¬ Defers fsm message
  ordinary : ∀ reset, message ≠ .sequenceReset reset

/-- The exchange commits nothing. -/
def AppState.Declines (venue : AppState) : Prop :=
  (∀ command stamp receipt, venue.submit command stamp ≠ some (.ok receipt)) ∧
    ∀ command delivery, venue.submitMassCancel command ≠ some (.ok delivery)

/-- What follows the consumption of a mutation: a reply without a submission, a submission that is not
accepted, or an accepted one whose consumption is then saved. -/
inductive Submits (venue : AppState) (key : SessionKey) (seq : Nat) (dispatch reached : Dispatch) : Prop where
  | withheld (sends : Sends dispatch reached)
  | called {middle : Dispatch} (call : ExchangeCall) (mine : call.key = some key ∧ call.stamp.msgSeq = seq)
      (moved : Moved (Standing.submitted call) dispatch middle) (after : Sends middle reached)
  | committed {middle rendered saved : Dispatch} (call : ExchangeCall)
      (mine : call.key = some key ∧ call.stamp.msgSeq = seq) (accepted : call.accepted = some true)
      (willing : ¬ venue.Declines) (moved : Moved (Standing.submitted call) dispatch middle) (render : Sends middle rendered)
      (save : Writes (.counters key rendered.fsm.counters) rendered saved) (after : Sends saved reached)

/-- What a message does to a session that is bound to a key. -/
inductive Turn {α : Type} (venue : AppState) (key : SessionKey) (message : DecodedMessage) (dispatch : Dispatch)
    (result : Except Halt α) (reached : Dispatch) : Prop where
  | answered (sends : Sends dispatch reached)
  | consumed {before advanced saved : Dispatch} (expected : (headerOf message).msgSeqNum = dispatch.standing.inbound)
      (plain : Plain dispatch.fsm message) (sends : Sends dispatch before) (advance : Advanced before advanced)
      (save : Writes (.counters key advanced.fsm.counters) advanced saved) (after : Sends saved reached)
  | deferred {advanced : Dispatch} (expected : (headerOf message).msgSeqNum = dispatch.standing.inbound)
      (mutation : Defers dispatch.fsm message) (advance : Advanced dispatch advanced)
      (submits : Submits venue key (headerOf message).msgSeqNum advanced reached)
  | filled {moved saved : Dispatch} (reset : SequenceReset) (asked : message = .sequenceReset reset)
      (gapFill : reset.gapFillFlag = some true) (forward : dispatch.standing.inbound ≤ reset.newSeqNo)
      (move : Moved (Standing.expect reset.newSeqNo) dispatch moved)
      (save : Writes (.counters key moved.fsm.counters) moved saved) (after : Sends saved reached)
  | reset {moved saved : Dispatch} (reset : SequenceReset) (event : SequenceResetEvent)
      (asked : message = .sequenceReset reset) (administrative : reset.gapFillFlag ≠ some true)
      (move : Moved (Standing.expect reset.newSeqNo) dispatch moved)
      (save : Writes (.reset key event moved.fsm.counters) moved saved) (after : Sends saved reached)
      (journaled : event.trigger = .sequenceReset ∧ event.oldNextTargetSeq = dispatch.standing.inbound ∧
        event.newNextTargetSeq = reset.newSeqNo)
  | broken {before moved : Dispatch} (next : Nat) (stopped : ∃ halt, result = .error halt) (sends : Sends dispatch before)
      (move : Moved (Standing.expect next) before moved) (after : Sends moved reached)

section Composition
variable {venue : AppState} {key : SessionKey} {seq : Nat} {message : DecodedMessage}
  {dispatch middle reached : Dispatch}

theorem Submits.trans (submits : Submits venue key seq dispatch middle) (later : Sends middle reached) :
    Submits venue key seq dispatch reached := by
  cases submits with
  | withheld sends => exact .withheld (sends.trans later)
  | called call mine moved after => exact .called call mine moved (after.trans later)
  | committed call mine accepted willing moved render save after =>
    exact .committed call mine accepted willing moved render save (after.trans later)

/-- Whatever a finished message is followed by, if it only sends. -/
theorem Turn.trans {α β : Type} {value : α} {result : Except Halt β}
    (turn : Turn venue key message dispatch (.ok value : Except Halt α) middle) (later : Sends middle reached) :
    Turn venue key message dispatch result reached := by
  cases turn with
  | answered sends => exact .answered (sends.trans later)
  | consumed expected plain sends advance save after =>
    exact .consumed expected plain sends advance save (after.trans later)
  | deferred expected mutation advance submits => exact .deferred expected mutation advance (submits.trans later)
  | filled reset asked gapFill forward move save after =>
    exact .filled reset asked gapFill forward move save (after.trans later)
  | reset reset event asked administrative move save after journaled =>
    exact .reset reset event asked administrative move save (after.trans later) journaled
  | broken next stopped sends move after =>
    obtain ⟨halt, wrong⟩ := stopped
    cases wrong

end Composition

section Counters
variable {key : SessionKey} {dispatch : Dispatch}

/-- The counters of a bound session are saved whole, or the session is sealed. -/
theorem persistCounters_run (dispatch : Dispatch) (bound : dispatch.fsm.key = some key) :
    ∃ reached, (exec persistCounters dispatch = (.ok (), reached) ∧
        Writes (.counters key dispatch.fsm.counters) dispatch reached) ∨
      ∃ halt, exec persistCounters dispatch = (.error halt, reached) ∧ Quiet dispatch reached := by
  unfold persistCounters
  rw [exec_get_bind, bound]
  obtain ⟨store, ⟨ran, wrote⟩ | ⟨⟨halt, ran⟩, agree⟩⟩ := onStore_write (.counters key dispatch.fsm.counters) dispatch
  · exact ⟨_, Or.inl ⟨ran, rfl, rfl, Or.inl rfl, wrote⟩⟩
  · exact ⟨_, Or.inr ⟨halt, ran, rfl, rfl, Or.inl rfl, agree⟩⟩

theorem leaveResend_quiet (dispatch : Dispatch) :
    Quiet dispatch { dispatch with fsm := dispatch.fsm.leaveResend } := by
  unfold SessionFsm.leaveResend
  split
  next waiting => exact ⟨rfl, rfl, Or.inl (by rw [waiting]; rfl), rfl, rfl, rfl⟩
  next => exact .refl dispatch

theorem setInbound_moved (dispatch : Dispatch) (next : Nat) :
    Moved (Standing.expect next) dispatch { dispatch with fsm := dispatch.fsm.setInbound next } :=
  ⟨rfl, rfl, Or.inl rfl, rfl, rfl, rfl⟩

theorem nextInbound_run (dispatch : Dispatch) :
    (∃ halt, exec nextInbound dispatch = (.error halt, dispatch)) ∨
      dispatch.standing.inbound < u64Max ∧
        exec nextInbound dispatch = (.ok (dispatch.standing.inbound + 1), dispatch) := by
  unfold nextInbound
  rw [exec_get_bind]
  cases counted : checkedNext dispatch.fsm.counters.nextTargetSeq with
  | none => exact Or.inl ⟨_, rfl⟩
  | some next =>
    obtain ⟨below, rfl⟩ := checkedNext_eq_some.1 counted
    exact Or.inr ⟨below, rfl⟩

/-- A mutation in order is consumed in memory only. -/
theorem advanceInboundInMemory_run (dispatch : Dispatch) :
    (∃ halt, exec advanceInboundInMemory dispatch = (.error halt, dispatch)) ∨
      ∃ reached, exec advanceInboundInMemory dispatch = (.ok (), reached) ∧ Advanced dispatch reached := by
  unfold advanceInboundInMemory
  rcases nextInbound_run dispatch with ⟨halt, ran⟩ | ⟨below, ran⟩
  · exact Or.inl ⟨halt, exec_bind_error ran⟩
  · refine Or.inr ⟨_, exec_bind_ok ran, below, ?_⟩
    have quiet := leaveResend_quiet { dispatch with fsm := dispatch.fsm.setInbound (dispatch.standing.inbound + 1) }
    exact ⟨quiet.standing, quiet.outbound, quiet.onward, quiet.store⟩

/-- Every other message in order is consumed and saved at once. -/
theorem consumeInbound_run (bound : dispatch.fsm.key = some key) :
    (∃ halt, exec consumeInbound dispatch = (.error halt, dispatch)) ∨
      ∃ advanced, Advanced dispatch advanced ∧
        ((∃ halt reached, exec consumeInbound dispatch = (.error halt, reached) ∧ Quiet advanced reached) ∨
          ∃ saved reached, exec consumeInbound dispatch = (.ok (), reached) ∧
            Writes (.counters key advanced.fsm.counters) advanced saved ∧ Quiet saved reached) := by
  unfold consumeInbound advanceInbound
  rcases nextInbound_run dispatch with ⟨halt, ran⟩ | ⟨below, ran⟩
  · exact Or.inl ⟨halt, by rw [bind_assoc, exec_bind_error ran]⟩
  · have moved := setInbound_moved dispatch (dispatch.standing.inbound + 1)
    refine Or.inr ⟨_, ⟨below, moved⟩, ?_⟩
    obtain ⟨saved, ⟨done, wrote⟩ | ⟨halt, stopped, quiet⟩⟩ :=
      persistCounters_run { dispatch with fsm := dispatch.fsm.setInbound (dispatch.standing.inbound + 1) }
        bound
    · refine Or.inr ⟨saved, { saved with fsm := saved.fsm.leaveResend }, ?_, wrote, leaveResend_quiet saved⟩
      rw [bind_assoc, exec_bind_ok ran, bind_assoc, setFsm, exec_modify_bind, exec_bind_ok done]
      rfl
    · refine Or.inl ⟨halt, saved, ?_, quiet⟩
      rw [bind_assoc, exec_bind_ok ran, bind_assoc, setFsm, exec_modify_bind, exec_bind_error stopped]

end Counters

/-- A routed mutation that keeps to the submission pattern, and whose answer shows allowed frames only. -/
def Routes (venue : AppState) (good : Frame → Prop) (key : SessionKey) (seq : Nat) (m : SessionM Reaction) : Prop :=
  ∀ dispatch, dispatch.fsm.key = some key → Speaks good dispatch → Submits venue key seq dispatch (m.exec dispatch).2 ∧
    ∀ reaction, (m.exec dispatch).1 = .ok reaction → ∀ frame ∈ reaction.frames, good frame

section Routing
variable {venue : AppState} {good : Frame → Prop} {key : SessionKey} {seq : Nat}

theorem Yields.routes {m : SessionM Reaction} (yields : Yields good Reaction.frames m) : Routes venue good key seq m :=
  fun dispatch _ speaks => ⟨.withheld (yields dispatch speaks).1, (yields dispatch speaks).2⟩

theorem Routes.get {next : Dispatch → SessionM Reaction}
    (rest : ∀ seen, Routes venue good key seq (next seen)) : Routes venue good key seq (MonadState.get >>= next) := by
  intro dispatch bound speaks
  rw [exec_get_bind]
  exact rest dispatch dispatch bound speaks

/-- A change of the session that keeps its identity keeps what it may say. -/
theorem Moved.speaks {change : Standing → Standing} {dispatch reached : Dispatch} (moved : Moved change dispatch reached)
    (kept : ∀ standing, (change standing).identity = standing.identity) (speaks : Speaks good dispatch) :
    Speaks good reached := by
  refine speaks.kept ?_ fun bound held entry member => Or.inl ?_
  · rw [moved.standing, kept]
  · rw [moved.store.slot] at member
    exact member

/-- A write that stores no frame keeps what a session may say. -/
theorem Writes.speaks {write : StoreWrite} {dispatch reached : Dispatch} (writes : Writes write dispatch reached)
    (kept : ∀ slot, (write.apply slot).outbound = slot.outbound) (speaks : Speaks good dispatch) : Speaks good reached := by
  refine speaks.kept (congrArg Standing.identity writes.standing) fun bound held entry member => Or.inl ?_
  by_cases own : write.key = bound
  · subst own
    rw [writes.store.slot_self, kept] at member
    exact member
  · rw [writes.store.slot_of_ne own] at member
    exact member

/-- A submission, the rendering of its outcome, and the save of its consumption. -/
theorem Routes.submitting {α : Type} {answer : Option (Except VenueError α)} {command : VenueCommand}
    {stamp : IngressStamp} {next : Except VenueError α → SessionM Reaction} {render : α → SessionM Reaction}
    (numbered : stamp.msgSeq = seq) (willing : ∀ receipt, answer = some (.ok receipt) → ¬ venue.Declines)
    (committed : ∀ receipt, next (.ok receipt) = do
      let reaction ← render receipt
      persistInbound
      pure reaction)
    (rendered : ∀ receipt, Yields good Reaction.frames (render receipt))
    (refused : ∀ error, Yields good Reaction.frames (next (.error error))) :
    Routes venue good key seq (Fix.submitting answer command stamp >>= next) := by
  intro dispatch bound speaks
  have called : ∀ accepted, Moved (Standing.submitted ⟨dispatch.fsm.key, stamp, command, accepted⟩) dispatch
      { dispatch with calls := dispatch.calls ++ [⟨dispatch.fsm.key, stamp, command, accepted⟩] } :=
    fun accepted => ⟨rfl, rfl, Or.inl rfl, rfl, rfl, rfl⟩
  rcases answer with _ | error | receipt
  · have ran : exec (Fix.submitting (none : Option (Except VenueError α)) command stamp) dispatch =
      (.error .unanswered, _) := rfl
    rw [exec_bind_error ran]
    exact ⟨.called _ ⟨bound, numbered⟩ (called none) .refl, nofun⟩
  · have ran : exec (Fix.submitting (some (.error error) : Option (Except VenueError α)) command stamp) dispatch =
      (.ok (.error error), _) := rfl
    rw [exec_bind_ok ran]
    have after := refused error _ ((called (some false)).speaks (fun _ => rfl) speaks)
    exact ⟨.called _ ⟨bound, numbered⟩ (called (some false)) after.1, after.2⟩
  · have ran : exec (Fix.submitting (some (.ok receipt) : Option (Except VenueError α)) command stamp) dispatch =
      (.ok (.ok receipt), _) := rfl
    rw [exec_bind_ok ran, committed receipt, exec_bind]
    have speaking := (called (some true)).speaks (fun _ => rfl) speaks
    have after := rendered receipt _ speaking
    revert after
    rcases (render receipt).exec _ with ⟨halt | reaction, reached⟩
    · exact fun after => ⟨.called _ ⟨bound, numbered⟩ (called (some true)) after.1, nofun⟩
    · intro after
      have held : reached.fsm.key = some key :=
        (congrArg Standing.key after.1.standing).trans ((congrArg Standing.key (called (some true)).standing).trans bound)
      dsimp only
      obtain ⟨saved, ⟨done, wrote⟩ | ⟨halt, stopped, quiet⟩⟩ := persistCounters_run reached held
      · rw [exec_bind_ok (show exec persistInbound reached = _ from done)]
        refine ⟨.committed _ ⟨bound, numbered⟩ rfl (willing receipt rfl) (called (some true)) after.1 wrote .refl, fun other same => ?_⟩
        cases same
        exact after.2 reaction rfl
      · rw [exec_bind_error (show exec persistInbound reached = _ from stopped)]
        exact ⟨.called _ ⟨bound, numbered⟩ (called (some true)) (after.1.trans quiet.sends), nofun⟩

variable [Ironfix] {U : Upstream} {stamp : IngressStamp} {now : Nat}

theorem routeNewOrder_routes {order : NewOrderSingle} (numbered : stamp.msgSeq = seq) :
    Routes venue good key seq (routeNewOrder U venue order stamp now) := by
  refine .get fun seen => ?_
  cases seen.fsm.account with
  | none => exact Yields.routes (.pure (List.forall_mem_nil _))
  | some account =>
    dsimp only
    split
    next => exact Yields.routes (.ite renderTrackedStatus_yields emitOrderRejectedCode_yields)
    next =>
      cases admitNewOrder U venue seen.toVenueFixSession account order with
      | error error => exact rejectNewOrder_yields.routes
      | ok admitted =>
        exact .submitting numbered (fun _ same declines => declines.1 _ _ _ same) (fun _ => rfl)
          (fun _ => renderPlaced_yields) fun _ => rejectNewOrder_yields

theorem routeCancel_routes {cancel : OrderCancelRequest} (numbered : stamp.msgSeq = seq) :
    Routes venue good key seq (routeCancel U venue cancel stamp now) := by
  refine .get fun seen => ?_
  cases seen.fsm.account with
  | none => exact Yields.routes (.pure (List.forall_mem_nil _))
  | some account =>
    dsimp only
    split
    next => exact rejectCancel_yields.routes
    next =>
      cases seen.resolveOrder venue account cancel.origClOrdId with
      | none => exact rejectCancel_yields.routes
      | some resolved =>
        exact .submitting numbered (fun _ same declines => declines.1 _ _ _ same) (fun _ => rfl)
          (fun _ => renderCancelled_yields) fun _ => rejectCancel_yields

theorem routeReplace_routes {replace : OrderCancelReplaceRequest} (numbered : stamp.msgSeq = seq) :
    Routes venue good key seq (routeReplace U venue replace stamp now) := by
  refine .get fun seen => ?_
  cases seen.fsm.account with
  | none => exact Yields.routes (.pure (List.forall_mem_nil _))
  | some account =>
    dsimp only
    split
    next => exact rejectCancel_yields.routes
    next =>
      cases seen.resolveOrder venue account replace.origClOrdId with
      | none => exact rejectCancel_yields.routes
      | some resolved =>
        exact .submitting numbered (fun _ same declines => declines.1 _ _ _ same) (fun _ => rfl)
          (fun _ => renderReplaced_yields) fun _ => rejectCancel_yields

theorem routeMassCancel_routes {request : OrderMassCancelRequest} (numbered : stamp.msgSeq = seq) :
    Routes venue good key seq (routeMassCancel U venue request stamp now) := by
  refine .get fun seen => ?_
  cases seen.fsm.account with
  | none => exact Yields.routes (.pure (List.forall_mem_nil _))
  | some account =>
    dsimp only
    split
    next => exact emitMassCancelRejected_yields.routes
    next =>
      split
      next =>
        exact .submitting numbered (fun _ same declines => declines.2 _ _ same) (fun _ => rfl)
          (fun _ => renderMassCancel_yields) fun _ => emitMassCancelRejected_yields
      next => exact emitMassCancelRejected_yields.routes

/-- A mutation is routed by the submission pattern, under its own number. -/
theorem routeOrder_routes {message : DecodedMessage} (mutation : isOrderEntryMutation message = true) :
    Routes venue good key (headerOf message).msgSeqNum (routeOrder U venue message now) := by
  refine .get fun seen => ?_
  cases message with
  | newOrderSingle order => exact routeNewOrder_routes rfl
  | orderCancelRequest cancel => exact routeCancel_routes rfl
  | orderCancelReplaceRequest replace => exact routeReplace_routes rfl
  | orderMassCancelRequest request => exact routeMassCancel_routes rfl
  | _ => cases mutation

/-- Every other message only answers. -/
theorem routeOrder_yields {message : DecodedMessage} (read : isOrderEntryMutation message = false) :
    Yields good Reaction.frames (routeOrder U venue message now) := by
  refine .get fun seen => ?_
  cases message with
  | orderStatusRequest status => exact routeStatus_yields
  | marketDataRequest request => exact routeMarketData_yields
  | newOrderSingle order => cases read
  | orderCancelRequest cancel => cases read
  | orderCancelReplaceRequest replace => cases read
  | orderMassCancelRequest request => cases read
  | _ => exact .pure (List.forall_mem_nil _)

end Routing

/-- A computation that does to a session what one message may do, and shows allowed frames only. -/
def Answers (venue : AppState) (good : Frame → Prop) (key : SessionKey) (message : DecodedMessage) (m : SessionM Reaction)
    (dispatch : Dispatch) : Prop :=
  Turn venue key message dispatch (m.exec dispatch).1 (m.exec dispatch).2 ∧
    ∀ reaction, (m.exec dispatch).1 = .ok reaction → ∀ frame ∈ reaction.frames, good frame

section Answering
variable {venue : AppState} {good : Frame → Prop} {key : SessionKey} {message : DecodedMessage} {dispatch : Dispatch}

theorem Yields.answers {m : SessionM Reaction} (yields : Yields good Reaction.frames m) (speaks : Speaks good dispatch) :
    Answers venue good key message m dispatch :=
  ⟨.answered (yields dispatch speaks).1, (yields dispatch speaks).2⟩

/-- A reply, then the consumption. -/
theorem Yields.answers_consumed {m : SessionM Reaction} (yields : Yields good Reaction.frames m)
    (bound : dispatch.fsm.key = some key) (speaks : Speaks good dispatch)
    (expected : (headerOf message).msgSeqNum = dispatch.standing.inbound) (plain : Plain dispatch.fsm message) :
    Answers venue good key message (do
      let reaction ← m
      consumeInbound
      Pure.pure reaction) dispatch := by
  have now := yields dispatch speaks
  unfold Answers
  rw [exec_bind]
  revert now
  rcases m.exec dispatch with ⟨halt | reaction, replied⟩
  · exact fun now => ⟨.answered now.1, nofun⟩
  · intro now
    dsimp only
    have held : replied.fsm.key = some key := (congrArg Standing.key now.1.standing).trans bound
    rcases consumeInbound_run held with ⟨halt, ran⟩ | ⟨advanced, advance, ⟨halt, reached, ran, quiet⟩ | ⟨saved, reached, ran, save, quiet⟩⟩
    · rw [exec_bind_error ran]
      exact ⟨.answered now.1, nofun⟩
    · rw [exec_bind_error ran]
      exact ⟨.broken _ ⟨halt, rfl⟩ now.1 advance.2 quiet.sends, nofun⟩
    · rw [exec_bind_ok ran]
      refine ⟨.consumed expected plain now.1 advance save quiet.sends, fun other same => ?_⟩
      cases same
      exact now.2 reaction rfl

/-- The consumption, then a reply. -/
theorem Yields.consumed_answers {m : SessionM Reaction} (yields : Yields good Reaction.frames m)
    (bound : dispatch.fsm.key = some key) (speaks : Speaks good dispatch)
    (expected : (headerOf message).msgSeqNum = dispatch.standing.inbound) (plain : Plain dispatch.fsm message) :
    Answers venue good key message (do
      consumeInbound
      m) dispatch := by
  unfold Answers
  rcases consumeInbound_run bound with ⟨halt, ran⟩ | ⟨advanced, advance, ⟨halt, reached, ran, quiet⟩ | ⟨saved, reached, ran, save, quiet⟩⟩
  · rw [exec_bind_error ran]
    exact ⟨.answered .refl, nofun⟩
  · rw [exec_bind_error ran]
    exact ⟨.broken _ ⟨halt, rfl⟩ .refl advance.2 quiet.sends, nofun⟩
  · rw [exec_bind_ok ran]
    have speaking := quiet.sends.speaks
      (save.speaks (fun _ => rfl) (advance.2.speaks (fun _ => rfl) speaks))
    have later := yields reached speaking
    exact ⟨.consumed expected plain .refl advance save (quiet.sends.trans later.1), later.2⟩

/-- The consumption in memory, then the route of a mutation. -/
theorem Routes.answers {m : SessionM Reaction} (routes : Routes venue good key (headerOf message).msgSeqNum m)
    (bound : dispatch.fsm.key = some key) (speaks : Speaks good dispatch)
    (expected : (headerOf message).msgSeqNum = dispatch.standing.inbound) (mutation : Defers dispatch.fsm message) :
    Answers venue good key message (do
      advanceInboundInMemory
      m) dispatch := by
  unfold Answers
  rcases advanceInboundInMemory_run dispatch with ⟨halt, ran⟩ | ⟨advanced, ran, advance⟩
  · rw [exec_bind_error ran]
    exact ⟨.answered .refl, nofun⟩
  · rw [exec_bind_ok ran]
    have held : advanced.fsm.key = some key := (congrArg Standing.key advance.2.standing).trans bound
    have later := routes advanced held (advance.2.speaks (fun _ => rfl) speaks)
    exact ⟨.deferred expected mutation advance later.1, later.2⟩

theorem handleSequenceReset_answers {reset : SequenceReset} {now : Nat} (bound : dispatch.fsm.key = some key)
    (asked : message = .sequenceReset reset) :
    Answers venue good key message (handleSequenceReset reset now) dispatch := by
  unfold handleSequenceReset Answers
  rw [exec_get_bind, bound]
  dsimp only
  have moved := setInbound_moved dispatch reset.newSeqNo
  split
  next gapFill =>
    split
    next forward =>
      rw [setFsm, exec_modify_bind]
      obtain ⟨saved, ⟨done, wrote⟩ | ⟨halt, stopped, quiet⟩⟩ :=
        persistCounters_run { dispatch with fsm := dispatch.fsm.setInbound reset.newSeqNo } bound
      · rw [exec_bind_ok done]
        refine ⟨.filled reset asked gapFill forward moved wrote (leaveResend_quiet saved).sends, fun other same => ?_⟩
        cases same
        exact List.forall_mem_nil _
      · rw [exec_bind_error stopped]
        refine ⟨.broken _ ⟨halt, rfl⟩ .refl moved quiet.sends, fun other same => ?_⟩
        cases same
    next =>
      refine ⟨.answered .refl, fun other same => ?_⟩
      cases same
      exact List.forall_mem_nil _
  next administrative =>
    rw [setFsm, exec_modify_bind]
    obtain ⟨store, ⟨ran, wrote⟩ | ⟨⟨halt, ran⟩, agree⟩⟩ := onStore_write
      (.reset key ⟨now, .sequenceReset, dispatch.fsm.counters.nextSenderSeq, dispatch.fsm.counters.nextTargetSeq,
        dispatch.fsm.counters.nextSenderSeq, reset.newSeqNo⟩
        { dispatch.fsm.counters with nextTargetSeq := reset.newSeqNo })
      { dispatch with fsm := dispatch.fsm.setInbound reset.newSeqNo }
    · rw [exec_bind_ok (show exec (onStore fun store => store.recordReset key _ _) _ = _ from ran)]
      have left := leaveResend_quiet { dispatch with fsm := dispatch.fsm.setInbound reset.newSeqNo, store := store }
      have save : Writes _ { dispatch with fsm := dispatch.fsm.setInbound reset.newSeqNo }
          { dispatch with fsm := dispatch.fsm.setInbound reset.newSeqNo, store := store } := ⟨rfl, rfl, Or.inl rfl, wrote⟩
      refine ⟨.reset reset _ asked administrative moved save left.sends ⟨rfl, rfl, rfl⟩, fun other same => ?_⟩
      cases same
      exact List.forall_mem_nil _
    · rw [exec_bind_error (show exec (onStore fun store => store.recordReset key _ _) _ = _ from ran)]
      refine ⟨.broken _ ⟨halt, rfl⟩ .refl moved (Quiet.sends ⟨rfl, rfl, Or.inl rfl, agree⟩), fun other same => ?_⟩
      cases same

/-- One thing that a bound session does: it emits, moves its expectation, submits, or writes its counters. -/
inductive Act (key : SessionKey) (dispatch reached : Dispatch) : Prop where
  | sends (step : SendStep dispatch reached)
  | expects (next : Nat) (move : Moved (Standing.expect next) dispatch reached)
  | submits (call : ExchangeCall) (mine : call.key = some key) (move : Moved (Standing.submitted call) dispatch reached)
  | saves (save : Writes (.counters key dispatch.fsm.counters) dispatch reached)
  | resets (event : SequenceResetEvent) (trigger : event.trigger = .sequenceReset)
      (save : Writes (.reset key event dispatch.fsm.counters) dispatch reached)

abbrev Acts (key : SessionKey) : Dispatch → Dispatch → Prop := Relation.ReflTransGen (Act key)

theorem Sends.acts {middle reached : Dispatch} (sends : Sends middle reached) (earlier : Acts key dispatch middle) :
    Acts key dispatch reached := by
  induction sends with
  | refl => exact earlier
  | tail _ step ih => exact ih.tail (.sends step)

theorem Submits.acts {seq : Nat} {middle reached : Dispatch} (submits : Submits venue key seq middle reached)
    (earlier : Acts key dispatch middle) : Acts key dispatch reached := by
  cases submits with
  | withheld sends => exact sends.acts earlier
  | called call mine moved after => exact after.acts (earlier.tail (.submits call mine.1 moved))
  | committed call mine accepted willing moved render save after =>
    exact after.acts ((render.acts (earlier.tail (.submits call mine.1 moved))).tail (.saves save))

/-- What a message does is made of such acts. -/
theorem Turn.acts {α : Type} {result : Except Halt α} {reached : Dispatch}
    (turn : Turn venue key message dispatch result reached) : Acts key dispatch reached := by
  cases turn with
  | answered sends => exact sends.acts .refl
  | consumed expected plain sends advance save after =>
    exact after.acts (((sends.acts .refl).tail (.expects _ advance.2)).tail (.saves save))
  | deferred expected mutation advance submits => exact submits.acts (.single (.expects _ advance.2))
  | filled reset asked gapFill forward move save after =>
    exact after.acts ((Relation.ReflTransGen.single (.expects _ move)).tail (.saves save))
  | reset reset event asked administrative move save after journaled =>
    exact after.acts ((Relation.ReflTransGen.single (.expects _ move)).tail (.resets event journaled.1 save))
  | broken next stopped sends move after => exact after.acts ((sends.acts .refl).tail (.expects _ move))

/-- What every act preserves, a sequence of them preserves. -/
theorem Acts.preserves {reached : Dispatch} (acts : Acts key dispatch reached) (property : Dispatch → Prop)
    (preserved : ∀ {before after}, Act key before after → property before → property after)
    (initially : property dispatch) : property reached := by
  induction acts with
  | refl => exact initially
  | tail _ act ih => exact preserved act ih

/-- An act changes neither the identity of a session nor a frame of its log. -/
theorem Acts.speaks {reached : Dispatch} (acts : Acts key dispatch reached) (speaks : Speaks good dispatch) :
    Speaks good reached := by
  refine acts.preserves (Speaks good) (fun act speaks => ?_) speaks
  cases act with
  | sends step => exact Sends.speaks (.single step) speaks
  | expects next move => exact move.speaks (fun _ => rfl) speaks
  | submits call mine move => exact move.speaks (fun _ => rfl) speaks
  | saves save => exact save.speaks (fun _ => rfl) speaks
  | resets event trigger save => exact save.speaks (fun _ => rfl) speaks

variable [Ironfix] {U : Upstream}

/-- The gate with what follows it, branch by branch. -/
theorem gateApplication_respond (dispatch : Dispatch) :
    exec (gateApplication message venue.nowMs >>= respond U venue) dispatch =
      exec (if ¬ dispatch.fsm.hasPermission (requiredPermission message) then do
          let reaction ← permissionReject message venue.nowMs
          consumeInbound
          pure reaction
        else if foreignAccount dispatch.fsm message then do
          let reaction ← sessionReject venue.nowMs .valueIsIncorrect (some Tag.account)
          consumeInbound
          pure reaction
        else if isOrderEntryMutation message then do
          advanceInboundInMemory
          routeOrder U venue message venue.nowMs
        else do
          consumeInbound
          routeOrder U venue message venue.nowMs) dispatch := by
  unfold gateApplication
  rw [bind_assoc, exec_get_bind]
  split
  next => simp only [bind_assoc, pure_bind, respond]
  next =>
    split
    next => simp only [bind_assoc, pure_bind, respond]
    next => split <;> simp only [bind_assoc, pure_bind, respond]

theorem gateApplication_answers (bound : dispatch.fsm.key = some key) (speaks : Speaks good dispatch)
    (expected : (headerOf message).msgSeqNum = dispatch.standing.inbound) (ordinary : ∀ reset, message ≠ .sequenceReset reset) :
    Answers venue good key message (gateApplication message venue.nowMs >>= respond U venue) dispatch := by
  unfold Answers
  rw [gateApplication_respond]
  split
  next refused =>
    exact permissionReject_yields.answers_consumed bound speaks expected ⟨fun defers => refused defers.2.1, ordinary⟩
  next permitted =>
    split
    next foreign =>
      exact sessionReject_yields.answers_consumed bound speaks expected
        ⟨fun defers => by simp [defers.2.2] at foreign, ordinary⟩
    next own =>
      split
      next mutation =>
        exact (routeOrder_routes mutation).answers bound speaks expected
          ⟨mutation, not_not.1 permitted, by simpa using own⟩
      next read =>
        exact (routeOrder_yields (by simpa using read)).consumed_answers bound speaks expected
          ⟨fun defers => read defers.1, ordinary⟩

/-- The state in which a message is looked at: its header gives the reply identity. -/
def Dispatch.heard (dispatch : Dispatch) (header : StandardHeader) (now : Nat) : Dispatch :=
  { dispatch with fsm := { dispatch.fsm with
      venueComp := some header.targetCompId
      clientComp := some header.senderCompId
      lastInboundMs := now
      awaitingTestReqSinceMs := none } }

/-- A message against the expected number, with what follows. -/
theorem handleInSequence_respond (dispatch : Dispatch) :
    exec (handleInSequence message venue.nowMs >>= respond U venue) dispatch =
      exec (if dispatch.fsm.counters.nextTargetSeq < (headerOf message).msgSeqNum then do
          setFsm fun fsm => { fsm with phase := .awaitingResend }
          emitOne venue.nowMs fun header => .resendRequest ⟨header, dispatch.fsm.counters.nextTargetSeq, 0⟩
        else if (headerOf message).msgSeqNum < dispatch.fsm.counters.nextTargetSeq then pure .cont
        else if isApplicationMessage message then gateApplication message venue.nowMs >>= respond U venue
        else do
          let reaction ← dispatchActiveBody message venue.nowMs
          consumeInbound
          pure reaction) dispatch := by
  unfold handleInSequence
  rw [bind_assoc, exec_get_bind]
  dsimp only
  split
  next => simp only [bind_assoc, pure_bind, bind_pure, respond]
  next =>
    split
    next => rfl
    next => split <;> simp only [bind_assoc, pure_bind, respond]

theorem handleInSequence_answers (bound : dispatch.fsm.key = some key) (serving : dispatch.fsm.phase.stage = 1)
    (speaks : Speaks good dispatch) (ordinary : ∀ reset, message ≠ .sequenceReset reset) :
    Answers venue good key message (handleInSequence message venue.nowMs >>= respond U venue) dispatch := by
  unfold Answers
  rw [handleInSequence_respond]
  split
  next =>
    have waiting : Quiet dispatch { dispatch with fsm := { dispatch.fsm with phase := .awaitingResend } } :=
      ⟨rfl, rfl, Or.inl serving.symm, rfl, rfl, rfl⟩
    have yields : Yields good Reaction.frames
        (emitOne venue.nowMs fun header => .resendRequest ⟨header, dispatch.fsm.counters.nextTargetSeq, 0⟩) :=
      emitOne_yields fun _ => rfl
    have asked := yields _ (waiting.sends.speaks speaks)
    rw [setFsm, exec_modify_bind]
    exact ⟨.answered (waiting.sends.trans asked.1), asked.2⟩
  next reached =>
    split
    next => exact Yields.answers (.pure (List.forall_mem_nil _)) speaks
    next past =>
      have expected : (headerOf message).msgSeqNum = dispatch.standing.inbound :=
        Nat.le_antisymm (not_lt.1 reached) (not_lt.1 past)
      split
      next => exact gateApplication_answers bound speaks expected ordinary
      next session =>
        refine dispatchActiveBody_yields.answers_consumed bound speaks expected ⟨fun defers => session ?_, ordinary⟩
        have mutation := defers.1
        revert mutation
        cases message <;> simp [isOrderEntryMutation, isApplicationMessage, isOrderEntryMessage]

/-- A message of an admitted session does what one message may do, from the state in which it is heard. -/
theorem handleActive_answers (U : Upstream) (venue : AppState) (revoked : Bool) (bound : dispatch.fsm.key = some key)
    (serving : dispatch.fsm.phase.stage = 1)
    (speaks : Speaks good (dispatch.heard (headerOf message) venue.nowMs)) :
    Turn venue key message (dispatch.heard (headerOf message) venue.nowMs)
        (exec (handleActive message venue.nowMs revoked >>= respond U venue) dispatch).1
        (exec (handleActive message venue.nowMs revoked >>= respond U venue) dispatch).2 ∧
      ∀ reaction, (exec (handleActive message venue.nowMs revoked >>= respond U venue) dispatch).1 = .ok reaction →
        ∀ frame ∈ reaction.frames, good frame := by
  have held : (dispatch.heard (headerOf message) venue.nowMs).fsm.key = some key := bound
  unfold handleActive onInbound setFsm
  rw [bind_assoc, exec_modify_bind]
  change Answers venue good key message _ (dispatch.heard (headerOf message) venue.nowMs)
  cases revoked with
  | true =>
    simp only [if_true, bind_assoc, pure_bind, bind_pure, respond]
    exact logoutClose_yields.answers speaks
  | false =>
    simp only [Bool.false_eq_true, if_false]
    cases message with
    | sequenceReset reset =>
      simp only [bind_assoc, pure_bind, bind_pure, respond]
      exact handleSequenceReset_answers held rfl
    | _ => exact handleInSequence_answers held serving speaks nofun

/-- A session that serves its messages takes each as an active one. -/
theorem reactTo_serving (serving : dispatch.fsm.phase.stage = 1) :
    exec (reactTo U venue message) dispatch =
      exec (handleActive message venue.nowMs (dispatch.revoked venue) >>= respond U venue) dispatch := by
  unfold reactTo
  rw [exec_get_bind]
  revert serving
  cases dispatch.fsm.phase with
  | awaitingLogon => nofun
  | closing => nofun
  | active => exact fun _ => rfl
  | awaitingResend => exact fun _ => rfl

/-- The pending market data goes out after the reaction. -/
theorem onMessage_answers (bound : dispatch.fsm.key = some key)
    (serving : dispatch.fsm.phase.stage = 1)
    (speaks : Speaks good (dispatch.heard (headerOf message) venue.nowMs)) :
    Turn venue key message (dispatch.heard (headerOf message) venue.nowMs)
        (exec (onMessage U venue message) dispatch).1 (exec (onMessage U venue message) dispatch).2 ∧
      ∀ reaction, (exec (onMessage U venue message) dispatch).1 = .ok reaction → ∀ frame ∈ reaction.frames, good frame := by
  have now := handleActive_answers U venue (dispatch.revoked venue) bound serving speaks
  unfold onMessage
  rw [exec_bind, reactTo_serving serving]
  revert now
  rcases exec (handleActive message venue.nowMs (dispatch.revoked venue) >>= respond U venue) dispatch with
    ⟨halt | reaction, reached⟩
  · exact fun now => ⟨now.1, nofun⟩
  · intro now
    have later := (appendMarketData_yields (now.2 reaction rfl) : Yields good _ (appendMarketData venue reaction venue.nowMs)) reached
      (now.1.acts.speaks speaks)
    exact ⟨now.1.trans later.1, later.2⟩

end Answering

end Fauxchange.Fix
