import Fauxchange.Fix.Refused

/-! Whom a session speaks for: no message but the logon changes it, and a session of a revoked account says nothing
but the logout that ends it. -/

namespace Fauxchange.Fix
open Exchange Lib Fallible

/-- What the logon binds a session to. -/
structure Login where
  account : Option AccountId
  permissions : List Permission
  sessionEpoch : Nat
  key : Option SessionKey

def SessionFsm.login (fsm : SessionFsm) : Login := ⟨fsm.account, fsm.permissions, fsm.sessionEpoch, fsm.key⟩

/-- A session has been bound to an account by its logon. -/
structure Login.Of (login : Login) (row : Account) : Prop where
  account : login.account = some row.id
  permissions : login.permissions = row.permissions
  sessionEpoch : login.sessionEpoch = row.revocationEpoch
  key : ∃ key, login.key = some key ∧ key.account = row.id

/-- A computation that leaves a session speaking for whom it did. -/
abbrev SameLogin {α : Type} (login : Login) (m : SessionM α) : Prop := Keeps (fun dispatch => dispatch.fsm.login = login) m

variable {login : Login}

theorem setFsm_same {change : SessionFsm → SessionFsm} (same : ∀ fsm, (change fsm).login = fsm.login) :
    SameLogin login (setFsm change) := fun dispatch held => (same dispatch.fsm).trans held

theorem modify_same {change : Dispatch → Dispatch} (same : ∀ dispatch, (change dispatch).fsm = dispatch.fsm) :
    SameLogin login (modify change : SessionM Unit) := fun dispatch held => (congrArg SessionFsm.login (same dispatch)).trans held

theorem onStore_same {α : Type} {operation : FixSessionStore → Except SessionStoreError α × FixSessionStore} :
    SameLogin login (onStore operation) := by
  refine .transition fun dispatch held => ?_
  split <;> exact held

theorem submitting_same {α : Type} {answer : Option (Except VenueError α)} {command : VenueCommand} {stamp : IngressStamp} :
    SameLogin login (submitting answer command stamp) := by
  refine .transition fun dispatch held => ?_
  split <;> exact held

theorem onInbound_same {header : StandardHeader} {now : Nat} : SameLogin login (onInbound header now) :=
  setFsm_same fun _ => rfl

theorem storeFrame_same {key : Option SessionKey} {entry : StoredOutbound} {next : Nat} :
    SameLogin login (storeFrame key entry next) := by
  cases key with
  | none => exact .pure
  | some key => exact onStore_same

section Emission
variable [Ironfix] {now : Nat}

theorem emit_same {build : StandardHeader → Frame} : SameLogin login (emit now build) := by
  refine .get fun dispatch => ?_
  split
  · dsimp only
    split
    · exact .throw
    · exact .throw
    · exact .bind storeFrame_same fun _ => .bind (setFsm_same fun _ => rfl) fun _ => .pure
  · exact .throw

theorem emitOne_same {build : StandardHeader → DecodedMessage} : SameLogin login (emitOne now build) :=
  .bind emit_same fun _ => .pure

theorem emitReports_same {specs : List ExecReportSpec} : SameLogin login (emitReports now specs) := by
  induction specs with
  | nil => exact .pure
  | cons spec rest ih => exact .bind emit_same fun _ => .bind ih fun _ => .pure

theorem emitReportSpecs_same {specs : List ExecReportSpec} : SameLogin login (emitReportSpecs specs now) :=
  .bind emitReports_same fun _ => .pure

theorem logoutClose_same {reason : String} : SameLogin login (logoutClose now reason) :=
  .bind (setFsm_same fun _ => rfl) fun _ => .bind emit_same fun _ => .pure

end Emission

section Counters

theorem persistCounters_same : SameLogin login persistCounters := by
  refine .get fun dispatch => ?_
  split
  · exact .pure
  · exact onStore_same

theorem nextInbound_same : SameLogin login nextInbound := by
  refine .get fun dispatch => ?_
  split
  · exact .throw
  · exact .pure

theorem leaveResend_login (fsm : SessionFsm) : fsm.leaveResend.login = fsm.login := by
  unfold SessionFsm.leaveResend
  split <;> rfl

theorem advanceInboundInMemory_same : SameLogin login advanceInboundInMemory :=
  .bind nextInbound_same fun next => setFsm_same fun fsm => leaveResend_login (fsm.setInbound next)

theorem consumeInbound_same : SameLogin login consumeInbound :=
  .bind (.bind nextInbound_same fun _ => .bind (setFsm_same fun _ => rfl) fun _ => persistCounters_same)
    fun _ => setFsm_same leaveResend_login

end Counters

section Replies
variable [Ironfix] {now : Nat}

theorem sessionReject_same {reason : SessionRejectReason} {refTag : Option Nat} :
    SameLogin login (sessionReject now reason refTag) := .get fun _ => emitOne_same

theorem emitOrderRejectedCode_same {symbol : Symbol} {side : OrderSide} {price : Option Nat} {code : Nat}
    {text : Option String} : SameLogin login (emitOrderRejectedCode symbol side price code text now) :=
  .get fun _ => emitOne_same

theorem emitCancelReject_same {orderId : VenueOrderId} {origClOrdId clOrdId : ClientOrderId}
    {responseTo : CxlRejResponseTo} {ordStatus : OrdStatus} {reason : Nat} {text : Option String} :
    SameLogin login (emitCancelReject orderId origClOrdId clOrdId responseTo ordStatus reason text now) := emitOne_same

theorem emitMassCancelRejected_same : SameLogin login (emitMassCancelRejected now) := emitOne_same

theorem emitMdRequestReject_same {mdReqId : String} {reason : Nat} {text : Option String} :
    SameLogin login (emitMdRequestReject mdReqId reason text now) := emitOne_same

theorem rejectDecodeError_same {error : FixDecodeError} : SameLogin login (rejectDecodeError error now) := by
  unfold rejectDecodeError
  split
  · exact sessionReject_same
  · exact .get fun _ => emitOne_same

theorem emitMassCancelAccepted_same {response : MassCancelResponse} {affected : List VenueOrderId}
    {specs : List ExecReportSpec} : SameLogin login (emitMassCancelAccepted response affected specs now) :=
  .ite .throw <| .bind emit_same fun _ => .bind emitReports_same fun _ => .pure

theorem permissionReject_same {message : DecodedMessage} : SameLogin login (permissionReject message now) := by
  unfold permissionReject
  split
  · exact emitOrderRejectedCode_same
  · exact emitCancelReject_same
  · exact emitCancelReject_same
  · exact emitMassCancelRejected_same
  · exact emitMdRequestReject_same
  · exact .pure

end Replies

theorem handleSequenceReset_same {reset : SequenceReset} {now : Nat} :
    SameLogin login (handleSequenceReset reset now) := by
  refine .get fun dispatch => ?_
  split
  · exact .throw
  · refine .ite (.ite ?_ .pure) ?_
    · exact .bind (setFsm_same fun _ => rfl) fun _ => .bind persistCounters_same fun _ =>
        .bind (setFsm_same leaveResend_login) fun _ => .pure
    · exact .bind (setFsm_same fun _ => rfl) fun _ => .bind onStore_same fun _ =>
        .bind (setFsm_same leaveResend_login) fun _ => .pure

section Active
variable [Ironfix] {now : Nat} {message : DecodedMessage}

theorem serveResend_same {resend : ResendRequest} : SameLogin login (serveResend resend now) := by
  refine .get fun dispatch => ?_
  split
  · exact .throw
  · refine .bind onStore_same fun stored => ?_
    dsimp only
    split
    · exact .throw
    · exact .pure

theorem dispatchActiveBody_same : SameLogin login (dispatchActiveBody message now) := by
  unfold dispatchActiveBody
  split
  · exact .pure
  · exact .pure
  · exact .pure
  · exact emitOne_same
  · exact serveResend_same
  · exact .bind (setFsm_same fun _ => rfl) fun _ => .bind emit_same fun _ => .pure
  · exact sessionReject_same

theorem gateApplication_same : SameLogin login (gateApplication message now) := by
  refine .get fun dispatch => ?_
  split
  · exact .bind permissionReject_same fun _ => .bind consumeInbound_same fun _ => .pure
  split
  · exact .bind sessionReject_same fun _ => .bind consumeInbound_same fun _ => .pure
  dsimp only
  split
  · exact .bind advanceInboundInMemory_same fun _ => .pure
  · exact .bind consumeInbound_same fun _ => .pure

theorem handleInSequence_same : SameLogin login (handleInSequence message now) := by
  refine .get fun dispatch => .ite ?_ (.ite .pure (.ite gateApplication_same ?_))
  · exact .bind (setFsm_same fun _ => rfl) fun _ => .bind emitOne_same fun _ => .pure
  · exact .bind dispatchActiveBody_same fun _ => .bind consumeInbound_same fun _ => .pure

theorem handleActive_same {revoked : Bool} : SameLogin login (handleActive message now revoked) := by
  refine .bind onInbound_same fun _ => .ite (.bind logoutClose_same fun _ => .pure) ?_
  split
  · exact .bind handleSequenceReset_same fun _ => .pure
  · exact handleInSequence_same

theorem heartbeatDue_same : SameLogin login (heartbeatDue now) := by
  refine .get fun dispatch => ?_
  split
  · exact .bind emit_same fun _ => .pure
  · exact .pure

theorem livenessDue_same : SameLogin login (livenessDue now) := by
  refine .get fun dispatch => ?_
  split
  · exact .ite (.bind emit_same fun _ => .bind (setFsm_same fun _ => rfl) fun _ => .pure) .pure
  · exact .ite logoutClose_same .pure

theorem onTick_fsm_same {revoked : Bool} : SameLogin login (SessionFsm.onTick now revoked) := by
  refine .get fun dispatch => ?_
  split
  · exact .ite (.bind (setFsm_same fun _ => rfl) fun _ => .pure) .pure
  · exact .ite logoutClose_same <| .ite .pure <| .bind heartbeatDue_same fun _ => .bind livenessDue_same fun _ => .pure
  · exact .ite logoutClose_same <| .ite .pure <| .bind heartbeatDue_same fun _ => .bind livenessDue_same fun _ => .pure
  · exact .pure

end Active

section Orders
variable {U : Upstream} {venue : AppState} {now : Nat} {stamp : IngressStamp}

theorem trackPlaced_same {clOrdId : ClientOrderId} {placed : PlacedOrder} : SameLogin login (trackPlaced clOrdId placed) :=
  modify_same fun dispatch => by split <;> rfl

theorem dropPlaced_same {clOrdId : ClientOrderId} : SameLogin login (dropPlaced clOrdId) := modify_same fun _ => rfl

theorem dropPlacedOrder_same {orderId : VenueOrderId} : SameLogin login (dropPlacedOrder venue orderId) :=
  modify_same fun dispatch => by split <;> rfl

theorem sweptReports_same {index : Nat} {affected : List SweptLeg} :
    SameLogin login (sweptReports U venue now index affected) := by
  induction affected generalizing index with
  | nil => exact .pure
  | cons swept rest ih =>
    refine .bind dropPlacedOrder_same fun _ => ?_
    split
    · exact .throw
    · exact .bind ih fun _ => .pure

variable [Ironfix]

theorem rejectNewOrder_same {order : NewOrderSingle} {error : VenueError} :
    SameLogin login (rejectNewOrder order error now) := emitOrderRejectedCode_same

theorem rejectCancel_same {orderId : VenueOrderId} {origClOrdId clOrdId : ClientOrderId} {responseTo : CxlRejResponseTo}
    {error : VenueError} : SameLogin login (rejectCancel orderId origClOrdId clOrdId responseTo error now) :=
  emitCancelReject_same

theorem renderTrackedStatus_same {order : ResolvedOrder} : SameLogin login (renderTrackedStatus U venue order now) := by
  refine .get fun dispatch => ?_
  split
  · exact .pure
  · exact emitReportSpecs_same

theorem renderPlaced_same {order : NewOrderSingle} {account : AccountId} {admitted : Admitted} {receipt : Receipt} :
    SameLogin login (renderPlaced venue order account admitted receipt now) := by
  unfold renderPlaced
  split
  · exact emitOrderRejectedCode_same
  · exact .bind trackPlaced_same fun _ => emitReportSpecs_same

theorem routeNewOrder_same {order : NewOrderSingle} : SameLogin login (routeNewOrder U venue order stamp now) := by
  refine .get fun dispatch => ?_
  split
  · exact .pure
  split
  · split
    · exact renderTrackedStatus_same
    · exact emitOrderRejectedCode_same
  split
  · exact rejectNewOrder_same
  refine .bind submitting_same fun answer => ?_
  split
  · exact .bind renderPlaced_same fun _ => .bind persistCounters_same fun _ => .pure
  · exact rejectNewOrder_same

theorem renderCancelled_same {cancel : OrderCancelRequest} {resolved : ResolvedOrder} {receipt : Receipt} :
    SameLogin login (renderCancelled U venue cancel resolved receipt now) := by
  unfold renderCancelled
  split
  · exact rejectCancel_same
  · exact .bind dropPlaced_same fun _ => emitReportSpecs_same

theorem routeCancel_same {cancel : OrderCancelRequest} : SameLogin login (routeCancel U venue cancel stamp now) := by
  refine .get fun dispatch => ?_
  split
  · exact .pure
  split
  · exact rejectCancel_same
  split
  · exact rejectCancel_same
  refine .bind submitting_same fun answer => ?_
  split
  · exact .bind renderCancelled_same fun _ => .bind persistCounters_same fun _ => .pure
  · exact rejectCancel_same

theorem renderReplaced_same {replace : OrderCancelReplaceRequest} {account : AccountId} {resolved : ResolvedOrder}
    {newOrderId : VenueOrderId} {receipt : Receipt} :
    SameLogin login (renderReplaced U venue replace account resolved newOrderId receipt now) := by
  unfold renderReplaced
  split
  · exact rejectCancel_same
  · exact .ite (.bind dropPlaced_same fun _ => emitCancelReject_same) emitCancelReject_same
  · exact .bind dropPlaced_same fun _ => .bind trackPlaced_same fun _ => emitReportSpecs_same

theorem routeReplace_same {replace : OrderCancelReplaceRequest} : SameLogin login (routeReplace U venue replace stamp now) := by
  refine .get fun dispatch => ?_
  split
  · exact .pure
  split
  · exact rejectCancel_same
  split
  · exact rejectCancel_same
  refine .bind submitting_same fun answer => ?_
  split
  · exact .bind renderReplaced_same fun _ => .bind persistCounters_same fun _ => .pure
  · exact rejectCancel_same

theorem routeMassCancel_same {request : OrderMassCancelRequest} :
    SameLogin login (routeMassCancel U venue request stamp now) := by
  refine .get fun dispatch => ?_
  split
  · exact .pure
  split
  · exact emitMassCancelRejected_same
  split
  · refine .bind submitting_same fun answer => ?_
    split
    · exact .bind (.bind sweptReports_same fun _ => emitMassCancelAccepted_same) fun _ =>
        .bind persistCounters_same fun _ => .pure
    · exact emitMassCancelRejected_same
  · exact emitMassCancelRejected_same

theorem routeStatus_same {status : OrderStatusRequest} : SameLogin login (routeStatus U venue status now) := by
  refine .get fun dispatch => ?_
  split
  · exact .pure
  · dsimp only
    split
    · exact emitOrderRejectedCode_same
    · exact renderTrackedStatus_same

end Orders

theorem writeSub_same {symbol : Symbol} {sub : MdSymbolSub} : SameLogin login (writeSub symbol sub) :=
  modify_same fun _ => rfl

section MarketData
variable [Ironfix] {U : Upstream} {venue : AppState} {now : Nat}

theorem subscribeSymbols_same {request : MarketDataRequest} {symbols : List Symbol} :
    SameLogin login (subscribeSymbols venue request now symbols) := by
  induction symbols with
  | nil => exact .pure
  | cons symbol rest ih =>
    unfold subscribeSymbols
    dsimp only
    split
    · exact .bind writeSub_same fun _ => ih
    · exact .bind writeSub_same fun _ => .bind emit_same fun _ => .bind ih fun _ => .pure

theorem routeMarketData_same {request : MarketDataRequest} : SameLogin login (routeMarketData venue request now) := by
  unfold routeMarketData
  split
  · refine .get fun dispatch => ?_
    split
    · exact emitOne_same
    · exact .bind (modify_same fun _ => rfl) fun _ => .bind subscribeSymbols_same fun _ => .pure
  · exact .get fun _ => .bind (modify_same fun _ => rfl) fun _ => .pure

theorem resnapshotSubscriptions_same {live : List (Symbol × MdSymbolSub)} :
    SameLogin login (resnapshotSubscriptions venue now live) := by
  induction live with
  | nil => exact .pure
  | cons entry rest ih =>
    unfold resnapshotSubscriptions
    split
    · exact ih
    · exact .bind emit_same fun _ => .bind writeSub_same fun _ => .bind ih fun _ => .pure

theorem projectDeltas_same {messages : List MarketData.WsMessage} : SameLogin login (projectDeltas now messages) := by
  induction messages with
  | nil => exact .pure
  | cons message rest ih =>
    cases message with
    | orderbookDelta symbol sequence changes =>
      refine .get fun dispatch => ?_
      split
      · exact ih
      · refine .ite ih (.bind writeSub_same fun _ => ?_)
        split
        · exact ih
        · exact .bind emit_same fun _ => .bind ih fun _ => .pure
    | _ => exact ih

theorem drainMarketData_same : SameLogin login (drainMarketData venue now) := by
  refine .get fun dispatch => ?_
  split
  · exact .pure
  · refine .ite projectDeltas_same ?_
    split
    · exact projectDeltas_same
    · exact resnapshotSubscriptions_same
    · exact .bind (modify_same fun _ => rfl) fun _ => .pure

theorem appendMarketData_same {reaction : Reaction} : SameLogin login (appendMarketData venue reaction now) :=
  .get fun _ => .ite .pure (.bind drainMarketData_same fun _ => .pure)

theorem respond_same {disposition : ActiveDisposition} : SameLogin login (respond U venue disposition) := by
  cases disposition with
  | reacted reaction => exact .pure
  | route message =>
    refine .get fun dispatch => ?_
    dsimp only
    split
    · exact routeNewOrder_same
    · exact routeCancel_same
    · exact routeReplace_same
    · exact routeMassCancel_same
    · exact routeStatus_same
    · exact routeMarketData_same
    · exact .pure

end MarketData

/-- The account that a logon proves to speak for. -/
structure AppState.LogsInto (venue : AppState) (logon : Logon) (account : Account) : Prop where
  verified : (venue.verifyFixPassword logon.username logon.password).bind venue.account = some account
  live : account.revocationEpoch = 0
  compIds : account.fixCompIds = some (logon.header.senderCompId.val, logon.header.targetCompId.val)

/-- What an event leaves of a login: the login itself, or that of the account its logon proves. -/
def LoginAfter (venue : AppState) (logon? : Option Logon) (login after : Login) : Prop :=
  after = login ∨ ∃ logon account, logon? = some logon ∧ venue.LogsInto logon account ∧ after.Of account

theorem after_same {α : Type} {m : SessionM α} {venue : AppState} {logon? : Option Logon} (same : ∀ {login}, SameLogin login m) :
    Keeps (fun dispatch => LoginAfter venue logon? login dispatch.fsm.login) m := by
  intro dispatch held
  have kept := same dispatch rfl
  rw [kept]
  exact held

theorem resumeCounters_same {key : SessionKey} {stored : SessionCounters} {resetFlag : Bool} {logonSeq now : Nat} :
    SameLogin login (resumeCounters key stored resetFlag logonSeq now) := by
  unfold resumeCounters
  split
  · exact .bind onStore_same fun _ => .pure
  split
  · split
    · exact .throw
    · exact .pure
  · exact .pure

theorem tryClaim_same {key : SessionKey} : SameLogin login (tryClaim key) := by
  refine .transition fun dispatch held => ?_
  split <;> exact held

section Events
variable [Ironfix] {U : Upstream} {venue : AppState} {logon : Logon} {row : Account} {now : Nat} {event : SessionEvent}
  {dispatch : Dispatch}

theorem acknowledgeLogon_same {heartBtIntSecs : Nat} {resetFlag : Bool} {gapBegin : Option Nat} :
    SameLogin login (acknowledgeLogon heartBtIntSecs resetFlag gapBegin now) := by
  refine .bind emit_same fun ack => ?_
  split
  · exact .pure
  · exact .bind emit_same fun _ => .pure

theorem admitLogon_after {heartBtIntSecs logonSeq : Nat} {resetFlag : Bool} (proved : venue.LogsInto logon row) :
    Keeps (fun dispatch => LoginAfter venue (some logon) login dispatch.fsm.login)
      (admitLogon row.id row.permissions row.revocationEpoch heartBtIntSecs resetFlag logonSeq now) := by
  refine .get fun dispatch => ?_
  split
  · refine .bind (after_same onStore_same) fun stored => ?_
    split
    · exact after_same logoutClose_same
    · refine .bind ?_ fun _ => .bind (after_same resumeCounters_same) fun resumed => ?_
      · intro dispatch held
        exact Or.inr ⟨logon, row, rfl, proved, rfl, rfl, rfl, _, rfl, rfl⟩
      · exact .bind (after_same (setFsm_same fun _ => rfl)) fun _ => .bind (after_same onStore_same) fun _ =>
          .bind (after_same (setFsm_same fun _ => rfl)) fun _ => after_same acknowledgeLogon_same
  · exact .throw

/-- A logon binds the session to the account that it proves, or to none. -/
theorem handleLogon_after :
    Keeps (fun dispatch => LoginAfter venue (some logon) login dispatch.fsm.login) (handleLogon venue logon now) := by
  refine .get fun dispatch => ?_
  split
  · exact after_same logoutClose_same
  split
  · exact after_same logoutClose_same
  split
  · exact after_same logoutClose_same
  next row verified =>
  split
  · exact after_same logoutClose_same
  next live =>
  split
  · exact after_same logoutClose_same
  next compIds =>
  refine .bind (after_same tryClaim_same) fun claimed => ?_
  split
  · exact after_same logoutClose_same
  · exact admitLogon_after ⟨verified, Nat.eq_zero_of_not_pos live, not_not.1 compIds⟩

theorem onMessage_same {message : DecodedMessage} (serving : dispatch.fsm.phase.stage = 1) :
    (exec (onMessage U venue message) dispatch).2.fsm.login = dispatch.fsm.login := by
  have handled : SameLogin dispatch.fsm.login (handleActive message venue.nowMs (dispatch.revoked venue) >>= respond U venue >>=
      fun reaction => appendMarketData venue reaction venue.nowMs) :=
    .bind (.bind handleActive_same fun _ => respond_same) fun _ => appendMarketData_same
  have now := handled dispatch rfl
  unfold onMessage
  rw [exec_bind, reactTo_serving serving, ← exec_bind]
  exact now

/-- Only a logon binds a session, and only one that awaits it. -/
theorem SessionEvent.handle_after (event : SessionEvent) (dispatch : Dispatch) :
    ((event.handle U venue).exec dispatch).2.fsm.login = dispatch.fsm.login ∨
      dispatch.fsm.phase = .awaitingLogon ∧
        LoginAfter venue event.logon? dispatch.fsm.login ((event.handle U venue).exec dispatch).2.fsm.login := by
  cases event with
  | decodeError error =>
    have same : SameLogin dispatch.fsm.login (onDecodeError venue error) := by
      refine .get fun seen => ?_
      split
      · exact .pure
      · exact .pure
      · exact rejectDecodeError_same
      · exact rejectDecodeError_same
    exact Or.inl (same dispatch rfl)
  | tick =>
    have same : SameLogin dispatch.fsm.login (onTick venue) :=
      .get fun seen => .bind onTick_fsm_same fun _ => appendMarketData_same
    exact Or.inl (same dispatch rfl)
  | message decoded =>
    change (exec (onMessage U venue decoded) dispatch).2.fsm.login = _ ∨ _ ∧
      LoginAfter venue _ _ (exec (onMessage U venue decoded) dispatch).2.fsm.login
    cases phase : dispatch.fsm.phase with
    | active => exact Or.inl (onMessage_same (by rw [phase]; rfl))
    | awaitingResend => exact Or.inl (onMessage_same (by rw [phase]; rfl))
    | closing =>
      rw [onMessage_closing phase]
      exact Or.inl rfl
    | awaitingLogon =>
      cases asked : SessionEvent.logon? (.message decoded) with
      | none =>
        have same : SameLogin dispatch.fsm.login (logoutClose venue.nowMs "expected Logon" >>= fun reaction =>
            appendMarketData venue reaction venue.nowMs) :=
          .bind logoutClose_same fun _ => appendMarketData_same
        rw [onMessage_early phase asked]
        exact Or.inl (same _ rfl)
      | some logon =>
        obtain rfl : decoded = .logon logon := by
          cases decoded with
          | logon own => cases asked; rfl
          | _ => cases asked
        have after : Keeps (fun reached => LoginAfter venue (some logon) dispatch.fsm.login reached.fsm.login)
            (handleLogon venue logon venue.nowMs >>= fun reaction => appendMarketData venue reaction venue.nowMs) :=
          .bind handleLogon_after fun _ => after_same appendMarketData_same
        rw [onMessage_logon phase]
        exact Or.inr ⟨rfl, after _ (Or.inl rfl)⟩

/-- A logout that ends the session goes out alone. -/
theorem logoutClose_alone {reason : String} (dispatch : Dispatch) :
    (exec (logoutClose now reason) dispatch).2.calls = dispatch.calls ∧
      ∀ reaction, (exec (logoutClose now reason) dispatch).1 = .ok reaction → reaction.control = .close ∧
        ∃ header, reaction.frames = [.message (.logout ⟨header, some reason⟩)] := by
  refine ⟨?_, fun reaction finished => ?_⟩
  · have yields : Yields (fun _ => True) Reaction.frames (logoutClose now reason) := logoutClose_yields
    exact congrArg Standing.calls (yields dispatch (speaks_all dispatch)).1.standing
  · obtain ⟨⟨⟩, closing, closed, finished⟩ := exec_bind_eq_ok (Prod.ext finished rfl)
    obtain ⟨frame, middle, emitted, finished⟩ := exec_bind_eq_ok finished
    cases finished
    obtain ⟨⟨header, rfl⟩, -⟩ := emit_builds emitted
    exact ⟨rfl, header, rfl⟩

/-- A session that closes gets no more market data. -/
theorem appended_close {m : SessionM Reaction} {dispatch : Dispatch}
    (closes : ∀ reaction, (exec m dispatch).1 = .ok reaction → reaction.control = .close) :
    exec (m >>= fun reaction => appendMarketData venue reaction now) dispatch = exec m dispatch := by
  rw [exec_bind]
  revert closes
  rcases exec m dispatch with ⟨halt | reaction, reached⟩
  · exact fun _ => rfl
  · intro closes
    have closed := closes reaction rfl
    change exec (appendMarketData venue reaction now) reached = (.ok reaction, reached)
    unfold appendMarketData
    rw [exec_get_bind, if_pos (Or.inl closed)]
    rfl

/-- A session of a revoked account answers its next message, or the next tick, with the logout that ends it. -/
theorem onMessage_revoked {message : DecodedMessage} (serving : dispatch.fsm.phase.stage = 1)
    (revoked : dispatch.revoked venue = true) :
    exec (onMessage U venue message) dispatch =
      exec (logoutClose venue.nowMs "account revoked") (dispatch.heard (headerOf message) venue.nowMs) := by
  have reacted : exec (reactTo U venue message) dispatch =
      exec (logoutClose venue.nowMs "account revoked") (dispatch.heard (headerOf message) venue.nowMs) := by
    rw [reactTo_serving serving, revoked]
    unfold handleActive onInbound setFsm
    rw [bind_assoc, exec_modify_bind]
    simp only [if_true, bind_assoc, pure_bind, bind_pure, respond]
    rfl
  unfold onMessage
  rw [appended_close, reacted]
  rw [reacted]
  exact fun reaction finished => ((logoutClose_alone _).2 reaction finished).1

theorem onTick_revoked (serving : dispatch.fsm.phase.stage = 1) (revoked : dispatch.revoked venue = true) :
    exec (onTick venue) dispatch = exec (logoutClose venue.nowMs "account revoked") dispatch := by
  have ticked : exec (SessionFsm.onTick venue.nowMs (dispatch.revoked venue)) dispatch =
      exec (logoutClose venue.nowMs "account revoked") dispatch := by
    unfold SessionFsm.onTick
    rw [exec_get_bind, revoked]
    revert serving
    cases dispatch.fsm.phase with
    | awaitingLogon => nofun
    | closing => nofun
    | active => exact fun _ => rfl
    | awaitingResend => exact fun _ => rfl
  unfold onTick
  rw [exec_get_bind, appended_close, ticked]
  rw [ticked]
  exact fun reaction finished => ((logoutClose_alone _).2 reaction finished).1

end Events

theorem Sitting.serves {leases : List SessionKey} {session : VenueFixSession} (sitting : Sitting leases session) (bound : session.fsm.key.isSome) :
    session.fsm.phase.stage = 1 ∨ session.fsm.phase = .closing := by
  cases phase : session.fsm.phase with
  | active => exact Or.inl rfl
  | awaitingResend => exact Or.inl rfl
  | closing => exact Or.inr rfl
  | awaitingLogon =>
    rw [(sitting.waiting (by rw [phase]; rfl)).1] at bound
    cases bound

section Sessions
variable [Ironfix] {U : Upstream} {venue : AppState} {acceptor next : Acceptor} {action : AcceptorAction}
  {connection room : Nat} {session after : VenueFixSession} {event : SessionEvent} {outages : List (Option String)}

/-- Where the session of a connection comes from: it has been there, it is new, or it outlives a dispatch. -/
inductive Seated (U : Upstream) (acceptor : Acceptor) (connection : Nat) (after : VenueFixSession) : AcceptorAction → Prop
  | stayed {action : AcceptorAction} (present : acceptor.sessions connection = some after)
      (apart : ∀ event venue outages room, action ≠ .dispatch connection event venue outages room) :
      Seated U acceptor connection after action
  | accepted (peer : String) (nowMs : Nat) (fresh : after = .new peer acceptor.config nowMs) :
      Seated U acceptor connection after (.accept connection peer nowMs)
  | dispatched (event : SessionEvent) (venue : AppState) (outages : List (Option String)) (room : Nat)
      (session : VenueFixSession) (present : acceptor.sessions connection = some session)
      (live : outlives (acceptor.outcome U session event venue outages).1 room = true)
      (same : after = (acceptor.outcome U session event venue outages).2.toVenueFixSession) :
      Seated U acceptor connection after (.dispatch connection event venue outages room)

theorem Acceptor.step_seated (taken : acceptor.step U action = some next) (seated : next.sessions connection = some after) :
    Seated U acceptor connection after action := by
  cases action with
  | accept other peer nowMs =>
    simp only [Acceptor.step] at taken
    split at taken
    · cases taken
    cases taken
    change acceptor.seat other (some (.new peer acceptor.config nowMs)) connection = _ at seated
    by_cases mine : connection = other
    · subst mine
      rw [seat_self] at seated
      exact .accepted peer nowMs (Option.some.inj seated).symm
    · rw [seat_of_ne _ mine] at seated
      exact .stayed seated fun _ _ _ _ => AcceptorAction.noConfusion
  | dispatch other event venue outages room =>
    simp only [Acceptor.step] at taken
    split at taken
    next session present =>
      cases taken
      change acceptor.seat other (if outlives (acceptor.outcome U session event venue outages).1 room then
        some (acceptor.outcome U session event venue outages).2.toVenueFixSession else none) connection = _ at seated
      by_cases mine : connection = other
      · subst mine
        rw [seat_self] at seated
        split at seated
        next live => exact .dispatched event venue outages room session present live (Option.some.inj seated).symm
        next => cases seated
      · rw [seat_of_ne _ mine] at seated
        refine .stayed seated fun event venue outages room same => mine ?_
        cases same
        rfl
    · cases taken
  | disconnect other =>
    simp only [Acceptor.step] at taken
    split at taken
    next session present =>
      cases taken
      change acceptor.seat other none connection = _ at seated
      by_cases mine : connection = other
      · rw [mine, seat_self] at seated
        cases seated
      · rw [seat_of_ne _ mine] at seated
        exact .stayed seated fun _ _ _ _ => AcceptorAction.noConfusion
    · cases taken
  | crash =>
    cases taken
    cases seated

variable (event venue outages) in
/-- A dispatch hands at most one command to the exchange: a mutation under the session's own key, with the permission. -/
theorem Sitting.called (sitting : Sitting acceptor.leases session) :
    (acceptor.outcome U session event venue outages).2.calls = acceptor.calls ∨
      ∃ call, (acceptor.outcome U session event venue outages).2.calls = acceptor.calls ++ [call] ∧
        call.key = session.fsm.key ∧ session.fsm.key.isSome ∧ ∃ message, event = .message message ∧ Defers session.fsm message := by
  have reacted : Reacted event venue (acceptor.load session outages) (acceptor.outcome U session event venue outages).1
      (acceptor.outcome U session event venue outages).2 := sitting.reacted
  have same := event.heard_same venue (acceptor.load session outages)
  have calls : (event.heard venue (acceptor.load session outages)).calls = acceptor.calls := same.calls
  revert reacted
  rcases acceptor.outcome U session event venue outages with ⟨result, reached⟩
  intro reacted
  dsimp only at reacted ⊢
  cases reacted with
  | sent sends => exact Or.inl ((congrArg Standing.calls sends.standing).trans calls)
  | @turned key message asked bound turn =>
    have held : session.fsm.key = some key := bound
    cases turn.inbound with
    | stays still => exact Or.inl (still.calls.trans calls)
    | consumes numbered plain expected target kept => exact Or.inl (kept.trans calls)
    | withholds numbered mutation expected target kept => exact Or.inl (kept.trans calls)
    | fills reset asked gapFill forward expected target kept => exact Or.inl (kept.trans calls)
    | resets reset asked administrative expected target kept journal => exact Or.inl (kept.trans calls)
    | breaks stopped target kept => exact Or.inl (kept.trans calls)
    | submits numbered mutation call mine stamped expected target made =>
      refine Or.inr ⟨call, made.trans (congrArg (· ++ [call]) calls), mine.trans held.symm, by rw [held]; rfl, message, asked, ?_⟩
      subst asked
      unfold SessionEvent.heard at mutation
      dsimp only at mutation
      split at mutation
      · exact mutation
      · exact mutation
  | @logged logon asked waiting admission =>
    cases admission with
    | refused sends => exact Or.inl ((congrArg Standing.calls sends.standing).trans calls)
    | joined key joined =>
      have unbound : session.fsm.key = none := (sitting.waiting (by rw [show session.fsm.phase = _ from waiting]; rfl)).1
      refine Or.inl (Eq.trans ?_ calls)
      cases joined.inbound (same.key.trans unbound) with
      | refuses ended target kept => exact kept
      | abandons asked stopped kept journal => exact kept
      | resumes asked numbered expected target kept => exact kept
      | renews asked expected target kept journal => exact kept

variable (event outages) in
/-- After the revocation of its account a session hands nothing more to the exchange, and only an undecodable frame does
not end it. -/
theorem Sitting.revoked_called (sitting : Sitting acceptor.leases session) (bound : session.fsm.key.isSome)
    (revoked : session.revoked venue = true) :
    (acceptor.outcome U session event venue outages).2.calls = acceptor.calls := by
  rcases sitting.called (U := U) venue event outages with kept | ⟨call, -, -, -, message, rfl, -⟩
  · exact kept
  · change (exec (onMessage U venue message) (acceptor.load session outages)).2.calls = _
    rcases sitting.serves bound with serving | closing
    · rw [onMessage_revoked serving revoked]
      exact (logoutClose_alone _).1
    · rw [onMessage_closing closing]
      rfl

variable (event outages room) in
theorem Sitting.revoked_ends (sitting : Sitting acceptor.leases session) (bound : session.fsm.key.isSome)
    (revoked : session.revoked venue = true) (decoded : ∀ error, event ≠ .decodeError error) :
    outlives (acceptor.outcome U session event venue outages).1 room = false := by
  have ends : ∀ {start : Dispatch}, outlives (exec (logoutClose venue.nowMs "account revoked") start).1 room = false := by
    intro start
    have alone : ∀ reaction, (exec (logoutClose venue.nowMs "account revoked") start).1 = .ok reaction → reaction.control = .close :=
      fun reaction finished => ((logoutClose_alone start).2 reaction finished).1
    revert alone
    rcases exec (logoutClose venue.nowMs "account revoked") start with ⟨halt | reaction, reached⟩
    · exact fun _ => rfl
    · intro alone
      simp [outlives, alone reaction rfl]
  cases event with
  | decodeError error => exact absurd rfl (decoded error)
  | message message =>
    change outlives (exec (onMessage U venue message) (acceptor.load session outages)).1 room = false
    rcases sitting.serves bound with serving | closing
    · rw [onMessage_revoked serving revoked]
      exact ends
    · rw [onMessage_closing closing]
      rfl
  | tick =>
    change outlives (exec (onTick venue) (acceptor.load session outages)).1 room = false
    rcases sitting.serves bound with serving | closing
    · rw [onTick_revoked serving revoked]
      exact ends
    · have ticked : exec (onTick venue) (acceptor.load session outages) = (.ok .closeSilent, acceptor.load session outages) := by
        unfold onTick SessionFsm.onTick
        rw [exec_get_bind, bind_assoc, exec_get_bind, show (acceptor.load session outages).fsm.phase = _ from closing]
        rfl
      rw [ticked]
      rfl

end Sessions

end Fauxchange.Fix
