import Fauxchange.Fix.MassCancel
import Fauxchange.Lib.GuardedRuns
import Fauxchange.Venue.FloorAnswers
import Fauxchange.Venue.OrderIds

/-! The sessions on the floor of a venue. A session hands one order message at a time to the exchange, waits until the
actors have taken it, and renders the execution reports of their answers; meanwhile the other sessions and the venue's
other producers go on. -/

namespace Fauxchange.Fix
open Exchange Lib Venue OrderFlow Fallible

abbrev OrderMap := Std.ExtTreeMap ClientOrderId PlacedOrder

/-- What a session asks of one actor. -/
inductive Request where
  | place (order : NewOrderSingle) (account : AccountId) (admitted : Admitted)
  | cancel (order : OrderCancelRequest) (account : AccountId) (resolved : ResolvedOrder)
  | replace (order : OrderCancelReplaceRequest) (account : AccountId) (resolved : ResolvedOrder)
      (newOrderId : VenueOrderId)

/-- A full map leaves a new client id untracked. -/
def tracked (placed : OrderMap) (clOrdId : ClientOrderId) (order : PlacedOrder) : OrderMap :=
  if maxTrackedOrdersPerSession ≤ placed.size ∧ clOrdId ∉ placed then placed else placed.insert clOrdId order

namespace Request

def command : Request → VenueCommand
  | .place _ _ admitted => admitted.command
  | .cancel order account resolved => toCancelCommand order account resolved.orderId
  | .replace order account resolved newOrderId => toReplaceCommand order account resolved.orderId newOrderId

/-- Whether an answer is rendered as a reject, and not as execution reports. -/
def refused (receipt : Receipt) : Request → Bool
  | .replace .. =>
    match receipt.outcome with
    | some (.rejected ..) | some (.replace _ (.rejected ..)) => true
    | _ => false
  | _ =>
    match receipt.outcome with
    | some (.rejected ..) => true
    | _ => false

/-- The orders that the session tracks after an answer. -/
def orders (receipt : Receipt) (placed : OrderMap) : Request → OrderMap
  | .place order _ admitted =>
    match receipt.outcome with
    | some (.rejected ..) => placed
    | _ => tracked placed order.clOrdId
      ⟨⟨admitted.orderId, order.symbol, order.side, order.orderQty⟩, .ofNewOrder order⟩
  | .cancel order _ _ =>
    match receipt.outcome with
    | some (.rejected ..) => placed
    | _ => placed.erase order.origClOrdId
  | .replace order _ _ newOrderId =>
    match receipt.outcome with
    | some (.rejected ..) => placed
    | some (.replace cancelled (.rejected ..)) => if cancelled then placed.erase order.origClOrdId else placed
    | _ => tracked (placed.erase order.origClOrdId) order.clOrdId
      ⟨⟨newOrderId, order.symbol, order.side, order.orderQty⟩, .ofReplace order⟩

section Rendering
variable (U : Upstream) (venue : AppState)

/-- The legs that are read back for the trades of an answer. -/
def takerLegs (receipt : Receipt) : Request → List ExecutionRecord
  | .place _ account admitted => venue.immediateExecutionRecords account admitted.orderId receipt.underlyingSequence
  | .cancel .. => []
  | .replace _ account _ newOrderId => venue.immediateExecutionRecords account newOrderId receipt.underlyingSequence

/-- The execution reports of an answer that is no refusal. -/
def reports (receipt : Receipt) (request : Request) : List ExecReportSpec :=
  match request with
  | .place order _ admitted =>
    renderNewOrderReports order admitted.orderId receipt.underlyingSequence receipt.venueTs venue.lineageId
      admitted.underlying admitted.tif (request.takerLegs venue receipt)
  | .cancel _ _ resolved =>
    [renderCancelReport resolved.symbol resolved.side resolved.orderId receipt.underlyingSequence receipt.venueTs
      venue.lineageId (underlyingOfSymbol U resolved.symbol)]
  | .replace order _ _ newOrderId =>
    renderReplaceReports order newOrderId receipt.underlyingSequence receipt.venueTs venue.lineageId
      (underlyingOfSymbol U order.symbol) (request.takerLegs venue receipt)

variable [Ironfix]

def render (receipt : Receipt) (now : Nat) : Request → SessionM Reaction
  | .place order account admitted => renderPlaced venue order account admitted receipt now
  | .cancel order _ resolved => renderCancelled U venue order resolved receipt now
  | .replace order account resolved newOrderId =>
    renderReplaced U venue order account resolved newOrderId receipt now

/-- The reject of a request that the exchange has not answered with a receipt. -/
def reject (error : VenueError) (now : Nat) : Request → SessionM Reaction
  | .place order _ _ => rejectNewOrder order error now
  | .cancel order _ resolved =>
    rejectCancel resolved.orderId order.origClOrdId order.clOrdId .orderCancelRequest error now
  | .replace order _ resolved _ =>
    rejectCancel resolved.orderId order.origClOrdId order.clOrdId .orderCancelReplaceRequest error now

/-- An answer that is no refusal is rendered as its execution reports, after the session has noted it. -/
theorem render_exec {request : Request} {receipt : Receipt} (taken : request.refused receipt = false) (now : Nat)
    (dispatch : Dispatch) :
    exec (request.render U venue receipt now) dispatch =
      exec (emitReportSpecs (request.reports U venue receipt) now)
        { dispatch with placed := request.orders receipt dispatch.placed } := by
  have noted : ∀ (start : Dispatch) clOrdId (order : PlacedOrder) (next : SessionM Reaction),
      exec (trackPlaced clOrdId order >>= fun _ => next) start =
        exec next { start with placed := tracked start.placed clOrdId order } := by
    intro start clOrdId order next
    unfold trackPlaced tracked
    rw [exec_modify_bind]
    split <;> rfl
  obtain ⟨sequence, venueTs, outcome, fanout⟩ := receipt
  cases request with
  | place order account admitted =>
    cases outcome with
    | none => exact noted dispatch _ _ _
    | some outcome =>
      cases outcome with
      | rejected => cases taken
      | _ => exact noted dispatch _ _ _
  | cancel order account resolved =>
    cases outcome with
    | none => exact exec_modify_bind _ _ _
    | some outcome =>
      cases outcome with
      | rejected => cases taken
      | _ => exact exec_modify_bind _ _ _
  | replace order account resolved newOrderId =>
    have replaced : ∀ (entry : PlacedOrder) (next : SessionM Reaction),
        exec (dropPlaced order.origClOrdId >>= fun _ => trackPlaced order.clOrdId entry >>= fun _ => next) dispatch =
          exec next { dispatch with
            placed := tracked (dispatch.placed.erase order.origClOrdId) order.clOrdId entry } := by
      intro entry next
      exact (exec_modify_bind _ _ _).trans (noted _ _ _ _)
    cases outcome with
    | none => exact replaced _ _
    | some outcome =>
      cases outcome with
      | rejected => cases taken
      | replace cancelled add =>
        cases add with
        | rejected => cases taken
        | _ => exact replaced _ _
      | _ => exact replaced _ _

end Rendering

end Request

section Sweeps
variable (U : Upstream) (venue : AppState)

/-- A session after it has dropped the swept orders that it tracks. -/
def droppedOrders (placed : OrderMap) (affected : List SweptLeg) : OrderMap :=
  affected.foldl (fun placed swept =>
    match (visit venue.hashOrder 0 placed.toList).find? fun entry => entry.2.orderId = swept.leg.orderId with
    | some (clOrdId, _) => placed.erase clOrdId
    | none => placed) placed

/-- The reports of the swept legs, numbered over the whole venue. -/
def sweptSpecs (now index : Nat) (affected : List SweptLeg) : List ExecReportSpec :=
  (affected.zipIdx index).map fun entry =>
    renderMassCancelLegReport entry.1.leg.symbol (fixSide entry.1.leg.side) entry.1.leg.orderId entry.1.sequence now
      venue.lineageId (underlyingOfSymbol U entry.1.leg.symbol) entry.2

theorem sweptReports_exec {now index : Nat} {affected : List SweptLeg} (few : index + affected.length ≤ u32Max)
    (dispatch : Dispatch) :
    exec (sweptReports U venue now index affected) dispatch =
      (.ok (sweptSpecs U venue now index affected),
        { dispatch with placed := droppedOrders venue dispatch.placed affected }) := by
  induction affected generalizing index dispatch with
  | nil => rfl
  | cons swept rest ih =>
    rw [List.length_cons] at few
    have dropped : ∀ next : SessionM (List ExecReportSpec),
        exec (dropPlacedOrder venue swept.leg.orderId >>= fun _ => next) dispatch =
          exec next { dispatch with placed := droppedOrders venue dispatch.placed [swept] } := by
      intro next
      unfold dropPlacedOrder droppedOrders
      rw [exec_modify_bind, List.foldl_cons, List.foldl_nil]
      cases (visit venue.hashOrder 0 dispatch.placed.toList).find? fun entry => entry.2.orderId = swept.leg.orderId <;>
        rfl
    unfold sweptReports
    rw [dropped, if_neg (by omega), exec_bind_ok (ih (by omega) _)]
    rfl

end Sweeps

/-- What a session waits for: an actor that is to take its request, the answer that it is to render, or a sweep that
goes from actor to actor. -/
inductive Errand where
  | asked (request : Request)
  | answered (request : Request) (receipt : Receipt)
  | sweeping (command : VenueCommand) (course : Course)

/-- What an order message makes of a session that is free, if anything goes to the exchange. -/
def errandOf (U : Upstream) (gateway : VenueState) (venue : AppState) (session : VenueFixSession) :
    DecodedMessage → Option Errand
  | .newOrderSingle order =>
    match session.fsm.account, session.placed[order.clOrdId]? with
    | some account, none =>
      (admitNewOrder U venue session account order).toOption.map fun admitted => .asked (.place order account admitted)
    | _, _ => none
  | .orderCancelRequest cancel =>
    match session.fsm.account with
    | some account =>
      if session.rateLimited venue then none
      else (session.resolveOrder venue account cancel.origClOrdId).map fun resolved =>
        .asked (.cancel cancel account resolved)
    | none => none
  | .orderCancelReplaceRequest replace =>
    match session.fsm.account with
    | some account =>
      if session.rateLimited venue then none
      else (session.resolveOrder venue account replace.origClOrdId).map fun resolved =>
        .asked (.replace replace account resolved (venue.mintOrderId (underlyingOfSymbol U replace.symbol)))
    | none => none
  | .orderMassCancelRequest request =>
    match session.fsm.account with
    | some account =>
      if session.rateLimited venue then none
      else match venue.ownerFor account, massCancelScope request with
      | .ok owner, some (scope, _) =>
        let command := VenueCommand.massCancel scope (.byUser owner) account
        some (.sweeping command (.start U gateway.microstructure gateway.underlyings command))
      | _, _ => none
    | none => none
  | _ => none

section Routing
variable [Ironfix] (U : Upstream) (venue : AppState)

/-- A message that asks something of an actor is routed as one submission, the rendering of its answer, and the deferred
advance. -/
theorem routeOrder_exec {gateway : VenueState} {message : DecodedMessage} {request : Request} {dispatch : Dispatch}
    (asks : errandOf U gateway venue dispatch.toVenueFixSession message = some (.asked request)) (now : Nat) :
    exec (routeOrder U venue message now) dispatch =
      exec (do
        match ← submitting (venue.submit request.command (dispatch.ingressStamp message)) request.command
          (dispatch.ingressStamp message) with
        | .ok receipt => do
          let reaction ← request.render U venue receipt now
          persistInbound
          pure reaction
        | .error error => request.reject error now) dispatch := by
  unfold routeOrder
  rw [exec_get_bind]
  dsimp only
  cases message with
  | newOrderSingle order =>
    dsimp only [errandOf] at asks
    split at asks
    next account loggedOn free =>
      obtain ⟨admitted, allowed, same⟩ := Option.map_eq_some_iff.1 asks
      cases same
      dsimp only
      unfold routeNewOrder
      rw [exec_get_bind, loggedOn]
      dsimp only
      rw [free]
      dsimp only
      rw [except_of_toOption allowed]
      rfl
    next => cases asks
  | orderCancelRequest cancel =>
    dsimp only [errandOf] at asks
    split at asks
    next account loggedOn =>
      split at asks
      · cases asks
      next calm =>
        obtain ⟨resolved, found, same⟩ := Option.map_eq_some_iff.1 asks
        cases same
        dsimp only
        unfold routeCancel
        rw [exec_get_bind, loggedOn]
        dsimp only
        rw [if_neg calm, found]
        rfl
    next => cases asks
  | orderCancelReplaceRequest replace =>
    dsimp only [errandOf] at asks
    split at asks
    next account loggedOn =>
      split at asks
      · cases asks
      next calm =>
        obtain ⟨resolved, found, same⟩ := Option.map_eq_some_iff.1 asks
        cases same
        dsimp only
        unfold routeReplace
        rw [exec_get_bind, loggedOn]
        dsimp only
        rw [if_neg calm, found]
        rfl
    next => cases asks
  | orderMassCancelRequest request =>
    dsimp only [errandOf] at asks
    split at asks
    next =>
      split at asks
      · cases asks
      · split at asks <;> cases asks
    next => cases asks
  | _ => cases asks

/-- A mass cancel is routed as one sweep, and the rendering of its legs. -/
theorem routeOrder_sweeps {gateway : VenueState} {message : DecodedMessage} {command : VenueCommand} {course : Course}
    {dispatch : Dispatch}
    (asks : errandOf U gateway venue dispatch.toVenueFixSession message = some (.sweeping command course)) (now : Nat) :
    course = .start U gateway.microstructure gateway.underlyings command ∧ ∃ response,
      exec (routeOrder U venue message now) dispatch =
        exec (do
          match ← submitting (venue.submitMassCancel command) command (dispatch.ingressStamp message) with
          | .ok delivery => do
            let reaction ← renderMassCancel U venue response delivery.swept now
            persistInbound
            pure reaction
          | .error _ => emitMassCancelRejected now) dispatch := by
  unfold routeOrder
  rw [exec_get_bind]
  dsimp only
  cases message with
  | orderMassCancelRequest request =>
    dsimp only [errandOf] at asks
    split at asks
    next account loggedOn =>
      split at asks
      · cases asks
      next calm =>
        split at asks
        next owner scope response owned asked =>
          cases asks
          refine ⟨rfl, response, ?_⟩
          dsimp only
          unfold routeMassCancel
          rw [exec_get_bind, loggedOn]
          dsimp only
          rw [if_neg calm, owned, asked] <;> rfl
        next => cases asks
    next => cases asks
  | newOrderSingle order =>
    dsimp only [errandOf] at asks
    split at asks
    · obtain ⟨admitted, -, same⟩ := Option.map_eq_some_iff.1 asks
      cases same
    · cases asks
  | orderCancelRequest cancel =>
    dsimp only [errandOf] at asks
    split at asks
    · split at asks
      · cases asks
      · obtain ⟨resolved, -, same⟩ := Option.map_eq_some_iff.1 asks
        cases same
    · cases asks
  | orderCancelReplaceRequest replace =>
    dsimp only [errandOf] at asks
    split at asks
    · split at asks
      · cases asks
      · obtain ⟨resolved, -, same⟩ := Option.map_eq_some_iff.1 asks
        cases same
    · cases asks
  | _ => cases asks

end Routing

/-- What the other producers put before the actors: an order under an id that is minted for its underlying, a quote of
the market maker under an id of its own, or a command that brings no order. -/
inductive Produced where
  | place (order : AddOrder) (index : Nat)
  | amend (order : Replace) (index : Nat)
  | quote (symbol : Symbol) (side : Side) (price quantity sequence : Nat)
  | other (command : { command : VenueCommand // command.placedId = none })

def Produced.command (U : Upstream) (lineage : LineageId) : Produced → VenueCommand
  | .place order index =>
    .addOrder { order with orderId := mintedId lineage (underlyingOfSymbol U order.symbol) index }
  | .amend order index =>
    .replace { order with newOrderId := mintedId lineage (underlyingOfSymbol U order.symbol) index }
  | .quote symbol side price quantity sequence =>
    (MakerCommand.add symbol (lineage ++ ":MM:" ++ toString sequence) side price quantity).command
  | .other command => command.1

/-- A command that brings an order goes to the actor of its symbol. -/
def delivers (U : Upstream) (underlying : String) (command : VenueCommand) : Bool :=
  command.placedId.isNone || VenueState.routableUnderlying U command == some underlying

/-- A venue with its sessions: each has at most one errand. The execution reports that have been rendered are kept beside
them, from all sessions and in one list. -/
structure Trading (U : Upstream) where
  floor : Floor U
  gateway : VenueState
  sessions : String → VenueFixSession
  errands : String → Option Errand
  reports : List ExecReportSpec

/-- A producer's command takes its turn; a connection has a new session, or its session goes through what concerns no
order; a free session is handed an order message; an actor takes what a session waits for, or its mailbox refuses it; a
session renders its answer. -/
inductive TradeStep where
  | produce (underlying : String) (venueTs : Nat) (produced : Produced)
  | renew (connection : String) (session : VenueFixSession) (kept : Bool)
  | ask (connection : String) (venue : AppState) (message : DecodedMessage)
  | take (connection : String) (venueTs : Nat)
  | refuse (connection : String) (error : VenueError)
  | render (connection : String) (venue : AppState)

namespace Trading
variable {U : Upstream} (state : Trading U)

/-- The venue as a session sees it: the exchange is the floor, and the rest is as it happens to be. -/
def see (venue : AppState) : AppState :=
  { venue with
    lineageId := state.floor.lineageId
    resolveClientOrderId := state.floor.clordidIndex.resolve
    executions := fun account => .ok (state.floor.executions.list account ⟨none, none⟩) }

def setErrand (connection : String) (errand : Option Errand) : Trading U :=
  { state with errands := Function.update state.errands connection errand }

def setOrders (connection : String) (placed : OrderMap) : Trading U :=
  let session := state.sessions connection
  { state with sessions := Function.update state.sessions connection { session with placed := placed } }

/-- The gateway hands a request to the actor of its underlying. -/
def taking (connection : String) (venueTs : Nat) (request : Request) : Trading U :=
  match state.gateway.submit U request.command with
  | .ok [delivery] =>
    match state.floor.turn delivery.underlying ⟨venueTs, delivery.command⟩ with
    | (.ok receipt, floor) => { state with floor := floor }.setErrand connection (some (.answered request receipt))
    | (.error _, floor) => { state with floor := floor }.setErrand connection none
  | _ => state.setErrand connection none

/-- The next actor takes a sweep. -/
def visiting (connection : String) (venueTs : Nat) (command : VenueCommand) (course : Course) (ticker : String) :
    Trading U :=
  let turned := state.floor.turn ticker ⟨venueTs, command⟩
  { state with floor := turned.2 }.setErrand connection
    (some (.sweeping command (course.answer (turned.1.mapError .ofSequenced))))

/-- An answered request is rendered, and the session is free again. -/
def rendering (connection : String) (venue : AppState) (request : Request) (receipt : Receipt) : Trading U :=
  let done := (state.setOrders connection (request.orders receipt (state.sessions connection).placed)).setErrand
    connection none
  { done with reports := state.reports ++ if request.refused receipt then [] else
      request.reports U (state.see venue) receipt }

/-- The legs of a sweep are rendered; more than can be numbered seal the session. -/
def renderingSwept (connection : String) (venue : AppState) (affected : List SweptLeg) : Trading U :=
  if affected.length ≤ u32Max then
    let done := (state.setOrders connection (droppedOrders venue (state.sessions connection).placed affected)).setErrand
      connection none
    { done with reports := state.reports ++ sweptSpecs U (state.see venue) venue.nowMs 0 affected }
  else (state.setOrders connection ∅).setErrand connection none

def move : TradeStep → Option (Trading U)
  | .produce underlying venueTs produced =>
    let command := produced.command U state.floor.lineageId
    if delivers U underlying command then
      some { state with floor := (state.floor.turn underlying ⟨venueTs, command⟩).2 }
    else none
  | .renew connection session kept =>
    let placed := if kept then (state.sessions connection).placed else ∅
    some ({ state with sessions := Function.update state.sessions connection { session with placed := placed } }.setErrand
      connection none)
  | .ask connection venue message =>
    match state.errands connection with
    | none => (errandOf U state.gateway (state.see venue) (state.sessions connection) message).map fun errand =>
      state.setErrand connection (some errand)
    | some _ => none
  | .take connection venueTs =>
    match state.errands connection with
    | some (.asked request) => some (state.taking connection venueTs request)
    | some (.sweeping command course) => course.next?.map (state.visiting connection venueTs command course)
    | _ => none
  | .refuse connection error =>
    match state.errands connection with
    | some (.asked _) => some (state.setErrand connection none)
    | some (.sweeping command course) =>
      some (state.setErrand connection (some (.sweeping command (course.answer (.error error)))))
    | _ => none
  | .render connection venue =>
    match state.errands connection with
    | some (.answered request receipt) => some (state.rendering connection venue request receipt)
    | some (.sweeping _ (.replied (.ok delivery))) => some (state.renderingSwept connection venue delivery.swept)
    | some (.sweeping _ (.replied (.error _))) => some (state.setErrand connection none)
    | _ => none

/-- The journal refuses an event that is over its ceiling: a refusal is a fault of its script, and a turn that has
journaled such an event is none. -/
def step (serializedLen : JournalRecord → Nat) (action : TradeStep) : Option (Trading U) :=
  (state.move action).filter fun next =>
    (next.floor.journaled.drop state.floor.journaled.length).all fun entry =>
      (checkRecordSize serializedLen (.event entry.2)).isOk

/-- A venue before the first step of its sessions: none tracks an order. -/
def opened (floor : Floor U) (gateway : VenueState) (sessions : String → VenueFixSession) : Trading U :=
  ⟨floor, gateway, fun connection => { sessions connection with placed := ∅ }, fun _ => none, []⟩

def run (serializedLen : JournalRecord → Nat) : List TradeStep → Option (Trading U) :=
  runFrom (fun state => state.step serializedLen) state

end Trading

end Fauxchange.Fix
