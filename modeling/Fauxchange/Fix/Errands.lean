import Fauxchange.Fix.ReportIds
import Fauxchange.Fix.StatusReport

/-! What the errand of a session stands on while the other sessions go on. The order of a request is minted for the
underlying that its reports name; an answer is that of a journaled event whose legs are listed; and the legs of a sweep
are those of the sweep's events. -/

namespace Fauxchange.Venue
open Exchange Lib

/-- What the gateway hands to one actor, where the route is that of a symbol. -/
theorem VenueState.submit_single {U : Upstream} {venue : VenueState} {command : VenueCommand} {delivery : Delivery}
    {symbol : Symbol} (one : isVenueGlobal command = false)
    (routed : venue.route U command = venue.routeSymbol U symbol) (sent : venue.submit U command = .ok [delivery]) :
    delivery.command = command ∧ underlyingOf U symbol = some delivery.underlying := by
  unfold submit at sent
  rw [one] at sent
  split at sent
  · cases sent
  · rw [if_neg Bool.false_ne_true, routed] at sent
    split at sent
    · cases sent
    next underlying found =>
      cases sent
      refine ⟨rfl, ?_⟩
      unfold routeSymbol handleFor at found
      unfold underlyingOf
      split at found
      · cases found
      next parsed shape =>
        split at found
        · cases found
          rw [shape]
          rfl
        · cases found

end Fauxchange.Venue

namespace Fauxchange.Fix
open Exchange Lib Venue OrderFlow

/-- An order whose id is minted for the underlying of its symbol. -/
def ResolvedOrder.Minted (U : Upstream) (lineage : LineageId) (order : ResolvedOrder) : Prop :=
  ∃ index, order.orderId = mintedId lineage (underlyingOfSymbol U order.symbol) index

/-- The orders that a session tracks. -/
def OrdersMinted (U : Upstream) (lineage : LineageId) (placed : OrderMap) : Prop :=
  ∀ (clOrdId : ClientOrderId) (order : PlacedOrder), placed[clOrdId]? = some order →
    order.toResolvedOrder.Minted U lineage

namespace OrdersMinted
variable {U : Upstream} {lineage : LineageId} {placed : OrderMap}

theorem empty : OrdersMinted U lineage ∅ := by
  intro clOrdId order found
  rw [Std.ExtTreeMap.getElem?_empty] at found
  cases found

theorem erase (minted : OrdersMinted U lineage placed) (clOrdId : ClientOrderId) :
    OrdersMinted U lineage (placed.erase clOrdId) := by
  intro other order found
  rw [Std.ExtTreeMap.getElem?_erase] at found
  split at found
  · cases found
  · exact minted other order found

theorem tracked (minted : OrdersMinted U lineage placed) (clOrdId : ClientOrderId) {order : PlacedOrder}
    (own : order.toResolvedOrder.Minted U lineage) : OrdersMinted U lineage (tracked placed clOrdId order) := by
  unfold Fix.tracked
  split
  · exact minted
  · intro other found held
    rw [Std.ExtTreeMap.getElem?_insert] at held
    split at held
    · obtain rfl := Option.some.inj held
      exact own
    · exact minted other found held

theorem dropped (minted : OrdersMinted U lineage placed) (venue : AppState) (affected : List SweptLeg) :
    OrdersMinted U lineage (droppedOrders venue placed affected) := by
  induction affected generalizing placed with
  | nil => exact minted
  | cons swept rest ih =>
    unfold droppedOrders
    rw [List.foldl_cons]
    refine ih ?_
    split
    · exact minted.erase _
    · exact minted

end OrdersMinted

namespace Request

/-- The underlying that the reports of an answer name. -/
def home (U : Upstream) : Request → String
  | .place _ _ admitted => admitted.underlying
  | .cancel _ _ resolved => underlyingOfSymbol U resolved.symbol
  | .replace order _ _ _ => underlyingOfSymbol U order.symbol

/-- The order of a request is minted for the underlying that its reports name. -/
def Minted (U : Upstream) (lineage : LineageId) : Request → Prop
  | .place order account admitted =>
    admitted.underlying = underlyingOfSymbol U order.symbol ∧
      (∃ index, admitted.orderId = mintedId lineage admitted.underlying index) ∧
        ∃ placed : AddOrder, admitted.command = .addOrder placed ∧ placed.symbol = order.symbol ∧
          placed.orderId = admitted.orderId ∧ placed.account = account
  | .cancel _ _ resolved => resolved.Minted U lineage
  | .replace order _ _ newOrderId => ∃ index, newOrderId = mintedId lineage (underlyingOfSymbol U order.symbol) index

section Requests
variable {U : Upstream} {lineage : LineageId} {request : Request}

/-- What a session tracks after an answer. -/
theorem Minted.orders (minted : request.Minted U lineage) (receipt : Receipt) {placed : OrderMap}
    (all : OrdersMinted U lineage placed) : OrdersMinted U lineage (request.orders receipt placed) := by
  cases request with
  | place order account admitted =>
    obtain ⟨home, ⟨index, named⟩, -⟩ := minted
    dsimp only [Request.orders]
    split
    · exact all
    · exact all.tracked _ ⟨index, home ▸ named⟩
  | cancel order account resolved =>
    dsimp only [Request.orders]
    split
    · exact all
    · exact all.erase _
  | replace order account resolved newOrderId =>
    dsimp only [Request.orders]
    split
    · exact all
    · split
      · exact all.erase _
      · exact all
    · exact (all.erase _).tracked _ minted

/-- What a request brings to the actor that the gateway hands it to. -/
theorem Minted.sent (minted : request.Minted U lineage) {gateway : VenueState} {delivery : Delivery}
    (sent : gateway.submit U request.command = .ok [delivery]) :
    delivery.command = request.command ∧ BroughtTo lineage delivery.underlying request.command ∧
      (request.command.placedId ≠ none → request.home U = delivery.underlying) := by
  cases request with
  | place order account admitted =>
    obtain ⟨home, ⟨index, named⟩, placed, adds, symbol, id, -⟩ := minted
    have command : (Request.place order account admitted).command = .addOrder placed := adds
    rw [command] at sent ⊢
    obtain ⟨same, routed⟩ := VenueState.submit_single rfl rfl sent
    have here : admitted.underlying = delivery.underlying := by
      rw [home, ← symbol]
      unfold underlyingOfSymbol
      rw [routed]
      rfl
    refine ⟨same, .minted index ?_, fun _ => here⟩
    rw [← here, ← named, ← id]
    rfl
  | cancel order account resolved =>
    obtain ⟨same, -⟩ := VenueState.submit_single rfl rfl sent
    exact ⟨same, .nothing rfl, fun wrong => absurd rfl wrong⟩
  | replace order account resolved newOrderId =>
    obtain ⟨index, named⟩ := minted
    obtain ⟨same, routed⟩ := VenueState.submit_single rfl rfl sent
    have here : underlyingOfSymbol U order.symbol = delivery.underlying := by
      unfold underlyingOfSymbol
      rw [show underlyingOf U order.symbol = some delivery.underlying from routed]
      rfl
    refine ⟨same, .minted index ?_, fun _ => here⟩
    rw [← here, ← named]
    rfl

/-- The actor that has taken a request is that of the underlying that the reports name. -/
theorem Minted.home_eq (minted : request.Minted U lineage) {gateway : VenueState} {delivery : Delivery}
    (sent : gateway.submit U request.command = .ok [delivery]) {floor : Floor U} (same : floor.lineageId = lineage)
    (homed : floor.Homed) {venueTs : Nat} {receipt : Receipt}
    (answered : (floor.turn delivery.underlying ⟨venueTs, delivery.command⟩).1 = .ok receipt)
    (taken : request.refused receipt = false) : request.home U = delivery.underlying := by
  obtain ⟨command, -, placing⟩ := minted.sent sent
  cases request with
  | cancel order account resolved =>
    obtain ⟨index, named⟩ := minted
    have accepted : ∀ kind reason, receipt.outcome ≠ some (.rejected kind reason) := by
      intro kind reason rejected
      dsimp only [refused] at taken
      rw [rejected] at taken
      cases taken
    have cancels : (⟨venueTs, delivery.command⟩ : Submission).command = .cancelOrder order.symbol resolved.orderId account :=
      command
    exact homed.cancelled cancels answered accepted _ index (same ▸ named)
  | place order account admitted =>
    obtain ⟨-, -, placed, adds, -⟩ := minted
    refine placing ?_
    rw [show (Request.place order account admitted).command = .addOrder placed from adds]
    exact Option.some_ne_none _
  | replace order account resolved newOrderId => exact placing (Option.some_ne_none _)

end Requests

end Request

/-- What a sweep has accumulated. -/
def Course.swept : Course → List SweptLeg
  | .book _ => []
  | .fan loop => loop.aggregated
  | .replied (.ok delivery) => delivery.swept
  | .replied (.error _) => []

theorem Course.start_swept (U : Upstream) (config : Microstructure.MicrostructureConfig) (tickers : List String)
    (command : VenueCommand) : (Course.start U config tickers command).swept = [] := by
  unfold start
  split
  · split
    · split <;> rfl
    · split <;> rfl
  · rfl

/-- An answer adds the legs of its receipt. -/
theorem Course.answer_swept (course : Course) (result : Except VenueError Receipt) :
    (course.answer result).swept ⊆ course.swept ++ (result.toOption.map sweptLegsOf).getD [] := by
  cases course with
  | book ticker =>
    cases result with
    | error => exact List.nil_subset _
    | ok receipt => exact List.Subset.refl _
  | fan loop =>
    have taken : (loop.take result).aggregated ⊆ loop.aggregated ++ (result.toOption.map sweptLegsOf).getD [] := by
      cases result with
      | error => exact List.subset_append_left _ _
      | ok receipt => exact List.Subset.refl _
    dsimp only [answer]
    split
    · dsimp only [SweepLoop.finish]
      split
      · exact List.nil_subset _
      · exact taken
    · exact taken
  | replied reply =>
    exact List.subset_append_left _ _

section Grounds
variable {U : Upstream} (serializedLen : JournalRecord → Nat) (floor : Floor U)

/-- An answer is that of a journaled event: its legs are listed, and the journal has taken its size. -/
structure AnsweredBy (request : Request) (receipt : Receipt) (event : VenueEvent) : Prop where
  journaled : (request.home U, event) ∈ floor.journaled
  command : event.command = request.command
  sequence : event.underlyingSequence = receipt.underlyingSequence
  lists : floor.Lists event
  fits : serializedLen (.event event) ≤ maxJournalRecordBytes

namespace Errand

/-- The positions that the reports of an errand are to stand at. -/
def positions (U : Upstream) : Errand → List (String × Nat)
  | .asked _ => []
  | .answered request receipt =>
    if request.refused receipt then [] else [(request.home U, receipt.underlyingSequence)]
  | .sweeping _ course => course.swept.map fun swept => (underlyingOfSymbol U swept.leg.symbol, swept.sequence)

/-- What an errand stands on. -/
def Grounded : Errand → Prop
  | .asked request => request.Minted U floor.lineageId
  | .answered request receipt => request.Minted U floor.lineageId ∧
      (request.refused receipt = false → ∃ event, AnsweredBy serializedLen floor request receipt event)
  | .sweeping command course => (∃ scope cancelType account, command = .massCancel scope cancelType account) ∧
      ∀ swept ∈ course.swept, CancelledAt floor (underlyingOfSymbol U swept.leg.symbol) swept.sequence

end Errand

end Grounds

section Turns
variable {U : Upstream} {serializedLen : JournalRecord → Nat} {floor : Floor U} (accounted : floor.Accounted)
  (laws : MatchLaws U) {underlying : String} {input : Submission}

theorem positions_unrefused {request : Request} {receipt : Receipt} (taken : request.refused receipt = false) :
    (Errand.answered request receipt).positions U = [(request.home U, receipt.underlyingSequence)] := by
  dsimp only [Errand.positions]
  rw [taken]
  rfl

include accounted in
theorem journaled_subset : floor.journaled ⊆ (floor.turn underlying input).2.journaled := by
  rcases accounted.journals underlying input with same | ⟨event, -, grown⟩
  · rw [same]
    exact List.Subset.refl _
  · rw [grown]
    exact List.subset_append_left _ _

include accounted in
theorem CancelledAt.turn {at' : String} {sequence : Nat} (cancelled : CancelledAt floor at' sequence) :
    CancelledAt (floor.turn underlying input).2 at' sequence := by
  obtain ⟨event, member, placed, silent⟩ := cancelled
  exact ⟨event, journaled_subset accounted member, placed, silent⟩

include accounted laws in
/-- A turn takes nothing away from an errand. -/
theorem Errand.Grounded.turn {errand : Errand} (grounded : errand.Grounded serializedLen floor) :
    errand.Grounded serializedLen (floor.turn underlying input).2 := by
  have lineage := floor.turn_lineageId underlying input
  cases errand with
  | asked request =>
    unfold Errand.Grounded at grounded ⊢
    rw [lineage]
    exact grounded
  | answered request receipt =>
    obtain ⟨minted, answered⟩ := grounded
    unfold Errand.Grounded
    rw [lineage]
    refine ⟨minted, fun taken => ?_⟩
    obtain ⟨event, by'⟩ := answered taken
    exact ⟨event, journaled_subset accounted by'.journaled, by'.command, by'.sequence,
      accounted.lists laws by'.lists underlying input, by'.fits⟩
  | sweeping command course =>
    obtain ⟨sweeps, legs⟩ := grounded
    exact ⟨sweeps, fun swept member => (legs swept member).turn accounted⟩

/-- A command that fills nothing. -/
theorem silent_of_journaled (accounted : floor.Accounted) {event : VenueEvent} (member : (underlying, event) ∈ floor.journaled)
    (silent : commandSymbol event.command = none) : outcomeFills event.outcome = [] := by
  obtain ⟨executor, command, derived⟩ := accounted.derived _ member
  obtain rfl : event = (deriveEvent underlying floor.lineageId executor command).1 := derived
  exact SequencedState.execute_silent executor.hashOrder executor.state _ silent

include accounted laws in
/-- The answer of a request. -/
theorem Request.Minted.answered {request : Request} (minted : request.Minted U floor.lineageId) (homed : floor.Homed)
    {gateway : VenueState} {delivery : Delivery} (sent : gateway.submit U request.command = .ok [delivery]) {venueTs : Nat}
    {receipt : Receipt} (answered : (floor.turn delivery.underlying ⟨venueTs, delivery.command⟩).1 = .ok receipt)
    (fits : ∀ event, (floor.turn delivery.underlying ⟨venueTs, delivery.command⟩).2.journaled =
      floor.journaled ++ [(delivery.underlying, event)] → serializedLen (.event event) ≤ maxJournalRecordBytes) :
    ((Errand.answered request receipt).positions U ⊆
      ((floor.turn delivery.underlying ⟨venueTs, delivery.command⟩).2.journaled.drop floor.journaled.length).map
        positionOf) ∧
    (Errand.answered request receipt).Grounded serializedLen
      (floor.turn delivery.underlying ⟨venueTs, delivery.command⟩).2 := by
  obtain ⟨event, journaled, command, same, lists⟩ := accounted.answered laws answered
  have sequence : event.underlyingSequence = receipt.underlyingSequence := by
    rw [same]
    rfl
  constructor
  · cases taken : request.refused receipt with
    | true =>
      dsimp only [Errand.positions]
      rw [taken, if_pos rfl]
      exact List.nil_subset _
    | false =>
      rw [positions_unrefused taken, journaled, List.drop_left, List.map_singleton,
        minted.home_eq sent rfl homed answered taken]
      unfold positionOf
      rw [sequence]
      exact List.Subset.refl _
  · refine ⟨?_, fun taken => ⟨event, ?_, ?_, sequence, lists, fits event journaled⟩⟩
    · rw [floor.turn_lineageId]
      exact minted
    · rw [minted.home_eq sent rfl homed answered taken, journaled]
      exact List.mem_append_right _ (List.mem_singleton.2 rfl)
    · exact command.trans (minted.sent sent).1

include accounted laws in
/-- The answer of an actor to a sweep. -/
theorem swept_answered (answering : floor.Answering) {scope : MassCancelScope} {cancelType : MassCancelType}
    {account : AccountId} (sweeps : input.command = .massCancel scope cancelType account) {receipt : Receipt}
    (answered : (floor.turn underlying input).1 = .ok receipt) :
    ∀ swept ∈ sweptLegsOf receipt,
      (underlyingOfSymbol U swept.leg.symbol, swept.sequence) ∈
        ((floor.turn underlying input).2.journaled.drop floor.journaled.length).map positionOf ∧
      CancelledAt (floor.turn underlying input).2 (underlyingOfSymbol U swept.leg.symbol) swept.sequence := by
  obtain ⟨event, journaled, command, same, -⟩ := accounted.answered laws answered
  have member : (underlying, event) ∈ (floor.turn underlying input).2.journaled := by
    rw [journaled]
    exact List.mem_append_right _ (List.mem_singleton.2 rfl)
  have silent := silent_of_journaled (accounted.turn underlying input) member
    (by rw [command, sweeps]; rfl)
  intro swept listed
  unfold sweptLegsOf at listed
  split at listed
  next affected outcome =>
    obtain ⟨leg, among, rfl⟩ := List.mem_map.1 listed
    have home : underlyingOfSymbol U leg.symbol = underlying := by
      unfold underlyingOfSymbol
      rw [answering.swept sweeps answered outcome leg among]
      rfl
    have sequence : event.underlyingSequence = receipt.underlyingSequence := by
      rw [same]
      rfl
    rw [home]
    refine ⟨?_, event, member, sequence, silent⟩
    rw [journaled, List.drop_left, List.map_singleton, ← sequence]
    exact List.mem_singleton.2 rfl
  next => cases listed

end Turns

end Fauxchange.Fix
