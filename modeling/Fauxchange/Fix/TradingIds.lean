import Fauxchange.Fix.Errands
import Fauxchange.Lib.Tickets
import Fauxchange.Venue.FloorStreams

/-! The ids of the execution reports over whole runs of a venue and its sessions. Each journaled event is a ticket: the
errand that its answer comes back to holds it, and spends it on the reports that are rendered. -/

namespace Fauxchange.Fix
open Exchange Lib Venue OrderFlow

section Rendering
variable {U : Upstream} {serializedLen : JournalRecord → Nat} {floor : Floor U}

/-- The reports of an answer stand at its position. -/
theorem told_answered (accounted : floor.Accounted) (laws : MatchLaws U) (homed : floor.Homed)
    (counts : ∀ event : VenueEvent, (outcomeFills event.outcome).length ≤ serializedLen (.event event))
    {venue : AppState} (shows : Shows floor venue) (lineage : venue.lineageId = floor.lineageId) {request : Request}
    {receipt : Receipt} {event : VenueEvent} (minted : request.Minted U floor.lineageId)
    (answered : AnsweredBy serializedLen floor request receipt event) :
    Told floor [(request.home U, receipt.underlyingSequence)] (request.reports U venue receipt) := by
  have few : (outcomeFills event.outcome).length < u32Max :=
    Nat.lt_of_le_of_lt ((counts event).trans answered.fits) (by decide)
  -- the legs that are read back are those of the event
  have legs : ∀ {account : AccountId} {orderId : VenueOrderId}, event.command.placedId = some orderId →
      (∃ index, orderId = mintedId floor.lineageId (request.home U) index) →
      event.command.placingAccount = some account →
      ((venue.immediateExecutionRecords account orderId receipt.underlyingSequence).map
        ExecutionRecord.executionId).Perm ((takerFills (outcomeFills event.outcome)).map Fill.executionId) := by
    rintro account orderId placed ⟨index, rfl⟩ placing
    unfold AppState.immediateExecutionRecords
    rw [shows.executions account, ← answered.sequence]
    exact homed.takerLegs accounted laws answered.journaled answered.lists placed placing
  rw [← answered.sequence]
  cases request with
  | place order account admitted =>
    obtain ⟨-, named, placed, adds, -, id, holder⟩ := minted
    have command : event.command = .addOrder placed := answered.command.trans adds
    have placing : event.command.placedId = some admitted.orderId := by
      rw [command, ← id]
      rfl
    have holding : event.command.placingAccount = some account := by
      rw [command, ← holder]
      rfl
    dsimp only [Request.reports, Request.takerLegs, renderNewOrderReports]
    exact @told_placement U floor accounted laws event ⟨order.symbol, order.side, order.orderQty, order.price,
      admitted.orderId, receipt.underlyingSequence, receipt.venueTs, venue.lineageId, admitted.underlying⟩
      answered.journaled lineage answered.sequence.symm _ (legs placing named holding) few .new (by simp) .new _
  | cancel order account resolved =>
    dsimp only [Request.reports]
    rw [lineage, ← answered.sequence]
    have silent := silent_of_journaled accounted answered.journaled (by rw [answered.command]; rfl)
    exact told_cancel accounted laws ⟨event, answered.journaled, rfl, silent⟩ _ _ _ _
  | replace order account resolved newOrderId =>
    have placing : event.command.placedId = some newOrderId := by
      rw [answered.command]
      rfl
    have holding : event.command.placingAccount = some account := by
      rw [answered.command]
      rfl
    dsimp only [Request.reports, Request.takerLegs, renderReplaceReports]
    exact @told_placement U floor accounted laws event ⟨order.symbol, order.side, order.orderQty, _,
      newOrderId, receipt.underlyingSequence, receipt.venueTs, venue.lineageId, underlyingOfSymbol U order.symbol⟩
      answered.journaled lineage answered.sequence.symm _ (legs placing minted holding) few .replaced (by simp)
      .replaced _

end Rendering

section Asking
variable {U : Upstream} {venue : AppState}

theorem admitNewOrder_minted {session : VenueFixSession} {account : AccountId} {order : NewOrderSingle}
    {admitted : Admitted} (allowed : admitNewOrder U venue session account order = .ok admitted) :
    (Request.place order account admitted).Minted U venue.lineageId := by
  have built : ∀ {underlying : String} {owner : Hash32} {tif : TimeInForce},
      (toAddCommand order (venue.mintOrderId underlying) account owner >>= fun command =>
        .ok ⟨underlying, tif, venue.mintOrderId underlying, command⟩) = .ok admitted →
      admitted.underlying = underlying ∧ admitted.orderId = venue.mintOrderId underlying ∧
        ∃ placed : AddOrder, admitted.command = .addOrder placed ∧ placed.symbol = order.symbol ∧
          placed.orderId = admitted.orderId ∧ placed.account = account := by
    intro underlying owner tif made
    obtain ⟨command, added, same⟩ := except_bind_ok made
    cases same
    unfold toAddCommand at added
    dsimp only at added
    split at added
    · cases added
      exact ⟨rfl, rfl, _, rfl, rfl, rfl, rfl⟩
    · obtain ⟨inForce, -, later⟩ := except_bind_ok added
      cases later
      exact ⟨rfl, rfl, _, rfl, rfl, rfl, rfl⟩
  unfold admitNewOrder at allowed
  dsimp only at allowed
  split at allowed
  · cases allowed
  · obtain ⟨owner, -, allowed⟩ := except_bind_ok allowed
    split at allowed
    next parsed shape =>
      have home : parsed.underlying = underlyingOfSymbol U order.symbol := by
        unfold underlyingOfSymbol underlyingOf
        rw [shape]
        rfl
      have placed : admitted.underlying = parsed.underlying ∧
          admitted.orderId = venue.mintOrderId parsed.underlying ∧
          ∃ placed : AddOrder, admitted.command = .addOrder placed ∧ placed.symbol = order.symbol ∧
            placed.orderId = admitted.orderId ∧ placed.account = account := by
        obtain ⟨underlying, same, allowed⟩ := except_bind_ok allowed
        cases same
        split at allowed
        · exact built allowed
        · obtain ⟨tif, -, allowed⟩ := except_bind_ok allowed
          exact built allowed
      obtain ⟨here, named, command⟩ := placed
      exact ⟨here.trans home, ⟨venue.orderIdCounter, by rw [named, here]; rfl⟩, command⟩
    next => cases allowed

/-- An order that a session resolves is minted: it tracks it, or an event has recorded it. -/
theorem resolveOrder_minted {floor : Floor U} (answering : floor.Answering) (homed : floor.Homed)
    (shows : Shows floor venue) {session : VenueFixSession} (tracks : OrdersMinted U floor.lineageId session.placed)
    {account : AccountId} {clOrdId : ClientOrderId} {order : ResolvedOrder}
    (resolved : session.resolveOrder venue account clOrdId = some order) : order.Minted U floor.lineageId := by
  unfold VenueFixSession.resolveOrder at resolved
  split at resolved
  next placed found =>
    obtain rfl := Option.some.inj resolved
    exact tracks clOrdId placed found
  next =>
    obtain ⟨record, found, rfl⟩ := Option.map_eq_some_iff.1 resolved
    rw [shows.index] at found
    obtain ⟨entry, member, written⟩ := answering.indexed account clOrdId record found
    obtain ⟨index, named⟩ := (homed.brought entry member).written written
    refine ⟨index, ?_⟩
    unfold ResolvedOrder.fromIndex underlyingOfSymbol
    rw [answering.placedAt entry member _ written record rfl]
    exact named

/-- What a session asks for stands on nothing that is still to come. -/
theorem errandOf_grounded {serializedLen : JournalRecord → Nat} {floor : Floor U} (answering : floor.Answering)
    (homed : floor.Homed) (shows : Shows floor venue) (lineage : venue.lineageId = floor.lineageId)
    {gateway : VenueState} {session : VenueFixSession} (tracks : OrdersMinted U floor.lineageId session.placed)
    {message : DecodedMessage} {errand : Errand} (asks : errandOf U gateway venue session message = some errand) :
    errand.positions U = [] ∧ errand.Grounded serializedLen floor := by
  unfold errandOf at asks
  split at asks
  · split at asks
    · obtain ⟨admitted, allowed, rfl⟩ := Option.map_eq_some_iff.1 asks
      refine ⟨rfl, ?_⟩
      have minted := admitNewOrder_minted (except_of_toOption allowed)
      rw [lineage] at minted
      exact minted
    · cases asks
  · split at asks
    · split at asks
      · cases asks
      · obtain ⟨resolved, found, rfl⟩ := Option.map_eq_some_iff.1 asks
        exact ⟨rfl, resolveOrder_minted answering homed shows tracks found⟩
    · cases asks
  · split at asks
    · split at asks
      · cases asks
      · obtain ⟨resolved, found, rfl⟩ := Option.map_eq_some_iff.1 asks
        refine ⟨rfl, venue.orderIdCounter, ?_⟩
        rw [← lineage]
        rfl
    · cases asks
  · split at asks
    · split at asks
      · cases asks
      · split at asks
        · cases asks
          have nothing := Course.start_swept U gateway.microstructure gateway.underlyings
          refine ⟨?_, ⟨_, _, _, rfl⟩, ?_⟩
          · dsimp only [Errand.positions]
            rw [nothing]
            rfl
          · rw [nothing]
            exact List.forall_mem_nil _
        · cases asks
    · cases asks
  · cases asks

end Asking

/-- What a producer's command brings to the actor that it is delivered to. -/
theorem Produced.brings {U : Upstream} {lineage : LineageId} {underlying : String} {produced : Produced}
    (delivered : delivers U underlying (produced.command U lineage) = true) :
    BroughtTo lineage underlying (produced.command U lineage) := by
  have home : ∀ {symbol : Symbol}, (U.parse symbol).toOption.map (·.underlying) = some underlying →
      underlyingOfSymbol U symbol = underlying := by
    intro symbol routed
    unfold underlyingOfSymbol underlyingOf
    rw [routed]
    rfl
  cases produced with
  | place order index =>
    have routed := beq_iff_eq.1 ((Bool.or_eq_true_iff.1 delivered).resolve_left Bool.false_ne_true)
    refine .minted index ?_
    dsimp only [Produced.command, VenueCommand.placedId]
    rw [home routed]
  | amend order index =>
    have routed := beq_iff_eq.1 ((Bool.or_eq_true_iff.1 delivered).resolve_left Bool.false_ne_true)
    refine .minted index ?_
    dsimp only [Produced.command, VenueCommand.placedId]
    rw [home routed]
  | quote symbol side price quantity sequence =>
    exact .quoted _ rfl rfl fun other index => quote_ne_mintedId lineage sequence other index
  | other command => exact .nothing command.2

namespace Trading
variable {U : Upstream} {serializedLen : JournalRecord → Nat} {state : Trading U} {spent : List (String × Nat)}

theorem see_shows (state : Trading U) (venue : AppState) : Shows state.floor (state.see venue) :=
  ⟨fun _ => rfl, fun _ _ => rfl⟩

/-- The positions that a session holds. -/
def positionsOf (state : Trading U) (connection : String) : List (String × Nat) :=
  ((state.errands connection).map (Errand.positions U)).getD []

def tickets (state : Trading U) (spent : List (String × Nat)) : Tickets String (String × Nat) :=
  ⟨state.floor.journaled.map positionOf, state.positionsOf, spent⟩

theorem positionsOf_setErrand (state : Trading U) (connection : String) (errand : Option Errand) :
    (state.setErrand connection errand).positionsOf connection = (errand.map (Errand.positions U)).getD [] := by
  unfold positionsOf setErrand
  dsimp only
  rw [Function.update_self]

theorem positionsOf_setErrand_of_ne (state : Trading U) {connection other : String} (apart : other ≠ connection)
    (errand : Option Errand) : (state.setErrand connection errand).positionsOf other = state.positionsOf other := by
  unfold positionsOf setErrand
  dsimp only
  rw [Function.update_of_ne apart]

/-- What a venue and its sessions keep. -/
structure Sound (serializedLen : JournalRecord → Nat) (state : Trading U) (spent : List (String × Nat)) : Prop where
  accounted : state.floor.Accounted
  answering : state.floor.Answering
  homed : state.floor.Homed
  kept : state.floor.Kept
  tickets : (state.tickets spent).Sound
  grounded : ∀ connection errand, state.errands connection = some errand → errand.Grounded serializedLen state.floor
  tracks : ∀ connection, OrdersMinted U state.floor.lineageId (state.sessions connection).placed
  told : Told state.floor spent state.reports

namespace Sound

/-- Other sessions may come and go, as long as the orders that they track are minted. -/
theorem sessions (sound : Sound serializedLen state spent) {sessions : String → VenueFixSession}
    (tracks : ∀ connection, OrdersMinted U state.floor.lineageId (sessions connection).placed) :
    Sound serializedLen { state with sessions := sessions } spent :=
  ⟨sound.accounted, sound.answering, sound.homed, sound.kept, sound.tickets, sound.grounded, tracks, sound.told⟩

theorem setOrders (sound : Sound serializedLen state spent) (connection : String) {placed : OrderMap}
    (tracks : OrdersMinted U state.floor.lineageId placed) :
    Sound serializedLen (state.setOrders connection placed) spent := by
  refine sound.sessions fun other => ?_
  by_cases own : other = connection
  · subst own
    rw [Function.update_self]
    exact tracks
  · rw [Function.update_of_ne own]
    exact sound.tracks other

theorem grounded_setErrand {floor : Floor U} (sound : ∀ connection errand, state.errands connection = some errand →
      errand.Grounded serializedLen floor) {connection : String} {errand : Option Errand}
    (grounded : ∀ found, errand = some found → found.Grounded serializedLen floor) :
    ∀ other found, (state.setErrand connection errand).errands other = some found →
      found.Grounded serializedLen floor := by
  intro other found held
  have held : Function.update state.errands connection errand other = some found := held
  by_cases own : other = connection
  · subst own
    rw [Function.update_self] at held
    exact grounded found held
  · rw [Function.update_of_ne own] at held
    exact sound other found held

/-- A session goes on with another errand, which holds no further position. -/
theorem setErrand (sound : Sound serializedLen state spent) {connection : String} {errand : Option Errand}
    (kept : (errand.map (Errand.positions U)).getD [] ⊆ state.positionsOf connection)
    (grounded : ∀ found, errand = some found → found.Grounded serializedLen state.floor) :
    Sound serializedLen (state.setErrand connection errand) spent where
  accounted := sound.accounted
  answering := sound.answering
  homed := sound.homed
  kept := sound.kept
  tickets := by
    refine @Tickets.Sound.issue _ _ (state.tickets spent) _ connection [] sound.tickets ?_ sound.tickets.once ?_ ?_ rfl
    · rw [List.append_nil]
      rfl
    · exact fun other apart => positionsOf_setErrand_of_ne state apart errand
    · change (state.setErrand connection errand).positionsOf connection ⊆ _
      rw [List.append_nil, positionsOf_setErrand]
      exact kept
  grounded := grounded_setErrand sound.grounded grounded
  tracks := sound.tracks
  told := sound.told

theorem free (sound : Sound serializedLen state spent) (connection : String) :
    Sound serializedLen (state.setErrand connection none) spent :=
  sound.setErrand (List.nil_subset _) fun _ wrong => by cases wrong

/-- An actor takes a turn, and a session goes on with an errand that may hold the position of its event. -/
theorem turned (sound : Sound serializedLen state spent) (laws : MatchLaws U) {underlying : String} {input : Submission}
    (brings : BroughtTo state.floor.lineageId underlying input.command) {connection : String} {errand : Option Errand}
    (kept : (errand.map (Errand.positions U)).getD [] ⊆ state.positionsOf connection ++
      ((state.floor.turn underlying input).2.journaled.drop state.floor.journaled.length).map positionOf)
    (grounded : ∀ found, errand = some found →
      found.Grounded serializedLen (state.floor.turn underlying input).2) :
    Sound serializedLen ({ state with floor := (state.floor.turn underlying input).2 }.setErrand connection errand)
      spent := by
  have accounted := sound.accounted.turn underlying input
  have lineage := state.floor.turn_lineageId underlying input
  have journaled : (state.floor.turn underlying input).2.journaled = state.floor.journaled ++
      (state.floor.turn underlying input).2.journaled.drop state.floor.journaled.length := by
    rcases sound.accounted.journals underlying input with same | ⟨event, -, grown⟩
    · rw [same, List.drop_length, List.append_nil]
    · rw [grown, List.drop_left]
  constructor
  · exact accounted
  · exact sound.answering.turn sound.accounted underlying input
  · exact sound.homed.turn sound.accounted brings
  · exact sound.kept.turn brings
  · refine @Tickets.Sound.issue _ _ (state.tickets spent) _ connection
      (((state.floor.turn underlying input).2.journaled.drop state.floor.journaled.length).map positionOf)
      sound.tickets ?_ accounted.once ?_ ?_ rfl
    · exact (congrArg (List.map positionOf) journaled).trans List.map_append
    · exact fun other apart => positionsOf_setErrand_of_ne _ apart errand
    · change (Trading.setErrand _ connection errand).positionsOf connection ⊆ _
      rw [positionsOf_setErrand]
      exact kept
  · exact grounded_setErrand (fun other found held => (sound.grounded other found held).turn sound.accounted laws) grounded
  · intro other
    have tracks := sound.tracks other
    rw [← lineage] at tracks
    exact tracks
  · exact sound.told.journals laws accounted lineage journaled sound.tickets.spent

/-- A session renders reports that stand at the positions that it holds. -/
theorem rendered (sound : Sound serializedLen state spent) {connection : String} {batch : List ExecReportSpec}
    (told : Told state.floor (state.positionsOf connection) batch) :
    Sound serializedLen { state.setErrand connection none with reports := state.reports ++ batch }
      (spent ++ state.positionsOf connection) where
  accounted := sound.accounted
  answering := sound.answering
  homed := sound.homed
  kept := sound.kept
  tickets := by
    refine @Tickets.Sound.spend _ _ (state.tickets spent) _ connection sound.tickets rfl ?_ ?_ rfl
    · exact fun other apart => positionsOf_setErrand_of_ne state apart none
    · exact positionsOf_setErrand state connection none
  grounded := grounded_setErrand sound.grounded fun _ wrong => by cases wrong
  tracks := sound.tracks
  told := sound.told.append told (sound.tickets.unspent connection)

section Moves
variable (sound : Sound serializedLen state spent) (laws : MatchLaws U) {connection : String}

include sound laws in
/-- An actor takes a request. -/
theorem taking {request : Request} (asked : state.errands connection = some (.asked request)) {venueTs : Nat}
    (fits : ∀ entry ∈ (state.taking connection venueTs request).floor.journaled.drop state.floor.journaled.length,
      serializedLen (.event entry.2) ≤ maxJournalRecordBytes) :
    Sound serializedLen (state.taking connection venueTs request) spent := by
  have minted : request.Minted U state.floor.lineageId := sound.grounded connection _ asked
  unfold Trading.taking at fits ⊢
  split
  next delivery sent =>
    rw [sent] at fits
    dsimp only at fits
    obtain ⟨command, brings, -⟩ := minted.sent sent
    have brings : BroughtTo state.floor.lineageId delivery.underlying (⟨venueTs, delivery.command⟩ : Submission).command :=
      command.symm ▸ brings
    split
    next receipt floor turned =>
      rw [turned] at fits
      have answered := congrArg Prod.fst turned
      obtain rfl : (state.floor.turn delivery.underlying ⟨venueTs, delivery.command⟩).2 = floor := congrArg Prod.snd turned
      obtain ⟨kept, grounded⟩ := minted.answered sound.accounted laws sound.homed sent answered fun event journaled => by
        refine fits (delivery.underlying, event) ?_
        change (delivery.underlying, event) ∈
          (state.floor.turn delivery.underlying ⟨venueTs, delivery.command⟩).2.journaled.drop _
        rw [journaled, List.drop_left]
        exact List.mem_singleton.2 rfl
      refine sound.turned laws brings (List.subset_append_of_subset_right _ kept) fun found same => ?_
      obtain rfl := Option.some.inj same
      exact grounded
    next error floor turned =>
      obtain rfl : (state.floor.turn delivery.underlying ⟨venueTs, delivery.command⟩).2 = floor := congrArg Prod.snd turned
      exact sound.turned laws brings (List.nil_subset _) fun _ wrong => by cases wrong
  next => exact sound.free connection

/-- A sweep goes on with an answer. -/
theorem swept_kept {command : VenueCommand} {course : Course}
    (held : state.errands connection = some (.sweeping command course)) {result : Except VenueError Receipt}
    {fresh : List (String × Nat)} (new : ∀ swept ∈ (result.toOption.map sweptLegsOf).getD [],
      (underlyingOfSymbol U swept.leg.symbol, swept.sequence) ∈ fresh) :
    (Errand.sweeping command (course.answer result)).positions U ⊆ state.positionsOf connection ++ fresh := by
  intro position member
  obtain ⟨swept, listed, rfl⟩ := List.mem_map.1 member
  rcases List.mem_append.1 (course.answer_swept result listed) with old | added
  · refine List.mem_append_left _ ?_
    unfold positionsOf
    rw [held]
    exact List.mem_map_of_mem old
  · exact List.mem_append_right _ (new swept added)

include sound laws in
/-- The next actor takes a sweep. -/
theorem visiting {command : VenueCommand} {course : Course}
    (held : state.errands connection = some (.sweeping command course)) (venueTs : Nat) (ticker : String) :
    Sound serializedLen (state.visiting connection venueTs command course ticker) spent := by
  obtain ⟨⟨scope, cancelType, account, rfl⟩, legs⟩ := sound.grounded connection _ held
  unfold Trading.visiting
  dsimp only
  have told : ∀ swept ∈ (((state.floor.turn ticker ⟨venueTs, .massCancel scope cancelType account⟩).1.mapError
        VenueError.ofSequenced).toOption.map sweptLegsOf).getD [],
      (underlyingOfSymbol U swept.leg.symbol, swept.sequence) ∈
        ((state.floor.turn ticker ⟨venueTs, .massCancel scope cancelType account⟩).2.journaled.drop
          state.floor.journaled.length).map positionOf ∧
      CancelledAt (state.floor.turn ticker ⟨venueTs, .massCancel scope cancelType account⟩).2
        (underlyingOfSymbol U swept.leg.symbol) swept.sequence := by
    cases answered : (state.floor.turn ticker ⟨venueTs, .massCancel scope cancelType account⟩).1 with
    | error error => exact List.forall_mem_nil _
    | ok receipt => exact swept_answered sound.accounted laws sound.answering rfl answered
  refine sound.turned laws (.nothing rfl) (swept_kept held fun swept added => (told swept added).1) ?_
  intro found same
  obtain rfl := Option.some.inj same
  refine ⟨⟨_, _, _, rfl⟩, fun swept listed => ?_⟩
  rcases List.mem_append.1 (course.answer_swept _ listed) with old | added
  · exact (legs swept old).turn sound.accounted
  · exact (told swept added).2

include sound laws in
/-- A session renders its answer. -/
theorem rendering (counts : ∀ event : VenueEvent, (outcomeFills event.outcome).length ≤ serializedLen (.event event))
    {request : Request} {receipt : Receipt} (held : state.errands connection = some (.answered request receipt))
    (venue : AppState) :
    Sound serializedLen (state.rendering connection venue request receipt) (spent ++ state.positionsOf connection) := by
  obtain ⟨minted, answered⟩ := sound.grounded connection _ held
  refine @rendered U serializedLen _ spent (sound.setOrders connection (minted.orders receipt (sound.tracks connection)))
    connection (if request.refused receipt then [] else request.reports U (state.see venue) receipt) ?_
  change Told state.floor (state.positionsOf connection) _
  unfold positionsOf
  rw [held, Option.map_some, Option.getD_some]
  cases taken : request.refused receipt with
  | true => exact Told.nil _ _
  | false =>
    obtain ⟨event, by'⟩ := answered taken
    rw [positions_unrefused taken]
    exact told_answered sound.accounted laws sound.homed counts (see_shows state venue) rfl minted by'

include sound laws in
/-- A session renders the legs of its sweep. -/
theorem renderingSwept {command : VenueCommand} {delivery : MassCancelDelivery}
    (held : state.errands connection = some (.sweeping command (.replied (.ok delivery)))) (venue : AppState) :
    ∃ last, Sound serializedLen (state.renderingSwept connection venue delivery.swept) last := by
  obtain ⟨-, legs⟩ := sound.grounded connection _ held
  unfold Trading.renderingSwept
  split
  · refine ⟨_, @rendered U serializedLen _ spent
      (sound.setOrders connection ((sound.tracks connection).dropped venue delivery.swept)) connection _ ?_⟩
    change Told state.floor (state.positionsOf connection) _
    unfold positionsOf
    rw [held]
    exact told_swept sound.accounted laws rfl legs _ _
  · exact ⟨spent, (sound.setOrders connection OrdersMinted.empty).free connection⟩

include sound laws in
theorem move (counts : ∀ event : VenueEvent, (outcomeFills event.outcome).length ≤ serializedLen (.event event))
    {action : TradeStep} {next : Trading U} (moved : state.move action = some next)
    (fits : ∀ entry ∈ next.floor.journaled.drop state.floor.journaled.length,
      serializedLen (.event entry.2) ≤ maxJournalRecordBytes) : ∃ last, Sound serializedLen next last := by
  cases action with
  | produce underlying venueTs produced =>
    dsimp only [Trading.move] at moved
    split at moved
    next delivered =>
      obtain rfl := Option.some.inj moved
      have turned := @turned U serializedLen state spent sound laws underlying
        ⟨venueTs, produced.command U state.floor.lineageId⟩ (Produced.brings delivered) ""
        (state.errands "") (List.subset_append_left _ _)
        fun found held => (sound.grounded "" found held).turn sound.accounted laws
      unfold Trading.setErrand at turned
      dsimp only at turned
      rw [Function.update_eq_self] at turned
      exact ⟨spent, turned⟩
    next => cases moved
  | renew connection session kept =>
    obtain rfl := Option.some.inj moved
    refine ⟨spent, free ?_ connection⟩
    refine sound.sessions fun other => ?_
    by_cases own : other = connection
    · subst own
      rw [Function.update_self]
      dsimp only
      split
      · exact sound.tracks other
      · exact OrdersMinted.empty
    · rw [Function.update_of_ne own]
      exact sound.tracks other
  | ask connection venue message =>
    dsimp only [Trading.move] at moved
    split at moved
    · obtain ⟨errand, asks, rfl⟩ := Option.map_eq_some_iff.1 moved
      obtain ⟨nothing, grounded⟩ := @errandOf_grounded U (state.see venue) serializedLen state.floor sound.answering
        sound.homed (see_shows state venue) rfl _ _ (sound.tracks connection) _ _ asks
      refine ⟨spent, sound.setErrand ?_ fun found same => ?_⟩
      · rw [Option.map_some, Option.getD_some, nothing]
        exact List.nil_subset _
      · obtain rfl := Option.some.inj same
        exact grounded
    · cases moved
  | take connection venueTs =>
    dsimp only [Trading.move] at moved
    split at moved
    next request asked =>
      obtain rfl := Option.some.inj moved
      exact ⟨spent, sound.taking laws asked fits⟩
    next command course held =>
      obtain ⟨ticker, -, rfl⟩ := Option.map_eq_some_iff.1 moved
      exact ⟨spent, sound.visiting laws held venueTs ticker⟩
    next => cases moved
  | refuse connection error =>
    dsimp only [Trading.move] at moved
    split at moved
    · obtain rfl := Option.some.inj moved
      exact ⟨spent, sound.free connection⟩
    next command course held =>
      obtain rfl := Option.some.inj moved
      obtain ⟨sweeps, legs⟩ := sound.grounded connection _ held
      have kept := @swept_kept U state connection command course held (.error error) []
        (List.forall_mem_nil _)
      rw [List.append_nil] at kept
      refine ⟨spent, sound.setErrand kept fun found same => ?_⟩
      obtain rfl := Option.some.inj same
      refine ⟨sweeps, fun swept listed => ?_⟩
      exact legs swept ((List.mem_append.1 (course.answer_swept _ listed)).resolve_right (List.not_mem_nil))
    · cases moved
  | render connection venue =>
    dsimp only [Trading.move] at moved
    split at moved
    next request receipt held =>
      obtain rfl := Option.some.inj moved
      exact ⟨_, sound.rendering laws counts held venue⟩
    next command delivery held =>
      obtain rfl := Option.some.inj moved
      exact sound.renderingSwept laws held venue
    · obtain rfl := Option.some.inj moved
      exact ⟨spent, sound.free connection⟩
    · cases moved

end Moves

theorem step (sound : Sound serializedLen state spent) (laws : MatchLaws U)
    (counts : ∀ event : VenueEvent, (outcomeFills event.outcome).length ≤ serializedLen (.event event))
    {action : TradeStep} {next : Trading U} (stepped : state.step serializedLen action = some next) :
    ∃ last, Sound serializedLen next last := by
  obtain ⟨moved, within⟩ := Option.filter_eq_some_iff.1 stepped
  refine sound.move laws counts moved fun entry member => ?_
  have taken := List.all_eq_true.1 within entry member
  unfold checkRecordSize at taken
  split at taken
  · cases taken
  next small => exact Nat.le_of_not_lt small

end Sound

/-- Where the sessions start. -/
theorem sound_opened {floor : Floor U} (accounted : floor.Accounted) (answering : floor.Answering) (homed : floor.Homed)
    (kept : floor.Kept) (gateway : VenueState) (sessions : String → VenueFixSession) :
    Sound serializedLen (Trading.opened floor gateway sessions) [] where
  accounted := accounted
  answering := answering
  homed := homed
  kept := kept
  tickets := Tickets.sound_unheld accounted.once
  grounded := fun _ _ wrong => by cases wrong
  tracks := fun _ => OrdersMinted.empty
  told := Told.nil _ _

theorem Sound.run (sound : Sound serializedLen state spent) (laws : MatchLaws U)
    (counts : ∀ event : VenueEvent, (outcomeFills event.outcome).length ≤ serializedLen (.event event))
    {steps : List TradeStep} {last : Trading U} (ran : state.run serializedLen steps = some last) :
    ∃ spent, Sound serializedLen last spent := by
  refine @runFrom_preserved _ _ _ (fun state => ∃ spent, Sound serializedLen state spent) ?_ _ _ _ ⟨spent, sound⟩ ran
  rintro state action next ⟨spent, sound⟩ stepped
  exact sound.step laws counts stepped

end Trading

/-- The durable streams that a venue may find when it starts: none, or those that its last life has left. -/
inductive Persisted (U : Upstream) (serializedLen : JournalRecord → Nat) : (String → Option Stream) → Prop where
  | none : Persisted U serializedLen fun _ => none
  | left {config : BootConfig} {streams : String → Option Stream} {floor : Floor U} {last : Trading U}
      (found : Persisted U serializedLen streams) (booted : Floor.boot U config streams = .ok floor)
      (gateway : VenueState) (sessions : String → VenueFixSession) (steps : List TradeStep)
      (ran : (Trading.opened floor gateway sessions).run serializedLen steps = some last)
      (landed : String → List Nat) : Persisted U serializedLen (last.floor.leaves config streams landed)

section Lives
variable {U : Upstream} {serializedLen : JournalRecord → Nat} {config : BootConfig} {streams : String → Option Stream}
  {floor : Floor U} {last : Trading U} {steps : List TradeStep}

/-- What a venue that boots on its own streams comes to. -/
theorem opened_run (laws : MatchLaws U)
    (counts : ∀ event : VenueEvent, (outcomeFills event.outcome).length ≤ serializedLen (.event event))
    (keyed : KeyedStreams streams) (homes : HomedStreams streams) (booted : Floor.boot U config streams = .ok floor)
    (gateway : VenueState) (sessions : String → VenueFixSession)
    (ran : (Trading.opened floor gateway sessions).run serializedLen steps = some last) :
    ∃ spent, Trading.Sound serializedLen last spent :=
  (Trading.sound_opened (Floor.accounted_boot keyed booted) (Floor.answering_boot booted) (Floor.homed_boot homes booted)
    (Floor.kept_boot keyed homes booted) gateway sessions).run laws counts ran

theorem Persisted.kept (laws : MatchLaws U)
    (counts : ∀ event : VenueEvent, (outcomeFills event.outcome).length ≤ serializedLen (.event event))
    (persisted : Persisted U serializedLen streams) : KeyedStreams streams ∧ HomedStreams streams := by
  induction persisted with
  | none => exact ⟨fun _ _ wrong => (by cases wrong), fun _ _ wrong => (by cases wrong)⟩
  | left found booted gateway sessions steps ran landed ih =>
    obtain ⟨keyed, homes⟩ := ih
    obtain ⟨spent, sound⟩ := opened_run laws counts keyed homes booted gateway sessions ran
    exact ⟨sound.kept.keyed keyed, sound.kept.homed homes⟩

/-- The reports that a venue's sessions have rendered for placements, replaces, cancels and sweeps: no execution id
twice, the trades under ids of fills, and the others under ids of none. -/
structure DistinctReports (state : Trading U) : Prop where
  once : (state.reports.map ExecReportSpec.execId).Nodup
  traded : ∀ report ∈ state.reports, report.execType = .trade →
    ∃ fill ∈ state.floor.fills, fill.executionId = report.execId
  apart : ∀ report ∈ state.reports, report.execType ≠ .trade →
    ∀ fill ∈ state.floor.fills, fill.executionId ≠ report.execId

/-- In every run of a venue and its sessions, the reports that they have rendered have distinct execution ids. -/
theorem reports_distinct (laws : MatchLaws U)
    (counts : ∀ event : VenueEvent, (outcomeFills event.outcome).length ≤ serializedLen (.event event))
    (persisted : Persisted U serializedLen streams) (booted : Floor.boot U config streams = .ok floor)
    (gateway : VenueState) (sessions : String → VenueFixSession) (steps : List TradeStep)
    (ran : (Trading.opened floor gateway sessions).run serializedLen steps = some last) : DistinctReports last := by
  obtain ⟨keyed, homes⟩ := persisted.kept laws counts
  obtain ⟨spent, sound⟩ := opened_run laws counts keyed homes booted gateway sessions ran
  exact ⟨sound.told.once, sound.told.traded, sound.told.apart⟩

end Lives

/-- A record of some bytes, with more of them for each fill. -/
def recordLen : JournalRecord → Nat
  | .event event => 1024 + 512 * (outcomeFills event.outcome).length
  | _ => 1024

def bitcoinGateway : VenueState := ⟨.default, ["BTC"], []⟩

/-- The account sells into a bid, and cancels what is left of its order. -/
def sellsThenCancels : List TradeStep :=
  let bid : AddOrder :=
    ⟨"BTC-20351231-50000-C", "", "bob", 8, some "c1", .buy, .limit, some 100, 5, .gtc, .none⟩
  let sale : NewOrderSingle :=
    ⟨aliceHeader 2, "A-1", none, "BTC-20351231-50000-C", .sell, .fromEpochMs 0, .limit, some 100, 7, .gtc, none⟩
  let cancel : OrderCancelRequest := ⟨aliceHeader 3, "A-1", "A-2", "BTC-20351231-50000-C", .sell⟩
  [.produce "BTC" 1 (.place bid 9),
    .ask "alice" aliceVenue (.newOrderSingle sale), .take "alice" 2, .render "alice" aliceVenue,
    .ask "alice" aliceVenue (.orderCancelRequest cancel), .take "alice" 3, .render "alice" aliceVenue]

theorem sellsThenCancels_distinct : ∃ start last,
    Floor.boot referenceUpstream bitcoinBoot (fun _ => none) = .ok start ∧
    (Trading.opened start bitcoinGateway fun _ => aliceDispatch.toVenueFixSession).run recordLen sellsThenCancels =
      some last ∧
    last.reports.map (fun report => (report.execType, report.execId)) =
      [(.new, "run-1:BTC:1:1"), (.trade, "run-1:BTC:1:0"), (.canceled, "run-1:BTC:2:0")] ∧
    DistinctReports last := by
  have facts : (Floor.boot referenceUpstream bitcoinBoot (fun _ => none)).toOption.any (fun start =>
      ((Trading.opened start bitcoinGateway fun _ => aliceDispatch.toVenueFixSession).run recordLen
        sellsThenCancels).any fun last =>
          last.reports.map (fun report => (report.execType, report.execId)) =
            [(.new, "run-1:BTC:1:1"), (.trade, "run-1:BTC:1:0"), (.canceled, "run-1:BTC:2:0")]) = true := by
    decide +kernel
  obtain ⟨start, here, runs⟩ := (Option.any_eq_true _ _).1 facts
  obtain ⟨last, ran, holds⟩ := (Option.any_eq_true _ _).1 runs
  have booted : Floor.boot referenceUpstream bitcoinBoot (fun _ => none) = .ok start := except_of_toOption here
  refine ⟨start, last, booted, ran, of_decide_eq_true holds, ?_⟩
  have counts : ∀ event : VenueEvent, (outcomeFills event.outcome).length ≤ recordLen (.event event) := by
    intro event
    dsimp only [recordLen]
    omega
  exact reports_distinct matchLaws_reference counts .none booted bitcoinGateway
    (fun _ => aliceDispatch.toVenueFixSession) sellsThenCancels ran

end Fauxchange.Fix
