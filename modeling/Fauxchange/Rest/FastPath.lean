import Fauxchange.Fix.StatusReport
import Fauxchange.Rest.Orders
import Fauxchange.Venue.FloorAnswers

/-! The two ways in which a retried placement is answered: from the client-order-id index and the executions store, and
by the executor. They agree where the record was written by the placement itself; a replacement rebinds the client order
id in the index and nowhere else. -/

namespace Fauxchange.Rest
open Exchange hiding VenueError
open Fauxchange.Fix Lib Venue

inductive OrderRequest where
  | limit (request : PlaceLimitOrderRequest)
  | market (request : PlaceMarketOrderRequest)
  deriving DecidableEq, Repr

inductive OrderResponse where
  | limit (response : PlaceLimitOrderResponse)
  | market (response : PlaceMarketOrderResponse)
  deriving DecidableEq, Repr

namespace OrderRequest

def clientOrderId : OrderRequest → Option ClientOrderId
  | .limit request => request.clientOrderId
  | .market request => request.clientOrderId

def check (U : Upstream) (venue : RestState) (auth : Authorized) (path : ContractPath) :
    OrderRequest → Except VenueError Symbol
  | .limit request => checkLimit U venue.nowMs auth path request
  | .market request => checkMarket U auth path request

/-- The route of the request. -/
def place (U : Upstream) (venue : RestState) (auth : Authorized) (path : ContractPath) :
    OrderRequest → Option (Except VenueError OrderResponse)
  | .limit request => (placeLimitOrder U venue auth path request).map fun reply => reply.map .limit
  | .market request => (placeMarketOrder U venue auth path request).map fun reply => reply.map .market

def call (venue : RestState) (account : AccountId) (underlying : String) (symbol : Symbol) :
    OrderRequest → Except VenueError PlacementCall
  | .limit request => limitCall request venue account underlying symbol
  | .market request => marketCall request venue account underlying symbol

/-- The request by way of the sequenced path. -/
def submit (venue : RestState) (account : AccountId) (underlying : String) (symbol : Symbol) :
    OrderRequest → Option (Except VenueError OrderResponse)
  | .limit request => (submitLimit request venue account underlying symbol).map fun reply => reply.map .limit
  | .market request => (submitMarket request venue account underlying symbol).map fun reply => reply.map .market

/-- The response to a request that has taken these fills. -/
def answerWith (orderId : VenueOrderId) (sequence : Nat) (fills : List (Nat × Nat)) :
    OrderRequest → Except VenueError OrderResponse
  | .limit request => do
    let filled ← checkedFilled fills
    .ok (.limit (limitFilled request orderId sequence filled))
  | .market request => do
    let filled ← checkedFilled fills
    let response ← marketFilled request orderId sequence filled fills
    .ok (.market response)

def side : OrderRequest → DtoSide
  | .limit request => request.side
  | .market request => request.side

def quantity : OrderRequest → Nat
  | .limit request => request.quantity
  | .market request => request.quantity

/-- The response to an answered submission. -/
def render (orderId : VenueOrderId) (receipt : Receipt) : OrderRequest → Except VenueError OrderResponse
  | .limit request => (renderLimit request orderId receipt).map .limit
  | .market request => (renderMarket request orderId receipt).map .market

/-- The fills that a response tells of: a limit order's shows no more than their sum. -/
def Tells (request : OrderRequest) (quantity : Nat) : Prop :=
  match request with
  | .limit _ => quantity ≠ 0
  | .market _ => True

end OrderRequest

def OrderResponse.sequence : OrderResponse → Nat
  | .limit response => response.sequence
  | .market response => response.sequence

section Rendering

theorem checkedFilled_eq (fills : List (Nat × Nat)) :
    checkedFilled fills =
      if (fills.map Prod.snd).sum ≤ u64Max then .ok (fills.map Prod.snd).sum else .error .overflow := by
  have folds : ∀ total ≤ u64Max, fills.foldlM (m := Except VenueError) (fun total fill =>
      if total + fill.2 ≤ u64Max then .ok (total + fill.2) else .error .overflow) total =
        if total + (fills.map Prod.snd).sum ≤ u64Max then .ok (total + (fills.map Prod.snd).sum) else .error .overflow := by
    induction fills with
    | nil =>
      intro total low
      exact (if_pos low).symm
    | cons fill rest ih =>
      intro total low
      rw [List.foldlM_cons, List.map_cons, List.sum_cons, ← Nat.add_assoc]
      by_cases fits : total + fill.2 ≤ u64Max
      · rw [if_pos fits]
        exact ih (total + fill.2) fits
      · rw [if_neg fits, if_neg (by omega)]
        rfl
  have whole := folds 0 (Nat.zero_le _)
  rw [Nat.zero_add] at whole
  exact whole

/-- The totals of fills that add up stay in 128 bits. -/
theorem vwapTotals_ok {fills : List (Nat × Nat)} (priced : ∀ fill ∈ fills, fill.1 < 2 ^ 64)
    (fits : (fills.map Prod.snd).sum ≤ u64Max) :
    ∃ notional, vwapTotals fills = .ok ((fills.map Prod.snd).sum, notional) ∧
      notional ≤ u64Max * (fills.map Prod.snd).sum := by
  have folds : ∀ total notional, notional ≤ u64Max * total → total + (fills.map Prod.snd).sum ≤ u64Max →
      ∃ last, fills.foldlM (m := Except VenueError) (fun totals fill =>
        if totals.1 + fill.2 < 2 ^ 128 ∧ totals.2 + fill.1 * fill.2 < 2 ^ 128 then
          .ok (totals.1 + fill.2, totals.2 + fill.1 * fill.2)
        else .error .overflow) (total, notional) = .ok (total + (fills.map Prod.snd).sum, last) ∧
          last ≤ u64Max * (total + (fills.map Prod.snd).sum) := by
    clear fits
    induction fills with
    | nil => exact fun total notional low _ => ⟨notional, rfl, low⟩
    | cons fill rest ih =>
      intro total notional low fits
      obtain ⟨cheap, others⟩ := List.forall_mem_cons.1 priced
      rw [List.map_cons, List.sum_cons, ← Nat.add_assoc] at fits ⊢
      have price : fill.1 ≤ u64Max := by
        unfold u64Max
        omega
      have worth : notional + fill.1 * fill.2 ≤ u64Max * (total + fill.2) := by
        rw [Nat.mul_add]
        exact Nat.add_le_add low (Nat.mul_le_mul_right _ price)
      have most : u64Max * (total + fill.2) ≤ u64Max * u64Max := Nat.mul_le_mul_left _ (by omega)
      have bound : u64Max * u64Max < 2 ^ 128 := by decide
      have narrow : u64Max < 2 ^ 128 := by decide
      rw [List.foldlM_cons, if_pos ⟨by omega, by omega⟩]
      exact ih others (total + fill.2) (notional + fill.1 * fill.2) worth fits
  have whole := folds 0 0 (Nat.zero_le _) (by rwa [Nat.zero_add])
  rw [Nat.zero_add] at whole
  exact whole

theorem vwapCents_ok {fills : List (Nat × Nat)} (priced : ∀ fill ∈ fills, fill.1 < 2 ^ 64)
    (fits : (fills.map Prod.snd).sum ≤ u64Max) : ∃ price, vwapCents fills = .ok price := by
  obtain ⟨notional, totals, low⟩ := vwapTotals_ok priced fits
  unfold vwapCents
  rw [totals]
  change ∃ price, (if (fills.map Prod.snd).sum = 0 then Except.ok none
    else if notional / (fills.map Prod.snd).sum ≤ u64Max then Except.ok (some (notional / (fills.map Prod.snd).sum))
    else Except.error VenueError.overflow) = Except.ok price
  by_cases nothing : (fills.map Prod.snd).sum = 0
  · exact ⟨none, if_pos nothing⟩
  · have small : notional / (fills.map Prod.snd).sum ≤ u64Max :=
      Nat.div_le_of_le_mul (by rwa [Nat.mul_comm] at low)
    exact ⟨_, (if_neg nothing).trans (if_pos small)⟩

namespace OrderRequest
variable (request : OrderRequest) (orderId : VenueOrderId) (sequence : Nat) {fills : List (Nat × Nat)}

theorem answerWith_sequence {response : OrderResponse}
    (answered : request.answerWith orderId sequence fills = .ok response) : response.sequence = sequence := by
  cases request with
  | limit request =>
    obtain ⟨filled, -, same⟩ := except_bind_ok answered
    cases same
    rfl
  | market request =>
    obtain ⟨filled, -, later⟩ := except_bind_ok answered
    obtain ⟨reply, made, same⟩ := except_bind_ok later
    obtain ⟨price, -, here⟩ := except_bind_ok made
    cases same
    cases here
    rfl

theorem answerWith_ok (priced : ∀ fill ∈ fills, fill.1 < 2 ^ 64) (fits : (fills.map Prod.snd).sum ≤ u64Max) :
    ∃ response, request.answerWith orderId sequence fills = .ok response := by
  have filled : checkedFilled fills = .ok (fills.map Prod.snd).sum := (checkedFilled_eq fills).trans (if_pos fits)
  cases request with
  | limit request =>
    unfold answerWith
    dsimp only
    rw [filled]
    exact ⟨_, rfl⟩
  | market request =>
    obtain ⟨price, average⟩ := vwapCents_ok priced fits
    unfold answerWith marketFilled
    dsimp only
    rw [filled, average]
    exact ⟨_, rfl⟩

/-- Whether a response tells the same of two lists of fills. -/
def SameFills (request : OrderRequest) (fills others : List (Nat × Nat)) : Prop :=
  match request with
  | .limit _ => (fills.map Prod.snd).sum = (others.map Prod.snd).sum
  | .market _ => fills = others

theorem answerWith_eq_iff {others : List (Nat × Nat)} (priced : ∀ fill ∈ fills, fill.1 < 2 ^ 64)
    (fits : (fills.map Prod.snd).sum ≤ u64Max) :
    request.answerWith orderId sequence others = request.answerWith orderId sequence fills ↔
      request.SameFills others fills := by
  cases request with
  | limit request =>
    have mine : (OrderRequest.limit request).answerWith orderId sequence fills =
        .ok (.limit (limitFilled request orderId sequence (fills.map Prod.snd).sum)) := by
      unfold answerWith
      dsimp only
      rw [checkedFilled_eq, if_pos fits]
      rfl
    constructor
    · intro same
      rw [mine] at same
      obtain ⟨filled, summed, reply⟩ := except_bind_ok same
      have filled' : filled = (fills.map Prod.snd).sum :=
        congrArg PlaceLimitOrderResponse.filledQuantity (OrderResponse.limit.inj (Except.ok.inj reply))
      rw [checkedFilled_eq] at summed
      split at summed
      · exact (Except.ok.inj summed).trans filled'
      · cases summed
    · intro same
      have same : (others.map Prod.snd).sum = (fills.map Prod.snd).sum := same
      rw [mine]
      unfold answerWith
      dsimp only
      rw [checkedFilled_eq, same, if_pos fits]
      rfl
  | market request =>
    constructor
    · intro same
      obtain ⟨response, answered⟩ := answerWith_ok (.market request) orderId sequence priced fits
      have other := same.trans answered
      have prints : ∀ {found : List (Nat × Nat)},
          (OrderRequest.market request).answerWith orderId sequence found = .ok response →
            ∃ reply, response = .market reply ∧ reply.fills = found.map fun fill => ⟨fill.1, fill.2⟩ := by
        intro found answers
        obtain ⟨filled, -, later⟩ := except_bind_ok answers
        obtain ⟨reply, made, same⟩ := except_bind_ok later
        obtain ⟨price, -, here⟩ := except_bind_ok made
        cases here
        exact ⟨_, (Except.ok.inj same).symm, rfl⟩
      obtain ⟨reply, shown, mine⟩ := prints answered
      obtain ⟨again, shows, theirs⟩ := prints other
      obtain rfl : reply = again := OrderResponse.market.inj (shown.symm.trans shows)
      refine List.map_injective_iff.2 ?_ (theirs.symm.trans mine)
      intro first second equal
      exact Prod.ext (congrArg FillPrint.price equal) (congrArg FillPrint.quantity equal)
    · intro same
      have same : others = fills := same
      rw [same]

end OrderRequest

end Rendering

section Stored
variable {U : Upstream} {floor : Floor U} {venue : AppState} {account : AccountId} {orderId : VenueOrderId}

/-- The aggressor's leg of an order of an account. -/
def takes (account : AccountId) (orderId : VenueOrderId) (leg : StoreLeg) : Bool :=
  ofOrder account orderId (recordShare leg.record) && decide (leg.record.liquidity = .taker)

theorem takes_iff {leg : StoreLeg} : takes account orderId leg = true ↔
    leg.record.account = account ∧ leg.record.orderId = orderId ∧ leg.record.liquidity = .taker := by
  unfold takes
  rw [Bool.and_eq_true_iff, ofOrder_iff, decide_eq_true_eq, and_assoc]
  rfl

def legPrint (leg : StoreLeg) : Nat × Nat := (leg.record.priceCents, leg.record.quantity)

/-- The fills that a retry is answered with from the stores. -/
def storedFills (venue : AppState) (account : AccountId) (orderId : VenueOrderId) : List (Nat × Nat) :=
  (venue.takerLegsForOrder account orderId).map fun leg => (leg.priceCents, leg.quantity)

/-- Every fill that the store lists under the order's id, and that a response tells of, is one of the event's. -/
def OwnFills (floor : Floor U) (request : OrderRequest) (account : AccountId) (orderId : VenueOrderId)
    (event : VenueEvent) : Prop :=
  ∀ leg ∈ floor.executions.list account ⟨none, none⟩, leg.orderId = orderId → leg.liquidity = .taker →
    request.Tells leg.quantity →
    ∃ fill ∈ outcomeFills event.outcome, leg.key = (fill.executionId, fill.liquidity.isMaker)

variable {taken own : List StoreLeg} (shows : Shows floor venue)
  (recorded : floor.executions = InMemoryExecutionsStore.new.recordAll (taken.map StoreLeg.record))
  (distinct : (taken.map fun leg => leg.record.key).Nodup)

include shows recorded distinct in
theorem storedFills_eq (room : taken.length < 2 ^ 64) :
    storedFills venue account orderId = (taken.filter (takes account orderId)).map legPrint := by
  have keys : ((taken.map StoreLeg.record).map ExecutionRecord.key).Nodup := by
    rw [List.map_map]
    exact distinct
  have listed := @InMemoryExecutionsStore.list_recordAll (taken.map StoreLeg.record) keys
    (by rwa [List.length_map]) account ⟨none, none⟩
  rw [← recorded] at listed
  unfold storedFills AppState.takerLegsForOrder
  rw [shows.executions account]
  dsimp only
  rw [listed]
  dsimp only
  rw [List.filter_filter, List.filter_map, List.map_map]
  refine congrArg (List.map legPrint) (List.filter_congr fun leg _ => ?_)
  rw [Bool.eq_iff_iff, takes_iff]
  simp only [Function.comp_apply, Bool.and_eq_true, decide_eq_true_eq, Option.all_none, and_true]
  rw [and_comm]

include shows recorded distinct in
theorem storedFills_sum : ((storedFills venue account orderId).map Prod.snd).sum =
    askedSum (takes account orderId) (fun leg => leg.record.quantity) taken := by
  have keys : ((taken.map StoreLeg.record).map ExecutionRecord.key).Nodup := by
    rw [List.map_map]
    exact distinct
  have summed := @takerLegs_sum U floor venue account shows taken keys recorded orderId
  unfold storedFills
  rw [List.map_map]
  exact summed

include recorded distinct in
/-- The fills that the store lists are the order's own exactly when the legs are. -/
theorem ownFills_iff {request : OrderRequest} {event : VenueEvent} {symbol : Symbol} {home : String}
    (brings : own = (outcomeFills event.outcome).map (storeLeg event symbol home)) (listed : own.Sublist taken) :
    OwnFills floor request account orderId event ↔
      ∀ leg ∈ taken, takes account orderId leg = true → request.Tells leg.record.quantity → leg ∈ own := by
  have keys : ((taken.map StoreLeg.record).map ExecutionRecord.key).Nodup := by
    rw [List.map_map]
    exact distinct
  have shown := @InMemoryExecutionsStore.list_recordAll_perm (taken.map StoreLeg.record) keys account
  rw [← recorded] at shown
  constructor
  · intro owns leg member takes tells
    obtain ⟨mine, named, taker⟩ := takes_iff.1 takes
    have present : leg.record ∈ floor.executions.list account ⟨none, none⟩ :=
      shown.mem_iff.2 (List.mem_filter.2 ⟨List.mem_map_of_mem member, decide_eq_true mine⟩)
    obtain ⟨fill, filled, same⟩ := owns leg.record present named taker tells
    have brought : storeLeg event symbol home fill ∈ own := brings ▸ List.mem_map_of_mem filled
    rw [List.inj_on_of_nodup_map distinct member (listed.subset brought) same]
    exact brought
  · intro covered record present named taker tells
    obtain ⟨inside, mine⟩ := List.mem_filter.1 (shown.subset present)
    obtain ⟨leg, member, rfl⟩ := List.mem_map.1 inside
    have here := covered leg member (takes_iff.2 ⟨of_decide_eq_true mine, named, taker⟩) tells
    rw [brings] at here
    obtain ⟨fill, filled, rfl⟩ := List.mem_map.1 here
    exact ⟨fill, filled, rfl⟩

include shows recorded distinct in
/-- The stores tell the same of an order as the outcome of its placement exactly when every fill that they list is the
placement's. -/
theorem sameFills_iff {request : OrderRequest} {event : VenueEvent} {symbol : Symbol} {home : String}
    (brings : own = (outcomeFills event.outcome).map (storeLeg event symbol home)) (listed : own.Sublist taken)
    (room : ∀ market, request = .market market → taken.length < 2 ^ 64) :
    request.SameFills (storedFills venue account orderId) ((own.filter (takes account orderId)).map legPrint) ↔
      OwnFills floor request account orderId event := by
  rw [ownFills_iff recorded distinct brings listed]
  have apart : taken.Nodup := List.Nodup.of_map _ distinct
  cases request with
  | limit request =>
    have mine : (((own.filter (takes account orderId)).map legPrint).map Prod.snd).sum =
        askedSum (takes account orderId) (fun leg => leg.record.quantity) own := by
      rw [List.map_map]
      rfl
    have exact' := @askedSum_eq_iff StoreLeg own taken (takes account orderId) (takes account orderId)
      (fun leg => leg.record.quantity) listed (fun _ => id) apart
    unfold OrderRequest.SameFills
    dsimp only
    rw [storedFills_sum shows recorded distinct, mine, eq_comm, exact']
    refine forall₂_congr fun leg member => forall_congr' fun takes => ?_
    unfold OrderRequest.Tells
    dsimp only
    constructor
    · intro either tells
      exact (either.resolve_left tells).2
    · intro here
      by_cases nothing : leg.record.quantity = 0
      · exact Or.inl nothing
      · exact Or.inr ⟨takes, here nothing⟩
  | market request =>
    have told := @filter_eq_iff StoreLeg own taken (takes account orderId) listed apart
    unfold OrderRequest.SameFills
    dsimp only
    rw [storedFills_eq shows recorded distinct (room request rfl)]
    constructor
    · intro same leg member asks _
      have lengths := congrArg List.length same
      rw [List.length_map, List.length_map] at lengths
      exact told.1 ((listed.filter _).eq_of_length lengths.symm) leg member asks
    · intro covered
      rw [told.2 fun leg member asks => covered leg member asks trivial]

end Stored

/-- The economics of an order: those of a placement, or of the replacement of an order. -/
def economicsOf : VenueCommand → Option IdempotencyFingerprint
  | .addOrder placed => some (SequencedState.fingerprint placed)
  | .replace amended =>
    some ⟨amended.symbol, amended.side, .limit, amended.limitPrice, amended.quantity, amended.timeInForce⟩
  | _ => none

section Routes
variable {U : Upstream} {venue : RestState} {auth : Authorized} {path : ContractPath} {request : OrderRequest}
  {symbol : Symbol} {call : PlacementCall}

/-- A confirmed hit is answered from the stores. -/
theorem place_hit {record : ClOrdIdRecord} {clOrdId : ClientOrderId} (named : request.clientOrderId = some clOrdId)
    (indexed : venue.resolveClientOrderId auth.account clOrdId = some record)
    (checked : request.check U venue auth path = .ok symbol)
    (confirmed : record.symbol = symbol ∧ record.side = seamSide request.side ∧ record.quantity = request.quantity) :
    request.place U venue auth path = some
      (request.answerWith record.orderId record.sequence (storedFills venue.toAppState auth.account record.orderId)) := by
  have hit : confirmedHit venue.toAppState auth.account request.clientOrderId symbol (seamSide request.side)
      request.quantity = some record := by
    unfold confirmedHit
    rw [named, Option.bind_some, indexed]
    exact Option.filter_some_pos (decide_eq_true confirmed)
  have replayed : replayTerminal venue.toAppState auth.account record.orderId = (do
      let filled ← checkedFilled (storedFills venue.toAppState auth.account record.orderId)
      .ok (storedFills venue.toAppState auth.account record.orderId, filled)) := rfl
  cases request with
  | limit request =>
    have checked : checkLimit U venue.nowMs auth path request = .ok symbol := checked
    unfold OrderRequest.place placeLimitOrder
    dsimp only
    rw [checked]
    dsimp only
    have hit : confirmedHit venue.toAppState auth.account request.clientOrderId symbol (seamSide request.side)
      request.quantity = some record := hit
    rw [hit]
    dsimp only
    rw [Option.map_some]
    refine congrArg some ?_
    unfold replayLimit OrderRequest.answerWith
    rw [replayed]
    cases checkedFilled (storedFills venue.toAppState auth.account record.orderId) <;> rfl
  | market request =>
    have checked : checkMarket U auth path request = .ok symbol := checked
    unfold OrderRequest.place placeMarketOrder
    dsimp only
    rw [checked]
    dsimp only
    have hit : confirmedHit venue.toAppState auth.account request.clientOrderId symbol (seamSide request.side)
      request.quantity = some record := hit
    rw [hit]
    dsimp only
    rw [Option.map_some]
    refine congrArg some ?_
    unfold replayMarket OrderRequest.answerWith
    rw [replayed]
    cases checkedFilled (storedFills venue.toAppState auth.account record.orderId) with
    | error error => rfl
    | ok filled =>
      dsimp only [Bind.bind, Except.bind]
      cases marketFilled request record.orderId record.sequence filled
        (storedFills venue.toAppState auth.account record.orderId) <;> rfl

/-- An answered submission is rendered. -/
theorem submit_answered {account : AccountId} {underlying : String} {receipt : Receipt}
    (called : request.call venue account underlying symbol = .ok call)
    (answers : venue.submit call.command call.stamp = some (.ok receipt)) :
    request.submit venue account underlying symbol = some (request.render call.orderId receipt) := by
  cases request with
  | limit request =>
    have called : limitCall request venue account underlying symbol = .ok call := called
    unfold OrderRequest.submit submitLimit
    dsimp only
    rw [called]
    dsimp only
    rw [answers]
    rfl
  | market request =>
    have called : marketCall request venue account underlying symbol = .ok call := called
    unfold OrderRequest.submit submitMarket
    dsimp only
    rw [called]
    dsimp only
    rw [answers]
    rfl

/-- What is submitted is the placement that was asked for. -/
theorem call_places {account : AccountId} {underlying : String}
    (called : request.call venue account underlying symbol = .ok call) :
    ∃ retry, call.command = .addOrder retry ∧ retry.account = account ∧ retry.clientOrderId = request.clientOrderId ∧
      retry.symbol = symbol ∧ retry.side = seamSide request.side ∧ retry.quantity = request.quantity := by
  cases request with
  | limit request =>
    obtain ⟨owner, -, later⟩ := except_bind_ok called
    obtain ⟨tif, -, rest⟩ := except_bind_ok later
    obtain ⟨stamp, -, same⟩ := except_bind_ok rest
    cases same
    exact ⟨_, rfl, rfl, rfl, rfl, rfl, rfl⟩
  | market request =>
    obtain ⟨owner, -, later⟩ := except_bind_ok called
    obtain ⟨stamp, -, same⟩ := except_bind_ok later
    cases same
    exact ⟨_, rfl, rfl, rfl, rfl, rfl, rfl⟩

theorem render_market (orderId : VenueOrderId) (receipt : Receipt) (request : PlaceMarketOrderRequest) :
    (OrderRequest.market request).render orderId receipt =
      (OrderRequest.market request).answerWith (identityOf orderId receipt).1 (identityOf orderId receipt).2
        (receiptFills receipt) := by
  unfold OrderRequest.render renderMarket OrderRequest.answerWith
  dsimp only
  cases checkedFilled (receiptFills receipt) with
  | error error => rfl
  | ok filled =>
    dsimp only [Bind.bind, Except.bind]
    cases marketFilled request (identityOf orderId receipt).1 (identityOf orderId receipt).2 filled
      (receiptFills receipt) <;> rfl

/-- A receipt that is not a rejection is rendered from its fills, under its identity. -/
theorem render_answer (orderId : VenueOrderId) {receipt : Receipt}
    (entered : ∀ kind reason, receipt.outcome.map VenueOutcome.terminal ≠ some (.rejected kind reason)) :
    request.render orderId receipt =
      request.answerWith (identityOf orderId receipt).1 (identityOf orderId receipt).2 (receiptFills receipt) := by
  cases request with
  | limit request =>
    unfold OrderRequest.render renderLimit
    dsimp only
    split
    next kind reason rejected => exact absurd rejected (entered kind reason)
    next =>
      unfold OrderRequest.answerWith
      dsimp only
      cases checkedFilled (receiptFills receipt) <;> rfl
  | market request => exact render_market orderId receipt request

/-- Whatever the outcome, the response has the sequence of the rendered identity. -/
theorem render_sequence (orderId : VenueOrderId) {receipt : Receipt}
    (priced : ∀ fill ∈ receiptFills receipt, fill.1 < 2 ^ 64) (fits : ((receiptFills receipt).map Prod.snd).sum ≤ u64Max) :
    ∃ response, request.render orderId receipt = .ok response ∧
      response.sequence = (identityOf orderId receipt).2 := by
  have answered : request.render orderId receipt =
      request.answerWith (identityOf orderId receipt).1 (identityOf orderId receipt).2 (receiptFills receipt) →
      ∃ response, request.render orderId receipt = .ok response ∧
        response.sequence = (identityOf orderId receipt).2 := by
    intro same
    obtain ⟨response, made⟩ := request.answerWith_ok (identityOf orderId receipt).1 (identityOf orderId receipt).2
      priced fits
    exact ⟨response, same.trans made, request.answerWith_sequence _ _ made⟩
  by_cases entered : ∀ kind reason, receipt.outcome.map VenueOutcome.terminal ≠ some (.rejected kind reason)
  · exact answered (render_answer orderId entered)
  · push Not at entered
    obtain ⟨kind, reason, rejected⟩ := entered
    cases request with
    | limit request =>
      unfold OrderRequest.render renderLimit
      dsimp only
      rw [rejected]
      exact ⟨_, rfl, rfl⟩
    | market request => exact answered (render_market orderId receipt request)

end Routes

section Runs
variable {U : Upstream} {config : BootConfig} {streams : String → Option Stream} {start : Floor U} {venue : RestState}
  {auth : Authorized} {path : ContractPath} {request : OrderRequest} {clOrdId : ClientOrderId} {record : ClOrdIdRecord}
  {symbol : Symbol} {call : PlacementCall} {underlying : String} {venueTs : Nat} {receipt : Receipt}

/-- The aggressor's legs that a placement brings to the stores are the fills of its outcome. -/
theorem placed_prints {event : VenueEvent} {placed : AddOrder} {symbol : Symbol} {home : String}
    (legs : PlacedLegs placed.placement (outcomeFills event.outcome)) (entered : event.outcome.isPlaced = true) :
    ((((outcomeFills event.outcome).map (storeLeg event symbol home)).filter
      (takes placed.account placed.orderId)).map legPrint) = event.outcome.takerFillLegs := by
  rw [VenueOutcome.takerFillLegs_placed entered, List.filter_map, List.map_map]
  refine congrArg (List.map fun fill : Fill => (fill.price, fill.quantity)) (List.filter_congr fun fill member => ?_)
  rw [Bool.eq_iff_iff, Function.comp_apply, takes_iff, decide_eq_true_eq]
  constructor
  · exact fun asked => asked.2.2
  · intro taker
    obtain ⟨named, own⟩ := legs.own fill member taker
    exact ⟨own, named, taker⟩

/-- A placement is never answered under the sequence of a replacement. -/
theorem answered_apart {floor : Floor U} (accounted : floor.Accounted) (answering : floor.Answering)
    {actor : VenueActor U} (held : floor.actors underlying = some actor) (opened : actor.sealed = none)
    {event : VenueEvent} (listed : (underlying, event) ∈ floor.journaled) {amended : Replace}
    (replaces : event.command = .replace amended) {ctx : ExecutionContext} {retry : AddOrder}
    (places : ctx.command = .addOrder retry) (keyed : retry.clientOrderId = some clOrdId)
    (sequenced : ctx.sequence = actor.nextSequence) (freshOrderId : VenueOrderId) :
    (actor.executor.state.execute actor.executor.hashOrder ctx).1.Sums ∧
      ((actor.executor.state.execute actor.executor.hashOrder ctx).1.renderedIdentity freshOrderId ctx.sequence).2 ≠
        event.underlyingSequence := by
  have past := accounted.past _ listed actor held opened
  have later : ctx.sequence ≠ event.underlyingSequence := by
    have below : event.underlyingSequence < actor.nextSequence := past
    omega
  cases known : actor.executor.state.idempotency[(retry.account, clOrdId)]? with
  | none =>
    have sums := @SequencedState.executeAddOrder_sums U ctx retry.placement actor.executor.hashOrder actor.executor.state
      retry.orderType retry.limitPrice
    rw [← SequencedState.execute_first _ _ _ places keyed known] at sums
    refine ⟨sums.1, ?_⟩
    cases outcome : (actor.executor.state.execute actor.executor.hashOrder ctx).1 with
    | duplicate orderId sequence terminal => exact absurd outcome (sums.2 orderId sequence terminal)
    | _ => exact later
  | some earlier =>
    obtain ⟨sums, placing, member, sequence, placed, command⟩ :=
      answering.sourced underlying actor held opened _ earlier known
    rw [SequencedState.execute_known _ _ _ places keyed known]
    dsimp only
    unfold SequencedState.repeatAnswer
    by_cases same : earlier.fingerprint = SequencedState.fingerprint retry
    · rw [if_pos same]
      refine ⟨⟨sums.priced, sums.fits⟩, fun equal => ?_⟩
      have equal : earlier.sequence = event.underlyingSequence := equal
      have one : (underlying, placing) = (underlying, event) :=
        List.inj_on_of_nodup_map accounted.once (Floor.mem_eventsOf.1 member) listed
          (Prod.ext rfl (sequence.trans equal))
      obtain rfl : placing = event := congrArg Prod.snd one
      rw [replaces] at command
      cases command
    · rw [if_neg same]
      exact ⟨⟨List.forall_mem_nil _, Nat.zero_le _⟩, later⟩

/-- A retried placement is answered from the stores as the executor answers it exactly when the index record was written
by the placement, and what the stores list under the order's id is the placement's. A record that a replacement has
written never is: the executor knows nothing of it. -/
theorem replayed_iff (laws : MatchLaws U) (keyed : KeyedStreams streams)
    (booted : Floor.boot U config streams = .ok start) (turns later : List (String × Submission))
    (shows : Shows (start.run turns) venue.toAppState) (named : request.clientOrderId = some clOrdId)
    (indexed : venue.resolveClientOrderId auth.account clOrdId = some record)
    (checked : request.check U venue auth path = .ok symbol)
    (called : request.call venue auth.account path.underlying symbol = .ok call)
    (routed : underlyingOf U symbol = some underlying)
    (answered : (((start.run turns).run later).turn underlying ⟨venueTs, call.command⟩).1 = .ok receipt)
    (answers : venue.submit call.command call.stamp = some (.ok receipt))
    (room : ∀ market, request = .market market → (start.run turns).legs.length < 2 ^ 64) :
    ∃ entry ∈ (start.run turns).journaled, ((auth.account, clOrdId), some record) ∈ correlationWrites entry.2 ∧
      (economicsOf entry.2.command = economicsOf call.command →
        (request.place U venue auth path = request.submit venue auth.account path.underlying symbol ↔
          (∃ placed, entry.2.command = .addOrder placed) ∧
            OwnFills (start.run turns) request auth.account record.orderId entry.2)) := by
  have accounted := (Floor.accounted_boot keyed booted).run turns
  have answering := (Floor.answering_boot booted).run (Floor.accounted_boot keyed booted) turns
  have afterwards := answering.run accounted later
  have still := accounted.run later
  obtain ⟨grows, stays⟩ := accounted.lasting later
  obtain ⟨entry, listed, written⟩ := answering.indexed _ _ _ ((shows.index _ _).symm.trans indexed)
  refine ⟨entry, listed, written, fun economics => ?_⟩
  obtain ⟨retry, places, own, keyedBy, asked, sided, sized⟩ := call_places called
  obtain ⟨actor, held, opened, same⟩ := Floor.turn_answered answered
  have home := answering.placedAt entry listed _ written record rfl
  have asks : retry.clientOrderId = some clOrdId := keyedBy.trans named
  rw [submit_answered called answers]
  rw [places] at economics
  -- the record is of the order that is asked for, on the actor that answers
  have confirms : record.symbol = retry.symbol ∧ record.side = retry.side ∧ record.quantity = retry.quantity →
      underlying = entry.1 ∧ request.place U venue auth path = some
        (request.answerWith record.orderId record.sequence
          (storedFills venue.toAppState auth.account record.orderId)) := by
    rintro ⟨symbols, sides, sizes⟩
    rw [asked] at symbols
    rw [symbols] at home
    exact ⟨Option.some.inj (routed.symm.trans home),
      place_hit named indexed checked ⟨symbols, sides.trans sided, sizes.trans sized⟩⟩
  rcases written_by written with ⟨placed, command, entered, account, keyedAs, rfl⟩ | ⟨amended, command, rfl⟩
  · rw [command] at economics
    have prints : SequencedState.fingerprint placed = SequencedState.fingerprint retry := Option.some.inj economics
    obtain ⟨rfl, hit⟩ := confirms ⟨congrArg IdempotencyFingerprint.symbol prints,
      congrArg IdempotencyFingerprint.side prints, congrArg IdempotencyFingerprint.quantity prints⟩
    have event : entry.2 ∈ ((start.run turns).run later).eventsOf entry.1 := Floor.mem_eventsOf.2 (grows listed)
    obtain ⟨known, legs⟩ := afterwards.keeps entry.1 actor held entry.2 event placed clOrdId command keyedAs entered
    rw [account, ← own] at known
    have executed := SequencedState.execute_known actor.executor.hashOrder actor.executor.state
      ((((start.run turns).run later).lend actor).envelope ⟨venueTs, call.command⟩ |>.context actor.underlying
        actor.lineageId) places asks known
    rw [executed] at same
    unfold SequencedState.repeatAnswer at same
    dsimp only at same
    rw [if_pos prints] at same
    subst same
    have accepted : ∀ kind reason, (Receipt.committed actor.nextSequence venueTs (.duplicate placed.orderId
        entry.2.underlyingSequence entry.2.outcome)).outcome.map VenueOutcome.terminal ≠ some (.rejected kind reason) := by
      intro kind reason rejected
      have rejected : entry.2.outcome = .rejected kind reason := Option.some.inj rejected
      rw [rejected] at entered
      cases entered
    have answer : request.render call.orderId (Receipt.committed actor.nextSequence venueTs (.duplicate placed.orderId
        entry.2.underlyingSequence entry.2.outcome)) =
          request.answerWith placed.orderId entry.2.underlyingSequence entry.2.outcome.takerFillLegs :=
      render_answer call.orderId accepted
    have sums := legs.sums entered
    -- what the store has of the event, which the open actor has projected
    obtain ⟨executor, derived, event'⟩ := accounted.derived entry listed
    obtain ⟨contract, home', brings⟩ := deriveEvent_legs entry.1 (start.run turns).lineageId executor derived
    rw [← event'] at brings
    obtain ⟨taken, inside, recorded, whole⟩ := answering.stored
    have keys := accounted.keys laws
    have projected : ∀ leg ∈ storeLegs U entry.2, leg ∈ taken := by
      refine whole entry listed fun before present failed => ?_
      obtain ⟨last, seated, shut⟩ := stays entry.1 before present failed
      obtain rfl := Option.some.inj (held.symm.trans seated)
      rw [opened] at shut
      cases shut
    have mine : (storeLegs U entry.2).Sublist (start.run turns).legs := by
      unfold Floor.legs
      rw [List.flatMap_def]
      exact List.sublist_flatten_of_mem (List.mem_map_of_mem listed)
    have part := sublist_of_subset mine inside (List.Nodup.of_map _ keys) projected
    have tells := @sameFills_iff U (start.run turns) venue.toAppState auth.account placed.orderId taken
      (storeLegs U entry.2) shows recorded (keys.sublist (inside.map _)) request entry.2 contract home' brings part
      fun market same => (inside.length_le.trans_lt (room market same))
    have shown := @placed_prints entry.2 placed contract home' legs entered
    rw [← brings, account] at shown
    rw [shown] at tells
    rw [hit, answer, Option.some_inj, request.answerWith_eq_iff _ _ sums.priced sums.fits, tells]
    exact (and_iff_right ⟨placed, command⟩).symm
  · rw [command] at economics
    have amends := Option.some.inj economics
    obtain ⟨rfl, hit⟩ := confirms ⟨congrArg IdempotencyFingerprint.symbol amends,
      congrArg IdempotencyFingerprint.side amends, congrArg IdempotencyFingerprint.quantity amends⟩
    refine iff_of_false (fun equal => ?_) fun placing => ?_
    · have placing : ((((start.run turns).run later).lend actor).envelope ⟨venueTs, call.command⟩ |>.context
          actor.underlying actor.lineageId).command = .addOrder retry := places
      obtain ⟨sums, apart⟩ := answered_apart still afterwards held opened (grows listed) command placing asks rfl
        call.orderId
      rw [hit] at equal
      subst same
      obtain ⟨response, rendered, sequence⟩ := @render_sequence request call.orderId
        (.committed actor.nextSequence venueTs _) sums.priced sums.fits
      have answered := (Option.some.inj equal).trans rendered
      have replayed := request.answerWith_sequence _ _ answered
      exact apart (sequence.symm.trans replayed)
    · obtain ⟨⟨placed, places⟩, -⟩ := placing
      rw [command] at places
      cases places

end Runs

instance OrderRequest.Tells.decidable (request : OrderRequest) (quantity : Nat) : Decidable (request.Tells quantity) := by
  unfold OrderRequest.Tells
  cases request <;> infer_instance

instance OwnFills.decidable {U : Upstream} (floor : Floor U) (request : OrderRequest) (account : AccountId)
    (orderId : VenueOrderId) (event : VenueEvent) : Decidable (OwnFills floor request account orderId event) := by
  unfold OwnFills
  infer_instance

/-- The routes over a floor: a placement is answered by its actor. -/
def routesOver (floor : Floor referenceUpstream) : RestState :=
  { servedBy floor with
    submit := fun command _ => some ((floor.turn "BTC" ⟨2, command⟩).1.mapError VenueError.ofSequenced)
    restIngressCounter := 0 }

def callPath : ContractPath := ⟨"BTC", "20351231", 50000, "call"⟩

def aliceTrades : Authorized := ⟨"alice", [.trade]⟩

def sellAgain (clOrdId : ClientOrderId) : OrderRequest := .limit ⟨.sell, 100, 5, none, none, some clOrdId⟩

def sellCall (clOrdId : ClientOrderId) : PlacementCall where
  orderId := mintedId "run-1" "BTC" 0
  command := .addOrder ⟨"BTC-20351231-50000-C", mintedId "run-1" "BTC" 0, "alice", 7, some clOrdId, .sell, .limit,
    some 100, 5, .gtc, .none⟩
  stamp := ⟨"alice", 0⟩

theorem soldAtOnce_replayed : ∃ start, Floor.boot referenceUpstream bitcoinBoot (fun _ => none) = .ok start ∧
    (sellAgain "c1").place referenceUpstream (routesOver (start.run soldAtOnce)) aliceTrades callPath =
      (sellAgain "c1").submit (routesOver (start.run soldAtOnce)) "alice" "BTC" "BTC-20351231-50000-C" := by
  have facts : (Floor.boot referenceUpstream bitcoinBoot (fun _ => none)).toOption.any (fun start =>
      ((sellAgain "c1").check referenceUpstream (routesOver (start.run soldAtOnce)) aliceTrades callPath).toOption =
          some "BTC-20351231-50000-C" ∧
        ((start.run soldAtOnce).turn "BTC" ⟨2, (sellCall "c1").command⟩).1.toOption.isSome = true ∧
        (start.run soldAtOnce).clordidIndex.resolve "alice" "c1" =
          some ⟨"a", "BTC-20351231-50000-C", .sell, 5, 1⟩ ∧
        ∀ entry ∈ (start.run soldAtOnce).journaled,
          (("alice", "c1"), some ⟨"a", "BTC-20351231-50000-C", .sell, 5, 1⟩) ∈ correlationWrites entry.2 →
            economicsOf entry.2.command = economicsOf (sellCall "c1").command ∧
              placementKey entry.2.command = some ("alice", "c1") ∧
                OwnFills (start.run soldAtOnce) (sellAgain "c1") "alice" "a" entry.2) = true := by
    decide +kernel
  obtain ⟨start, here, holds⟩ := (Option.any_eq_true _ _).1 facts
  obtain ⟨checked, replied, resolved, entries⟩ := of_decide_eq_true holds
  have booted : Floor.boot referenceUpstream bitcoinBoot (fun _ => none) = .ok start := except_of_toOption here
  have keyed : KeyedStreams fun _ => none := fun _ _ wrong => (by cases wrong)
  obtain ⟨receipt, reply⟩ := Option.isSome_iff_exists.1 replied
  have answered : ((start.run soldAtOnce).turn "BTC" ⟨2, (sellCall "c1").command⟩).1 = .ok receipt :=
    except_of_toOption reply
  have answers : (routesOver (start.run soldAtOnce)).submit (sellCall "c1").command (sellCall "c1").stamp =
      some (.ok receipt) := by
    unfold routesOver
    dsimp only
    rw [answered]
    rfl
  obtain ⟨entry, listed, written, told⟩ := @replayed_iff referenceUpstream bitcoinBoot (fun _ => none) start
    (routesOver (start.run soldAtOnce)) aliceTrades callPath (sellAgain "c1") "c1"
    ⟨"a", "BTC-20351231-50000-C", .sell, 5, 1⟩ "BTC-20351231-50000-C" (sellCall "c1") "BTC" 2 receipt
    matchLaws_reference keyed booted soldAtOnce [] ⟨fun _ => rfl, fun _ _ => rfl⟩ rfl resolved
    (except_of_toOption checked) rfl (by decide +kernel) answered answers (fun _ wrong => by cases wrong)
  obtain ⟨economics, key, own⟩ := entries entry listed written
  have placing : ∃ placed, entry.2.command = .addOrder placed := by
    cases command : entry.2.command with
    | addOrder placed => exact ⟨placed, rfl⟩
    | _ =>
      rw [command] at key
      cases key
  exact ⟨start, booted, (told economics).2 ⟨placing, own⟩⟩

/-- The offer of the account is replaced over FIX, by one under a client order id of its own. -/
def replacedOffer : List (String × Submission) := [limitOrder "alice" "a" 7 .sell,
  ("BTC", ⟨1, .replace ⟨"BTC-20351231-50000-C", "a", "b", "alice", some "c2", some "c1", .sell, some 100, 5, .gtc,
    .none⟩⟩)]

/-- A placement under that client order id is a new order to the executor. From the stores it is answered with the
replacement, and nothing is placed. -/
theorem replacedOffer_unlike : ∃ start, Floor.boot referenceUpstream bitcoinBoot (fun _ => none) = .ok start ∧
    (sellAgain "c2").place referenceUpstream (routesOver (start.run replacedOffer)) aliceTrades callPath =
      some (.ok (.limit ⟨"b", .accepted, 0, 5, 1, "order accepted; resting"⟩)) ∧
    (sellAgain "c2").submit (routesOver (start.run replacedOffer)) "alice" "BTC" "BTC-20351231-50000-C" =
      some (.ok (.limit ⟨"run-1:BTC:g0:0", .accepted, 0, 5, 2, "order accepted; resting"⟩)) ∧
    ∃ entry ∈ (start.run replacedOffer).journaled,
      (("alice", "c2"), some ⟨"b", "BTC-20351231-50000-C", .sell, 5, 1⟩) ∈ correlationWrites entry.2 ∧
        economicsOf entry.2.command = economicsOf (sellCall "c2").command := by
  have facts : (Floor.boot referenceUpstream bitcoinBoot (fun _ => none)).toOption.any (fun start =>
      (((sellAgain "c2").place referenceUpstream (routesOver (start.run replacedOffer)) aliceTrades callPath).bind
          Except.toOption) = some (.limit ⟨"b", .accepted, 0, 5, 1, "order accepted; resting"⟩) ∧
        (((sellAgain "c2").submit (routesOver (start.run replacedOffer)) "alice" "BTC" "BTC-20351231-50000-C").bind
          Except.toOption) =
            some (.limit ⟨"run-1:BTC:g0:0", .accepted, 0, 5, 2, "order accepted; resting"⟩) ∧
        ∃ entry ∈ (start.run replacedOffer).journaled,
          (("alice", "c2"), some ⟨"b", "BTC-20351231-50000-C", .sell, 5, 1⟩) ∈ correlationWrites entry.2 ∧
            economicsOf entry.2.command = economicsOf (sellCall "c2").command) = true := by
    decide +kernel
  have shown : ∀ {reply : Option (Except VenueError OrderResponse)} {response : OrderResponse},
      reply.bind Except.toOption = some response → reply = some (.ok response) := by
    intro reply response made
    obtain ⟨result, rfl, done⟩ := Option.bind_eq_some_iff.1 made
    exact congrArg some (except_of_toOption done)
  obtain ⟨start, here, holds⟩ := (Option.any_eq_true _ _).1 facts
  obtain ⟨placed, submitted, entry⟩ := of_decide_eq_true holds
  exact ⟨start, except_of_toOption here, shown placed, shown submitted, entry⟩

end Fauxchange.Rest
