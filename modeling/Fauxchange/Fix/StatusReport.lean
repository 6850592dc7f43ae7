import Fauxchange.Fix.OutboundRuns
import Fauxchange.Lib.PartialSum
import Fauxchange.Venue.FloorRuns

/-! The status of an order over FIX. It is folded from the taker legs that the executions store has under the order's
id, so it tells the fills that the order took on its entry, and none of those that were made against it later. -/

namespace Fauxchange.Fix
open Exchange Lib Venue OrderFlow Fallible

/-- A request that is answered with the status of an order. -/
inductive StatusQuery where
  | status (request : OrderStatusRequest)
  | retry (order : NewOrderSingle) (stamp : IngressStamp)

namespace StatusQuery

/-- The order that a request names on an account: a tracked one by its order id, or the one that a client order id
resolves to; a placement names the order that it repeats. -/
def names (venue : AppState) (session : VenueFixSession) (account : AccountId) : StatusQuery → Option ResolvedOrder
  | .status request =>
    match request.orderId, request.clOrdId with
    | some orderId, _ =>
      ((visit venue.hashOrder 0 session.placed.toList).find? fun entry => entry.2.orderId = orderId).map
        fun entry => entry.2.toResolvedOrder
    | none, some clOrdId => session.resolveOrder venue account clOrdId
    | none, none => none
  | .retry order _ =>
    session.placed[order.clOrdId]?.bind fun placed =>
      if placed.fingerprint = .ofNewOrder order then some placed.toResolvedOrder else none

def route [Ironfix] (U : Upstream) (venue : AppState) (now : Nat) : StatusQuery → SessionM Reaction
  | .status request => routeStatus U venue request now
  | .retry order stamp => routeNewOrder U venue order stamp now

end StatusQuery

/-- What a session sees of a floor. -/
structure Shows {U : Upstream} (floor : Floor U) (venue : AppState) : Prop where
  executions : ∀ account, venue.executions account = .ok (floor.executions.list account ⟨none, none⟩)
  index : ∀ account clOrdId, venue.resolveClientOrderId account clOrdId = floor.clordidIndex.resolve account clOrdId

/-- The report on an order that stands at a quantity. -/
def trackedStatus (U : Upstream) (venue : AppState) (account : AccountId) (order : ResolvedOrder) (now : Nat) :
    ExecReportSpec :=
  renderStatusReport order.symbol order.side order.orderId order.quantity
    (filledBy (venue.takerLegsForOrder account order.orderId)) now
    (venue.takerLegsForOrder account order.orderId).getLast? venue.lineageId (underlyingOfSymbol U order.symbol)

/-- The status of an order of which so much is filled. -/
def statusOf (quantity filled : Nat) : OrdStatus :=
  if quantity ≤ filled ∧ 0 < quantity then .filled else if 0 < filled then .partiallyFilled else .new

/-- A report tells that so much of an order is filled. -/
structure Tells (spec : ExecReportSpec) (quantity filled : Nat) : Prop where
  cumQty : spec.cumQty = filled
  leavesQty : spec.leavesQty = quantity - filled
  ordStatus : spec.ordStatus = statusOf quantity filled

section Fills
variable {U : Upstream} (floor : Floor U) (account : AccountId) (orderId : VenueOrderId)

def ofOrder (share : Share) : Bool := share.account = account ∧ share.orderId = orderId

/-- All that has been filled of an order, whichever side of the match it was on. -/
def filledOf : Nat := askedSum (ofOrder account orderId) Share.quantity (floor.fills.map fillShare)

/-- Every fill of the order is one that it took on its entry, and that the store has. -/
def TakenOnEntry : Prop :=
  ∀ fill ∈ floor.fills, fill.account = account → fill.orderId = orderId → fill.quantity = 0 ∨
    fill.liquidity = .taker ∧ ∃ record ∈ floor.executions.list account ⟨none, none⟩,
      record.key = (fill.executionId, fill.liquidity.isMaker)

end Fills

theorem ofOrder_iff {account : AccountId} {orderId : VenueOrderId} {share : Share} :
    ofOrder account orderId share = true ↔ share.account = account ∧ share.orderId = orderId := decide_eq_true_iff

section Folding

theorem checkedSum_le (total quantity : Nat) (below : total ≤ u64Max) : checkedSum total quantity ≤ u64Max := by
  unfold checkedSum
  split
  next fits => exact fits
  next => exact below

/-- The fold of the taker legs never leaves the machine type, and it is their sum where that fits. -/
theorem filledBy_sum (legs : List ExecutionRecord) :
    filledBy legs ≤ u64Max ∧
      ((legs.map ExecutionRecord.quantity).sum ≤ u64Max → filledBy legs = (legs.map ExecutionRecord.quantity).sum) := by
  have folds : ∀ total, total ≤ u64Max →
      legs.foldl (fun cum leg => checkedSum cum leg.quantity) total ≤ u64Max ∧
        (total + (legs.map ExecutionRecord.quantity).sum ≤ u64Max →
          legs.foldl (fun cum leg => checkedSum cum leg.quantity) total =
            total + (legs.map ExecutionRecord.quantity).sum) := by
    induction legs with
    | nil => exact fun total below => ⟨below, fun _ => rfl⟩
    | cons leg rest ih =>
      intro total below
      obtain ⟨bounded, exact'⟩ := ih (checkedSum total leg.quantity) (checkedSum_le total leg.quantity below)
      refine ⟨bounded, fun fits => ?_⟩
      rw [List.map_cons, List.sum_cons, ← Nat.add_assoc] at fits ⊢
      have first : checkedSum total leg.quantity = total + leg.quantity := if_pos (by omega)
      rw [List.foldl_cons, exact' (by omega), first]
  have whole := folds 0 (by decide)
  rw [Nat.zero_add] at whole
  exact whole

end Folding

section Exact
variable {U : Upstream} {floor : Floor U} {venue : AppState} {account : AccountId}

theorem tells_iff (venue : AppState) (account : AccountId) (order : ResolvedOrder) (now filled : Nat) :
    Tells (trackedStatus U venue account order now) order.quantity filled ↔
      filledBy (venue.takerLegsForOrder account order.orderId) = filled := by
  constructor
  · exact Tells.cumQty
  · rintro rfl
    exact ⟨rfl, rfl, rfl⟩

/-- The legs of an order in the list of an account, as the fills that they are. -/
theorem filledOf_legs (accounted : floor.Accounted) (orderId : VenueOrderId) :
    filledOf floor account orderId = askedSum (fun leg => ofOrder account orderId (recordShare leg.record))
      (fun leg => leg.record.quantity) floor.legs := by
  unfold filledOf askedSum
  rw [accounted.shares, List.filter_map, List.map_map]
  rfl

/-- The sum that a status is folded from. -/
theorem takerLegs_sum (shows : Shows floor venue) {taken : List StoreLeg}
    (distinct : ((taken.map StoreLeg.record).map ExecutionRecord.key).Nodup)
    (recorded : floor.executions = InMemoryExecutionsStore.new.recordAll (taken.map StoreLeg.record))
    (orderId : VenueOrderId) :
    ((venue.takerLegsForOrder account orderId).map ExecutionRecord.quantity).sum =
      askedSum (fun leg => ofOrder account orderId (recordShare leg.record) && decide (leg.record.liquidity = .taker))
        (fun leg => leg.record.quantity) taken := by
  have listed := InMemoryExecutionsStore.list_recordAll_perm distinct account
  rw [← recorded] at listed
  unfold AppState.takerLegsForOrder
  rw [shows.executions account]
  dsimp only
  rw [((listed.filter _).map _).sum_eq, List.filter_filter, List.filter_map, List.map_map]
  unfold askedSum
  refine congrArg List.sum (congrArg (List.map fun leg : StoreLeg => leg.record.quantity) (List.filter_congr fun leg _ => ?_))
  rw [Bool.eq_iff_iff]
  simp only [ofOrder_iff, recordShare, Function.comp_apply, Bool.and_eq_true, decide_eq_true_eq]
  rw [and_comm, and_assoc]

/-- A leg is in the list of its account under its key exactly if the store has taken it. -/
theorem listed_iff {taken : List StoreLeg} (keys : (floor.legs.map fun leg => leg.record.key).Nodup)
    (sub : taken.Sublist floor.legs)
    (recorded : floor.executions = InMemoryExecutionsStore.new.recordAll (taken.map StoreLeg.record)) {leg : StoreLeg}
    (member : leg ∈ floor.legs) (own : leg.record.account = account) :
    (∃ record ∈ floor.executions.list account ⟨none, none⟩, record.key = leg.record.key) ↔ leg ∈ taken := by
  have distinct : ((taken.map StoreLeg.record).map ExecutionRecord.key).Nodup := by
    rw [List.map_map]
    exact keys.sublist (sub.map _)
  have listed := InMemoryExecutionsStore.list_recordAll_perm distinct account
  rw [← recorded] at listed
  constructor
  · rintro ⟨record, here, same⟩
    obtain ⟨there, -⟩ := List.mem_filter.1 (listed.subset here)
    obtain ⟨other, kept, rfl⟩ := List.mem_map.1 there
    exact List.inj_on_of_nodup_map keys (sub.subset kept) member same ▸ kept
  · intro kept
    refine ⟨leg.record, listed.mem_iff.2 (List.mem_filter.2 ⟨List.mem_map_of_mem kept, ?_⟩), rfl⟩
    exact decide_eq_true own

/-- The fold of the taker legs is all that has been filled of an order exactly when each of its fills was taken on its
entry. -/
theorem filledBy_takerLegs_iff (accounted : floor.Accounted) (laws : MatchLaws U) (shows : Shows floor venue)
    (orderId : VenueOrderId) :
    filledBy (venue.takerLegsForOrder account orderId) = filledOf floor account orderId ↔
      TakenOnEntry floor account orderId ∧ filledOf floor account orderId ≤ u64Max := by
  have keys := accounted.keys laws
  obtain ⟨taken, sub, recorded, -⟩ := accounted.recorded
  have distinct : ((taken.map StoreLeg.record).map ExecutionRecord.key).Nodup := by
    rw [List.map_map]
    exact keys.sublist (sub.map _)
  obtain ⟨bounded, folds⟩ := filledBy_sum (venue.takerLegsForOrder account orderId)
  have sum := @takerLegs_sum U floor venue account shows taken distinct recorded orderId
  have total := @filledOf_legs U floor account accounted orderId
  have narrower : ∀ leg : StoreLeg,
      (ofOrder account orderId (recordShare leg.record) && decide (leg.record.liquidity = .taker)) = true →
        ofOrder account orderId (recordShare leg.record) = true := fun _ both => (Bool.and_eq_true_iff.1 both).1
  have below := @askedSum_le StoreLeg taken floor.legs _ _ (fun leg => leg.record.quantity) sub narrower
  have equal := @askedSum_eq_iff StoreLeg taken floor.legs _ _ (fun leg => leg.record.quantity) sub narrower keys.of_map
  rw [← total] at below equal
  rw [← sum] at below equal
  -- the fills of the order are the legs with its id
  have entered : TakenOnEntry floor account orderId ↔ ∀ leg ∈ floor.legs,
      ofOrder account orderId (recordShare leg.record) = true → leg.record.quantity = 0 ∨
        (ofOrder account orderId (recordShare leg.record) && decide (leg.record.liquidity = .taker)) = true ∧ leg ∈ taken := by
    have ranged : TakenOnEntry floor account orderId ↔ ∀ share ∈ floor.fills.map fillShare,
        share.account = account → share.orderId = orderId → share.quantity = 0 ∨
          share.liquidity = .taker ∧ ∃ record ∈ floor.executions.list account ⟨none, none⟩,
            record.key = (share.executionId, share.liquidity.isMaker) := by
      rw [List.forall_mem_map]
      rfl
    rw [ranged, accounted.shares, List.forall_mem_map]
    refine forall₂_congr fun leg member => ?_
    rw [Bool.and_eq_true_iff, ofOrder_iff, decide_eq_true_eq, and_imp]
    refine forall₂_congr fun own named => or_congr Iff.rfl ?_
    refine and_congr ⟨fun taker => ⟨⟨own, named⟩, taker⟩, And.right⟩ ?_
    exact listed_iff keys sub recorded member own
  rw [entered, ← equal]
  constructor
  · intro same
    have fits : filledOf floor account orderId ≤ u64Max := same ▸ bounded
    exact ⟨(folds (below.trans fits)).symm.trans same, fits⟩
  · rintro ⟨same, fits⟩
    exact (folds (same ▸ fits)).trans same

end Exact

section Query
variable [Ironfix] {U : Upstream} {venue : AppState} {account : AccountId} {query : StatusQuery} {order : ResolvedOrder}
  {dispatch : Dispatch}

/-- A request that names an order is answered with the one report on it. -/
theorem StatusQuery.route_exec (loggedOn : dispatch.fsm.account = some account)
    (named : query.names venue dispatch.toVenueFixSession account = some order) (now : Nat) :
    exec (query.route U venue now) dispatch =
      exec (emitReportSpecs [trackedStatus U venue account order now] now) dispatch := by
  have rendered : exec (renderTrackedStatus U venue order now) dispatch =
      exec (emitReportSpecs [trackedStatus U venue account order now] now) dispatch := by
    unfold renderTrackedStatus
    rw [exec_get_bind]
    dsimp only
    rw [loggedOn]
    rfl
  rw [← rendered]
  cases query with
  | status request =>
    obtain ⟨header, orderId, clOrdId, symbol⟩ := request
    unfold StatusQuery.route routeStatus
    rw [exec_get_bind]
    dsimp only
    rw [loggedOn]
    unfold StatusQuery.names at named
    cases orderId with
    | some orderId =>
      dsimp only at named ⊢
      rw [named]
    | none =>
      cases clOrdId with
      | some clOrdId =>
        dsimp only at named ⊢
        rw [named]
      | none => cases named
  | retry placement stamp =>
    obtain ⟨placed, tracked, named⟩ := Option.bind_eq_some_iff.1 named
    unfold StatusQuery.route routeNewOrder
    rw [exec_get_bind, loggedOn]
    dsimp only
    rw [tracked]
    dsimp only
    split at named
    next same =>
      obtain rfl := Option.some.inj named
      rw [if_pos same]
    next => cases named

/-- In whatever state a run leaves the venue, the status of an order tells all that has been filled of it exactly when
each of its fills was taken on its entry, and the sum of them fits. -/
theorem status_told_iff (laws : MatchLaws U) {config : BootConfig} {streams : String → Option Stream} {start : Floor U}
    (keyed : KeyedStreams streams) (booted : Floor.boot U config streams = .ok start)
    (turns : List (String × Submission)) (shows : Shows (start.run turns) venue)
    (loggedOn : dispatch.fsm.account = some account)
    (named : query.names venue dispatch.toVenueFixSession account = some order) (now : Nat) :
    ∃ spec, exec (query.route U venue now) dispatch = exec (emitReportSpecs [spec] now) dispatch ∧
      (Tells spec order.quantity (filledOf (start.run turns) account order.orderId) ↔
        TakenOnEntry (start.run turns) account order.orderId ∧
          filledOf (start.run turns) account order.orderId ≤ u64Max) := by
  have accounted := (Floor.accounted_boot keyed booted).run turns
  refine ⟨_, StatusQuery.route_exec loggedOn named now, ?_⟩
  rw [tells_iff]
  exact filledBy_takerLegs_iff accounted laws shows order.orderId

end Query

instance TakenOnEntry.decidable {U : Upstream} (floor : Floor U) (account : AccountId) (orderId : VenueOrderId) :
    Decidable (TakenOnEntry floor account orderId) := by
  unfold TakenOnEntry
  infer_instance

/-- A venue of one underlying, without a database. -/
def bitcoinBoot : BootConfig :=
  ⟨⟨.stepped 1000, 0⟩, ["BTC"], "run-1", .default, false, fun _ _ => Equiv.refl _, fun _ => []⟩

/-- The session's view of a floor. -/
def servedBy (floor : Floor referenceUpstream) : AppState := { aliceVenue with
  executions := fun account => .ok (floor.executions.list account ⟨none, none⟩)
  resolveClientOrderId := floor.clordidIndex.resolve }

def limitOrder (account : AccountId) (orderId : VenueOrderId) (owner : Hash32) (side : Side) : String × Submission :=
  ("BTC", ⟨1, .addOrder ⟨"BTC-20351231-50000-C", orderId, account, owner, some "c1", side, .limit, some 100, 5, .gtc,
    .none⟩⟩)

/-- The offer of the account rests, and is bought later. -/
def boughtLater : List (String × Submission) := [limitOrder "alice" "a" 7 .sell, limitOrder "bob" "b" 8 .buy]

/-- The account sells into a bid. -/
def soldAtOnce : List (String × Submission) := [limitOrder "bob" "b" 8 .buy, limitOrder "alice" "a" 7 .sell]

def aliceAsks : StatusQuery := .status ⟨aliceHeader 2, none, some "c1", "BTC-20351231-50000-C"⟩

def aliceDispatch : Dispatch := { VenueFixSession.new "10.0.0.1" ⟨30000, 60⟩ 0 with
  fsm := { SessionFsm.new ⟨30000, 60⟩ 0 with account := some "alice" }
  store := .new .postgres
  leases := []
  calls := [] }

def aliceOffer : ResolvedOrder := ⟨"a", "BTC-20351231-50000-C", .sell, 5⟩

theorem soldAtOnce_told : ∃ start, Floor.boot referenceUpstream bitcoinBoot (fun _ => none) = .ok start ∧
    ∃ spec, @exec _ _ _ (@StatusQuery.route referenceWire referenceUpstream (servedBy (start.run soldAtOnce)) 0 aliceAsks)
        aliceDispatch = @exec _ _ _ (@emitReportSpecs referenceWire [spec] 0) aliceDispatch ∧ Tells spec 5 5 := by
  have facts : (Floor.boot referenceUpstream bitcoinBoot (fun _ => none)).toOption.any (fun start =>
      aliceAsks.names (servedBy (start.run soldAtOnce)) aliceDispatch.toVenueFixSession "alice" = some aliceOffer ∧
        filledOf (start.run soldAtOnce) "alice" "a" = 5 ∧ TakenOnEntry (start.run soldAtOnce) "alice" "a") = true := by
    decide +kernel
  obtain ⟨start, here, holds⟩ := (Option.any_eq_true _ _).1 facts
  obtain ⟨named, filled, entered⟩ := of_decide_eq_true holds
  have booted : Floor.boot referenceUpstream bitcoinBoot (fun _ => none) = .ok start := except_of_toOption here
  have keyed : KeyedStreams fun _ => none := fun _ _ wrong => (by cases wrong)
  obtain ⟨spec, reported, told⟩ := @status_told_iff referenceWire referenceUpstream
    (servedBy (start.run soldAtOnce)) "alice" aliceAsks aliceOffer aliceDispatch matchLaws_reference bitcoinBoot _ start
    keyed booted soldAtOnce ⟨fun _ => rfl, fun _ _ => rfl⟩ rfl named 0
  have filled : filledOf (start.run soldAtOnce) "alice" aliceOffer.orderId = 5 := filled
  rw [filled] at told
  exact ⟨start, booted, spec, reported, told.2 ⟨entered, by decide⟩⟩

/-- The offer of the account is bought in full, and its status is a new order of which nothing is filled. -/
theorem boughtLater_untold : ∃ start, Floor.boot referenceUpstream bitcoinBoot (fun _ => none) = .ok start ∧
    aliceAsks.names (servedBy (start.run boughtLater)) aliceDispatch.toVenueFixSession "alice" = some aliceOffer ∧
    filledOf (start.run boughtLater) "alice" "a" = 5 ∧
    ∃ spec, @exec _ _ _ (@StatusQuery.route referenceWire referenceUpstream (servedBy (start.run boughtLater)) 0 aliceAsks)
        aliceDispatch = @exec _ _ _ (@emitReportSpecs referenceWire [spec] 0) aliceDispatch ∧
      spec.cumQty = 0 ∧ spec.leavesQty = 5 ∧ spec.ordStatus = .new ∧ ¬Tells spec 5 5 := by
  have facts : (Floor.boot referenceUpstream bitcoinBoot (fun _ => none)).toOption.any (fun start =>
      aliceAsks.names (servedBy (start.run boughtLater)) aliceDispatch.toVenueFixSession "alice" = some aliceOffer ∧
        filledOf (start.run boughtLater) "alice" "a" = 5 ∧
          filledBy ((servedBy (start.run boughtLater)).takerLegsForOrder "alice" "a") = 0) = true := by
    decide +kernel
  obtain ⟨start, here, holds⟩ := (Option.any_eq_true _ _).1 facts
  obtain ⟨named, filled, nothing⟩ := of_decide_eq_true holds
  refine ⟨start, except_of_toOption here, named, filled, _,
    @StatusQuery.route_exec referenceWire _ _ _ _ _ _ rfl named 0, ?_⟩
  obtain ⟨cum, leaves, status⟩ := (@tells_iff referenceUpstream (servedBy (start.run boughtLater)) "alice" aliceOffer
    0 0).2 nothing
  exact ⟨cum, leaves, status, fun told => by cases cum.symm.trans told.cumQty⟩

end Fauxchange.Fix
