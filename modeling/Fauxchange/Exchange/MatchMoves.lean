import Fauxchange.Exchange.BookMoves

/-! Which moves a match makes: its makers go, then what is left of a limit order rests. The venue's capture reports
these moves. -/

namespace Fauxchange.Exchange
open Lib

/-- The maker legs, each as the order that gives and what it gives. -/
def makerFills (fills : List Fill) : List (VenueOrderId × Nat) :=
  (fills.filter fun fill => fill.liquidity = .maker).map fun fill => (fill.orderId, fill.quantity)

/-- The makers of trades under the ids the venue knows them by. -/
def makersOf (U : Upstream) (registry : OrderRegistry) (trades : List Trade) : List (VenueOrderId × Nat) :=
  trades.map fun trade => ((makerIdentity U registry trade.makerOrderId).1, trade.quantity)

section Capture
variable {U : Upstream} {ctx : ExecutionContext} {registry : OrderRegistry} {taker : Placement}
  {schedule : Option FeeSchedule}

theorem tradesLegs_makers {trades : List Trade} {index takerFilled total : Nat} {fills : List Fill}
    (built : tradesLegs U ctx registry taker schedule index takerFilled trades = .ok (fills, total)) :
    makerFills fills = makersOf U registry trades := by
  induction trades generalizing index takerFilled fills with
  | nil =>
    cases built
    rfl
  | cons trade rest ih =>
    unfold tradesLegs at built
    split at built
    · cases built
    · split at built
      · cases built
      next legs first =>
        split at built
        · cases built
        next others later =>
          cases built
          unfold tradeLegs at first
          dsimp only at first
          split at first
          · cases first
          · split at first
            · cases first
            · cases first
              exact congrArg _ (ih later)

/-- A capture that holds a match. -/
structure Holds (U : Upstream) (registry : OrderRegistry) (matched : MatchResult) (captured : CapturedFills) : Prop where
  makers : makerFills captured.fills = makersOf U registry matched.trades
  taken : captured.takerFilled = matched.taken
  filled : captured.filledMakerIds = matched.filledOrderIds

variable (ctx registry taker)

theorem buildFills_holds {made : MadeMatch} (fits : made.Fits U) :
    ∃ captured, buildFills U ctx registry made.matched taker made.schedule = .ok captured ∧
      Holds U registry made.matched captured := by
  obtain ⟨fills, built⟩ := buildFills_ok ctx registry taker fits.few fits.priced fits.total fits.charged
  refine ⟨_, built, ?_, rfl, rfl⟩
  unfold buildFills at built
  split at built
  · cases built
  next done =>
    cases built
    exact tradesLegs_makers done

theorem slotFills_holds {armed after : U.Leaf} (fits : ∀ made, heardMatch armed after = some made → made.Fits U) :
    ∃ captured, slotFills ctx registry after (lastTradeSeq armed) taker (U.feeSchedule armed) = .ok captured ∧
      Holds U registry (heardTrades (heardMatch armed after)) captured := by
  unfold slotFills
  unfold heardMatch at fits ⊢
  cases heard : slotTradeAfter after (lastTradeSeq armed) with
  | none => exact ⟨.none, rfl, rfl, rfl, rfl⟩
  | some trade => exact buildFills_holds ctx registry taker (fits _ (by rw [heard]; rfl))

end Capture

/-- The ids of an owner's resting orders. -/
theorem mem_ownerRestingIds {U : Upstream} (laws : LeafLaws U) {leaf : U.Leaf} {owner : Hash32} {id : Nat} :
    id ∈ ownerRestingIds leaf owner ↔ ∃ order ∈ laws.orders leaf, order.id = id ∧ order.owner = owner := by
  rw [ownerRestingIds, List.mem_dedup, laws.byUser]

/-- How the venue reports a match: the maker legs, and the orders removed without being used up. -/
structure MatchReport (U : Upstream) (registry : OrderRegistry) (matched : MatchResult) (removed : List Nat)
    (fills : List Fill) (stpCancelled : List CancelledLeg) : Prop where
  makers : makerFills fills = makersOf U registry matched.trades
  swept : (stpCancelled.map CancelledLeg.orderId).Perm
    ((removed.filter fun id => id ∉ matched.filledOrderIds).filterMap fun id =>
      registry.resting[id]?.map RestingRecord.venueOrderId)

section Settle
variable {U : Upstream} {laws : LeafLaws U} {before after : U.Leaf} {owner : Hash32} {active : Bool}
  {matched : MatchResult} {kept joined : List BookOrder} (visits : VisitOrder) {ctx : ExecutionContext}
  {registry : OrderRegistry} {captured : CapturedFills}

/-- The ids that a settled match prunes. -/
def settledIds (visits : VisitOrder) (ctx : ExecutionContext) (captured : CapturedFills) (active : Bool)
    (before after : List Nat) : List Nat :=
  captured.filledMakerIds ++ if active then
    stpRemoved (visit visits ctx.sequence before) after captured.filledMakerIds (engineOrderId ctx.sequence) else []

theorem settleMatch_registry (before after : List Nat) :
    (settleMatch visits ctx registry captured active before after).2 =
      registry.removeAll (settledIds visits ctx captured active before after) := by
  unfold settleMatch settledIds
  rw [OrderRegistry.removeAll_append]
  cases active <;> rfl

theorem mem_stpRemoved {list after filled : List Nat} {incoming id : Nat} :
    id ∈ stpRemoved list after filled incoming ↔ id ∈ list ∧ id ≠ incoming ∧ id ∉ after ∧ id ∉ filled := by
  simp [stpRemoved]

/-- The orders the prevention has removed are reported by their venue order ids. -/
theorem settleMatch_swept (before after : List Nat) :
    ((settleMatch visits ctx registry captured active before after).1.map CancelledLeg.orderId).Perm
      (((settledIds visits ctx captured active before after).filter fun id => id ∉ captured.filledMakerIds).filterMap
        fun id => registry.resting[id]?.map RestingRecord.venueOrderId) := by
  have filled : (captured.filledMakerIds.filter fun id => id ∉ captured.filledMakerIds) = [] :=
    List.filter_eq_nil_iff.2 fun id member => by simpa using member
  unfold settleMatch settledIds
  rw [List.filter_append, filled, List.nil_append]
  cases active with
  | false => exact .nil
  | true =>
    have swept : ∀ list, ((stpRemoved list after captured.filledMakerIds (engineOrderId ctx.sequence)).filter
        fun id => id ∉ captured.filledMakerIds) =
          stpRemoved list after captured.filledMakerIds (engineOrderId ctx.sequence) :=
      fun list => List.filter_eq_self.2 fun id member => by simpa using (mem_stpRemoved.1 member).2.2.2
    simp only [if_true, stpCancelledDiff, swept]
    refine ((sortByKey_perm _ _).map _).trans (List.Perm.of_eq ?_)
    rw [List.map_filterMap]
    refine List.filterMap_congr fun id member => ?_
    rw [OrderRegistry.removeAll_getElem?, if_neg (mem_stpRemoved.1 member).2.2.2]
    cases registry.resting[id]? <;> rfl

/-- A match is settled by removing from the registry what it has removed from the leaf. -/
theorem mem_settledIds (consumes : Consumes (laws.orders before) owner active matched kept)
    (standing : Standing (laws.orders before)) (orders : laws.orders after = kept ++ joined)
    (joins : ∀ order ∈ joined, order.id = engineOrderId ctx.sequence)
    (fresh : engineOrderId ctx.sequence ∉ idsOf (laws.orders before)) (filled : captured.filledMakerIds = matched.filledOrderIds)
    {id : Nat} :
    id ∈ settledIds visits ctx captured active (ownerRestingIds before owner) (ownerRestingIds after owner) ↔
      id ∈ idsOf (laws.orders before) ∧ id ∉ idsOf kept := by
  unfold settledIds
  rw [List.mem_append, filled]
  constructor
  · rintro (used | swept)
    · obtain ⟨gone, old, member, same, -⟩ := consumes.filled id used
      exact ⟨mem_idsOf.2 ⟨old, member, same⟩, gone⟩
    · split at swept
      next =>
        obtain ⟨listed, -, absent, -⟩ := mem_stpRemoved.1 swept
        obtain ⟨old, member, rfl, owned⟩ := (mem_ownerRestingIds laws).1 ((visit_perm _ _ _).mem_iff.1 listed)
        refine ⟨mem_idsOf.2 ⟨old, member, rfl⟩, fun stays => absent ?_⟩
        -- an order that is kept is the same order with less quantity, so it still belongs to the owner
        obtain ⟨left, there, same⟩ := mem_idsOf.1 stays
        obtain ⟨-, again, found, shape, -⟩ := consumes.left left there
        have equal : again.id = old.id := by rw [← same, shape]
        obtain rfl := standing.unique found member equal
        refine (mem_ownerRestingIds laws).2 ⟨left, ?_, same, ?_⟩
        · rw [orders]
          exact List.mem_append_left _ there
        · rw [shape]
          exact owned
      next => cases swept
  · rintro ⟨listed, gone⟩
    by_cases used : id ∈ matched.filledOrderIds
    · exact Or.inl used
    · right
      obtain ⟨old, member, rfl⟩ := mem_idsOf.1 listed
      obtain ⟨rfl, owned⟩ := consumes.gone old member gone used
      rw [if_pos rfl]
      have unlike : old.id ≠ engineOrderId ctx.sequence := fun same => fresh (same ▸ listed)
      refine mem_stpRemoved.2 ⟨?_, unlike, ?_, used⟩
      · exact (visit_perm _ _ _).mem_iff.2 ((mem_ownerRestingIds laws).2 ⟨old, member, rfl, owned⟩)
      · intro stays
        obtain ⟨order, there, same, -⟩ := (mem_ownerRestingIds laws).1 stays
        rw [orders] at there
        rcases List.mem_append.1 there with left | new
        · exact gone (mem_idsOf.2 ⟨order, left, same⟩)
        · exact unlike (same.symm.trans (joins order new))

end Settle

section Placements
variable {U : Upstream} {laws : LeafLaws U} {home : Symbol → Option LeafAddress} {view : BookView}
  {address : LeafAddress} {leaf : U.Leaf} {placement : Placement} {ctx : ExecutionContext} {price : Nat}

/-- The moves of what is left of a limit order. -/
def restMoves (address : LeafAddress) (order : LimitOrder) (record : RestingRecord) (left : Nat) : List Move :=
  if 0 < left then [.rested address (order.resting left) record] else []

/-- The capture of a limit add. -/
def addCapture (ctx : ExecutionContext) (registry : OrderRegistry) (leaf : U.Leaf) (placement : Placement) (price : Nat) :
    Except MoneyError CapturedFills :=
  let armed := U.armTradeCapture leaf
  let added := U.addLimitOrder armed (placement.limitOrder ctx.sequence price)
  match added.1 with
  | .ok trade => buildFills U ctx registry trade.matchResult placement (U.feeSchedule armed)
  | .error _ => slotFills ctx registry added.2 (lastTradeSeq armed) placement (U.feeSchedule armed)

theorem addCapture_holds (registry : OrderRegistry)
    (fits : ∀ made, addMatch leaf (placement.limitOrder ctx.sequence price) = some made → made.Fits U) :
    ∃ captured, addCapture ctx registry leaf placement price = .ok captured ∧
      Holds U registry (heardTrades (addMatch leaf (placement.limitOrder ctx.sequence price))) captured := by
  unfold addCapture
  unfold addMatch at fits ⊢
  dsimp only at fits ⊢
  cases called : (U.addLimitOrder (U.armTradeCapture leaf) (placement.limitOrder ctx.sequence price)).1 with
  | ok trade =>
    rw [called] at fits
    exact buildFills_holds ctx registry placement (fits _ rfl)
  | error error =>
    rw [called] at fits
    exact slotFills_holds ctx registry placement fits

/-- A limit add whose capture holds. -/
theorem runAdd_of_capture (visits : VisitOrder) (registry : OrderRegistry) {captured : CapturedFills}
    (capture : addCapture ctx registry leaf placement price = .ok captured) :
    let armed := U.armTradeCapture leaf
    let call := U.addLimitOrder armed (placement.limitOrder ctx.sequence price)
    let settled := settleMatch visits ctx registry captured (stpActive armed) (ownerRestingIds armed placement.owner)
      (ownerRestingIds call.2 placement.owner)
    let left := if call.1.isOk && tifRests placement.timeInForce then placement.quantity - captured.takerFilled else 0
    let added := runAdd visits ctx registry leaf placement price
    added.1.fills = captured.fills ∧ added.1.stpCancelled = settled.1 ∧ added.1.restingQuantity = left ∧
      added.2.1 = (if 0 < left then settled.2.registerResting ctx.sequence placement.record else settled.2) ∧
        added.2.2 = call.2 := by
  unfold addCapture Placement.limitOrder at capture
  unfold runAdd Placement.limitOrder
  dsimp only at capture ⊢
  generalize U.addLimitOrder (U.armTradeCapture leaf) _ = call at *
  obtain ⟨result, after⟩ := call
  cases result with
  | ok trade =>
    dsimp only at capture ⊢
    rw [capture]
    exact ⟨rfl, rfl, rfl, rfl, rfl⟩
  | error error =>
    dsimp only at capture ⊢
    rw [capture]
    exact ⟨rfl, rfl, rfl, rfl, rfl⟩

/-- The most of an order that may rest. -/
def restable (timeInForce : TimeInForce) (quantity : Nat) : Nat := if tifRests timeInForce then quantity else 0

theorem runAdd_restable (visits : VisitOrder) (registry : OrderRegistry) (leaf : U.Leaf) :
    (runAdd visits ctx registry leaf placement price).1.restingQuantity ≤
      restable placement.timeInForce placement.quantity := by
  unfold runAdd restable
  dsimp only
  split
  · exact Nat.zero_le _
  · cases tifRests placement.timeInForce with
    | false =>
      rw [Bool.and_false]
      exact Nat.le_refl _
    | true =>
      rw [Bool.and_true]
      dsimp only
      split
      · exact Nat.sub_le _ _
      · exact Nat.zero_le _

theorem runAdd_moves (visits : VisitOrder) (step : InStep home view) (here : view.orders address = laws.orders leaf)
    (fresh : view.registry.resting[ctx.sequence]? = none) (lives : home placement.symbol = some address)
    (fits : ∀ made, addMatch leaf (placement.limitOrder ctx.sequence price) = some made → made.Fits U) :
    ∃ removed, Moves home view
        (.matched address placement.owner (heardTrades (addMatch leaf (placement.limitOrder ctx.sequence price))) removed ::
          restMoves address (placement.limitOrder ctx.sequence price) placement.record
            (runAdd visits ctx view.registry leaf placement price).1.restingQuantity)
        (view.set address (laws.orders (runAdd visits ctx view.registry leaf placement price).2.2)
          (runAdd visits ctx view.registry leaf placement price).2.1) ∧
      MatchReport U view.registry (heardTrades (addMatch leaf (placement.limitOrder ctx.sequence price))) removed
        (runAdd visits ctx view.registry leaf placement price).1.fills
        (runAdd visits ctx view.registry leaf placement price).1.stpCancelled := by
  obtain ⟨captured, capture, holds⟩ := addCapture_holds view.registry fits
  obtain ⟨fills, legs, rests, registry, after⟩ := runAdd_of_capture visits view.registry capture
  have unlisted : ctx.sequence ∉ idsOf (laws.orders leaf) := here ▸ step.unregistered fresh
  have standing : Standing (laws.orders leaf) := here ▸ step.standing address
  obtain ⟨kept, consumes, orders⟩ := laws.added leaf (placement.limitOrder ctx.sequence price) standing unlisted
  generalize heardTrades (addMatch leaf (placement.limitOrder ctx.sequence price)) = matched at holds consumes orders ⊢
  have remains : (runAdd visits ctx view.registry leaf placement price).1.restingQuantity =
      restsWith (placement.limitOrder ctx.sequence price)
        (U.addLimitOrder (U.armTradeCapture leaf) (placement.limitOrder ctx.sequence price)).1.isOk matched := by
    rw [rests, holds.taken]
    rfl
  rw [← rests] at registry
  rw [← remains] at orders
  rw [fills, legs, registry, after, orders]
  generalize (runAdd visits ctx view.registry leaf placement price).1.restingQuantity = left at *
  have settled := @mem_settledIds U laws (U.armTradeCapture leaf) _ placement.owner _ matched kept _ visits ctx captured
    ((laws.arm_orders leaf).symm ▸ consumes) ((laws.arm_orders leaf).symm ▸ standing) orders
    (by
      intro order joins
      unfold joining at joins
      split at joins
      · rw [List.mem_singleton.1 joins]
        rfl
      · cases joins)
    ((laws.arm_orders leaf).symm ▸ unlisted) holds.filled
  rw [settleMatch_registry]
  refine ⟨settledIds visits ctx captured (stpActive (U.armTradeCapture leaf))
    (ownerRestingIds (U.armTradeCapture leaf) placement.owner) (ownerRestingIds _ placement.owner), ?_,
      ⟨holds.makers, holds.filled ▸ settleMatch_swept visits _ _⟩⟩
  have matches' : Took home view (.matched address placement.owner matched _) _ :=
    .matched (here ▸ consumes) fun id => (here ▸ laws.arm_orders leaf ▸ settled)
  refine .next matches' ?_
  unfold restMoves joining
  split
  next some =>
    generalize settledIds visits ctx captured _ _ _ = removed
    have unused : (view.registry.removeAll removed).resting[ctx.sequence]? = none := by
      rw [OrderRegistry.removeAll_getElem?, fresh]
      exact ite_self _
    have joins : Took home (view.set address kept (view.registry.removeAll removed))
        (.rested address ((placement.limitOrder ctx.sequence price).resting left) placement.record) _ :=
      .rested unused some lives rfl rfl
    rw [BookView.set_set, BookView.set_orders_self] at joins
    exact .next joins (.none _)
  next none =>
    rw [List.append_nil]
    exact .none _

theorem marketCapture_holds (laws : LeafLaws U) (registry : OrderRegistry)
    (fits : ∀ made, submitMatch leaf (engineOrderId ctx.sequence) placement.quantity placement.side placement.owner =
      some made → made.Fits U) :
    ∃ captured, marketCapture ctx registry leaf placement = .ok captured ∧ Holds U registry
      (heardTrades (submitMatch leaf (engineOrderId ctx.sequence) placement.quantity placement.side placement.owner))
      captured := by
  unfold marketCapture
  unfold submitMatch at fits ⊢
  dsimp only at fits ⊢
  generalize U.submitMarketOrder (U.armTradeCapture leaf) _ _ _ _ = call at fits ⊢
  obtain ⟨result, after⟩ := call
  cases result with
  | ok matched =>
    have made := fits _ rfl
    have wrapped : (U.tradeResultNew matched).isOk = true := made.recorded
    cases wrap : U.tradeResultNew matched with
    | error error =>
      rw [wrap] at wrapped
      cases wrapped
    | ok trade =>
      have same := laws.wraps matched trade wrap
      simp only [wrap, same]
      exact buildFills_holds ctx registry placement made
  | error error => exact slotFills_holds ctx registry placement fits

/-- A market order whose capture holds. -/
theorem executeMarket_of_capture (visits : VisitOrder) (registry : OrderRegistry) {captured : CapturedFills}
    (depth : oppositeDepth (U.armTradeCapture leaf) placement.side ≠ .ok 0)
    (capture : marketCapture ctx registry leaf placement = .ok captured) :
    let armed := U.armTradeCapture leaf
    let call := U.submitMarketOrder armed (engineOrderId ctx.sequence) placement.quantity placement.side placement.owner
    let settled := settleMatch visits ctx registry captured (stpActive armed) (ownerRestingIds armed placement.owner)
      (ownerRestingIds call.2 placement.owner)
    executeMarket visits ctx registry leaf placement =
      (.market captured.fills (placement.quantity - captured.takerFilled) settled.1, settled.2, call.2) := by
  dsimp only
  rw [executeMarket_of_depth ctx visits depth, capture]

/-- The one move of a market order that meets depth. -/
theorem executeMarket_moves (visits : VisitOrder) (step : InStep home view) (here : view.orders address = laws.orders leaf)
    (fresh : view.registry.resting[ctx.sequence]? = none)
    (fits : ∀ made, marketMatch leaf ctx.sequence placement = some made → made.Fits U) :
    let done := executeMarket visits ctx view.registry leaf placement
    (∃ quantity, marketMatch leaf ctx.sequence placement = none ∧ done.1 = .market [] quantity [] ∧
        view.set address (laws.orders done.2.2) done.2.1 = view) ∨
      ∃ fills quantity legs removed, done.1 = .market fills quantity legs ∧
        Moves home view [.matched address placement.owner (heardTrades (marketMatch leaf ctx.sequence placement)) removed]
          (view.set address (laws.orders done.2.2) done.2.1) ∧
        MatchReport U view.registry (heardTrades (marketMatch leaf ctx.sequence placement)) removed fills legs := by
  dsimp only
  by_cases depth : oppositeDepth (U.armTradeCapture leaf) placement.side = .ok 0
  · left
    unfold executeMarket marketMatch
    dsimp only
    rw [depth]
    refine ⟨placement.quantity, rfl, rfl, ?_⟩
    change view.set address (laws.orders (U.armTradeCapture leaf)) view.registry = view
    rw [laws.arm_orders, ← here]
    exact BookView.set_self
  · right
    rw [marketMatch_of_depth ctx depth] at fits ⊢
    obtain ⟨captured, capture, holds⟩ := marketCapture_holds laws view.registry fits
    have unlisted : ctx.sequence ∉ idsOf (laws.orders leaf) := here ▸ step.unregistered fresh
    have standing : Standing (laws.orders leaf) := here ▸ step.standing address
    have consumes := laws.submitted leaf (engineOrderId ctx.sequence) placement.quantity placement.side placement.owner
      standing unlisted
    dsimp only at consumes
    rw [executeMarket_of_capture visits view.registry depth capture]
    have settled := @mem_settledIds U laws (U.armTradeCapture leaf) _ placement.owner _ _ _ [] visits ctx captured
      ((laws.arm_orders leaf).symm ▸ consumes) ((laws.arm_orders leaf).symm ▸ standing) (List.append_nil _).symm
      (fun _ joins => absurd joins List.not_mem_nil) ((laws.arm_orders leaf).symm ▸ unlisted) holds.filled
    have took : Took home view (.matched address placement.owner _ _) _ :=
      .matched (here ▸ consumes) fun id => (here ▸ laws.arm_orders leaf ▸ settled)
    refine ⟨_, _, _, _, rfl, ?_, holds.makers, holds.filled ▸ settleMatch_swept visits _ _⟩
    rw [settleMatch_registry]
    exact .next took (.none _)

end Placements

end Fauxchange.Exchange
