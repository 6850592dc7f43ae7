import Fauxchange.Exchange.Coherence

/-! Every command keeps the registry and the books in step, and so does every run of commands. -/

namespace Fauxchange.Exchange
open Lib UnderlyingOrderBook

/-- The prices and the quantity of a placement are 64-bit values. -/
def VenueCommand.Ranged : VenueCommand → Prop
  | .addOrder order => order.quantity ≤ u64Max ∧ ∀ price ∈ order.limitPrice, price ≤ u64Max
  | .replace order => order.quantity ≤ u64Max ∧ ∀ price ∈ order.limitPrice, price ≤ u64Max
  | _ => True

section Leaf
variable {U : Upstream} {laws : BookLaws U} {state : SequencedState U} {bound : Nat} {address : LeafAddress}
  {leaf : U.Leaf} {settings : BookConfig} {orders : List BookOrder} {effect : Effect}

theorem matches_none (bound : Nat) (shaped : Shaped bound orders) (quantity : Nat) :
    Matches orders quantity ⟨[], []⟩ orders where
  place := List.Sublist.refl _
  origin := fun order member => ⟨(shaped.open' order member).1, order, member, Nat.le_refl _, rfl⟩
  consumed := by
    intro order member
    simp only [List.not_mem_nil, false_iff, not_not]
    exact List.mem_map_of_mem member
  filled := by simp
  total := Nat.zero_le _
  few := Nat.zero_le _
  priced := by simp

theorem limitSound_refused (shaped : Shaped bound orders) (order : LimitOrder) (error : String) :
    LimitSound orders order (.refused error orders) :=
  ⟨orders, matches_none bound shaped _, by simp [remainder, Effect.refused, Except.isOk, Except.toBool],
    by simp [remainder, Effect.refused, Except.isOk, Except.toBool]⟩

/-- A limit add on a plain leaf shows a sound effect, the one of the laws if the order is within the specs. -/
theorem exists_addEffect (plain : Plain laws settings leaf) (neutral : Neutral settings) (order : LimitOrder)
    (shaped : Shaped bound (laws.view leaf).orders) (fresh : bound ≤ order.id) :
    ∃ effect, ArmedShows laws.view leaf (addCall U (U.armTradeCapture leaf) order) effect ∧
      LimitSound (laws.view leaf).orders order effect ∧
      (withinSpecs settings.specs order.price order.quantity = true →
        effect = laws.limit (laws.view leaf).orders order) := by
  have stp : (laws.view leaf).settings.stpMode = .none := by rw [plain.settings, neutral.stpMode]
  cases within : withinSpecs settings.specs order.price order.quantity with
  | true =>
    have shown := (laws.add_shows leaf order plain.active stp (by rw [plain.settings, within])).2
    exact ⟨_, shown, laws.limit_sound _ order shaped fresh, fun _ => rfl⟩
  | false =>
    obtain ⟨error, shown⟩ := laws.add_outside leaf order (by rw [plain.settings, within])
    exact ⟨_, shown, limitSound_refused shaped order error, fun inside => by cases inside⟩

theorem exists_marketEffect (plain : Plain laws settings leaf) (neutral : Neutral settings) (id quantity : Nat)
    (side : Side) (owner : Hash32) (shaped : Shaped bound (laws.view leaf).orders) (fresh : bound ≤ id) :
    ∃ effect, ArmedShows laws.view leaf (U.submitMarketOrder (U.armTradeCapture leaf) id quantity side owner) effect ∧
      Matches (laws.view leaf).orders quantity effect.matched effect.orders ∧
      (withinSpecs settings.specs 0 quantity = true →
        effect = laws.market (laws.view leaf).orders id quantity side owner) := by
  have stp : (laws.view leaf).settings.stpMode = .none := by rw [plain.settings, neutral.stpMode]
  have sound := laws.market_sound (laws.view leaf).orders id quantity side owner shaped fresh
  cases within : withinSpecs settings.specs 0 quantity with
  | true =>
    exact ⟨_, laws.market_shows leaf id quantity side owner stp (by rw [plain.settings, within]), sound, fun _ => rfl⟩
  | false =>
    obtain ⟨effect, shown, shape⟩ := laws.market_outside leaf id quantity side owner stp (by rw [plain.settings, within])
    refine ⟨effect, shown, ?_, fun inside => by cases inside⟩
    rcases shape with ⟨error, rfl⟩ | rfl
    · exact matches_none bound shaped quantity
    · exact sound

/-- The leaf after a call is plain. -/
theorem ArmedShows.plain {call : Except String MatchResult × U.Leaf} (shows : ArmedShows laws.view leaf call effect)
    (plain : Plain laws settings leaf) : Plain laws settings call.2 :=
  ⟨by rw [shows.after]; exact plain.settings, by rw [shows.after]; exact plain.active⟩

theorem ArmedShows.view_orders {call : Except String MatchResult × U.Leaf} (shows : ArmedShows laws.view leaf call effect) :
    (laws.view call.2).orders = effect.orders := by
  rw [shows.after]

variable (U) in
/-- The trades of a match fit their widths. -/
theorem Matches.buildFills {quantity : Nat} {matched : MatchResult} {kept : List BookOrder}
    (matching : Matches orders quantity matched kept) (shaped : Shaped bound orders) (sized : quantity ≤ u64Max)
    (room : orders.length ≤ 2 ^ 32) (ctx : ExecutionContext) (registry : OrderRegistry) (taker : Placement) :
    ∃ fills, buildFills U ctx registry matched taker none =
      .ok ⟨fills, (matched.trades.map Trade.quantity).sum, matched.filledOrderIds⟩ := by
  refine buildFills_ok ctx registry taker (matching.few.trans room) ?_ (matching.total.trans sized) fun _ _ _ => rfl
  intro trade member
  obtain ⟨order, listed, same⟩ := matching.priced trade member
  have low := shaped.priced order listed
  rw [same] at low
  unfold u64Max at low
  omega

/-- The registry after a limit add: the makers it has used up leave it, and what is left of it joins. -/
theorem settleLimit_registry {ctx : ExecutionContext} {registry : OrderRegistry} {placement : Placement}
    {fills : List Fill} {filled : Nat}
    (captured : buildFills U ctx registry effect.matched placement none =
      .ok ⟨fills, filled, effect.matched.filledOrderIds⟩) :
    (settleLimit U ctx registry placement effect).2 =
      if effect.result.isOk = true ∧ tifRests placement.timeInForce = true ∧ 0 < placement.quantity - filled then
        (registry.removeAll effect.matched.filledOrderIds).registerResting (engineOrderId ctx.sequence) placement.record
      else registry.removeAll effect.matched.filledOrderIds := by
  simp only [settleLimit, captured]
  by_cases rests : effect.result.isOk = true ∧ tifRests placement.timeInForce = true
  · simp [rests]
  · have kept : ¬ (effect.result.isOk && tifRests placement.timeInForce) = true := by simpa using rests
    rw [if_neg kept, if_neg (Nat.lt_irrefl 0), if_neg fun whole => rests ⟨whole.1, whole.2.1⟩]

end Leaf

section Steps
variable {U : Upstream} {laws : BookLaws U} {state : SequencedState U} {bound : Nat} {address : LeafAddress}
  {ctx : ExecutionContext}

/-- Fewer orders rest than a 32-bit index counts. -/
def Roomy (state : SequencedState U) : Prop := state.registry.resting.size ≤ 2 ^ 32

instance (state : SequencedState U) : Decidable (Roomy state) := inferInstanceAs (Decidable (_ ≤ _))

/-- The orders of one leaf are among the registered ones. -/
theorem Coherent.length_le (coherent : Coherent laws state bound) (roomy : Roomy state) (address : LeafAddress) :
    (laws.ordersAt state.underlyingBook address).length ≤ 2 ^ 32 := by
  have listed : (laws.ordersAt state.underlyingBook address).map BookOrder.id ⊆ state.registry.resting.keys := by
    intro id member
    obtain ⟨order, resting, rfl⟩ := List.mem_map.1 member
    obtain ⟨record, present, -⟩ := coherent.known address order resting
    exact Std.ExtTreeMap.mem_keys.2 (Std.ExtTreeMap.mem_iff_isSome_getElem?.2 (by rw [present]; rfl))
  have short := (List.subperm_of_subset (coherent.shaped address).nodup_ids listed).length_le
  rw [List.length_map, Std.ExtTreeMap.length_keys] at short
  exact short.trans roomy

theorem Roomy.removeResting (roomy : Roomy state) (engineId : Nat) {book : UnderlyingOrderBook U} {leaf : U.Leaf} :
    Roomy ({ state with underlyingBook := book }.commitLeaf address (state.registry.removeResting engineId) leaf) := by
  unfold Roomy SequencedState.commitLeaf
  dsimp only
  rw [OrderRegistry.removeResting_resting]
  exact Std.ExtTreeMap.size_erase_le.trans roomy

/-- A limit add at an address keeps the registry and the books in step. -/
theorem Coherent.runAdd (coherent : Coherent laws state bound) (visits : VisitOrder) (fresh : bound ≤ ctx.sequence)
    (roomy : Roomy state) (present : (state.underlyingBook.leaf? address).isSome) (placement : Placement)
    {price : Nat} (sized : placement.quantity ≤ u64Max) (priced : price ≤ u64Max)
    (lives : addressOf? U state.underlyingBook.underlying placement.symbol = some address) :
    Coherent laws (state.commitLeaf address
      (runAdd visits ctx state.registry (state.underlyingBook.leafAt address) placement price).2.1
      (runAdd visits ctx state.registry (state.underlyingBook.leafAt address) placement price).2.2)
      (ctx.sequence + 1) := by
  have plain := coherent.plain address
  have shaped := coherent.shaped address
  obtain ⟨effect, shows, ⟨kept, matching, after, clear⟩, -⟩ := exists_addEffect plain coherent.neutral
    (placement.limitOrder ctx.sequence price) shaped fresh
  rw [runAdd_eq ctx state.registry placement visits plain coherent.neutral price shows]
  obtain ⟨fills, captured⟩ := matching.buildFills U shaped sized (coherent.length_le roomy address) ctx state.registry
    placement
  have view := shows.view_orders
  rw [after] at view
  rw [settleLimit_registry captured]
  by_cases rests : effect.result.isOk = true ∧ tifRests placement.timeInForce = true ∧
      0 < placement.quantity - (effect.matched.trades.map Trade.quantity).sum
  · have rest : remainder (placement.limitOrder ctx.sequence price) effect =
        [(placement.limitOrder ctx.sequence price).resting
          (placement.quantity - (effect.matched.trades.map Trade.quantity).sum)] := if_pos rests
    rw [rest] at view clear
    rw [if_pos rests]
    refine coherent.of_rest fresh present (shows.plain plain) matching view ⟨rests.2.2, ?_⟩ priced rests.2.1 ?_ lives
      rfl rfl
    · exact (Nat.sub_le _ _).trans sized
    · exact clear _ (List.mem_singleton_self _)
  · have rest : remainder (placement.limitOrder ctx.sequence price) effect = [] := if_neg rests
    rw [rest, List.append_nil] at view
    rw [if_neg rests]
    exact coherent.of_match (by omega) present (shows.plain plain) matching view

theorem Coherent.executeMarket (coherent : Coherent laws state bound) (visits : VisitOrder)
    (fresh : bound ≤ ctx.sequence) (roomy : Roomy state) (present : (state.underlyingBook.leaf? address).isSome)
    {placement : Placement} (sized : placement.quantity ≤ u64Max) :
    Coherent laws (state.commitLeaf address
      (executeMarket visits ctx state.registry (state.underlyingBook.leafAt address) placement).2.1
      (executeMarket visits ctx state.registry (state.underlyingBook.leafAt address) placement).2.2)
      (ctx.sequence + 1) := by
  have plain := coherent.plain address
  have shaped := coherent.shaped address
  obtain ⟨effect, shows, matching, -⟩ := exists_marketEffect plain coherent.neutral (engineOrderId ctx.sequence)
    placement.quantity placement.side placement.owner shaped fresh
  rw [executeMarket_eq ctx state.registry placement visits plain coherent.neutral shows]
  split
  · have armed : Plain laws state.underlyingBook.config
        (U.armTradeCapture (state.underlyingBook.leafAt address)) :=
      ⟨by rw [laws.view_arm]; exact plain.settings, by rw [laws.view_arm]; exact plain.active⟩
    have unmatched := matches_none bound shaped 0
    exact coherent.of_match (by omega) present armed unmatched (by rw [laws.view_arm]; rfl)
  · obtain ⟨fills, captured⟩ := matching.buildFills U shaped sized (coherent.length_le roomy address) ctx state.registry
      placement
    simp only [settleMarket, captured]
    exact coherent.of_match (by omega) present (shows.plain plain) matching shows.view_orders

theorem Coherent.of_eq (coherent : Coherent laws state bound) {other : SequencedState U}
    (book : other.underlyingBook = state.underlyingBook) (registry : other.registry = state.registry) :
    Coherent laws other bound := by
  obtain ⟨underlyingBook, orders, idempotency, statuses⟩ := other
  dsimp only at book registry
  subst book registry
  exact ⟨coherent.neutral, coherent.plain, coherent.shaped, coherent.registered, coherent.known⟩

section Cancel
variable {engineId : Nat}

theorem cancelOrder_result (laws : BookLaws U) (leaf : U.Leaf) (engineId : Nat) :
    (U.cancelOrder leaf engineId).1 = .ok (decide (engineId ∈ (laws.view leaf).orders.map BookOrder.id)) := by
  rw [laws.cancel_result]
  congr 1
  rw [Bool.eq_iff_iff]
  simp

theorem cancelOrder_hit {laws : BookLaws U} {leaf : U.Leaf}
    (hit : engineId ∈ (laws.view leaf).orders.map BookOrder.id) :
    U.cancelOrder leaf engineId = (.ok true, (U.cancelOrder leaf engineId).2) := by
  refine Prod.ext ?_ rfl
  rw [cancelOrder_result laws, decide_eq_true hit]

theorem cancelOrder_miss {laws : BookLaws U} {leaf : U.Leaf}
    (miss : engineId ∉ (laws.view leaf).orders.map BookOrder.id) :
    U.cancelOrder leaf engineId = (.ok false, (U.cancelOrder leaf engineId).2) := by
  refine Prod.ext ?_ rfl
  rw [cancelOrder_result laws, decide_eq_false miss]

theorem Plain.cancelOrder {settings : BookConfig} {leaf : U.Leaf} (plain : Plain laws settings leaf) (engineId : Nat) :
    Plain laws settings (U.cancelOrder leaf engineId).2 :=
  ⟨by rw [laws.cancel_view]; exact plain.settings, by rw [laws.cancel_view]; exact plain.active⟩

/-- A cancel that hits prunes its order. -/
theorem Coherent.cancelled (coherent : Coherent laws state bound)
    (present : (state.underlyingBook.leaf? address).isSome)
    (hit : engineId ∈ (laws.ordersAt state.underlyingBook address).map BookOrder.id) :
    Coherent laws (state.commitLeaf address (state.registry.removeResting engineId)
      (U.cancelOrder (state.underlyingBook.leafAt address) engineId).2) bound := by
  have matching := (coherent.shaped address).matches_filter [engineId] (by simpa using hit)
  refine coherent.of_match (Nat.le_refl _) present ((coherent.plain address).cancelOrder engineId) matching ?_
  rw [laws.cancel_view]
  exact List.filter_congr fun order _ => by simp

/-- A cancel that misses changes nothing. -/
theorem Coherent.uncancelled (coherent : Coherent laws state bound)
    (present : (state.underlyingBook.leaf? address).isSome)
    (miss : engineId ∉ (laws.ordersAt state.underlyingBook address).map BookOrder.id) :
    Coherent laws (state.commitLeaf address state.registry
      (U.cancelOrder (state.underlyingBook.leafAt address) engineId).2) bound := by
  have matching := matches_none bound (coherent.shaped address) 0
  refine coherent.of_match (Nat.le_refl _) present ((coherent.plain address).cancelOrder engineId) matching ?_
  rw [laws.cancel_view]
  refine List.filter_eq_self.2 fun order member => ?_
  simp only [ne_eq, decide_not, Bool.not_eq_true', decide_eq_false_iff_not]
  rintro rfl
  exact miss (List.mem_map_of_mem member)

end Cancel

/-- The leaf a resolved symbol is vivified at. -/
theorem Coherent.resolved (coherent : Coherent laws state bound) {symbol : Symbol}
    {book : UnderlyingOrderBook U} (resolved : state.underlyingBook.resolveLeafVivify symbol = .ok (address, book)) :
    Coherent laws { state with underlyingBook := book } bound ∧ (book.leaf? address).isSome ∧
      addressOf? U book.underlying symbol = some address ∧ book.underlying = state.underlyingBook.underlying := by
  obtain ⟨lives, rfl⟩ := resolveLeafVivify_eq_ok.1 resolved
  refine ⟨coherent.vivify address, ?_, lives, rfl⟩
  rw [leaf?_vivify_self]
  rfl

theorem Coherent.executeAddOrder (coherent : Coherent laws state bound) (visits : VisitOrder)
    (fresh : bound ≤ ctx.sequence) (roomy : Roomy state) (placement : Placement) (orderType : OrderType)
    {limitPrice : Option Nat} (sized : placement.quantity ≤ u64Max) (priced : ∀ price ∈ limitPrice, price ≤ u64Max) :
    Coherent laws (state.executeAddOrder visits ctx placement orderType limitPrice).2 (ctx.sequence + 1) := by
  unfold SequencedState.executeAddOrder
  split
  · exact coherent.mono (by omega)
  next address book resolved =>
    obtain ⟨vivified, present, lives, -⟩ := coherent.resolved resolved
    dsimp only
    split
    · exact vivified.mono (by omega)
    · split
      · exact vivified.executeMarket visits fresh roomy present sized
      · exact vivified.mono (by omega)
      next price => exact vivified.runAdd visits fresh roomy present placement sized (priced price rfl) lives

theorem Coherent.executeReplace (coherent : Coherent laws state bound) (visits : VisitOrder)
    (fresh : bound ≤ ctx.sequence) (roomy : Roomy state) {amended : Replace} (sized : amended.quantity ≤ u64Max)
    (priced : ∀ price ∈ amended.limitPrice, price ≤ u64Max) :
    Coherent laws (state.executeReplace visits ctx amended).2 (ctx.sequence + 1) := by
  unfold SequencedState.executeReplace
  split
  · exact coherent.mono (by omega)
  next address book resolved =>
    obtain ⟨vivified, present, lives, -⟩ := coherent.resolved resolved
    dsimp only
    split
    · exact vivified.mono (by omega)
    next engineId named =>
      split
      · exact vivified.mono (by omega)
      · by_cases hit : engineId ∈ (laws.ordersAt book address).map BookOrder.id
        · have removed := vivified.cancelled present hit
          rw [cancelOrder_hit hit]
          dsimp only
          split
          next price offered =>
            have joined := removed.runAdd visits fresh (roomy.removeResting engineId)
              (isSome_leaf?_setLeaf _ _ _ _ present) (amended.placement
                ((state.registry.resting[engineId]?.map (·.owner)).getD 0)) sized (priced price offered) lives
            simp only [SequencedState.commitLeaf, leafAt_setLeaf_self _ _ present, setLeaf_setLeaf] at joined
            exact joined
          next => exact removed.mono (by omega)
        · rw [cancelOrder_miss hit]
          exact (vivified.uncancelled present hit).mono (by omega)

theorem Coherent.executeCancel (coherent : Coherent laws state bound) (symbol : Symbol) (orderId : VenueOrderId)
    (account : AccountId) : Coherent laws (state.executeCancel symbol orderId account).2 bound := by
  unfold SequencedState.executeCancel
  split
  · exact coherent
  next address leaf resolved =>
    obtain ⟨-, present, rfl⟩ := resolveLeafRead_eq_some resolved
    split
    · exact coherent
    next engineId named =>
      split
      · exact coherent
      · by_cases hit : engineId ∈ (laws.ordersAt state.underlyingBook address).map BookOrder.id
        · rw [cancelOrder_hit hit]
          exact coherent.cancelled present hit
        · rw [cancelOrder_miss hit]
          exact coherent.uncancelled present hit

theorem Coherent.cancelTargets (coherent : Coherent laws state bound) (targets : List (Nat × RestingRecord)) :
    Coherent laws (state.cancelTargets targets).2 bound := by
  induction targets generalizing state with
  | nil => exact coherent
  | cons target rest ih =>
    simp only [SequencedState.cancelTargets]
    split
    · exact ih coherent
    next address leaf resolved =>
      obtain ⟨-, present, rfl⟩ := resolveLeafRead_eq_some resolved
      by_cases hit : target.1 ∈ (laws.ordersAt state.underlyingBook address).map BookOrder.id
      · rw [cancelOrder_hit hit]
        exact ih (coherent.cancelled present hit)
      · rw [cancelOrder_miss hit]
        exact ih (coherent.uncancelled present hit)

/-- The expiry sweep of a leaf, with the registry pruned of what it evicts. -/
theorem Coherent.evictLeaf (coherent : Coherent laws state bound) (nowMs : Nat) (symbol : Symbol) :
    Coherent laws { state with
      underlyingBook := (SequencedState.evictLeaf nowMs state.underlyingBook symbol).2
      registry := state.registry.removeAll (SequencedState.evictLeaf nowMs state.underlyingBook symbol).1 } bound := by
  unfold SequencedState.evictLeaf
  split
  · exact coherent.of_eq rfl rfl
  next address leaf resolved =>
    obtain ⟨-, present, rfl⟩ := resolveLeafRead_eq_some resolved
    have result := laws.evict_result (state.underlyingBook.leafAt address) nowMs
    have view := laws.evict_view (state.underlyingBook.leafAt address) nowMs
    have plain := coherent.plain address
    have matching := (coherent.shaped address).matches_filter
      (laws.evicted nowMs (laws.ordersAt state.underlyingBook address)) (laws.evicted_of nowMs _)
    have call : U.evictExpiredOrders (state.underlyingBook.leafAt address) nowMs =
        (.ok (laws.evicted nowMs (laws.ordersAt state.underlyingBook address)),
          (U.evictExpiredOrders (state.underlyingBook.leafAt address) nowMs).2) := Prod.ext result rfl
    rw [call]
    refine coherent.of_match (Nat.le_refl _) present ⟨?_, ?_⟩ matching ?_
    · rw [view]
      exact plain.settings
    · rw [view]
      exact plain.active
    · rw [view]
      rfl

theorem Coherent.evictLeaves (coherent : Coherent laws state bound) (nowMs : Nat) (symbols : List Symbol) :
    Coherent laws { state with
      underlyingBook := (SequencedState.evictLeaves nowMs state.underlyingBook symbols).2
      registry := state.registry.removeAll
        (SequencedState.evictLeaves nowMs state.underlyingBook symbols).1 } bound := by
  induction symbols generalizing state with
  | nil => exact coherent.of_eq rfl rfl
  | cons symbol rest ih =>
    have first := coherent.evictLeaf nowMs symbol
    have others := ih first
    rw [← OrderRegistry.removeAll_append] at others
    exact others

/-- Every command with 64-bit values and a fresh sequence keeps the registry and the books in step. -/
theorem Coherent.execute (coherent : Coherent laws state bound) (visits : VisitOrder) (fresh : bound ≤ ctx.sequence)
    (roomy : Roomy state) (ranged : ctx.command.Ranged) :
    Coherent laws (state.execute visits ctx).2 (ctx.sequence + 1) := by
  have above : bound ≤ ctx.sequence + 1 := by omega
  unfold SequencedState.execute
  cases command : ctx.command with
  | addOrder order =>
    rw [command] at ranged
    have added := coherent.executeAddOrder visits fresh roomy order.placement order.orderType ranged.1 ranged.2
    simp only [SequencedState.addWithIdempotency]
    split
    · exact added
    · split
      · split <;> exact coherent.mono above
      · exact added.of_eq rfl rfl
  | cancelOrder symbol orderId account => exact (coherent.executeCancel symbol orderId account).mono above
  | replace amended =>
    rw [command] at ranged
    exact coherent.executeReplace visits fresh roomy ranged.1 ranged.2
  | massCancel scope cancelType account =>
    simp only [SequencedState.executeMassCancel]
    split
    · exact coherent.mono above
    · exact (coherent.cancelTargets _).mono above
  | setInstrumentStatus symbol status =>
    simp only [SequencedState.executeSetInstrumentStatus]
    split
    · exact coherent.mono above
    next address book resolved =>
      have vivified := (coherent.resolved resolved).1.mono above
      split
      · exact vivified.of_eq rfl rfl
      · exact vivified
  | evictExpiredOrders nowMs =>
    simp only [SequencedState.executeEvictExpired, SequencedState.pruneEvicted_registry]
    exact (coherent.evictLeaves nowMs _).mono above
  | marketMakerControl knobs =>
    simp only [SequencedState.executeMarketMakerControl]
    split
    · exact (coherent.cancelTargets _).mono above
    · exact coherent.mono above
  | clock => exact coherent.mono above
  | simStep => exact coherent.mono above

end Steps

end Fauxchange.Exchange
