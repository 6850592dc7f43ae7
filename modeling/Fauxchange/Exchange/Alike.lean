import Fauxchange.Exchange.CoherentRuns
import Fauxchange.Exchange.Stores

/-! Two executor states that show the same: equal registries and idempotency maps, the same statuses and the
same orders in every leaf. Whatever the settings and the leaves behind them, they stay alike and trade alike. -/

namespace Fauxchange.Exchange
open Lib UnderlyingOrderBook

/-- The placement is within the specs, where there are any. -/
def VenueCommand.WithinSpecs (specs : Option ContractSpecs) : VenueCommand → Prop
  | .addOrder order =>
    match order.orderType with
    | .market => withinSpecs specs 0 order.quantity = true
    | .limit => ∀ price ∈ order.limitPrice, withinSpecs specs price order.quantity = true
  | .replace order => ∀ price ∈ order.limitPrice, withinSpecs specs price order.quantity = true
  | _ => True

theorem VenueCommand.withinSpecs_none (command : VenueCommand) : command.WithinSpecs none := by
  cases command with
  | addOrder order =>
    simp only [VenueCommand.WithinSpecs]
    split
    · rfl
    · exact fun _ _ => rfl
  | replace order => exact fun _ _ => rfl
  | _ => trivial

section Alike
variable {U : Upstream} {laws : BookLaws U} {left right : SequencedState U} {bound : Nat} {address : LeafAddress}
  {registry : OrderRegistry} {ctx : ExecutionContext}

structure Alike (laws : BookLaws U) (left right : SequencedState U) : Prop where
  underlying : left.underlyingBook.underlying = right.underlyingBook.underlying
  registry : left.registry = right.registry
  idempotency : left.idempotency = right.idempotency
  statuses : ∀ symbol, left.instrumentStatus.statusOf symbol = right.instrumentStatus.statusOf symbol
  orders : ∀ address, laws.ordersAt left.underlyingBook address = laws.ordersAt right.underlyingBook address

namespace Alike

theorem refl (state : SequencedState U) : Alike laws state state :=
  ⟨rfl, rfl, rfl, fun _ => rfl, fun _ => rfl⟩

theorem symm (alike : Alike laws left right) : Alike laws right left :=
  ⟨alike.underlying.symm, alike.registry.symm, alike.idempotency.symm, fun symbol => (alike.statuses symbol).symm,
    fun address => (alike.orders address).symm⟩

theorem trans {middle : SequencedState U} (first : Alike laws left middle) (second : Alike laws middle right) :
    Alike laws left right :=
  ⟨first.underlying.trans second.underlying, first.registry.trans second.registry,
    first.idempotency.trans second.idempotency,
    fun symbol => (first.statuses symbol).trans (second.statuses symbol),
    fun address => (first.orders address).trans (second.orders address)⟩

/-- The same registry and alike leaves are written at the same address. -/
theorem commit (alike : Alike laws left right) (here : (left.underlyingBook.leaf? address).isSome)
    (there : (right.underlyingBook.leaf? address).isSome) {leaf other : U.Leaf}
    (orders : (laws.view leaf).orders = (laws.view other).orders) :
    Alike laws (left.commitLeaf address registry leaf) (right.commitLeaf address registry other) where
  underlying := alike.underlying
  registry := rfl
  idempotency := alike.idempotency
  statuses := alike.statuses
  orders := by
    intro place
    by_cases same : place = address
    · subst same
      simp only [SequencedState.commitLeaf, BookLaws.ordersAt, leafAt_setLeaf_self _ _ here,
        leafAt_setLeaf_self _ _ there]
      exact orders
    · simp only [SequencedState.commitLeaf, BookLaws.ordersAt, leafAt_setLeaf_of_ne _ _ same]
      exact alike.orders place

theorem vivify (alike : Alike laws left right) (address : LeafAddress) :
    Alike laws { left with underlyingBook := left.underlyingBook.vivify address }
      { right with underlyingBook := right.underlyingBook.vivify address } where
  underlying := alike.underlying
  registry := alike.registry
  idempotency := alike.idempotency
  statuses := alike.statuses
  orders := by
    intro place
    simp only [BookLaws.ordersAt, leafAt_vivify]
    exact alike.orders place

end Alike

/-- Symbols resolve alike under one underlying. -/
theorem resolveLeafVivify_cases {book other : UnderlyingOrderBook U} (same : book.underlying = other.underlying)
    (symbol : Symbol) :
    (∃ reason, book.resolveLeafVivify symbol = .error reason ∧ other.resolveLeafVivify symbol = .error reason) ∨
      ∃ address, book.resolveLeafVivify symbol = .ok (address, book.vivify address) ∧
        other.resolveLeafVivify symbol = .ok (address, other.vivify address) ∧
          addressOf? U book.underlying symbol = some address := by
  unfold resolveLeafVivify addressOf?
  cases U.parse symbol with
  | error reason => exact Or.inl ⟨reason, rfl, rfl⟩
  | ok parsed =>
    by_cases cross : parsed.underlying = book.underlying
    · refine Or.inr ⟨parsed.address, ?_, ?_, ?_⟩
      · simp [cross]
      · simp [cross, same]
      · simp [cross]
    · refine Or.inl ⟨crossUnderlying symbol book.underlying, ?_, ?_⟩
      · simp [cross]
      · rw [same] at cross
        simp [cross, same]

/-- Alike leaves match a limit order alike. -/
theorem runAdd_alike (registry : OrderRegistry) {settings other : BookConfig} {leaf second : U.Leaf}
    (plain : Plain laws settings leaf)
    (neutral : Neutral settings) (plain' : Plain laws other second) (neutral' : Neutral other)
    (orders : (laws.view leaf).orders = (laws.view second).orders) (shaped : Shaped bound (laws.view leaf).orders)
    (fresh : bound ≤ ctx.sequence) (visits : VisitOrder) (placement : Placement) {price : Nat}
    (within : withinSpecs settings.specs price placement.quantity = true)
    (within' : withinSpecs other.specs price placement.quantity = true) :
    (runAdd visits ctx registry leaf placement price).1 = (runAdd visits ctx registry second placement price).1 ∧
      (runAdd visits ctx registry leaf placement price).2.1 =
        (runAdd visits ctx registry second placement price).2.1 ∧
      (laws.view (runAdd visits ctx registry leaf placement price).2.2).orders =
        (laws.view (runAdd visits ctx registry second placement price).2.2).orders := by
  obtain ⟨effect, shows, -, inside⟩ := exists_addEffect plain neutral (placement.limitOrder ctx.sequence price)
    shaped fresh
  obtain ⟨effect', shows', -, inside'⟩ := exists_addEffect plain' neutral' (placement.limitOrder ctx.sequence price)
    (orders ▸ shaped) fresh
  have same : effect = effect' := by rw [inside within, inside' within', orders]
  subst same
  rw [runAdd_eq ctx registry placement visits plain neutral price shows,
    runAdd_eq ctx registry placement visits plain' neutral' price shows']
  exact ⟨rfl, rfl, shows.view_orders.trans shows'.view_orders.symm⟩

theorem executeMarket_alike (registry : OrderRegistry) {settings other : BookConfig} {leaf second : U.Leaf}
    (plain : Plain laws settings leaf)
    (neutral : Neutral settings) (plain' : Plain laws other second) (neutral' : Neutral other)
    (orders : (laws.view leaf).orders = (laws.view second).orders) (shaped : Shaped bound (laws.view leaf).orders)
    (fresh : bound ≤ ctx.sequence) (visits : VisitOrder) (placement : Placement)
    (within : withinSpecs settings.specs 0 placement.quantity = true)
    (within' : withinSpecs other.specs 0 placement.quantity = true) :
    (executeMarket visits ctx registry leaf placement).1 = (executeMarket visits ctx registry second placement).1 ∧
      (executeMarket visits ctx registry leaf placement).2.1 =
        (executeMarket visits ctx registry second placement).2.1 ∧
      (laws.view (executeMarket visits ctx registry leaf placement).2.2).orders =
        (laws.view (executeMarket visits ctx registry second placement).2.2).orders := by
  obtain ⟨effect, shows, -, inside⟩ := exists_marketEffect plain neutral (engineOrderId ctx.sequence)
    placement.quantity placement.side placement.owner shaped fresh
  obtain ⟨effect', shows', -, inside'⟩ := exists_marketEffect plain' neutral' (engineOrderId ctx.sequence)
    placement.quantity placement.side placement.owner (orders ▸ shaped) fresh
  have same : effect = effect' := by rw [inside within, inside' within', orders]
  subst same
  rw [executeMarket_eq ctx registry placement visits plain neutral shows,
    executeMarket_eq ctx registry placement visits plain' neutral' shows', ← orders]
  split
  · exact ⟨rfl, rfl, by rw [laws.view_arm, laws.view_arm, orders]⟩
  · exact ⟨rfl, rfl, shows.view_orders.trans shows'.view_orders.symm⟩

theorem Alike.executeAddOrder (alike : Alike laws left right) (coherent : Coherent laws left bound)
    (coherent' : Coherent laws right bound) (visits : VisitOrder) (fresh : bound ≤ ctx.sequence)
    (placement : Placement) (orderType : OrderType) (limitPrice : Option Nat)
    (within : ∀ specs, specs = left.underlyingBook.config.specs ∨ specs = right.underlyingBook.config.specs →
      match orderType with
      | .market => withinSpecs specs 0 placement.quantity = true
      | .limit => ∀ price ∈ limitPrice, withinSpecs specs price placement.quantity = true) :
    (left.executeAddOrder visits ctx placement orderType limitPrice).1 =
        (right.executeAddOrder visits ctx placement orderType limitPrice).1 ∧
      Alike laws (left.executeAddOrder visits ctx placement orderType limitPrice).2
        (right.executeAddOrder visits ctx placement orderType limitPrice).2 := by
  unfold SequencedState.executeAddOrder
  rcases resolveLeafVivify_cases alike.underlying placement.symbol with ⟨reason, here, there⟩ | ⟨address, here, there, -⟩
  · rw [here, there]
    exact ⟨rfl, alike⟩
  · rw [here, there]
    have vivified := alike.vivify address
    rw [alike.registry] at vivified
    have present := coherent.resolved here
    have present' := coherent'.resolved there
    have status := alike.statuses placement.symbol
    dsimp only
    rw [InstrumentStatusRegistry.isAcceptingOrders, InstrumentStatusRegistry.isAcceptingOrders, status, alike.registry]
    split
    · exact ⟨rfl, vivified⟩
    · have orders := vivified.orders address
      have shaped := present.1.shaped address
      cases orderType with
      | market =>
        obtain ⟨outcome, registry, after⟩ := executeMarket_alike right.registry (present.1.plain address) coherent.neutral
          (present'.1.plain address) coherent'.neutral orders shaped fresh visits placement (within _ (Or.inl rfl))
          (within _ (Or.inr rfl))
        dsimp only
        rw [registry]
        exact ⟨outcome, vivified.commit present.2.1 present'.2.1 after⟩
      | limit =>
        cases limitPrice with
        | none => exact ⟨rfl, vivified⟩
        | some price =>
          obtain ⟨result, registry, after⟩ := runAdd_alike right.registry (present.1.plain address) coherent.neutral
            (present'.1.plain address) coherent'.neutral orders shaped fresh visits placement
            (within _ (Or.inl rfl) price rfl) (within _ (Or.inr rfl) price rfl)
          dsimp only
          rw [result, registry]
          exact ⟨rfl, vivified.commit present.2.1 present'.2.1 after⟩

theorem cancelOrder_alike {leaf second : U.Leaf} (orders : (laws.view leaf).orders = (laws.view second).orders)
    (engineId : Nat) :
    (laws.view (U.cancelOrder leaf engineId).2).orders = (laws.view (U.cancelOrder second engineId).2).orders := by
  rw [laws.cancel_view, laws.cancel_view, orders]

theorem Alike.executeReplace (alike : Alike laws left right) (coherent : Coherent laws left bound)
    (coherent' : Coherent laws right bound) (visits : VisitOrder) (fresh : bound ≤ ctx.sequence) {amended : Replace}
    (within : ∀ specs, specs = left.underlyingBook.config.specs ∨ specs = right.underlyingBook.config.specs →
      ∀ price ∈ amended.limitPrice, withinSpecs specs price amended.quantity = true) :
    (left.executeReplace visits ctx amended).1 = (right.executeReplace visits ctx amended).1 ∧
      Alike laws (left.executeReplace visits ctx amended).2 (right.executeReplace visits ctx amended).2 := by
  unfold SequencedState.executeReplace
  rcases resolveLeafVivify_cases alike.underlying amended.symbol with ⟨reason, here, there⟩ | ⟨address, here, there, -⟩
  · rw [here, there]
    exact ⟨rfl, alike⟩
  · rw [here, there]
    have vivified := alike.vivify address
    rw [alike.registry] at vivified
    have present := coherent.resolved here
    have present' := coherent'.resolved there
    have orders := vivified.orders address
    dsimp only
    rw [alike.registry]
    split
    · exact ⟨rfl, vivified⟩
    next engineId named =>
      split
      · exact ⟨rfl, vivified⟩
      · have cancelled := cancelOrder_alike orders engineId
        by_cases hit : engineId ∈ (laws.ordersAt (left.underlyingBook.vivify address) address).map BookOrder.id
        · have hit' : engineId ∈ (laws.ordersAt (right.underlyingBook.vivify address) address).map BookOrder.id :=
            orders ▸ hit
          rw [cancelOrder_hit hit, cancelOrder_hit hit']
          dsimp only
          split
          next price offered =>
            have shaped := (present.1.cancelled present.2.1 hit).shaped address
            simp only [SequencedState.commitLeaf, BookLaws.ordersAt, leafAt_setLeaf_self _ _ present.2.1] at shaped
            obtain ⟨result, registry, after⟩ := runAdd_alike (right.registry.removeResting engineId)
              ((present.1.plain address).cancelOrder engineId) coherent.neutral
              ((present'.1.plain address).cancelOrder engineId) coherent'.neutral cancelled shaped fresh visits
              (amended.placement ((right.registry.resting[engineId]?.map (·.owner)).getD 0))
              (within _ (Or.inl rfl) price offered) (within _ (Or.inr rfl) price offered)
            rw [result, registry]
            exact ⟨rfl, vivified.commit present.2.1 present'.2.1 after⟩
          next => exact ⟨rfl, vivified.commit present.2.1 present'.2.1 cancelled⟩
        · have miss' : engineId ∉ (laws.ordersAt (right.underlyingBook.vivify address) address).map BookOrder.id :=
            orders ▸ hit
          rw [cancelOrder_miss hit, cancelOrder_miss miss']
          exact ⟨rfl, vivified.commit present.2.1 present'.2.1 cancelled⟩

/-- The cancel of an engine id in the leaf of a symbol. -/
def cancelIn (state : SequencedState U) (symbol : Symbol) (engineId : Nat) : SequencedState U :=
  match state.underlyingBook.resolveLeafRead symbol with
  | none => state
  | some (address, leaf) =>
    match U.cancelOrder leaf engineId with
    | (.ok true, leaf) => state.commitLeaf address (state.registry.removeResting engineId) leaf
    | (_, leaf) => state.commitLeaf address state.registry leaf

theorem executeCancel_eq (state : SequencedState U) (symbol : Symbol) (orderId : VenueOrderId) (account : AccountId) :
    (state.executeCancel symbol orderId account).2 =
      match state.registry.venueToEngine[orderId]? with
      | none => state
      | some engineId => if state.registry.accountOwns engineId account then cancelIn state symbol engineId else state := by
  unfold SequencedState.executeCancel cancelIn
  cases state.underlyingBook.resolveLeafRead symbol with
  | none => cases state.registry.venueToEngine[orderId]? <;> simp
  | some resolved =>
    cases state.registry.venueToEngine[orderId]? with
    | none => rfl
    | some engineId =>
      cases owns : state.registry.accountOwns engineId account with
      | false => simp [owns]
      | true =>
        simp only [owns, Bool.not_true, Bool.false_eq_true, if_false, if_true]
        split <;> simp_all

theorem cancelTargets_cons (state : SequencedState U) (target : Nat × RestingRecord)
    (rest : List (Nat × RestingRecord)) :
    (state.cancelTargets (target :: rest)).2 = ((cancelIn state target.2.symbol target.1).cancelTargets rest).2 := by
  unfold cancelIn
  simp only [SequencedState.cancelTargets]
  cases state.underlyingBook.resolveLeafRead target.2.symbol with
  | none => rfl
  | some resolved =>
    dsimp only
    split <;> simp_all

/-- An absent leaf shows no orders. -/
theorem ordersAt_of_absent {book : UnderlyingOrderBook U} (absent : book.leaf? address = none) :
    laws.ordersAt book address = [] := by
  simp [BookLaws.ordersAt, leafAt, absent, laws.view_new]

/-- The order rests in the leaf of the symbol. -/
def RestsIn (laws : BookLaws U) (book : UnderlyingOrderBook U) (symbol : Symbol) (engineId : Nat) : Prop :=
  ∃ address, addressOf? U book.underlying symbol = some address ∧
    engineId ∈ (laws.ordersAt book address).map BookOrder.id

/-- A symbol is read at its address, unless the leaf is absent. -/
theorem resolveLeafRead_cases (book : UnderlyingOrderBook U) (symbol : Symbol) :
    book.resolveLeafRead symbol = none ∧ (∀ address, addressOf? U book.underlying symbol = some address →
        book.leaf? address = none) ∨
      ∃ address, addressOf? U book.underlying symbol = some address ∧ (book.leaf? address).isSome ∧
        book.resolveLeafRead symbol = some (address, book.leafAt address) := by
  rw [resolveLeafRead_eq]
  cases lives : addressOf? U book.underlying symbol with
  | none => simp
  | some address =>
    cases here : book.leaf? address with
    | none =>
      left
      simp [here]
    | some leaf =>
      right
      refine ⟨address, rfl, ?_, ?_⟩
      · rw [here]
        rfl
      · simp [here, leafAt]

section CancelIn
variable (laws) (state : SequencedState U) (symbol : Symbol) (engineId : Nat)

/-- What is left in every leaf. -/
theorem cancelIn_orders (place : LeafAddress) :
    laws.ordersAt (cancelIn state symbol engineId).underlyingBook place =
      if addressOf? U state.underlyingBook.underlying symbol = some place then
        (laws.ordersAt state.underlyingBook place).filter fun order => order.id ≠ engineId
      else laws.ordersAt state.underlyingBook place := by
  unfold cancelIn
  rcases resolveLeafRead_cases state.underlyingBook symbol with ⟨unread, absent⟩ | ⟨address, lives, present, read⟩
  · rw [unread]
    dsimp only
    split
    next lives => rw [ordersAt_of_absent (absent place lives), List.filter_nil]
    next => rfl
  · have written : ∀ registry, laws.ordersAt (state.commitLeaf address registry
        (U.cancelOrder (state.underlyingBook.leafAt address) engineId).2).underlyingBook place =
          if some address = some place then
            (laws.ordersAt state.underlyingBook place).filter fun order => order.id ≠ engineId
          else laws.ordersAt state.underlyingBook place := by
      intro registry
      by_cases same : place = address
      · subst same
        simp only [SequencedState.commitLeaf, BookLaws.ordersAt, leafAt_setLeaf_self _ _ present, if_true]
        rw [laws.cancel_view]
      · simp only [SequencedState.commitLeaf, BookLaws.ordersAt, leafAt_setLeaf_of_ne _ _ same, Option.some.injEq]
        rw [if_neg (Ne.symm same)]
    rw [read, lives]
    dsimp only
    by_cases hit : engineId ∈ (laws.ordersAt state.underlyingBook address).map BookOrder.id
    · rw [cancelOrder_hit hit]
      exact written _
    · rw [cancelOrder_miss hit]
      exact written _

open Classical in
theorem cancelIn_registry :
    (cancelIn state symbol engineId).registry =
      if RestsIn laws state.underlyingBook symbol engineId then state.registry.removeResting engineId
      else state.registry := by
  unfold cancelIn
  rcases resolveLeafRead_cases state.underlyingBook symbol with ⟨unread, absent⟩ | ⟨address, lives, present, read⟩
  · have unlisted : ¬ RestsIn laws state.underlyingBook symbol engineId := by
      rintro ⟨place, lives, listed⟩
      rw [ordersAt_of_absent (absent place lives)] at listed
      cases listed
    rw [unread, if_neg unlisted]
  · have rests : RestsIn laws state.underlyingBook symbol engineId ↔
        engineId ∈ (laws.ordersAt state.underlyingBook address).map BookOrder.id := by
      constructor
      · rintro ⟨place, there, listed⟩
        rw [lives] at there
        obtain rfl := Option.some.inj there
        exact listed
      · exact fun listed => ⟨address, lives, listed⟩
    rw [read]
    dsimp only
    by_cases hit : engineId ∈ (laws.ordersAt state.underlyingBook address).map BookOrder.id
    · rw [cancelOrder_hit hit, if_pos (rests.2 hit)]
      rfl
    · rw [cancelOrder_miss hit, if_neg (mt rests.1 hit)]
      rfl

theorem cancelIn_frame :
    (cancelIn state symbol engineId).underlyingBook.underlying = state.underlyingBook.underlying ∧
      (cancelIn state symbol engineId).idempotency = state.idempotency ∧
        (cancelIn state symbol engineId).instrumentStatus = state.instrumentStatus := by
  unfold cancelIn
  split
  · exact ⟨rfl, rfl, rfl⟩
  · split <;> exact ⟨rfl, rfl, rfl⟩

end CancelIn

theorem Alike.restsIn (alike : Alike laws left right) (symbol : Symbol) (engineId : Nat) :
    RestsIn laws left.underlyingBook symbol engineId ↔ RestsIn laws right.underlyingBook symbol engineId := by
  unfold RestsIn
  simp only [alike.underlying, alike.orders]

/-- A leaf that one of the two lacks holds no order to cancel. -/
theorem Alike.cancelIn (alike : Alike laws left right) (symbol : Symbol) (engineId : Nat) :
    Alike laws (cancelIn left symbol engineId) (cancelIn right symbol engineId) := by
  obtain ⟨underlying, idempotency, statuses⟩ := cancelIn_frame left symbol engineId
  obtain ⟨underlying', idempotency', statuses'⟩ := cancelIn_frame right symbol engineId
  constructor
  · rw [underlying, underlying', alike.underlying]
  · rw [cancelIn_registry laws left, cancelIn_registry laws right, alike.registry]
    by_cases rests : RestsIn laws right.underlyingBook symbol engineId
    · rw [if_pos rests, if_pos ((alike.restsIn symbol engineId).2 rests)]
    · rw [if_neg rests, if_neg (mt (alike.restsIn symbol engineId).1 rests)]
  · rw [idempotency, idempotency', alike.idempotency]
  · rw [statuses, statuses']
    exact alike.statuses
  · intro place
    rw [cancelIn_orders, cancelIn_orders, alike.underlying, alike.orders]

theorem Alike.executeCancel (alike : Alike laws left right) (symbol : Symbol) (orderId : VenueOrderId)
    (account : AccountId) :
    Alike laws (left.executeCancel symbol orderId account).2 (right.executeCancel symbol orderId account).2 := by
  rw [executeCancel_eq, executeCancel_eq, alike.registry]
  split
  · exact alike
  · split
    · exact alike.cancelIn symbol _
    · exact alike

theorem Alike.cancelTargets (alike : Alike laws left right) (targets : List (Nat × RestingRecord)) :
    Alike laws (left.cancelTargets targets).2 (right.cancelTargets targets).2 := by
  induction targets generalizing left right with
  | nil => exact alike
  | cons target rest ih =>
    rw [cancelTargets_cons, cancelTargets_cons]
    exact ih (alike.cancelIn target.2.symbol target.1)

/-- The targets of a sweep are read off the registry. -/
theorem Alike.sweepMatching (alike : Alike laws left right) (visits : VisitOrder) (round : Nat)
    (scope : MassCancelScope) (cancelType : MassCancelType) (accountScope : Option AccountId) :
    Alike laws (left.sweepMatching visits round scope cancelType accountScope).2
      (right.sweepMatching visits round scope cancelType accountScope).2 := by
  have targets : left.sweepTargets visits round scope cancelType accountScope =
      right.sweepTargets visits round scope cancelType accountScope := by
    unfold SequencedState.sweepTargets
    rw [alike.registry]
  unfold SequencedState.sweepMatching
  rw [targets]
  exact alike.cancelTargets _

/-- The ids a sweep of one leaf evicts. -/
theorem evictAt_ids (laws : BookLaws U) (nowMs : Nat) (book : UnderlyingOrderBook U) (address : LeafAddress) :
    (evictAt nowMs book address).1 = laws.evicted nowMs (laws.ordersAt book address) := by
  unfold evictAt
  split
  next absent =>
    rw [ordersAt_of_absent absent]
    refine (List.eq_nil_iff_forall_not_mem.2 fun id listed => ?_).symm
    cases laws.evicted_of nowMs [] id listed
  next leaf present =>
    have here : book.leafAt address = leaf := by simp [leafAt, present]
    rw [laws.evict_result]
    simp [BookLaws.ordersAt, here, Except.toOption]

theorem evictAt_orders (laws : BookLaws U) (nowMs : Nat) (book : UnderlyingOrderBook U) (address place : LeafAddress) :
    laws.ordersAt (evictAt nowMs book address).2 place =
      if place = address then (laws.ordersAt book address).filter fun order =>
        order.id ∉ laws.evicted nowMs (laws.ordersAt book address)
      else laws.ordersAt book place := by
  unfold evictAt
  split
  next absent =>
    split
    next same => rw [same, ordersAt_of_absent absent, List.filter_nil]
    next => rfl
  next leaf found =>
    have present : (book.leaf? address).isSome := by rw [found]; rfl
    have here : book.leafAt address = leaf := by simp [leafAt, found]
    split
    next same =>
      simp only [BookLaws.ordersAt, same, leafAt_setLeaf_self _ _ present, here]
      rw [laws.evict_view]
    next apart => simp only [BookLaws.ordersAt, leafAt_setLeaf_of_ne _ _ apart]

section Evict
variable {book other : UnderlyingOrderBook U} (nowMs : Nat)

/-- Books of one underlying that show the same orders evict the same ones. -/
theorem evictLeaf_alike (underlying : book.underlying = other.underlying)
    (orders : ∀ address, laws.ordersAt book address = laws.ordersAt other address) (symbol : Symbol) :
    (SequencedState.evictLeaf nowMs book symbol).1 = (SequencedState.evictLeaf nowMs other symbol).1 ∧
      (SequencedState.evictLeaf nowMs book symbol).2.underlying =
        (SequencedState.evictLeaf nowMs other symbol).2.underlying ∧
      ∀ address, laws.ordersAt (SequencedState.evictLeaf nowMs book symbol).2 address =
        laws.ordersAt (SequencedState.evictLeaf nowMs other symbol).2 address := by
  rw [evictLeaf_eq, evictLeaf_eq, underlying]
  split
  · exact ⟨rfl, underlying, orders⟩
  next place _ =>
    refine ⟨?_, ?_, ?_⟩
    · rw [evictAt_ids laws, evictAt_ids laws, orders]
    · rw [evictAt_underlying, evictAt_underlying, underlying]
    · intro address
      rw [evictAt_orders, evictAt_orders, orders, orders]

theorem evictLeaves_alike (underlying : book.underlying = other.underlying)
    (orders : ∀ address, laws.ordersAt book address = laws.ordersAt other address) (symbols : List Symbol) :
    (SequencedState.evictLeaves nowMs book symbols).1 = (SequencedState.evictLeaves nowMs other symbols).1 ∧
      (SequencedState.evictLeaves nowMs book symbols).2.underlying =
        (SequencedState.evictLeaves nowMs other symbols).2.underlying ∧
      ∀ address, laws.ordersAt (SequencedState.evictLeaves nowMs book symbols).2 address =
        laws.ordersAt (SequencedState.evictLeaves nowMs other symbols).2 address := by
  induction symbols generalizing book other with
  | nil => exact ⟨rfl, underlying, orders⟩
  | cons symbol rest ih =>
    obtain ⟨ids, named, shown⟩ := evictLeaf_alike nowMs underlying orders symbol
    obtain ⟨later, last, left⟩ := ih named shown
    exact ⟨by simp only [SequencedState.evictLeaves, ids, later], last, left⟩

end Evict

theorem Alike.executeEvictExpired (alike : Alike laws left right) (visits : VisitOrder) (round nowMs : Nat) :
    Alike laws (left.executeEvictExpired visits round nowMs).2 (right.executeEvictExpired visits round nowMs).2 := by
  obtain ⟨ids, underlying, orders⟩ := evictLeaves_alike nowMs alike.underlying alike.orders
    (SequencedState.restingSymbols visits round right.registry)
  simp only [SequencedState.executeEvictExpired, alike.registry, ids]
  exact ⟨underlying, rfl, alike.idempotency, alike.statuses, orders⟩

theorem Alike.executeSetInstrumentStatus (alike : Alike laws left right) (symbol : Symbol) (status : InstrumentStatus) :
    Alike laws (left.executeSetInstrumentStatus symbol status).2
      (right.executeSetInstrumentStatus symbol status).2 := by
  unfold SequencedState.executeSetInstrumentStatus
  rcases resolveLeafVivify_cases alike.underlying symbol with ⟨reason, here, there⟩ | ⟨address, here, there, -⟩
  · rw [here, there]
    exact alike
  · rw [here, there]
    have vivified := alike.vivify address
    dsimp only
    rw [InstrumentStatusRegistry.tryTransition, InstrumentStatusRegistry.tryTransition, alike.statuses]
    by_cases legal : U.canTransition (right.instrumentStatus.statusOf symbol) status
    · rw [if_pos legal, if_pos legal]
      refine { vivified with statuses := ?_ }
      intro other
      have old := alike.statuses other
      simp only [InstrumentStatusRegistry.statusOf] at old ⊢
      simp only [Std.ExtTreeMap.getElem?_insert, Std.LawfulEqCmp.compare_eq_iff_eq]
      split
      · rfl
      · exact old
    · rw [if_neg legal, if_neg legal]
      exact vivified

theorem outcomeFills_executeCancel (state : SequencedState U) (symbol : Symbol) (orderId : VenueOrderId)
    (account : AccountId) : outcomeFills (state.executeCancel symbol orderId account).1 = [] := by
  unfold SequencedState.executeCancel
  split
  · rfl
  · split
    · rfl
    · split
      · rfl
      · split <;> rfl

theorem outcomeFills_executeSetInstrumentStatus (state : SequencedState U) (symbol : Symbol)
    (status : InstrumentStatus) : outcomeFills (state.executeSetInstrumentStatus symbol status).1 = [] := by
  unfold SequencedState.executeSetInstrumentStatus
  split
  · rfl
  · dsimp only
    split <;> rfl

theorem Alike.addWithIdempotency (alike : Alike laws left right) (coherent : Coherent laws left bound)
    (coherent' : Coherent laws right bound) (visits : VisitOrder) (fresh : bound ≤ ctx.sequence) {order : AddOrder}
    (within : ∀ specs, specs = left.underlyingBook.config.specs ∨ specs = right.underlyingBook.config.specs →
      (VenueCommand.addOrder order).WithinSpecs specs) :
    (left.addWithIdempotency visits ctx order).1 = (right.addWithIdempotency visits ctx order).1 ∧
      Alike laws (left.addWithIdempotency visits ctx order).2 (right.addWithIdempotency visits ctx order).2 := by
  obtain ⟨outcome, after⟩ := alike.executeAddOrder coherent coherent' visits fresh order.placement
    order.orderType order.limitPrice within
  unfold SequencedState.addWithIdempotency
  rw [alike.idempotency]
  split
  · exact ⟨outcome, after⟩
  · split
    · split
      · exact ⟨rfl, alike⟩
      · exact ⟨rfl, alike⟩
    · refine ⟨outcome, { after with idempotency := ?_ }⟩
      dsimp only
      rw [outcome, after.idempotency]

/-- Alike states trade alike and stay alike. A cancel may be refused for another reason, since it tells an absent
leaf from an order of another account. -/
theorem Alike.execute (alike : Alike laws left right) (coherent : Coherent laws left bound)
    (coherent' : Coherent laws right bound) (visits : VisitOrder) (fresh : bound ≤ ctx.sequence)
    (within : ∀ specs, specs = left.underlyingBook.config.specs ∨ specs = right.underlyingBook.config.specs →
      ctx.command.WithinSpecs specs) :
    outcomeFills (left.execute visits ctx).1 = outcomeFills (right.execute visits ctx).1 ∧
      Alike laws (left.execute visits ctx).2 (right.execute visits ctx).2 := by
  unfold SequencedState.execute
  cases command : ctx.command with
  | addOrder order =>
    rw [command] at within
    obtain ⟨outcome, after⟩ := alike.addWithIdempotency coherent coherent' visits fresh within
    exact ⟨congrArg outcomeFills outcome, after⟩
  | cancelOrder symbol orderId account =>
    dsimp only
    rw [outcomeFills_executeCancel, outcomeFills_executeCancel]
    exact ⟨rfl, alike.executeCancel symbol orderId account⟩
  | replace amended =>
    rw [command] at within
    obtain ⟨outcome, after⟩ := alike.executeReplace coherent coherent' visits fresh within
    exact ⟨congrArg outcomeFills outcome, after⟩
  | massCancel scope cancelType account =>
    simp only [SequencedState.executeMassCancel]
    split
    · exact ⟨rfl, alike⟩
    · exact ⟨rfl, alike.sweepMatching visits _ _ _ _⟩
  | setInstrumentStatus symbol status =>
    refine ⟨?_, alike.executeSetInstrumentStatus symbol status⟩
    rw [outcomeFills_executeSetInstrumentStatus, outcomeFills_executeSetInstrumentStatus]
  | evictExpiredOrders nowMs => exact ⟨rfl, alike.executeEvictExpired visits _ nowMs⟩
  | marketMakerControl knobs =>
    simp only [SequencedState.executeMarketMakerControl]
    split
    · exact ⟨rfl, alike.sweepMatching visits _ _ _ _⟩
    · exact ⟨rfl, alike⟩
  | clock => exact ⟨rfl, alike⟩
  | simStep => exact ⟨rfl, alike⟩

end Alike

end Fauxchange.Exchange
