import Fauxchange.Exchange.RegistryRuns
import Fauxchange.MarketData.Aggregate

/-! The aggregate of an instrument against the leaf it is re-derived from: each move in the leaf, and what the outcome
that reports it does to the aggregate. -/

namespace Fauxchange.MarketData
open Lib Exchange UnderlyingOrderBook

/-- The venue order id of a registered order. -/
def nameOf (registry : OrderRegistry) (id : Nat) : Option VenueOrderId :=
  registry.resting[id]?.map RestingRecord.venueOrderId

/-- A resting order as the aggregate tracks it. -/
def shown (order : BookOrder) : RestingOrder := ⟨bookSide order.side, order.price, order.visibleQuantity⟩

/-- The aggregate tracks exactly the orders of the leaf, each under its venue order id, and its levels are their sums. -/
structure Shows (registry : OrderRegistry) (orders : List BookOrder) (state : InstrumentState) : Prop where
  tracked : ∀ (name : VenueOrderId) (tracked : RestingOrder), state.orders[name]? = some tracked ↔
    ∃ order ∈ orders, nameOf registry order.id = some name ∧ tracked = shown order
  balanced : state.Balanced

/-- The total that rests at a price. -/
def restingAt (orders : List BookOrder) (side : BookSide) (price : Nat) : Nat :=
  ((orders.filter fun order => bookSide order.side = side ∧ order.price = price).map BookOrder.visibleQuantity).sum

theorem shows_new (registry : OrderRegistry) : Shows registry [] .new where
  tracked := by
    intro name tracked
    simp [InstrumentState.new]
  balanced := balanced_new

section Named
variable {registry : OrderRegistry} {orders : List BookOrder} {state : InstrumentState}

theorem nameOf_inj (apart : registry.VenueIdsApart) {id other : Nat} {name : VenueOrderId}
    (here : nameOf registry id = some name) (there : nameOf registry other = some name) : id = other := by
  obtain ⟨left, present, rfl⟩ := Option.map_eq_some_iff.1 here
  obtain ⟨right, found, same⟩ := Option.map_eq_some_iff.1 there
  exact apart id other left right present found same.symm

/-- Only the names of the orders matter. -/
theorem Shows.congr (shows' : Shows registry orders state) {after : OrderRegistry}
    (same : ∀ order ∈ orders, nameOf after order.id = nameOf registry order.id) : Shows after orders state where
  tracked := by
    intro name tracked
    rw [shows'.tracked]
    constructor
    · rintro ⟨order, member, named, rest⟩
      exact ⟨order, member, by rw [same order member, named], rest⟩
    · rintro ⟨order, member, named, rest⟩
      exact ⟨order, member, by rw [← same order member, named], rest⟩
  balanced := shows'.balanced

theorem sum_shares {side : BookSide} {price : Nat} {name : BookOrder → VenueOrderId} (orders : List BookOrder) :
    (orders.map fun order => levelShare side price (name order) (shown order)).sum = restingAt orders side price := by
  unfold restingAt
  induction orders with
  | nil => rfl
  | cons order rest ih =>
    rw [List.map_cons, List.sum_cons, ih]
    by_cases here : bookSide order.side = side ∧ order.price = price
    · rw [List.filter_cons_of_pos (by simpa using here), List.map_cons, List.sum_cons]
      exact congrArg (· + _) (if_pos here)
    · rw [List.filter_cons_of_neg (by simpa using here)]
      have nothing : levelShare side price (name order) (shown order) = 0 := if_neg here
      rw [nothing, Nat.zero_add]

/-- What the aggregate shows at a price is what rests there. -/
theorem Shows.total (shows' : Shows registry orders state) (standing : Standing orders) (apart : registry.VenueIdsApart)
    (known : ∀ order ∈ orders, nameOf registry order.id ≠ none) (side : BookSide) (price : Nat) :
    state.levels.qtyAt side price = restingAt orders side price := by
  let entry := fun order : BookOrder => ((nameOf registry order.id).getD "", shown order)
  have named : ∀ order ∈ orders, nameOf registry order.id = some (entry order).1 := by
    intro order member
    obtain ⟨name, present⟩ := Option.ne_none_iff_exists'.1 (known order member)
    rw [present]
    simp [entry, present]
  have distinct : (orders.map entry).Nodup := by
    refine List.Nodup.map_on (fun left first right second same => ?_) (List.Nodup.of_map _ standing.distinct)
    have names : (entry left).1 = (entry right).1 := congrArg Prod.fst same
    have ids := nameOf_inj apart (names ▸ named left first) (named right second)
    exact standing.unique first second ids
  have listed : state.orders.toList.Perm (orders.map entry) := by
    refine (List.perm_ext_iff_of_nodup (nodup_toList state.orders) distinct).2 fun found => ?_
    rw [Std.ExtTreeMap.mem_toList_iff_getElem?_eq_some, shows'.tracked, List.mem_map]
    constructor
    · rintro ⟨order, member, name, same⟩
      refine ⟨order, member, Prod.ext ?_ same.symm⟩
      exact Option.some.inj ((named order member).symm.trans name)
    · rintro ⟨order, member, rfl⟩
      exact ⟨order, member, named order member, rfl⟩
  rw [shows'.balanced, mapSum, (listed.map _).sum_eq, List.map_map]
  exact @sum_shares side price (fun order => (entry order).1) orders

end Named

section Moved
variable {registry : OrderRegistry} {orders kept : List BookOrder} {now : Applying}

theorem nameOf_removeResting (registry : OrderRegistry) (engineId id : Nat) :
    nameOf (registry.removeResting engineId) id = if engineId = id then none else nameOf registry id := by
  unfold nameOf
  rw [OrderRegistry.removeResting_getElem?]
  split <;> rfl

theorem nameOf_removeAll (registry : OrderRegistry) (removed : List Nat) (id : Nat) :
    nameOf (registry.removeAll removed) id = if id ∈ removed then none else nameOf registry id := by
  unfold nameOf
  rw [OrderRegistry.removeAll_getElem?]
  split <;> rfl

theorem nameOf_registerResting (registry : OrderRegistry) (engineId id : Nat) (record : RestingRecord) :
    nameOf (registry.registerResting engineId record) id =
      if engineId = id then some record.venueOrderId else nameOf registry id := by
  unfold nameOf OrderRegistry.registerResting
  simp only [Std.ExtTreeMap.getElem?_insert, Std.LawfulEqCmp.compare_eq_iff_eq]
  split <;> rfl

theorem Shows.tracksOpen (shows' : Shows registry orders now.state) (standing : Standing orders) : now.TracksOpen := by
  intro name tracked present
  obtain ⟨order, member, -, rfl⟩ := (shows'.tracked name tracked).1 present
  exact standing.open' order member

/-- An order is dropped from the leaf and by its name from the aggregate. -/
theorem Shows.dropped (shows' : Shows registry orders now.state) (apart : registry.VenueIdsApart) {engineId : Nat}
    {name : VenueOrderId} (named : nameOf registry engineId = some name) :
    Shows (registry.removeResting engineId) (orders.filter fun order => order.id ≠ engineId)
      (now.removeOrder name).state where
  tracked := by
    intro other tracked
    rw [Applying.orders_removeOrder, Std.ExtTreeMap.getElem?_erase]
    simp only [List.mem_filter, decide_eq_true_eq, nameOf_removeResting, Std.LawfulEqCmp.compare_eq_iff_eq]
    constructor
    · intro present
      split at present
      · cases present
      next unlike =>
        obtain ⟨order, member, called, rest⟩ := (shows'.tracked other tracked).1 present
        have away : order.id ≠ engineId := by
          intro same
          rw [same, named] at called
          exact unlike (Option.some.inj called)
        exact ⟨order, ⟨member, away⟩, by rw [if_neg (Ne.symm away), called], rest⟩
    · rintro ⟨order, ⟨member, away⟩, called, rest⟩
      rw [if_neg (Ne.symm away)] at called
      rw [if_neg, (shows'.tracked other tracked).2 ⟨order, member, called, rest⟩]
      rintro rfl
      exact away (nameOf_inj apart called named)
  balanced := Applying.Balanced.removeOrder shows'.balanced

/-- The maker legs take from a name what the match takes from its order. -/
theorem takenBy_makersOf {U : Upstream} (apart : registry.VenueIdsApart) {trades : List Trade}
    (known : ∀ trade ∈ trades, nameOf registry trade.makerOrderId ≠ none) {id : Nat} {name : VenueOrderId}
    (named : nameOf registry id = some name) :
    Applying.takenBy (makersOf U registry trades) name =
      ((trades.filter fun trade => trade.makerOrderId = id).map Trade.quantity).sum := by
  induction trades with
  | nil => rfl
  | cons trade rest ih =>
    have later := ih fun other member => known other (List.mem_cons_of_mem _ member)
    obtain ⟨maker, called⟩ := Option.ne_none_iff_exists'.1 (known trade (by simp))
    obtain ⟨record, present, rfl⟩ := Option.map_eq_some_iff.1 called
    have identity : (makerIdentity U registry trade.makerOrderId).1 = record.venueOrderId := by
      unfold makerIdentity
      rw [present]
    change Applying.takenBy ((_, _) :: makersOf U registry rest) name = _
    rw [Applying.takenBy_cons, identity, later]
    by_cases same : trade.makerOrderId = id
    · have equal : record.venueOrderId = name := by
        rw [same, named] at called
        exact (Option.some.inj called).symm
      rw [if_pos equal, List.filter_cons_of_pos (by simpa using same)]
      rfl
    · have unlike : record.venueOrderId ≠ name := fun equal => same (nameOf_inj apart (equal ▸ called) named)
      rw [if_neg unlike, Nat.zero_add, List.filter_cons_of_neg (by simpa using same)]

section Matched
variable {U : Upstream} {owner : Hash32} {active : Bool} {result : MatchResult} {removed : List Nat} {fills : List Fill}
  {stpCancelled : List CancelledLeg}

/-- The names the prevention reports are those of the orders it has removed. -/
theorem mem_sweptNames (report : MatchReport U registry result removed fills stpCancelled) {name : VenueOrderId} :
    name ∈ stpCancelled.map CancelledLeg.orderId ↔
      ∃ id ∈ removed, id ∉ result.filledOrderIds ∧ nameOf registry id = some name := by
  rw [report.swept.mem_iff, List.mem_filterMap]
  constructor
  · rintro ⟨id, listed, named⟩
    obtain ⟨gone, unused⟩ := List.mem_filter.1 listed
    exact ⟨id, gone, by simpa using unused, named⟩
  · rintro ⟨id, gone, unused, named⟩
    exact ⟨id, List.mem_filter.2 ⟨gone, by simpa using unused⟩, named⟩

/-- What an aggregate tracks once a match is consumed. -/
theorem getElem?_consume (shows' : Shows registry orders now.state) (standing : Standing orders)
    (report : MatchReport U registry result removed fills stpCancelled) (name : VenueOrderId) :
    (now.consume fills stpCancelled).state.orders[name]? =
      if name ∈ stpCancelled.map CancelledLeg.orderId then none
      else (now.state.orders[name]?).bind
        (Applying.lessened (Applying.takenBy (makersOf U registry result.trades) name)) := by
  have legs : now.consumeMakerFills fills = now.reduceAll (makersOf U registry result.trades) := by
    rw [Applying.consumeMakerFills_eq, ← report.makers]
    rfl
  unfold Applying.consume
  rw [Applying.getElem?_removeOrders, legs, Applying.getElem?_reduceAll (shows'.tracksOpen standing)]

/-- A match takes from the aggregate what it takes from the leaf. -/
theorem Shows.matched (shows' : Shows registry orders now.state) (standing : Standing orders)
    (apart : registry.VenueIdsApart) (known : ∀ order ∈ orders, nameOf registry order.id ≠ none)
    (consumes : Consumes orders owner active result kept)
    (gone : ∀ id, id ∈ removed ↔ id ∈ idsOf orders ∧ id ∉ idsOf kept)
    (report : MatchReport U registry result removed fills stpCancelled) :
    Shows (registry.removeAll removed) kept (now.consume fills stpCancelled).state where
  tracked := by
    intro name tracked
    have takes : ∀ order ∈ orders, nameOf registry order.id = some name →
        Applying.takenBy (makersOf U registry result.trades) name = result.takenFrom order.id := by
      intro order _ named
      refine takenBy_makersOf apart (fun trade member => ?_) named
      obtain ⟨maker, listed, same⟩ := mem_idsOf.1 (consumes.makers trade member)
      rw [← same]
      exact known maker listed
    rw [getElem?_consume shows' standing report]
    constructor
    · intro present
      split at present
      · cases present
      next spared =>
        obtain ⟨before, found, less⟩ := Option.bind_eq_some_iff.1 present
        obtain ⟨order, member, named, rfl⟩ := (shows'.tracked name before).1 found
        rw [takes order member named] at less
        unfold Applying.lessened at less
        split at less
        · cases less
        next more =>
          change ¬ order.visibleQuantity ≤ _ at more
          -- an order that is used up has nothing left, and one that is swept is reported, so this one is kept
          have stays : order.id ∈ idsOf kept := by
            by_contra absent
            by_cases used : order.id ∈ result.filledOrderIds
            · obtain ⟨-, old, listed, same, taken⟩ := consumes.filled order.id used
              obtain rfl := standing.unique listed member same
              omega
            · exact spared ((mem_sweptNames report).2
                ⟨order.id, (gone order.id).2 ⟨mem_idsOf.2 ⟨order, member, rfl⟩, absent⟩, used, named⟩)
          obtain ⟨left, there, same⟩ := mem_idsOf.1 stays
          obtain ⟨positive, old, listed, shape, amount⟩ := consumes.left left there
          have equal : old.id = order.id := by rw [← same, shape]
          obtain rfl := standing.unique listed member equal
          have unremoved : left.id ∉ removed := fun taken => ((gone left.id).1 taken).2 (same ▸ stays)
          refine ⟨left, there, by rw [nameOf_removeAll, if_neg unremoved, same, named], ?_⟩
          obtain rfl := Option.some.inj less
          have quantity : left.visibleQuantity = old.visibleQuantity - result.takenFrom old.id := by omega
          rw [shape, quantity]
          rfl
    · rintro ⟨left, there, named, rfl⟩
      obtain ⟨positive, old, listed, shape, amount⟩ := consumes.left left there
      have same : left.id = old.id := by rw [shape]
      rw [nameOf_removeAll] at named
      split at named
      · cases named
      next unremoved =>
        rw [same] at named
        have spared : name ∉ stpCancelled.map CancelledLeg.orderId := by
          intro swept
          obtain ⟨id, taken, -, called⟩ := (mem_sweptNames report).1 swept
          obtain rfl := nameOf_inj apart called named
          exact unremoved (same ▸ taken)
        rw [if_neg spared, (shows'.tracked name (shown old)).2 ⟨old, listed, named, rfl⟩, Option.bind_some,
          takes old listed named]
        have more : ¬ (shown old).remaining ≤ result.takenFrom old.id := by
          change ¬ old.visibleQuantity ≤ _
          omega
        have quantity : left.visibleQuantity = old.visibleQuantity - result.takenFrom old.id := by omega
        unfold Applying.lessened
        rw [if_neg more, shape, quantity]
        rfl
  balanced := by
    unfold Applying.consume
    rw [Applying.consumeMakerFills_eq]
    exact Applying.Balanced.removeOrders (Applying.Balanced.reduceAll shows'.balanced _) _

end Matched

/-- An order that comes to rest in the leaf comes to rest in the aggregate. -/
theorem Shows.rested (shows' : Shows registry orders now.state) {order : BookOrder} {record : RestingRecord}
    (unlisted : order.id ∉ idsOf orders) (unnamed : ∀ id, nameOf registry id ≠ some record.venueOrderId)
    (left : 0 < order.visibleQuantity)
    (room : now.state.levels.qtyAt (bookSide order.side) order.price + order.visibleQuantity ≤ u64Max) :
    Shows (registry.registerResting order.id record) (orders ++ [order])
      (now.restOrder record.venueOrderId (bookSide order.side) order.price order.visibleQuantity).state where
  tracked := by
    intro name tracked
    have orders' : (now.restOrder record.venueOrderId (bookSide order.side) order.price
        order.visibleQuantity).state.orders = now.state.orders.insert record.venueOrderId (shown order) := by
      unfold Applying.restOrder
      rw [if_neg (by omega)]
      rfl
    have old : ∀ other ∈ orders, nameOf (registry.registerResting order.id record) other.id = nameOf registry other.id := by
      intro other member
      rw [nameOf_registerResting, if_neg]
      intro same
      exact unlisted (mem_idsOf.2 ⟨other, member, same.symm⟩)
    rw [orders', Std.ExtTreeMap.getElem?_insert]
    simp only [Std.LawfulEqCmp.compare_eq_iff_eq]
    constructor
    · intro present
      split at present
      next same =>
        obtain rfl := Option.some.inj present
        refine ⟨order, by simp, ?_, rfl⟩
        rw [nameOf_registerResting, if_pos rfl, same]
      next =>
        obtain ⟨other, member, named, rest⟩ := (shows'.tracked name tracked).1 present
        exact ⟨other, List.mem_append_left _ member, (old other member).trans named, rest⟩
    · rintro ⟨other, member, named, rfl⟩
      rcases List.mem_append.1 member with before | new
      · rw [old other before] at named
        rw [if_neg, (shows'.tracked name (shown other)).2 ⟨other, before, named, rfl⟩]
        rintro rfl
        exact unnamed _ named
      · obtain rfl := List.mem_singleton.1 new
        rw [nameOf_registerResting, if_pos rfl] at named
        rw [if_pos (Option.some.inj named)]
  balanced := by
    refine Applying.Balanced.restOrder shows'.balanced ?_ room
    by_contra present
    obtain ⟨tracked, found⟩ := Option.ne_none_iff_exists'.1 present
    obtain ⟨other, -, named, -⟩ := (shows'.tracked _ tracked).1 found
    exact unnamed _ named

end Moved

end Fauxchange.MarketData
