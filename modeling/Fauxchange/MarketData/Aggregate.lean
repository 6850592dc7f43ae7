import Fauxchange.Lib.MapSum
import Fauxchange.MarketData.Subscription

/-! The aggregate of one instrument: every level is the sum of the orders it tracks, and what an event does to these
orders. -/

namespace Fauxchange.MarketData
open Lib Exchange

/-- What a tracked order gives to a level. -/
def levelShare (side : BookSide) (price : Nat) (_ : VenueOrderId) (order : RestingOrder) : Nat :=
  if order.side = side ∧ order.price = price then order.remaining else 0

theorem levelShare_here (id : VenueOrderId) (order : RestingOrder) :
    levelShare order.side order.price id order = order.remaining :=
  if_pos ⟨rfl, rfl⟩

theorem levelShare_elsewhere {side : BookSide} {price : Nat} (id : VenueOrderId) {order : RestingOrder}
    (away : ¬ (side = order.side ∧ price = order.price)) : levelShare side price id order = 0 :=
  if_neg fun both => away ⟨both.1.symm, both.2.symm⟩

/-- The levels of an aggregate are the sums of its tracked orders. -/
def InstrumentState.Balanced (state : InstrumentState) : Prop :=
  ∀ side price, state.levels.qtyAt side price = mapSum (levelShare side price) state.orders

theorem balanced_new : InstrumentState.new.Balanced := by
  intro side price
  rw [show InstrumentState.new.orders = ∅ from rfl, mapSum_empty]
  cases side <;> simp [InstrumentState.new, Levels.empty, Levels.qtyAt, Levels.level]

namespace Applying
variable {now : Applying} {id : VenueOrderId} {order : RestingOrder} {side other : BookSide} {price at' : Nat}

theorem qtyAt_write (level : Std.ExtTreeMap Nat Nat)
    (elsewhere : ∀ other, other ≠ price → level[other]? = (now.state.levels.level side)[other]?) :
    (now.write side price level).state.levels.qtyAt other at' =
      if other = side ∧ at' = price then level[price]?.getD 0 else now.state.levels.qtyAt other at' := by
  unfold write Levels.qtyAt
  by_cases same : other = side
  · subst same
    rw [Levels.level_setLevel_self]
    by_cases here : at' = price
    · rw [here, if_pos ⟨rfl, rfl⟩]
    · rw [if_neg fun both => here both.2, elsewhere at' here]
  · rw [Levels.level_setLevel_of_ne _ same, if_neg fun both => same both.1]

theorem qtyAt_reduceLevel (amount : Nat) :
    (now.reduceLevel side price amount).state.levels.qtyAt other at' =
      if other = side ∧ at' = price then now.state.levels.qtyAt side price - amount
      else now.state.levels.qtyAt other at' := by
  unfold reduceLevel
  rw [qtyAt_write]
  · refine ite_congr rfl (fun _ => ?_) (fun _ => rfl)
    unfold Levels.qtyAt
    cases present : (now.state.levels.level side)[price]? with
    | none =>
      dsimp only
      rw [present]
      simp
    | some qty =>
      dsimp only
      split
      next gone =>
        rw [Std.ExtTreeMap.getElem?_erase_self]
        exact gone.symm
      next => simp
  · intro away apart
    split
    · rfl
    · split
      · simp [Std.ExtTreeMap.getElem?_erase, Ne.symm apart]
      · simp [Std.ExtTreeMap.getElem?_insert, Ne.symm apart]

theorem orders_write (level : Std.ExtTreeMap Nat Nat) : (now.write side price level).state.orders = now.state.orders := rfl

theorem orders_removeOrder : (now.removeOrder id).state.orders = now.state.orders.erase id := by
  unfold removeOrder
  split
  next absent => exact (erase_of_absent now.state.orders absent).symm
  next => rfl

/-- The entry of an order once some quantity is taken from it. -/
def reduced (orders : Std.ExtTreeMap VenueOrderId RestingOrder) (id : VenueOrderId) (order : RestingOrder) (qty : Nat) :
    Std.ExtTreeMap VenueOrderId RestingOrder :=
  if order.remaining - qty = 0 then orders.erase id
  else orders.insert id { order with remaining := order.remaining - qty }

theorem sub_min (left right : Nat) : right - min left right = right - left := by omega

theorem orders_reduceOrder (present : now.state.orders[id]? = some order) (qty : Nat) :
    (now.reduceOrder id qty).state.orders = reduced now.state.orders id order qty := by
  unfold reduceOrder reduced
  rw [present]
  dsimp only
  rw [sub_min]
  rfl

theorem weightAt_levelShare (present : now.state.orders[id]? = some order) :
    weightAt (levelShare side price) now.state.orders id = levelShare side price id order := by
  rw [weightAt, present]
  rfl

/-- Removing an order takes its share from its level. -/
theorem Balanced.removeOrder (balanced : now.state.Balanced) : (now.removeOrder id).state.Balanced := by
  intro side price
  have sums := mapSum_erase (levelShare side price) now.state.orders id
  rw [orders_removeOrder]
  unfold Applying.removeOrder
  cases present : now.state.orders[id]? with
  | none =>
    dsimp only
    rw [balanced, erase_of_absent now.state.orders present]
  | some order =>
    dsimp only
    rw [qtyAt_reduceLevel]
    rw [weightAt_levelShare present] at sums
    have level := balanced side price
    by_cases here : side = order.side ∧ price = order.price
    · obtain ⟨rfl, rfl⟩ := here
      rw [levelShare_here] at sums
      rw [if_pos ⟨rfl, rfl⟩]
      change now.state.levels.qtyAt order.side order.price - order.remaining = _
      omega
    · rw [levelShare_elsewhere id here] at sums
      rw [if_neg here]
      change now.state.levels.qtyAt side price = _
      omega

/-- Taking from an order takes as much from its level. -/
theorem Balanced.reduceOrder (balanced : now.state.Balanced) (qty : Nat) : (now.reduceOrder id qty).state.Balanced := by
  intro side price
  cases present : now.state.orders[id]? with
  | none =>
    unfold Applying.reduceOrder
    rw [present]
    exact balanced side price
  | some order =>
    rw [orders_reduceOrder present]
    have level := balanced side price
    have sums : mapSum (levelShare side price) (reduced now.state.orders id order qty) + levelShare side price id order =
        mapSum (levelShare side price) now.state.orders +
          levelShare side price id { order with remaining := order.remaining - qty } := by
      unfold reduced
      split
      next gone =>
        have erased := mapSum_erase (levelShare side price) now.state.orders id
        rw [weightAt_levelShare present] at erased
        have nothing : levelShare side price id { order with remaining := order.remaining - qty } = 0 := by
          unfold levelShare
          rw [gone]
          exact ite_self _
        omega
      next =>
        have written := mapSum_insert (levelShare side price) now.state.orders id
          { order with remaining := order.remaining - qty }
        rw [weightAt_levelShare present] at written
        omega
    unfold Applying.reduceOrder
    rw [present]
    dsimp only
    rw [qtyAt_reduceLevel]
    by_cases here : side = order.side ∧ price = order.price
    · obtain ⟨rfl, rfl⟩ := here
      have less := levelShare_here id { order with remaining := order.remaining - qty }
      rw [levelShare_here] at sums
      rw [if_pos ⟨rfl, rfl⟩]
      change now.state.levels.qtyAt order.side order.price - min qty order.remaining = _
      dsimp only at less
      omega
    · have less := @levelShare_elsewhere side price id { order with remaining := order.remaining - qty } here
      rw [levelShare_elsewhere id here] at sums
      rw [if_neg here]
      change now.state.levels.qtyAt side price = _
      omega

/-- An order that comes to rest under a new id adds to its level, unless that clamps. -/
theorem Balanced.restOrder (balanced : now.state.Balanced) (fresh : now.state.orders[id]? = none) {qty : Nat}
    (room : now.state.levels.qtyAt other at' + qty ≤ u64Max) : (now.restOrder id other at' qty).state.Balanced := by
  unfold Applying.restOrder
  split
  · exact balanced
  · intro side price
    have written := mapSum_insert (levelShare side price) now.state.orders id ⟨other, at', qty⟩
    rw [weightAt, fresh, Option.map_none, Option.getD_none, zero_add] at written
    rw [qtyAt_write, if_pos room]
    · rw [orders_write]
      change _ = mapSum (levelShare side price) (now.state.orders.insert id ⟨other, at', qty⟩)
      rw [written, ← balanced side price]
      unfold levelShare
      by_cases here : side = other ∧ price = at'
      · obtain ⟨rfl, rfl⟩ := here
        rw [if_pos ⟨rfl, rfl⟩, if_pos ⟨rfl, rfl⟩, Std.ExtTreeMap.getElem?_insert_self]
        rfl
      · rw [if_neg here, if_neg fun both => here ⟨both.1.symm, both.2.symm⟩]
        rfl
    · intro away apart
      change _ = (now.state.levels.level other)[away]?
      simp [Std.ExtTreeMap.getElem?_insert, Ne.symm apart]

/-- What legs take from an order. -/
def takenBy (legs : List (VenueOrderId × Nat)) (id : VenueOrderId) : Nat :=
  ((legs.filter fun leg => leg.1 = id).map Prod.snd).sum

theorem takenBy_cons (leg : VenueOrderId × Nat) (rest : List (VenueOrderId × Nat)) (id : VenueOrderId) :
    takenBy (leg :: rest) id = (if leg.1 = id then leg.2 else 0) + takenBy rest id := by
  unfold takenBy
  by_cases here : leg.1 = id
  · rw [List.filter_cons_of_pos (by simpa using here), if_pos here]
    rfl
  · rw [List.filter_cons_of_neg (by simpa using here), if_neg here, Nat.zero_add]

/-- An order less what is taken from it, if anything is left. -/
def lessened (taken : Nat) (order : RestingOrder) : Option RestingOrder :=
  if order.remaining ≤ taken then none else some { order with remaining := order.remaining - taken }

def reduceAll (now : Applying) (legs : List (VenueOrderId × Nat)) : Applying :=
  legs.foldl (fun now leg => now.reduceOrder leg.1 leg.2) now

theorem consumeMakerFills_eq (now : Applying) (fills : List Fill) :
    now.consumeMakerFills fills =
      now.reduceAll ((fills.filter fun fill => fill.liquidity = .maker).map fun fill => (fill.orderId, fill.quantity)) := by
  unfold consumeMakerFills reduceAll
  induction fills generalizing now with
  | nil => rfl
  | cons fill rest ih =>
    rw [List.foldl_cons, ih]
    by_cases maker : fill.liquidity = .maker
    · rw [if_pos maker, List.filter_cons_of_pos (by simpa using maker)]
      rfl
    · rw [if_neg maker, List.filter_cons_of_neg (by simpa using maker)]

/-- Every tracked order has a quantity left. -/
def TracksOpen (now : Applying) : Prop :=
  ∀ (id : VenueOrderId) (order : RestingOrder), now.state.orders[id]? = some order → 0 < order.remaining

theorem getElem?_reduceOrder (tracksOpen : now.TracksOpen) (qty : Nat) (other : VenueOrderId) :
    (now.reduceOrder id qty).state.orders[other]? =
      (now.state.orders[other]?).bind (lessened (if id = other then qty else 0)) := by
  have untouched : ∀ order, now.state.orders[other]? = some order → lessened 0 order = some order := by
    intro order present
    have positive := tracksOpen other order present
    unfold lessened
    rw [if_neg (by omega)]
    rfl
  have kept : (now.state.orders[other]?).bind (lessened 0) = now.state.orders[other]? := by
    cases present : now.state.orders[other]? with
    | none => rfl
    | some order => exact untouched order present
  cases present : now.state.orders[id]? with
  | none =>
    unfold reduceOrder
    rw [present]
    by_cases same : id = other
    · subst same
      rw [present]
      rfl
    · rw [if_neg same, kept]
  | some order =>
    rw [orders_reduceOrder present]
    unfold reduced
    by_cases same : id = other
    · subst same
      rw [if_pos rfl, present, Option.bind_some]
      unfold lessened
      split
      next gone =>
        rw [Std.ExtTreeMap.getElem?_erase_self, if_pos (by omega)]
      next left =>
        rw [Std.ExtTreeMap.getElem?_insert_self, if_neg (by omega)]
    · rw [if_neg same, kept]
      split
      · simp [Std.ExtTreeMap.getElem?_erase, same]
      · simp [Std.ExtTreeMap.getElem?_insert, same]

theorem lessened_open {taken : Nat} {left : RestingOrder} (some' : lessened taken order = some left) :
    0 < left.remaining := by
  unfold lessened at some'
  split at some'
  · cases some'
  next left =>
    obtain rfl := Option.some.inj some'
    dsimp only
    omega

theorem lessened_lessened (first second : Nat) (order : RestingOrder) :
    (lessened first order).bind (lessened second) = lessened (first + second) order := by
  unfold lessened
  by_cases gone : order.remaining ≤ first
  · rw [if_pos gone, if_pos (by omega)]
    rfl
  · rw [if_neg gone, Option.bind_some]
    dsimp only
    by_cases later : order.remaining ≤ first + second
    · rw [if_pos later, if_pos (by omega)]
    · rw [if_neg later, if_neg (by omega), Nat.sub_sub]

/-- The fills of a match take from every tracked order what its legs say. -/
theorem getElem?_reduceAll (tracksOpen : now.TracksOpen) (legs : List (VenueOrderId × Nat)) (other : VenueOrderId) :
    (now.reduceAll legs).state.orders[other]? = (now.state.orders[other]?).bind (lessened (takenBy legs other)) := by
  induction legs generalizing now with
  | nil =>
    cases present : now.state.orders[other]? with
    | none => exact present
    | some order =>
      have positive := tracksOpen other order present
      refine present.trans ?_
      rw [Option.bind_some, show takenBy [] other = 0 from rfl, lessened, if_neg (by omega)]
      rfl
  | cons leg rest ih =>
    have step := @getElem?_reduceOrder now leg.1 tracksOpen leg.2
    have later : (now.reduceOrder leg.1 leg.2).TracksOpen := by
      intro id order present
      rw [step] at present
      obtain ⟨before, -, left⟩ := Option.bind_eq_some_iff.1 present
      exact lessened_open left
    refine (ih later).trans ?_
    rw [step, takenBy_cons, Option.bind_assoc]
    simp only [lessened_lessened]

theorem getElem?_removeOrders (ids : List VenueOrderId) (other : VenueOrderId) :
    (now.removeOrders ids).state.orders[other]? = if other ∈ ids then none else now.state.orders[other]? := by
  induction ids generalizing now with
  | nil => rfl
  | cons id rest ih =>
    refine (@ih (now.removeOrder id)).trans ?_
    rw [orders_removeOrder]
    by_cases later : other ∈ rest
    · rw [if_pos later, if_pos (List.mem_cons_of_mem _ later)]
    · rw [if_neg later]
      by_cases same : id = other
      · subst same
        simp
      · rw [if_neg (by simp [Ne.symm same, later])]
        simp [Std.ExtTreeMap.getElem?_erase, same]

theorem Balanced.reduceAll (balanced : now.state.Balanced) (legs : List (VenueOrderId × Nat)) :
    (now.reduceAll legs).state.Balanced := by
  induction legs generalizing now with
  | nil => exact balanced
  | cons leg rest ih => exact ih (Balanced.reduceOrder balanced leg.2)

theorem Balanced.removeOrders (balanced : now.state.Balanced) (ids : List VenueOrderId) :
    (now.removeOrders ids).state.Balanced := by
  induction ids generalizing now with
  | nil => exact balanced
  | cons id rest ih => exact ih (Balanced.removeOrder balanced)

end Applying

end Fauxchange.MarketData
