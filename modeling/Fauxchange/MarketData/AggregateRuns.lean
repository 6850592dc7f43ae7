import Mathlib.Algebra.Order.BigOperators.Group.List
import Fauxchange.MarketData.Aggregate
import Fauxchange.MarketData.Deltas

/-! The aggregate over whole runs: an event takes from the orders that it names and then rests at most one, so that the
levels stay the sums of the tracked orders and the reported levels are the touched ones. -/

namespace Fauxchange.MarketData
open Lib Exchange

/-- An order that an event names, with the quantity taken from it; without a quantity it is removed. -/
abbrev Take := VenueOrderId × Option Nat

def makerTakes (fills : List Fill) : List Take :=
  (fills.filter fun fill => fill.liquidity = .maker).map fun fill => (fill.orderId, some fill.quantity)

def removals (ids : List VenueOrderId) : List Take := ids.map fun id => (id, none)

def consumeTakes (fills : List Fill) (stpCancelled : List CancelledLeg) : List Take :=
  makerTakes fills ++ removals (stpCancelled.map CancelledLeg.orderId)

def replacedTakes (command : VenueCommand) (cancelled : Bool) : List Take :=
  match command with
  | .replace order => if cancelled then removals [order.orderId] else []
  | _ => []

/-- The orders that an event names, in its order. -/
def takesOf (command : VenueCommand) : VenueOutcome → List Take
  | .added fills _ stpCancelled | .market fills _ stpCancelled => consumeTakes fills stpCancelled
  | .cancelled orderId => removals [orderId]
  | .replace cancelled (.filled fills stpCancelled) | .replace cancelled (.rested fills _ stpCancelled) =>
    replacedTakes command cancelled ++ consumeTakes fills stpCancelled
  | .replace cancelled (.rejected ..) => replacedTakes command cancelled
  | .massCancelled affected => removals (affected.map CancelledLeg.orderId)
  | .controlApplied swept => removals (swept.map CancelledLeg.orderId)
  | .evicted evicted => removals evicted
  | .instrumentStatusChanged .. | .rejected .. | .duplicate .. => []

/-- The order that an event brings to rest. -/
def restedBy (command : VenueCommand) (outcome : VenueOutcome) : Option (VenueOrderId × RestingOrder) :=
  match outcome, command with
  | .added _ qty _, .addOrder order =>
    if 0 < qty then order.limitPrice.map fun price => (order.orderId, ⟨bookSide order.side, price, qty⟩) else none
  | .replace _ (.rested _ qty _), .replace order =>
    if 0 < qty then order.limitPrice.map fun price => (order.newOrderId, ⟨bookSide order.side, price, qty⟩) else none
  | _, _ => none

namespace Applying
variable {now : Applying} {command : VenueCommand} {outcome : VenueOutcome}

def take (now : Applying) : Take → Applying
  | (id, some qty) => now.reduceOrder id qty
  | (id, none) => now.removeOrder id

def takeAll (now : Applying) (takes : List Take) : Applying := takes.foldl take now

def rest (now : Applying) : Option (VenueOrderId × RestingOrder) → Applying
  | some (id, order) => now.restOrder id order.side order.price order.remaining
  | none => now

theorem takeAll_append (first second : List Take) :
    now.takeAll (first ++ second) = (now.takeAll first).takeAll second :=
  List.foldl_append

theorem removeOrders_eq (ids : List VenueOrderId) : now.removeOrders ids = now.takeAll (removals ids) := by
  unfold removeOrders takeAll removals
  rw [List.foldl_map]
  rfl

theorem consumeMakerFills_takes (fills : List Fill) : now.consumeMakerFills fills = now.takeAll (makerTakes fills) := by
  rw [consumeMakerFills_eq]
  unfold reduceAll takeAll makerTakes
  rw [List.foldl_map, List.foldl_map]
  rfl

theorem consume_eq (fills : List Fill) (stpCancelled : List CancelledLeg) :
    now.consume fills stpCancelled = now.takeAll (consumeTakes fills stpCancelled) := by
  unfold consume consumeTakes
  rw [takeAll_append, consumeMakerFills_takes, removeOrders_eq]

theorem removeReplaced_eq (cancelled : Bool) :
    now.removeReplaced command cancelled = now.takeAll (replacedTakes command cancelled) := by
  cases command with
  | replace order =>
    unfold removeReplaced replacedTakes
    cases cancelled <;> rfl
  | _ => rfl

theorem restAdded_eq (fills : List Fill) (qty : Nat) (stpCancelled : List CancelledLeg) :
    (if 0 < qty then now.restAdded command qty else now) = now.rest (restedBy command (.added fills qty stpCancelled)) := by
  cases command with
  | addOrder order =>
    simp only [restAdded, restedBy]
    split
    · cases order.limitPrice <;> rfl
    · rfl
  | _ => exact ite_self now

theorem restReplacement_eq (cancelled : Bool) (fills : List Fill) (qty : Nat) (stpCancelled : List CancelledLeg) :
    (if 0 < qty then now.restReplacement command qty else now) =
      now.rest (restedBy command (.replace cancelled (.rested fills qty stpCancelled))) := by
  cases command with
  | replace order =>
    simp only [restReplacement, restedBy]
    split
    · cases order.limitPrice <;> rfl
    · rfl
  | _ => exact ite_self now

/-- Every outcome takes from the orders it names and rests what is left of the new one. -/
theorem outcome_eq : now.outcome command outcome = (now.takeAll (takesOf command outcome)).rest (restedBy command outcome) := by
  cases outcome with
  | added fills qty stpCancelled =>
    simp only [Applying.outcome, takesOf, consume_eq]
    exact restAdded_eq fills qty stpCancelled
  | market fills unfilled stpCancelled => exact consume_eq fills stpCancelled
  | replace cancelled add =>
    cases add with
    | filled fills stpCancelled =>
      simp only [Applying.outcome, takesOf, consume_eq, removeReplaced_eq, takeAll_append]
      rfl
    | rested fills qty stpCancelled =>
      simp only [Applying.outcome, takesOf, consume_eq, removeReplaced_eq, takeAll_append]
      exact restReplacement_eq cancelled fills qty stpCancelled
    | rejected kind reason => exact removeReplaced_eq cancelled
  | massCancelled affected => exact removeOrders_eq _
  | controlApplied swept => exact removeOrders_eq _
  | evicted evicted => exact removeOrders_eq _
  | _ => rfl

theorem mem_touched_write {side : BookSide} {price : Nat} {level : Std.ExtTreeMap Nat Nat} {key : Bool × Nat} :
    key ∈ (now.write side price level).touched ↔ key ∈ now.touched ∨ key = (side.isAsk, price) := by
  unfold write touch
  rw [Std.ExtTreeMap.mem_insert, pairCompare_eq_iff, or_comm, eq_comm]

/-- A level at which a tracked order stands that an event names. -/
def Names (now : Applying) (takes : List Take) (key : Bool × Nat) : Prop :=
  ∃ take ∈ takes, ∃ order, now.state.orders[take.1]? = some order ∧ key = (order.side.isAsk, order.price)

section Taking
variable {named : Take} {takes : List Take} {id : VenueOrderId} {order : RestingOrder}

theorem take_absent (absent : now.state.orders[named.1]? = none) : now.take named = now := by
  obtain ⟨id, _ | qty⟩ := named <;> simp only [take, removeOrder, reduceOrder, absent]

theorem mem_touched_take {key : Bool × Nat} : key ∈ (now.take named).touched ↔ key ∈ now.touched ∨ now.Names [named] key := by
  unfold Names
  simp only [List.mem_singleton, exists_eq_left]
  cases present : now.state.orders[named.1]? with
  | none =>
    rw [take_absent present]
    simp
  | some order =>
    simp only [Option.some.injEq, exists_eq_left']
    obtain ⟨id, _ | qty⟩ := named <;> simp only [take, removeOrder, reduceOrder, present] <;> exact mem_touched_write

theorem getElem?_take_of_ne (apart : id ≠ named.1) : (now.take named).state.orders[id]? = now.state.orders[id]? := by
  obtain ⟨name, _ | qty⟩ := named
  · simp only [take]
    rw [orders_removeOrder]
    simp [Std.ExtTreeMap.getElem?_erase, Ne.symm apart]
  · cases present : now.state.orders[name]? with
    | none => rw [take_absent present]
    | some order =>
      simp only [take]
      rw [orders_reduceOrder present]
      unfold reduced
      split
      · simp [Std.ExtTreeMap.getElem?_erase, Ne.symm apart]
      · simp [Std.ExtTreeMap.getElem?_insert, Ne.symm apart]

/-- An order keeps its level for as long as it is tracked. -/
theorem take_level (left : (now.take named).state.orders[id]? = some order) :
    ∃ before, now.state.orders[id]? = some before ∧ before.side = order.side ∧ before.price = order.price := by
  by_cases same : id = named.1
  · subst same
    cases present : now.state.orders[named.1]? with
    | none =>
      rw [take_absent present, present] at left
      cases left
    | some before =>
      refine ⟨before, rfl, ?_⟩
      obtain ⟨name, _ | qty⟩ := named
      · simp only [take] at left
        rw [orders_removeOrder] at left
        simp at left
      · simp only [take] at left
        rw [orders_reduceOrder present] at left
        unfold reduced at left
        split at left
        · simp at left
        · rw [Std.ExtTreeMap.getElem?_insert_self] at left
          cases left
          exact ⟨rfl, rfl⟩
  · rw [getElem?_take_of_ne same] at left
    exact ⟨order, left, rfl, rfl⟩

/-- Exactly the levels of the named orders are touched. -/
theorem mem_touched_takeAll {key : Bool × Nat} : key ∈ (now.takeAll takes).touched ↔ key ∈ now.touched ∨ now.Names takes key := by
  induction takes generalizing now with
  | nil => exact ⟨.inl, fun either => either.elim id nofun⟩
  | cons first rest ih =>
    refine ih.trans ?_
    rw [mem_touched_take, or_assoc]
    refine or_congr_right ⟨?_, ?_⟩
    · rintro (⟨take, member, found⟩ | ⟨take, member, order, left, rfl⟩)
      · obtain rfl := List.mem_singleton.1 member
        exact ⟨take, List.mem_cons_self, found⟩
      · obtain ⟨before, present, side, price⟩ := take_level left
        exact ⟨take, List.mem_cons_of_mem _ member, before, present, by rw [side, price]⟩
    · rintro ⟨take, member, order, present, rfl⟩
      by_cases same : take.1 = first.1
      · exact .inl ⟨first, List.mem_singleton.2 rfl, order, by rw [← same, present], rfl⟩
      · rcases List.mem_cons.1 member with rfl | later
        · exact absurd rfl same
        · exact .inr ⟨take, later, order, by rw [getElem?_take_of_ne same, present], rfl⟩

def remainingOf (_ : VenueOrderId) (order : RestingOrder) : Nat := order.remaining

/-- The quantity of all tracked orders. -/
def tracked (orders : Std.ExtTreeMap VenueOrderId RestingOrder) : Nat := mapSum remainingOf orders

/-- What holds of the tracked orders after some are taken from. -/
structure Shrinks (before after : Applying) : Prop where
  balanced : before.state.Balanced → after.state.Balanced
  tracksOpen : before.TracksOpen → after.TracksOpen
  total : tracked after.state.orders ≤ tracked before.state.orders
  absent : ∀ id : VenueOrderId, before.state.orders[id]? = none → after.state.orders[id]? = none

theorem Shrinks.refl (now : Applying) : Shrinks now now := ⟨id, id, Nat.le_refl _, fun _ => id⟩

theorem Shrinks.trans {first second third : Applying} (one : Shrinks first second) (two : Shrinks second third) :
    Shrinks first third :=
  ⟨two.balanced ∘ one.balanced, two.tracksOpen ∘ one.tracksOpen, Nat.le_trans two.total one.total,
    fun id none => two.absent id (one.absent id none)⟩

theorem tracked_reduced (present : now.state.orders[id]? = some order) (qty : Nat) :
    tracked (reduced now.state.orders id order qty) ≤ tracked now.state.orders := by
  have here : weightAt remainingOf now.state.orders id = order.remaining := by
    rw [weightAt, present]
    rfl
  unfold reduced tracked
  split
  · have erased := mapSum_erase remainingOf now.state.orders id
    omega
  · have written := mapSum_insert remainingOf now.state.orders id
      { order with remaining := order.remaining - qty }
    have less : remainingOf id { order with remaining := order.remaining - qty } ≤ order.remaining := Nat.sub_le _ _
    omega

theorem shrinks_take (now : Applying) (named : Take) : Shrinks now (now.take named) where
  balanced := by
    intro balanced
    obtain ⟨id, _ | qty⟩ := named
    · exact Balanced.removeOrder balanced
    · exact Balanced.reduceOrder balanced qty
  tracksOpen := by
    intro tracksOpen id order left
    obtain ⟨name, _ | qty⟩ := named
    · simp only [take] at left
      rw [orders_removeOrder, Std.ExtTreeMap.getElem?_erase] at left
      split at left
      · cases left
      · exact tracksOpen id order left
    · simp only [take] at left
      rw [getElem?_reduceOrder tracksOpen] at left
      obtain ⟨before, -, less⟩ := Option.bind_eq_some_iff.1 left
      exact lessened_open less
  total := by
    obtain ⟨id, _ | qty⟩ := named
    · have erased := mapSum_erase remainingOf now.state.orders id
      simp only [take, tracked]
      rw [orders_removeOrder]
      omega
    · cases present : now.state.orders[id]? with
      | none => rw [take_absent present]
      | some order =>
        simp only [take]
        rw [orders_reduceOrder present]
        exact tracked_reduced present qty
  absent := by
    intro id none
    cases left : (now.take named).state.orders[id]? with
    | none => rfl
    | some order =>
      obtain ⟨before, present, -⟩ := take_level left
      rw [none] at present
      cases present

theorem shrinks_takeAll (now : Applying) (takes : List Take) : Shrinks now (now.takeAll takes) := by
  induction takes generalizing now with
  | nil => exact .refl now
  | cons first rest ih => exact (shrinks_take now first).trans (ih _)

end Taking

section Resting
variable {id : VenueOrderId} {order : RestingOrder}

/-- A level holds no more than all tracked orders. -/
theorem qtyAt_le_tracked (balanced : now.state.Balanced) (side : BookSide) (price : Nat) :
    now.state.levels.qtyAt side price ≤ tracked now.state.orders := by
  rw [balanced side price]
  unfold tracked mapSum
  apply List.sum_le_sum
  intro entry member
  unfold levelShare remainingOf
  split
  · exact Nat.le_refl _
  · exact Nat.zero_le _

theorem tracked_rest (fresh : now.state.orders[id]? = none) :
    tracked (now.rest (some (id, order))).state.orders = tracked now.state.orders + order.remaining := by
  have written := mapSum_insert remainingOf now.state.orders id order
  rw [weightAt, fresh] at written
  simp only [rest]
  unfold restOrder
  split
  next none =>
    omega
  next some =>
    unfold tracked
    rw [orders_write]
    change mapSum _ (now.state.orders.insert id order) = _
    have nothing : (Option.map (remainingOf id) none).getD 0 = 0 := rfl
    have whole : remainingOf id order = order.remaining := rfl
    omega

theorem getElem?_rest_of_ne {other : VenueOrderId} (apart : other ≠ id) :
    (now.rest (some (id, order))).state.orders[other]? = now.state.orders[other]? := by
  simp only [rest]
  unfold restOrder
  split
  · rfl
  · rw [orders_write]
    simp [setOrders, Std.ExtTreeMap.getElem?_insert, Ne.symm apart]

theorem tracksOpen_rest (tracksOpen : now.TracksOpen) : (now.rest (some (id, order))).TracksOpen := by
  intro other found present
  simp only [rest] at present
  unfold restOrder at present
  split at present
  · exact tracksOpen other found present
  next positive =>
    rw [orders_write] at present
    change (now.state.orders.insert id _)[other]? = some found at present
    rw [Std.ExtTreeMap.getElem?_insert] at present
    split at present
    · cases present
      dsimp only
      omega
    · exact tracksOpen other found present

end Resting

end Applying

theorem BookSide.isAsk_inj {side other : BookSide} (same : side.isAsk = other.isAsk) : side = other := by
  rw [← BookSide.ofIsAsk_isAsk side, same, BookSide.ofIsAsk_isAsk]

theorem key_eq_iff {side other : BookSide} {price next : Nat} :
    (side.isAsk, price) = (other.isAsk, next) ↔ other = side ∧ next = price := by
  rw [Prod.mk.injEq]
  constructor
  · rintro ⟨same, rfl⟩
    exact ⟨(BookSide.isAsk_inj same).symm, rfl⟩
  · rintro ⟨rfl, rfl⟩
    exact ⟨rfl, rfl⟩

namespace InstrumentState

/-- The orders that events bring to rest. -/
def rested (events : List (VenueCommand × VenueOutcome)) : List (VenueOrderId × RestingOrder) :=
  events.filterMap fun event => restedBy event.1 event.2

/-- The aggregate after events. -/
def applyAll (state : InstrumentState) (events : List (VenueCommand × VenueOutcome)) : InstrumentState :=
  events.foldl (fun state event => (state.apply event.1 event.2).2) state

/-- Every level is the sum of the orders tracked at it, no level is zero, and no order has nothing remaining. -/
structure Sound (state : InstrumentState) : Prop where
  balanced : state.Balanced
  openLevels : state.levels.Open
  openOrders : ∀ (id : VenueOrderId) (order : RestingOrder), state.orders[id]? = some order → 0 < order.remaining

/-- An event touches the levels of the tracked orders that it names, and the one at which it rests an order. -/
def Touches (state : InstrumentState) (command : VenueCommand) (outcome : VenueOutcome) (side : BookSide) (price : Nat) :
    Prop :=
  (∃ take ∈ takesOf command outcome, ∃ order : RestingOrder, state.orders[take.1]? = some order ∧ order.side = side ∧
    order.price = price) ∨
    ∃ rested, restedBy command outcome = some rested ∧ rested.2.side = side ∧ rested.2.price = price

/-- Bids before asks, and each side by ascending price. -/
def Precedes (change later : PriceLevelChange) : Prop :=
  change.side = .bid ∧ later.side = .ask ∨ change.side = later.side ∧ change.price < later.price

/-- An event reports the touched levels once each, in order, with the quantities they end at. -/
structure Reports (state : InstrumentState) (command : VenueCommand) (outcome : VenueOutcome) : Prop where
  sorted : (state.apply command outcome).1.Pairwise Precedes
  touched : ∀ side price quantity, ⟨side, price, quantity⟩ ∈ (state.apply command outcome).1 ↔
    state.Touches command outcome side price ∧
      quantity = (state.apply command outcome).2.levels.qtyAt side price
  changed : ∀ side price,
    (state.apply command outcome).2.levels.qtyAt side price ≠ state.levels.qtyAt side price →
      state.Touches command outcome side price

variable {state : InstrumentState} {command : VenueCommand} {outcome : VenueOutcome}
  {events : List (VenueCommand × VenueOutcome)}

theorem restedBy_positive {rested : VenueOrderId × RestingOrder} (rests : restedBy command outcome = some rested) :
    0 < rested.2.remaining := by
  unfold restedBy at rests
  split at rests
  case h_3 => cases rests
  all_goals
    split at rests
    next positive =>
      obtain ⟨price, -, rfl⟩ := Option.map_eq_some_iff.1 rests
      exact positive
    next => cases rests

/-- The keys of an event are the levels it touches. -/
theorem mem_touched_applying {side : BookSide} {price : Nat} :
    (side.isAsk, price) ∈ (state.applying command outcome).touched ↔ state.Touches command outcome side price := by
  have start : (side.isAsk, price) ∉ (⟨state, ∅⟩ : Applying).touched := Std.ExtTreeMap.not_mem_empty
  have taken : (side.isAsk, price) ∈ ((⟨state, ∅⟩ : Applying).takeAll (takesOf command outcome)).touched ↔
      ∃ take ∈ takesOf command outcome, ∃ order : RestingOrder, state.orders[take.1]? = some order ∧ order.side = side ∧
        order.price = price := by
    rw [Applying.mem_touched_takeAll, or_iff_right start]
    simp only [Applying.Names, key_eq_iff]
  unfold applying Touches
  rw [Applying.outcome_eq, ← taken]
  cases rests : restedBy command outcome with
  | none => simp [Applying.rest]
  | some rested =>
    have positive := restedBy_positive rests
    simp only [Applying.rest, Option.some.injEq, exists_eq_left']
    unfold Applying.restOrder
    rw [if_neg (by omega), Applying.mem_touched_write, key_eq_iff]
    rfl

theorem precedes_of_lt {left right : Bool × Nat} {quantity later : Nat} (less : pairCompare left right = .lt) :
    Precedes ⟨.ofIsAsk left.1, left.2, quantity⟩ ⟨.ofIsAsk right.1, right.2, later⟩ := by
  obtain ⟨side, price⟩ := left
  obtain ⟨other, next⟩ := right
  have order : (compare side other).then (compare price next) = .lt := less
  unfold Precedes
  cases side <;> cases other
  · exact .inr ⟨rfl, Nat.compare_eq_lt.1 order⟩
  · exact .inl ⟨rfl, rfl⟩
  · cases order
  · exact .inr ⟨rfl, Nat.compare_eq_lt.1 order⟩

theorem apply_reports (state : InstrumentState) (command : VenueCommand) (outcome : VenueOutcome) :
    state.Reports command outcome where
  sorted := by
    unfold apply Applying.changes
    rw [List.pairwise_map]
    exact Std.ExtTreeMap.ordered_keys.imp precedes_of_lt
  touched := by
    intro side price quantity
    rw [← mem_touched_applying, ← Std.ExtTreeMap.mem_keys]
    unfold apply Applying.changes
    rw [List.mem_map]
    constructor
    · rintro ⟨key, member, same⟩
      cases same
      rw [show (BookSide.ofIsAsk key.1).isAsk = key.1 by cases key.1 <;> rfl]
      exact ⟨member, rfl⟩
    · rintro ⟨member, rfl⟩
      exact ⟨_, member, by simp⟩
  changed := by
    intro side price moved
    by_contra untouched
    rw [← mem_touched_applying] at untouched
    have same := (Applying.frames_outcome ⟨state, ∅⟩ command outcome).outside side price untouched
    exact moved (congrArg (Option.getD · 0) same)

/-- What holds of the aggregate against the orders that came to rest so far. -/
structure Accounted (state : InstrumentState) (rested : List (VenueOrderId × RestingOrder)) : Prop where
  sound : state.Sound
  total : Applying.tracked state.orders ≤ (rested.map fun entry => entry.2.remaining).sum
  absent : ∀ id, id ∉ rested.map Prod.fst → state.orders[id]? = none

theorem accounted_new : Accounted new [] := by
  refine ⟨⟨balanced_new, Levels.open_empty, ?_⟩, ?_, ?_⟩
  · intro id order present
    cases present
  · exact Nat.le_of_eq (mapSum_empty _)
  · exact fun _ _ => rfl

/-- An event keeps the account, unless it rests an order twice or too much. -/
theorem Accounted.apply {orders : List (VenueOrderId × RestingOrder)} (accounted : state.Accounted orders)
    (distinct : ((orders ++ (restedBy command outcome).toList).map Prod.fst).Nodup)
    (fits : ((orders ++ (restedBy command outcome).toList).map fun entry => entry.2.remaining).sum ≤ u64Max) :
    (state.apply command outcome).2.Accounted (orders ++ (restedBy command outcome).toList) := by
  have shrinks := Applying.shrinks_takeAll ⟨state, ∅⟩ (takesOf command outcome)
  have balanced := shrinks.balanced accounted.sound.balanced
  have tracksOpen := shrinks.tracksOpen accounted.sound.openOrders
  have total := Nat.le_trans shrinks.total accounted.total
  have openLevels := apply_open state command outcome accounted.sound.openLevels
  have absent (id : VenueOrderId) (none : id ∉ orders.map Prod.fst) := shrinks.absent id (accounted.absent id none)
  unfold InstrumentState.apply applying at openLevels ⊢
  rw [Applying.outcome_eq] at openLevels ⊢
  cases rests : restedBy command outcome with
  | none =>
    rw [rests] at openLevels
    rw [Option.toList_none, List.append_nil]
    exact ⟨⟨balanced, openLevels, tracksOpen⟩, total, absent⟩
  | some rested =>
    obtain ⟨id, order⟩ := rested
    rw [rests] at openLevels distinct fits
    rw [Option.toList_some, List.map_append, List.nodup_append] at distinct
    rw [Option.toList_some, List.map_append, List.sum_append] at fits
    rw [Option.toList_some]
    have fresh := absent id fun member => distinct.2.2 id member id List.mem_cons_self rfl
    have level := Applying.qtyAt_le_tracked balanced order.side order.price
    refine ⟨⟨?_, openLevels, Applying.tracksOpen_rest tracksOpen⟩, ?_, ?_⟩
    · apply Applying.Balanced.restOrder balanced fresh
      simp only [List.map_cons, List.map_nil, List.sum_cons, List.sum_nil] at fits
      omega
    · rw [Applying.tracked_rest fresh, List.map_append, List.sum_append]
      simp only [List.map_cons, List.map_nil, List.sum_cons, List.sum_nil]
      omega
    · intro other unlisted
      rw [List.map_append, List.mem_append, not_or] at unlisted
      have apart : other ≠ id := fun same => unlisted.2 (List.mem_singleton.2 same)
      rw [Applying.getElem?_rest_of_ne apart]
      exact absent other unlisted.1

theorem accounted_applyAll (distinct : ((rested events).map Prod.fst).Nodup)
    (fits : ((rested events).map fun entry => entry.2.remaining).sum ≤ u64Max) :
    (new.applyAll events).Accounted (rested events) := by
  induction events using List.reverseRecOn with
  | nil => exact accounted_new
  | append_singleton before event ih =>
    have parts : rested (before ++ [event]) = rested before ++ (restedBy event.1 event.2).toList := by
      unfold rested
      rw [List.filterMap_append, List.filterMap_cons, List.filterMap_nil]
      cases restedBy event.1 event.2 <;> rfl
    have last : new.applyAll (before ++ [event]) = ((new.applyAll before).apply event.1 event.2).2 := List.foldl_concat _ _ _ _
    rw [parts] at distinct fits ⊢
    rw [last]
    refine (ih ?_ ?_).apply distinct fits
    · rw [List.map_append] at distinct
      exact distinct.of_append_left
    · rw [List.map_append, List.sum_append] at fits
      omega

/-- The aggregate stays sound over every run that rests no id twice and fits in `u64`, and reports every event exactly. -/
theorem applyAll_exact (distinct : ((rested events).map Prod.fst).Nodup)
    (fits : ((rested events).map fun entry => entry.2.remaining).sum ≤ u64Max) :
    (new.applyAll events).Sound ∧ ∀ command outcome, (new.applyAll events).Reports command outcome :=
  ⟨(accounted_applyAll distinct fits).sound, apply_reports _⟩

/-- Two bids of one level, and the cancel of the first. -/
def restedEvents : List (VenueCommand × VenueOutcome) :=
  [(.addOrder ⟨"BTC-20351231-50000-C", "a", "acct-1", 7, none, .buy, .limit, some 100, 5, .gtc, .none⟩, .added [] 5 []),
    (.addOrder ⟨"BTC-20351231-50000-C", "b", "acct-2", 8, none, .buy, .limit, some 100, 3, .gtc, .none⟩, .added [] 3 []),
    (.cancelOrder "BTC-20351231-50000-C" "a" "acct-1", .cancelled "a")]

theorem restedEvents_exact :
    (new.applyAll restedEvents).Sound ∧ ∀ command outcome, (new.applyAll restedEvents).Reports command outcome :=
  applyAll_exact (by decide) (by decide)

end InstrumentState

end Fauxchange.MarketData
