import Fauxchange.Exchange.BookLaws
import Fauxchange.Exchange.ReferenceBook
import Fauxchange.Lib.KeyedEntries

/-! The reference book keeps the laws the venue relies on. -/

namespace Fauxchange.Exchange
open Lib

namespace ReferenceBook

theorem makers_perm (side : Side) (limit : Option Nat) (orders : List BookOrder) :
    (makers side limit orders).Perm (orders.filter (reaches side limit)) := by
  cases side
  · exact sortByKey_perm _ _
  · exact sortByKey_perm _ _

theorem mem_makers {side : Side} {limit : Option Nat} {orders : List BookOrder} {order : BookOrder} :
    order ∈ makers side limit orders ↔ order ∈ orders ∧ reaches side limit order = true := by
  rw [(makers_perm side limit orders).mem_iff, List.mem_filter]

theorem length_makers_le (side : Side) (limit : Option Nat) (orders : List BookOrder) :
    (makers side limit orders).length ≤ orders.length := by
  rw [(makers_perm side limit orders).length_eq]
  exact List.length_filter_le _ _

theorem nodup_makers {side : Side} {limit : Option Nat} {orders : List BookOrder}
    (distinct : (orders.map BookOrder.id).Nodup) : ((makers side limit orders).map BookOrder.id).Nodup := by
  rw [((makers_perm side limit orders).map BookOrder.id).nodup_iff]
  exact distinct.sublist (List.filter_sublist.map BookOrder.id)

/-- A taker takes from makers in turn, never more than they have. -/
theorem mem_walk {quantity : Nat} {queue : List BookOrder} {entry : BookOrder × Nat}
    (taken : entry ∈ walk quantity queue) : entry.1 ∈ queue ∧ entry.2 ≤ entry.1.visibleQuantity := by
  induction queue generalizing quantity with
  | nil => cases taken
  | cons maker rest ih =>
    unfold walk at taken
    split at taken
    · cases taken
    · rcases List.mem_cons.1 taken with rfl | later
      · exact ⟨by simp, Nat.min_le_right _ _⟩
      · exact ⟨List.mem_cons_of_mem _ (ih later).1, (ih later).2⟩

theorem walk_makers_sublist (quantity : Nat) (queue : List BookOrder) :
    ((walk quantity queue).map Prod.fst).Sublist queue := by
  induction queue generalizing quantity with
  | nil => exact List.Sublist.slnil
  | cons maker rest ih =>
    unfold walk
    split
    · exact List.nil_sublist _
    · exact (ih _).cons_cons maker

theorem filledQuantity_walk_le (quantity : Nat) (queue : List BookOrder) :
    filledQuantity (walk quantity queue) ≤ quantity := by
  induction queue generalizing quantity with
  | nil => exact Nat.zero_le _
  | cons maker rest ih =>
    unfold walk
    split
    · exact Nat.zero_le _
    · have later := ih (quantity - maker.visibleQuantity)
      simp only [filledQuantity, List.map_cons, List.sum_cons] at later ⊢
      omega

/-- A taker that is not filled has used up every maker it reaches. -/
theorem mem_walk_of_unfilled {quantity : Nat} {queue : List BookOrder}
    (unfilled : filledQuantity (walk quantity queue) < quantity) {maker : BookOrder} (reached : maker ∈ queue) :
    (maker, maker.visibleQuantity) ∈ walk quantity queue := by
  induction queue generalizing quantity with
  | nil => cases reached
  | cons first rest ih =>
    unfold walk at unfilled ⊢
    have positive : ¬ quantity = 0 := by omega
    rw [if_neg positive] at unfilled ⊢
    simp only [filledQuantity, List.map_cons, List.sum_cons] at unfilled
    have whole : min quantity first.visibleQuantity = first.visibleQuantity := by
      have later := filledQuantity_walk_le (quantity - first.visibleQuantity) rest
      omega
    rcases List.mem_cons.1 reached with rfl | later
    · rw [whole]
      simp
    · refine List.mem_cons_of_mem _ (ih ?_ later)
      rw [whole] at unfilled
      simp only [filledQuantity]
      omega

/-- What is taken, as a list of makers of one book with their quantities. -/
structure Taken (orders : List BookOrder) (quantity : Nat) (taken : List (BookOrder × Nat)) : Prop where
  makers : ∀ entry ∈ taken, entry.1 ∈ orders ∧ entry.2 ≤ entry.1.visibleQuantity
  distinct : (taken.map fun entry => entry.1.id).Nodup
  few : taken.length ≤ orders.length
  total : filledQuantity taken ≤ quantity

theorem taken_nil (orders : List BookOrder) (quantity : Nat) : Taken orders quantity [] :=
  ⟨by simp, by simp, by simp, Nat.zero_le _⟩

theorem taken_walk {orders : List BookOrder} (distinct : (orders.map BookOrder.id).Nodup) (quantity : Nat)
    (side : Side) (limit : Option Nat) : Taken orders quantity (walk quantity (makers side limit orders)) where
  makers := fun entry member => ⟨(mem_makers.1 (mem_walk member).1).1, (mem_walk member).2⟩
  distinct := by
    have order := (walk_makers_sublist quantity (makers side limit orders)).map BookOrder.id
    rw [List.map_map] at order
    exact (nodup_makers distinct).sublist order
  few := by
    have short := (walk_makers_sublist quantity (makers side limit orders)).length_le
    rw [List.length_map] at short
    exact short.trans (length_makers_le side limit orders)
  total := filledQuantity_walk_le _ _

theorem takenFrom_of_mem {taken : List (BookOrder × Nat)} (distinct : (taken.map fun entry => entry.1.id).Nodup)
    {entry : BookOrder × Nat} (member : entry ∈ taken) : takenFrom taken entry.1.id = entry.2 := by
  have found := find?_of_unique (fun entry : BookOrder × Nat => entry.1.id) distinct member
  simp [takenFrom, found]

theorem takenFrom_of_absent {taken : List (BookOrder × Nat)} {id : Nat}
    (absent : ∀ entry ∈ taken, entry.1.id ≠ id) : takenFrom taken id = 0 := by
  have none : taken.find? (fun entry => entry.1.id = id) = none := by
    simpa [List.find?_eq_none] using absent
  simp [takenFrom, none]

/-- An order is used up exactly when all it has is taken. -/
theorem mem_filledOrderIds {orders : List BookOrder} {quantity : Nat} {taken : List (BookOrder × Nat)}
    (distinct : (orders.map BookOrder.id).Nodup) (sound : Taken orders quantity taken) {order : BookOrder}
    (member : order ∈ orders) (filled : 0 < order.visibleQuantity) :
    order.id ∈ (matchResult taken).filledOrderIds ↔ ¬ takenFrom taken order.id < order.visibleQuantity := by
  have same : ∀ entry ∈ taken, entry.1.id = order.id → entry.1 = order := fun entry listed equal =>
    List.inj_on_of_nodup_map distinct (sound.makers entry listed).1 member equal
  constructor
  · intro listed
    obtain ⟨entry, full, equal⟩ := List.mem_map.1 listed
    obtain ⟨within, whole⟩ := List.mem_filter.1 full
    have from' := takenFrom_of_mem sound.distinct within
    rw [← equal, from', of_decide_eq_true whole, same entry within equal]
    exact Nat.lt_irrefl _
  · intro whole
    by_cases listed : ∃ entry ∈ taken, entry.1.id = order.id
    · obtain ⟨entry, within, equal⟩ := listed
      have from' := takenFrom_of_mem sound.distinct within
      rw [← equal, from'] at whole
      have bound := (sound.makers entry within).2
      have owner := same entry within equal
      refine List.mem_map.2 ⟨entry, List.mem_filter.2 ⟨within, ?_⟩, equal⟩
      rw [owner] at bound ⊢
      simp only [decide_eq_true_eq]
      omega
    · push Not at listed
      rw [takenFrom_of_absent listed] at whole
      omega

theorem map_id_filterMap_reduce (taken : List (BookOrder × Nat)) (orders : List BookOrder) :
    (orders.filterMap (reduce taken)).map BookOrder.id =
      (orders.filter fun order => takenFrom taken order.id < order.visibleQuantity).map BookOrder.id := by
  induction orders with
  | nil => rfl
  | cons order rest ih =>
    by_cases kept : takenFrom taken order.id < order.visibleQuantity
    · simp [reduce, kept, ih]
    · simp [reduce, kept, ih]

theorem matches_taken {bound : Nat} {orders : List BookOrder} {quantity : Nat} {taken : List (BookOrder × Nat)}
    (shaped : Shaped bound orders) (sound : Taken orders quantity taken) :
    Matches orders quantity (matchResult taken) (orders.filterMap (reduce taken)) := by
  have distinct := shaped.nodup_ids
  constructor
  case place =>
    rw [map_id_filterMap_reduce]
    exact List.filter_sublist.map _
  case origin =>
    intro order member
    obtain ⟨old, listed, reduced⟩ := List.mem_filterMap.1 member
    unfold reduce at reduced
    split at reduced
    next left =>
      obtain rfl := Option.some.inj reduced
      exact ⟨by dsimp only; omega, old, listed, Nat.sub_le _ _, rfl⟩
    next => cases reduced
  case consumed =>
    intro order member
    rw [mem_filledOrderIds distinct sound member (shaped.open' order member).1, map_id_filterMap_reduce]
    constructor
    · intro whole listed
      obtain ⟨other, kept, same⟩ := List.mem_map.1 listed
      obtain ⟨within, left⟩ := List.mem_filter.1 kept
      obtain rfl := List.inj_on_of_nodup_map distinct within member same
      exact whole (of_decide_eq_true left)
    · intro absent left
      exact absent (List.mem_map.2 ⟨order, List.mem_filter.2 ⟨member, by simpa using left⟩, rfl⟩)
  case filled =>
    intro id listed
    obtain ⟨entry, full, rfl⟩ := List.mem_map.1 listed
    exact List.mem_map.2 ⟨entry.1, (sound.makers entry (List.mem_filter.1 full).1).1, rfl⟩
  case total =>
    have total := sound.total
    simpa [matchResult, filledQuantity, Function.comp_def] using total
  case few =>
    have few := sound.few
    simpa [matchResult] using few
  case priced =>
    intro trade listed
    obtain ⟨entry, within, rfl⟩ := List.mem_map.1 listed
    exact ⟨entry.1, (sound.makers entry within).1, rfl⟩

/-- The orders after a match; without one they stay as they are. -/
def ordersAfter (orders : List BookOrder) (taken : List (BookOrder × Nat)) : List BookOrder :=
  if taken = [] then orders else orders.filterMap (reduce taken)

theorem ordersAfter_eq {orders : List BookOrder} (left : ∀ order ∈ orders, 0 < order.visibleQuantity)
    (taken : List (BookOrder × Nat)) : ordersAfter orders taken = orders.filterMap (reduce taken) := by
  unfold ordersAfter
  split
  next untouched =>
    subst untouched
    have same : ∀ order ∈ orders, reduce [] order = some order := by
      intro order member
      simp [reduce, takenFrom, left order member]
    rw [List.filterMap_congr same, List.filterMap_some]
  next => rfl

def heardOf (taken : List (BookOrder × Nat)) : Option MatchResult :=
  if taken = [] then none else some (matchResult taken)

def limitResult (order : LimitOrder) (taken : List (BookOrder × Nat)) : Except String MatchResult :=
  match limitError order taken with
  | some error => .error error
  | none => .ok (matchResult taken)

/-- A limit order on the orders of a leaf. -/
def limitEffect (orders : List BookOrder) (order : LimitOrder) : Effect :=
  let taken := takenByLimit orders order
  let remaining := order.quantity - filledQuantity taken
  { result := limitResult order taken
    traded := heardOf taken
    orders := ordersAfter orders taken ++
      if (limitResult order taken).isOk ∧ tifRests order.timeInForce ∧ 0 < remaining then
        [order.resting remaining] else [] }

def marketEffect (orders : List BookOrder) (quantity : Nat) (side : Side) : Effect :=
  let taken := walk quantity (makers side none orders)
  ⟨.ok (matchResult taken), heardOf taken, ordersAfter orders taken⟩

theorem getD_heardOf (taken : List (BookOrder × Nat)) : (heardOf taken).getD ⟨[], []⟩ = matchResult taken := by
  unfold heardOf
  split
  next untouched =>
    rw [untouched]
    rfl
  next => rfl

theorem matched_limitEffect (orders : List BookOrder) (order : LimitOrder) :
    (limitEffect orders order).matched = matchResult (takenByLimit orders order) := by
  unfold limitEffect limitResult
  dsimp only
  cases limitError order (takenByLimit orders order) with
  | none => rfl
  | some error => exact getD_heardOf _

theorem sum_trades_matchResult (taken : List (BookOrder × Nat)) :
    ((matchResult taken).trades.map Trade.quantity).sum = filledQuantity taken := by
  simp [matchResult, filledQuantity, Function.comp_def]

theorem remainder_limitEffect (orders : List BookOrder) (order : LimitOrder) :
    remainder order (limitEffect orders order) =
      if (limitResult order (takenByLimit orders order)).isOk ∧ tifRests order.timeInForce ∧
          0 < order.quantity - filledQuantity (takenByLimit orders order) then
        [order.resting (order.quantity - filledQuantity (takenByLimit orders order))] else [] := by
  simp only [remainder, matched_limitEffect, sum_trades_matchResult]
  rfl

theorem taken_takenByLimit {orders : List BookOrder} (distinct : (orders.map BookOrder.id).Nodup)
    (order : LimitOrder) : Taken orders order.quantity (takenByLimit orders order) := by
  unfold takenByLimit
  dsimp only
  split
  · exact taken_nil _ _
  · exact taken_walk distinct _ _ _

/-- A resting order that crosses the taker is one the taker reaches. -/
theorem reaches_of_crosses {order : LimitOrder} {remaining : Nat} {old : BookOrder}
    (crosses : Crosses (order.resting remaining) old) : reaches order.side (some order.price) old = true := by
  rcases crosses with ⟨buys, sells, reach⟩ | ⟨sells, buys, reach⟩
  · simp only [LimitOrder.resting] at buys reach
    simp [reaches, buys, sells, reach]
  · simp only [LimitOrder.resting] at sells reach
    simp [reaches, sells, buys, reach]

theorem limitSound_limitEffect {bound : Nat} {orders : List BookOrder} (shaped : Shaped bound orders)
    (order : LimitOrder) : LimitSound orders order (limitEffect orders order) := by
  have sound := taken_takenByLimit shaped.nodup_ids order
  refine ⟨orders.filterMap (reduce (takenByLimit orders order)), ?_, ?_, ?_⟩
  · rw [matched_limitEffect]
    exact matches_taken shaped sound
  · rw [remainder_limitEffect, ← ordersAfter_eq fun old member => (shaped.open' old member).1]
    rfl
  · intro rest resting old kept crosses
    rw [remainder_limitEffect] at resting
    split at resting
    next left =>
      obtain rfl := List.mem_singleton.1 resting
      obtain ⟨-, rests, remaining⟩ := left
      -- an order that rests is no fill-or-kill, so what it takes is the whole walk
      have walked : takenByLimit orders order =
          walk order.quantity (makers order.side (some order.price) orders) := by
        unfold takenByLimit
        dsimp only
        rw [if_neg]
        rintro ⟨kill, -⟩
        rw [kill] at rests
        cases rests
      obtain ⟨origin, listed, reduced⟩ := List.mem_filterMap.1 kept
      unfold reduce at reduced
      split at reduced
      next partly =>
        obtain rfl := Option.some.inj reduced
        have reached : origin ∈ makers order.side (some order.price) orders :=
          mem_makers.2 ⟨listed, reaches_of_crosses crosses⟩
        have used : (origin, origin.visibleQuantity) ∈ takenByLimit orders order := by
          rw [walked] at remaining ⊢
          exact mem_walk_of_unfilled (by omega) reached
        rw [takenFrom_of_mem sound.distinct used] at partly
        exact Nat.lt_irrefl _ partly
      next => cases reduced
    next => cases resting

theorem limitEffect_rests {orders : List BookOrder} {order : LimitOrder} (positive : 0 < order.quantity)
    (rests : tifRests order.timeInForce = true)
    (clear : ∀ old ∈ orders, ¬ Crosses (order.resting order.quantity) old) :
    (limitEffect orders order).result = .ok ⟨[], []⟩ ∧
      (limitEffect orders order).orders = orders ++ [order.resting order.quantity] := by
  have nobody : makers order.side (some order.price) orders = [] := by
    apply List.eq_nil_iff_forall_not_mem.2
    intro old member
    obtain ⟨listed, reached⟩ := mem_makers.1 member
    refine clear old listed ?_
    unfold reaches at reached
    split at reached
    next buys sells => exact Or.inl ⟨buys, sells, by simpa [LimitOrder.resting] using reached⟩
    next sells buys => exact Or.inr ⟨sells, buys, by simpa [LimitOrder.resting] using reached⟩
    next => cases reached
  have untouched : takenByLimit orders order = [] := by
    simp [takenByLimit, nobody, walk]
  have accepted : limitResult order [] = .ok ⟨[], []⟩ := by
    have nonzero : order.quantity ≠ 0 := Nat.ne_of_gt positive
    simp [limitResult, limitError, nonzero, rests, matchResult]
  constructor
  · simp only [limitEffect, untouched]
    exact accepted
  · simp only [limitEffect, untouched, ordersAfter, accepted, filledQuantity]
    simp [Except.isOk, Except.toBool, rests, positive]

def viewOf (leaf : Leaf) : LeafView := ⟨leaf.settings, leaf.status, leaf.orders⟩

theorem viewOf_matched (leaf : Leaf) (taken : List (BookOrder × Nat)) :
    viewOf (leaf.matched taken) = { viewOf leaf with orders := ordersAfter leaf.orders taken } := by
  unfold Leaf.matched ordersAfter
  split <;> rfl

theorem slot_matched (leaf : Leaf) (taken : List (BookOrder × Nat)) :
    ({ leaf with slot := none }.matched taken).slot.map TradeResult.matchResult = heardOf taken := by
  unfold Leaf.matched heardOf
  split <;> rfl

theorem viewOf_rest (leaf : Leaf) (order : LimitOrder) (remaining : Nat) :
    viewOf (leaf.rest order remaining) = { viewOf leaf with
      orders := leaf.orders ++ if 0 < remaining then [order.resting remaining] else [] } := by
  unfold Leaf.rest
  split
  · rfl
  · simp [viewOf]

theorem slot_rest (leaf : Leaf) (order : LimitOrder) (remaining : Nat) :
    (leaf.rest order remaining).slot = leaf.slot := by
  unfold Leaf.rest
  split <;> rfl

/-- The slot of an armed leaf is empty, so what is in it after a call was heard during the call. -/
theorem heard_armed (leaf after : Leaf) {traded : Option MatchResult}
    (slot : after.slot.map TradeResult.matchResult = traded) :
    (@slotTradeAfter referenceUpstream after (lastTradeSeq (referenceUpstream.armTradeCapture leaf))).map
      TradeResult.matchResult = traded := by
  have heard : referenceUpstream.lastTradeResult after = after.slot := rfl
  have armed : lastTradeSeq (referenceUpstream.armTradeCapture leaf) = none := rfl
  rw [← slot]
  unfold slotTradeAfter
  rw [heard, armed]
  cases after.slot <;> rfl

/-- What the reference book does with an order within its specs. -/
theorem addLimitOrder_eq {leaf : Leaf} {order : LimitOrder} (active : leaf.status = .active)
    (within : withinSpecs leaf.settings.specs order.price order.quantity = true) :
    (addLimitOrder leaf order).1.map TradeResult.matchResult =
        limitResult order (takenByLimit leaf.orders order) ∧
      (addLimitOrder leaf order).2 =
        if (limitResult order (takenByLimit leaf.orders order)).isOk ∧ tifRests order.timeInForce then
          (leaf.matched (takenByLimit leaf.orders order)).rest order
            (order.quantity - filledQuantity (takenByLimit leaf.orders order))
        else leaf.matched (takenByLimit leaf.orders order) := by
  unfold addLimitOrder limitResult
  simp only [active, ne_eq, not_true, if_false, within, Bool.not_true, Bool.false_eq_true]
  cases limitError order (takenByLimit leaf.orders order) with
  | none => simp [Except.isOk, Except.toBool, Except.map]
  | some error => simp [Except.isOk, Except.toBool, Except.map]

theorem viewOf_addLimitOrder {leaf : Leaf} {order : LimitOrder} (active : leaf.status = .active)
    (within : withinSpecs leaf.settings.specs order.price order.quantity = true) :
    viewOf (addLimitOrder leaf order).2 =
      { viewOf leaf with orders := (limitEffect leaf.orders order).orders } := by
  rw [(addLimitOrder_eq active within).2]
  simp only [limitEffect]
  by_cases rests : (limitResult order (takenByLimit leaf.orders order)).isOk ∧ tifRests order.timeInForce = true
  · rw [if_pos rests, viewOf_rest]
    have matched := viewOf_matched leaf (takenByLimit leaf.orders order)
    simp only [viewOf, LeafView.mk.injEq] at matched ⊢
    refine ⟨matched.1, matched.2.1, ?_⟩
    rw [matched.2.2]
    simp [rests]
  · rw [if_neg rests, viewOf_matched, if_neg (by tauto), List.append_nil]

/-- A call on the armed reference book that only matches and rests. -/
theorem slot_addLimitOrder {leaf : Leaf} {order : LimitOrder} (active : leaf.status = .active)
    (within : withinSpecs leaf.settings.specs order.price order.quantity = true) :
    (addLimitOrder { leaf with slot := none } order).2.slot.map TradeResult.matchResult =
      (limitEffect leaf.orders order).traded := by
  rw [(@addLimitOrder_eq { leaf with slot := none } order active within).2]
  have heard := slot_matched leaf (takenByLimit leaf.orders order)
  split
  · rw [slot_rest]
    exact heard
  · exact heard

theorem armedShows_refused {leaf : Leaf} {order : LimitOrder} (error : String)
    (refused : addLimitOrder { leaf with slot := none } order = (.error error, { leaf with slot := none })) :
    @ArmedShows referenceUpstream viewOf leaf
      (addCall referenceUpstream (referenceUpstream.armTradeCapture leaf) order) (.refused error leaf.orders) where
  result := congrArg (fun call => call.1.map TradeResult.matchResult) refused
  after := congrArg (fun call => viewOf call.2) refused
  heard := heard_armed leaf _ (congrArg (fun call => call.2.slot.map TradeResult.matchResult) refused)

end ReferenceBook

open ReferenceBook in
/-- The laws of the reference book. -/
def referenceLaws : BookLaws referenceUpstream where
  view := viewOf
  limit := limitEffect
  market orders _ quantity side _ := marketEffect orders quantity side
  depth := depth
  evicted := expiredIds
  unexpired _ := True
  view_new _ := rfl
  view_arm _ := rfl
  stpMode_eq _ := rfl
  feeSchedule_eq _ := rfl
  status_eq _ := rfl
  getOrder_eq _ _ := rfl
  bidDepth_eq _ := rfl
  askDepth_eq _ := rfl
  cancel_result _ _ := rfl
  cancel_view _ _ := rfl
  evict_result _ _ := rfl
  evict_view _ _ := rfl
  setStatus_view leaf status := by
    intro applied
    by_cases legal : canTransition leaf.status status = true
    · simp [referenceUpstream, setStatus, legal, viewOf]
    · simp [referenceUpstream, setStatus, legal] at applied
  evicted_of now orders id listed := by
    obtain ⟨order, expired, rfl⟩ := List.mem_map.1 listed
    exact List.mem_map.2 ⟨order, (List.mem_filter.1 expired).1, rfl⟩
  add_shows leaf order active _ within := by
    refine ⟨⟨(addLimitOrder_eq active within).1, viewOf_addLimitOrder active within⟩, ⟨?_, ?_⟩, ?_⟩
    · exact (@addLimitOrder_eq { leaf with slot := none } order active within).1
    · exact @viewOf_addLimitOrder { leaf with slot := none } order active within
    · exact heard_armed leaf _ (slot_addLimitOrder active within)
  add_outside leaf order outside := by
    have unlisted : withinSpecs leaf.settings.specs order.price order.quantity = false := outside
    by_cases active : leaf.status = .active
    · exact ⟨_, armedShows_refused "order violates the specs" (by simp [addLimitOrder, active, unlisted])⟩
    · exact ⟨_, armedShows_refused "instrument is not active" (by simp [addLimitOrder, active])⟩
  market_shows leaf id quantity side owner _ _ :=
    ⟨⟨rfl, viewOf_matched _ _⟩, heard_armed leaf _ (slot_matched leaf _)⟩
  market_outside leaf id quantity side owner _ _ :=
    ⟨marketEffect leaf.orders quantity side,
      ⟨⟨rfl, viewOf_matched _ _⟩, heard_armed leaf _ (slot_matched leaf _)⟩, Or.inr rfl⟩
  limit_sound orders order shaped _ := limitSound_limitEffect shaped order
  market_sound orders id quantity side owner shaped _ := by
    change Matches orders quantity (matchResult _) (ordersAfter orders _)
    rw [ordersAfter_eq fun old member => (shaped.open' old member).1]
    exact matches_taken shaped (taken_walk shaped.nodup_ids quantity side none)
  limit_rests orders order _ _ positive rests _ clear := limitEffect_rests positive rests clear
  tradeResultNew_eq matched := ⟨⟨matched, 0⟩, rfl, rfl⟩
  free_fee notional isMaker := by
    change Except.ok _ = _
    cases isMaker <;> simp

end Fauxchange.Exchange
