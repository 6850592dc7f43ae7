import Fauxchange.Exchange.Alike
import Fauxchange.Exchange.RestoreGaps
import Mathlib.Algebra.Order.BigOperators.Group.List

/-! The cut of a state and the state rebuilt from a cut: re-adding the orders of a consistent cut in the order of
their engine ids rests every one of them, unmatched, where it stood. -/

namespace Fauxchange.Exchange
open Lib UnderlyingOrderBook

/-- The order a capture rests as. -/
def RestingOrderCapture.bookOrder (capture : RestingOrderCapture) : BookOrder :=
  ⟨capture.engineSeq, capture.side, capture.price, capture.quantity, capture.timeInForce, capture.owner⟩

/-- The capture of a registered order. -/
def RestingRecord.capture (record : RestingRecord) (order : BookOrder) : RestingOrderCapture :=
  ⟨record.symbol, record.venueOrderId, record.account, record.owner, order.id, order.side, order.price,
    order.visibleQuantity, order.timeInForce⟩

section Capture
variable {U : Upstream} {laws : BookLaws U} {state other : SequencedState U} {bound : Nat}

/-- A capture is read off the orders of the leaf, present or not. -/
theorem captureOrder_eq (laws : BookLaws U) (state : SequencedState U) (engineId : Nat) (record : RestingRecord) :
    state.captureOrder engineId record =
      (addressOf? U state.underlyingBook.underlying record.symbol).bind fun address =>
        ((laws.ordersAt state.underlyingBook address).find? fun order => order.id = engineId).bind fun order =>
          if u64Max < order.price then none else some (record.capture { order with id := engineId }) := by
  unfold SequencedState.captureOrder
  rcases resolveLeafRead_cases state.underlyingBook record.symbol with ⟨unread, absent⟩ | ⟨address, lives, -, read⟩
  · rw [unread]
    cases lives : addressOf? U state.underlyingBook.underlying record.symbol with
    | none => rfl
    | some address =>
      rw [Option.bind_some, ordersAt_of_absent (absent address lives)]
      rfl
  · rw [read, lives, Option.bind_some]
    dsimp only
    rw [laws.getOrder_eq]
    change _ = Option.bind (((laws.view (state.underlyingBook.leafAt address)).orders).find? _) _
    cases (laws.view (state.underlyingBook.leafAt address)).orders.find? fun order => decide (order.id = engineId) with
    | none => rfl
    | some order => rfl

/-- States that show the same are captured alike. -/
theorem restingOrders_congr (underlying : state.underlyingBook.underlying = other.underlyingBook.underlying)
    (registry : state.registry = other.registry)
    (orders : ∀ address, laws.ordersAt state.underlyingBook address = laws.ordersAt other.underlyingBook address) :
    state.captureState.restingOrders = other.captureState.restingOrders := by
  have same : ∀ engineId record, state.captureOrder engineId record = other.captureOrder engineId record := by
    intro engineId record
    rw [captureOrder_eq laws, captureOrder_eq laws, underlying]
    simp only [orders]
  unfold SequencedState.captureState
  simp only [registry, same]

theorem engineSeq_of_captureOrder {engineId : Nat} {record : RestingRecord} {capture : RestingOrderCapture}
    (captured : state.captureOrder engineId record = some capture) : capture.engineSeq = engineId := by
  unfold SequencedState.captureOrder at captured
  split at captured
  · cases captured
  · split at captured
    · cases captured
    · split at captured
      · cases captured
      · cases captured
        rfl

/-- The cut holds a capture for each registered order that its leaf holds at a 64-bit price. -/
theorem mem_restingOrders {capture : RestingOrderCapture} :
    capture ∈ state.captureState.restingOrders ↔ ∃ record, state.registry.resting[capture.engineSeq]? = some record ∧
      state.captureOrder capture.engineSeq record = some capture := by
  have listed : capture ∈ state.captureState.restingOrders ↔
      ∃ entry ∈ state.registry.resting.toList, state.captureOrder entry.1 entry.2 = some capture := by
    unfold SequencedState.captureState
    rw [(sortByKey_perm _ _).mem_iff, List.mem_filterMap]
  rw [listed]
  constructor
  · rintro ⟨⟨engineId, record⟩, member, captured⟩
    have present := Std.ExtTreeMap.mem_toList_iff_getElem?_eq_some.1 member
    have here := engineSeq_of_captureOrder captured
    subst here
    exact ⟨record, present, captured⟩
  · rintro ⟨record, present, captured⟩
    exact ⟨(capture.engineSeq, record), Std.ExtTreeMap.mem_toList_iff_getElem?_eq_some.2 present, captured⟩

/-- Engine ids are the keys of the registry, so the cut ascends strictly. -/
theorem restingOrders_ascending (state : SequencedState U) :
    state.captureState.restingOrders.Pairwise fun left right => left.engineSeq < right.engineSeq := by
  have distinct : (state.captureState.restingOrders.map RestingOrderCapture.engineSeq).Nodup := by
    unfold SequencedState.captureState
    refine ((sortByKey_perm _ _).map _).nodup_iff.2 ?_
    rw [List.nodup_iff_pairwise_ne, List.pairwise_map, List.pairwise_filterMap]
    refine Std.ExtTreeMap.distinct_keys_toList.imp ?_
    intro left right apart first captured second captured' same
    rw [engineSeq_of_captureOrder captured, engineSeq_of_captureOrder captured'] at same
    exact apart (Std.LawfulEqCmp.compare_eq_iff_eq.2 same)
  have apart := List.pairwise_map.1 (List.nodup_iff_pairwise_ne.1 distinct)
  exact (apart.and (sortByKey_pairwise _ _)).imp fun both => Nat.lt_of_le_of_ne both.2 both.1

end Capture

section Rebuild
variable {U : Upstream} {laws : BookLaws U} {state : SequencedState U} {bound : Nat} {underlying : String}
  {capture : RestingOrderCapture} {captures rest : List RestingOrderCapture} {address : LeafAddress}

/-- A captured order that the book of the underlying takes in as it is. -/
structure Restable (laws : BookLaws U) (underlying : String) (capture : RestingOrderCapture) : Prop where
  lives : ∃ address, addressOf? U underlying capture.symbol = some address
  open' : 0 < capture.quantity ∧ capture.quantity ≤ u64Max
  priced : capture.price ≤ u64Max
  rests : tifRests capture.timeInForce = true
  unexpired : laws.unexpired capture.timeInForce

/-- No two captures of one leaf cross. -/
def Uncrossed (U : Upstream) (underlying : String) (captures : List RestingOrderCapture) : Prop :=
  ∀ left ∈ captures, ∀ right ∈ captures,
    addressOf? U underlying left.symbol = addressOf? U underlying right.symbol →
      ¬ Crosses left.bookOrder right.bookOrder

/-- The registry with the captured orders registered in turn. -/
def registerAll (registry : OrderRegistry) (captures : List RestingOrderCapture) : OrderRegistry :=
  captures.foldl (fun registry capture =>
    registry.registerResting (engineOrderId capture.engineSeq) (SequencedState.captureRecord capture)) registry

/-- The orders of the captures of one leaf. -/
def ordersOf (U : Upstream) (underlying : String) (captures : List RestingOrderCapture) (address : LeafAddress) :
    List BookOrder :=
  (captures.filter fun capture => addressOf? U underlying capture.symbol = some address).map
    RestingOrderCapture.bookOrder

theorem ordersOf_cons (place : LeafAddress) :
    ordersOf U underlying (capture :: rest) place =
      (if addressOf? U underlying capture.symbol = some place then [capture.bookOrder] else []) ++
        ordersOf U underlying rest place := by
  unfold ordersOf
  by_cases here : addressOf? U underlying capture.symbol = some place
  · simp [here]
  · simp [here]

/-- A bare book takes a captured order in unmatched. -/
theorem addLimitOrder_restable {leaf : U.Leaf} (plain : Plain laws .bare leaf)
    (shaped : Shaped bound (laws.view leaf).orders) (fresh : bound ≤ capture.engineSeq)
    (fits : Restable laws underlying capture)
    (clear : ∀ old ∈ (laws.view leaf).orders, ¬ Crosses capture.bookOrder old) :
    (∃ trade, (U.addLimitOrder leaf (SequencedState.captureLimitOrder capture)).1 = .ok trade) ∧
      laws.view (U.addLimitOrder leaf (SequencedState.captureLimitOrder capture)).2 =
        { laws.view leaf with orders := (laws.view leaf).orders ++ [capture.bookOrder] } := by
  have shows := (laws.add_shows leaf (SequencedState.captureLimitOrder capture) plain.active
    (by rw [plain.settings]; rfl) (by rw [plain.settings]; rfl)).1
  obtain ⟨result, orders⟩ := laws.limit_rests (laws.view leaf).orders (SequencedState.captureLimitOrder capture) shaped
    fresh fits.open'.1 fits.rests fits.unexpired clear
  have answered := shows.result
  rw [result] at answered
  refine ⟨?_, ?_⟩
  · unfold addCall at answered
    cases added : (U.addLimitOrder leaf (SequencedState.captureLimitOrder capture)).1 with
    | ok trade => exact ⟨trade, rfl⟩
    | error error =>
      rw [added] at answered
      cases answered
  · have after := shows.after
    rw [orders] at after
    exact after

/-- One turn of the loop rests one order at the end of its leaf. -/
theorem rebuildFrom_cons (coherent : Coherent laws state bound) (bare : state.underlyingBook.config = .bare)
    (fresh : bound ≤ capture.engineSeq) (fits : Restable laws state.underlyingBook.underlying capture)
    (lives : addressOf? U state.underlyingBook.underlying capture.symbol = some address)
    (clear : ∀ old ∈ laws.ordersAt state.underlyingBook address, ¬ Crosses capture.bookOrder old) :
    ∃ next : SequencedState U, state.rebuildFrom (capture :: rest) = next.rebuildFrom rest ∧
      Coherent laws next (capture.engineSeq + 1) ∧
      next.underlyingBook.config = .bare ∧
      next.underlyingBook.underlying = state.underlyingBook.underlying ∧
      next.registry = registerAll state.registry [capture] ∧
      ∀ place, laws.ordersAt next.underlyingBook place =
        laws.ordersAt state.underlyingBook place ++
          if addressOf? U state.underlyingBook.underlying capture.symbol = some place then [capture.bookOrder]
          else [] := by
  have resolved : state.underlyingBook.resolveLeafVivify capture.symbol =
      .ok (address, state.underlyingBook.vivify address) := resolveLeafVivify_eq_ok.2 ⟨lives, rfl⟩
  obtain ⟨vivified, present, there, -⟩ := coherent.resolved resolved
  have plain := vivified.plain address
  have shaped := vivified.shaped address
  have clear' : ∀ old ∈ laws.ordersAt (state.underlyingBook.vivify address) address,
      ¬ Crosses capture.bookOrder old := by
    simp only [BookLaws.ordersAt, leafAt_vivify]
    exact clear
  obtain ⟨⟨trade, accepted⟩, view⟩ := addLimitOrder_restable (bare ▸ plain) shaped fresh fits clear'
  have added : U.addLimitOrder ((state.underlyingBook.vivify address).leafAt address)
      (SequencedState.captureLimitOrder capture) = (.ok trade,
        (U.addLimitOrder ((state.underlyingBook.vivify address).leafAt address)
          (SequencedState.captureLimitOrder capture)).2) := Prod.ext accepted rfl
  have shown := congrArg LeafView.orders view
  refine ⟨_, ?_, vivified.of_rest fresh present ⟨?_, ?_⟩ (matches_none bound shaped 0) shown fits.open' fits.priced
    fits.rests clear' there rfl rfl, bare, rfl, rfl, ?_⟩
  · rw [SequencedState.rebuildFrom, resolved]
    dsimp only
    rw [added]
    rfl
  · rw [view]
    exact plain.settings
  · rw [view]
    exact plain.active
  · intro place
    by_cases same : place = address
    · subst same
      rw [if_pos lives]
      simp only [SequencedState.commitLeaf, BookLaws.ordersAt, leafAt_setLeaf_self _ _ present]
      rw [shown, leafAt_vivify]
    · have elsewhere : addressOf? U state.underlyingBook.underlying capture.symbol ≠ some place := by
        rw [lives]
        exact fun here => same (Option.some.inj here).symm
      rw [if_neg elsewhere, List.append_nil]
      simp only [SequencedState.commitLeaf, BookLaws.ordersAt, leafAt_setLeaf_of_ne _ _ same, leafAt_vivify]

/-- The whole loop, over captures that ascend from a bound and cross neither each other nor what rests. -/
theorem rebuildFrom_ok {later : Nat} (coherent : Coherent laws state bound)
    (bare : state.underlyingBook.config = .bare)
    (ascending : captures.Pairwise fun left right => left.engineSeq < right.engineSeq)
    (range : ∀ capture ∈ captures, bound ≤ capture.engineSeq ∧ capture.engineSeq < later) (above : bound ≤ later)
    (fits : ∀ capture ∈ captures, Restable laws state.underlyingBook.underlying capture)
    (uncrossed : Uncrossed U state.underlyingBook.underlying captures)
    (clear : ∀ capture ∈ captures, ∀ address,
      addressOf? U state.underlyingBook.underlying capture.symbol = some address →
        ∀ old ∈ laws.ordersAt state.underlyingBook address, ¬ Crosses capture.bookOrder old) :
    ∃ rebuilt, state.rebuildFrom captures = .ok rebuilt ∧ Coherent laws rebuilt later ∧
      rebuilt.underlyingBook.underlying = state.underlyingBook.underlying ∧
      rebuilt.registry = registerAll state.registry captures ∧
      ∀ place, laws.ordersAt rebuilt.underlyingBook place = laws.ordersAt state.underlyingBook place ++
        ordersOf U state.underlyingBook.underlying captures place := by
  induction captures generalizing state bound with
  | nil => exact ⟨state, rfl, coherent.mono above, rfl, rfl, fun place => by simp [ordersOf]⟩
  | cons capture rest ih =>
    obtain ⟨first, others⟩ := List.pairwise_cons.1 ascending
    obtain ⟨low, high⟩ := range capture (by simp)
    obtain ⟨address, lives⟩ := (fits capture (by simp)).lives
    obtain ⟨next, step, stepped, config, underlying, registry, orders⟩ := rebuildFrom_cons coherent bare low
      (fits capture (by simp)) lives (clear capture (by simp) address lives)
    obtain ⟨rebuilt, done, last, named, grown, shown⟩ := @ih next (capture.engineSeq + 1) stepped config others
      (fun later' member => ⟨first later' member, (range later' (List.mem_cons_of_mem _ member)).2⟩) high
      (by rw [underlying]; exact fun later' member => fits later' (List.mem_cons_of_mem _ member))
      (by
        rw [underlying]
        exact fun left here right there =>
          uncrossed left (List.mem_cons_of_mem _ here) right (List.mem_cons_of_mem _ there))
      (by
        intro later' member place there old listed
        rw [underlying] at there
        rw [orders, List.mem_append] at listed
        rcases listed with resting | added
        · exact clear later' (List.mem_cons_of_mem _ member) place there old resting
        · split at added
          next same =>
            rw [List.mem_singleton.1 added]
            exact uncrossed later' (List.mem_cons_of_mem _ member) capture (by simp) (there.trans same.symm)
          next => cases added)
    refine ⟨rebuilt, step.trans done, last, named.trans underlying, ?_, ?_⟩
    · rw [grown, registry]
      rfl
    · intro place
      rw [shown, orders, ordersOf_cons, underlying, List.append_assoc]

theorem registerAll_resting (registry : OrderRegistry) (captures : List RestingOrderCapture) :
    (registerAll registry captures).resting =
      writeAll RestingOrderCapture.engineSeq SequencedState.captureRecord registry.resting captures := by
  induction captures generalizing registry with
  | nil => rfl
  | cons capture rest ih => exact ih _

/-- Captures of distinct engine ids and distinct venue ids are registered in lockstep. -/
theorem registerAll_lockstep {registry : OrderRegistry} (lockstep : registry.Lockstep)
    (engineIds : (captures.map RestingOrderCapture.engineSeq).Nodup)
    (venueIds : (captures.map RestingOrderCapture.orderId).Nodup)
    (unused : ∀ capture ∈ captures, registry.resting[capture.engineSeq]? = none)
    (unnamed : ∀ capture ∈ captures, registry.venueToEngine[capture.orderId]? = none) :
    (registerAll registry captures).Lockstep := by
  induction captures generalizing registry with
  | nil => exact lockstep
  | cons capture rest ih =>
    obtain ⟨engineId, engineIds⟩ := List.nodup_cons.1 engineIds
    obtain ⟨venueId, venueIds⟩ := List.nodup_cons.1 venueIds
    have step : (registry.registerResting capture.engineSeq (SequencedState.captureRecord capture)).Lockstep :=
      lockstep.registerResting (unused capture (by simp)) (unnamed capture (by simp))
    refine ih step engineIds venueIds ?_ ?_
    · intro later member
      have apart : engineOrderId capture.engineSeq ≠ later.engineSeq :=
        fun same => engineId (List.mem_map.2 ⟨later, member, same.symm⟩)
      simp [OrderRegistry.registerResting, Std.ExtTreeMap.getElem?_insert, apart, unused later, member]
    · intro later member
      have apart : capture.orderId ≠ later.orderId := fun same => venueId (same ▸ List.mem_map_of_mem member)
      simp [OrderRegistry.registerResting, Std.ExtTreeMap.getElem?_insert, SequencedState.captureRecord, apart,
        unnamed later, member]

/-- The captured orders of a consistent cut. -/
structure ConsistentCut (laws : BookLaws U) (underlying : String) (captures : List RestingOrderCapture) : Prop where
  engineIds : (captures.map RestingOrderCapture.engineSeq).Nodup
  venueIds : (captures.map RestingOrderCapture.orderId).Nodup
  fits : ∀ capture ∈ captures, Restable laws underlying capture
  uncrossed : Uncrossed U underlying captures

theorem ConsistentCut.perm {others : List RestingOrderCapture} (cut : ConsistentCut laws underlying captures)
    (perm : others.Perm captures) : ConsistentCut laws underlying others where
  engineIds := (perm.map _).nodup_iff.2 cut.engineIds
  venueIds := (perm.map _).nodup_iff.2 cut.venueIds
  fits := fun capture member => cut.fits capture (perm.subset member)
  uncrossed := fun left here right there => cut.uncrossed left (perm.subset here) right (perm.subset there)

theorem validateResting_ok (fits : ∀ capture ∈ captures, Restable laws underlying capture) :
    SequencedState.validateResting U underlying captures = .ok () := by
  induction captures with
  | nil => rfl
  | cons capture rest ih =>
    obtain ⟨address, lives⟩ := (fits capture (by simp)).lives
    unfold addressOf? at lives
    unfold SequencedState.validateResting
    cases parse : U.parse capture.symbol with
    | error error =>
      rw [parse] at lives
      cases lives
    | ok parsed =>
      rw [parse] at lives
      dsimp only at lives ⊢
      split at lives
      · cases lives
      next belongs =>
        rw [if_neg belongs]
        exact ih fun later member => fits later (List.mem_cons_of_mem _ member)

/-- A status change of a leaf moves no order. -/
theorem applyInstrumentStatuses_orders {applied : SequencedState U} {statuses : List InstrumentStatusCapture}
    (done : state.applyInstrumentStatuses statuses = .ok applied) :
    applied.underlyingBook.underlying = state.underlyingBook.underlying ∧
      ∀ place, laws.ordersAt applied.underlyingBook place = laws.ordersAt state.underlyingBook place := by
  induction statuses generalizing state with
  | nil =>
    cases done
    exact ⟨rfl, fun _ => rfl⟩
  | cons status rest ih =>
    unfold SequencedState.applyInstrumentStatuses at done
    split at done
    · cases done
    next address book resolved =>
      obtain ⟨-, rfl⟩ := resolveLeafVivify_eq_ok.1 resolved
      split at done
      · cases done
      next leaf set =>
        have present : ((state.underlyingBook.vivify address).leaf? address).isSome := by
          rw [leaf?_vivify_self]
          rfl
        have view := laws.setStatus_view ((state.underlyingBook.vivify address).leafAt address) status.status
          (by rw [set])
        rw [set, leafAt_vivify] at view
        obtain ⟨underlying, orders⟩ := ih done
        refine ⟨underlying, fun place => (orders place).trans ?_⟩
        by_cases same : place = address
        · subst same
          simp only [SequencedState.commitLeaf, BookLaws.ordersAt, leafAt_setLeaf_self _ _ present]
          rw [view]
        · simp only [SequencedState.commitLeaf, BookLaws.ordersAt, leafAt_setLeaf_of_ne _ _ same, leafAt_vivify]

/-- A cut is rebuilt on a bare book, its orders in the order of their engine ids. -/
theorem ConsistentCut.rebuild (cut : ConsistentCut laws underlying captures) {later : Nat}
    (below : ∀ capture ∈ captures, capture.engineSeq < later) :
    ∃ rebuilt, (SequencedState.new underlying).rebuildFrom (sortByKey RestingOrderCapture.engineSeq captures) =
        .ok rebuilt ∧ Coherent laws rebuilt later ∧ rebuilt.underlyingBook.underlying = underlying ∧
      rebuilt.registry = registerAll .new (sortByKey RestingOrderCapture.engineSeq captures) ∧
      ∀ place, laws.ordersAt rebuilt.underlyingBook place =
        ordersOf U underlying (sortByKey RestingOrderCapture.engineSeq captures) place := by
  have perm := sortByKey_perm RestingOrderCapture.engineSeq captures
  have sorted := cut.perm perm
  have ascending : (sortByKey RestingOrderCapture.engineSeq captures).Pairwise
      fun left right => left.engineSeq < right.engineSeq := by
    have apart := List.pairwise_map.1 (List.nodup_iff_pairwise_ne.1 sorted.engineIds)
    exact (apart.and (sortByKey_pairwise _ _)).imp fun both => Nat.lt_of_le_of_ne both.2 both.1
  have empty : ∀ place, laws.ordersAt (SequencedState.new underlying : SequencedState U).underlyingBook place = [] :=
    fun place => ordersAt_of_absent (by simp [SequencedState.new, SequencedState.fromBook, UnderlyingOrderBook.new, leaf?])
  obtain ⟨rebuilt, done, coherent, named, registry, orders⟩ := @rebuildFrom_ok U laws
    (SequencedState.new underlying) 0 _ later (coherent_fromBook neutral_bare 0) rfl ascending
    (fun capture member => ⟨Nat.zero_le _, below capture (perm.subset member)⟩) (Nat.zero_le _) sorted.fits
    sorted.uncrossed (fun capture _ place _ old listed => by rw [empty place] at listed; cases listed)
  refine ⟨rebuilt, done, coherent, named, registry, fun place => ?_⟩
  rw [orders, empty, List.nil_append]
  rfl

/-- Every order of a cut is found again in a state that has registered and rested its orders. -/
theorem ConsistentCut.captureOrder (cut : ConsistentCut laws underlying captures)
    (named : state.underlyingBook.underlying = underlying)
    (orders : ∀ place, laws.ordersAt state.underlyingBook place = ordersOf U underlying captures place)
    (member : capture ∈ captures) :
    state.captureOrder capture.engineSeq (SequencedState.captureRecord capture) = some capture := by
  obtain ⟨address, lives⟩ := (cut.fits capture member).lives
  have priced : capture.bookOrder.price ≤ u64Max := (cut.fits capture member).priced
  have listed : capture.bookOrder ∈ ordersOf U underlying captures address :=
    List.mem_map.2 ⟨capture, List.mem_filter.2 ⟨member, by simpa using lives⟩, rfl⟩
  have unique : ((ordersOf U underlying captures address).map BookOrder.id).Nodup := by
    unfold ordersOf
    rw [List.map_map]
    exact cut.engineIds.sublist (List.filter_sublist.map RestingOrderCapture.engineSeq)
  have found : (ordersOf U underlying captures address).find? (fun order => order.id = capture.engineSeq) =
      some capture.bookOrder := find?_of_unique BookOrder.id unique listed
  rw [captureOrder_eq laws, named]
  change Option.bind (addressOf? U underlying capture.symbol) _ = _
  rw [lives, Option.bind_some, orders, found, Option.bind_some, if_neg (Nat.not_lt.2 priced)]
  rfl

theorem ConsistentCut.resting (cut : ConsistentCut laws underlying captures) (member : capture ∈ captures) :
    (registerAll .new captures).resting[capture.engineSeq]? = some (SequencedState.captureRecord capture) := by
  rw [registerAll_resting]
  exact getElem?_writeAll_of_mem cut.engineIds member

theorem exists_of_registerAll {engineId : Nat} {record : RestingRecord}
    (present : (registerAll .new captures).resting[engineId]? = some record) :
    ∃ capture ∈ captures, capture.engineSeq = engineId := by
  by_contra absent
  push Not at absent
  rw [registerAll_resting, getElem?_writeAll_of_absent absent] at present
  cases present

/-- So the cut of such a state is the cut it comes from. -/
theorem ConsistentCut.readBack (cut : ConsistentCut laws underlying captures)
    (named : state.underlyingBook.underlying = underlying) (registry : state.registry = registerAll .new captures)
    (orders : ∀ place, laws.ordersAt state.underlyingBook place = ordersOf U underlying captures place) :
    capture ∈ state.captureState.restingOrders ↔ capture ∈ captures := by
  rw [mem_restingOrders, registry]
  constructor
  · rintro ⟨record, present, captured⟩
    obtain ⟨other, member, same⟩ := exists_of_registerAll present
    have known := cut.resting member
    rw [same, present] at known
    have again := cut.captureOrder named orders member
    rw [same, ← Option.some.inj known, captured] at again
    rw [Option.some.inj again]
    exact member
  · intro member
    exact ⟨_, cut.resting member, cut.captureOrder named orders member⟩

/-- What a successful preparation holds: the map of the cut's client order ids, and the orders of a consistent cut. -/
theorem prepareRestore_readBack {cut : ExecutorState} {restored : SequencedState U}
    (done : SequencedState.prepareRestore U underlying cut = .ok restored) :
    restored.idempotency = IdempotencyMap.fromRecords cut.idempotency ∧
      (ConsistentCut laws underlying cut.restingOrders →
        ∀ capture, capture ∈ restored.captureState.restingOrders ↔ capture ∈ cut.restingOrders) := by
  unfold SequencedState.prepareRestore at done
  split at done
  · cases done
  · split at done
    · cases done
    next built rebuild =>
      obtain ⟨-, idempotency, registry, -⟩ := SequencedState.applyInstrumentStatuses_frame done
      obtain ⟨named, orders⟩ := @applyInstrumentStatuses_orders U laws _ _ _ done
      refine ⟨idempotency, fun consistent capture => ?_⟩
      obtain ⟨largest, below⟩ : ∃ later, ∀ capture ∈ cut.restingOrders, capture.engineSeq < later :=
        ⟨(cut.restingOrders.map RestingOrderCapture.engineSeq).sum + 1, fun capture member =>
          Nat.lt_succ_of_le (List.single_le_sum (by simp) _ (List.mem_map_of_mem member))⟩
      obtain ⟨again, done', -, underlying', registry', orders'⟩ := consistent.rebuild below
      rw [rebuild] at done'
      obtain rfl := Except.ok.inj done'
      have perm := sortByKey_perm RestingOrderCapture.engineSeq cut.restingOrders
      have sorted := consistent.perm perm
      rw [← perm.mem_iff]
      exact sorted.readBack (named.trans underlying') (registry.trans registry')
        fun place => (orders place).trans (orders' place)

end Rebuild

namespace Coherent
variable {U : Upstream} {laws : BookLaws U} {state : SequencedState U} {bound : Nat} {address : LeafAddress}
  {capture : RestingOrderCapture}

/-- Every registered order is captured as its leaf holds it. -/
theorem captured (coherent : Coherent laws state bound) {engineId : Nat} {record : RestingRecord}
    (present : state.registry.resting[engineId]? = some record) :
    ∃ address order, addressOf? U state.underlyingBook.underlying record.symbol = some address ∧
      order ∈ laws.ordersAt state.underlyingBook address ∧ order.id = engineId ∧
      record.side = order.side ∧ record.owner = order.owner ∧
      state.captureOrder engineId record = some (record.capture order) := by
  obtain ⟨address, lives, -, listed⟩ := coherent.registered engineId record present
  obtain ⟨order, member, rfl⟩ := List.mem_map.1 listed
  obtain ⟨again, found, -, side, owner⟩ := coherent.known address order member
  rw [present] at found
  obtain rfl := Option.some.inj found
  have priced := (coherent.shaped address).priced order member
  have find := find?_of_unique BookOrder.id (coherent.shaped address).nodup_ids member
  refine ⟨address, order, lives, member, rfl, side, owner, ?_⟩
  rw [captureOrder_eq laws, lives, Option.bind_some, find, Option.bind_some, if_neg (Nat.not_lt.2 priced)]

/-- The cut of a state: one capture for each registered order, with its leaf and its order. -/
theorem mem_cut (coherent : Coherent laws state bound) (member : capture ∈ state.captureState.restingOrders) :
    ∃ record address order, state.registry.resting[capture.engineSeq]? = some record ∧
      addressOf? U state.underlyingBook.underlying capture.symbol = some address ∧
      order ∈ laws.ordersAt state.underlyingBook address ∧ capture.bookOrder = order ∧
      SequencedState.captureRecord capture = record ∧ capture.orderId = record.venueOrderId := by
  obtain ⟨record, present, captured⟩ := mem_restingOrders.1 member
  obtain ⟨address, order, lives, listed, id, side, owner, again⟩ := coherent.captured present
  rw [captured] at again
  obtain rfl := Option.some.inj again
  refine ⟨record, address, order, present, lives, listed, ?_, ?_, rfl⟩
  · simp only [RestingOrderCapture.bookOrder, RestingRecord.capture, owner]
  · simp only [SequencedState.captureRecord, RestingRecord.capture, ← side]

theorem cut_of_order (coherent : Coherent laws state bound) {order : BookOrder}
    (member : order ∈ laws.ordersAt state.underlyingBook address) :
    ∃ capture ∈ state.captureState.restingOrders, capture.bookOrder = order ∧
      addressOf? U state.underlyingBook.underlying capture.symbol = some address := by
  obtain ⟨record, present, lives, side, owner⟩ := coherent.known address order member
  obtain ⟨place, other, there, listed, same, -, -, captured⟩ := coherent.captured present
  rw [lives] at there
  obtain rfl := Option.some.inj there
  obtain rfl := List.inj_on_of_nodup_map (coherent.shaped address).nodup_ids listed member same
  refine ⟨record.capture other, mem_restingOrders.2 ⟨record, present, captured⟩, ?_, lives⟩
  simp only [RestingOrderCapture.bookOrder, RestingRecord.capture, owner]

/-- The cut of a coherent state with distinct venue ids is consistent. -/
theorem consistentCut (coherent : Coherent laws state bound) (lockstep : state.registry.Lockstep)
    (unexpired : ∀ capture ∈ state.captureState.restingOrders, laws.unexpired capture.timeInForce) :
    ConsistentCut laws state.underlyingBook.underlying state.captureState.restingOrders where
  engineIds := List.nodup_iff_pairwise_ne.2 (List.pairwise_map.2
    ((restingOrders_ascending state).imp fun before => Nat.ne_of_lt before))
  venueIds := by
    rw [List.nodup_iff_pairwise_ne, List.pairwise_map]
    refine (restingOrders_ascending state).imp_of_mem ?_
    intro left right here there before same
    obtain ⟨record, -, -, present, -, -, -, -, named⟩ := coherent.mem_cut here
    obtain ⟨record', -, -, present', -, -, -, -, named'⟩ := coherent.mem_cut there
    have equal := lockstep.apart _ _ record record' present present' (by rw [← named, ← named', same])
    omega
  fits := by
    intro capture member
    obtain ⟨record, address, order, -, lives, listed, rfl, -⟩ := coherent.mem_cut member
    exact ⟨⟨address, lives⟩, (coherent.shaped address).open' _ listed, (coherent.shaped address).priced _ listed,
      (coherent.shaped address).rests _ listed, unexpired capture member⟩
  uncrossed := by
    intro left here right there same
    obtain ⟨-, address, -, -, lives, listed, rfl, -⟩ := coherent.mem_cut here
    obtain ⟨-, other, -, -, lives', listed', rfl, -⟩ := coherent.mem_cut there
    rw [lives, lives'] at same
    obtain rfl := Option.some.inj same
    exact (coherent.shaped address).uncrossed _ listed _ listed'

end Coherent

end Fauxchange.Exchange
