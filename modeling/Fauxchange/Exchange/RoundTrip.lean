import Fauxchange.Exchange.AlikeRuns
import Fauxchange.Exchange.Rebuild
import Fauxchange.Exchange.ReferenceLaws
import Fauxchange.Exchange.StoreRestore

/-! Capture and restore: a coherent state is rebuilt from its own cut, and the two trade alike. -/

namespace Fauxchange.Exchange
open Lib Microstructure UnderlyingOrderBook

/-- Two registries in lockstep with the same resting orders are the same. -/
theorem OrderRegistry.Lockstep.ext {first second : OrderRegistry} (lockstep : first.Lockstep)
    (lockstep' : second.Lockstep) (resting : first.resting = second.resting) : first = second := by
  have names : first.venueToEngine = second.venueToEngine := by
    refine Std.ExtTreeMap.ext_getElem? fun orderId => Option.ext fun engineId => ?_
    rw [lockstep orderId engineId, lockstep' orderId engineId, resting]
  obtain ⟨orders, ids⟩ := first
  obtain ⟨orders', ids'⟩ := second
  dsimp only at resting names
  rw [resting, names]

/-- The captured records are the entries of the map. -/
theorem IdempotencyMap.fromRecords_capture (map : IdempotencyMap) : fromRecords (capture map) = map :=
  writeAll_toList _ (fun _ _ => rfl) fun _ _ => rfl

namespace Coherent
variable {U : Upstream} {laws : BookLaws U} {state : SequencedState U} {bound : Nat} {address : LeafAddress}

/-- The registry is the one that registering the cut builds. -/
theorem registry_eq (coherent : Coherent laws state bound) (lockstep : state.registry.Lockstep)
    (cut : ConsistentCut laws state.underlyingBook.underlying state.captureState.restingOrders) :
    registerAll .new state.captureState.restingOrders = state.registry := by
  have again : (registerAll .new state.captureState.restingOrders).Lockstep :=
    registerAll_lockstep OrderRegistry.lockstep_new cut.engineIds cut.venueIds (by simp [OrderRegistry.new])
      (by simp [OrderRegistry.new])
  refine again.ext lockstep (Std.ExtTreeMap.ext_getElem? fun engineId => ?_)
  cases present : state.registry.resting[engineId]? with
  | none =>
    by_contra registered
    obtain ⟨record, here⟩ := Option.ne_none_iff_exists'.1 registered
    obtain ⟨capture, member, rfl⟩ := exists_of_registerAll here
    obtain ⟨found, -, -, there, -⟩ := coherent.mem_cut member
    rw [present] at there
    cases there
  | some record =>
    obtain ⟨-, order, -, -, same, -, -, captured⟩ := coherent.captured present
    have id : (record.capture order).engineSeq = engineId := same
    have member : record.capture order ∈ state.captureState.restingOrders :=
      mem_restingOrders.2 ⟨record, id ▸ present, id ▸ captured⟩
    obtain ⟨found, -, -, there, -, -, -, restored, -⟩ := coherent.mem_cut member
    have resting := cut.resting member
    rw [id] at resting there
    rw [resting, restored, ← there, present]

/-- The orders of every leaf are those of the cut. -/
theorem orders_eq (coherent : Coherent laws state bound) (place : LeafAddress) :
    ordersOf U state.underlyingBook.underlying state.captureState.restingOrders place =
      laws.ordersAt state.underlyingBook place := by
  have ascending : (ordersOf U state.underlyingBook.underlying state.captureState.restingOrders place).Pairwise
      fun left right => left.id < right.id :=
    List.pairwise_map.2 ((restingOrders_ascending state).sublist List.filter_sublist)
  have sorted := (coherent.shaped place).sorted
  have members : ∀ order, order ∈ ordersOf U state.underlyingBook.underlying state.captureState.restingOrders place ↔
      order ∈ laws.ordersAt state.underlyingBook place := by
    intro order
    constructor
    · intro listed
      obtain ⟨capture, kept, rfl⟩ := List.mem_map.1 listed
      obtain ⟨member, here⟩ := List.mem_filter.1 kept
      obtain ⟨-, address, -, -, lives, resting, rfl, -⟩ := coherent.mem_cut member
      rw [of_decide_eq_true here] at lives
      rw [Option.some.inj lives]
      exact resting
    · intro resting
      obtain ⟨capture, member, rfl, lives⟩ := coherent.cut_of_order resting
      exact List.mem_map.2 ⟨capture, List.mem_filter.2 ⟨member, by simpa using lives⟩, rfl⟩
  have perm := (List.perm_ext_iff_of_nodup (ascending.imp fun before => by rintro rfl; omega)
    (sorted.imp fun before => by rintro rfl; omega)).2 members
  refine List.Perm.eq_of_pairwise ?_ ascending sorted perm
  intro left right _ _ before after
  omega

/-- The leaves of a coherent state are active, so the cut has no statuses. -/
theorem captureInstrumentStatuses (coherent : Coherent laws state bound) : state.captureInstrumentStatuses = [] := by
  have active : ∀ entry ∈ state.underlyingBook.strikes.toList, ∀ style, U.status (entry.2.leaf style) = .active := by
    intro entry member style
    have found := Std.ExtTreeMap.mem_toList_iff_getElem?_eq_some.1 member
    have plain := coherent.plain ⟨entry.1.1, entry.1.2, style⟩
    have here : state.underlyingBook.leafAt ⟨entry.1.1, entry.1.2, style⟩ = entry.2.leaf style := by
      simp [leafAt, leaf?, found]
    rw [here] at plain
    rw [laws.status_eq]
    exact plain.active
  have none : state.underlyingBook.strikes.toList.flatMap
      (SequencedState.captureStrikeStatuses state.underlyingBook.underlying) = [] := by
    rw [List.flatMap_eq_nil_iff]
    intro entry member
    simp [SequencedState.captureStrikeStatuses, active entry member]
  unfold SequencedState.captureInstrumentStatuses
  rw [none]
  rfl

/-- A coherent state with distinct venue ids and no expired order is rebuilt from its own cut. -/
theorem prepareRestore (coherent : Coherent laws state bound) (lockstep : state.registry.Lockstep)
    (unexpired : ∀ capture ∈ state.captureState.restingOrders, laws.unexpired capture.timeInForce) :
    ∃ restored, SequencedState.prepareRestore U state.underlyingBook.underlying state.captureState = .ok restored ∧
      Coherent laws restored bound ∧
      restored.underlyingBook.underlying = state.underlyingBook.underlying ∧
      restored.registry = state.registry ∧
      restored.idempotency = state.idempotency ∧
      ∀ place, laws.ordersAt restored.underlyingBook place = laws.ordersAt state.underlyingBook place := by
  have cut := coherent.consistentCut lockstep unexpired
  have sorted : sortByKey RestingOrderCapture.engineSeq state.captureState.restingOrders =
      state.captureState.restingOrders :=
    sortByKey_of_sorted ((restingOrders_ascending state).imp Nat.le_of_lt)
  have below : ∀ capture ∈ state.captureState.restingOrders, capture.engineSeq < bound := by
    intro capture member
    obtain ⟨record, -, -, present, -⟩ := coherent.mem_cut member
    exact coherent.below present
  obtain ⟨rebuilt, done, built, named, registry, orders⟩ := cut.rebuild below
  rw [sorted] at registry orders
  refine ⟨{ rebuilt with idempotency := state.idempotency }, ?_, built.of_eq rfl rfl, named, ?_, rfl, ?_⟩
  · unfold SequencedState.prepareRestore
    rw [validateResting_ok cut.fits]
    dsimp only
    rw [done]
    dsimp only
    rw [show state.captureState.instrumentStatuses = [] from coherent.captureInstrumentStatuses,
      show state.captureState.idempotency = IdempotencyMap.capture state.idempotency from rfl,
      IdempotencyMap.fromRecords_capture]
    rfl
  · exact registry.trans (coherent.registry_eq lockstep cut)
  · exact fun place => (orders place).trans (coherent.orders_eq place)

end Coherent

section Executors
variable {U : Upstream} {laws : BookLaws U} {underlying : String} {lineage : LineageId}
  {microstructure : Option MicrostructureConfig} {names : List VenueOrderId} {bound : Nat}
  {executor : MatchingExecutor U}

/-- The captured resting orders have not expired. -/
def Unexpired (laws : BookLaws U) (executor : MatchingExecutor U) : Prop :=
  ∀ capture ∈ executor.captureState.restingOrders, laws.unexpired capture.timeInForce

def AllActive (executor : MatchingExecutor U) : Prop :=
  ∀ symbol, executor.state.instrumentStatus.statusOf symbol = .active

/-- The executors a venue can come to hold for an underlying: booted, after any admitted command, and restored from
the capture of one of them. The indices are the venue order ids placed so far and a bound of its sequences. -/
inductive Reached (laws : BookLaws U) (underlying : String) (lineage : LineageId)
    (microstructure : Option MicrostructureConfig) : List VenueOrderId → Nat → MatchingExecutor U → Prop where
  | booted (sink : Option (List MarketMakerControlKnobs)) (hashOrder : VisitOrder) :
      Reached laws underlying lineage microstructure [] 0 (freshExecutor U underlying microstructure sink hashOrder)
  | commanded {names : List VenueOrderId} {bound : Nat} {executor : MatchingExecutor U}
      (reached : Reached laws underlying lineage microstructure names bound executor) (command : JournalCommand)
      (admits : Admits names bound executor.state command) :
      Reached laws underlying lineage microstructure (names ++ command.command.placedId.toList) (command.sequence + 1)
        (deriveEvent underlying lineage executor command).2
  | restored {names : List VenueOrderId} {bound : Nat} {executor restored : MatchingExecutor U}
      (reached : Reached laws underlying lineage microstructure names bound executor)
      (unexpired : Unexpired laws executor) (hashOrder : VisitOrder)
      (prepared : executor.prepareRestore hashOrder executor.captureState = .ok restored) :
      Reached laws underlying lineage microstructure names bound restored

/-- What a restore from a capture shows: all of the captured state but its statuses. -/
theorem Kept.prepareRestore (kept : Kept laws names bound executor.state) (unexpired : Unexpired laws executor)
    (hashOrder : VisitOrder) {live : MatchingExecutor U}
    (same : live.state.underlyingBook.underlying = executor.state.underlyingBook.underlying) :
    ∃ restored, live.prepareRestore hashOrder executor.captureState = .ok restored ∧
      Kept laws names bound restored.state ∧
      restored.state.underlyingBook.underlying = executor.state.underlyingBook.underlying ∧
      restored.state.registry = executor.state.registry ∧
      restored.state.idempotency = executor.state.idempotency ∧
      ∀ place, laws.ordersAt restored.state.underlyingBook place =
        laws.ordersAt executor.state.underlyingBook place := by
  obtain ⟨state, prepared, coherent, named, registry, idempotency, orders⟩ :=
    kept.coherent.prepareRestore kept.tracked.lockstep unexpired
  refine ⟨⟨state, none, hashOrder⟩, MatchingExecutor.prepareRestore_eq_ok.2 ⟨state, ?_, rfl⟩, ⟨coherent, ?_⟩, named,
    registry, idempotency, orders⟩
  · rw [same]
    exact prepared
  · rw [registry]
    exact kept.tracked

theorem Reached.kept (neutral : Neutral (bookSettings underlying microstructure))
    (reached : Reached laws underlying lineage microstructure names bound executor) :
    Kept laws names bound executor.state ∧ executor.state.underlyingBook.underlying = underlying := by
  induction reached with
  | booted sink hashOrder =>
    exact ⟨⟨coherent_fromBook neutral 0, OrderRegistry.tracked_new 0⟩, rfl⟩
  | commanded reached command admits ih =>
    exact ⟨ih.1.derive admits, (congrArg Prod.fst (deriveEvent_identity _ command)).trans ih.2⟩
  | restored reached unexpired hashOrder prepared ih =>
    obtain ⟨restored, done, kept, named, -⟩ := ih.1.prepareRestore unexpired hashOrder rfl
    rw [prepared] at done
    obtain rfl := Except.ok.inj done
    exact ⟨kept, named.trans ih.2⟩

/-- A restored executor in place of the captured one: the same resting orders in the same priority, the same venue
ids and idempotency answers, and the same fills for whatever is admitted later within the specs. -/
structure RoundTrip (laws : BookLaws U) (underlying : String) (lineage : LineageId) (names : List VenueOrderId)
    (bound : Nat) (captured restored : MatchingExecutor U) : Prop where
  resting : restored.captureState.restingOrders = captured.captureState.restingOrders
  priority : ∀ address, laws.ordersAt restored.state.underlyingBook address =
    laws.ordersAt captured.state.underlyingBook address
  registry : restored.state.registry = captured.state.registry
  idempotency : ∀ (account : AccountId) (clientOrderId : ClientOrderId),
    restored.state.idempotency[(account, clientOrderId)]? = captured.state.idempotency[(account, clientOrderId)]?
  fills : ∀ further, AdmitsRun underlying lineage names bound captured further →
    (∀ command ∈ further, command.command.WithinSpecs captured.state.underlyingBook.config.specs) →
    (reexecute underlying lineage restored further).1.map VenueEvent.fills =
      (reexecute underlying lineage captured further).1.map VenueEvent.fills

/-- Restored stores in place of the captured ones: the same executions of the underlying, in the same order for
every account, and the same positions. -/
structure StoresRoundTrip (underlying : String) (captured restored : StoreFanOut U) : Prop where
  executions : restored.executions.slice underlying = captured.executions.slice underlying
  listed : ∀ account limit, restored.executions.list account ⟨some underlying, limit⟩ =
    captured.executions.list account ⟨some underlying, limit⟩
  positions : restored.positions.slice underlying = captured.positions.slice underlying

theorem Kept.alike_restored (kept : Kept laws names bound executor.state) (unexpired : Unexpired laws executor)
    (active : AllActive executor) (hashOrder : VisitOrder) {live : MatchingExecutor U}
    (same : live.state.underlyingBook.underlying = executor.state.underlyingBook.underlying) :
    ∃ restored, live.prepareRestore hashOrder executor.captureState = .ok restored ∧
      Kept laws names bound restored.state ∧ Alike laws executor.state restored.state := by
  obtain ⟨restored, done, kept', named, registry, idempotency, orders⟩ := kept.prepareRestore unexpired hashOrder same
  refine ⟨restored, done, kept', named.symm, registry.symm, idempotency.symm, fun symbol => ?_,
    fun place => (orders place).symm⟩
  rw [active symbol, (MatchingExecutor.prepareRestore_bare done).2.2]
  simp [InstrumentStatusRegistry.statusOf, InstrumentStatusRegistry.new]

/-- On a venue without fees and self-trade prevention, an executor with every instrument active and no expired
order is restored from its capture to one that nothing later tells apart. -/
theorem capture_round_trip (neutral : Neutral (bookSettings underlying microstructure))
    (reached : Reached laws underlying lineage microstructure names bound executor)
    (unexpired : Unexpired laws executor) (active : AllActive executor) {live : MatchingExecutor U}
    (same : live.state.underlyingBook.underlying = underlying) (hashOrder : VisitOrder) {stores : StoreFanOut U}
    (fed : stores.Fed) (later : StoreFanOut U) :
    (∃ prepared, live.prepareRestore hashOrder executor.captureState = .ok prepared ∧
      RoundTrip laws underlying lineage names bound executor (live.commitRestore prepared)) ∧
    StoresRoundTrip underlying stores (later.restoreFor underlying (stores.executions.captureFor underlying)
      (stores.positions.captureFor underlying)) := by
  obtain ⟨kept, named⟩ := reached.kept neutral
  obtain ⟨prepared, done, kept', alike⟩ := kept.alike_restored unexpired active hashOrder (same.trans named.symm)
  have executions := fed.keyed.slice_restored later.executions underlying
  refine ⟨⟨prepared, done, ?_⟩, executions, fun account limit => InMemoryExecutionsStore.list_congr executions account
    limit, InMemoryPositionsStore.slice_restored stores.positions later.positions underlying⟩
  constructor
  · exact (restingOrders_congr alike.underlying alike.registry alike.orders).symm
  · exact fun address => (alike.orders address).symm
  · exact alike.registry.symm
  · intro account clientOrderId
    change prepared.state.idempotency[(account, clientOrderId)]? = _
    rw [alike.idempotency]
  · intro further admitted within
    refine (alike.reexecute kept kept'.coherent admitted within fun command _ => ?_).1.symm
    rw [(MatchingExecutor.prepareRestore_bare done).2.1]
    exact command.command.withinSpecs_none

end Executors

/-- A bid of the test contract under a client order id. -/
def namedBid : VenueCommand :=
  .addOrder ⟨"BTC-20351231-50000-C", "a", "acct-1", 7, some "c-1", .buy, .limit, some 100, 2, .gtc, .none⟩

/-- The executor once the bid rests, and the offer that takes half of it. -/
def bidding : MatchingExecutor referenceUpstream :=
  (deriveEvent "BTC" "run-1" (freshExecutor referenceUpstream "BTC" none none fun _ _ => Equiv.refl _)
    ⟨0, 1, namedBid⟩).2

def halfTaken : VenueEvent × MatchingExecutor referenceUpstream :=
  deriveEvent "BTC" "run-1" bidding ⟨1, 2, testOrder "b" .sell 100⟩

/-- The stores that have heard of the trade. -/
def tradedStores : StoreFanOut referenceUpstream := ((StoreFanOut.new referenceUpstream).emit halfTaken.1).2

theorem half_taken_round_trip :
    (∃ prepared, halfTaken.2.prepareRestore (fun _ _ => Fin.revPerm) halfTaken.2.captureState = .ok prepared ∧
      RoundTrip referenceLaws "BTC" "run-1" ["a", "b"] 2 halfTaken.2 (halfTaken.2.commitRestore prepared)) ∧
    StoresRoundTrip "BTC" tradedStores ((StoreFanOut.new referenceUpstream).restoreFor "BTC"
      (tradedStores.executions.captureFor "BTC") (tradedStores.positions.captureFor "BTC")) := by
  have booted := @Reached.booted referenceUpstream referenceLaws "BTC" "run-1" none none fun _ _ => Equiv.refl _
  have first := booted.commanded ⟨0, 1, namedBid⟩ ⟨by decide, by simp, ⟨by decide, by simp [u64Max]⟩, by decide⟩
  have second := first.commanded ⟨1, 2, testOrder "b" .sell 100⟩
    ⟨by decide, by decide, ⟨by decide, by simp [u64Max]⟩, by decide⟩
  have neutral : Neutral (bookSettings "BTC" none) := neutral_bare
  exact capture_round_trip neutral second (fun _ _ => trivial) (fun _ => rfl) rfl (fun _ _ => Fin.revPerm)
    (.emitted .new halfTaken.1) _

/-- An offer rests, its instrument is halted, and the venue is restored from its own capture: a bid that was
refused before takes the offer after it. -/
theorem halted_offer_trades_after_restore :
    ∃ prepared, restoredOffer [.halted] = .ok prepared ∧
      ¬ RoundTrip referenceLaws "BTC" "run-1" ["a"] 2 (offeringExecutor [.halted])
        ((offeringExecutor [.halted]).commitRestore prepared) := by
  obtain ⟨prepared, done⟩ := exists_restoredOffer (show (restoredOffer [.halted]).isOk = true by decide)
  have trades : (restoredOffer [.halted]).toOption.map (fun prepared => (reexecute "BTC" "run-1" prepared
      [⟨9, 9, testOrder "b" .buy 200⟩]).1.map fun event => event.fills.length) = some [2] := by
    decide
  rw [done] at trades
  refine ⟨prepared, done, fun trip => ?_⟩
  have same := trip.fills [⟨9, 9, testOrder "b" .buy 200⟩]
    ⟨⟨by decide, by decide, ⟨by decide, by simp [u64Max]⟩, by decide⟩, trivial⟩ (by
      intro command member
      rw [List.mem_singleton.1 member]
      exact fun price offered => by cases offered; decide)
  have counted := congrArg (List.map List.length) same
  rw [List.map_map, List.map_map] at counted
  have after : ((reexecute "BTC" "run-1" prepared [⟨9, 9, testOrder "b" .buy 200⟩]).1.map
      fun event => event.fills.length) = [2] := Option.some.inj trades
  change ((reexecute "BTC" "run-1" prepared [⟨9, 9, testOrder "b" .buy 200⟩]).1.map
    fun event => event.fills.length) = _ at counted
  rw [after] at counted
  revert counted
  decide

end Fauxchange.Exchange
