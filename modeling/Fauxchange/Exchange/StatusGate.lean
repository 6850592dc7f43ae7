import Fauxchange.Exchange.Isolation

/-! The instrument-status gate: which commands can fill or rest on an instrument that is not active. The gate stands on
the path of an add, and none stands before the add leg of a replace. -/

namespace Fauxchange.Exchange
open Lib UnderlyingOrderBook

/-- The instrument a command places an order on, if it places one, is not active. -/
def NotActive {U : Upstream} (state : SequencedState U) (command : VenueCommand) : Prop :=
  ∀ symbol, commandSymbol command = some symbol → state.instrumentStatus.statusOf symbol ≠ .active

/-- A command fills nothing and rests nothing: no order joins a leaf, those that stay are unchanged, and the registry
gains no record. -/
structure NothingPlaced {U : Upstream} (laws : LeafLaws U) (before : SequencedState U)
    (result : VenueOutcome × SequencedState U) : Prop where
  silent : outcomeFills result.1 = []
  books : ∀ address, (laws.orders (result.2.underlyingBook.leafAt address)).Sublist
    (laws.orders (before.underlyingBook.leafAt address))
  registry : ∀ (id : Nat) (record : RestingRecord), result.2.registry.resting[id]? = some record →
    before.registry.resting[id]? = some record

/-- A replace comes to its add leg: it names an order of its account that rests on the instrument, and has a limit
price. -/
def ReachesAddLeg {U : Upstream} (laws : LeafLaws U) (state : SequencedState U) (order : Replace) : Prop :=
  order.limitPrice ≠ none ∧ ∃ address engineId, state.home order.symbol = some address ∧
    state.registry.venueToEngine[order.orderId]? = some engineId ∧
      state.registry.accountOwns engineId order.account = true ∧
        engineId ∈ idsOf (laws.orders (state.underlyingBook.leafAt address))

section Steps
variable {U : Upstream} {laws : LeafLaws U} {state : SequencedState U} {visits : VisitOrder} {ctx : ExecutionContext}

theorem NothingPlaced.of_spares {outcome : VenueOutcome} {after : SequencedState U} (silent : outcomeFills outcome = [])
    (spares : Spares (fun _ => True) (laws.viewOf state) (laws.viewOf after))
    (registry : ∀ (id : Nat) (record : RestingRecord), after.registry.resting[id]? = some record →
      state.registry.resting[id]? = some record) : NothingPlaced laws state (outcome, after) :=
  ⟨silent, spares.place, registry⟩

theorem NothingPlaced.of_view {outcome : VenueOutcome} {after : SequencedState U} (silent : outcomeFills outcome = [])
    (same : laws.viewOf after = laws.viewOf state) : NothingPlaced laws state (outcome, after) := by
  have registry : after.registry = state.registry := congrArg BookView.registry same
  refine .of_spares silent (same ▸ .refl _ _) fun id record present => ?_
  rw [registry] at present
  exact present

/-- An eviction takes orders out of the leaves and changes no other. -/
theorem evictLeaves_place (nowMs : Nat) (book : UnderlyingOrderBook U) (symbols : List Symbol) (address : LeafAddress) :
    (laws.orders ((SequencedState.evictLeaves nowMs book symbols).2.leafAt address)).Sublist
      (laws.orders (book.leafAt address)) := by
  have written : ∀ {book : UnderlyingOrderBook U} {here : LeafAddress} {leaf : U.Leaf}, (book.leaf? here).isSome →
      (laws.orders leaf).Sublist (laws.orders (book.leafAt here)) →
      (laws.orders ((book.setLeaf here leaf).leafAt address)).Sublist (laws.orders (book.leafAt address)) := by
    intro book here leaf present less
    by_cases same : address = here
    · subst same
      rw [leafAt_setLeaf_self _ _ present]
      exact less
    · rw [leafAt_setLeaf_of_ne _ _ same]
  have first : ∀ (book : UnderlyingOrderBook U) symbol,
      (laws.orders ((SequencedState.evictLeaf nowMs book symbol).2.leafAt address)).Sublist
        (laws.orders (book.leafAt address)) := by
    intro book symbol
    unfold SequencedState.evictLeaf
    split
    · exact List.Sublist.refl _
    next here leaf resolved =>
      obtain ⟨-, present, rfl⟩ := resolveLeafRead_eq_some resolved
      split
      next ids leaf swept =>
        have after := (laws.evicted _ nowMs ids (by rw [swept])).2
        rw [swept] at after
        exact written present (after ▸ List.filter_sublist)
      next error leaf refused =>
        have after := laws.unevicted _ nowMs error (by rw [refused])
        rw [refused] at after
        exact written present (after ▸ List.Sublist.refl _)
  induction symbols generalizing book with
  | nil => exact List.Sublist.refl _
  | cons symbol rest ih => exact (ih (SequencedState.evictLeaf nowMs book symbol).2).trans (first book symbol)

/-- A command that is no placement places nothing. -/
theorem other_places_nothing (other : commandSymbol ctx.command = none) :
    NothingPlaced laws state (state.execute visits ctx) := by
  have silent := SequencedState.execute_silent visits state ctx other
  have unplaced : ∀ record, ¬ PlacedBy state ctx.command record := by
    intro record placed
    cases command : ctx.command <;> rw [command] at other placed <;> cases other <;> exact placed
  have registry : ∀ (id : Nat) (record : RestingRecord),
      (state.execute visits ctx).2.registry.resting[id]? = some record → state.registry.resting[id]? = some record := by
    intro id record present
    rcases (SequencedState.execute_places visits state ctx).resting present with before | ⟨-, placed⟩
    · exact before
    · exact absurd placed (unplaced record)
  refine ⟨silent, ?_, registry⟩
  have swept : ∀ targets, Spares (fun _ => True) (laws.viewOf state) (laws.viewOf (state.cancelTargets targets).2) :=
    fun targets => cancelTargets_spares fun _ _ => trivial
  unfold SequencedState.execute
  cases command : ctx.command with
  | addOrder order =>
    rw [command] at other
    cases other
  | replace order =>
    rw [command] at other
    cases other
  | cancelOrder symbol orderId account =>
    exact (@executeCancel_spares U laws state (fun _ => True) symbol orderId account fun _ _ _ _ => trivial).place
  | massCancel scope cancelType account =>
    dsimp only
    unfold SequencedState.executeMassCancel
    split
    · exact (Spares.refl (fun _ => True) (laws.viewOf state)).place
    · exact (swept _).place
  | setInstrumentStatus symbol status =>
    have same := @SequencedState.executeSetInstrumentStatus_view U laws state symbol status
    have still : NothingPlaced laws state (.controlApplied [], _) := .of_view rfl same
    exact still.books
  | evictExpiredOrders nowMs => exact evictLeaves_place nowMs state.underlyingBook _
  | marketMakerControl knobs =>
    dsimp only
    unfold SequencedState.executeMarketMakerControl
    split
    · exact (swept _).place
    · exact (Spares.refl (fun _ => True) (laws.viewOf state)).place
  | clock => exact (Spares.refl (fun _ => True) (laws.viewOf state)).place
  | simStep => exact (Spares.refl (fun _ => True) (laws.viewOf state)).place

/-- The gate of an add. -/
theorem gated_add_places_nothing (accepting : ∀ status, U.isAcceptingOrders status = true → status = .active)
    {order : AddOrder} (closed : state.instrumentStatus.statusOf order.symbol ≠ .active) :
    NothingPlaced laws state (state.addWithIdempotency visits ctx order) := by
  have refused : state.instrumentStatus.isAcceptingOrders U order.symbol = false :=
    Bool.not_eq_true _ ▸ fun accepts => closed (accepting _ accepts)
  have gate : NothingPlaced laws state
      (state.executeAddOrder visits ctx order.placement order.orderType order.limitPrice) := by
    unfold SequencedState.executeAddOrder
    cases resolved : state.underlyingBook.resolveLeafVivify order.placement.symbol with
    | error reason => exact .of_view rfl rfl
    | ok found =>
      obtain ⟨address, book⟩ := found
      obtain ⟨-, rfl⟩ := resolveLeafVivify_eq_ok.1 resolved
      dsimp only
      rw [if_pos (by rw [show order.placement.symbol = order.symbol from rfl, refused]; rfl)]
      exact .of_view rfl viewOf_vivify
  unfold SequencedState.addWithIdempotency
  split
  · exact gate
  · split
    · split <;> exact .of_view rfl rfl
    · exact ⟨gate.silent, gate.books, gate.registry⟩

/-- A replace that does not come to its add leg places nothing. -/
theorem replace_places_nothing {order : Replace} (halts : ¬ ReachesAddLeg laws state order) :
    NothingPlaced laws state (state.executeReplace visits ctx order) := by
  unfold SequencedState.executeReplace
  cases resolved : state.underlyingBook.resolveLeafVivify order.symbol with
  | error reason => exact .of_view rfl rfl
  | ok found =>
    obtain ⟨address, book⟩ := found
    obtain ⟨lives, rfl⟩ := resolveLeafVivify_eq_ok.1 resolved
    dsimp only
    split
    · exact .of_view rfl viewOf_vivify
    next engineId named =>
      split
      · exact .of_view rfl viewOf_vivify
      next owned =>
        let vivified : SequencedState U := { state with underlyingBook := state.underlyingBook.vivify address }
        have viewed : laws.viewOf vivified = laws.viewOf state := viewOf_vivify
        have present : (vivified.underlyingBook.leaf? address).isSome := by
          rw [show vivified.underlyingBook.leaf? address = _ from leaf?_vivify_self _ _]
          rfl
        split
        next leaf hit =>
          have told : (U.cancelOrder (vivified.underlyingBook.leafAt address) engineId).1 = .ok true :=
            congrArg Prod.fst hit
          split
          next price priced =>
            -- the cancel has removed an order, so it rested on the instrument
            have rests := (laws.cancelled _ _ told).1
            rw [show vivified.underlyingBook.leafAt address = _ from leafAt_vivify ..] at rests
            exact absurd ⟨by rw [priced]; simp, address, engineId, lives, named, by simpa using owned, rests⟩ halts
          next =>
            have spares := @cancelled_spares U laws vivified (fun _ => True) address engineId present told trivial
            rw [show U.cancelOrder (vivified.underlyingBook.leafAt address) engineId = _ from hit, viewed] at spares
            exact .of_spares rfl spares fun id record here => state.registry.removeAll_subset [engineId] here
        next result leaf other missed =>
          have same := @uncancelled_view U laws vivified address engineId (by
            rw [show U.cancelOrder (vivified.underlyingBook.leafAt address) engineId = _ from missed]
            exact other)
          rw [show U.cancelOrder (vivified.underlyingBook.leafAt address) engineId = _ from missed, viewed] at same
          exact .of_view rfl same

end Steps

/-- Every replace that a run executes while its instrument is not active stops before its add leg. -/
def ReplacesHalt {U : Upstream} (laws : LeafLaws U) : MatchingExecutor U → List ExecutionContext → Prop :=
  MatchingExecutor.Along fun executor ctx => ∀ order, ctx.command = .replace order →
    executor.state.instrumentStatus.statusOf order.symbol ≠ .active → ¬ ReachesAddLeg laws executor.state order

/-- Every command that a run executes while its instrument is not active places nothing. -/
def GateHolds {U : Upstream} (laws : LeafLaws U) : MatchingExecutor U → List ExecutionContext → Prop :=
  MatchingExecutor.Along fun executor ctx => NotActive executor.state ctx.command →
    NothingPlaced laws executor.state (executor.state.execute executor.hashOrder ctx)

theorem gateHolds_of_replacesHalt {U : Upstream} {laws : LeafLaws U}
    (accepting : ∀ status, U.isAcceptingOrders status = true → status = .active) {executor : MatchingExecutor U}
    {contexts : List ExecutionContext} (halts : ReplacesHalt laws executor contexts) :
    GateHolds laws executor contexts := by
  intro early ctx late split closed
  cases target : commandSymbol ctx.command with
  | none => exact other_places_nothing target
  | some symbol =>
    have notActive := closed symbol target
    unfold SequencedState.execute
    cases command : ctx.command with
    | addOrder order =>
      rw [command] at target
      obtain rfl := Option.some.inj target
      exact gated_add_places_nothing accepting notActive
    | replace order =>
      rw [command] at target
      obtain rfl := Option.some.inj target
      exact replace_places_nothing (halts early ctx late split order command notActive)
    | _ =>
      rw [command] at target
      cases target

/-- An ask, the halt of its instrument, and a replace of an order. -/
def haltedReplace (orderId : VenueOrderId) : List ExecutionContext :=
  [⟨"BTC", "run-1", 1, 10, .addOrder ⟨"BTC-20351231-50000-C", "a", "acct-1", 7, none, .sell, .limit, some 100, 5, .gtc,
      .none⟩⟩,
    ⟨"BTC", "run-1", 2, 11, .setInstrumentStatus "BTC-20351231-50000-C" .halted⟩,
    ⟨"BTC", "run-1", 3, 12, .replace ⟨"BTC-20351231-50000-C", orderId, "b", "acct-1", none, none, .sell, some 110, 4, .gtc,
      .none⟩⟩]

/-- The replace of an unknown order is refused. -/
theorem unknownReplace_gated :
    GateHolds referenceLeafLaws (.new "BTC" fun _ _ => Equiv.refl _) (haltedReplace "ghost") := by
  refine gateHolds_of_replacesHalt (fun status accepts => of_decide_eq_true accepts)
    (.cons (fun order replace => by cases replace) (.cons (fun order replace => by cases replace)
      (.cons (fun order replace closed reaches => ?_) .nil)))
  cases replace
  obtain ⟨-, address, engineId, -, named, -⟩ := reaches
  have known := Option.isSome_of_mem named
  revert known
  decide

/-- The replace of the ask rests on the halted instrument. -/
theorem ownReplace_ungated :
    ¬ GateHolds referenceLeafLaws (.new "BTC" fun _ _ => Equiv.refl _) (haltedReplace "a") := by
  intro holds
  have placed := holds (haltedReplace "a").dropLast _ [] rfl
    (fun symbol target => by obtain rfl := Option.some.inj target; decide)
  have rested := placed.registry 3 ⟨"BTC-20351231-50000-C", "b", "acct-1", 7, .sell⟩ (by decide)
  revert rested
  decide

end Fauxchange.Exchange
