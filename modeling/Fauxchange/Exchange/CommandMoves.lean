import Fauxchange.Exchange.BookMoves

/-! Which moves a command makes, and how its outcome reports them. -/

namespace Fauxchange.Exchange
open Lib UnderlyingOrderBook

/-- Where the symbols of an executor live. -/
def SequencedState.home {U : Upstream} (state : SequencedState U) : Symbol → Option LeafAddress :=
  addressOf? U state.underlyingBook.underlying

section View
variable {U : Upstream} (laws : LeafLaws U) (state : SequencedState U)

/-- What the venue sees of the books of a state. -/
def LeafLaws.viewOf : BookView :=
  ⟨fun address => laws.orders (state.underlyingBook.leafAt address), state.registry⟩

variable {laws state} {address : LeafAddress} {leaf : U.Leaf} {registry : OrderRegistry}

/-- A leaf in which an order rests has been created. -/
theorem present_of_rests {id : Nat} (rests : id ∈ idsOf ((laws.viewOf state).orders address)) :
    (state.underlyingBook.leaf? address).isSome := by
  by_contra absent
  have fresh : state.underlyingBook.leafAt address = U.new state.underlyingBook.config := by
    rw [leafAt, Option.not_isSome_iff_eq_none.1 absent]
    rfl
  change id ∈ idsOf (laws.orders (state.underlyingBook.leafAt address)) at rests
  rw [fresh, laws.new_orders] at rests
  cases rests

@[simp] theorem viewOf_vivify :
    laws.viewOf { state with underlyingBook := state.underlyingBook.vivify address } = laws.viewOf state := by
  simp [LeafLaws.viewOf]

theorem viewOf_commitLeaf (present : (state.underlyingBook.leaf? address).isSome) :
    laws.viewOf (state.commitLeaf address registry leaf) = (laws.viewOf state).set address (laws.orders leaf) registry := by
  unfold LeafLaws.viewOf BookView.set SequencedState.commitLeaf
  congr 1
  funext other
  by_cases here : other = address
  · subst here
    rw [Function.update_self, leafAt_setLeaf_self _ _ present]
  · rw [Function.update_of_ne here, leafAt_setLeaf_of_ne _ _ here]

/-- A leaf that shows the same orders shows the same view. -/
theorem viewOf_commitLeaf_same (same : laws.orders leaf = laws.orders (state.underlyingBook.leafAt address)) :
    laws.viewOf (state.commitLeaf address state.registry leaf) = laws.viewOf state := by
  cases absent : state.underlyingBook.leaf? address with
  | some old =>
    rw [viewOf_commitLeaf (by rw [absent]; rfl), same]
    exact BookView.set_self
  | none =>
    unfold LeafLaws.viewOf SequencedState.commitLeaf
    congr 1
    funext other
    dsimp only
    unfold leafAt
    rw [leaf?_setLeaf]
    split
    next here =>
      rw [here, absent]
      rfl
    next => rfl

end View

/-- An order that a sweep drops: where it rests, under which engine id, and its record. -/
structure Drop where
  address : LeafAddress
  engineId : Nat
  record : RestingRecord

def Drop.move (drop : Drop) : Move := .dropped drop.address drop.engineId drop.record

def Drop.target (drop : Drop) : Nat × RestingRecord := (drop.engineId, drop.record)

section Cancel
variable {U : Upstream} {laws : LeafLaws U} {state : SequencedState U} {address : LeafAddress} {engineId : Nat}
  (step : InStep state.home (laws.viewOf state))

include step in
/-- A cancel that returns true drops a registered order. -/
theorem cancelled_took (present : (state.underlyingBook.leaf? address).isSome)
    (hit : (U.cancelOrder (state.underlyingBook.leafAt address) engineId).1 = .ok true) :
    ∃ record, state.registry.resting[engineId]? = some record ∧ state.home record.symbol = some address ∧
      Took state.home (laws.viewOf state) (.dropped address engineId record)
        (laws.viewOf (state.commitLeaf address (state.registry.removeResting engineId)
          (U.cancelOrder (state.underlyingBook.leafAt address) engineId).2)) := by
  obtain ⟨rests, after⟩ := laws.cancelled _ _ hit
  obtain ⟨record, registered, lives⟩ := (@InStep.mem_iff _ _ address step engineId).2 rests
  refine ⟨record, registered, lives, ?_⟩
  rw [viewOf_commitLeaf present, after]
  exact .dropped rests registered lives

/-- A cancel that does not return true changes nothing. -/
theorem uncancelled_view (missed : (U.cancelOrder (state.underlyingBook.leafAt address) engineId).1 ≠ .ok true) :
    laws.viewOf (state.commitLeaf address state.registry
      (U.cancelOrder (state.underlyingBook.leafAt address) engineId).2) = laws.viewOf state :=
  viewOf_commitLeaf_same (laws.uncancelled _ _ missed)

/-- An order of an account that a command names by its venue order id and its symbol. -/
structure NamedDrop (home : Symbol → Option LeafAddress) (view : BookView) (symbol : Symbol) (orderId : VenueOrderId)
    (account : AccountId) (drop : Drop) : Prop where
  named : view.registry.venueToEngine[orderId]? = some drop.engineId
  registered : view.registry.resting[drop.engineId]? = some drop.record
  owned : drop.record.account = account
  lives : home symbol = some drop.address

/-- What a cancel reports: a refusal, or the one order that it has dropped. -/
inductive CancelReport (home : Symbol → Option LeafAddress) (view : BookView) (symbol : Symbol) (orderId : VenueOrderId)
    (account : AccountId) : VenueOutcome → List Move → Prop where
  | refused (kind : RejectKind) (reason : String) :
      CancelReport home view symbol orderId account (.rejected kind reason) []
  | dropped (drop : Drop) (named : NamedDrop home view symbol orderId account drop) :
      CancelReport home view symbol orderId account (.cancelled orderId) [drop.move]

include step in
theorem executeCancel_moves (symbol : Symbol) (orderId : VenueOrderId) (account : AccountId) :
    ∃ moves, Moves state.home (laws.viewOf state) moves (laws.viewOf (state.executeCancel symbol orderId account).2) ∧
      CancelReport state.home (laws.viewOf state) symbol orderId account
        (state.executeCancel symbol orderId account).1 moves := by
  have still : ∀ {kind reason} {after : SequencedState U}, laws.viewOf after = laws.viewOf state →
      ∃ moves, Moves state.home (laws.viewOf state) moves (laws.viewOf after) ∧
        CancelReport state.home (laws.viewOf state) symbol orderId account (.rejected kind reason) moves := by
    intro kind reason after same
    exact ⟨[], same ▸ .none _, .refused kind reason⟩
  unfold SequencedState.executeCancel
  split
  · exact still rfl
  next address leaf resolved =>
    obtain ⟨lives, present, rfl⟩ := resolveLeafRead_eq_some resolved
    split
    · exact still rfl
    next engineId named =>
      split
      · exact still rfl
      next owned =>
        obtain ⟨mine, found, same⟩ := OrderRegistry.accountOwns_iff.1 (by simpa using owned)
        split
        next leaf hit =>
          obtain ⟨record, registered, -, took⟩ := cancelled_took step present (by rw [hit])
          rw [hit] at took
          rw [registered] at found
          obtain rfl := Option.some.inj found
          exact ⟨_, .next took (.none _), .dropped ⟨address, engineId, record⟩ ⟨named, registered, same, lives⟩⟩
        next leaf missed =>
          refine still ?_
          have same := @uncancelled_view U laws state address engineId (by rw [missed]; simp)
          rw [missed] at same
          exact same
        next error leaf missed =>
          refine still ?_
          have same := @uncancelled_view U laws state address engineId (by rw [missed]; simp)
          rw [missed] at same
          exact same

end Cancel

section Sweep
variable {U : Upstream} {laws : LeafLaws U} {state : SequencedState U} (step : InStep state.home (laws.viewOf state))

include step in
/-- A sweep over registered orders drops some of them and reports these. -/
theorem cancelTargets_moves {targets : List (Nat × RestingRecord)} (distinct : (targets.map Prod.fst).Nodup)
    (valid : ∀ target ∈ targets, state.registry.resting[target.1]? = some target.2) :
    ∃ drops : List Drop, Moves state.home (laws.viewOf state) (drops.map Drop.move)
        (laws.viewOf (state.cancelTargets targets).2) ∧
      (state.cancelTargets targets).1 = drops.map (fun drop => massCancelLeg drop.record) ∧
        (drops.map Drop.target).Sublist targets := by
  induction targets generalizing state with
  | nil => exact ⟨[], .none _, rfl, .slnil⟩
  | cons target rest ih =>
    obtain ⟨engineId, record⟩ := target
    obtain ⟨unlike, others⟩ := List.nodup_cons.1 distinct
    have here : state.registry.resting[engineId]? = some record := valid (engineId, record) (by simp)
    have later := ih step others fun target member => valid target (List.mem_cons_of_mem _ member)
    have skip : ∀ {legs after}, (∃ drops : List Drop, Moves state.home (laws.viewOf state) (drops.map Drop.move) after ∧
        legs = drops.map (fun drop => massCancelLeg drop.record) ∧ (drops.map Drop.target).Sublist rest) →
        ∃ drops : List Drop, Moves state.home (laws.viewOf state) (drops.map Drop.move) after ∧
          legs = drops.map (fun drop => massCancelLeg drop.record) ∧
            (drops.map Drop.target).Sublist ((engineId, record) :: rest) := by
      rintro legs after ⟨drops, moved, reported, listed⟩
      exact ⟨drops, moved, reported, listed.cons _⟩
    simp only [SequencedState.cancelTargets]
    split
    · exact skip later
    next address leaf resolved =>
      obtain ⟨-, present, rfl⟩ := resolveLeafRead_eq_some resolved
      split
      next leaf hit =>
        obtain ⟨found, registered, lives, took⟩ := cancelled_took step present (by rw [hit])
        rw [hit] at took
        rw [here] at registered
        obtain rfl := Option.some.inj registered
        have remains : ∀ target ∈ rest, (state.registry.removeResting engineId).resting[target.1]? = some target.2 := by
          intro target member
          rw [OrderRegistry.removeResting_getElem?, if_neg, valid target (List.mem_cons_of_mem _ member)]
          have listed : target.1 ∈ rest.map Prod.fst := List.mem_map_of_mem member
          rintro rfl
          exact unlike listed
        obtain ⟨drops, moved, reported, listed⟩ := @ih
          (state.commitLeaf address (state.registry.removeResting engineId) leaf) (step.took took) others remains
        exact ⟨⟨address, engineId, record⟩ :: drops, .next took moved, congrArg _ reported, listed.cons_cons _⟩
      next result leaf other missed =>
        have same := @uncancelled_view U laws state address engineId (by rw [missed]; exact other)
        rw [missed] at same
        have kept := @ih (state.commitLeaf address state.registry leaf) (same.symm ▸ step) others
          fun target member => valid target (List.mem_cons_of_mem _ member)
        rw [same] at kept
        exact skip kept

theorem mem_sweepTargets {order : VisitOrder} {round : Nat} {scope : MassCancelScope} {cancelType : MassCancelType}
    {accountScope : Option AccountId} {target : Nat × RestingRecord} :
    target ∈ state.sweepTargets order round scope cancelType accountScope ↔
      state.registry.resting[target.1]? = some target.2 ∧ massCancelMatches U target.2 scope
        ((scopeExpiry U scope).bind Except.toOption) cancelType accountScope = true := by
  unfold SequencedState.sweepTargets
  rw [(sortByKey_perm _ _).mem_iff, List.mem_filter, (visit_perm _ _ _).mem_iff,
    Std.ExtTreeMap.mem_toList_iff_getElem?_eq_some]

theorem nodup_sweepTargets {order : VisitOrder} {round : Nat} {scope : MassCancelScope} {cancelType : MassCancelType}
    {accountScope : Option AccountId} :
    ((state.sweepTargets order round scope cancelType accountScope).map Prod.fst).Nodup := by
  unfold SequencedState.sweepTargets
  rw [((sortByKey_perm _ _).map Prod.fst).nodup_iff]
  refine List.Nodup.sublist (List.filter_sublist.map Prod.fst) ?_
  rw [((visit_perm _ _ _).map Prod.fst).nodup_iff]
  exact nodup_keys _

include step in
/-- A mass cancel drops orders that it selects, and reports them. -/
theorem sweepMatching_moves (order : VisitOrder) (round : Nat) (scope : MassCancelScope) (cancelType : MassCancelType)
    (accountScope : Option AccountId) :
    ∃ drops : List Drop, Moves state.home (laws.viewOf state) (drops.map Drop.move)
        (laws.viewOf (state.sweepMatching order round scope cancelType accountScope).2) ∧
      (state.sweepMatching order round scope cancelType accountScope).1 =
        drops.map (fun drop => massCancelLeg drop.record) ∧
      ∀ drop ∈ drops, massCancelMatches U drop.record scope ((scopeExpiry U scope).bind Except.toOption) cancelType
        accountScope = true := by
  obtain ⟨drops, moved, reported, listed⟩ := cancelTargets_moves step
    (@nodup_sweepTargets U state order round scope cancelType accountScope)
    fun target member => (mem_sweepTargets.1 member).1
  refine ⟨drops, moved, reported, fun drop member => ?_⟩
  exact (mem_sweepTargets.1 (listed.subset (List.mem_map_of_mem member))).2

end Sweep

section Evict
variable {home : Symbol → Option LeafAddress} {view : BookView} {address : LeafAddress}

/-- An expiry sweep of one leaf, order by order; an id that is gone already changes nothing. -/
theorem evicted_moves (step : InStep home view) {ids : List Nat}
    (known : ∀ id ∈ ids, id ∈ idsOf (view.orders address) ∨ view.registry.resting[id]? = none) :
    ∃ drops : List Drop, Moves home view (drops.map Drop.move)
        (view.set address ((view.orders address).filter fun order => order.id ∉ ids) (view.registry.removeAll ids)) ∧
      (SequencedState.pruneEvicted view.registry ids).1 = drops.map (fun drop => drop.record.venueOrderId) := by
  induction ids generalizing view with
  | nil =>
    have same : ((view.orders address).filter fun order => order.id ∉ []) = view.orders address :=
      List.filter_eq_self.2 fun order _ => by simp
    rw [same]
    exact ⟨[], BookView.set_self.symm ▸ .none _, rfl⟩
  | cons id rest ih =>
    simp only [SequencedState.pruneEvicted]
    split
    next absent =>
      -- the id does not rest here, so neither the book nor the registry changes
      have gone : id ∉ idsOf (view.orders address) := step.unregistered absent
      have same : ((view.orders address).filter fun order => order.id ∉ id :: rest) =
          (view.orders address).filter fun order => order.id ∉ rest := by
        refine List.filter_congr fun order member => ?_
        have unlike : order.id ≠ id := fun same => gone (mem_idsOf.2 ⟨order, member, same⟩)
        simp [unlike]
      have registry : view.registry.removeAll (id :: rest) = view.registry.removeAll rest := by
        rw [OrderRegistry.removeAll, List.foldl_cons, OrderRegistry.removeResting_of_absent absent]
        rfl
      rw [same, registry]
      exact ih step fun other member => known other (List.mem_cons_of_mem _ member)
    next record registered =>
      have rests : id ∈ idsOf (view.orders address) := by
        rcases known id (by simp) with here | absent
        · exact here
        · rw [absent] at registered
          cases registered
      obtain ⟨found, present, lives⟩ := (step.mem_iff id).2 rests
      rw [registered] at present
      obtain rfl := Option.some.inj present
      have took : Took home view (.dropped address id record) _ := .dropped rests registered lives
      obtain ⟨drops, moved, reported⟩ := ih (step.took took) (by
        intro other member
        rw [BookView.set_orders_self, BookView.set_registry, OrderRegistry.removeResting_getElem?, mem_idsOf_filter_ne]
        by_cases same : id = other
        · exact Or.inr (if_pos same)
        · rw [if_neg same]
          exact (known other (List.mem_cons_of_mem _ member)).imp_left fun listed => ⟨listed, Ne.symm same⟩)
      rw [BookView.set_set, BookView.set_orders_self, BookView.set_registry, List.filter_filter] at moved
      refine ⟨⟨address, id, record⟩ :: drops, .next took ?_, congrArg _ reported⟩
      have same : ((view.orders address).filter fun order => order.id ∉ id :: rest) =
          (view.orders address).filter fun order => decide (order.id ∉ rest) && decide (order.id ≠ id) := by
        refine List.filter_congr fun order _ => ?_
        simp [Bool.and_comm]
      rw [same]
      exact moved

variable {U : Upstream} {laws : LeafLaws U} {state : SequencedState U}

theorem evictLeaf_moves (step : InStep state.home (laws.viewOf state)) (nowMs : Nat) (symbol : Symbol) :
    ∃ drops : List Drop, Moves state.home (laws.viewOf state) (drops.map Drop.move)
        (laws.viewOf { state with
          underlyingBook := (SequencedState.evictLeaf nowMs state.underlyingBook symbol).2
          registry := state.registry.removeAll (SequencedState.evictLeaf nowMs state.underlyingBook symbol).1 }) ∧
      (SequencedState.pruneEvicted state.registry (SequencedState.evictLeaf nowMs state.underlyingBook symbol).1).1 =
        drops.map (fun drop => drop.record.venueOrderId) := by
  unfold SequencedState.evictLeaf
  split
  · exact ⟨[], .none _, rfl⟩
  next address leaf resolved =>
    obtain ⟨-, present, rfl⟩ := resolveLeafRead_eq_some resolved
    split
    next ids leaf swept =>
      obtain ⟨rests, after⟩ := laws.evicted _ nowMs ids (by rw [swept])
      rw [swept] at after
      obtain ⟨drops, moved, reported⟩ := @evicted_moves _ _ address step ids fun id listed => Or.inl (rests id listed)
      refine ⟨drops, ?_, reported⟩
      have committed := @viewOf_commitLeaf U laws state address leaf (state.registry.removeAll ids) present
      rw [after] at committed
      exact committed.symm ▸ moved
    next error leaf refused =>
      have same := laws.unevicted _ nowMs error (by rw [refused])
      rw [refused] at same
      have unmoved := @viewOf_commitLeaf_same U laws state address leaf same
      exact ⟨[], unmoved.symm ▸ .none _, rfl⟩

theorem pruneEvicted_append (registry : OrderRegistry) (early late : List Nat) :
    (SequencedState.pruneEvicted registry (early ++ late)).1 = (SequencedState.pruneEvicted registry early).1 ++
      (SequencedState.pruneEvicted (registry.removeAll early) late).1 := by
  induction early generalizing registry with
  | nil => rfl
  | cons id rest ih =>
    simp only [List.cons_append, SequencedState.pruneEvicted, OrderRegistry.removeAll, List.foldl_cons]
    split
    next absent => rw [ih, OrderRegistry.removeResting_of_absent absent]; rfl
    next => rw [ih]; rfl

/-- The home of the symbols is that of the underlying. -/
theorem home_of_underlying {after : SequencedState U}
    (same : after.underlyingBook.underlying = state.underlyingBook.underlying) : after.home = state.home := by
  unfold SequencedState.home
  rw [same]

theorem evictLeaves_moves (step : InStep state.home (laws.viewOf state)) (nowMs : Nat) (symbols : List Symbol) :
    ∃ drops : List Drop, Moves state.home (laws.viewOf state) (drops.map Drop.move)
        (laws.viewOf { state with
          underlyingBook := (SequencedState.evictLeaves nowMs state.underlyingBook symbols).2
          registry := state.registry.removeAll (SequencedState.evictLeaves nowMs state.underlyingBook symbols).1 }) ∧
      (SequencedState.pruneEvicted state.registry (SequencedState.evictLeaves nowMs state.underlyingBook symbols).1).1 =
        drops.map (fun drop => drop.record.venueOrderId) := by
  induction symbols generalizing state with
  | nil => exact ⟨[], .none _, rfl⟩
  | cons symbol rest ih =>
    obtain ⟨drops, moved, reported⟩ := evictLeaf_moves step nowMs symbol
    let middle : SequencedState U := { state with
      underlyingBook := (SequencedState.evictLeaf nowMs state.underlyingBook symbol).2
      registry := state.registry.removeAll (SequencedState.evictLeaf nowMs state.underlyingBook symbol).1 }
    have home : middle.home = state.home :=
      home_of_underlying (SequencedState.evictLeaf_underlying nowMs state.underlyingBook symbol)
    have next : InStep middle.home (laws.viewOf middle) := by
      rw [home]
      exact step.moves moved
    obtain ⟨later, also, told⟩ := ih next
    rw [home] at also
    refine ⟨drops ++ later, ?_, ?_⟩
    · have joined := moved.append also
      rw [← List.map_append] at joined
      simp only [SequencedState.evictLeaves, OrderRegistry.removeAll_append]
      exact joined
    · simp only [SequencedState.evictLeaves]
      rw [pruneEvicted_append, reported, List.map_append]
      exact congrArg _ told

/-- An eviction drops orders, and reports these. -/
theorem executeEvictExpired_moves (step : InStep state.home (laws.viewOf state)) (order : VisitOrder) (round nowMs : Nat) :
    ∃ drops : List Drop, Moves state.home (laws.viewOf state) (drops.map Drop.move)
        (laws.viewOf (state.executeEvictExpired order round nowMs).2) ∧
      (state.executeEvictExpired order round nowMs).1 =
        .evicted (sortByKey id (drops.map fun drop => drop.record.venueOrderId)) := by
  obtain ⟨drops, moved, reported⟩ :=
    evictLeaves_moves step nowMs (SequencedState.restingSymbols order round state.registry)
  refine ⟨drops, ?_, ?_⟩
  · unfold SequencedState.executeEvictExpired
    dsimp only
    rw [SequencedState.pruneEvicted_registry]
    exact moved
  · unfold SequencedState.executeEvictExpired
    dsimp only
    rw [reported]

end Evict

theorem reexecute_underlying {U : Upstream} (underlying : String) (lineage : LineageId) (executor : MatchingExecutor U)
    (commands : List JournalCommand) : (reexecute underlying lineage executor commands).2.state.underlyingBook.underlying =
      executor.state.underlyingBook.underlying := by
  induction commands generalizing executor with
  | nil => rfl
  | cons command rest ih =>
    exact (ih (deriveEvent underlying lineage executor command).2).trans
      (SequencedState.execute_underlying executor.hashOrder executor.state (command.context underlying lineage))

end Fauxchange.Exchange
