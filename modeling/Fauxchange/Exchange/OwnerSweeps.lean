import Fauxchange.Exchange.TurnMoves

/-! A sweep over the orders of one owner leaves none of them: neither in the registry nor in a book. -/

namespace Fauxchange.Exchange
open Lib UnderlyingOrderBook

/-- A cancel of a resting order takes effect. -/
def CancelsResting {U : Upstream} (laws : LeafLaws U) : Prop :=
  ∀ leaf id, id ∈ idsOf (laws.orders leaf) → (U.cancelOrder leaf id).1 = .ok true

/-- No registered order is of an owner. -/
def OrderRegistry.Without (registry : OrderRegistry) (owner : Hash32) : Prop :=
  ∀ (id : Nat) (record : RestingRecord), registry.resting[id]? = some record → record.owner ≠ owner

namespace SequencedState
variable {U : Upstream} {laws : LeafLaws U} {state : SequencedState U} (step : InStep state.home (laws.viewOf state))
  (cancels : CancelsResting laws)

include step in
/-- A registered order is found in the leaf where it rests. -/
theorem resolveLeafRead_registered {engineId : Nat} {record : RestingRecord}
    (registered : state.registry.resting[engineId]? = some record) :
    ∃ address, state.underlyingBook.resolveLeafRead record.symbol = some (address, state.underlyingBook.leafAt address) ∧
      engineId ∈ idsOf (laws.orders (state.underlyingBook.leafAt address)) := by
  obtain ⟨address, lives, rests⟩ := step.registered engineId record registered
  have present : (state.underlyingBook.leaf? address).isSome := present_of_rests rests
  obtain ⟨leaf, found⟩ := Option.isSome_iff_exists.1 present
  refine ⟨address, ?_, rests⟩
  have lives : addressOf? U state.underlyingBook.underlying record.symbol = some address := lives
  rw [resolveLeafRead_eq, lives, Option.bind_some, found, leafAt, found]
  rfl

include step cancels in
/-- A sweep over registered orders reports each of them, and takes them and no others out of the books and out of the
registry. -/
theorem cancelTargets_swept {targets : List (Nat × RestingRecord)} (distinct : (targets.map Prod.fst).Nodup)
    (valid : ∀ target ∈ targets, state.registry.resting[target.1]? = some target.2) :
    (state.cancelTargets targets).1 = targets.map (fun target => massCancelLeg target.2) ∧
      (state.cancelTargets targets).2.registry = state.registry.removeAll (targets.map Prod.fst) ∧
      ∀ address, laws.orders ((state.cancelTargets targets).2.underlyingBook.leafAt address) =
        (laws.orders (state.underlyingBook.leafAt address)).filter fun order => order.id ∉ targets.map Prod.fst := by
  induction targets generalizing state with
  | nil =>
    refine ⟨rfl, rfl, fun address => (List.filter_eq_self.2 fun order _ => ?_).symm⟩
    simp
  | cons target rest ih =>
    obtain ⟨engineId, record⟩ := target
    obtain ⟨unlike, others⟩ := List.nodup_cons.1 distinct
    have here : state.registry.resting[engineId]? = some record := valid (engineId, record) (by simp)
    obtain ⟨address, resolved, rests⟩ := resolveLeafRead_registered step here
    have hit := cancels _ _ rests
    have present : (state.underlyingBook.leaf? address).isSome := (resolveLeafRead_eq_some resolved).2.1
    obtain ⟨found, registered, lives, took⟩ := cancelled_took step present hit
    have left := (laws.cancelled _ _ hit).2
    -- the first target is dropped, and the others are registered still
    have remains : ∀ target ∈ rest, (state.registry.removeResting engineId).resting[target.1]? = some target.2 := by
      intro target member
      rw [OrderRegistry.removeResting_getElem?, if_neg, valid target (List.mem_cons_of_mem _ member)]
      have listed : target.1 ∈ rest.map Prod.fst := List.mem_map_of_mem member
      rintro rfl
      exact unlike listed
    cases call : U.cancelOrder (state.underlyingBook.leafAt address) engineId with
    | mk result leaf =>
      rw [call] at hit took left
      have hit : result = .ok true := hit
      subst hit
      let dropped := state.commitLeaf address (state.registry.removeResting engineId) leaf
      obtain ⟨reported, pruned, kept⟩ := @ih dropped (step.took took) others remains
      have swept : state.cancelTargets ((engineId, record) :: rest) =
          (massCancelLeg record :: (dropped.cancelTargets rest).1, (dropped.cancelTargets rest).2) := by
        simp only [cancelTargets, resolved, call, dropped]
      rw [swept]
      refine ⟨congrArg _ reported, pruned, fun place => ?_⟩
      rw [kept place]
      change (laws.orders ((state.underlyingBook.setLeaf address leaf).leafAt place)).filter _ = _
      by_cases same : place = address
      · subst same
        rw [leafAt_setLeaf_self _ _ present, left, List.filter_filter]
        refine List.filter_congr fun order _ => ?_
        rw [List.map_cons]
        simp only [List.mem_cons, not_or, Bool.decide_and, Bool.and_comm]
      · rw [leafAt_setLeaf_of_ne _ _ same]
        refine List.filter_congr fun order member => ?_
        -- the dropped order rests at one address only
        have unlike : order.id ≠ engineId := by
          rintro rfl
          exact same (step.address_unique (mem_idsOf.2 ⟨order, member, rfl⟩) rests)
        rw [List.map_cons]
        simp only [List.mem_cons, unlike, false_or]

include step cancels in
/-- A sweep leaves nothing registered that it selects. -/
theorem sweepMatching_clears (visits : VisitOrder) (round : Nat) (scope : MassCancelScope) (cancelType : MassCancelType)
    (accountScope : Option AccountId) {id : Nat} {record : RestingRecord}
    (present : (state.sweepMatching visits round scope cancelType accountScope).2.registry.resting[id]? = some record) :
    massCancelMatches U record scope ((scopeExpiry U scope).bind Except.toOption) cancelType accountScope = false := by
  by_contra selected
  obtain ⟨removed, pruned⟩ := state.cancelTargets_registry (state.sweepTargets visits round scope cancelType accountScope)
  have before : state.registry.resting[id]? = some record := by
    unfold sweepMatching at present
    rw [pruned] at present
    exact state.registry.removeAll_subset removed present
  have target : (id, record) ∈ state.sweepTargets visits round scope cancelType accountScope :=
    mem_sweepTargets.2 ⟨before, Bool.not_eq_false _ ▸ selected⟩
  obtain ⟨-, cleared, -⟩ := cancelTargets_swept step cancels nodup_sweepTargets
    fun target member => (mem_sweepTargets.1 member).1
  unfold sweepMatching at present
  rw [cleared, OrderRegistry.removeAll_getElem?, if_pos (List.mem_map_of_mem target)] at present
  cases present

include step cancels in
/-- A sweep over an owner's orders leaves none of them registered. -/
theorem sweepMatching_without (visits : VisitOrder) (round : Nat) (owner : Hash32) :
    (state.sweepMatching visits round .underlying (.byUser owner) none).2.registry.Without owner := by
  intro id record present owned
  have spared := sweepMatching_clears step cancels visits round .underlying (.byUser owner) none present
  simp [massCancelMatches, owned] at spared

/-- Where the registry has no order of an owner, none rests. -/
theorem owner_ne_of_without {owner : Hash32} (without : state.registry.Without owner)
    (step : InStep state.home (laws.viewOf state)) (address : LeafAddress) :
    ∀ order ∈ laws.orders (state.underlyingBook.leafAt address), order.owner ≠ owner := by
  intro order member
  obtain ⟨record, registered, -, -, same⟩ := step.known address order member
  rw [← same]
  exact without _ record registered

/-- A command that places nothing for an owner registers nothing of it anew. -/
theorem execute_without (visits : VisitOrder) {ctx : ExecutionContext} {owner : Hash32}
    (without : state.registry.Without owner) (other : ∀ order, ctx.command = .addOrder order → order.owner ≠ owner) :
    (state.execute visits ctx).2.registry.Without owner := by
  intro id record present
  rcases (execute_places visits state ctx).resting present with old | ⟨-, placed⟩
  · exact without id record old
  · unfold PlacedBy at placed
    split at placed
    next order same =>
      rw [placed]
      exact other order same
    next order same =>
      obtain ⟨engineId, replaced, -, registered, rfl⟩ := placed
      exact without engineId replaced registered
    next => cases placed

include step cancels in
/-- A kill leaves no order of the maker registered. -/
theorem execute_kill_without (visits : VisitOrder) {ctx : ExecutionContext} {knobs : MarketMakerControlKnobs}
    (kill : ctx.command = .marketMakerControl knobs) (off : knobs.enabled = some false) :
    (state.execute visits ctx).2.registry.Without marketMakerOwner := by
  unfold execute
  rw [kill]
  dsimp only
  unfold executeMarketMakerControl
  rw [if_pos off]
  exact sweepMatching_without step cancels visits ctx.sequence marketMakerOwner

end SequencedState

end Fauxchange.Exchange
