import Fauxchange.Exchange.HashOrder
import Fauxchange.Exchange.Reexecution

/-! What a command can do to the order registry: it removes some orders, and a placement may then register
one under its sequence. -/

namespace Fauxchange.Exchange
open Lib

namespace OrderRegistry

/-- The two maps are inverse to each other. -/
def Lockstep (registry : OrderRegistry) : Prop :=
  ∀ (orderId : VenueOrderId) (engineId : Nat), registry.venueToEngine[orderId]? = some engineId ↔
    ∃ record, registry.resting[engineId]? = some record ∧ record.venueOrderId = orderId

theorem lockstep_new : new.Lockstep := by
  intro orderId engineId
  simp [new]

theorem Lockstep.apart {registry : OrderRegistry} (lockstep : registry.Lockstep) : registry.VenueIdsApart := by
  intro first second left right here there same
  have mapped := (lockstep left.venueOrderId first).2 ⟨left, here, rfl⟩
  rw [(lockstep left.venueOrderId second).2 ⟨right, there, same.symm⟩] at mapped
  exact (Option.some.inj mapped).symm

theorem Lockstep.removeResting {registry : OrderRegistry} (lockstep : registry.Lockstep) (engineId : Nat) :
    (registry.removeResting engineId).Lockstep := by
  intro orderId other
  rw [removeResting_getElem?]
  cases present : registry.resting[engineId]? with
  | none =>
    rw [removeResting_of_absent present, lockstep orderId other]
    split
    next same =>
      rw [← same, present]
    next => rfl
  | some record =>
    rw [removeResting_of_present present, Std.ExtTreeMap.getElem?_erase]
    split
    next same =>
      -- the removed order's own id: it was mapped to the removed engine id, and to no other
      obtain rfl := Std.LawfulEqCmp.compare_eq_iff_eq.1 same
      have mapped := (lockstep record.venueOrderId engineId).2 ⟨record, present, rfl⟩
      constructor
      · intro absurd
        cases absurd
      · rintro ⟨found, here, rfl'⟩
        split at here
        · cases here
        next different =>
          have again := (lockstep record.venueOrderId other).2 ⟨found, here, rfl'⟩
          rw [mapped] at again
          exact absurd (Option.some.inj again) different
    next unlike =>
      rw [lockstep orderId other]
      split
      next same =>
        obtain rfl := same
        constructor
        · rintro ⟨found, here, same⟩
          rw [present] at here
          obtain rfl := Option.some.inj here
          exact absurd (Std.LawfulEqCmp.compare_eq_iff_eq.2 same) unlike
        · rintro ⟨_, here, -⟩
          cases here
      next => rfl

theorem Lockstep.removeAll {registry : OrderRegistry} (lockstep : registry.Lockstep) (engineIds : List Nat) :
    (registry.removeAll engineIds).Lockstep := by
  induction engineIds generalizing registry with
  | nil => exact lockstep
  | cons engineId rest ih => exact ih (lockstep.removeResting engineId)

/-- Registering an order under a fresh engine id and a fresh venue order id. -/
theorem Lockstep.registerResting {registry : OrderRegistry} (lockstep : registry.Lockstep) {engineId : Nat}
    {record : RestingRecord} (unused : registry.resting[engineId]? = none)
    (unnamed : registry.venueToEngine[record.venueOrderId]? = none) :
    (registry.registerResting engineId record).Lockstep := by
  intro orderId other
  simp only [OrderRegistry.registerResting, Std.ExtTreeMap.getElem?_insert]
  by_cases same : record.venueOrderId = orderId
  · subst same
    simp only [Std.LawfulEqCmp.compare_eq_iff_eq, if_true, Option.some.injEq]
    constructor
    · rintro rfl
      exact ⟨record, by simp, rfl⟩
    · rintro ⟨found, here, named⟩
      split at here
      next equal => exact equal
      next =>
        have mapped := (lockstep _ other).2 ⟨found, here, named⟩
        rw [unnamed] at mapped
        cases mapped
  · simp only [Std.LawfulEqCmp.compare_eq_iff_eq, same, if_false]
    rw [lockstep orderId other]
    split
    next equal =>
      obtain rfl := equal
      rw [unused]
      simp [same]
    next => rfl

theorem accountOwns_iff {registry : OrderRegistry} {engineId : Nat} {account : AccountId} :
    registry.accountOwns engineId account = true ↔
      ∃ record, registry.resting[engineId]? = some record ∧ record.account = account := by
  unfold accountOwns
  cases registry.resting[engineId]? with
  | none => simp
  | some record => simp

/-- The names of the registry: the venue order ids it maps. -/
def Names (registry : OrderRegistry) (orderId : VenueOrderId) : Prop := registry.venueToEngine[orderId]? ≠ none

theorem Names.of_removeAll {registry : OrderRegistry} {engineIds : List Nat} {orderId : VenueOrderId}
    (named : (registry.removeAll engineIds).Names orderId) : registry.Names orderId := by
  induction engineIds generalizing registry with
  | nil => exact named
  | cons engineId rest ih =>
    have kept : (registry.removeResting engineId).Names orderId := ih named
    unfold Names removeResting at kept
    split at kept
    · intro absent
      rw [Std.ExtTreeMap.getElem?_erase, absent] at kept
      simp at kept
    · exact kept

theorem removeAll_getElem? (registry : OrderRegistry) (engineIds : List Nat) (other : Nat) :
    (registry.removeAll engineIds).resting[other]? = if other ∈ engineIds then none else registry.resting[other]? := by
  induction engineIds generalizing registry with
  | nil => simp [removeAll]
  | cons engineId rest ih =>
    have later := ih (registry.removeResting engineId)
    rw [removeResting_getElem?] at later
    refine later.trans ?_
    by_cases same : engineId = other
    · simp [same]
    · simp [same, Ne.symm same]

/-- What one command does to the registry, with the order it may register. -/
def Step (engineId : Nat) (placed : Option VenueOrderId) (before after : OrderRegistry) : Prop :=
  ∃ removed, after = before.removeAll removed ∨
    ∃ record, placed = some record.venueOrderId ∧ after = (before.removeAll removed).registerResting engineId record

/-- The same, with the record it may register. -/
def StepWith (engineId : Nat) (allowed : RestingRecord → Prop) (before after : OrderRegistry) : Prop :=
  ∃ removed, after = before.removeAll removed ∨
    ∃ record, allowed record ∧ after = (before.removeAll removed).registerResting engineId record

theorem StepWith.step {engineId : Nat} {allowed : RestingRecord → Prop} {placed : Option VenueOrderId}
    {before after : OrderRegistry} (with' : StepWith engineId allowed before after)
    (named : ∀ record, allowed record → placed = some record.venueOrderId) : Step engineId placed before after := by
  obtain ⟨removed, gone | ⟨record, placed, rests⟩⟩ := with'
  · exact ⟨removed, Or.inl gone⟩
  · exact ⟨removed, Or.inr ⟨record, named record placed, rests⟩⟩

theorem StepWith.mono {engineId : Nat} {allowed wider : RestingRecord → Prop} {before after : OrderRegistry}
    (with' : StepWith engineId allowed before after) (all : ∀ record, allowed record → wider record) :
    StepWith engineId wider before after := by
  obtain ⟨removed, gone | ⟨record, placed, rests⟩⟩ := with'
  · exact ⟨removed, Or.inl gone⟩
  · exact ⟨removed, Or.inr ⟨record, all record placed, rests⟩⟩

theorem StepWith.refl (engineId : Nat) (allowed : RestingRecord → Prop) (registry : OrderRegistry) :
    StepWith engineId allowed registry registry :=
  ⟨[], Or.inl rfl⟩

theorem StepWith.of_removeAll (engineId : Nat) (allowed : RestingRecord → Prop) (registry : OrderRegistry)
    (removed : List Nat) : StepWith engineId allowed registry (registry.removeAll removed) :=
  ⟨removed, Or.inl rfl⟩

theorem removeAll_append (registry : OrderRegistry) (early late : List Nat) :
    registry.removeAll (early ++ late) = (registry.removeAll early).removeAll late := by
  simp [removeAll]

/-- A removal before a step is part of it. -/
theorem StepWith.after_removeAll {engineId : Nat} {allowed : RestingRecord → Prop} {before after : OrderRegistry}
    {early : List Nat} (step : StepWith engineId allowed (before.removeAll early) after) :
    StepWith engineId allowed before after := by
  obtain ⟨removed, rest⟩ := step
  refine ⟨early ++ removed, ?_⟩
  rw [removeAll_append]
  exact rest

/-- A step names nothing but what was named and what it places. -/
theorem Step.names {engineId : Nat} {placed : Option VenueOrderId} {before after : OrderRegistry}
    (step : Step engineId placed before after) {orderId : VenueOrderId} (named : after.Names orderId) :
    before.Names orderId ∨ placed = some orderId := by
  obtain ⟨removed, rfl | ⟨record, rfl, rfl⟩⟩ := step
  · exact Or.inl named.of_removeAll
  · by_cases same : record.venueOrderId = orderId
    · exact Or.inr (by rw [same])
    · have kept : (before.removeAll removed).Names orderId := by
        simpa [Names, registerResting, Std.ExtTreeMap.getElem?_insert, same] using named
      exact Or.inl kept.of_removeAll

/-- A step under a fresh engine id that places a fresh name keeps the two maps inverse. -/
theorem Step.lockstep {engineId : Nat} {placed : Option VenueOrderId} {before after : OrderRegistry}
    (step : Step engineId placed before after) (lockstep : before.Lockstep)
    (unused : before.resting[engineId]? = none) (unnamed : ∀ orderId, placed = some orderId → ¬ before.Names orderId) :
    after.Lockstep := by
  obtain ⟨removed, rfl | ⟨record, rfl, rfl⟩⟩ := step
  · exact lockstep.removeAll removed
  · refine (lockstep.removeAll removed).registerResting ?_ ?_
    · by_contra present
      obtain ⟨found, here⟩ := Option.ne_none_iff_exists'.1 present
      rw [before.removeAll_subset removed here] at unused
      cases unused
    · by_contra named
      exact unnamed _ rfl (Names.of_removeAll named)

end OrderRegistry

namespace OrderRegistry

/-- A step registers what is allowed, under its own engine id only. -/
theorem StepWith.resting {engineId : Nat} {allowed : RestingRecord → Prop} {before after : OrderRegistry}
    (step : StepWith engineId allowed before after) {other : Nat} {record : RestingRecord}
    (present : after.resting[other]? = some record) :
    before.resting[other]? = some record ∨ other = engineId ∧ allowed record := by
  obtain ⟨removed, rfl | ⟨fresh, permitted, rfl⟩⟩ := step
  · exact Or.inl (before.removeAll_subset removed present)
  · rw [registerResting, Std.ExtTreeMap.getElem?_insert] at present
    split at present
    next same =>
      obtain rfl := Option.some.inj present
      exact Or.inr ⟨(Std.LawfulEqCmp.compare_eq_iff_eq.1 same).symm, permitted⟩
    next => exact Or.inl (before.removeAll_subset removed present)

theorem Step.resting {engineId : Nat} {placed : Option VenueOrderId} {before after : OrderRegistry}
    (step : Step engineId placed before after) {other : Nat} {record : RestingRecord}
    (present : after.resting[other]? = some record) : before.resting[other]? = some record ∨ other = engineId :=
  (@StepWith.resting engineId (fun record => placed = some record.venueOrderId) _ _ step _ _ present).imp_right And.left

/-- A registry in lockstep whose names are known and whose engine ids stay below a bound. -/
structure Tracked (registry : OrderRegistry) (names : List VenueOrderId) (bound : Nat) : Prop where
  lockstep : registry.Lockstep
  named : ∀ orderId, registry.Names orderId → orderId ∈ names
  below : ∀ (engineId : Nat) (record : RestingRecord), registry.resting[engineId]? = some record → engineId < bound

theorem tracked_new (bound : Nat) : new.Tracked [] bound :=
  ⟨lockstep_new, by simp [Names, new], by simp [new]⟩

theorem Tracked.step {before after : OrderRegistry} {names : List VenueOrderId} {bound engineId : Nat}
    {placed : Option VenueOrderId} (tracked : before.Tracked names bound) (step : Step engineId placed before after)
    (above : bound ≤ engineId) (fresh : ∀ orderId, placed = some orderId → orderId ∉ names) :
    after.Tracked (names ++ placed.toList) (engineId + 1) where
  lockstep := by
    refine step.lockstep tracked.lockstep ?_ fun orderId same named => fresh orderId same (tracked.named orderId named)
    by_contra present
    obtain ⟨record, here⟩ := Option.ne_none_iff_exists'.1 present
    have low := tracked.below engineId record here
    omega
  named := by
    intro orderId named
    rcases step.names named with old | new
    · exact List.mem_append_left _ (tracked.named orderId old)
    · exact List.mem_append_right _ (by simp [new])
  below := by
    intro other record present
    rcases step.resting present with old | new
    · have low := tracked.below other record old
      omega
    · omega

theorem Tracked.mono {registry : OrderRegistry} {names : List VenueOrderId} {bound higher : Nat}
    (tracked : registry.Tracked names bound) (above : bound ≤ higher) : registry.Tracked names higher :=
  ⟨tracked.lockstep, tracked.named, fun engineId record present =>
    Nat.lt_of_lt_of_le (tracked.below engineId record present) above⟩

end OrderRegistry

/-- The venue order id a command brings to the venue. -/
def VenueCommand.placedId : VenueCommand → Option VenueOrderId
  | .addOrder order => some order.orderId
  | .replace order => some order.newOrderId
  | _ => none

/-- The order that a command places, as the registry is to record it. A replacement has the owner of the order that it
replaces. -/
def PlacedBy {U : Upstream} (state : SequencedState U) (command : VenueCommand) (record : RestingRecord) : Prop :=
  match command with
  | .addOrder order => record = order.placement.record
  | .replace order => ∃ engineId replaced, state.registry.venueToEngine[order.orderId]? = some engineId ∧
      state.registry.resting[engineId]? = some replaced ∧ record = (order.placement replaced.owner).record
  | _ => False

theorem PlacedBy.placedId {U : Upstream} {state : SequencedState U} {command : VenueCommand} {record : RestingRecord}
    (placed : PlacedBy state command record) : command.placedId = some record.venueOrderId := by
  unfold PlacedBy at placed
  split at placed
  · rw [placed]
    rfl
  · obtain ⟨_, _, _, _, rfl⟩ := placed
    rfl
  · cases placed

section Leaf
variable {U : Upstream} (order : VisitOrder) (ctx : ExecutionContext)

theorem settleMatch_removed (registry : OrderRegistry) (captured : CapturedFills) (active : Bool)
    (before after : List Nat) :
    ∃ removed, (settleMatch order ctx registry captured active before after).2 = registry.removeAll removed := by
  unfold settleMatch
  split
  · exact ⟨_, (registry.removeAll_append captured.filledMakerIds _).symm⟩
  · exact ⟨_, rfl⟩

theorem runAdd_registry (registry : OrderRegistry) (leaf : U.Leaf) (placement : Placement) (limitPrice : Nat) :
    OrderRegistry.StepWith ctx.sequence (· = placement.record) registry
      (runAdd order ctx registry leaf placement limitPrice).2.1 := by
  unfold runAdd
  dsimp only
  split
  · exact OrderRegistry.StepWith.refl _ _ registry
  next captured _ =>
    obtain ⟨removed, pruned⟩ := settleMatch_removed order ctx registry captured
      (stpActive (U.armTradeCapture leaf)) (ownerRestingIds (U.armTradeCapture leaf) placement.owner)
      (ownerRestingIds (U.addLimitOrder (U.armTradeCapture leaf) ⟨engineOrderId ctx.sequence, placement.side,
        limitPrice, placement.quantity, placement.timeInForce, placement.owner⟩).2 placement.owner)
    rw [pruned]
    by_cases registered : 0 < if (U.addLimitOrder (U.armTradeCapture leaf) ⟨engineOrderId ctx.sequence,
        placement.side, limitPrice, placement.quantity, placement.timeInForce, placement.owner⟩).1.isOk &&
          tifRests placement.timeInForce then placement.quantity - captured.takerFilled else 0
    · exact ⟨removed, Or.inr ⟨placement.record, rfl, if_pos registered⟩⟩
    · exact ⟨removed, Or.inl (if_neg registered)⟩

theorem executeMarket_registry (registry : OrderRegistry) (leaf : U.Leaf) (placement : Placement)
    (allowed : RestingRecord → Prop) :
    OrderRegistry.StepWith ctx.sequence allowed registry (executeMarket order ctx registry leaf placement).2.1 := by
  unfold executeMarket
  dsimp only
  split
  · exact OrderRegistry.StepWith.refl _ _ registry
  · split
    · exact OrderRegistry.StepWith.refl _ _ registry
    next captured _ =>
      obtain ⟨removed, pruned⟩ := settleMatch_removed order ctx registry captured
        (stpActive (U.armTradeCapture leaf)) (ownerRestingIds (U.armTradeCapture leaf) placement.owner)
        (ownerRestingIds (U.submitMarketOrder (U.armTradeCapture leaf) (engineOrderId ctx.sequence)
          placement.quantity placement.side placement.owner).2 placement.owner)
      exact ⟨removed, Or.inl pruned⟩

end Leaf

namespace SequencedState
variable {U : Upstream} (order : VisitOrder) (state : SequencedState U) (ctx : ExecutionContext)

theorem executeAddOrder_registry (placement : Placement) (orderType : OrderType) (limitPrice : Option Nat) :
    OrderRegistry.StepWith ctx.sequence (· = placement.record) state.registry
      (state.executeAddOrder order ctx placement orderType limitPrice).2.registry := by
  unfold executeAddOrder
  split
  · exact OrderRegistry.StepWith.refl _ _ _
  · dsimp only
    split
    · exact OrderRegistry.StepWith.refl _ _ _
    · split
      · exact executeMarket_registry order ctx state.registry _ placement _
      · exact OrderRegistry.StepWith.refl _ _ _
      · exact runAdd_registry order ctx state.registry _ placement _

theorem cancelTargets_registry (targets : List (Nat × RestingRecord)) :
    ∃ removed, (state.cancelTargets targets).2.registry = state.registry.removeAll removed := by
  induction targets generalizing state with
  | nil => exact ⟨[], rfl⟩
  | cons target rest ih =>
    simp only [cancelTargets]
    split
    · exact ih state
    · split
      · obtain ⟨removed, pruned⟩ := ih _
        exact ⟨target.1 :: removed, pruned⟩
      · exact ih _

theorem sweepMatching_registry (round : Nat) (scope : MassCancelScope) (cancelType : MassCancelType)
    (accountScope : Option AccountId) (engineId : Nat) (allowed : RestingRecord → Prop) :
    OrderRegistry.StepWith engineId allowed state.registry
      (state.sweepMatching order round scope cancelType accountScope).2.registry := by
  obtain ⟨removed, pruned⟩ := state.cancelTargets_registry
    (state.sweepTargets order round scope cancelType accountScope)
  exact ⟨removed, Or.inl pruned⟩

theorem executeReplace_registry (amended : Replace) :
    OrderRegistry.StepWith ctx.sequence (PlacedBy state (.replace amended)) state.registry
      (state.executeReplace order ctx amended).2.registry := by
  unfold executeReplace
  split
  · exact OrderRegistry.StepWith.refl _ _ _
  · dsimp only
    split
    · exact OrderRegistry.StepWith.refl _ _ _
    next engineId named =>
      split
      · exact OrderRegistry.StepWith.refl _ _ _
      next owned =>
        obtain ⟨replaced, present, -⟩ := OrderRegistry.accountOwns_iff.1 (by simpa using owned)
        split
        · split
          · rw [present]
            refine @OrderRegistry.StepWith.after_removeAll _ _ _ _ [engineId] ?_
            refine (runAdd_registry order ctx (state.registry.removeResting engineId) _ _ _).mono ?_
            rintro record rfl
            exact ⟨engineId, replaced, named, present, rfl⟩
          · exact OrderRegistry.StepWith.of_removeAll _ _ _ [engineId]
        · exact OrderRegistry.StepWith.refl _ _ _

/-- What a command can do to the registry. -/
theorem execute_places :
    OrderRegistry.StepWith ctx.sequence (PlacedBy state ctx.command) state.registry
      (state.execute order ctx).2.registry := by
  unfold execute
  cases command : ctx.command with
  | addOrder placed =>
    have step := executeAddOrder_registry order state ctx placed.placement placed.orderType placed.limitPrice
    simp only [addWithIdempotency]
    split
    · exact step
    · split
      · split <;> exact OrderRegistry.StepWith.refl _ _ _
      · exact step
  | cancelOrder symbol orderId account =>
    simp only [executeCancel]
    split
    · exact OrderRegistry.StepWith.refl _ _ _
    · split
      · exact OrderRegistry.StepWith.refl _ _ _
      next engineId _ =>
        split
        · exact OrderRegistry.StepWith.refl _ _ _
        · split
          · exact OrderRegistry.StepWith.of_removeAll _ _ _ [engineId]
          · exact OrderRegistry.StepWith.refl _ _ _
          · exact OrderRegistry.StepWith.refl _ _ _
  | replace amended => exact executeReplace_registry order state ctx amended
  | massCancel scope cancelType account =>
    simp only [executeMassCancel]
    split
    · exact OrderRegistry.StepWith.refl _ _ _
    · exact sweepMatching_registry order state _ _ _ _ _ _
  | setInstrumentStatus symbol status =>
    simp only [executeSetInstrumentStatus]
    split
    · exact OrderRegistry.StepWith.refl _ _ _
    · split <;> exact OrderRegistry.StepWith.refl _ _ _
  | evictExpiredOrders nowMs =>
    refine ⟨_, Or.inl (pruneEvicted_registry state.registry _)⟩
  | marketMakerControl knobs =>
    simp only [executeMarketMakerControl]
    split
    · exact sweepMatching_registry order state _ _ _ _ _ _
    · exact OrderRegistry.StepWith.refl _ _ _
  | clock => exact OrderRegistry.StepWith.refl _ _ _
  | simStep => exact OrderRegistry.StepWith.refl _ _ _

theorem execute_registry :
    OrderRegistry.Step ctx.sequence ctx.command.placedId state.registry (state.execute order ctx).2.registry :=
  (execute_places order state ctx).step fun _ placed => placed.placedId

end SequencedState

section Runs
variable {U : Upstream} (underlying : String) (lineage : LineageId)

/-- The venue order ids a list of commands brings. -/
def placedIds (commands : List JournalCommand) : List VenueOrderId :=
  commands.filterMap fun command => command.command.placedId

theorem placedIds_cons (command : JournalCommand) (rest : List JournalCommand) :
    placedIds (command :: rest) = command.command.placedId.toList ++ placedIds rest := by
  unfold placedIds
  cases placed : command.command.placedId <;> simp [placed]

theorem placedIds_append (early late : List JournalCommand) :
    placedIds (early ++ late) = placedIds early ++ placedIds late :=
  List.filterMap_append

theorem deriveEvent_registry (executor : MatchingExecutor U) (command : JournalCommand) :
    OrderRegistry.Step command.sequence command.command.placedId executor.state.registry
      (deriveEvent underlying lineage executor command).2.state.registry :=
  SequencedState.execute_registry executor.hashOrder executor.state (command.context underlying lineage)

/-- Re-executing commands of ascending sequences and distinct placed ids keeps the registry tracked. -/
theorem reexecute_tracked (commands : List JournalCommand) (executor : MatchingExecutor U)
    {names : List VenueOrderId} {bound higher : Nat} (tracked : executor.state.registry.Tracked names bound)
    (ascending : commands.Pairwise (fun left right => left.sequence < right.sequence))
    (range : ∀ command ∈ commands, bound ≤ command.sequence ∧ command.sequence < higher) (above : bound ≤ higher)
    (distinct : (names ++ placedIds commands).Nodup) :
    (reexecute underlying lineage executor commands).2.state.registry.Tracked (names ++ placedIds commands) higher := by
  induction commands generalizing executor names bound with
  | nil =>
    rw [show placedIds [] = [] from rfl, List.append_nil]
    exact tracked.mono above
  | cons command rest ih =>
    obtain ⟨low, high⟩ := range command (by simp)
    obtain ⟨first, later⟩ := List.pairwise_cons.1 ascending
    rw [placedIds_cons, ← List.append_assoc] at distinct ⊢
    have fresh : ∀ orderId, command.command.placedId = some orderId → orderId ∉ names := by
      intro orderId placed member
      have apart := (List.nodup_append.1 (List.nodup_append.1 distinct).1).2.2
      exact apart orderId member orderId (by simp [placed]) rfl
    have stepped := tracked.step (deriveEvent_registry underlying lineage executor command) low fresh
    exact ih _ stepped later
      (fun other member => ⟨first other member, (range other (List.mem_cons_of_mem _ member)).2⟩) high distinct

end Runs

end Fauxchange.Exchange
