import Fauxchange.Exchange.Lifecycle

/-! What a mass cancel and a kill take, against what they ask for: the orders are found by what rests in the books and
not by the registry, and every other order keeps its place. The one way to reach another order is a venue order id
that two of them share: the sweep erases the mapping of both. -/

namespace Fauxchange.Exchange
open Lib UnderlyingOrderBook

/-- What a sweep asks for. -/
structure Sweep where
  scope : MassCancelScope
  cancelType : MassCancelType
  account : Option AccountId

/-- The sweep of a mass cancel, or of a control that kills the market maker. -/
def sweepOf : VenueCommand → Option Sweep
  | .massCancel scope cancelType account => some ⟨scope, cancelType, accountScope cancelType account⟩
  | .marketMakerControl knobs =>
    if knobs.enabled = some false then some ⟨.underlying, .byUser marketMakerOwner, none⟩ else none
  | _ => none

/-- The legs that an outcome reports as swept. -/
def sweptLegs : VenueOutcome → List CancelledLeg
  | .massCancelled affected => affected
  | .controlApplied swept => swept
  | _ => []

/-- A resting order: its place, what the book holds, and what the venue has recorded of it. -/
structure RestingOrder where
  address : LeafAddress
  order : BookOrder
  record : RestingRecord

namespace RestingOrder

def id (resting : RestingOrder) : Nat := resting.order.id

def leg (resting : RestingOrder) : CancelledLeg :=
  ⟨resting.record.venueOrderId, resting.order.owner, resting.record.symbol, resting.order.side, .massCancel⟩

/-- The order rests in a state, in the leaf of its symbol. -/
structure In {U : Upstream} (resting : RestingOrder) (laws : LeafLaws U) (state : SequencedState U) : Prop where
  rests : resting.order ∈ laws.orders (state.underlyingBook.leafAt resting.address)
  recorded : state.registry.resting[resting.id]? = some resting.record
  lives : state.home resting.record.symbol = some resting.address

end RestingOrder

namespace Sweep
variable (U : Upstream) (sweep : Sweep)

/-- The contracts of a scope. -/
def InScope (resting : RestingOrder) : Prop :=
  match sweep.scope with
  | .underlying => True
  | .book symbol => resting.record.symbol = symbol
  | .expiration expiry => U.formatExpirationYyyymmdd expiry = .ok resting.address.expirationStr
  | .strike expiry strike =>
    U.formatExpirationYyyymmdd expiry = .ok resting.address.expirationStr ∧ resting.address.strike = strike

def OfType (resting : RestingOrder) : Prop :=
  match sweep.cancelType with
  | .all => True
  | .bySide side => resting.order.side = side
  | .byUser owner => resting.order.owner = owner

/-- The order is one that the sweep asks for. -/
structure Selects (resting : RestingOrder) : Prop where
  account : ∀ account, sweep.account = some account → resting.record.account = account
  type : sweep.OfType resting
  scope : sweep.InScope U resting

end Sweep

/-- A sweep has reported the orders that it asks for, and these have left the books and the records. -/
structure Sweeps {U : Upstream} (laws : LeafLaws U) (sweep : Sweep) (before : SequencedState U)
    (result : VenueOutcome × SequencedState U) (swept : List RestingOrder) : Prop where
  /-- What rests is known to the venue, each order with its side and owner. -/
  known : ∀ address, ∀ order ∈ laws.orders (before.underlyingBook.leafAt address), ∃ record,
    RestingOrder.In ⟨address, order, record⟩ laws before ∧ record.side = order.side ∧ record.owner = order.owner
  reported : sweptLegs result.1 = swept.map RestingOrder.leg
  asked : ∀ resting, resting ∈ swept ↔ resting.In laws before ∧ sweep.Selects U resting
  once : (swept.map RestingOrder.id).Nodup
  sorted : (sweptLegs result.1).Pairwise fun left right => left.orderId ≤ right.orderId
  /-- The books lose the swept orders; the others keep everything and their priority. -/
  books : ∀ address, laws.orders (result.2.underlyingBook.leafAt address) =
    (laws.orders (before.underlyingBook.leafAt address)).filter fun order => order.id ∉ swept.map RestingOrder.id
  records : ∀ id : Nat, result.2.registry.resting[id]? =
    if id ∈ swept.map RestingOrder.id then none else before.registry.resting[id]?

/-- Besides, the orders that stay are found under their venue order ids as before. -/
structure SweepsExactly {U : Upstream} (laws : LeafLaws U) (sweep : Sweep) (before : SequencedState U)
    (result : VenueOutcome × SequencedState U) (swept : List RestingOrder) : Prop
    extends Sweeps laws sweep before result swept where
  names : ∀ resting, RestingOrder.In resting laws before → resting ∉ swept →
    result.2.registry.venueToEngine[resting.record.venueOrderId]? =
      before.registry.venueToEngine[resting.record.venueOrderId]?

/-- No order that a sweep leaves is found under the venue order id of one that it takes. -/
def Unshared {U : Upstream} (laws : LeafLaws U) (sweep : Sweep) (state : SequencedState U) : Prop :=
  ∀ left taken : RestingOrder, left.In laws state → ¬sweep.Selects U left → taken.In laws state →
    sweep.Selects U taken → left.record.venueOrderId = taken.record.venueOrderId →
    state.registry.venueToEngine[left.record.venueOrderId]? = none

namespace OrderRegistry
variable {registry : OrderRegistry} {engineIds : List Nat} {orderId : VenueOrderId}

/-- The venue order id of a removed order is forgotten, whichever order it leads to. -/
theorem removeAll_forgets {engineId : Nat} {record : RestingRecord} (removed : engineId ∈ engineIds)
    (registered : registry.resting[engineId]? = some record) :
    (registry.removeAll engineIds).venueToEngine[record.venueOrderId]? = none := by
  induction engineIds generalizing registry with
  | nil => cases removed
  | cons head rest ih =>
    change ((registry.removeResting head).removeAll rest).venueToEngine[record.venueOrderId]? = none
    by_cases first : head = engineId
    · subst first
      by_contra named
      have kept : (registry.removeResting head).Names record.venueOrderId := Names.of_removeAll named
      apply kept
      rw [removeResting_of_present registered]
      exact Std.ExtTreeMap.getElem?_erase_self
    · apply ih ((List.mem_cons.1 removed).resolve_left (Ne.symm first))
      rw [removeResting_getElem?, if_neg first, registered]

/-- A venue order id of no removed order leads where it led. -/
theorem removeAll_remembers
    (apart : ∀ id ∈ engineIds, ∀ record, registry.resting[id]? = some record → record.venueOrderId ≠ orderId) :
    (registry.removeAll engineIds).venueToEngine[orderId]? = registry.venueToEngine[orderId]? := by
  induction engineIds generalizing registry with
  | nil => rfl
  | cons head rest ih =>
    have later : ∀ id ∈ rest, ∀ record, (registry.removeResting head).resting[id]? = some record →
        record.venueOrderId ≠ orderId := by
      intro id member record present
      rw [removeResting_getElem?] at present
      split at present
      · cases present
      · exact apart id (List.mem_cons_of_mem _ member) record present
    refine (ih later).trans ?_
    cases found : registry.resting[head]? with
    | none => rw [removeResting_of_absent found]
    | some record =>
      have unlike := apart head (by simp) record found
      rw [removeResting_of_present found, Std.ExtTreeMap.getElem?_erase, if_neg]
      intro same
      exact unlike (Std.LawfulEqCmp.compare_eq_iff_eq.1 same)

end OrderRegistry

section State
variable {U : Upstream} {laws : LeafLaws U} {state : SequencedState U} {sweep : Sweep}
  (step : InStep state.home (laws.viewOf state))

include step in
/-- Every order of a leaf is known. -/
theorem RestingOrder.exists_in {address : LeafAddress} {order : BookOrder}
    (rests : order ∈ laws.orders (state.underlyingBook.leafAt address)) :
    ∃ record, RestingOrder.In ⟨address, order, record⟩ laws state ∧ record.side = order.side ∧
      record.owner = order.owner := by
  obtain ⟨record, recorded, lives, side, owner⟩ := step.known address order rests
  exact ⟨record, ⟨rests, recorded, lives⟩, side, owner⟩

include step in
theorem RestingOrder.In.same {resting other : RestingOrder} (first : resting.In laws state) (second : other.In laws state)
    (same : resting.id = other.id) : resting = other := by
  have place : resting.address = other.address :=
    step.address_unique (mem_idsOf.2 ⟨_, first.rests, rfl⟩) (mem_idsOf.2 ⟨_, second.rests, same.symm⟩)
  have order : resting.order = other.order :=
    (step.standing other.address).unique (place ▸ first.rests) second.rests same
  have record : resting.record = other.record :=
    Option.some.inj (first.recorded.symm.trans (same ▸ second.recorded))
  cases resting
  cases other
  cases place
  cases order
  cases record
  rfl

include step in
theorem RestingOrder.In.alike {resting : RestingOrder} (here : resting.In laws state) :
    resting.record.side = resting.order.side ∧ resting.record.owner = resting.order.owner := by
  obtain ⟨record, known, side, owner⟩ := RestingOrder.exists_in step here.rests
  obtain rfl := Option.some.inj (known.recorded.symm.trans here.recorded)
  exact ⟨side, owner⟩

include step in
theorem RestingOrder.In.leg_eq {resting : RestingOrder} (here : resting.In laws state) :
    resting.leg = massCancelLeg resting.record := by
  obtain ⟨side, owner⟩ := here.alike step
  rw [leg, massCancelLeg, side, owner]

/-- The expiry that a scope is matched by. -/
theorem some_eq_toOption_iff {result : Except String String} {value : String} :
    some value = result.toOption ↔ result = .ok value := by
  cases result with
  | error error => simp [Except.toOption]
  | ok found => simp [Except.toOption, eq_comm]

theorem Sweep.selects_iff {resting : RestingOrder} : sweep.Selects U resting ↔
    ((∀ account, sweep.account = some account → resting.record.account = account) ∧ sweep.OfType resting) ∧
      sweep.InScope U resting :=
  ⟨fun selects => ⟨⟨selects.account, selects.type⟩, selects.scope⟩, fun parts => ⟨parts.1.1, parts.1.2, parts.2⟩⟩

include step in
/-- The filter of the registry finds what the sweep asks for in the books. -/
theorem massCancelMatches_iff {resting : RestingOrder} (here : resting.In laws state) :
    massCancelMatches U resting.record sweep.scope ((scopeExpiry U sweep.scope).bind Except.toOption) sweep.cancelType
      sweep.account = true ↔ sweep.Selects U resting := by
  obtain ⟨side, owner⟩ := here.alike step
  obtain ⟨parsed, parses, -, lives⟩ := addressOf?_eq_some.1 here.lives
  have expiry : resting.address.expirationStr = parsed.expirationStr := by rw [← lives]; rfl
  have strike : resting.address.strike = parsed.strike := by rw [← lives]; rfl
  rw [Sweep.selects_iff]
  simp only [massCancelMatches, Bool.and_eq_true]
  refine and_congr (and_congr ?_ ?_) ?_
  · cases sweep.account <;> simp
  · unfold Sweep.OfType
    cases sweep.cancelType <;> simp [side, owner]
  · unfold Sweep.InScope
    cases sweep.scope <;> simp [parses, expiry, strike, scopeExpiry, some_eq_toOption_iff]

include step in
/-- Registered orders, each with its place in the books. -/
theorem exists_restingOrders {targets : List (Nat × RestingRecord)}
    (registered : ∀ target ∈ targets, state.registry.resting[target.1]? = some target.2) :
    ∃ swept : List RestingOrder, swept.map (fun resting => (resting.id, resting.record)) = targets ∧
      ∀ resting ∈ swept, resting.In laws state := by
  induction targets with
  | nil => exact ⟨[], rfl, List.forall_mem_nil _⟩
  | cons target rest ih =>
    obtain ⟨swept, same, here⟩ := ih fun other member => registered other (List.mem_cons_of_mem _ member)
    obtain ⟨address, lives, rests⟩ := step.registered target.1 target.2 (registered target (by simp))
    obtain ⟨order, member, named⟩ := mem_idsOf.1 rests
    refine ⟨⟨address, order, target.2⟩ :: swept, ?_, List.forall_mem_cons.2 ⟨⟨member, ?_, lives⟩, here⟩⟩
    · rw [List.map_cons, same, RestingOrder.id, named]
    · rw [RestingOrder.id, named]
      exact registered target (by simp)

/-- A sweep as the executor runs it. -/
def SequencedState.sweeping (state : SequencedState U) (visits : VisitOrder) (round : Nat) (sweep : Sweep) :
    List CancelledLeg × SequencedState U :=
  state.sweepMatching visits round sweep.scope sweep.cancelType sweep.account

include step in
/-- The sweep of a state whose registry is in step with its books. -/
theorem sweeping_sweeps (cancels : CancelsResting laws) (visits : VisitOrder) (round : Nat) {outcome : VenueOutcome}
    (legs : sweptLegs outcome = (state.sweeping visits round sweep).1) :
    ∃ swept, Sweeps laws sweep state (outcome, (state.sweeping visits round sweep).2) swept ∧
      (state.sweeping visits round sweep).2.registry = state.registry.removeAll (swept.map RestingOrder.id) := by
  let targets := state.sweepTargets visits round sweep.scope sweep.cancelType sweep.account
  have registered : ∀ target ∈ targets, state.registry.resting[target.1]? = some target.2 :=
    fun target member => (mem_sweepTargets.1 member).1
  obtain ⟨swept, same, here⟩ := exists_restingOrders step registered
  have ids : targets.map Prod.fst = swept.map RestingOrder.id := by
    rw [← same, List.map_map]
    rfl
  obtain ⟨told, pruned, left⟩ := SequencedState.cancelTargets_swept step cancels
    (@nodup_sweepTargets U state visits round sweep.scope sweep.cancelType sweep.account) registered
  have shown : (state.sweeping visits round sweep).1 = swept.map RestingOrder.leg := by
    refine told.trans ?_
    change targets.map _ = _
    rw [← same, List.map_map]
    exact List.map_congr_left fun resting member => ((here resting member).leg_eq step).symm
  change (state.sweeping visits round sweep).2.registry = state.registry.removeAll (targets.map Prod.fst) at pruned
  refine ⟨swept, ⟨fun address order rests => RestingOrder.exists_in step rests, legs.trans shown, fun resting => ?_, ?_,
    ?_, ?_, fun id => ?_⟩, ?_⟩
  · constructor
    · intro member
      have target : (resting.id, resting.record) ∈ targets := by
        rw [← same]
        exact List.mem_map_of_mem member
      exact ⟨here resting member, (massCancelMatches_iff step (here resting member)).1 (mem_sweepTargets.1 target).2⟩
    · rintro ⟨rests, selected⟩
      have target : (resting.id, resting.record) ∈ targets :=
        mem_sweepTargets.2 ⟨rests.recorded, (massCancelMatches_iff step rests).2 selected⟩
      rw [← same] at target
      obtain ⟨other, member, equal⟩ := List.mem_map.1 target
      rwa [rests.same step (here other member) (congrArg Prod.fst equal).symm]
  · rw [← ids]
    exact nodup_sweepTargets
  · rw [legs]
    refine told ▸ List.pairwise_map.2 ?_
    exact sortByKey_pairwise (fun target : Nat × RestingRecord => target.2.venueOrderId) _
  · intro address
    rw [← ids]
    exact left address
  · change (state.sweeping visits round sweep).2.registry.resting[id]? = _
    rw [pruned, OrderRegistry.removeAll_getElem?, ids]
  · rw [pruned, ids]

/-- A kept order loses its venue order id exactly when it shares it with a swept one. -/
theorem Sweeps.exactly_iff {result : VenueOutcome × SequencedState U} {swept : List RestingOrder}
    (sweeps : Sweeps laws sweep state result swept)
    (pruned : result.2.registry = state.registry.removeAll (swept.map RestingOrder.id)) :
    SweepsExactly laws sweep state result swept ↔ Unshared laws sweep state := by
  constructor
  · intro exact' left taken here spared there selected shared
    have kept : left ∉ swept := fun member => spared ((sweeps.asked left).1 member).2
    rw [← exact'.names left here kept, pruned, shared]
    apply OrderRegistry.removeAll_forgets _ there.recorded
    exact List.mem_map_of_mem ((sweeps.asked taken).2 ⟨there, selected⟩)
  · intro unshared
    refine ⟨sweeps, fun resting here kept => ?_⟩
    have spared : ¬sweep.Selects U resting := fun selected => kept ((sweeps.asked resting).2 ⟨here, selected⟩)
    rw [pruned]
    by_cases shared : ∃ taken ∈ swept, taken.record.venueOrderId = resting.record.venueOrderId
    · obtain ⟨taken, member, same⟩ := shared
      obtain ⟨there, selected⟩ := (sweeps.asked taken).1 member
      rw [unshared resting taken here spared there selected same.symm, ← same]
      exact OrderRegistry.removeAll_forgets (List.mem_map_of_mem member) there.recorded
    · apply OrderRegistry.removeAll_remembers
      intro id listed record present same
      obtain ⟨taken, member, rfl⟩ := List.mem_map.1 listed
      obtain rfl := Option.some.inj (((sweeps.asked taken).1 member).1.recorded.symm.trans present)
      exact shared ⟨taken, member, same⟩

/-- A scope whose expiry does not resolve selects nothing. -/
theorem sweeping_unresolvable {error : String} (unresolvable : scopeExpiry U sweep.scope = some (.error error))
    (visits : VisitOrder) (round : Nat) : state.sweeping visits round sweep = ([], state) := by
  have none : state.sweepTargets visits round sweep.scope sweep.cancelType sweep.account = [] := by
    apply List.eq_nil_iff_forall_not_mem.2
    intro target member
    have selected := (mem_sweepTargets.1 member).2
    rw [unresolvable] at selected
    unfold massCancelMatches at selected
    cases scope : sweep.scope with
    | underlying | book symbol =>
      rw [scope] at unresolvable
      cases unresolvable
    | expiration expiry | strike expiry strike =>
      rw [scope] at selected
      cases parsed : U.parse target.2.symbol <;> simp [parsed, Except.toOption] at selected
  unfold SequencedState.sweeping SequencedState.sweepMatching
  rw [none]
  rfl

/-- A command that asks for a sweep runs it and reports it. -/
theorem execute_sweeping {ctx : ExecutionContext} (asks : sweepOf ctx.command = some sweep) (visits : VisitOrder) :
    (state.execute visits ctx).2 = (state.sweeping visits ctx.sequence sweep).2 ∧
      sweptLegs (state.execute visits ctx).1 = (state.sweeping visits ctx.sequence sweep).1 := by
  unfold SequencedState.execute
  unfold sweepOf at asks
  cases command : ctx.command with
  | massCancel scope cancelType account =>
    rw [command] at asks
    obtain rfl := Option.some.inj asks
    dsimp only
    unfold SequencedState.executeMassCancel
    split
    next error unresolvable =>
      rw [sweeping_unresolvable unresolvable]
      exact ⟨rfl, rfl⟩
    next => exact ⟨rfl, rfl⟩
  | marketMakerControl knobs =>
    rw [command] at asks
    dsimp only at asks ⊢
    split at asks
    next off =>
      obtain rfl := Option.some.inj asks
      unfold SequencedState.executeMarketMakerControl
      rw [if_pos off]
      exact ⟨rfl, rfl⟩
    next => cases asks
  | _ =>
    rw [command] at asks
    cases asks

end State

section Runs
variable {U : Upstream} {laws : LeafLaws U} {executor : MatchingExecutor U} {contexts : List ExecutionContext}

/-- The registry stays in step with the books under any venue order ids. -/
theorem run_inStep {underlying : String} {config : BookConfig}
    (fresh : executor.state = .fromBook ⟨underlying, config, ∅⟩)
    (ascending : contexts.Pairwise fun early late => early.sequence < late.sequence) (fits : executor.MatchesFit contexts) :
    InStep (executor.run contexts).state.home (laws.viewOf (executor.run contexts).state) ∧
      ∀ (id : Nat) (record : RestingRecord), (executor.run contexts).state.registry.resting[id]? = some record →
        ∃ ctx ∈ contexts, ctx.sequence = id := by
  induction contexts using List.reverseRecOn with
  | nil =>
    have start : (executor.run []).state = .fromBook ⟨underlying, config, ∅⟩ := fresh
    rw [start]
    refine ⟨inStep_fromBook underlying config, fun id record present => ?_⟩
    exact absurd present (by simp [SequencedState.fromBook, OrderRegistry.new])
  | append_singleton contexts ctx ih =>
    obtain ⟨earlier, -, above⟩ := List.pairwise_append.1 ascending
    obtain ⟨step, used⟩ := ih earlier (MatchingExecutor.Along.early fits)
    have unused : (executor.run contexts).state.registry.resting[ctx.sequence]? = none := by
      by_contra present
      obtain ⟨record, here⟩ := Option.ne_none_iff_exists'.1 present
      obtain ⟨other, member, same⟩ := used _ record here
      have below := above other member ctx (by simp)
      omega
    have after : (executor.run (contexts ++ [ctx])).state =
        ((executor.run contexts).state.execute (executor.run contexts).hashOrder ctx).2 := by
      rw [MatchingExecutor.run_append_singleton]
      rfl
    rw [after]
    constructor
    · obtain ⟨moves, moved, -⟩ := SequencedState.execute_moves step unused (executor.run contexts).hashOrder
        (fits contexts ctx [] rfl)
      rw [home_of_underlying (SequencedState.execute_underlying _ _ ctx)]
      exact step.moves moved
    · intro id record present
      rcases (SequencedState.execute_registry _ _ ctx).resting present with old | new
      · obtain ⟨other, member, same⟩ := used id record old
        exact ⟨other, by simp [member], same⟩
      · exact ⟨ctx, by simp, new.symm⟩

/-- Orders with different venue order ids share none. -/
theorem OrderRegistry.Lockstep.unshared {state : SequencedState U} (lockstep : state.registry.Lockstep)
    (step : InStep state.home (laws.viewOf state)) (sweep : Sweep) : Unshared laws sweep state := by
  intro left taken here spared there selected shared
  have first := (lockstep _ _).2 ⟨_, here.recorded, rfl⟩
  have second := (lockstep _ _).2 ⟨_, there.recorded, rfl⟩
  rw [← shared, first] at second
  obtain rfl := here.same step there (Option.some.inj second)
  exact absurd selected spared

/-- In every state of a run, a mass cancel or a kill reports and takes exactly the orders that it asks for, and it
leaves every other order as it was exactly when none of these shares its venue order id with one that it takes. -/
theorem sweep_exact_iff (cancels : CancelsResting laws) {underlying : String} {config : BookConfig}
    (fresh : executor.state = .fromBook ⟨underlying, config, ∅⟩)
    (ascending : contexts.Pairwise fun early late => early.sequence < late.sequence) (fits : executor.MatchesFit contexts)
    {ctx : ExecutionContext} {sweep : Sweep} (asks : sweepOf ctx.command = some sweep) :
    let state := (executor.run contexts).state
    let result := state.execute (executor.run contexts).hashOrder ctx
    (∃ swept, Sweeps laws sweep state result swept) ∧
      ((∃ swept, SweepsExactly laws sweep state result swept) ↔ Unshared laws sweep state) := by
  intro state result
  obtain ⟨after, legs⟩ := @execute_sweeping U state sweep ctx asks (executor.run contexts).hashOrder
  obtain ⟨swept, sweeps, pruned⟩ := sweeping_sweeps (run_inStep fresh ascending fits).1 cancels
    (executor.run contexts).hashOrder ctx.sequence legs
  rw [← after] at sweeps pruned
  refine ⟨⟨swept, sweeps⟩, ?_, fun unshared => ⟨swept, (sweeps.exactly_iff pruned).2 unshared⟩⟩
  rintro ⟨others, exact'⟩
  apply (sweeps.exactly_iff pruned).1
  refine ⟨sweeps, fun resting here kept => exact'.names resting here fun member => kept ?_⟩
  exact (sweeps.asked resting).2 ((exact'.asked resting).1 member)

theorem referenceLeaf_cancels : CancelsResting referenceLeafLaws := by
  intro leaf id rests
  obtain ⟨order, member, same⟩ := List.mem_map.1 rests
  exact congrArg Except.ok (List.any_eq_true.2 ⟨order, member, decide_eq_true same⟩)

/-- An ask of which two are left, and a mass cancel of all orders. -/
theorem crossing_swept_exactly :
    let state := (MatchingExecutor.run (U := referenceUpstream) (.new "BTC" fun _ _ => Equiv.refl _) crossing).state
    let result := state.execute (fun _ _ => Equiv.refl _)
      ⟨"BTC", "run-1", 3, 12, .massCancel .underlying .all "acct-1"⟩
    ∃ swept, SweepsExactly referenceLeafLaws ⟨.underlying, .all, none⟩ state result swept := by
  intro state result
  have ascending : crossing.Pairwise fun early late => early.sequence < late.sequence := by decide
  have fits : MatchingExecutor.MatchesFit (U := referenceUpstream) (.new "BTC" fun _ _ => Equiv.refl _) crossing :=
    .cons (by decide) (.cons (by decide) .nil)
  have step := @run_inStep referenceUpstream referenceLeafLaws _ _ "BTC" .bare rfl ascending fits
  have swept := @sweep_exact_iff referenceUpstream referenceLeafLaws _ crossing referenceLeaf_cancels "BTC" .bare rfl
    ascending fits ⟨"BTC", "run-1", 3, 12, .massCancel .underlying .all "acct-1"⟩ _ rfl
  exact swept.2.2 (OrderRegistry.Lockstep.unshared
    (@tracks_run referenceUpstream referenceLeafLaws _ _ "BTC" .bare rfl ascending (by decide) fits).inverse step.1 _)

/-- A call and a put of two accounts that rest under one venue order id, as a restarted counter mints them. -/
def namesakes : List ExecutionContext :=
  [⟨"BTC", "run-1", 1, 10, .addOrder ⟨"BTC-20351231-50000-C", "run-1:BTC:g0:0", "acct-1", 7, none, .buy, .limit, some 100, 5,
      .gtc, .none⟩⟩,
    ⟨"BTC", "run-1", 2, 11, .addOrder ⟨"BTC-20351231-50000-P", "run-1:BTC:g0:0", "acct-2", 8, none, .buy, .limit, some 100, 3,
      .gtc, .none⟩⟩]

/-- The first account's mass cancel takes the call, and the put, which still rests, can no longer be named. -/
theorem namesake_unnamed :
    let state := (MatchingExecutor.run (U := referenceUpstream) (.new "BTC" fun _ _ => Equiv.refl _) namesakes).state
    let result := state.execute (fun _ _ => Equiv.refl _)
      ⟨"BTC", "run-1", 3, 12, .massCancel (.book "BTC-20351231-50000-C") (.bySide .buy) "acct-1"⟩
    sweptLegs result.1 = [⟨"run-1:BTC:g0:0", 7, "BTC-20351231-50000-C", .buy, .massCancel⟩] ∧
      idsOf (result.2.underlyingBook.leafAt ⟨"20351231", 50000, .put⟩).orders = [2] ∧
        state.registry.venueToEngine["run-1:BTC:g0:0"]? = some 2 ∧
          result.2.registry.venueToEngine["run-1:BTC:g0:0"]? = none := by
  decide +kernel

end Runs

end Fauxchange.Exchange
