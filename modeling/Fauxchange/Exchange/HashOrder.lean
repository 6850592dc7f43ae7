import Fauxchange.Exchange.Executor

/-! How far the executor depends on the iteration order of its hash maps: an eviction does not, and a sweep or
a self-trade prevention does not as long as no two resting orders share a venue order id. -/

namespace Fauxchange.Exchange
open Lib

namespace OrderRegistry

/-- No two resting orders carry the same venue order id. -/
def VenueIdsApart (registry : OrderRegistry) : Prop :=
  ∀ (first second : Nat) (left right : RestingRecord), registry.resting[first]? = some left →
    registry.resting[second]? = some right → left.venueOrderId = right.venueOrderId → first = second

theorem VenueIdsApart.of_nodup {registry : OrderRegistry}
    (distinct : (registry.resting.toList.map fun target => target.2.venueOrderId).Nodup) :
    registry.VenueIdsApart := by
  intro first second left right here there same
  have equal := List.inj_on_of_nodup_map distinct (Std.ExtTreeMap.mem_toList_iff_getElem?_eq_some.2 here)
    (Std.ExtTreeMap.mem_toList_iff_getElem?_eq_some.2 there) same
  exact congrArg Prod.fst equal

theorem removeResting_resting (registry : OrderRegistry) (engineId : Nat) :
    (registry.removeResting engineId).resting = registry.resting.erase engineId := by
  unfold removeResting
  split
  next => rfl
  next absent =>
    refine Std.ExtTreeMap.ext_getElem? fun other => ?_
    rw [Std.ExtTreeMap.getElem?_erase]
    split
    next same =>
      obtain rfl := Std.LawfulEqCmp.compare_eq_iff_eq.1 same
      exact absent
    next => rfl

theorem removeResting_of_absent {registry : OrderRegistry} {engineId : Nat}
    (absent : registry.resting[engineId]? = none) : registry.removeResting engineId = registry := by
  simp [removeResting, absent]

theorem removeResting_of_present {registry : OrderRegistry} {engineId : Nat} {record : RestingRecord}
    (present : registry.resting[engineId]? = some record) :
    registry.removeResting engineId =
      ⟨registry.resting.erase engineId, registry.venueToEngine.erase record.venueOrderId⟩ := by
  simp [removeResting, present]

theorem removeResting_getElem? (registry : OrderRegistry) (engineId other : Nat) :
    (registry.removeResting engineId).resting[other]? =
      if engineId = other then none else registry.resting[other]? := by
  simp [removeResting_resting, Std.ExtTreeMap.getElem?_erase]

theorem removeResting_comm (registry : OrderRegistry) (first second : Nat) :
    (registry.removeResting first).removeResting second = (registry.removeResting second).removeResting first := by
  by_cases same : first = second
  · rw [same]
  · have left : (registry.removeResting first).resting[second]? = registry.resting[second]? := by
      rw [removeResting_getElem?, if_neg same]
    have right : (registry.removeResting second).resting[first]? = registry.resting[first]? := by
      rw [removeResting_getElem?, if_neg (Ne.symm same)]
    cases here : registry.resting[first]? with
    | none => rw [removeResting_of_absent here, removeResting_of_absent (right.trans here)]
    | some record =>
      cases there : registry.resting[second]? with
      | none => rw [removeResting_of_absent there, removeResting_of_absent (left.trans there)]
      | some other =>
        rw [removeResting_of_present (left.trans there), removeResting_of_present (right.trans here),
          removeResting_of_present here, removeResting_of_present there]
        congr 1 <;> refine Std.ExtTreeMap.ext_getElem? fun key => ?_ <;> simp only [Std.ExtTreeMap.getElem?_erase]
          <;> split <;> split <;> rfl

instance : RightCommutative removeResting := ⟨removeResting_comm⟩

theorem removeAll_of_perm (registry : OrderRegistry) {engineIds others : List Nat} (perm : engineIds.Perm others) :
    registry.removeAll engineIds = registry.removeAll others :=
  perm.foldl_eq registry

theorem removeAll_subset (registry : OrderRegistry) (engineIds : List Nat) {engineId : Nat} {record : RestingRecord}
    (present : (registry.removeAll engineIds).resting[engineId]? = some record) :
    registry.resting[engineId]? = some record := by
  induction engineIds generalizing registry with
  | nil => exact present
  | cons head rest ih =>
    have kept := ih (registry.removeResting head) present
    rw [removeResting_getElem?] at kept
    split at kept
    · cases kept
    · exact kept

theorem VenueIdsApart.removeAll {registry : OrderRegistry} (apart : registry.VenueIdsApart) (engineIds : List Nat) :
    (registry.removeAll engineIds).VenueIdsApart := by
  intro first second left right here there same
  exact apart first second left right (registry.removeAll_subset engineIds here)
    (registry.removeAll_subset engineIds there) same

end OrderRegistry

section Match
variable (order other : VisitOrder)

theorem stpCancelledDiff_hash (round : Nat) {registry : OrderRegistry} (apart : registry.VenueIdsApart)
    (before after filled : List Nat) (incoming : Nat) :
    stpCancelledDiff order round registry before after filled incoming =
      stpCancelledDiff other round registry before after filled incoming := by
  have removed : (stpRemoved (visit order round before) after filled incoming).Perm
      (stpRemoved (visit other round before) after filled incoming) :=
    (visit_perm_visit order other round before).filter _
  unfold stpCancelledDiff
  refine Prod.ext ?_ (registry.removeAll_of_perm removed)
  refine sortByKey_eq_of_perm _ (removed.filterMap _) ?_
  intro left first right second same
  obtain ⟨leftId, -, leftLeg⟩ := List.mem_filterMap.1 first
  obtain ⟨rightId, -, rightLeg⟩ := List.mem_filterMap.1 second
  obtain ⟨leftRecord, leftPresent, rfl⟩ := Option.map_eq_some_iff.1 leftLeg
  obtain ⟨rightRecord, rightPresent, rfl⟩ := Option.map_eq_some_iff.1 rightLeg
  obtain rfl := apart leftId rightId leftRecord rightRecord leftPresent rightPresent same
  rw [leftPresent] at rightPresent
  rw [Option.some.inj rightPresent]

theorem settleMatch_hash (ctx : ExecutionContext) (registry : OrderRegistry) (captured : CapturedFills)
    (active : Bool) (apart : active = true → registry.VenueIdsApart) (before after : List Nat) :
    settleMatch order ctx registry captured active before after =
      settleMatch other ctx registry captured active before after := by
  unfold settleMatch
  split
  next on => exact stpCancelledDiff_hash order other _ ((apart on).removeAll _) _ _ _ _
  next => rfl

variable {U : Upstream}

theorem runAdd_hash (ctx : ExecutionContext) (registry : OrderRegistry) (leaf : U.Leaf)
    (apart : stpActive (U.armTradeCapture leaf) = true → registry.VenueIdsApart)
    (placement : Placement) (limitPrice : Nat) :
    runAdd order ctx registry leaf placement limitPrice = runAdd other ctx registry leaf placement limitPrice := by
  unfold runAdd
  simp only [settleMatch_hash order other ctx registry _ _ apart]

theorem executeMarket_hash (ctx : ExecutionContext) (registry : OrderRegistry) (leaf : U.Leaf)
    (apart : stpActive (U.armTradeCapture leaf) = true → registry.VenueIdsApart) (placement : Placement) :
    executeMarket order ctx registry leaf placement = executeMarket other ctx registry leaf placement := by
  unfold executeMarket
  simp only [settleMatch_hash order other ctx registry _ _ apart]

end Match

namespace UnderlyingOrderBook
variable {U : Upstream}

/-- Where a symbol of this underlying lives. -/
def addressOf? (U : Upstream) (underlying : String) (symbol : Symbol) : Option LeafAddress :=
  match U.parse symbol with
  | .error _ => none
  | .ok parsed => if parsed.underlying ≠ underlying then none else some parsed.address

theorem resolveLeafRead_eq (book : UnderlyingOrderBook U) (symbol : Symbol) :
    book.resolveLeafRead symbol = (addressOf? U book.underlying symbol).bind fun address =>
      (book.leaf? address).map fun leaf => (address, leaf) := by
  unfold resolveLeafRead addressOf?
  cases U.parse symbol with
  | error => rfl
  | ok parsed => by_cases cross : parsed.underlying ≠ book.underlying <;> simp [cross]

/-- The leaf a symbol is read at. -/
theorem resolveLeafRead_eq_some {book : UnderlyingOrderBook U} {symbol : Symbol} {address : LeafAddress}
    {leaf : U.Leaf} (resolved : book.resolveLeafRead symbol = some (address, leaf)) :
    addressOf? U book.underlying symbol = some address ∧ (book.leaf? address).isSome ∧ book.leafAt address = leaf := by
  rw [resolveLeafRead_eq] at resolved
  obtain ⟨place, lives, found⟩ := Option.bind_eq_some_iff.1 resolved
  obtain ⟨existing, here, same⟩ := Option.map_eq_some_iff.1 found
  obtain ⟨rfl, rfl⟩ := Prod.mk.inj same
  exact ⟨lives, by rw [here]; rfl, by simp [leafAt, here]⟩

theorem resolveLeafVivify_eq_ok {book next : UnderlyingOrderBook U} {symbol : Symbol} {address : LeafAddress} :
    book.resolveLeafVivify symbol = .ok (address, next) ↔
      addressOf? U book.underlying symbol = some address ∧ next = book.vivify address := by
  unfold resolveLeafVivify addressOf?
  cases U.parse symbol with
  | error => simp
  | ok parsed =>
    by_cases cross : parsed.underlying = book.underlying
    · simp only [cross, ne_eq, not_true, if_false, Except.ok.injEq, Prod.mk.injEq, Option.some.injEq]
      constructor
      · rintro ⟨rfl, rfl⟩
        exact ⟨rfl, rfl⟩
      · rintro ⟨rfl, rfl⟩
        exact ⟨rfl, rfl⟩
    · simp [cross]

/-- The expiry sweep of the leaf at an address. -/
def evictAt (nowMs : Nat) (book : UnderlyingOrderBook U) (address : LeafAddress) :
    List Nat × UnderlyingOrderBook U :=
  match book.leaf? address with
  | none => ([], book)
  | some leaf =>
    (((U.evictExpiredOrders leaf nowMs).1.toOption).getD [], book.setLeaf address (U.evictExpiredOrders leaf nowMs).2)

@[simp] theorem evictAt_underlying (nowMs : Nat) (book : UnderlyingOrderBook U) (address : LeafAddress) :
    (evictAt nowMs book address).2.underlying = book.underlying := by
  unfold evictAt
  split <;> rfl

theorem evictLeaf_eq (nowMs : Nat) (book : UnderlyingOrderBook U) (symbol : Symbol) :
    SequencedState.evictLeaf nowMs book symbol = match addressOf? U book.underlying symbol with
      | none => ([], book)
      | some address => evictAt nowMs book address := by
  unfold SequencedState.evictLeaf
  rw [resolveLeafRead_eq]
  cases addressOf? U book.underlying symbol with
  | none => rfl
  | some address =>
    simp only [Option.bind_some, evictAt]
    cases book.leaf? address with
    | none => rfl
    | some leaf =>
      simp only [Option.map_some]
      rcases U.evictExpiredOrders leaf nowMs with ⟨refused | ids, left⟩ <;> rfl

theorem evictAt_comm (nowMs : Nat) (book : UnderlyingOrderBook U) (first second : LeafAddress) :
    ((evictAt nowMs book first).1 ++ (evictAt nowMs (evictAt nowMs book first).2 second).1).Perm
        ((evictAt nowMs book second).1 ++ (evictAt nowMs (evictAt nowMs book second).2 first).1) ∧
      (evictAt nowMs (evictAt nowMs book first).2 second).2 = (evictAt nowMs (evictAt nowMs book second).2 first).2 := by
  by_cases same : first = second
  · rw [same]
    exact ⟨.rfl, rfl⟩
  · cases here : book.leaf? first <;> cases there : book.leaf? second <;>
      simp [evictAt, here, there, leaf?_setLeaf, same, Ne.symm same, setLeaf_comm]
    exact List.perm_append_comm

theorem evictLeaf_comm (nowMs : Nat) (book : UnderlyingOrderBook U) (first second : Symbol) :
    ((SequencedState.evictLeaf nowMs book first).1 ++
        (SequencedState.evictLeaf nowMs (SequencedState.evictLeaf nowMs book first).2 second).1).Perm
        ((SequencedState.evictLeaf nowMs book second).1 ++
          (SequencedState.evictLeaf nowMs (SequencedState.evictLeaf nowMs book second).2 first).1) ∧
      (SequencedState.evictLeaf nowMs (SequencedState.evictLeaf nowMs book first).2 second).2 =
        (SequencedState.evictLeaf nowMs (SequencedState.evictLeaf nowMs book second).2 first).2 := by
  simp only [evictLeaf_eq]
  cases here : addressOf? U book.underlying first <;> cases there : addressOf? U book.underlying second <;>
    simp [here, there]
  exact evictAt_comm nowMs book _ _

end UnderlyingOrderBook

namespace SequencedState
variable {U : Upstream}

/-- The leaves are swept independently: the order of the symbols permutes the evicted ids and no more. -/
theorem evictLeaves_of_perm (nowMs : Nat) {symbols others : List Symbol} (perm : symbols.Perm others)
    (book : UnderlyingOrderBook U) :
    (evictLeaves nowMs book symbols).1.Perm (evictLeaves nowMs book others).1 ∧
      (evictLeaves nowMs book symbols).2 = (evictLeaves nowMs book others).2 := by
  induction perm generalizing book with
  | nil => exact ⟨.rfl, rfl⟩
  | cons symbol _ ih =>
    obtain ⟨ids, rest⟩ := ih (evictLeaf nowMs book symbol).2
    exact ⟨ids.append_left _, rest⟩
  | swap first second rest =>
    obtain ⟨ids, swept⟩ := UnderlyingOrderBook.evictLeaf_comm nowMs book second first
    simp only [evictLeaves, swept, ← List.append_assoc]
    exact ⟨ids.append_right _, trivial⟩
  | trans _ _ early late =>
    exact ⟨(early book).1.trans (late book).1, (early book).2.trans (late book).2⟩

theorem pruneEvicted_registry (registry : OrderRegistry) (engineIds : List Nat) :
    (pruneEvicted registry engineIds).2 = registry.removeAll engineIds := by
  induction engineIds generalizing registry with
  | nil => rfl
  | cons engineId rest ih =>
    simp only [pruneEvicted]
    split
    next absent =>
      rw [ih, OrderRegistry.removeAll, OrderRegistry.removeAll, List.foldl_cons,
        OrderRegistry.removeResting_of_absent absent]
    next => exact ih (registry.removeResting engineId)

theorem pruneEvicted_swap (registry : OrderRegistry) (first second : Nat) (rest : List Nat) :
    (pruneEvicted registry (second :: first :: rest)).1.Perm (pruneEvicted registry (first :: second :: rest)).1 := by
  by_cases same : first = second
  · rw [same]
  · have swapped := registry.removeResting_comm first second
    cases here : registry.resting[first]? with
    | none =>
      cases there : registry.resting[second]? with
      | none => simp [pruneEvicted, here, there]
      | some record =>
        simp [pruneEvicted, here, there, OrderRegistry.removeResting_getElem?]
    | some left =>
      cases there : registry.resting[second]? with
      | none => simp [pruneEvicted, here, there, OrderRegistry.removeResting_getElem?]
      | some right =>
        simp only [pruneEvicted, here, there, OrderRegistry.removeResting_getElem?, same, Ne.symm same, if_false,
          swapped]
        exact List.Perm.swap _ _ _

theorem pruneEvicted_of_perm {engineIds others : List Nat} (perm : engineIds.Perm others)
    (registry : OrderRegistry) :
    (pruneEvicted registry engineIds).1.Perm (pruneEvicted registry others).1 := by
  induction perm generalizing registry with
  | nil => exact .rfl
  | cons engineId _ ih =>
    simp only [pruneEvicted]
    split
    next => exact ih registry
    next => exact (ih _).cons _
  | swap first second rest => exact pruneEvicted_swap registry first second rest
  | trans _ _ early late => exact (early registry).trans (late registry)

variable (order other : VisitOrder) (state : SequencedState U)

/-- An eviction never depends on the iteration order. -/
theorem executeEvictExpired_hash (round nowMs : Nat) :
    state.executeEvictExpired order round nowMs = state.executeEvictExpired other round nowMs := by
  have symbols : (restingSymbols order round state.registry).Perm (restingSymbols other round state.registry) :=
    eraseDups_perm ((visit_perm_visit order other round _).map _)
  obtain ⟨ids, book⟩ := evictLeaves_of_perm nowMs symbols state.underlyingBook
  have registry := state.registry.removeAll_of_perm ids
  have evicted := sortByKey_eq_of_perm id (pruneEvicted_of_perm ids state.registry) fun _ _ _ _ same => same
  unfold executeEvictExpired
  simp only [book, pruneEvicted_registry, registry, evicted]

theorem sweepTargets_hash (round : Nat) (apart : state.registry.VenueIdsApart) (scope : MassCancelScope)
    (cancelType : MassCancelType) (accountScope : Option AccountId) :
    state.sweepTargets order round scope cancelType accountScope =
      state.sweepTargets other round scope cancelType accountScope := by
  unfold sweepTargets
  refine sortByKey_eq_of_perm _ ((visit_perm_visit order other round _).filter _) ?_
  intro left first right second same
  have leftPresent := Std.ExtTreeMap.mem_toList_iff_getElem?_eq_some.1
    ((visit_perm order round _).subset (List.mem_filter.1 first).1)
  have rightPresent := Std.ExtTreeMap.mem_toList_iff_getElem?_eq_some.1
    ((visit_perm order round _).subset (List.mem_filter.1 second).1)
  have engineId := apart left.1 right.1 left.2 right.2 leftPresent rightPresent same
  rw [engineId, rightPresent] at leftPresent
  exact Prod.ext engineId (Option.some.inj leftPresent).symm

/-- The leaf a placement is matched on: for a replace, the leaf after its cancel leg. -/
def matchingLeaf? : VenueCommand → Option U.Leaf
  | .addOrder placed =>
    (U.parse placed.symbol).toOption.map fun parsed => state.underlyingBook.leafAt parsed.address
  | .replace amended =>
    (U.parse amended.symbol).toOption.bind fun parsed =>
      state.registry.venueToEngine[amended.orderId]?.map fun engineId =>
        (U.cancelOrder (state.underlyingBook.leafAt parsed.address) engineId).2
  | _ => none

/-- The commands whose effect is collected from the resting orders: a mass cancel, a maker kill, and a
placement on a leaf with self-trade prevention. -/
def Sweeps (command : VenueCommand) : Prop :=
  match command with
  | .massCancel .. => True
  | .marketMakerControl knobs => knobs.enabled = some false
  | _ => ∃ leaf, state.matchingLeaf? command = some leaf ∧ stpActive (U.armTradeCapture leaf) = true

/-- A command that sweeps finds the venue order ids of the resting orders apart. -/
def SweepsApart (command : VenueCommand) : Prop := state.Sweeps command → state.registry.VenueIdsApart

theorem executeAddOrder_hash (ctx : ExecutionContext) (placement : Placement) (orderType : OrderType)
    (limitPrice : Option Nat)
    (apart : ∀ parsed, U.parse placement.symbol = .ok parsed →
      stpActive (U.armTradeCapture (state.underlyingBook.leafAt parsed.address)) = true →
        state.registry.VenueIdsApart) :
    state.executeAddOrder order ctx placement orderType limitPrice =
      state.executeAddOrder other ctx placement orderType limitPrice := by
  unfold executeAddOrder UnderlyingOrderBook.resolveLeafVivify
  cases parse : U.parse placement.symbol with
  | error => rfl
  | ok parsed =>
    have matched := apart parsed parse
    by_cases cross : parsed.underlying ≠ state.underlyingBook.underlying
    · simp [cross]
    · simp only [if_neg cross, UnderlyingOrderBook.leafAt_vivify, executeMarket_hash order other _ _ _ matched,
        runAdd_hash order other _ _ _ matched]

theorem executeReplace_hash (ctx : ExecutionContext) (amended : Replace)
    (apart : ∀ parsed engineId, U.parse amended.symbol = .ok parsed →
      state.registry.venueToEngine[amended.orderId]? = some engineId →
      stpActive (U.armTradeCapture (U.cancelOrder (state.underlyingBook.leafAt parsed.address) engineId).2) = true →
        state.registry.VenueIdsApart) :
    state.executeReplace order ctx amended = state.executeReplace other ctx amended := by
  unfold executeReplace UnderlyingOrderBook.resolveLeafVivify
  cases parse : U.parse amended.symbol with
  | error => rfl
  | ok parsed =>
    by_cases cross : parsed.underlying ≠ state.underlyingBook.underlying
    · simp [cross]
    · simp only [if_neg cross, UnderlyingOrderBook.leafAt_vivify]
      cases target : state.registry.venueToEngine[amended.orderId]? with
      | none => rfl
      | some engineId =>
        have matched := apart parsed engineId parse target
        rcases cancelled : U.cancelOrder (state.underlyingBook.leafAt parsed.address) engineId with ⟨answer, leaf⟩
        rw [cancelled] at matched
        have removed : stpActive (U.armTradeCapture leaf) = true →
            (state.registry.removeResting engineId).VenueIdsApart :=
          fun active => (matched active).removeAll [engineId]
        simp only [cancelled]
        -- the add leg runs only after a cancel that removed its target
        rcases answer with refused | _ | _ <;> simp only [runAdd_hash order other _ _ _ removed]

theorem sweepMatching_hash (round : Nat) (apart : state.registry.VenueIdsApart) (scope : MassCancelScope)
    (cancelType : MassCancelType) (accountScope : Option AccountId) :
    state.sweepMatching order round scope cancelType accountScope =
      state.sweepMatching other round scope cancelType accountScope := by
  unfold sweepMatching
  rw [sweepTargets_hash order other state round apart]

/-- Where a sweep finds the venue order ids apart, no command depends on the iteration order. -/
theorem execute_hash (ctx : ExecutionContext) (apart : state.SweepsApart ctx.command) :
    state.execute order ctx = state.execute other ctx := by
  unfold execute
  cases command : ctx.command with
  | addOrder placed =>
    rw [command] at apart
    have matched := executeAddOrder_hash order other state ctx placed.placement placed.orderType placed.limitPrice
      fun parsed parse active => apart ⟨_, by simp [matchingLeaf?, show U.parse placed.symbol = _ from parse,
        Except.toOption], active⟩
    simp only [addWithIdempotency, matched]
  | cancelOrder => rfl
  | replace amended =>
    rw [command] at apart
    exact executeReplace_hash order other state ctx amended fun parsed engineId parse target active =>
      apart ⟨_, by simp [matchingLeaf?, parse, target, Except.toOption], active⟩
  | massCancel scope cancelType account =>
    rw [command] at apart
    simp only [executeMassCancel, sweepMatching_hash order other state _ (apart trivial)]
  | setInstrumentStatus => rfl
  | evictExpiredOrders nowMs => exact executeEvictExpired_hash order other state ctx.sequence nowMs
  | marketMakerControl knobs =>
    rw [command] at apart
    simp only [executeMarketMakerControl]
    split
    next kill => rw [sweepMatching_hash order other state _ (apart kill)]
    next => rfl
  | clock => rfl
  | simStep => rfl

end SequencedState

end Fauxchange.Exchange
