import Fauxchange.Exchange.OwnerSweeps
import Fauxchange.Exchange.Recovery
import Fauxchange.Exchange.RegistryRuns
import Fauxchange.Exchange.StatusGate

/-! The lifecycle of a contract: which commands create its leaf, which move its status, and what keeps it shut once it is
settling. -/

namespace Fauxchange.Exchange
open Lib Microstructure UnderlyingOrderBook

/-- The contract whose leaf a command creates if it does not exist. -/
def vivifies : VenueCommand → Option Symbol
  | .addOrder order => some order.symbol
  | .replace order => some order.symbol
  | .setInstrumentStatus symbol _ => some symbol
  | _ => none

/-- The leaves of the strike that a command may create. -/
def Creates {U : Upstream} (state : SequencedState U) (command : VenueCommand) (address : LeafAddress) : Prop :=
  ∃ symbol named, vivifies command = some symbol ∧ state.home symbol = some named ∧
    (address.expirationStr, address.strike) = (named.expirationStr, named.strike)

/-- A command that moves the status of an instrument, by a legal transition. -/
def Retitles {U : Upstream} (state : SequencedState U) (command : VenueCommand) (symbol : Symbol)
    (status : InstrumentStatus) : Prop :=
  command = .setInstrumentStatus symbol status ∧ U.canTransition (state.instrumentStatus.statusOf symbol) status = true

/-- What of a state a command leaves as it is: the leaves that exist but those it creates, and the statuses but that it
moves. -/
structure Framed {U : Upstream} (created : LeafAddress → Prop) (moved : Symbol → InstrumentStatus → Prop)
    (before after : SequencedState U) : Prop where
  leaves : ∀ address, (after.underlyingBook.leaf? address).isSome →
    (before.underlyingBook.leaf? address).isSome ∨ created address
  statuses : ∀ symbol, after.instrumentStatus.statusOf symbol = before.instrumentStatus.statusOf symbol ∨
    moved symbol (after.instrumentStatus.statusOf symbol)

namespace Framed
variable {U : Upstream} {created : LeafAddress → Prop} {moved : Symbol → InstrumentStatus → Prop}
  {before middle after : SequencedState U}

theorem refl (created : LeafAddress → Prop) (moved : Symbol → InstrumentStatus → Prop) (state : SequencedState U) :
    Framed created moved state state :=
  ⟨fun _ => Or.inl, fun _ => Or.inl rfl⟩

/-- Leaves are written where they exist, and the statuses stay. -/
theorem rewritten (written : ∀ address, (after.underlyingBook.leaf? address).isSome →
      (middle.underlyingBook.leaf? address).isSome)
    (same : after.instrumentStatus = middle.instrumentStatus) (framed : Framed created moved before middle) :
    Framed created moved before after where
  leaves := fun address present => framed.leaves address (written address present)
  statuses := by
    rw [same]
    exact framed.statuses

theorem commitLeaf (framed : Framed created moved before middle) (address : LeafAddress) (registry : OrderRegistry)
    (leaf : U.Leaf) : Framed created moved before (middle.commitLeaf address registry leaf) :=
  framed.rewritten (fun _ present => leaf?_setLeaf_isSome present) rfl

/-- The leaf of a contract is looked up, and created with its strike where it does not exist. -/
theorem vivified {command : VenueCommand} {symbol : Symbol} (vivified : vivifies command = some symbol)
    {address : LeafAddress} (lives : before.home symbol = some address) :
    Framed (Creates before command) moved before
      { before with underlyingBook := before.underlyingBook.vivify address } where
  leaves := by
    intro other present
    by_cases here : (other.expirationStr, other.strike) = (address.expirationStr, address.strike)
    · exact Or.inr ⟨symbol, address, vivified, lives, here⟩
    · refine Or.inl ?_
      unfold leaf? vivify at present
      rw [Std.ExtTreeMap.getElem?_insertIfNew, if_neg fun same => here (pairCompare_eq_iff.1 same.1).symm] at present
      exact present
  statuses := fun _ => Or.inl rfl

end Framed

namespace SequencedState
variable {U : Upstream} {created : LeafAddress → Prop} {moved : Symbol → InstrumentStatus → Prop}
  (visits : VisitOrder) (state : SequencedState U) (ctx : ExecutionContext)

theorem cancelTargets_framed (targets : List (Nat × RestingRecord)) :
    Framed created moved state (state.cancelTargets targets).2 := by
  have swept : ∀ (targets : List (Nat × RestingRecord)) (middle : SequencedState U), Framed created moved state middle →
      Framed created moved state (middle.cancelTargets targets).2 := by
    intro targets
    induction targets with
    | nil => exact fun _ framed => framed
    | cons target rest ih =>
      intro middle framed
      simp only [cancelTargets]
      split
      · exact ih middle framed
      · split
        · exact ih _ (framed.commitLeaf ..)
        · exact ih _ (framed.commitLeaf ..)
  exact swept targets state (.refl created moved state)

theorem evictLeaves_leaves (nowMs : Nat) (book : UnderlyingOrderBook U) (symbols : List Symbol) (address : LeafAddress) :
    ((evictLeaves nowMs book symbols).2.leaf? address).isSome → (book.leaf? address).isSome := by
  induction symbols generalizing book with
  | nil => exact id
  | cons symbol rest ih =>
    intro present
    have first := ih (evictLeaf nowMs book symbol).2 present
    unfold evictLeaf at first
    split at first
    · exact first
    · split at first <;> exact leaf?_setLeaf_isSome first

theorem executeAddOrder_framed {command : VenueCommand} {placement : Placement}
    (named : vivifies command = some placement.symbol) (orderType : OrderType) (limitPrice : Option Nat) :
    Framed (Creates state command) moved state (state.executeAddOrder visits ctx placement orderType limitPrice).2 := by
  unfold executeAddOrder
  split
  · exact .refl _ _ state
  next address book resolved =>
    obtain ⟨lives, rfl⟩ := resolveLeafVivify_eq_ok.1 resolved
    have vivified := @Framed.vivified U moved state command _ named _ lives
    dsimp only
    split
    · exact vivified
    · split
      · exact vivified.commitLeaf ..
      · exact vivified
      · exact vivified.commitLeaf ..

/-- A command creates the leaves of the one strike that it names, and moves no status but the one that it sets. -/
theorem execute_framed : Framed (Creates state ctx.command) (Retitles state ctx.command) state
    (state.execute visits ctx).2 := by
  have created : ∀ {symbol address}, vivifies ctx.command = some symbol → state.home symbol = some address →
      Framed (Creates state ctx.command) (Retitles state ctx.command) state
        { state with underlyingBook := state.underlyingBook.vivify address } := fun named lives => .vivified named lives
  unfold execute
  split
  next order command =>
    have placed : vivifies ctx.command = some order.placement.symbol := congrArg vivifies command
    have gate : Framed (Creates state ctx.command) (Retitles state ctx.command) state
        (state.executeAddOrder visits ctx order.placement order.orderType order.limitPrice).2 :=
      executeAddOrder_framed visits state ctx placed _ _
    unfold addWithIdempotency
    split
    · exact gate
    · split
      · split <;> exact .refl _ _ state
      · exact ⟨gate.leaves, gate.statuses⟩
  · unfold executeCancel
    split
    · exact .refl _ _ state
    · split
      · exact .refl _ _ state
      · split
        · exact .refl _ _ state
        · split <;> exact (Framed.refl _ _ state).commitLeaf ..
  next order command =>
    unfold executeReplace
    split
    · exact .refl _ _ state
    next address book resolved =>
      obtain ⟨lives, rfl⟩ := resolveLeafVivify_eq_ok.1 resolved
      have vivified := created (congrArg vivifies command) lives
      dsimp only
      split
      · exact vivified
      · split
        · exact vivified
        · split
          · split <;> exact vivified.commitLeaf ..
          · exact vivified.commitLeaf ..
  · unfold executeMassCancel
    split
    · exact .refl _ _ state
    · exact cancelTargets_framed state _
  next symbol status command =>
    unfold executeSetInstrumentStatus
    split
    · exact .refl _ _ state
    next address book resolved =>
      obtain ⟨lives, rfl⟩ := resolveLeafVivify_eq_ok.1 resolved
      have vivified := created (congrArg vivifies command) lives
      dsimp only
      unfold InstrumentStatusRegistry.tryTransition
      split
      next applied registry taken =>
        split at taken
        next legal =>
          cases taken
          refine ⟨vivified.leaves, fun other => ?_⟩
          by_cases same : other = symbol
          · subst same
            refine Or.inr ⟨?_, ?_⟩
            · rw [command]
              simp [InstrumentStatusRegistry.statusOf]
            · simpa [InstrumentStatusRegistry.statusOf] using legal
          · refine Or.inl ?_
            simp [InstrumentStatusRegistry.statusOf, Std.ExtTreeMap.getElem?_insert, Ne.symm same]
        next => cases taken
      next => exact vivified
  · exact (Framed.refl _ _ state).rewritten (evictLeaves_leaves _ _ _) rfl
  · unfold executeMarketMakerControl
    split
    · exact cancelTargets_framed state _
    · exact .refl _ _ state
  · exact .refl _ _ state
  · exact .refl _ _ state

end SequencedState

/-- A settling instrument only goes on to expire, and an expired one stays. -/
def Final : InstrumentStatus → Prop
  | .settling | .expired => True
  | .pending | .active | .halted => False

instance : (status : InstrumentStatus) → Decidable (Final status)
  | .settling | .expired => .isTrue trivial
  | .pending | .active | .halted => .isFalse id

/-- The documented lifecycle of an instrument: an active one alone takes orders, and no transition leads back from
settling. -/
structure LifecycleLaws (U : Upstream) : Prop where
  accepting : ∀ status, U.isAcceptingOrders status = true → status = .active
  final : ∀ source target, U.canTransition source target = true → Final source → Final target

/-- A symbol as its type guarantees it, if it parses at all: it is the canonical text of what it parses to. -/
def Typed (U : Upstream) (symbol : Symbol) : Prop := ∀ parsed, U.parse symbol = .ok parsed → U.toSymbol parsed = symbol

section Shut
variable {U : Upstream} {laws : LeafLaws U} {state after : SequencedState U} {symbol other : Symbol}
  {address : LeafAddress}

theorem addressOf?_eq_some {underlying : String} : addressOf? U underlying symbol = some address ↔
    ∃ parsed, U.parse symbol = .ok parsed ∧ parsed.underlying = underlying ∧ parsed.address = address := by
  unfold addressOf?
  cases U.parse symbol with
  | error error => simp
  | ok parsed => simp

/-- Two symbols of one leaf are one. -/
theorem Typed.unique (typed : Typed U symbol) (again : Typed U other) {underlying : String}
    (here : addressOf? U underlying symbol = some address) (there : addressOf? U underlying other = some address) :
    other = symbol := by
  obtain ⟨parsed, parses, hosted, lives⟩ := addressOf?_eq_some.1 here
  obtain ⟨found, finds, owned, same⟩ := addressOf?_eq_some.1 there
  have equal : found = parsed := by
    cases found
    cases parsed
    obtain ⟨expiry, strike, style⟩ := LeafAddress.mk.inj (same.trans lives.symm)
    obtain rfl : _ = _ := owned.trans hosted.symm
    subst expiry strike style
    rfl
  rw [← typed parsed parses, ← again found finds, equal]

/-- A leaf without orders gets none where the registry gains none there. -/
theorem orders_empty (before : InStep state.home (laws.viewOf state)) (step : InStep state.home (laws.viewOf after))
    (empty : laws.orders (state.underlyingBook.leafAt address) = [])
    (kept : ∀ (id : Nat) (record : RestingRecord), after.registry.resting[id]? = some record →
      state.home record.symbol = some address → state.registry.resting[id]? = some record) :
    laws.orders (after.underlyingBook.leafAt address) = [] := by
  apply List.eq_nil_iff_forall_not_mem.2
  intro order member
  obtain ⟨record, registered, lives, -⟩ := step.known address order member
  obtain ⟨place, here, rests⟩ := before.registered order.id record (kept order.id record registered lives)
  obtain rfl := Option.some.inj (here.symm.trans lives)
  change order.id ∈ idsOf (laws.orders (state.underlyingBook.leafAt place)) at rests
  rw [empty] at rests
  cases rests

/-- An instrument that is settling or past it, without a resting order. -/
structure Shut (laws : LeafLaws U) (state : SequencedState U) (symbol : Symbol) (address : LeafAddress) : Prop where
  final : Final (state.instrumentStatus.statusOf symbol)
  empty : laws.orders (state.underlyingBook.leafAt address) = []

theorem Shut.refuses (lifecycle : LifecycleLaws U) (shut : Shut laws state symbol address) :
    state.instrumentStatus.isAcceptingOrders U symbol = false := by
  by_contra accepts
  have active : state.instrumentStatus.statusOf symbol = .active :=
    lifecycle.accepting _ ((Bool.not_eq_false _).mp accepts)
  have final := shut.final
  rw [active] at final
  exact final

/-- Whatever is executed, what is shut stays shut: the gate refuses every add, and a replace has nothing to replace. -/
theorem Shut.execute (lifecycle : LifecycleLaws U) (shut : Shut laws state symbol address) (typed : Typed U symbol)
    (lives : state.home symbol = some address) {visits : VisitOrder} {ctx : ExecutionContext}
    (before : InStep state.home (laws.viewOf state))
    (step : InStep state.home (laws.viewOf (state.execute visits ctx).2))
    (named : ∀ other, commandSymbol ctx.command = some other → Typed U other) :
    Shut laws (state.execute visits ctx).2 symbol address where
  final := by
    rcases (SequencedState.execute_framed visits state ctx).statuses symbol with same | ⟨-, legal⟩
    · exact same ▸ shut.final
    · exact lifecycle.final _ _ legal shut.final
  empty := by
    have closed : state.instrumentStatus.statusOf symbol ≠ .active := by
      intro active
      have final := shut.final
      rw [active] at final
      exact final
    refine orders_empty before step shut.empty fun id record registered here => ?_
    rcases (SequencedState.execute_places visits state ctx).resting registered with old | ⟨-, placed⟩
    · exact old
    · -- a placement on this leaf names this very instrument
      have own : ∀ other, commandSymbol ctx.command = some other → state.home other = some address → other = symbol :=
        fun other target there => typed.unique (named other target) lives there
      unfold PlacedBy at placed
      split at placed
      next order command =>
        subst placed
        have same : order.symbol = symbol := own _ (congrArg commandSymbol command) here
        have gated : NothingPlaced laws state (state.addWithIdempotency visits ctx order) :=
          gated_add_places_nothing lifecycle.accepting (same.symm ▸ closed)
        unfold SequencedState.execute at registered
        rw [command] at registered
        exact gated.registry id _ registered
      next order command =>
        obtain ⟨engineId, replaced, -, -, rfl⟩ := placed
        have same : order.symbol = symbol := own _ (congrArg commandSymbol command) here
        have halts : ¬ ReachesAddLeg laws state order := by
          rintro ⟨-, place, engineId, there, -, -, rests⟩
          rw [same, lives] at there
          obtain rfl := Option.some.inj there
          rw [shut.empty] at rests
          cases rests
        unfold SequencedState.execute at registered
        rw [command] at registered
        exact (replace_places_nothing halts).registry id _ registered
      next => cases placed

/-- The sweep of an expiration leaves no order on a contract of it. -/
theorem expirySweep_empties (cancels : CancelsResting laws) {visits : VisitOrder} {ctx : ExecutionContext}
    {expiry : ExpirationDate} {account : AccountId} (sweeps : ctx.command = .massCancel (.expiration expiry) .all account)
    (formats : U.formatExpirationYyyymmdd expiry = .ok address.expirationStr)
    (before : InStep state.home (laws.viewOf state))
    (step : InStep state.home (laws.viewOf (state.execute visits ctx).2)) :
    laws.orders ((state.execute visits ctx).2.underlyingBook.leafAt address) = [] := by
  apply List.eq_nil_iff_forall_not_mem.2
  intro order member
  obtain ⟨record, registered, lives, -⟩ := step.known address order member
  obtain ⟨parsed, parses, -, same⟩ := addressOf?_eq_some.1 lives
  have expires : parsed.expirationStr = address.expirationStr := congrArg LeafAddress.expirationStr same
  have swept : (state.execute visits ctx).2 =
      (state.sweepMatching visits ctx.sequence (.expiration expiry) .all none).2 := by
    simp only [SequencedState.execute, sweeps, SequencedState.executeMassCancel, scopeExpiry, formats]
  have spared := SequencedState.sweepMatching_clears before cancels visits ctx.sequence (.expiration expiry) .all none
    (swept ▸ registered)
  simp [massCancelMatches, scopeExpiry, formats, parses, expires, Except.toOption] at spared

/-- The transition to settling takes effect, where it is legal or comes too late. -/
theorem settling_final {visits : VisitOrder} {ctx : ExecutionContext}
    (settles : ctx.command = .setInstrumentStatus symbol .settling) (lives : state.home symbol = some address)
    (legal : U.canTransition (state.instrumentStatus.statusOf symbol) .settling = true ∨
      Final (state.instrumentStatus.statusOf symbol)) :
    Final ((state.execute visits ctx).2.instrumentStatus.statusOf symbol) := by
  unfold SequencedState.execute
  rw [settles]
  dsimp only
  unfold SequencedState.executeSetInstrumentStatus
  rw [resolveLeafVivify_eq_ok.2 ⟨lives, rfl⟩]
  dsimp only
  unfold InstrumentStatusRegistry.tryTransition
  split
  next applied registry taken =>
    split at taken
    next =>
      cases taken
      simp [InstrumentStatusRegistry.statusOf, Final]
    next => cases taken
  next error registry refused =>
    split at refused
    next => cases refused
    next illegal => exact legal.resolve_left illegal

end Shut

/-- The executor of an underlying beside its commands: its books and its registry agree, and its engine ids are sequences
of its commands. -/
structure Tracked {U : Upstream} (laws : LeafLaws U) (executor : MatchingExecutor U) (underlying : String)
    (commands : List JournalCommand) : Prop where
  hosted : executor.state.underlyingBook.underlying = underlying
  inStep : InStep (addressOf? U underlying) (laws.viewOf executor.state)
  used : ∀ (id : Nat) (record : RestingRecord), executor.state.registry.resting[id]? = some record →
    ∃ command ∈ commands, command.sequence = id

namespace Tracked
variable {U : Upstream} {laws : LeafLaws U} {executor : MatchingExecutor U} {underlying : String}
  {commands : List JournalCommand}

theorem fresh (hashOrder : VisitOrder) (microstructure : Option MicrostructureConfig) :
    Tracked laws (freshExecutor U underlying microstructure none hashOrder) underlying [] where
  hosted := rfl
  inStep := inStep_fromBook underlying _
  used := by
    intro id record present
    simp [freshExecutor, SequencedState.fromBook, OrderRegistry.new] at present

theorem home (tracked : Tracked laws executor underlying commands) : executor.state.home = addressOf? U underlying :=
  congrArg (addressOf? U) tracked.hosted

theorem step (tracked : Tracked laws executor underlying commands) :
    InStep executor.state.home (laws.viewOf executor.state) :=
  tracked.home.symm ▸ tracked.inStep

/-- One more command, at a later sequence, whose match can be captured. -/
theorem next (tracked : Tracked laws executor underlying commands) {command : JournalCommand} {lineage : LineageId}
    (later : ∀ earlier ∈ commands, earlier.sequence < command.sequence)
    (fits : ∀ made ∈ executor.state.matchOf command.sequence command.command, made.Fits U) :
    Tracked laws (deriveEvent underlying lineage executor command).2 underlying (commands ++ [command]) where
  hosted := (SequencedState.execute_underlying executor.hashOrder executor.state (command.context underlying lineage)).trans
    tracked.hosted
  inStep := by
    have unused : executor.state.registry.resting[command.sequence]? = none := by
      by_contra present
      obtain ⟨record, here⟩ := Option.ne_none_iff_exists'.1 present
      obtain ⟨earlier, member, same⟩ := tracked.used _ record here
      have below := later earlier member
      omega
    obtain ⟨moves, moved, -⟩ := @SequencedState.execute_moves U laws executor.state (command.context underlying lineage)
      tracked.step unused executor.hashOrder fits
    rw [tracked.home] at moved
    exact tracked.inStep.moves moved
  used := by
    intro id record present
    rcases (SequencedState.execute_registry executor.hashOrder executor.state
      (command.context underlying lineage)).resting present with old | new
    · obtain ⟨earlier, member, same⟩ := tracked.used id record old
      exact ⟨earlier, List.mem_append_left _ member, same⟩
    · exact ⟨command, by simp, new.symm⟩

end Tracked

end Fauxchange.Exchange
