import Fauxchange.Exchange.CommandMoves
import Fauxchange.Exchange.MatchMoves

/-! The moves of every command, with the outcome that reports them. -/

namespace Fauxchange.Exchange
open Lib UnderlyingOrderBook

/-- Outcomes of commands that change no book. -/
inductive Quiet : VenueOutcome → Prop where
  | rejected (kind : RejectKind) (reason : String) : Quiet (.rejected kind reason)
  | duplicate (orderId : VenueOrderId) (sequence : Nat) (terminal : VenueOutcome) : Quiet (.duplicate orderId sequence terminal)
  | status (symbol : Symbol) (status : InstrumentStatus) : Quiet (.instrumentStatusChanged symbol status)
  | control : Quiet (.controlApplied [])
  | market (quantity : Nat) : Quiet (.market [] quantity [])

/-- The account a mass cancel is scoped to. -/
def accountScope (cancelType : MassCancelType) (account : AccountId) : Option AccountId :=
  match cancelType with
  | .all => none
  | .byUser _ | .bySide _ => some account

/-- The match a command has made, what it answers, and the moves it has made. -/
inductive TurnReport (U : Upstream) (home : Symbol → Option LeafAddress) (view : BookView) (sequence : Nat) :
    Option MadeMatch → VenueCommand → VenueOutcome → List Move → Prop where
  | still {command : VenueCommand} {outcome : VenueOutcome} (quiet : Quiet outcome) :
      TurnReport U home view sequence none command outcome []
  | cancelled {symbol : Symbol} {orderId : VenueOrderId} {account : AccountId} {drop : Drop}
      (named : NamedDrop home view symbol orderId account drop) :
      TurnReport U home view sequence none (.cancelOrder symbol orderId account) (.cancelled orderId) [drop.move]
  | swept {scope : MassCancelScope} {cancelType : MassCancelType} {account : AccountId} {drops : List Drop}
      (selected : ∀ drop ∈ drops, massCancelMatches U drop.record scope ((scopeExpiry U scope).bind Except.toOption)
        cancelType (accountScope cancelType account) = true) :
      TurnReport U home view sequence none (.massCancel scope cancelType account)
        (.massCancelled (drops.map fun drop => massCancelLeg drop.record)) (drops.map Drop.move)
  | killed {knobs : MarketMakerControlKnobs} {drops : List Drop} (off : knobs.enabled = some false)
      (selected : ∀ drop ∈ drops, drop.record.owner = marketMakerOwner) :
      TurnReport U home view sequence none (.marketMakerControl knobs)
        (.controlApplied (drops.map fun drop => massCancelLeg drop.record)) (drops.map Drop.move)
  | evicted {nowMs : Nat} {drops : List Drop} :
      TurnReport U home view sequence none (.evictExpiredOrders nowMs)
        (.evicted (sortByKey id (drops.map fun drop => drop.record.venueOrderId))) (drops.map Drop.move)
  | added {made : Option MadeMatch} {order : AddOrder} {price : Nat} {address : LeafAddress} {add : AddResult}
      {removed : List Nat} (limit : order.orderType = .limit) (priced : order.limitPrice = some price)
      (lives : home order.symbol = some address) (within : add.restingQuantity ≤ restable order.timeInForce order.quantity)
      (reported : MatchReport U view.registry (heardTrades made) removed add.fills add.stpCancelled) :
      TurnReport U home view sequence made (.addOrder order) (limitOutcome add)
        (.matched address order.owner (heardTrades made) removed :: restMoves address
          (order.placement.limitOrder sequence price) order.placement.record add.restingQuantity)
  | marketed {made : Option MadeMatch} {order : AddOrder} {address : LeafAddress} {fills : List Fill} {quantity : Nat}
      {legs : List CancelledLeg} {removed : List Nat} (lives : home order.symbol = some address)
      (reported : MatchReport U view.registry (heardTrades made) removed fills legs) :
      TurnReport U home view sequence made (.addOrder order) (.market fills quantity legs)
        [.matched address order.owner (heardTrades made) removed]
  | replaced {made : Option MadeMatch} {order : Replace} {drop : Drop} {price : Nat} {add : AddResult} {removed : List Nat}
      (named : NamedDrop home view order.symbol order.orderId order.account drop) (priced : order.limitPrice = some price)
      (within : add.restingQuantity ≤ restable order.timeInForce order.quantity)
      (reported : MatchReport U (view.registry.removeResting drop.engineId) (heardTrades made) removed add.fills
        add.stpCancelled) :
      TurnReport U home view sequence made (.replace order) (.replace true (classifyAddLeg add))
        (drop.move :: .matched drop.address drop.record.owner (heardTrades made) removed :: restMoves drop.address
          ((order.placement drop.record.owner).limitOrder sequence price) (order.placement drop.record.owner).record
          add.restingQuantity)
  | withdrawn {order : Replace} {drop : Drop} {kind : RejectKind} {reason : String}
      (named : NamedDrop home view order.symbol order.orderId order.account drop) (unpriced : order.limitPrice = none) :
      TurnReport U home view sequence none (.replace order) (.replace true (.rejected kind reason)) [drop.move]

namespace SequencedState
variable {U : Upstream} {laws : LeafLaws U} {state : SequencedState U} {ctx : ExecutionContext}
  (step : InStep state.home (laws.viewOf state)) (fresh : state.registry.resting[ctx.sequence]? = none)
  (visits : VisitOrder)

/-- A command that is answered and moves nothing. -/
theorem still_moves {command : VenueCommand} {sequence : Nat} {outcome : VenueOutcome} {after : SequencedState U}
    (quiet : Quiet outcome) (same : laws.viewOf after = laws.viewOf state) :
    ∃ moves, Moves state.home (laws.viewOf state) moves (laws.viewOf after) ∧
      TurnReport U state.home (laws.viewOf state) sequence none command outcome moves :=
  ⟨[], same ▸ .none _, .still quiet⟩

include step fresh in
theorem executeAddOrder_moves (order : AddOrder)
    (fits : ∀ made, state.addOrderMatch ctx.sequence order.placement order.orderType order.limitPrice = some made →
      made.Fits U) :
    ∃ moves, Moves state.home (laws.viewOf state) moves
        (laws.viewOf (state.executeAddOrder visits ctx order.placement order.orderType order.limitPrice).2) ∧
      TurnReport U state.home (laws.viewOf state) ctx.sequence
        (state.addOrderMatch ctx.sequence order.placement order.orderType order.limitPrice) (.addOrder order)
        (state.executeAddOrder visits ctx order.placement order.orderType order.limitPrice).1 moves := by
  unfold addOrderMatch at fits ⊢
  unfold executeAddOrder
  cases resolved : state.underlyingBook.resolveLeafVivify order.placement.symbol with
  | error reason => exact still_moves (.rejected _ _) rfl
  | ok found =>
    obtain ⟨address, book⟩ := found
    obtain ⟨lives, rfl⟩ := resolveLeafVivify_eq_ok.1 resolved
    rw [resolved] at fits
    dsimp only at fits ⊢
    split
    · exact still_moves (.rejected _ _) viewOf_vivify
    next accepting =>
      rw [if_neg accepting] at fits
      have present : ((state.underlyingBook.vivify address).leaf? address).isSome := by
        rw [leaf?_vivify_self]
        rfl
      have committed : ∀ registry leaf, laws.viewOf (commitLeaf { state with
          underlyingBook := state.underlyingBook.vivify address } address registry leaf) =
            (laws.viewOf state).set address (laws.orders leaf) registry := by
        intro registry leaf
        rw [viewOf_commitLeaf present, viewOf_vivify]
      have here : (laws.viewOf state).orders address =
          laws.orders ((state.underlyingBook.vivify address).leafAt address) := by
        rw [leafAt_vivify]
        rfl
      cases orderType : order.orderType with
      | market =>
        rw [orderType] at fits
        dsimp only at fits ⊢
        rw [committed]
        rcases executeMarket_moves visits step here fresh fits with
          ⟨quantity, unmatched, outcome, same⟩ | moved
        · rw [unmatched, show (executeMarket visits ctx state.registry _ order.placement).1 = _ from outcome]
          exact ⟨[], same.symm ▸ .none _, .still (.market quantity)⟩
        · obtain ⟨fills, quantity, legs, removed, outcome, moves, reported⟩ := moved
          rw [show (executeMarket visits ctx state.registry _ order.placement).1 = _ from outcome]
          exact ⟨_, moves, .marketed lives reported⟩
      | limit =>
        rw [orderType] at fits
        cases limit : order.limitPrice with
        | none => exact still_moves (.rejected _ _) viewOf_vivify
        | some price =>
          rw [limit] at fits
          dsimp only at fits ⊢
          rw [committed]
          obtain ⟨removed, moves, reported⟩ := runAdd_moves visits step here fresh lives fits
          exact ⟨_, moves, .added orderType limit lives (runAdd_restable visits _ _) reported⟩

include step fresh in
theorem executeReplace_moves (order : Replace)
    (fits : ∀ made, state.replaceMatch ctx.sequence order = some made → made.Fits U) :
    ∃ moves, Moves state.home (laws.viewOf state) moves (laws.viewOf (state.executeReplace visits ctx order).2) ∧
      TurnReport U state.home (laws.viewOf state) ctx.sequence (state.replaceMatch ctx.sequence order) (.replace order)
        (state.executeReplace visits ctx order).1 moves := by
  unfold replaceMatch at fits ⊢
  unfold executeReplace
  cases resolved : state.underlyingBook.resolveLeafVivify order.symbol with
  | error reason => exact still_moves (.rejected _ _) rfl
  | ok found =>
    obtain ⟨address, book⟩ := found
    obtain ⟨lives, rfl⟩ := resolveLeafVivify_eq_ok.1 resolved
    rw [resolved] at fits
    dsimp only at fits ⊢
    cases named : state.registry.venueToEngine[order.orderId]? with
    | none => exact still_moves (.rejected _ _) viewOf_vivify
    | some engineId =>
      rw [named] at fits
      dsimp only at fits ⊢
      split
      · exact still_moves (.rejected _ _) viewOf_vivify
      next owned =>
        rw [if_neg owned] at fits
        let vivified : SequencedState U := { state with underlyingBook := state.underlyingBook.vivify address }
        have viewed : laws.viewOf vivified = laws.viewOf state := viewOf_vivify
        have present : (vivified.underlyingBook.leaf? address).isSome := by
          rw [show vivified.underlyingBook.leaf? address = _ from leaf?_vivify_self _ _]
          rfl
        have again : InStep vivified.home (laws.viewOf vivified) := viewed.symm ▸ step
        cases call : U.cancelOrder ((state.underlyingBook.vivify address).leafAt address) engineId with
        | mk result leaf =>
          rw [call] at fits
          by_cases hit : result = .ok true
          · subst hit
            have told : (U.cancelOrder (vivified.underlyingBook.leafAt address) engineId).1 = .ok true :=
              congrArg Prod.fst call
            obtain ⟨record, registered, -, took⟩ := cancelled_took again present told
            obtain ⟨mine, found, same⟩ := OrderRegistry.accountOwns_iff.1 (by simpa using owned)
            have equal : mine = record := Option.some.inj (found.symm.trans registered)
            subst equal
            rw [show (U.cancelOrder (vivified.underlyingBook.leafAt address) engineId).2 = leaf from
              congrArg Prod.snd call, viewOf_commitLeaf present, viewed] at took
            have owner : (state.registry.resting[engineId]?.map (·.owner)).getD 0 = mine.owner := by
              rw [found]
              rfl
            have drop : NamedDrop state.home (laws.viewOf state) order.symbol order.orderId order.account
                ⟨address, engineId, mine⟩ := ⟨named, found, same, lives⟩
            dsimp only at fits ⊢
            rw [owner] at fits ⊢
            cases limit : order.limitPrice with
            | none =>
              dsimp only
              rw [viewOf_commitLeaf present, viewed]
              exact ⟨_, .next took (.none _), .withdrawn drop limit⟩
            | some price =>
              rw [limit] at fits
              dsimp only at fits ⊢
              have unused : ((laws.viewOf state).registry.removeResting engineId).resting[ctx.sequence]? = none := by
                rw [OrderRegistry.removeResting_getElem?]
                split
                · rfl
                · exact fresh
              obtain ⟨removed, moves, reported⟩ := @runAdd_moves U laws state.home _ address leaf
                (order.placement mine.owner) ctx price visits (step.took took) (BookView.set_orders_self _ _) unused lives fits
              rw [BookView.set_set] at moves
              rw [viewOf_commitLeaf present, viewed]
              exact ⟨_, .next took moves, .replaced drop limit (runAdd_restable visits _ _) reported⟩
          · have missed : laws.viewOf (vivified.commitLeaf address vivified.registry leaf) = laws.viewOf state := by
              have same := @uncancelled_view U laws vivified address engineId (by
                rw [show U.cancelOrder (vivified.underlyingBook.leafAt address) engineId = _ from call]
                exact hit)
              rw [show U.cancelOrder (vivified.underlyingBook.leafAt address) engineId = _ from call] at same
              exact same.trans viewed
            cases result with
            | error error => exact still_moves (.rejected _ _) missed
            | ok answer =>
              cases answer with
              | true => exact absurd rfl hit
              | false => exact still_moves (.rejected _ _) missed

include step in
theorem executeMassCancel_moves (round : Nat) (scope : MassCancelScope) (cancelType : MassCancelType) (account : AccountId)
    {sequence : Nat} :
    ∃ moves, Moves state.home (laws.viewOf state) moves
        (laws.viewOf (state.executeMassCancel visits round scope cancelType account).2) ∧
      TurnReport U state.home (laws.viewOf state) sequence none (.massCancel scope cancelType account)
        (state.executeMassCancel visits round scope cancelType account).1 moves := by
  unfold executeMassCancel
  split
  · exact still_moves (.rejected _ _) rfl
  next =>
    obtain ⟨drops, moved, reported, selected⟩ :=
      sweepMatching_moves step visits round scope cancelType (accountScope cancelType account)
    have report := @TurnReport.swept U state.home (laws.viewOf state) sequence _ _ _ drops selected
    rw [← reported] at report
    exact ⟨drops.map Drop.move, moved, report⟩

theorem executeSetInstrumentStatus_view (symbol : Symbol) (status : InstrumentStatus) :
    laws.viewOf (state.executeSetInstrumentStatus symbol status).2 = laws.viewOf state := by
  unfold executeSetInstrumentStatus
  cases resolved : state.underlyingBook.resolveLeafVivify symbol with
  | error reason => rfl
  | ok found =>
    obtain ⟨address, book⟩ := found
    obtain ⟨-, rfl⟩ := resolveLeafVivify_eq_ok.1 resolved
    dsimp only
    split <;> exact viewOf_vivify

theorem executeSetInstrumentStatus_moves (symbol : Symbol) (status : InstrumentStatus) {sequence : Nat} :
    ∃ moves, Moves state.home (laws.viewOf state) moves
        (laws.viewOf (state.executeSetInstrumentStatus symbol status).2) ∧
      TurnReport U state.home (laws.viewOf state) sequence none (.setInstrumentStatus symbol status)
        (state.executeSetInstrumentStatus symbol status).1 moves := by
  refine still_moves ?_ (executeSetInstrumentStatus_view symbol status)
  unfold executeSetInstrumentStatus
  split
  · exact .rejected _ _
  · dsimp only
    split
    · exact .status _ _
    · exact .rejected _ _

include step in
theorem executeMarketMakerControl_moves (round : Nat) (knobs : MarketMakerControlKnobs) {sequence : Nat} :
    ∃ moves, Moves state.home (laws.viewOf state) moves
        (laws.viewOf (state.executeMarketMakerControl visits round knobs).2) ∧
      TurnReport U state.home (laws.viewOf state) sequence none (.marketMakerControl knobs)
        (state.executeMarketMakerControl visits round knobs).1 moves := by
  unfold executeMarketMakerControl
  split
  next off =>
    obtain ⟨drops, moved, reported, selected⟩ :=
      sweepMatching_moves step visits round .underlying (.byUser marketMakerOwner) none
    have owned : ∀ drop ∈ drops, drop.record.owner = marketMakerOwner := by
      intro drop member
      have selects := selected drop member
      simpa [massCancelMatches] using selects
    have report := @TurnReport.killed U state.home (laws.viewOf state) sequence knobs drops off owned
    rw [← reported] at report
    exact ⟨drops.map Drop.move, moved, report⟩
  next => exact still_moves .control rfl

include step fresh in
/-- Every command makes the moves that it reports. -/
theorem execute_moves (fits : ∀ made, state.matchOf ctx.sequence ctx.command = some made → made.Fits U) :
    ∃ moves, Moves state.home (laws.viewOf state) moves (laws.viewOf (state.execute visits ctx).2) ∧
      TurnReport U state.home (laws.viewOf state) ctx.sequence (state.matchOf ctx.sequence ctx.command) ctx.command
        (state.execute visits ctx).1 moves := by
  unfold execute
  cases command : ctx.command with
  | addOrder order =>
    rw [command] at fits
    simp only [matchOf] at fits ⊢
    simp only [addWithIdempotency]
    cases used : order.clientOrderId with
    | none =>
      rw [used] at fits
      exact executeAddOrder_moves step fresh visits order fits
    | some id =>
      rw [used, Option.bind_some] at fits
      dsimp only
      cases known : state.idempotency[(order.account, id)]? with
      | none =>
        rw [known] at fits
        rw [Option.bind_some, known]
        exact executeAddOrder_moves step fresh visits order fits
      | some entry =>
        rw [Option.bind_some, known, Option.isSome_some, if_pos rfl]
        dsimp only
        split
        · exact still_moves (.duplicate _ _ _) rfl
        · exact still_moves (.rejected _ _) rfl
  | cancelOrder symbol orderId account =>
    obtain ⟨moves, moved, report⟩ := executeCancel_moves step symbol orderId account
    refine ⟨moves, moved, ?_⟩
    dsimp only
    generalize (state.executeCancel symbol orderId account).1 = outcome at report ⊢
    cases report with
    | refused kind reason => exact .still (.rejected kind reason)
    | dropped drop named => exact .cancelled named
  | replace order =>
    rw [command] at fits
    exact executeReplace_moves step fresh visits order fits
  | massCancel scope cancelType account => exact executeMassCancel_moves step visits ctx.sequence scope cancelType account
  | setInstrumentStatus symbol status => exact executeSetInstrumentStatus_moves symbol status
  | evictExpiredOrders nowMs =>
    obtain ⟨drops, moved, reported⟩ := executeEvictExpired_moves step visits ctx.sequence nowMs
    have report := @TurnReport.evicted U state.home (laws.viewOf state) ctx.sequence nowMs drops
    rw [← reported] at report
    exact ⟨drops.map Drop.move, moved, report⟩
  | marketMakerControl knobs => exact executeMarketMakerControl_moves step visits ctx.sequence knobs
  | clock => exact still_moves .control rfl
  | simStep => exact still_moves .control rfl

end SequencedState

end Fauxchange.Exchange
