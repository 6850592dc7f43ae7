import Fauxchange.Exchange.HashOrder
import Fauxchange.Exchange.NeutralBook
import Fauxchange.Exchange.Stores

/-! The fills of a command as the legs of trades: each trade of the match a command makes gives a maker leg and a
taker leg under one execution id, and nothing else gives a leg. -/

namespace Fauxchange.Exchange
open Lib

/-- A match the book has made, with the fee schedule of its leaf and whether the book's own record of it can be
built. -/
structure MadeMatch where
  matched : MatchResult
  schedule : Option FeeSchedule
  recorded : Bool

/-- The legs of a match fit the widths they are captured in: the index 32 bits, the price and the filled total 64,
the notional 128 and the fee 63 and a sign. -/
structure MadeMatch.Fits (U : Upstream) (made : MadeMatch) : Prop where
  recorded : made.recorded = true
  few : made.matched.trades.length ≤ 2 ^ 32
  priced : ∀ trade ∈ made.matched.trades, trade.price < 2 ^ 64
  total : (made.matched.trades.map Trade.quantity).sum ≤ u64Max
  charged : ∀ trade ∈ made.matched.trades, ∀ isMaker,
    (perLegFee U made.schedule trade.price trade.quantity isMaker).isOk = true

instance (U : Upstream) (made : MadeMatch) : Decidable (made.Fits U) :=
  decidable_of_iff (made.recorded = true ∧ made.matched.trades.length ≤ 2 ^ 32 ∧
      (∀ trade ∈ made.matched.trades, trade.price < 2 ^ 64) ∧ (made.matched.trades.map Trade.quantity).sum ≤ u64Max ∧
        ∀ trade ∈ made.matched.trades, ∀ isMaker,
          (perLegFee U made.schedule trade.price trade.quantity isMaker).isOk = true)
    ⟨fun ⟨recorded, few, priced, total, charged⟩ => ⟨recorded, few, priced, total, charged⟩,
      fun fits => ⟨fits.recorded, fits.few, fits.priced, fits.total, fits.charged⟩⟩

/-- The trades of a match that are captured: all of them if their legs fit, and otherwise none. The second does not
happen to orders within the venue's price band and size. -/
def capturedTrades (U : Upstream) : Option MadeMatch → List Trade
  | none => []
  | some made => if made.Fits U then made.matched.trades else []

section Made
variable {U : Upstream}

/-- What the armed listener has heard of a call that failed. -/
def heardMatch (armed after : U.Leaf) : Option MadeMatch :=
  (slotTradeAfter after (lastTradeSeq armed)).map fun trade => ⟨trade.matchResult, U.feeSchedule armed, true⟩

/-- The match of a limit add. -/
def addMatch (leaf : U.Leaf) (order : LimitOrder) : Option MadeMatch :=
  let armed := U.armTradeCapture leaf
  let added := U.addLimitOrder armed order
  match added.1 with
  | .ok trade => some ⟨trade.matchResult, U.feeSchedule armed, true⟩
  | .error _ => heardMatch armed added.2

theorem addMatch_of_ok {leaf : U.Leaf} {order : LimitOrder} {trade : TradeResult}
    (accepted : (U.addLimitOrder (U.armTradeCapture leaf) order).1 = .ok trade) :
    addMatch leaf order = some ⟨trade.matchResult, U.feeSchedule (U.armTradeCapture leaf), true⟩ := by
  unfold addMatch
  dsimp only
  rw [accepted]

theorem addMatch_of_error {leaf : U.Leaf} {order : LimitOrder} {error : String}
    (failed : (U.addLimitOrder (U.armTradeCapture leaf) order).1 = .error error) :
    addMatch leaf order = heardMatch (U.armTradeCapture leaf) (U.addLimitOrder (U.armTradeCapture leaf) order).2 := by
  unfold addMatch
  dsimp only
  rw [failed]

/-- The match of a market order. -/
def marketMatch (leaf : U.Leaf) (sequence : Nat) (placement : Placement) : Option MadeMatch :=
  let armed := U.armTradeCapture leaf
  match oppositeDepth armed placement.side with
  | .ok 0 => none
  | _ =>
    let matched := U.submitMarketOrder armed (engineOrderId sequence) placement.quantity placement.side placement.owner
    match matched.1 with
    | .ok result => some ⟨result, U.feeSchedule armed, (U.tradeResultNew result).isOk⟩
    | .error _ => heardMatch armed matched.2

/-- The match of a market order that meets some depth. -/
def submitMatch (leaf : U.Leaf) (id quantity : Nat) (side : Side) (owner : Hash32) : Option MadeMatch :=
  let armed := U.armTradeCapture leaf
  let call := U.submitMarketOrder armed id quantity side owner
  match call.1 with
  | .ok result => some ⟨result, U.feeSchedule armed, (U.tradeResultNew result).isOk⟩
  | .error _ => heardMatch armed call.2

namespace SequencedState
variable (state : SequencedState U)

/-- The match of a placement that passes its gates. -/
def addOrderMatch (sequence : Nat) (placement : Placement) (orderType : OrderType) (limitPrice : Option Nat) :
    Option MadeMatch :=
  match state.underlyingBook.resolveLeafVivify placement.symbol with
  | .error _ => none
  | .ok (address, book) =>
    if !state.instrumentStatus.isAcceptingOrders U placement.symbol then none
    else
      match orderType, limitPrice with
      | .market, _ => marketMatch (book.leafAt address) sequence placement
      | .limit, none => none
      | .limit, some price => addMatch (book.leafAt address) (placement.limitOrder sequence price)

/-- The match of the add leg of a replace. -/
def replaceMatch (sequence : Nat) (amended : Replace) : Option MadeMatch :=
  match state.underlyingBook.resolveLeafVivify amended.symbol with
  | .error _ => none
  | .ok (address, book) =>
    match state.registry.venueToEngine[amended.orderId]? with
    | none => none
    | some engineId =>
      if !state.registry.accountOwns engineId amended.account then none
      else
        let owner := (state.registry.resting[engineId]?.map (·.owner)).getD 0
        match U.cancelOrder (book.leafAt address) engineId with
        | (.ok true, leaf) =>
          amended.limitPrice.bind fun price => addMatch leaf ((amended.placement owner).limitOrder sequence price)
        | _ => none

/-- The match a command makes in the book; a client order id that was used before makes none. -/
def matchOf (sequence : Nat) : VenueCommand → Option MadeMatch
  | .addOrder placed =>
    if (placed.clientOrderId.bind fun id => state.idempotency[(placed.account, id)]?).isSome then none
    else state.addOrderMatch sequence placed.placement placed.orderType placed.limitPrice
  | .replace amended => state.replaceMatch sequence amended
  | _ => none

end SequencedState

end Made

/-- The two legs of a trade in the order of its match. -/
structure LegsOf (ctx : ExecutionContext) (trade : Trade × Nat) (legs : Fill × Fill) : Prop where
  makerId : legs.1.executionId = ctx.lineageId.executionId ctx.underlying ctx.sequence trade.2
  takerId : legs.2.executionId = ctx.lineageId.executionId ctx.underlying ctx.sequence trade.2
  maker : legs.1.liquidity = .maker
  taker : legs.2.liquidity = .taker
  makerSide : legs.1.side = trade.1.makerSide
  takerSide : legs.2.side = trade.1.takerSide
  quantity : legs.1.quantity = trade.1.quantity ∧ legs.2.quantity = trade.1.quantity
  price : legs.1.price = trade.1.price ∧ legs.2.price = trade.1.price

/-- The legs of a pair, the maker's first. -/
def bothLegs {α : Type} (legs : α × α) : List α := [legs.1, legs.2]

theorem map_bothLegs {α β : Type} (read : α → β) (pairs : List (α × α)) :
    (pairs.flatMap bothLegs).map read = (pairs.map (Prod.map read read)).flatMap bothLegs := by
  rw [List.map_flatMap, List.flatMap_map]
  rfl

/-- The fills are the legs of the trades, in their order. -/
def Captures (ctx : ExecutionContext) (trades : List Trade) (fills : List Fill) : Prop :=
  ∃ pairs, List.Forall₂ (LegsOf ctx) trades.zipIdx pairs ∧ fills = pairs.flatMap bothLegs

section Capture
variable {U : Upstream} {ctx : ExecutionContext} {registry : OrderRegistry} {taker : Placement}
  {schedule : Option FeeSchedule}

theorem captures_nil : Captures ctx [] [] := ⟨[], .nil, rfl⟩

theorem tradeLegs_pair {index : Nat} {trade : Trade} {legs : List Fill}
    (built : tradeLegs U ctx registry taker schedule index trade = .ok legs) :
    ∃ pair, legs = bothLegs pair ∧ LegsOf ctx (trade, index) pair := by
  unfold tradeLegs at built
  dsimp only at built
  split at built
  · cases built
  · split at built
    · cases built
    · cases built
      exact ⟨(_, _), rfl, rfl, rfl, rfl, rfl, rfl, rfl, ⟨rfl, rfl⟩, ⟨rfl, rfl⟩⟩

/-- The legs of a match, in pairs that are related to its trades as each trade's are. -/
theorem tradesLegs_pairs {related : Trade × Nat → Fill × Fill → Prop} {trades : List Trade}
    {index takerFilled total : Nat} {fills : List Fill}
    (each : ∀ trade place legs, tradeLegs U ctx registry taker schedule place trade = .ok legs →
      ∃ pair, legs = bothLegs pair ∧ related (trade, place) pair)
    (built : tradesLegs U ctx registry taker schedule index takerFilled trades = .ok (fills, total)) :
    ∃ pairs, List.Forall₂ related (trades.zipIdx index) pairs ∧ fills = pairs.flatMap bothLegs := by
  induction trades generalizing index takerFilled fills with
  | nil =>
    cases built
    exact ⟨[], .nil, rfl⟩
  | cons trade rest ih =>
    unfold tradesLegs at built
    split at built
    · cases built
    · split at built
      · cases built
      next legs first =>
        split at built
        · cases built
        next others later =>
          cases built
          obtain ⟨pair, rfl, one⟩ := each trade index legs first
          obtain ⟨pairs, more, rfl⟩ := ih later
          exact ⟨pair :: pairs, .cons one more, rfl⟩

/-- Only a match whose legs fit is captured. -/
theorem tradesLegs_fit {trades : List Trade} {index takerFilled : Nat} {result : List Fill × Nat}
    (low : takerFilled ≤ u64Max) (built : tradesLegs U ctx registry taker schedule index takerFilled trades = .ok result) :
    (trades ≠ [] → index + trades.length ≤ 2 ^ 32) ∧ (∀ trade ∈ trades, trade.price < 2 ^ 64) ∧
      takerFilled + (trades.map Trade.quantity).sum ≤ u64Max ∧
        ∀ trade ∈ trades, ∀ isMaker, (perLegFee U schedule trade.price trade.quantity isMaker).isOk = true := by
  induction trades generalizing index takerFilled result with
  | nil => simpa using low
  | cons trade rest ih =>
    unfold tradesLegs at built
    split at built
    · cases built
    next within =>
      split at built
      · cases built
      next legs first =>
        split at built
        · cases built
        next fills total later =>
          obtain ⟨few, priced, filled, charged⟩ := ih (by omega) later
          refine ⟨fun _ => ?_, ?_, ?_, ?_⟩
          · rw [List.length_cons]
            by_cases last : rest = []
            · rw [last, List.length_nil]
              omega
            · have more := few last
              omega
          · intro other member
            rcases List.mem_cons.1 member with rfl | listed
            · omega
            · exact priced other listed
          · rw [List.map_cons, List.sum_cons]
            omega
          · intro other member isMaker
            rcases List.mem_cons.1 member with rfl | listed
            · unfold tradeLegs at first
              dsimp only at first
              cases maker : perLegFee U schedule other.price other.quantity true with
              | error => simp [maker] at first
              | ok makerFee =>
                cases paid : perLegFee U schedule other.price other.quantity false with
                | error => simp [maker, paid] at first
                | ok takerFee => cases isMaker <;> simp [maker, paid, Except.isOk, Except.toBool]
            · exact charged other listed isMaker

variable (ctx)

/-- A capture holds the legs of some trades, and one that fails has none to hold. -/
def Settles (trades : List Trade) : Except MoneyError CapturedFills → Prop
  | .ok captured => Captures ctx trades captured.fills
  | .error _ => trades = []

/-- A match whose legs are built fits. -/
theorem buildFills_fits {made : MadeMatch} (recorded : made.recorded = true) {captured : CapturedFills}
    (built : buildFills U ctx registry made.matched taker made.schedule = .ok captured) : made.Fits U := by
  unfold buildFills at built
  split at built
  · cases built
  next done =>
    cases built
    obtain ⟨few, priced, total, charged⟩ := tradesLegs_fit (Nat.zero_le _) done
    rw [Nat.zero_add] at few total
    refine ⟨recorded, ?_, priced, total, charged⟩
    by_cases none : made.matched.trades = []
    · simp [none]
    · exact few none

theorem buildFills_unfit {made : MadeMatch} {error : MoneyError}
    (failed : buildFills U ctx registry made.matched taker made.schedule = .error error) : ¬ made.Fits U := by
  intro fits
  obtain ⟨fills, done⟩ := buildFills_ok ctx registry taker fits.few fits.priced fits.total fits.charged
  rw [failed] at done
  cases done

/-- The legs that are built are those of the match. -/
theorem buildFills_pairs {related : Trade × Nat → Fill × Fill → Prop} {matched : MatchResult} {captured : CapturedFills}
    (each : ∀ trade place legs, tradeLegs U ctx registry taker schedule place trade = .ok legs →
      ∃ pair, legs = bothLegs pair ∧ related (trade, place) pair)
    (built : buildFills U ctx registry matched taker schedule = .ok captured) :
    ∃ pairs, List.Forall₂ related matched.trades.zipIdx pairs ∧ captured.fills = pairs.flatMap bothLegs := by
  unfold buildFills at built
  split at built
  · cases built
  next done =>
    cases built
    exact tradesLegs_pairs each done

/-- A recorded match is captured trade by trade if it fits, and not at all otherwise. -/
theorem buildFills_settles {made : MadeMatch} (recorded : made.recorded = true) (registry : OrderRegistry)
    (taker : Placement) :
    Settles ctx (capturedTrades U (some made)) (buildFills U ctx registry made.matched taker made.schedule) := by
  simp only [capturedTrades]
  cases built : buildFills U ctx registry made.matched taker made.schedule with
  | error error => exact if_neg (buildFills_unfit ctx built)
  | ok captured =>
    rw [if_pos (buildFills_fits ctx recorded built)]
    exact buildFills_pairs ctx (fun _ _ _ legs => tradeLegs_pair legs) built

theorem slotFills_settles (armed after : U.Leaf) (registry : OrderRegistry) (taker : Placement) :
    Settles ctx (capturedTrades U (heardMatch armed after))
      (slotFills ctx registry after (lastTradeSeq armed) taker (U.feeSchedule armed)) := by
  unfold heardMatch slotFills
  cases slotTradeAfter after (lastTradeSeq armed) with
  | none => exact captures_nil
  | some trade => exact @buildFills_settles U ctx ⟨trade.matchResult, U.feeSchedule armed, true⟩ rfl registry taker

theorem runAdd_captures (order : VisitOrder) (leaf : U.Leaf) (placement : Placement) (price : Nat) :
    Captures ctx (capturedTrades U (addMatch leaf (placement.limitOrder ctx.sequence price)))
      (runAdd order ctx registry leaf placement price).1.fills := by
  unfold addMatch Placement.limitOrder
  unfold runAdd
  dsimp only
  generalize U.addLimitOrder (U.armTradeCapture leaf) _ = added
  obtain ⟨result, after⟩ := added
  cases result with
  | ok trade =>
    have settles := @buildFills_settles U ctx ⟨trade.matchResult, U.feeSchedule (U.armTradeCapture leaf), true⟩ rfl
      registry placement
    dsimp only at settles ⊢
    cases built : buildFills U ctx registry trade.matchResult placement (U.feeSchedule (U.armTradeCapture leaf)) with
    | error error =>
      rw [built] at settles
      rw [show capturedTrades U _ = [] from settles]
      exact captures_nil
    | ok captured =>
      rw [built] at settles
      exact settles
  | error error =>
    have settles := slotFills_settles ctx (U.armTradeCapture leaf) after registry placement
    dsimp only
    cases built : slotFills ctx registry after (lastTradeSeq (U.armTradeCapture leaf)) placement
        (U.feeSchedule (U.armTradeCapture leaf)) with
    | error error =>
      rw [built] at settles
      rw [show capturedTrades U _ = [] from settles]
      exact captures_nil
    | ok captured =>
      rw [built] at settles
      exact settles

theorem outcomeFills_limitOutcome (add : AddResult) : outcomeFills (limitOutcome add) = add.fills := by
  unfold limitOutcome
  split
  · rfl
  next still =>
    have none : add.fills = [] := by
      by_contra some
      exact still (by simp [addHasMutation, some])
    exact none.symm

theorem outcomeFills_classifyAddLeg (add : AddResult) :
    outcomeFills (.replace true (classifyAddLeg add)) = add.fills := by
  unfold classifyAddLeg
  split
  next still =>
    have none : add.fills = [] := by
      by_contra some
      simp [addHasMutation, some] at still
    exact none.symm
  · split <;> rfl

/-- A market order that meets no depth. -/
theorem executeMarket_of_empty (order : VisitOrder) {leaf : U.Leaf} {placement : Placement}
    (empty : oppositeDepth (U.armTradeCapture leaf) placement.side = .ok 0) :
    marketMatch leaf ctx.sequence placement = none ∧ executeMarket order ctx registry leaf placement =
      (.market [] placement.quantity [], registry, U.armTradeCapture leaf) := by
  constructor
  · unfold marketMatch
    dsimp only
    rw [empty]
    rfl
  · unfold executeMarket
    dsimp only
    rw [empty]
    rfl

/-- The match of a market order that meets some depth. -/
theorem marketMatch_of_depth {leaf : U.Leaf} {placement : Placement}
    (depth : oppositeDepth (U.armTradeCapture leaf) placement.side ≠ .ok 0) :
    marketMatch leaf ctx.sequence placement =
      submitMatch leaf (engineOrderId ctx.sequence) placement.quantity placement.side placement.owner := by
  unfold marketMatch submitMatch
  dsimp only
  split
  next empty => exact absurd empty depth
  next => rfl

/-- The capture of a market order. -/
def marketCapture (ctx : ExecutionContext) (registry : OrderRegistry) (leaf : U.Leaf) (placement : Placement) :
    Except MoneyError CapturedFills :=
  let armed := U.armTradeCapture leaf
  let matched := U.submitMarketOrder armed (engineOrderId ctx.sequence) placement.quantity placement.side placement.owner
  match matched.1 with
  | .ok result =>
    match U.tradeResultNew result with
    | .ok trade => buildFills U ctx registry trade.matchResult placement (U.feeSchedule armed)
    | .error _ => .error .overflow
  | .error _ => slotFills ctx registry matched.2 (lastTradeSeq armed) placement (U.feeSchedule armed)

theorem executeMarket_of_depth (order : VisitOrder) {leaf : U.Leaf} {placement : Placement}
    (depth : oppositeDepth (U.armTradeCapture leaf) placement.side ≠ .ok 0) :
    executeMarket order ctx registry leaf placement =
      let armed := U.armTradeCapture leaf
      let matched := U.submitMarketOrder armed (engineOrderId ctx.sequence) placement.quantity placement.side placement.owner
      match marketCapture ctx registry leaf placement with
      | .error _ => (.market [] placement.quantity [], registry, matched.2)
      | .ok captured =>
        let settled := settleMatch order ctx registry captured (stpActive armed)
          (ownerRestingIds armed placement.owner) (ownerRestingIds matched.2 placement.owner)
        (.market captured.fills (placement.quantity - captured.takerFilled) settled.1, settled.2, matched.2) := by
  unfold executeMarket marketCapture
  dsimp only
  split
  next empty => exact absurd empty depth
  next => rfl

theorem executeMarket_captures (order : VisitOrder) (leaf : U.Leaf) (placement : Placement)
    (wraps : ∀ matched trade, U.tradeResultNew matched = .ok trade → trade.matchResult = matched) :
    Captures ctx (capturedTrades U (marketMatch leaf ctx.sequence placement))
      (outcomeFills (executeMarket order ctx registry leaf placement).1) := by
  by_cases empty : oppositeDepth (U.armTradeCapture leaf) placement.side = .ok 0
  · obtain ⟨unmatched, outcome⟩ := @executeMarket_of_empty U ctx registry order leaf placement empty
    rw [unmatched, outcome]
    exact captures_nil
  · rw [marketMatch_of_depth ctx empty, executeMarket_of_depth ctx order empty]
    unfold submitMatch marketCapture
    dsimp only
    generalize U.submitMarketOrder (U.armTradeCapture leaf) _ _ _ _ = submitted
    obtain ⟨result, after⟩ := submitted
    cases result with
    | ok matched =>
      cases wrapped : U.tradeResultNew matched with
      | error error =>
        have unfit : ¬ (MadeMatch.mk matched (U.feeSchedule (U.armTradeCapture leaf)) false).Fits U :=
          fun fits => Bool.noConfusion fits.recorded
        simp only [wrapped, capturedTrades, Except.isOk, Except.toBool, if_neg unfit]
        exact captures_nil
      | ok trade =>
        have settles := @buildFills_settles U ctx ⟨matched, U.feeSchedule (U.armTradeCapture leaf), true⟩ rfl registry
          placement
        simp only [wrapped, wraps matched trade wrapped, Except.isOk, Except.toBool] at settles ⊢
        cases built : buildFills U ctx registry matched placement (U.feeSchedule (U.armTradeCapture leaf)) with
        | error error =>
          rw [built] at settles
          rw [show capturedTrades U _ = [] from settles]
          exact captures_nil
        | ok captured =>
          rw [built] at settles
          exact settles
    | error error =>
      have settles := slotFills_settles ctx (U.armTradeCapture leaf) after registry placement
      dsimp only
      cases built : slotFills ctx registry after (lastTradeSeq (U.armTradeCapture leaf)) placement
          (U.feeSchedule (U.armTradeCapture leaf)) with
      | error error =>
        rw [built] at settles
        rw [show capturedTrades U _ = [] from settles]
        exact captures_nil
      | ok captured =>
        rw [built] at settles
        exact settles

end Capture

namespace SequencedState
variable {U : Upstream} (order : VisitOrder) (state : SequencedState U) (ctx : ExecutionContext)

theorem executeAddOrder_captures (placement : Placement) (orderType : OrderType) (limitPrice : Option Nat)
    (wraps : ∀ matched trade, U.tradeResultNew matched = .ok trade → trade.matchResult = matched) :
    Captures ctx (capturedTrades U (state.addOrderMatch ctx.sequence placement orderType limitPrice))
      (outcomeFills (state.executeAddOrder order ctx placement orderType limitPrice).1) := by
  unfold addOrderMatch
  unfold executeAddOrder
  cases state.underlyingBook.resolveLeafVivify placement.symbol with
  | error reason => exact captures_nil
  | ok found =>
    dsimp only
    split
    · exact captures_nil
    · split
      · exact executeMarket_captures ctx order _ placement wraps
      · exact captures_nil
      · rw [outcomeFills_limitOutcome]
        exact runAdd_captures ctx order _ placement _

theorem executeReplace_captures (amended : Replace) :
    Captures ctx (capturedTrades U (state.replaceMatch ctx.sequence amended))
      (outcomeFills (state.executeReplace order ctx amended).1) := by
  unfold replaceMatch
  unfold executeReplace
  cases state.underlyingBook.resolveLeafVivify amended.symbol with
  | error reason => exact captures_nil
  | ok found =>
    dsimp only
    cases state.registry.venueToEngine[amended.orderId]? with
    | none => exact captures_nil
    | some engineId =>
      dsimp only
      split
      · exact captures_nil
      · split
        next leaf cancelled =>
          simp only [cancelled]
          cases amended.limitPrice with
          | none => exact captures_nil
          | some price =>
            rw [outcomeFills_classifyAddLeg]
            exact runAdd_captures ctx order leaf _ price
        next missed =>
          split
          next leaf cancelled => exact absurd cancelled (missed leaf)
          next => exact captures_nil

/-- Only an add and a replace fill. -/
theorem execute_silent (silent : commandSymbol ctx.command = none) : outcomeFills (state.execute order ctx).1 = [] := by
  unfold execute
  cases command : ctx.command with
  | addOrder placed => simp [command, commandSymbol] at silent
  | replace amended => simp [command, commandSymbol] at silent
  | cancelOrder symbol orderId account =>
    simp only [executeCancel]
    repeat' split
    all_goals rfl
  | massCancel scope cancelType account =>
    simp only [executeMassCancel]
    split <;> rfl
  | setInstrumentStatus symbol status =>
    simp only [executeSetInstrumentStatus]
    repeat' split
    all_goals rfl
  | evictExpiredOrders nowMs => rfl
  | marketMakerControl knobs =>
    simp only [executeMarketMakerControl]
    split <;> rfl
  | clock => rfl
  | simStep => rfl

theorem addWithIdempotency_fills {P : List Fill → Prop} (none : P []) (placed : AddOrder)
    (fresh : P (outcomeFills (state.executeAddOrder order ctx placed.placement placed.orderType placed.limitPrice).1)) :
    P (outcomeFills (state.addWithIdempotency order ctx placed).1) := by
  simp only [addWithIdempotency]
  split
  · exact fresh
  · split
    · split <;> exact none
    · exact fresh

/-- The fills of a command are the two legs of each trade that is captured. -/
theorem execute_captures (wraps : ∀ matched trade, U.tradeResultNew matched = .ok trade → trade.matchResult = matched) :
    Captures ctx (capturedTrades U (state.matchOf ctx.sequence ctx.command))
      (outcomeFills (state.execute order ctx).1) := by
  cases command : ctx.command with
  | addOrder placed =>
    have fresh := executeAddOrder_captures order state ctx placed.placement placed.orderType placed.limitPrice wraps
    simp only [execute, command, matchOf, addWithIdempotency]
    cases placed.clientOrderId with
    | none => exact fresh
    | some id =>
      dsimp only
      rw [Option.bind_some]
      cases state.idempotency[(placed.account, id)]? with
      | none => exact fresh
      | some entry =>
        rw [Option.isSome_some, if_pos rfl]
        dsimp only
        split <;> exact captures_nil
  | replace amended =>
    simp only [execute, command]
    exact executeReplace_captures order state ctx amended
  | _ =>
    rw [execute_silent order state ctx (by rw [command]; rfl)]
    exact captures_nil

theorem executeAddOrder_underlying (placement : Placement) (orderType : OrderType) (limitPrice : Option Nat) :
    (state.executeAddOrder order ctx placement orderType limitPrice).2.underlyingBook.underlying =
      state.underlyingBook.underlying := by
  unfold executeAddOrder
  split
  · rfl
  next vivified =>
    obtain ⟨-, rfl⟩ := UnderlyingOrderBook.resolveLeafVivify_eq_ok.1 vivified
    dsimp only
    split
    · rfl
    · split <;> rfl

theorem cancelTargets_underlying (targets : List (Nat × RestingRecord)) :
    (state.cancelTargets targets).2.underlyingBook.underlying = state.underlyingBook.underlying := by
  induction targets generalizing state with
  | nil => rfl
  | cons target rest ih =>
    simp only [cancelTargets]
    split
    · exact ih state
    · split
      · exact ih _
      · exact ih _

theorem evictLeaf_underlying (nowMs : Nat) (book : UnderlyingOrderBook U) (symbol : Symbol) :
    (evictLeaf nowMs book symbol).2.underlying = book.underlying := by
  unfold evictLeaf
  split
  · rfl
  · split <;> rfl

theorem evictLeaves_underlying (nowMs : Nat) (book : UnderlyingOrderBook U) (symbols : List Symbol) :
    (evictLeaves nowMs book symbols).2.underlying = book.underlying := by
  induction symbols generalizing book with
  | nil => rfl
  | cons symbol rest ih => exact (ih (evictLeaf nowMs book symbol).2).trans (evictLeaf_underlying nowMs book symbol)

/-- The underlying of an executor never changes. -/
theorem execute_underlying :
    (state.execute order ctx).2.underlyingBook.underlying = state.underlyingBook.underlying := by
  unfold execute
  split
  · unfold addWithIdempotency
    split
    · exact executeAddOrder_underlying order state ctx _ _ _
    · split
      · split <;> rfl
      · exact executeAddOrder_underlying order state ctx _ _ _
  · unfold executeCancel
    repeat' split
    all_goals rfl
  · unfold executeReplace
    split
    · rfl
    next vivified =>
      obtain ⟨-, rfl⟩ := UnderlyingOrderBook.resolveLeafVivify_eq_ok.1 vivified
      dsimp only
      repeat' split
      all_goals rfl
  · unfold executeMassCancel
    split
    · rfl
    · exact cancelTargets_underlying state _
  · unfold executeSetInstrumentStatus
    split
    · rfl
    next vivified =>
      obtain ⟨-, rfl⟩ := UnderlyingOrderBook.resolveLeafVivify_eq_ok.1 vivified
      dsimp only
      split <;> rfl
  · exact evictLeaves_underlying _ _ _
  · unfold executeMarketMakerControl
    split
    · exact cancelTargets_underlying state _
    · rfl
  · rfl
  · rfl

theorem resolveLeafVivify_underlying {book : UnderlyingOrderBook U} {symbol : Symbol}
    {found : LeafAddress × UnderlyingOrderBook U} (resolved : book.resolveLeafVivify symbol = .ok found) :
    underlyingOf U symbol = some book.underlying := by
  unfold UnderlyingOrderBook.resolveLeafVivify at resolved
  unfold underlyingOf
  split at resolved
  · cases resolved
  next parsed shape =>
    split at resolved
    · cases resolved
    next equal =>
      rw [shape, ← Decidable.not_not.1 equal]
      rfl

/-- A command that fills names a contract of the executor's underlying. -/
theorem execute_fills_symbol (filled : outcomeFills (state.execute order ctx).1 ≠ []) :
    ∃ symbol, commandSymbol ctx.command = some symbol ∧
      underlyingOf U symbol = some state.underlyingBook.underlying := by
  cases named : commandSymbol ctx.command with
  | none => exact absurd (execute_silent order state ctx named) filled
  | some symbol =>
    refine ⟨symbol, rfl, ?_⟩
    unfold execute at filled
    cases command : ctx.command with
    | addOrder placed =>
      rw [command] at filled named
      cases named
      revert filled
      refine addWithIdempotency_fills (P := fun fills => fills ≠ [] → _) order state ctx (fun some => absurd rfl some)
        placed fun some => ?_
      unfold executeAddOrder at some
      split at some
      · exact absurd rfl some
      next vivified => exact resolveLeafVivify_underlying vivified
    | replace amended =>
      rw [command] at filled named
      cases named
      simp only [executeReplace] at filled
      split at filled
      · exact absurd rfl filled
      next vivified => exact resolveLeafVivify_underlying vivified
    | _ => simp [command, commandSymbol] at named

end SequencedState

end Fauxchange.Exchange
