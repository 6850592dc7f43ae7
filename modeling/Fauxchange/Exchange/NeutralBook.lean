import Fauxchange.Exchange.BookLaws

/-! A book without fees and self-trade prevention: what a placement comes to depends only on the orders its leaf
shows. -/

namespace Fauxchange.Exchange
open Lib

/-- Settings under which a placement is matched and charged as on a bare book. -/
structure Neutral (settings : BookConfig) : Prop where
  stpMode : settings.stpMode = .none
  fees : settings.feeSchedule = none ∨ settings.feeSchedule = some ⟨0, 0⟩

theorem neutral_bare : Neutral .bare := ⟨rfl, Or.inl rfl⟩

/-- A leaf as vivification creates it, with whatever orders have come since. -/
structure Plain {U : Upstream} (laws : BookLaws U) (settings : BookConfig) (leaf : U.Leaf) : Prop where
  settings : (laws.view leaf).settings = settings
  active : (laws.view leaf).status = .active

section Fees
variable {U : Upstream} (laws : BookLaws U) (ctx : ExecutionContext) (registry : OrderRegistry) (taker : Placement)

include laws in
/-- A neutral schedule charges nothing on what 64 bits can hold. -/
theorem perLegFee_free {schedule : Option FeeSchedule} (free : schedule = none ∨ schedule = some ⟨0, 0⟩)
    {price quantity : Nat} (priced : price < 2 ^ 64) (sized : quantity < 2 ^ 64) (isMaker : Bool) :
    perLegFee U schedule price quantity isMaker = .ok 0 := by
  rcases free with rfl | rfl
  · rfl
  · have small : price * quantity < 2 ^ 128 := by
      calc price * quantity ≤ (2 ^ 64 - 1) * (2 ^ 64 - 1) := Nat.mul_le_mul (by omega) (by omega)
        _ < 2 ^ 128 := by decide
    simp only [perLegFee, laws.free_fee, if_neg (Nat.not_le_of_lt small)]
    rfl

include laws in
theorem tradesLegs_free {schedule : Option FeeSchedule} (free : schedule = none ∨ schedule = some ⟨0, 0⟩)
    (index takerFilled : Nat) (trades : List Trade) :
    tradesLegs U ctx registry taker schedule index takerFilled trades =
      tradesLegs U ctx registry taker none index takerFilled trades := by
  induction trades generalizing index takerFilled with
  | nil => rfl
  | cons trade rest ih =>
    unfold tradesLegs
    split
    · rfl
    next fits =>
      have fits' : trade.price < 2 ^ 64 ∧ trade.quantity < 2 ^ 64 := by
        unfold u64Max at fits
        omega
      have legs : tradeLegs U ctx registry taker schedule index trade =
          tradeLegs U ctx registry taker none index trade := by
        unfold tradeLegs
        rw [perLegFee_free laws free fits'.1 fits'.2, perLegFee_free laws free fits'.1 fits'.2]
        rfl
      rw [legs, ih]

include laws in
theorem buildFills_free {schedule : Option FeeSchedule} (free : schedule = none ∨ schedule = some ⟨0, 0⟩)
    (matched : MatchResult) :
    buildFills U ctx registry matched taker schedule = buildFills U ctx registry matched taker none := by
  unfold buildFills
  rw [tradesLegs_free laws ctx registry taker free]

/-- A match within its widths, every leg of which can be charged, is captured whole. -/
theorem tradesLegs_ok {schedule : Option FeeSchedule} {index takerFilled : Nat} {trades : List Trade}
    (few : index + trades.length ≤ 2 ^ 32) (priced : ∀ trade ∈ trades, trade.price < 2 ^ 64)
    (total : takerFilled + (trades.map Trade.quantity).sum ≤ u64Max)
    (charged : ∀ trade ∈ trades, ∀ isMaker, (perLegFee U schedule trade.price trade.quantity isMaker).isOk = true) :
    ∃ fills, tradesLegs U ctx registry taker schedule index takerFilled trades =
      .ok (fills, takerFilled + (trades.map Trade.quantity).sum) := by
  induction trades generalizing index takerFilled with
  | nil => exact ⟨[], rfl⟩
  | cons trade rest ih =>
    simp only [List.length_cons, List.map_cons, List.sum_cons] at few total
    have price := priced trade (by simp)
    obtain ⟨fills, later⟩ := @ih (index + 1) (takerFilled + trade.quantity) (by omega)
      (fun other member => priced other (List.mem_cons_of_mem _ member)) (by omega)
      (fun other member => charged other (List.mem_cons_of_mem _ member))
    have fits : ¬ (2 ^ 32 ≤ index ∨ 2 ^ 64 ≤ trade.price ∨ u64Max < takerFilled + trade.quantity) := by
      omega
    obtain ⟨legs, leg⟩ : ∃ legs, tradeLegs U ctx registry taker schedule index trade = .ok legs := by
      unfold tradeLegs
      have maker := charged trade (by simp) true
      have other := charged trade (by simp) false
      cases first : perLegFee U schedule trade.price trade.quantity true with
      | error => simp [first, Except.isOk, Except.toBool] at maker
      | ok makerFee =>
        cases second : perLegFee U schedule trade.price trade.quantity false with
        | error => simp [second, Except.isOk, Except.toBool] at other
        | ok takerFee => exact ⟨_, rfl⟩
    refine ⟨legs ++ fills, ?_⟩
    simp only [tradesLegs, if_neg fits, leg, later, List.map_cons, List.sum_cons, Nat.add_assoc]

theorem buildFills_ok {schedule : Option FeeSchedule} {matched : MatchResult} (few : matched.trades.length ≤ 2 ^ 32)
    (priced : ∀ trade ∈ matched.trades, trade.price < 2 ^ 64)
    (total : (matched.trades.map Trade.quantity).sum ≤ u64Max)
    (charged : ∀ trade ∈ matched.trades, ∀ isMaker,
      (perLegFee U schedule trade.price trade.quantity isMaker).isOk = true) :
    ∃ fills, buildFills U ctx registry matched taker schedule =
      .ok ⟨fills, (matched.trades.map Trade.quantity).sum, matched.filledOrderIds⟩ := by
  obtain ⟨fills, done⟩ := @tradesLegs_ok U ctx registry taker schedule 0 0 matched.trades (by omega) priced (by omega)
    charged
  refine ⟨fills, ?_⟩
  simp only [buildFills, done, Nat.zero_add]

end Fees

section Settle
variable (U : Upstream) (ctx : ExecutionContext) (registry : OrderRegistry) (placement : Placement)

/-- What a limit add comes to on a neutral book, given its effect: the answer and the registry. -/
def settleLimit (effect : Effect) : AddResult × OrderRegistry :=
  match buildFills U ctx registry effect.matched placement none with
  | .error _ => (⟨[], 0, [], redactedInternalMessage⟩, registry)
  | .ok captured =>
    let rests := effect.result.isOk && tifRests placement.timeInForce
    let restingQuantity := if rests then placement.quantity - captured.takerFilled else 0
    let reason := match effect.result with
      | .ok _ => ""
      | .error error => error
    let registry := registry.removeAll captured.filledMakerIds
    (⟨captured.fills, restingQuantity, [], reason⟩,
      if 0 < restingQuantity then registry.registerResting (engineOrderId ctx.sequence) placement.record else registry)

def settleMarket (effect : Effect) : VenueOutcome × OrderRegistry :=
  match buildFills U ctx registry effect.matched placement none with
  | .error _ => (.market [] placement.quantity [], registry)
  | .ok captured =>
    (.market captured.fills (placement.quantity - captured.takerFilled) [],
      registry.removeAll captured.filledMakerIds)

/-- The limit order a placement is submitted as. -/
def Placement.limitOrder (placement : Placement) (sequence price : Nat) : LimitOrder :=
  ⟨engineOrderId sequence, placement.side, price, placement.quantity, placement.timeInForce, placement.owner⟩

variable {U} {laws : BookLaws U} {settings : BookConfig} {leaf : U.Leaf} {effect : Effect}

theorem Plain.stpActive_arm (plain : Plain laws settings leaf) (neutral : Neutral settings) :
    stpActive (U.armTradeCapture leaf) = false := by
  have mode : U.stpMode (U.armTradeCapture leaf) = .none := by
    rw [laws.stpMode_eq, laws.view_arm, plain.settings, neutral.stpMode]
  simp [stpActive, mode]

theorem Plain.feeSchedule_arm (plain : Plain laws settings leaf) :
    U.feeSchedule (U.armTradeCapture leaf) = settings.feeSchedule := by
  rw [laws.feeSchedule_eq, laws.view_arm, plain.settings]

/-- The fills of a failed call are those the listener heard. -/
theorem slotFills_eq {call : Except String MatchResult × U.Leaf} {error : String}
    (shows : ArmedShows laws.view leaf call effect) (failed : call.1 = .error error) (schedule : Option FeeSchedule) :
    slotFills ctx registry call.2 (lastTradeSeq (U.armTradeCapture leaf)) placement schedule =
      buildFills U ctx registry effect.matched placement schedule := by
  have heard := shows.heard
  have matched : effect.matched = effect.traded.getD ⟨[], []⟩ := by
    unfold Effect.matched
    rw [← shows.result, failed]
  unfold slotFills
  cases slot : slotTradeAfter call.2 (lastTradeSeq (U.armTradeCapture leaf)) with
  | none =>
    rw [slot] at heard
    rw [matched, ← heard]
    rfl
  | some trade =>
    rw [slot] at heard
    rw [matched, ← heard]
    rfl

/-- On a plain leaf with neutral settings a limit add depends on its effect only. -/
theorem runAdd_eq (order : VisitOrder) (plain : Plain laws settings leaf) (neutral : Neutral settings) (price : Nat)
    (shows : ArmedShows laws.view leaf
      (addCall U (U.armTradeCapture leaf) (placement.limitOrder ctx.sequence price)) effect) :
    runAdd order ctx registry leaf placement price =
      ((settleLimit U ctx registry placement effect).1, (settleLimit U ctx registry placement effect).2,
        (addCall U (U.armTradeCapture leaf) (placement.limitOrder ctx.sequence price)).2) := by
  have unprevented := plain.stpActive_arm neutral
  have result := shows.result
  unfold runAdd settleLimit
  simp only [addCall, Placement.limitOrder] at result ⊢
  cases added : (U.addLimitOrder (U.armTradeCapture leaf) ⟨engineOrderId ctx.sequence, placement.side, price,
      placement.quantity, placement.timeInForce, placement.owner⟩).1 with
  | ok trade =>
    rw [added] at result
    have matched : effect.matched = trade.matchResult := by
      unfold Effect.matched
      rw [← result]
      rfl
    dsimp only
    rw [plain.feeSchedule_arm, buildFills_free laws ctx registry placement neutral.fees, matched]
    cases buildFills U ctx registry trade.matchResult placement none with
    | error => rfl
    | ok captured =>
      simp only [settleMatch, unprevented, ← result]
      rfl
  | error error =>
    rw [added] at result
    have failed : (addCall U (U.armTradeCapture leaf) (placement.limitOrder ctx.sequence price)).1 = .error error := by
      simp only [addCall, Placement.limitOrder, added]
      rfl
    have heard := slotFills_eq ctx registry placement shows failed (U.feeSchedule (U.armTradeCapture leaf))
    simp only [addCall, Placement.limitOrder] at heard
    dsimp only
    rw [heard, plain.feeSchedule_arm, buildFills_free laws ctx registry placement neutral.fees]
    cases buildFills U ctx registry effect.matched placement none with
    | error => rfl
    | ok captured =>
      simp only [settleMatch, unprevented, ← result]
      rfl

def depthAgainst (laws : BookLaws U) (orders : List BookOrder) : Side → Except String Nat
  | .buy => laws.depth .sell orders
  | .sell => laws.depth .buy orders

theorem oppositeDepth_arm (laws : BookLaws U) (leaf : U.Leaf) (side : Side) :
    oppositeDepth (U.armTradeCapture leaf) side = depthAgainst laws (laws.view leaf).orders side := by
  unfold oppositeDepth depthAgainst
  cases side
  · rw [laws.askDepth_eq, laws.view_arm]
  · rw [laws.bidDepth_eq, laws.view_arm]

theorem executeMarket_eq (order : VisitOrder) (plain : Plain laws settings leaf) (neutral : Neutral settings)
    (shows : ArmedShows laws.view leaf (U.submitMarketOrder (U.armTradeCapture leaf) (engineOrderId ctx.sequence)
      placement.quantity placement.side placement.owner) effect) :
    executeMarket order ctx registry leaf placement =
      if depthAgainst laws (laws.view leaf).orders placement.side = .ok 0 then
        (.market [] placement.quantity [], registry, U.armTradeCapture leaf)
      else
        ((settleMarket U ctx registry placement effect).1, (settleMarket U ctx registry placement effect).2,
          (U.submitMarketOrder (U.armTradeCapture leaf) (engineOrderId ctx.sequence) placement.quantity
            placement.side placement.owner).2) := by
  have unprevented := plain.stpActive_arm neutral
  have result := shows.result
  unfold executeMarket
  dsimp only
  rw [oppositeDepth_arm laws]
  split
  next empty => rw [if_pos empty]
  next filled =>
    rw [if_neg filled]
    unfold settleMarket
    cases called : (U.submitMarketOrder (U.armTradeCapture leaf) (engineOrderId ctx.sequence) placement.quantity
        placement.side placement.owner).1 with
    | ok matched =>
      rw [called] at result
      have same : effect.matched = matched := by
        unfold Effect.matched
        rw [← result]
      obtain ⟨trade, made, whole⟩ := laws.tradeResultNew_eq matched
      dsimp only
      rw [made]
      dsimp only
      rw [whole, plain.feeSchedule_arm, buildFills_free laws ctx registry placement neutral.fees, same]
      cases buildFills U ctx registry matched placement none with
      | error => rfl
      | ok captured =>
        simp only [settleMatch, unprevented]
        rfl
    | error error =>
      have heard := slotFills_eq ctx registry placement shows called (U.feeSchedule (U.armTradeCapture leaf))
      dsimp only
      rw [heard, plain.feeSchedule_arm, buildFills_free laws ctx registry placement neutral.fees]
      cases buildFills U ctx registry effect.matched placement none with
      | error => rfl
      | ok captured =>
        simp only [settleMatch, unprevented]
        rfl

end Settle

end Fauxchange.Exchange
