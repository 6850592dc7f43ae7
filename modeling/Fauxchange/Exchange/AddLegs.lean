import Fauxchange.Exchange.Conservation
import Fauxchange.Exchange.RegistryRuns

/-! The legs an add is reported with: in pairs for each trade of its match, under the identities of the incoming
order and of the maker's resting record, and adding up with what rests or stays unfilled to the order. -/

namespace Fauxchange.Exchange
open Lib

/-- The quantity of the taker legs. -/
def takenBy (fills : List Fill) : Nat :=
  ((fills.filter fun fill => fill.liquidity = .taker).map Fill.quantity).sum

/-- What an outcome reports as resting or as unfilled. -/
def VenueOutcome.left : VenueOutcome → Nat
  | .added _ resting _ => resting
  | .market _ unfilled _ => unfilled
  | .replace _ (.rested _ resting _) => resting
  | _ => 0

/-- An add as a command makes it: what is placed, its limit if it has one, the registry in which its makers are looked
up, and the leaf. -/
structure OrderAdd (U : Upstream) where
  placement : Placement
  limitPrice : Option Nat
  registry : OrderRegistry
  leaf : U.Leaf

section Adds
variable {U : Upstream}

namespace OrderAdd

/-- The match an add makes. -/
def made (add : OrderAdd U) (sequence : Nat) : Option MadeMatch :=
  match add.limitPrice with
  | none => marketMatch add.leaf sequence add.placement
  | some price => addMatch add.leaf (add.placement.limitOrder sequence price)

/-- Whether the book accepts a limit add. A self-trade prevention that cancels the taker does not. -/
def accepted (add : OrderAdd U) (sequence price : Nat) : Bool :=
  (U.addLimitOrder (U.armTradeCapture add.leaf) (add.placement.limitOrder sequence price)).1.isOk

/-- The fills an add is reported with, and what is reported as resting or as unfilled. -/
def report (visits : VisitOrder) (ctx : ExecutionContext) (add : OrderAdd U) : List Fill × Nat :=
  match add.limitPrice with
  | none =>
    let outcome := (executeMarket visits ctx add.registry add.leaf add.placement).1
    (outcomeFills outcome, outcome.left)
  | some price =>
    let result := (runAdd visits ctx add.registry add.leaf add.placement price).1
    (result.fills, result.restingQuantity)

end OrderAdd

namespace SequencedState
variable (state : SequencedState U)

/-- The add of a placement that passes its gates. -/
def placedAdd (placement : Placement) (orderType : OrderType) (limitPrice : Option Nat) : Option (OrderAdd U) :=
  match state.underlyingBook.resolveLeafVivify placement.symbol with
  | .error _ => none
  | .ok (address, book) =>
    if !state.instrumentStatus.isAcceptingOrders U placement.symbol then none
    else
      match orderType, limitPrice with
      | .market, _ => some ⟨placement, none, state.registry, book.leafAt address⟩
      | .limit, none => none
      | .limit, some price => some ⟨placement, some price, state.registry, book.leafAt address⟩

/-- The add leg of a replace. -/
def replacedAdd (amended : Replace) : Option (OrderAdd U) :=
  match state.underlyingBook.resolveLeafVivify amended.symbol with
  | .error _ => none
  | .ok (address, book) =>
    match state.registry.venueToEngine[amended.orderId]? with
    | none => none
    | some engineId =>
      if !state.registry.accountOwns engineId amended.account then none
      else
        let owner := (state.registry.resting[engineId]?.map (·.owner)).getD 0
        match U.cancelOrder (book.leafAt address) engineId with
        | (.ok true, leaf) => amended.limitPrice.map fun price =>
          ⟨amended.placement owner, some price, state.registry.removeResting engineId, leaf⟩
        | _ => none

/-- The add a command makes; a client order id that was used before makes none. -/
def addOf : VenueCommand → Option (OrderAdd U)
  | .addOrder placed =>
    if (placed.clientOrderId.bind fun id => state.idempotency[(placed.account, id)]?).isSome then none
    else state.placedAdd placed.placement placed.orderType placed.limitPrice
  | .replace amended => state.replacedAdd amended
  | _ => none

end SequencedState

theorem left_limitOutcome (add : AddResult) : (limitOutcome add).left = add.restingQuantity := by
  unfold limitOutcome
  split
  · rfl
  next still =>
    have none : add.restingQuantity = 0 := by
      by_contra some
      exact still (by simp [addHasMutation, Nat.pos_of_ne_zero some])
    exact none.symm

theorem left_classifyAddLeg (add : AddResult) :
    (VenueOutcome.replace true (classifyAddLeg add)).left = add.restingQuantity := by
  unfold classifyAddLeg
  split
  next still =>
    have none : add.restingQuantity = 0 := by
      by_contra some
      simp [addHasMutation, Nat.pos_of_ne_zero some] at still
    exact none.symm
  · split
    · rfl
    next nothing => exact (Nat.eq_zero_of_not_pos nothing).symm

namespace SequencedState
variable {state : SequencedState U} {ctx : ExecutionContext} {add : OrderAdd U}

/-- What the outcome of a command says of its add. -/
structure Reports (visits : VisitOrder) (state : SequencedState U) (ctx : ExecutionContext) (add : OrderAdd U) : Prop where
  made : state.matchOf ctx.sequence ctx.command = add.made ctx.sequence
  outcome : (outcomeFills (state.execute visits ctx).1, (state.execute visits ctx).1.left) = add.report visits ctx

theorem addWithIdempotency_fresh {placed : AddOrder} (visits : VisitOrder)
    (fresh : ¬ (placed.clientOrderId.bind fun id => state.idempotency[(placed.account, id)]?).isSome) :
    (state.addWithIdempotency visits ctx placed).1 =
      (state.executeAddOrder visits ctx placed.placement placed.orderType placed.limitPrice).1 := by
  unfold addWithIdempotency
  cases named : placed.clientOrderId with
  | none => rfl
  | some id =>
    rw [named, Option.bind_some] at fresh
    dsimp only
    rw [Option.not_isSome_iff_eq_none.1 fresh]

theorem placedAdd_reports {placement : Placement} {orderType : OrderType} {limitPrice : Option Nat}
    (visits : VisitOrder) (adds : state.placedAdd placement orderType limitPrice = some add) :
    state.addOrderMatch ctx.sequence placement orderType limitPrice = add.made ctx.sequence ∧
      (outcomeFills (state.executeAddOrder visits ctx placement orderType limitPrice).1,
        (state.executeAddOrder visits ctx placement orderType limitPrice).1.left) = add.report visits ctx := by
  unfold placedAdd at adds
  unfold addOrderMatch executeAddOrder
  cases vivified : state.underlyingBook.resolveLeafVivify placement.symbol with
  | error reason => simp [vivified] at adds
  | ok found =>
    simp only [vivified] at adds ⊢
    split at adds
    · cases adds
    next accepting =>
      rw [if_neg accepting, if_neg accepting]
      split at adds
      · cases adds
        exact ⟨rfl, rfl⟩
      · cases adds
      · cases adds
        refine ⟨rfl, ?_⟩
        dsimp only [OrderAdd.report]
        rw [outcomeFills_limitOutcome, left_limitOutcome]

theorem replacedAdd_reports {amended : Replace} (visits : VisitOrder) (adds : state.replacedAdd amended = some add) :
    state.replaceMatch ctx.sequence amended = add.made ctx.sequence ∧
      (outcomeFills (state.executeReplace visits ctx amended).1, (state.executeReplace visits ctx amended).1.left) =
        add.report visits ctx := by
  unfold replacedAdd at adds
  unfold replaceMatch executeReplace
  cases vivified : state.underlyingBook.resolveLeafVivify amended.symbol with
  | error reason => simp [vivified] at adds
  | ok found =>
    simp only [vivified] at adds ⊢
    cases named : state.registry.venueToEngine[amended.orderId]? with
    | none => simp [named] at adds
    | some engineId =>
      simp only [named] at adds ⊢
      split at adds
      · cases adds
      next owns =>
        rw [if_neg owns, if_neg owns]
        split at adds
        next leaf cancelled =>
          rw [cancelled]
          cases limit : amended.limitPrice with
          | none => simp [limit] at adds
          | some price =>
            rw [limit] at adds
            cases adds
            refine ⟨rfl, ?_⟩
            dsimp only [OrderAdd.report]
            rw [outcomeFills_classifyAddLeg, left_classifyAddLeg]
        · cases adds

/-- The makers of an add are looked up where its fills are attributed. -/
theorem addOf_registry {command : VenueCommand} (adds : state.addOf command = some add) :
    add.registry = attributing state command := by
  unfold addOf at adds
  split at adds
  next placed =>
    split at adds
    · cases adds
    · unfold placedAdd at adds
      split at adds
      · cases adds
      · split at adds
        · cases adds
        · split at adds
          all_goals cases adds
          all_goals rfl
  next amended =>
    unfold replacedAdd at adds
    split at adds
    · cases adds
    · split at adds
      · cases adds
      next engineId named =>
        rw [attributing_replace named]
        split at adds
        · cases adds
        · dsimp only at adds
          split at adds
          · obtain ⟨price, -, rfl⟩ := Option.map_eq_some_iff.1 adds
            rfl
          · cases adds
  next => cases adds

/-- The outcome of a command reports the add that it makes. -/
theorem addOf_reports (visits : VisitOrder) (adds : state.addOf ctx.command = some add) :
    Reports visits state ctx add := by
  unfold addOf at adds
  split at adds
  next placed command =>
    split at adds
    · cases adds
    next fresh =>
      obtain ⟨made, outcome⟩ := @placedAdd_reports U state ctx add _ _ _ visits adds
      refine ⟨?_, ?_⟩
      · rw [command]
        exact (if_neg fresh).trans made
      · have executed : (state.execute visits ctx).1 =
            (state.executeAddOrder visits ctx placed.placement placed.orderType placed.limitPrice).1 := by
          unfold execute
          rw [command]
          exact addWithIdempotency_fresh visits fresh
        rw [executed]
        exact outcome
  next amended command =>
    obtain ⟨made, outcome⟩ := @replacedAdd_reports U state ctx add _ visits adds
    refine ⟨?_, ?_⟩
    · rw [command]
      exact made
    · unfold execute
      rw [command]
      exact outcome
  next => cases adds

end SequencedState

/-- The two legs of a trade under the identities they are reported with: the taker's is the incoming order's, and the
maker's is that of its resting record. -/
structure LegsBy (registry : OrderRegistry) (taker : Placement) (ctx : ExecutionContext) (trade : Trade × Nat)
    (legs : Fill × Fill) : Prop where
  pair : LegsOf ctx trade legs
  taker : legs.2.orderId = taker.orderId ∧ legs.2.account = taker.account ∧ legs.2.owner = taker.owner
  maker : ∀ record, registry.resting[trade.1.makerOrderId]? = some record →
    legs.1.orderId = record.venueOrderId ∧ legs.1.account = record.account ∧ legs.1.owner = record.owner
  unknown : registry.resting[trade.1.makerOrderId]? = none → legs.1.account = "unknown"

section Built
variable {registry : OrderRegistry} {taker : Placement} {ctx : ExecutionContext} {schedule : Option FeeSchedule}

theorem tradeLegs_by {index : Nat} {trade : Trade} {legs : List Fill}
    (built : tradeLegs U ctx registry taker schedule index trade = .ok legs) :
    ∃ pair, legs = bothLegs pair ∧ LegsBy registry taker ctx (trade, index) pair := by
  obtain ⟨⟨maker, given⟩, rfl, legs⟩ := tradeLegs_pair built
  unfold tradeLegs at built
  dsimp only at built
  split at built
  · cases built
  · split at built
    · cases built
    · cases built
      refine ⟨_, rfl, legs, ⟨rfl, rfl, rfl⟩, ?_, ?_⟩
      · intro record present
        have named : makerIdentity U registry trade.makerOrderId = (record.venueOrderId, record.account, record.owner) := by
          simp only [makerIdentity, present]
        dsimp only
        rw [named]
        exact ⟨rfl, rfl, rfl⟩
      · intro absent
        simp only [makerIdentity, absent]

/-- The taker legs of pairs add up to their trades. -/
theorem takenBy_pairs {trades : List (Trade × Nat)} {pairs : List (Fill × Fill)}
    (legs : List.Forall₂ (LegsBy registry taker ctx) trades pairs) :
    takenBy (pairs.flatMap bothLegs) = (trades.map fun trade => trade.1.quantity).sum := by
  unfold takenBy
  induction legs with
  | nil => rfl
  | @cons trade pair trades pairs both rest ih =>
    have mine : (bothLegs pair).filter (fun fill => fill.liquidity = .taker) = [pair.2] := by
      simp [bothLegs, both.pair.maker, both.pair.taker]
    rw [List.flatMap_cons, List.filter_append, mine, List.map_append, List.sum_append, ih, List.map_singleton,
      List.sum_singleton, both.pair.quantity.2, List.map_cons, List.sum_cons]

variable (registry taker ctx)

/-- A capture holds the legs of a match that fits, and one that fails is of a match that does not. -/
def SettlesBy (made : Option MadeMatch) : Except MoneyError CapturedFills → Prop
  | .ok captured => (∀ one, made = some one → one.Fits U) ∧ captured.takerFilled = (heardTrades made).taken ∧
      ∃ pairs, List.Forall₂ (LegsBy registry taker ctx) (heardTrades made).trades.zipIdx pairs ∧
        captured.fills = pairs.flatMap bothLegs
  | .error _ => ∃ one, made = some one ∧ ¬ one.Fits U

theorem settlesBy_none : SettlesBy (U := U) registry taker ctx none (.ok .none) :=
  ⟨fun _ wrong => (by cases wrong), rfl, [], .nil, rfl⟩

theorem buildFills_settlesBy {made : MadeMatch} (recorded : made.recorded = true) :
    SettlesBy (U := U) registry taker ctx (some made) (buildFills U ctx registry made.matched taker made.schedule) := by
  cases built : buildFills U ctx registry made.matched taker made.schedule with
  | error error => exact ⟨made, rfl, buildFills_unfit ctx built⟩
  | ok captured =>
    have fits := buildFills_fits ctx recorded built
    refine ⟨?_, ?_, buildFills_pairs ctx (fun _ _ _ legs => tradeLegs_by legs) built⟩
    · intro one same
      exact Option.some.inj same ▸ fits
    · obtain ⟨again, done, holds⟩ := buildFills_holds ctx registry taker fits
      rw [built] at done
      cases done
      exact holds.taken

theorem slotFills_settlesBy (armed after : U.Leaf) :
    SettlesBy (U := U) registry taker ctx (heardMatch armed after)
      (slotFills ctx registry after (lastTradeSeq armed) taker (U.feeSchedule armed)) := by
  unfold heardMatch slotFills
  cases slotTradeAfter after (lastTradeSeq armed) with
  | none => exact settlesBy_none registry taker ctx
  | some trade => exact @buildFills_settlesBy U registry taker ctx ⟨trade.matchResult, U.feeSchedule armed, true⟩ rfl

theorem addCapture_settlesBy (leaf : U.Leaf) (price : Nat) :
    SettlesBy (U := U) registry taker ctx (addMatch leaf (taker.limitOrder ctx.sequence price))
      (addCapture ctx registry leaf taker price) := by
  unfold addCapture addMatch
  dsimp only
  cases called : (U.addLimitOrder (U.armTradeCapture leaf) (taker.limitOrder ctx.sequence price)).1 with
  | ok trade =>
    exact @buildFills_settlesBy U registry taker ctx
      ⟨trade.matchResult, U.feeSchedule (U.armTradeCapture leaf), true⟩ rfl
  | error error => exact slotFills_settlesBy registry taker ctx _ _

theorem marketCapture_settlesBy (wraps : ∀ matched trade, U.tradeResultNew matched = .ok trade → trade.matchResult = matched)
    (leaf : U.Leaf) :
    SettlesBy (U := U) registry taker ctx (submitMatch leaf (engineOrderId ctx.sequence) taker.quantity taker.side taker.owner)
      (marketCapture ctx registry leaf taker) := by
  unfold marketCapture submitMatch
  dsimp only
  generalize U.submitMarketOrder (U.armTradeCapture leaf) _ _ _ _ = call
  obtain ⟨result, after⟩ := call
  cases result with
  | ok matched =>
    cases wrapped : U.tradeResultNew matched with
    | error error =>
      have unfit : ¬ (MadeMatch.mk matched (U.feeSchedule (U.armTradeCapture leaf)) false).Fits U :=
        fun fits => Bool.noConfusion fits.recorded
      simp only [wrapped]
      exact ⟨_, rfl, unfit⟩
    | ok trade =>
      simp only [wrapped, wraps matched trade wrapped]
      exact @buildFills_settlesBy U registry taker ctx ⟨matched, U.feeSchedule (U.armTradeCapture leaf), true⟩ rfl
  | error error => exact slotFills_settlesBy registry taker ctx _ _

end Built

theorem capturedTrades_of_fits {made : Option MadeMatch} (fits : ∀ one, made = some one → one.Fits U) :
    capturedTrades U made = (heardTrades made).trades := by
  cases made with
  | none => rfl
  | some one => exact if_pos (fits one rfl)

theorem capturedTrades_of_unfit {made : Option MadeMatch} (unfit : ∃ one, made = some one ∧ ¬ one.Fits U) :
    capturedTrades U made = [] := by
  obtain ⟨one, rfl, misfit⟩ := unfit
  exact if_neg misfit

/-- A taker cannot take more than it submits. -/
structure FillLaws (U : Upstream) : Prop where
  added : ∀ (leaf : U.Leaf) order, (heardTrades (addMatch leaf order)).taken ≤ order.quantity
  submitted : ∀ (leaf : U.Leaf) id quantity side owner,
    (heardTrades (submitMatch leaf id quantity side owner)).taken ≤ quantity

/-- The legs and the quantities that an add is reported with. A match whose legs cannot be built is reported without
any, and an add that the book turns down is reported without a resting quantity. -/
structure AddLegs (ctx : ExecutionContext) (add : OrderAdd U) (fills : List Fill) (left : Nat) : Prop where
  legs : ∃ pairs, List.Forall₂ (LegsBy add.registry add.placement ctx)
    (capturedTrades U (add.made ctx.sequence)).zipIdx pairs ∧ fills = pairs.flatMap bothLegs
  opposed : ∀ trade ∈ capturedTrades U (add.made ctx.sequence), trade.makerSide ≠ trade.takerSide
  filled : takenBy fills = ((capturedTrades U (add.made ctx.sequence)).map Trade.quantity).sum
  resting : ∀ price, add.limitPrice = some price → tifRests add.placement.timeInForce = true →
    add.accepted ctx.sequence price = true → (∀ one, add.made ctx.sequence = some one → one.Fits U) →
      takenBy fills + left = add.placement.quantity
  unfilled : add.limitPrice = none → takenBy fills + left = add.placement.quantity

section Report
variable {ctx : ExecutionContext} {add : OrderAdd U}

theorem takenBy_legs {registry : OrderRegistry} {taker : Placement} {trades : List Trade} {pairs : List (Fill × Fill)}
    (legs : List.Forall₂ (LegsBy registry taker ctx) trades.zipIdx pairs) :
    takenBy (pairs.flatMap bothLegs) = (trades.map Trade.quantity).sum := by
  have indexed : (trades.zipIdx.map Prod.fst).map Trade.quantity = trades.map Trade.quantity := by
    rw [List.zipIdx_map_fst]
  rw [takenBy_pairs legs, ← indexed, List.map_map]
  rfl

/-- A limit add whose legs cannot be built. -/
theorem runAdd_of_error (visits : VisitOrder) {registry : OrderRegistry} {leaf : U.Leaf} {placement : Placement}
    {price : Nat} {error : MoneyError} (failed : addCapture ctx registry leaf placement price = .error error) :
    (runAdd visits ctx registry leaf placement price).1 = ⟨[], 0, [], redactedInternalMessage⟩ := by
  unfold addCapture Placement.limitOrder at failed
  unfold runAdd
  dsimp only at failed ⊢
  generalize U.addLimitOrder (U.armTradeCapture leaf) _ = call at *
  obtain ⟨result, after⟩ := call
  cases result with
  | ok trade =>
    dsimp only at failed ⊢
    rw [failed]
  | error refused =>
    dsimp only at failed ⊢
    rw [failed]

theorem runAdd_legs (laws : FillLaws U) (visits : VisitOrder) {price : Nat} (limited : add.limitPrice = some price)
    (opposed : ∀ trade ∈ capturedTrades U (add.made ctx.sequence), trade.makerSide ≠ trade.takerSide) :
    AddLegs ctx add (add.report visits ctx).1 (add.report visits ctx).2 := by
  have made : add.made ctx.sequence = addMatch add.leaf (add.placement.limitOrder ctx.sequence price) := by
    simp only [OrderAdd.made, limited]
  have report : add.report visits ctx =
      ((runAdd visits ctx add.registry add.leaf add.placement price).1.fills,
        (runAdd visits ctx add.registry add.leaf add.placement price).1.restingQuantity) := by
    simp only [OrderAdd.report, limited]
  have settles := addCapture_settlesBy add.registry add.placement ctx add.leaf price
  rw [← made] at settles
  cases capture : addCapture ctx add.registry add.leaf add.placement price with
  | error error =>
    rw [capture] at settles
    have failed := runAdd_of_error visits capture
    rw [report, failed]
    have nothing : capturedTrades U (add.made ctx.sequence) = [] := capturedTrades_of_unfit settles
    refine ⟨⟨[], ?_, rfl⟩, opposed, ?_, ?_, ?_⟩
    · rw [nothing]
      exact .nil
    · rw [nothing]
      rfl
    · intro other limit rests accepted fits
      obtain ⟨one, some, misfit⟩ := settles
      exact absurd (fits one some) misfit
    · intro market
      rw [limited] at market
      cases market
  | ok captured =>
    rw [capture] at settles
    obtain ⟨fits, taken, pairs, legs, fills⟩ := settles
    have trades := capturedTrades_of_fits fits
    obtain ⟨reported, -, resting, -, -⟩ := runAdd_of_capture visits add.registry capture
    have total : takenBy captured.fills = (heardTrades (add.made ctx.sequence)).taken := by
      rw [fills]
      exact takenBy_legs legs
    rw [report]
    dsimp only
    rw [reported, resting]
    refine ⟨⟨pairs, trades ▸ legs, fills⟩, opposed, ?_, ?_, ?_⟩
    · rw [total, trades]
      rfl
    · intro other limit rests accepted _
      obtain rfl := Option.some.inj (limited.symm.trans limit)
      have within := laws.added add.leaf (add.placement.limitOrder ctx.sequence price)
      rw [← made] at within
      rw [show (U.addLimitOrder (U.armTradeCapture add.leaf) (add.placement.limitOrder ctx.sequence price)).1.isOk = true
        from accepted, rests, total, taken]
      exact Nat.add_sub_of_le within
    · intro market
      rw [limited] at market
      cases market

theorem executeMarket_legs (wraps : ∀ matched trade, U.tradeResultNew matched = .ok trade → trade.matchResult = matched)
    (laws : FillLaws U) (visits : VisitOrder) (market : add.limitPrice = none)
    (opposed : ∀ trade ∈ capturedTrades U (add.made ctx.sequence), trade.makerSide ≠ trade.takerSide) :
    AddLegs ctx add (add.report visits ctx).1 (add.report visits ctx).2 := by
  have made : add.made ctx.sequence = marketMatch add.leaf ctx.sequence add.placement := by
    simp only [OrderAdd.made, market]
  have report : add.report visits ctx =
      (outcomeFills (executeMarket visits ctx add.registry add.leaf add.placement).1,
        (executeMarket visits ctx add.registry add.leaf add.placement).1.left) := by
    simp only [OrderAdd.report, market]
  have limitless : ∀ price, add.limitPrice = some price → False := by
    intro price limited
    rw [market] at limited
    cases limited
  -- nothing is taken, and the whole order is unfilled
  have untaken : capturedTrades U (add.made ctx.sequence) = [] →
      (executeMarket visits ctx add.registry add.leaf add.placement).1 = .market [] add.placement.quantity [] →
      AddLegs ctx add (add.report visits ctx).1 (add.report visits ctx).2 := by
    intro nothing outcome
    rw [report, outcome]
    refine ⟨⟨[], ?_, rfl⟩, opposed, ?_, fun price limited => (limitless price limited).elim, fun _ => Nat.zero_add _⟩
    · rw [nothing]
      exact .nil
    · rw [nothing]
      rfl
  by_cases depth : oppositeDepth (U.armTradeCapture add.leaf) add.placement.side = .ok 0
  · obtain ⟨unmatched, outcome⟩ := @executeMarket_of_empty U ctx add.registry visits add.leaf add.placement depth
    apply untaken
    · rw [made, unmatched]
      rfl
    · rw [outcome]
  have settles := marketCapture_settlesBy add.registry add.placement ctx wraps add.leaf
  have submitted := marketMatch_of_depth ctx depth
  rw [← submitted, ← made] at settles
  cases capture : marketCapture ctx add.registry add.leaf add.placement with
  | error error =>
    rw [capture] at settles
    apply untaken (capturedTrades_of_unfit settles)
    rw [executeMarket_of_depth ctx visits depth, capture]
  | ok captured =>
    rw [capture] at settles
    obtain ⟨fits, taken, pairs, legs, fills⟩ := settles
    have trades := capturedTrades_of_fits fits
    have outcome := executeMarket_of_capture visits add.registry depth capture
    have total : takenBy captured.fills = (heardTrades (add.made ctx.sequence)).taken := by
      rw [fills]
      exact takenBy_legs legs
    rw [report, outcome]
    refine ⟨⟨pairs, trades ▸ legs, fills⟩, opposed, ?_, fun price limited => (limitless price limited).elim, ?_⟩
    · dsimp only [outcomeFills]
      rw [total, trades]
      rfl
    · intro _
      have within := laws.submitted add.leaf (engineOrderId ctx.sequence) add.placement.quantity add.placement.side
        add.placement.owner
      rw [← submitted, ← made] at within
      dsimp only [outcomeFills, VenueOutcome.left]
      rw [total, taken]
      exact Nat.add_sub_of_le within

/-- The add of a command is reported with its legs. -/
theorem SequencedState.Reports.legs {visits : VisitOrder} {state : SequencedState U} (laws : MatchLaws U)
    (fillLaws : FillLaws U) (reports : SequencedState.Reports visits state ctx add) :
    AddLegs ctx add (outcomeFills (state.execute visits ctx).1) (state.execute visits ctx).1.left := by
  have opposed : ∀ trade ∈ capturedTrades U (add.made ctx.sequence), trade.makerSide ≠ trade.takerSide := by
    rw [← reports.made]
    exact laws.opposed state ctx.sequence ctx.command
  have fills : outcomeFills (state.execute visits ctx).1 = (add.report visits ctx).1 := congrArg Prod.fst reports.outcome
  have left : (state.execute visits ctx).1.left = (add.report visits ctx).2 := congrArg Prod.snd reports.outcome
  rw [fills, left]
  cases limit : add.limitPrice with
  | none => exact executeMarket_legs laws.wraps fillLaws visits limit opposed
  | some price => exact runAdd_legs fillLaws visits limit opposed

end Report

end Adds

section Runs
variable {U : Upstream} (lineage : LineageId)

/-- The contexts in which the commits of an underlying are executed. -/
def contextsOn (underlying : String) (commits : List Commit) : List ExecutionContext :=
  (commandsOn underlying commits).map fun command => command.context underlying lineage

theorem contextsOn_split (early late : List Commit) (commit : Commit) :
    contextsOn lineage commit.underlying (early ++ commit :: late) =
      contextsOn lineage commit.underlying early ++
        commit.command.context commit.underlying lineage :: contextsOn lineage commit.underlying late := by
  simp [contextsOn, commandsOn, List.filter_append]

theorem contextsOn_ascending {commits : List Commit} (ascending : Ascending commits) (underlying : String) :
    (contextsOn lineage underlying commits).Pairwise fun early late => early.sequence < late.sequence := by
  unfold contextsOn commandsOn
  rw [List.map_map, List.pairwise_map, List.pairwise_filter]
  apply ascending.imp
  intro early late above first second
  apply above
  rw [of_decide_eq_true first, of_decide_eq_true second]

namespace Executors
variable (executors : Executors U)

/-- The executor of an underlying after the commits of a venue. -/
theorem commitAll_run (commits : List Commit) (underlying : String) :
    (executors.commitAll lineage commits).2 underlying =
      (executors underlying).run (contextsOn lineage underlying commits) := by
  induction commits generalizing executors with
  | nil => rfl
  | cons first rest ih =>
    have later := ih (executors.commit lineage first).2
    by_cases same : first.underlying = underlying
    · subst same
      rw [commit_here] at later
      have split := contextsOn_split lineage [] rest first
      rw [List.nil_append] at split
      rw [split]
      exact later
    · rw [executors.commit_of_ne lineage (Ne.symm same)] at later
      have skipped : contextsOn lineage underlying (first :: rest) = contextsOn lineage underlying rest := by
        simp [contextsOn, commandsOn, same]
      rw [skipped]
      exact later

/-- The state in which a commit finds its executor after others. -/
def before (early : List Commit) (commit : Commit) : SequencedState U :=
  (executors.commitAll lineage early).2.stateFor commit

/-- The event of a commit after others. -/
def eventOf (early : List Commit) (commit : Commit) : VenueEvent :=
  ((executors.commitAll lineage early).2.commit lineage commit).1

/-- Every add of a run is reported with its legs, each maker has a resting record as long as every match could be
captured, and no two trades share an execution id. -/
structure AddsPaired (commits : List Commit) : Prop where
  each : ∀ early commit late, commits = early ++ commit :: late → ∀ add,
    (executors.before lineage early commit).addOf commit.command.command = some add →
      AddLegs (commit.command.context commit.underlying lineage) add
        (outcomeFills (executors.eventOf lineage early commit).outcome) (executors.eventOf lineage early commit).outcome.left
  registered : ∀ early commit late, commits = early ++ commit :: late → ∀ name config,
    (executors commit.underlying).state = .fromBook ⟨name, config, ∅⟩ →
      ((contextsOn lineage commit.underlying commits).filterMap fun ctx => ctx.command.placedId).Nodup →
        (executors commit.underlying).MatchesFit (contextsOn lineage commit.underlying commits) → ∀ add,
          (executors.before lineage early commit).addOf commit.command.command = some add →
            ∀ made, add.made commit.command.sequence = some made → ∀ trade ∈ made.matched.trades,
              ∃ record, add.registry.resting[trade.makerOrderId]? = some record
  distinct : ((executors.tradesOf lineage commits).map Prod.fst).Nodup

variable {executors}

theorem commitAll_addsPaired (laws : MatchLaws U) (fillLaws : FillLaws U) (leafLaws : LeafLaws U) {commits : List Commit}
    (ascending : Ascending commits) : AddsPaired lineage executors commits := by
  refine ⟨?_, ?_, tradesOf_nodup lineage executors ascending⟩
  · intro early commit late _ add adds
    have reports : SequencedState.Reports ((executors.commitAll lineage early).2 commit.underlying).hashOrder
        (executors.before lineage early commit) (commit.command.context commit.underlying lineage) add :=
      SequencedState.addOf_reports _ adds
    exact reports.legs laws fillLaws
  · intro early commit late split name config fresh distinct fits add adds made matched trade traded
    have follows : Follows leafLaws (executors commit.underlying) (contextsOn lineage commit.underlying commits) :=
      follows_run fresh (contextsOn_ascending lineage ascending _) distinct fits
    have state : executors.before lineage early commit =
        ((executors commit.underlying).run (contextsOn lineage commit.underlying early)).state :=
      congrArg MatchingExecutor.state (commitAll_run lineage executors early commit.underlying)
    have contexts : contextsOn lineage commit.underlying commits = _ := split ▸ contextsOn_split lineage early late commit
    have reports : SequencedState.Reports (fun _ _ => Equiv.refl _) (executors.before lineage early commit)
        (commit.command.context commit.underlying lineage) add := SequencedState.addOf_reports _ adds
    rw [SequencedState.addOf_registry adds]
    rw [state] at reports ⊢
    exact follows.attributed _ _ _ contexts made (reports.made.trans matched) trade traded

end Executors

end Runs

namespace ReferenceBook

theorem taken_addMatch_le (leaf : Leaf) (order : LimitOrder) :
    (heardTrades (@addMatch referenceUpstream leaf order)).taken ≤ order.quantity := by
  by_cases active : leaf.status = .active
  · cases within : withinSpecs leaf.settings.specs order.price order.quantity with
    | false =>
      rw [heardTrades_refused "order violates the specs" (by simp [addLimitOrder, active, within])]
      exact Nat.zero_le _
    | true =>
      rw [heardTrades_addMatch active within, taken_matchResult]
      unfold takenByLimit
      dsimp only
      split
      · exact Nat.zero_le _
      · exact filledQuantity_walk_le _ _
  · rw [heardTrades_refused "instrument is not active" (by simp [addLimitOrder, active])]
    exact Nat.zero_le _

theorem fillLaws_reference : FillLaws referenceUpstream where
  added := taken_addMatch_le
  submitted := by
    intro leaf id quantity side owner
    have taken := taken_matchResult (walk quantity (makers side none (Leaf.orders leaf)))
    exact taken.le.trans (filledQuantity_walk_le _ _)

end ReferenceBook

open ReferenceBook in
theorem crossing_addsPaired : feeExecutors.AddsPaired "run-1" crossingCommits :=
  Executors.commitAll_addsPaired "run-1" matchLaws_reference fillLaws_reference referenceLeafLaws
    (by simp [Ascending, crossingCommits])

/-- What is filled and what rests make up every order that may rest on a book without self-trade prevention. -/
def RestsWhole {U : Upstream} (visits : VisitOrder) (state : SequencedState U) (ctx : ExecutionContext) : Prop :=
  ∀ add price, state.addOf ctx.command = some add → add.limitPrice = some price →
    tifRests add.placement.timeInForce = true → stpActive add.leaf = false →
      takenBy (outcomeFills (state.execute visits ctx).1) + (state.execute visits ctx).1.left = add.placement.quantity

/-- A price off the tick: the book turns the order down, and nothing of it is filled or rests. -/
def offTick : ExecutionContext :=
  ⟨"BTC", "run-1", 1, 10, .addOrder ⟨"BTC-20351231-50000-C", "a", "acct-1", 7, none, .sell, .limit, some 102, 3, .gtc,
    .none⟩⟩

def tickedBook : SequencedState referenceUpstream := .fromBook ⟨"BTC", ⟨none, .none, some ⟨5, 1, 1, 100⟩⟩, ∅⟩

theorem offTick_unrested : ¬ RestsWhole (fun _ _ => Equiv.refl _) tickedBook offTick := by
  intro whole
  have sum := whole _ 102 rfl rfl rfl rfl
  revert sum
  decide

end Fauxchange.Exchange
