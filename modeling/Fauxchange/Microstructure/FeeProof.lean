import Fauxchange.Exchange.ReferenceBook
import Fauxchange.Exchange.TradeLegs
import Fauxchange.Microstructure.Resolve

/-! The fees of fills within the specs of an accepted microstructure: each is exact and fits the type that stores
it, so a match is captured unless it has too many trades for the index or too much quantity for the total. -/

namespace Fauxchange.Microstructure
open Lib Exchange

/-- The rate of a leg. -/
def legRate (schedule : FeeSchedule) (isMaker : Bool) : Int :=
  if isMaker then schedule.makerFeeBps else schedule.takerFeeBps

/-- The sign of the rate, and the magnitude of the fee rounded down. -/
def exactFee (schedule : FeeSchedule) (isMaker : Bool) (notional : Nat) : Int :=
  (legRate schedule isMaker).sign * (notional * (legRate schedule isMaker).natAbs / 10000 : Nat)

/-- What the upstream schedule promises: its fees are exact up to the notional it guarantees. -/
structure FeeLaws (U : Upstream) (maxGuaranteedExactNotional : FeeSchedule → Nat) : Prop where
  exact : ∀ schedule isMaker notional, notional ≤ maxGuaranteedExactNotional schedule →
    U.calculateFee schedule notional isMaker = .ok (exactFee schedule isMaker notional)

/-- What the checks establish of the widest fill. -/
structure Proved (maxGuaranteedExactNotional : FeeSchedule → Nat) (fees : FeeConfig) (specs : ResolvedContractSpecs) :
    Prop where
  priced : specs.maxPriceCents ≤ i64Ceiling
  sized : specs.maxOrderQty ≤ i64Ceiling
  guaranteed : specs.maxPriceCents * specs.maxOrderQty ≤ maxGuaranteedExactNotional fees.toFeeSchedule
  persisted : specs.maxPriceCents * specs.maxOrderQty * fees.maxAbsBps / 10000 ≤ i64Ceiling

section Checks
variable {maxGuaranteedExactNotional : FeeSchedule → Nat} {fees : FeeConfig} {specs : ResolvedContractSpecs}

theorem validateNotionalBound_ok {maxNotional : Nat}
    (proved : fees.validateNotionalBound maxGuaranteedExactNotional maxNotional = .ok ()) :
    maxNotional ≤ maxGuaranteedExactNotional fees.toFeeSchedule ∧ maxNotional * fees.maxAbsBps / 10000 ≤ i64Ceiling := by
  unfold FeeConfig.validateNotionalBound at proved
  dsimp only at proved
  split_ifs at proved with reaches wide large
  exact ⟨Nat.le_of_not_lt reaches, Nat.le_of_not_lt large⟩

theorem checkKnobInDbDomain_ok {knob : String × Nat}
    (checked : ResolvedContractSpecs.checkKnobInDbDomain knob = .ok ()) : knob.2 ≤ i64Ceiling := by
  unfold ResolvedContractSpecs.checkKnobInDbDomain at checked
  split_ifs at checked with above
  exact Nat.le_of_not_lt above

theorem validate_domain (validated : specs.validate = .ok ()) :
    specs.maxPriceCents ≤ i64Ceiling ∧ specs.maxOrderQty ≤ i64Ceiling := by
  obtain ⟨⟨⟩, -, rest⟩ := except_bind_ok validated
  obtain ⟨⟨⟩, domain, -⟩ := except_bind_ok rest
  rw [forM_ok_iff] at domain
  exact ⟨checkKnobInDbDomain_ok (domain ("max_price_cents", specs.maxPriceCents) (by simp)),
    checkKnobInDbDomain_ok (domain ("max_order_qty", specs.maxOrderQty) (by simp))⟩

theorem checkSpecs_proved (checked : checkSpecs maxGuaranteedExactNotional fees specs = .ok ()) :
    Proved maxGuaranteedExactNotional fees specs := by
  obtain ⟨⟨⟩, validated, bounded⟩ := except_bind_ok checked
  obtain ⟨maxNotional, widest, proved⟩ := except_bind_ok bounded
  unfold ResolvedContractSpecs.maxNotional at widest
  split_ifs at widest
  cases widest
  have domain := validate_domain validated
  have bound := validateNotionalBound_ok proved
  exact ⟨domain.1, domain.2, bound.1, bound.2⟩

theorem specsForSymbol_proved {U : Upstream} {resolved : ResolvedMicrostructure}
    (accepted : resolved.validate maxGuaranteedExactNotional = .ok ()) (symbol : Symbol) :
    Proved maxGuaranteedExactNotional resolved.config.fees (resolved.config.specsForSymbol U symbol) :=
  checkSpecs_proved (specsForSymbol_checked accepted symbol)

end Checks

section Legs
variable {U : Upstream} {maxGuaranteedExactNotional : FeeSchedule → Nat} {fees : FeeConfig}
  {specs : ResolvedContractSpecs}

theorem legRate_le_maxAbsBps (fees : FeeConfig) (isMaker : Bool) :
    (legRate fees.toFeeSchedule isMaker).natAbs ≤ fees.maxAbsBps := by
  unfold legRate FeeConfig.maxAbsBps
  cases isMaker with
  | true => exact Nat.le_max_left _ _
  | false => exact Nat.le_max_right _ _

theorem natAbs_exactFee_le (schedule : FeeSchedule) (isMaker : Bool) (notional : Nat) :
    (exactFee schedule isMaker notional).natAbs ≤ notional * (legRate schedule isMaker).natAbs / 10000 := by
  unfold exactFee
  rw [Int.natAbs_mul, Int.natAbs_natCast]
  calc (legRate schedule isMaker).sign.natAbs * _
      ≤ 1 * _ := Nat.mul_le_mul_right _ (by
        rw [Int.natAbs_sign]
        split <;> omega)
    _ = _ := Nat.one_mul _

/-- The fee on a fill within proved specs fits the type that stores it. -/
theorem Proved.fits (proved : Proved maxGuaranteedExactNotional fees specs) (isMaker : Bool) {price quantity : Nat}
    (cheap : price ≤ specs.maxPriceCents) (small : quantity ≤ specs.maxOrderQty) :
    (exactFee fees.toFeeSchedule isMaker (price * quantity)).natAbs ≤ i64Ceiling :=
  calc (exactFee fees.toFeeSchedule isMaker (price * quantity)).natAbs
      ≤ price * quantity * (legRate fees.toFeeSchedule isMaker).natAbs / 10000 := natAbs_exactFee_le _ _ _
    _ ≤ specs.maxPriceCents * specs.maxOrderQty * fees.maxAbsBps / 10000 :=
        Nat.div_le_div_right (Nat.mul_le_mul (Nat.mul_le_mul cheap small) (legRate_le_maxAbsBps fees isMaker))
    _ ≤ i64Ceiling := proved.persisted

/-- A leg of a fill within proved specs is charged exactly. -/
theorem Proved.charges (laws : FeeLaws U maxGuaranteedExactNotional)
    (proved : Proved maxGuaranteedExactNotional fees specs) (isMaker : Bool) {price quantity : Nat}
    (cheap : price ≤ specs.maxPriceCents) (small : quantity ≤ specs.maxOrderQty) :
    perLegFee U (some fees.toFeeSchedule) price quantity isMaker =
      .ok (exactFee fees.toFeeSchedule isMaker (price * quantity)) := by
  have within : price * quantity ≤ specs.maxPriceCents * specs.maxOrderQty := Nat.mul_le_mul cheap small
  have narrow : price * quantity ≤ i64Ceiling * i64Ceiling :=
    within.trans (Nat.mul_le_mul proved.priced proved.sized)
  have fits := proved.fits isMaker cheap small
  unfold i64Ceiling at narrow fits
  unfold perLegFee
  dsimp only
  rw [if_neg (by omega), laws.exact _ _ _ (within.trans proved.guaranteed)]
  dsimp only
  rw [if_pos (by omega)]

end Legs

section Match
variable {U : Upstream} {ctx : ExecutionContext} {registry : OrderRegistry} {taker : Placement}
  {schedule : Option FeeSchedule} {charge : Trade → Bool → Int}

theorem perLegFee_error {price quantity : Nat} {isMaker : Bool} {error : MoneyError}
    (failed : perLegFee U schedule price quantity isMaker = .error error) : error = .overflow := by
  unfold perLegFee at failed
  split at failed
  · cases failed
  · split_ifs at failed
    · cases failed
      rfl
    · split at failed
      · cases failed
        rfl
      · split_ifs at failed
        cases failed
        rfl

theorem tradesLegs_error {index takerFilled : Nat} {trades : List Trade} {error : MoneyError}
    (failed : tradesLegs U ctx registry taker schedule index takerFilled trades = .error error) : error = .overflow := by
  induction trades generalizing index takerFilled with
  | nil => cases failed
  | cons trade rest ih =>
    unfold tradesLegs at failed
    split_ifs at failed
    · cases failed
      rfl
    · split at failed
      next leg =>
        cases failed
        unfold tradeLegs at leg
        dsimp only at leg
        split at leg
        next maker =>
          cases leg
          exact perLegFee_error maker
        · split at leg
          next paid =>
            cases leg
            exact perLegFee_error paid
          · cases leg
      · split at failed
        next later =>
          cases failed
          exact ih later
        · cases failed

/-- A capture fails in one way. -/
theorem buildFills_error {matched : MatchResult} {error : MoneyError}
    (failed : buildFills U ctx registry matched taker schedule = .error error) : error = .overflow := by
  unfold buildFills at failed
  split at failed
  next done =>
    cases failed
    exact tradesLegs_error done
  · cases failed

theorem tradeLegs_fees {index : Nat} {trade : Trade} {legs : List Fill}
    (charged : ∀ isMaker, perLegFee U schedule trade.price trade.quantity isMaker = .ok (charge trade isMaker))
    (built : tradeLegs U ctx registry taker schedule index trade = .ok legs) :
    legs.map Fill.fee = [charge trade true, charge trade false] := by
  unfold tradeLegs at built
  simp only [charged] at built
  cases built
  rfl

/-- The fees of a capture are those of its legs, the maker's before the taker's. -/
theorem tradesLegs_fees {index takerFilled total : Nat} {trades : List Trade} {fills : List Fill}
    (charged : ∀ trade ∈ trades, ∀ isMaker,
      perLegFee U schedule trade.price trade.quantity isMaker = .ok (charge trade isMaker))
    (built : tradesLegs U ctx registry taker schedule index takerFilled trades = .ok (fills, total)) :
    fills.map Fill.fee = trades.flatMap fun trade => [charge trade true, charge trade false] := by
  induction trades generalizing index takerFilled fills with
  | nil =>
    cases built
    rfl
  | cons trade rest ih =>
    rw [List.forall_mem_cons] at charged
    unfold tradesLegs at built
    split_ifs at built
    split at built
    · cases built
    next legs first =>
      split at built
      · cases built
      next others later =>
        cases built
        rw [List.map_append, tradeLegs_fees charged.1 first, ih charged.2 later, List.flatMap_cons]

/-- Too many trades for the index, or too much quantity for the total. -/
theorem buildFills_long {matched : MatchResult}
    (long : 2 ^ 32 < matched.trades.length ∨ u64Max < (matched.trades.map Trade.quantity).sum) :
    buildFills U ctx registry matched taker schedule = .error .overflow := by
  cases built : buildFills U ctx registry matched taker schedule with
  | error error => rw [buildFills_error built]
  | ok captured =>
    have fits := @buildFills_fits U ctx registry taker ⟨matched, schedule, true⟩ rfl captured built
    have few := fits.few
    have total := fits.total
    dsimp only at few total
    omega

/-- A match that is charged leg by leg is captured, up to the index and the total. -/
theorem buildFills_overflow_iff {matched : MatchResult} (priced : ∀ trade ∈ matched.trades, trade.price < 2 ^ 64)
    (charged : ∀ trade ∈ matched.trades, ∀ isMaker,
      (perLegFee U schedule trade.price trade.quantity isMaker).isOk = true) :
    buildFills U ctx registry matched taker schedule = .error .overflow ↔
      2 ^ 32 < matched.trades.length ∨ u64Max < (matched.trades.map Trade.quantity).sum := by
  constructor
  · intro failed
    by_contra short
    rw [not_or, Nat.not_lt, Nat.not_lt] at short
    obtain ⟨fills, built⟩ := buildFills_ok ctx registry taker short.1 priced short.2 charged
    rw [failed] at built
    cases built
  · exact buildFills_long

end Match

/-- A microstructure is accepted by the resolver, or by the check. -/
def AcceptedConfig (U : Upstream) (maxGuaranteedExactNotional : FeeSchedule → Nat)
    (resolved : ResolvedMicrostructure) : Prop :=
  (∃ file instrumentSpecs, resolve U maxGuaranteedExactNotional file instrumentSpecs = .ok resolved) ∨
    resolved.validate maxGuaranteedExactNotional = .ok ()

/-- A trade is within the bounds of its specs. -/
def WithinSpecs (specs : ResolvedContractSpecs) (trade : Trade) : Prop :=
  trade.price ≤ specs.maxPriceCents ∧ trade.quantity ≤ specs.maxOrderQty

section Settled
variable {U : Upstream} {maxGuaranteedExactNotional : FeeSchedule → Nat} {resolved : ResolvedMicrostructure}

theorem AcceptedConfig.proved (accepted : AcceptedConfig U maxGuaranteedExactNotional resolved) (symbol : Symbol) :
    Proved maxGuaranteedExactNotional resolved.config.fees (resolved.config.specsForSymbol U symbol) := by
  apply specsForSymbol_proved
  rcases accepted with ⟨file, instrumentSpecs, done⟩ | validated
  · exact resolve_validate done
  · exact validated

/-- Within the specs of an accepted microstructure, each leg's fee is exact and fits its type, the fills carry these
fees, and a match is captured unless its trades exceed the index or their quantities the total. -/
theorem fills_charged (laws : FeeLaws U maxGuaranteedExactNotional)
    (accepted : AcceptedConfig U maxGuaranteedExactNotional resolved) (symbol : Symbol) {matched : MatchResult}
    (within : ∀ trade ∈ matched.trades, WithinSpecs (resolved.config.specsForSymbol U symbol) trade)
    (ctx : ExecutionContext) (registry : OrderRegistry) (taker : Placement) :
    let schedule := resolved.config.feeSchedule
    let fee := fun (trade : Trade) isMaker => exactFee schedule isMaker (trade.price * trade.quantity)
    let result := buildFills U ctx registry matched taker (some schedule)
    (∀ trade ∈ matched.trades, ∀ isMaker,
      perLegFee U (some schedule) trade.price trade.quantity isMaker = .ok (fee trade isMaker) ∧
        -2 ^ 63 ≤ fee trade isMaker ∧ fee trade isMaker < 2 ^ 63) ∧
    (∀ captured, result = .ok captured →
      captured.fills.map Fill.fee = matched.trades.flatMap fun trade => [fee trade true, fee trade false]) ∧
    (result = .error .overflow ↔
      2 ^ 32 < matched.trades.length ∨ u64Max < (matched.trades.map Trade.quantity).sum) := by
  intro schedule fee result
  have proved := accepted.proved symbol
  have charged : ∀ trade ∈ matched.trades, ∀ isMaker,
      perLegFee U (some schedule) trade.price trade.quantity isMaker = .ok (fee trade isMaker) :=
    fun trade member isMaker => proved.charges laws isMaker (within trade member).1 (within trade member).2
  refine ⟨fun trade member isMaker => ⟨charged trade member isMaker, ?_⟩, ?_, ?_⟩
  · have fits := proved.fits isMaker (within trade member).1 (within trade member).2
    unfold i64Ceiling at fits
    change -2 ^ 63 ≤ exactFee resolved.config.fees.toFeeSchedule isMaker (trade.price * trade.quantity) ∧
      exactFee resolved.config.fees.toFeeSchedule isMaker (trade.price * trade.quantity) < 2 ^ 63
    omega
  · intro captured built
    change buildFills U ctx registry matched taker (some schedule) = .ok captured at built
    unfold buildFills at built
    split at built
    · cases built
    next done =>
      cases built
      exact tradesLegs_fees charged done
  · apply buildFills_overflow_iff
    · intro trade member
      have cheap := (within trade member).1
      have priced := proved.priced
      unfold i64Ceiling at priced
      omega
    · intro trade member isMaker
      rw [charged trade member isMaker]
      rfl

end Settled

/-- The notional up to which a rate is charged without overflow. -/
def guaranteedNotional (rate : Int) : Nat := (2 ^ 128 - 1) / max rate.natAbs 1

/-- The smaller bound of the two legs. -/
def maxGuaranteedExactNotional (schedule : FeeSchedule) : Nat :=
  min (guaranteedNotional schedule.makerFeeBps) (guaranteedNotional schedule.takerFeeBps)

/-- The reference book with an upstream schedule that charges exactly, and fails where the product overflows. -/
def chargingUpstream : Upstream :=
  { referenceUpstream with
    calculateFee := fun schedule notional isMaker =>
      if 2 ^ 128 ≤ notional * (legRate schedule isMaker).natAbs then .error "fee calculation overflow"
      else .ok (exactFee schedule isMaker notional) }

theorem chargingUpstream_laws : FeeLaws chargingUpstream maxGuaranteedExactNotional := by
  refine ⟨fun schedule isMaker notional low => if_neg (Nat.not_le.2 ?_)⟩
  have leg : notional ≤ guaranteedNotional (legRate schedule isMaker) := by
    apply low.trans
    unfold legRate maxGuaranteedExactNotional
    cases isMaker with
    | true => exact Nat.min_le_left _ _
    | false => exact Nat.min_le_right _ _
  unfold guaranteedNotional at leg
  rw [Nat.le_div_iff_mul_le (Nat.lt_of_lt_of_le Nat.zero_lt_one (Nat.le_max_right _ _))] at leg
  calc notional * (legRate schedule isMaker).natAbs
      ≤ notional * max (legRate schedule isMaker).natAbs 1 := Nat.mul_le_mul_left _ (Nat.le_max_left _ _)
    _ < 2 ^ 128 := by omega

/-- A rebate for makers, and specs of their own for an underlying and for one of its contracts. -/
def rebateFile : FileMicrostructure := ⟨some ⟨-10, 35⟩, some .cancelMaker, none, none⟩

def rebateSpecs : Std.ExtTreeMap String ContractSpecsConfig :=
  (Std.ExtTreeMap.empty.insert "BTC" ⟨none, none, none, some 90000, none⟩).insert "BTC-20351231-50000-C"
    ⟨none, none, none, none, some 50⟩

/-- What these resolve to: the contract has its own size and the cap of its underlying. -/
def rebated : ResolvedMicrostructure where
  config := ⟨⟨-10, 35⟩, .cancelMaker, .baseline, Std.ExtTreeMap.empty.insert "BTC" ⟨1, 1, 1, 90000, 1000000⟩,
    Std.ExtTreeMap.empty.insert "BTC-20351231-50000-C" ⟨1, 1, 1, 90000, 50⟩⟩
  latency := .disabled

def crossingOrder (quantity : Nat) : AddOrder :=
  ⟨"BTC-20351231-50000-C", "taker", "a", 7, none, .buy, .limit, some 333, quantity, .gtc, .none⟩

def crossingContext (quantity : Nat) : ExecutionContext := ⟨"BTC", "run-1", 9, 0, .addOrder (crossingOrder quantity)⟩

/-- Seven contracts at 333 cents: the rebate and the fee are both rounded toward zero. -/
theorem rebate_charged :
    let matched : MatchResult := ⟨[⟨1, .sell, .buy, 333, 7⟩], [1]⟩
    let schedule := some rebated.config.feeSchedule
    perLegFee chargingUpstream schedule 333 7 true = .ok (-2) ∧
      perLegFee chargingUpstream schedule 333 7 false = .ok 8 ∧
      buildFills chargingUpstream (crossingContext 7) .new matched (crossingOrder 7).placement schedule ≠
        .error .overflow := by
  intro matched schedule
  have within : ∀ trade ∈ matched.trades,
      WithinSpecs (rebated.config.specsForSymbol chargingUpstream "BTC-20351231-50000-C") trade := by
    intro trade member
    rw [List.mem_singleton.1 member]
    unfold WithinSpecs
    decide +kernel
  obtain ⟨legs, -, overflows⟩ := fills_charged chargingUpstream_laws (Or.inl ⟨rebateFile, rebateSpecs, rfl⟩)
    "BTC-20351231-50000-C" within (crossingContext 7) .new (crossingOrder 7).placement
  refine ⟨(legs _ List.mem_cons_self true).1, (legs _ List.mem_cons_self false).1, fun failed => ?_⟩
  have long := overflows.1 failed
  revert long
  decide

/-- Specs that admit an order of 2 ^ 33 contracts. -/
def wideFile : FileMicrostructure := ⟨none, none, some ⟨none, none, none, none, some (2 ^ 33)⟩, none⟩

def wide : ResolvedMicrostructure := ⟨⟨⟨0, 0⟩, .none, ⟨1, 1, 1, 100000000, 2 ^ 33⟩, ∅, ∅⟩, .disabled⟩

/-- A match of single contracts, each with its own maker. -/
def singles (makers : Nat) : MatchResult :=
  ⟨(List.range makers).map fun id => ⟨id, .sell, .buy, 333, 1⟩, List.range makers⟩

theorem singles_total (makers : Nat) : ((singles makers).trades.map Trade.quantity).sum = makers := by
  simp [singles, Function.comp_def]

theorem singles_within {specs : ResolvedContractSpecs} {makers : Nat} (cheap : 333 ≤ specs.maxPriceCents)
    (small : 1 ≤ specs.maxOrderQty) : ∀ trade ∈ (singles makers).trades, WithinSpecs specs trade := by
  intro trade member
  obtain ⟨id, -, rfl⟩ := List.mem_map.1 member
  exact ⟨cheap, small⟩

theorem singles_overflow {makers : Nat} (many : 2 ^ 32 < makers) (U : Upstream) (ctx : ExecutionContext)
    (registry : OrderRegistry) (taker : Placement) (schedule : Option FeeSchedule) :
    buildFills U ctx registry (singles makers) taker schedule = .error .overflow := by
  apply buildFills_long
  left
  simpa [singles] using many

/-- An order that meets one more maker of a single contract than the index counts. -/
theorem long_match_overflows :
    let matched := singles (2 ^ 32 + 1)
    let order := crossingOrder (2 ^ 32 + 1)
    let specs := wide.config.specsForSymbol chargingUpstream order.symbol
    FeeLaws chargingUpstream maxGuaranteedExactNotional ∧
      resolve chargingUpstream maxGuaranteedExactNotional wideFile ∅ = .ok wide ∧
      wide.validate maxGuaranteedExactNotional = .ok () ∧
      specs.admitOrder order.limitPrice order.quantity = .ok () ∧
      (matched.trades.map Trade.quantity).sum = order.quantity ∧
      (∀ trade ∈ matched.trades, WithinSpecs specs trade) ∧
      buildFills chargingUpstream (crossingContext order.quantity) .new matched order.placement
        (some wide.config.feeSchedule) = .error .overflow := by
  intro matched order specs
  exact ⟨chargingUpstream_laws, rfl, rfl, by decide, singles_total _, singles_within (by decide) (by decide),
    singles_overflow (by decide) _ _ _ _ _⟩

end Fauxchange.Microstructure
