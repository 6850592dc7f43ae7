import Fauxchange.Exchange.Upstream

/-! The venue microstructure as the order path reads it: the resolved contract specs with their venue-owned
price band, and the fee, STP and spec settings applied to a book. -/

namespace Fauxchange.Microstructure
open Exchange

inductive PriceBoundError where
  | aboveMax (price max : Nat)
  | belowMin (price min : Nat)
  deriving DecidableEq, Repr

def PriceBoundError.display : PriceBoundError → String
  | .aboveMax price max =>
    "price " ++ toString price ++ " cents exceeds the venue max_price_cents cap of " ++ toString max
  | .belowMin price min =>
    "price " ++ toString price ++ " cents is below the venue min_price_cents floor of " ++ toString min

inductive OrderAdmissionError where
  | priceBand (error : PriceBoundError)
  | offTick (price tick : Nat)
  | offLot (quantity lot : Nat)
  | aboveMaxQty (quantity max : Nat)
  deriving DecidableEq, Repr

def OrderAdmissionError.display : OrderAdmissionError → String
  | .priceBand error => error.display
  | .offTick price tick =>
    "price " ++ toString price ++ " cents is off the " ++ toString tick ++ "-cent tick for this instrument"
  | .offLot quantity lot =>
    "quantity " ++ toString quantity ++ " is not a multiple of the " ++ toString lot ++
      "-contract lot for this instrument"
  | .aboveMaxQty quantity max =>
    "quantity " ++ toString quantity ++ " exceeds the max order quantity " ++ toString max ++ " for this instrument"

structure PriceBounds where
  min : Nat
  max : Nat
  deriving DecidableEq, Repr

def PriceBounds.admit (bounds : PriceBounds) (price : Nat) : Except PriceBoundError Unit :=
  if price < bounds.min then .error (.belowMin price bounds.min)
  else if bounds.max < price then .error (.aboveMax price bounds.max)
  else .ok ()

structure ResolvedContractSpecs where
  tickSizeCents : Nat
  lotSize : Nat
  minPriceCents : Nat
  maxPriceCents : Nat
  maxOrderQty : Nat
  deriving DecidableEq, Repr

namespace ResolvedContractSpecs

def baseline : ResolvedContractSpecs := ⟨1, 1, 1, 100000000, 1000000⟩

def priceBounds (specs : ResolvedContractSpecs) : PriceBounds := ⟨specs.minPriceCents, specs.maxPriceCents⟩

/-- The lot and the maximum quantity, which every order passes. -/
def admitQuantity (specs : ResolvedContractSpecs) (quantity : Nat) : Except OrderAdmissionError Unit :=
  if specs.lotSize ≠ 0 ∧ quantity % specs.lotSize ≠ 0 then .error (.offLot quantity specs.lotSize)
  else if specs.maxOrderQty < quantity then .error (.aboveMaxQty quantity specs.maxOrderQty)
  else .ok ()

/-- The band comes first, then the tick, the lot and the maximum quantity. -/
def admitOrder (specs : ResolvedContractSpecs) (limitPrice : Option Nat) (quantity : Nat) :
    Except OrderAdmissionError Unit :=
  match limitPrice with
  | none => specs.admitQuantity quantity
  | some price =>
    match PriceBounds.admit specs.priceBounds price with
    | .error error => .error (.priceBand error)
    | .ok () =>
      if specs.tickSizeCents ≠ 0 ∧ price % specs.tickSizeCents ≠ 0 then .error (.offTick price specs.tickSizeCents)
      else specs.admitQuantity quantity

/-- What the specs ask of an order besides the price band. -/
def Shaped (specs : ResolvedContractSpecs) (limitPrice : Option Nat) (quantity : Nat) : Prop :=
  (∀ price, limitPrice = some price → specs.tickSizeCents ∣ price ∨ specs.tickSizeCents = 0) ∧
    (specs.lotSize ∣ quantity ∨ specs.lotSize = 0) ∧ quantity ≤ specs.maxOrderQty

theorem admitQuantity_ok_iff {specs : ResolvedContractSpecs} {quantity : Nat} :
    specs.admitQuantity quantity = .ok () ↔
      (specs.lotSize ∣ quantity ∨ specs.lotSize = 0) ∧ quantity ≤ specs.maxOrderQty := by
  unfold admitQuantity
  rw [Nat.dvd_iff_mod_eq_zero]
  split
  next offLot => simp [offLot]
  next onLot =>
    split
    next above => simp [Nat.not_le.2 above]
    next below =>
      refine ⟨fun _ => ⟨?_, Nat.not_lt.1 below⟩, fun _ => rfl⟩
      by_contra neither
      exact onLot ⟨fun zero => neither (Or.inr zero), fun even => neither (Or.inl even)⟩

/-- An order is admitted exactly when its price is in the band and the rest of the specs holds. -/
theorem admitOrder_ok_iff {specs : ResolvedContractSpecs} {limitPrice : Option Nat} {quantity : Nat} :
    specs.admitOrder limitPrice quantity = .ok () ↔
      (∀ price, limitPrice = some price → PriceBounds.admit specs.priceBounds price = .ok ()) ∧
        specs.Shaped limitPrice quantity := by
  unfold admitOrder Shaped
  cases limitPrice with
  | none => simp [admitQuantity_ok_iff]
  | some price =>
    simp only [Option.some.injEq, forall_eq']
    cases PriceBounds.admit specs.priceBounds price with
    | error error => simp
    | ok _ =>
      rw [Nat.dvd_iff_mod_eq_zero]
      by_cases off : specs.tickSizeCents ≠ 0 ∧ price % specs.tickSizeCents ≠ 0
      · simp [off]
      · have onTick : price % specs.tickSizeCents = 0 ∨ specs.tickSizeCents = 0 := by
          by_contra neither
          exact off ⟨fun zero => neither (Or.inr zero), fun even => neither (Or.inl even)⟩
        simp only [if_neg off, admitQuantity_ok_iff, onTick, true_and]

end ResolvedContractSpecs

structure FeeConfig where
  makerBps : Int
  takerBps : Int
  deriving DecidableEq, Repr

structure MicrostructureConfig where
  fees : FeeConfig
  stp : STPMode
  defaultSpecs : ResolvedContractSpecs
  perUnderlying : Std.ExtTreeMap String ResolvedContractSpecs
  perSymbol : Std.ExtTreeMap Symbol ResolvedContractSpecs

namespace MicrostructureConfig

def default : MicrostructureConfig := ⟨⟨0, 0⟩, .none, .baseline, ∅, ∅⟩

def feeSchedule (config : MicrostructureConfig) : FeeSchedule := ⟨config.fees.makerBps, config.fees.takerBps⟩

def specsFor (config : MicrostructureConfig) (underlying : String) : ResolvedContractSpecs :=
  config.perUnderlying[underlying]?.getD config.defaultSpecs

def specsForSymbol (U : Upstream) (config : MicrostructureConfig) (symbol : Symbol) : ResolvedContractSpecs :=
  match config.perSymbol[symbol]? with
  | some specs => specs
  | none =>
    match U.parse symbol with
    | .ok parsed => config.specsFor parsed.underlying
    | .error _ => config.defaultSpecs

def admitPrice (config : MicrostructureConfig) (underlying : String) (price : Nat) : Except PriceBoundError Unit :=
  PriceBounds.admit (config.specsFor underlying).priceBounds price

def admitPriceForSymbol (U : Upstream) (config : MicrostructureConfig) (symbol : Symbol) (price : Nat) :
    Except PriceBoundError Unit :=
  PriceBounds.admit (config.specsForSymbol U symbol).priceBounds price

def admitOrderForSymbol (U : Upstream) (config : MicrostructureConfig) (symbol : Symbol)
    (limitPrice : Option Nat) (quantity : Nat) : Except OrderAdmissionError Unit :=
  (config.specsForSymbol U symbol).admitOrder limitPrice quantity

/-- The settings `apply_to_underlying` puts on a book before its first leaf. The builder's refusal of the
specs is unreachable for validated ones. -/
def bookConfig (config : MicrostructureConfig) (underlying : String) : BookConfig :=
  let specs := config.specsFor underlying
  ⟨some config.feeSchedule, config.stp, some ⟨specs.tickSizeCents, specs.lotSize, 1, specs.maxOrderQty⟩⟩

end MicrostructureConfig

/-- What a command offers for admission: an order, a reference price, or nothing. -/
inductive Offered where
  | order (symbol : Symbol) (limitPrice : Option Nat) (quantity : Nat)
  | reference (underlying : String) (price : Nat)
  | nothing

def offered : VenueCommand → Offered
  | .addOrder order => .order order.symbol order.limitPrice order.quantity
  | .replace order => .order order.symbol order.limitPrice order.quantity
  | .simStep _ underlying price _ _ => .reference underlying price
  | _ => .nothing

/-- The band-only check of the venue's internal producers. -/
def checkPriceBand (U : Upstream) (config : MicrostructureConfig) (command : VenueCommand) :
    Except PriceBoundError Unit :=
  match offered command with
  | .order symbol (some price) _ =>
    match U.parse symbol with
    | .error _ => .ok ()
    | .ok _ => config.admitPriceForSymbol U symbol price
  | .order _ none _ => .ok ()
  | .reference underlying price => config.admitPrice underlying price
  | .nothing => .ok ()

/-- The full check, of the gateway and of the re-execution. -/
def checkOrderAdmission (U : Upstream) (config : MicrostructureConfig) (command : VenueCommand) :
    Except OrderAdmissionError Unit :=
  match offered command with
  | .order symbol limitPrice quantity =>
    match U.parse symbol with
    | .error _ => .ok ()
    | .ok _ => config.admitOrderForSymbol U symbol limitPrice quantity
  | .reference underlying price =>
    match config.admitPrice underlying price with
    | .ok () => .ok ()
    | .error error => .error (.priceBand error)
  | .nothing => .ok ()

/-- What the full check asks of a command besides the band: the tick, the lot and the maximum quantity of
the specs of its symbol, for an order on a symbol that parses. -/
def SpecShaped (U : Upstream) (config : MicrostructureConfig) (command : VenueCommand) : Prop :=
  ∀ symbol limitPrice quantity, offered command = .order symbol limitPrice quantity →
    (∃ parsed, U.parse symbol = .ok parsed) → (config.specsForSymbol U symbol).Shaped limitPrice quantity

/-- The full check is the band check and the rest of the specs. -/
theorem checkOrderAdmission_ok_iff (U : Upstream) (config : MicrostructureConfig) (command : VenueCommand) :
    checkOrderAdmission U config command = .ok () ↔
      checkPriceBand U config command = .ok () ∧ SpecShaped U config command := by
  unfold checkOrderAdmission checkPriceBand SpecShaped
  cases what : offered command with
  | nothing => simp
  | reference underlying price => cases band : config.admitPrice underlying price <;> simp [band]
  | order symbol limitPrice quantity =>
    cases parse : U.parse symbol with
    | error error => cases limitPrice <;> simp [parse]
    | ok parsed =>
      simp only [MicrostructureConfig.admitOrderForSymbol, MicrostructureConfig.admitPriceForSymbol]
      cases limitPrice <;> simp [parse, ResolvedContractSpecs.admitOrder_ok_iff]

end Fauxchange.Microstructure
