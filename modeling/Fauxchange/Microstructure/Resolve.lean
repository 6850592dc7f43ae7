import Fauxchange.Microstructure.Config
import Fauxchange.Microstructure.Latency

/-! How the venue's microstructure is resolved from its file, and the check it passes again after a replay bundle
is decoded. Both bound the widest fill that the specs admit, so that its fees are exact and can be stored. -/

namespace Fauxchange.Microstructure
open Lib Exchange

inductive MicrostructureConfigError where
  | takerFeeNegative (takerBps : Int)
  | specKnobZero (field : String)
  | maxPriceBelowMin (min max : Nat)
  | specKnobAboveDbDomain (field : String) (value ceiling : Nat)
  | feeBoundUnprovable (maxNotional guaranteedBound : Nat) (makerBps takerBps : Int)
  | feePersistOverflow (feeMagnitude maxNotional maxAbsBps : Nat)
  | proofArithmeticOverflow
  | latency (error : LatencyConfigError)
  deriving DecidableEq, Repr

namespace FeeConfig
variable (fees : FeeConfig)

def default : FeeConfig := ⟨0, 0⟩

def toFeeSchedule : FeeSchedule := ⟨fees.makerBps, fees.takerBps⟩

def maxAbsBps : Nat := max fees.makerBps.natAbs fees.takerBps.natAbs

def validate : Except MicrostructureConfigError Unit :=
  if fees.takerBps < 0 then .error (.takerFeeNegative fees.takerBps) else .ok ()

/-- The startup proof: the widest notional is one that the upstream schedule charges exactly, and the fee on it
fits the durable column. -/
def validateNotionalBound (maxGuaranteedExactNotional : FeeSchedule → Nat) (maxNotional : Nat) :
    Except MicrostructureConfigError Unit :=
  let guaranteedBound := maxGuaranteedExactNotional fees.toFeeSchedule
  if guaranteedBound < maxNotional then
    .error (.feeBoundUnprovable maxNotional guaranteedBound fees.makerBps fees.takerBps)
  else if 2 ^ 128 ≤ maxNotional * fees.maxAbsBps then .error .proofArithmeticOverflow
  else if i64Ceiling < maxNotional * fees.maxAbsBps / 10000 then
    .error (.feePersistOverflow (maxNotional * fees.maxAbsBps / 10000) maxNotional fees.maxAbsBps)
  else .ok ()

end FeeConfig

inductive StpMode where
  | off
  | cancelTaker
  | cancelMaker
  | cancelBoth
  deriving DecidableEq, Repr

def StpMode.toStpMode : StpMode → STPMode
  | .off => .none
  | .cancelTaker => .cancelTaker
  | .cancelMaker => .cancelMaker
  | .cancelBoth => .cancelBoth

structure ContractSpecsConfig where
  tickSizeCents : Option Nat
  lotSize : Option Nat
  minPriceCents : Option Nat
  maxPriceCents : Option Nat
  maxOrderQty : Option Nat
  deriving DecidableEq, Repr

def ContractSpecsConfig.default : ContractSpecsConfig := ⟨none, none, none, none, none⟩

namespace ResolvedContractSpecs
variable (specs : ResolvedContractSpecs)

def checkKnobNotZero (knob : String × Nat) : Except MicrostructureConfigError Unit :=
  if knob.2 = 0 then .error (.specKnobZero knob.1) else .ok ()

def checkKnobInDbDomain (knob : String × Nat) : Except MicrostructureConfigError Unit :=
  if i64Ceiling < knob.2 then .error (.specKnobAboveDbDomain knob.1 knob.2 i64Ceiling) else .ok ()

def validate : Except MicrostructureConfigError Unit := do
  [("tick_size_cents", specs.tickSizeCents), ("lot_size", specs.lotSize), ("min_price_cents", specs.minPriceCents),
    ("max_order_qty", specs.maxOrderQty)].forM checkKnobNotZero
  [("max_price_cents", specs.maxPriceCents), ("max_order_qty", specs.maxOrderQty)].forM checkKnobInDbDomain
  if specs.maxPriceCents < specs.minPriceCents then .error (.maxPriceBelowMin specs.minPriceCents specs.maxPriceCents)
  else .ok ()

def maxNotional : Except MicrostructureConfigError Nat :=
  if 2 ^ 128 ≤ specs.maxPriceCents * specs.maxOrderQty then .error .proofArithmeticOverflow
  else .ok (specs.maxPriceCents * specs.maxOrderQty)

/-- The startup proof, for the widest fill of these specs. -/
def provedFor (maxGuaranteedExactNotional : FeeSchedule → Nat) (fees : FeeConfig) :
    Except MicrostructureConfigError Unit := do
  let maxNotional ← specs.maxNotional
  fees.validateNotionalBound maxGuaranteedExactNotional maxNotional

end ResolvedContractSpecs

/-- A knob that is not set is the default's. -/
def ContractSpecsConfig.resolveOver (config : ContractSpecsConfig) (default : ResolvedContractSpecs) :
    Except MicrostructureConfigError ResolvedContractSpecs := do
  let resolved : ResolvedContractSpecs :=
    ⟨config.tickSizeCents.getD default.tickSizeCents, config.lotSize.getD default.lotSize,
      config.minPriceCents.getD default.minPriceCents, config.maxPriceCents.getD default.maxPriceCents,
      config.maxOrderQty.getD default.maxOrderQty⟩
  resolved.validate
  .ok resolved

/-- The microstructure section of the file. -/
structure FileMicrostructure where
  fees : Option FeeConfig
  stp : Option StpMode
  specs : Option ContractSpecsConfig
  latency : Option FileLatency
  deriving DecidableEq, Repr

def FileMicrostructure.default : FileMicrostructure := ⟨none, none, none, none⟩

/-- The resolved microstructure: what the order path reads, and the latency distribution beside it. -/
structure ResolvedMicrostructure where
  config : MicrostructureConfig
  latency : LatencyConfig

def resolveLatency : Option FileLatency → Except MicrostructureConfigError LatencyConfig
  | none => .ok .disabled
  | some file => file.resolve.mapError .latency

section Resolve
variable (U : Upstream) (maxGuaranteedExactNotional : FeeSchedule → Nat)

/-- An override over its base, proved against the fees. -/
def resolveProved (fees : FeeConfig) (specs : ContractSpecsConfig) (base : ResolvedContractSpecs) :
    Except MicrostructureConfigError ResolvedContractSpecs := do
  let resolved ← specs.resolveOver base
  resolved.provedFor maxGuaranteedExactNotional fees
  .ok resolved

/-- Pass 1 takes the keys that are not full option symbols, each over the venue default. -/
def resolveUnderlying (fees : FeeConfig) (defaultSpecs : ResolvedContractSpecs)
    (perUnderlying : Std.ExtTreeMap String ResolvedContractSpecs) (entry : String × ContractSpecsConfig) :
    Except MicrostructureConfigError (Std.ExtTreeMap String ResolvedContractSpecs) :=
  match U.parse entry.1 with
  | .ok _ => .ok perUnderlying
  | .error _ => do
    let resolved ← resolveProved maxGuaranteedExactNotional fees entry.2 defaultSpecs
    .ok (perUnderlying.insert entry.1 resolved)

/-- Pass 2 takes the full option symbols, each over the specs of its underlying. -/
def resolveSymbol (fees : FeeConfig) (defaultSpecs : ResolvedContractSpecs)
    (perUnderlying : Std.ExtTreeMap String ResolvedContractSpecs)
    (perSymbol : Std.ExtTreeMap Symbol ResolvedContractSpecs) (entry : String × ContractSpecsConfig) :
    Except MicrostructureConfigError (Std.ExtTreeMap Symbol ResolvedContractSpecs) :=
  match U.parse entry.1 with
  | .error _ => .ok perSymbol
  | .ok parsed => do
    let base := perUnderlying[parsed.underlying]?.getD defaultSpecs
    let resolved ← resolveProved maxGuaranteedExactNotional fees entry.2 base
    .ok (perSymbol.insert entry.1 resolved)

def resolve (file : FileMicrostructure) (instrumentSpecs : Std.ExtTreeMap String ContractSpecsConfig) :
    Except MicrostructureConfigError ResolvedMicrostructure := do
  let fees := file.fees.getD .default
  fees.validate
  let stp := file.stp.getD .off
  let latency ← resolveLatency file.latency
  let defaultSpecs ← resolveProved maxGuaranteedExactNotional fees (file.specs.getD .default) .baseline
  let perUnderlying ←
    instrumentSpecs.toList.foldlM (resolveUnderlying U maxGuaranteedExactNotional fees defaultSpecs) ∅
  let perSymbol ←
    instrumentSpecs.toList.foldlM (resolveSymbol U maxGuaranteedExactNotional fees defaultSpecs perUnderlying) ∅
  .ok ⟨⟨fees, stp.toStpMode, defaultSpecs, perUnderlying, perSymbol⟩, latency⟩

/-- The checks that each of the resolved specs passes. -/
def checkSpecs (fees : FeeConfig) (specs : ResolvedContractSpecs) : Except MicrostructureConfigError Unit := do
  specs.validate
  specs.provedFor maxGuaranteedExactNotional fees

/-- The same checks on a microstructure that is already there. -/
def ResolvedMicrostructure.validate (resolved : ResolvedMicrostructure) : Except MicrostructureConfigError Unit := do
  let config := resolved.config
  config.fees.validate
  resolved.latency.validate.mapError .latency
  checkSpecs maxGuaranteedExactNotional config.fees config.defaultSpecs
  config.perUnderlying.toList.forM fun entry => checkSpecs maxGuaranteedExactNotional config.fees entry.2
  config.perSymbol.toList.forM fun entry => checkSpecs maxGuaranteedExactNotional config.fees entry.2

variable {U} {maxGuaranteedExactNotional}

theorem resolveOver_validate {config : ContractSpecsConfig} {base resolved : ResolvedContractSpecs}
    (done : config.resolveOver base = .ok resolved) : resolved.validate = .ok () := by
  obtain ⟨⟨⟩, checked, same⟩ := except_bind_ok done
  cases same
  exact checked

theorem resolveProved_checked {fees : FeeConfig} {specs : ContractSpecsConfig} {base resolved : ResolvedContractSpecs}
    (done : resolveProved maxGuaranteedExactNotional fees specs base = .ok resolved) :
    checkSpecs maxGuaranteedExactNotional fees resolved = .ok () := by
  obtain ⟨shaped, inherited, rest⟩ := except_bind_ok done
  obtain ⟨⟨⟩, proved, same⟩ := except_bind_ok rest
  cases same
  unfold checkSpecs
  rw [resolveOver_validate inherited]
  exact proved

/-- Every override of a map has passed the checks. -/
def AllChecked (maxGuaranteedExactNotional : FeeSchedule → Nat) (fees : FeeConfig)
    (overrides : Std.ExtTreeMap String ResolvedContractSpecs) : Prop :=
  ∀ (key : String) specs, overrides[key]? = some specs → checkSpecs maxGuaranteedExactNotional fees specs = .ok ()

theorem allChecked_iff {fees : FeeConfig} {overrides : Std.ExtTreeMap String ResolvedContractSpecs} :
    AllChecked maxGuaranteedExactNotional fees overrides ↔
      overrides.toList.forM (fun entry => checkSpecs maxGuaranteedExactNotional fees entry.2) = .ok () := by
  rw [forM_ok_iff]
  constructor
  · intro checked entry listed
    exact checked entry.1 entry.2 (Std.ExtTreeMap.mem_toList_iff_getElem?_eq_some.1 listed)
  · intro checked key specs found
    exact checked (key, specs) (Std.ExtTreeMap.mem_toList_iff_getElem?_eq_some.2 found)

theorem allChecked_empty (fees : FeeConfig) : AllChecked maxGuaranteedExactNotional fees ∅ := by
  intro key specs found
  rw [Std.ExtTreeMap.getElem?_empty] at found
  cases found

theorem AllChecked.insert {fees : FeeConfig} {overrides : Std.ExtTreeMap String ResolvedContractSpecs}
    {key : String} {specs : ResolvedContractSpecs} (checked : AllChecked maxGuaranteedExactNotional fees overrides)
    (passed : checkSpecs maxGuaranteedExactNotional fees specs = .ok ()) :
    AllChecked maxGuaranteedExactNotional fees (overrides.insert key specs) := by
  intro other stored found
  rw [Std.ExtTreeMap.getElem?_insert] at found
  split at found
  · cases found
    exact passed
  · exact checked other stored found

theorem resolveUnderlying_checked {fees : FeeConfig} {defaultSpecs : ResolvedContractSpecs}
    {perUnderlying next : Std.ExtTreeMap String ResolvedContractSpecs} {entry : String × ContractSpecsConfig}
    (checked : AllChecked maxGuaranteedExactNotional fees perUnderlying)
    (done : resolveUnderlying U maxGuaranteedExactNotional fees defaultSpecs perUnderlying entry = .ok next) :
    AllChecked maxGuaranteedExactNotional fees next := by
  unfold resolveUnderlying at done
  split at done
  · cases done
    exact checked
  · obtain ⟨resolved, proved, same⟩ := except_bind_ok done
    cases same
    exact checked.insert (resolveProved_checked proved)

theorem resolveSymbol_checked {fees : FeeConfig} {defaultSpecs : ResolvedContractSpecs}
    {perUnderlying : Std.ExtTreeMap String ResolvedContractSpecs}
    {perSymbol next : Std.ExtTreeMap Symbol ResolvedContractSpecs} {entry : String × ContractSpecsConfig}
    (checked : AllChecked maxGuaranteedExactNotional fees perSymbol)
    (done : resolveSymbol U maxGuaranteedExactNotional fees defaultSpecs perUnderlying perSymbol entry = .ok next) :
    AllChecked maxGuaranteedExactNotional fees next := by
  unfold resolveSymbol at done
  split at done
  · cases done
    exact checked
  · obtain ⟨resolved, proved, same⟩ := except_bind_ok done
    cases same
    exact checked.insert (resolveProved_checked proved)

theorem resolveLatency_validate {file : Option FileLatency} {latency : LatencyConfig}
    (resolved : resolveLatency file = .ok latency) : latency.validate = .ok () := by
  cases file with
  | none =>
    cases resolved
    rfl
  | some file =>
    unfold resolveLatency at resolved
    dsimp only at resolved
    cases done : file.resolve with
    | error error =>
      rw [done] at resolved
      cases resolved
    | ok distribution =>
      rw [done] at resolved
      cases resolved
      exact FileLatency.resolve_validate done

/-- What the resolver accepts passes the checks again. -/
theorem resolve_validate {file : FileMicrostructure} {instrumentSpecs : Std.ExtTreeMap String ContractSpecsConfig}
    {resolved : ResolvedMicrostructure}
    (accepted : resolve U maxGuaranteedExactNotional file instrumentSpecs = .ok resolved) :
    resolved.validate maxGuaranteedExactNotional = .ok () := by
  obtain ⟨⟨⟩, rated, rest⟩ := except_bind_ok accepted
  obtain ⟨latency, drawn, rest⟩ := except_bind_ok rest
  obtain ⟨defaultSpecs, proved, rest⟩ := except_bind_ok rest
  obtain ⟨perUnderlying, first, rest⟩ := except_bind_ok rest
  obtain ⟨perSymbol, second, rest⟩ := except_bind_ok rest
  cases rest
  have underlyings : AllChecked maxGuaranteedExactNotional (file.fees.getD .default) perUnderlying :=
    foldlM_ok (fun _ _ _ checked done => resolveUnderlying_checked checked done) (allChecked_empty _) first
  have symbols : AllChecked maxGuaranteedExactNotional (file.fees.getD .default) perSymbol :=
    foldlM_ok (fun _ _ _ checked done => resolveSymbol_checked checked done) (allChecked_empty _) second
  unfold ResolvedMicrostructure.validate
  simp only [rated, resolveLatency_validate drawn, resolveProved_checked proved, allChecked_iff.1 underlyings,
    allChecked_iff.1 symbols, Except.mapError, bind, Except.bind]

/-- The specs of every symbol have passed the checks, wherever they come from. -/
theorem specsForSymbol_checked {resolved : ResolvedMicrostructure}
    (accepted : resolved.validate maxGuaranteedExactNotional = .ok ()) (symbol : Symbol) :
    checkSpecs maxGuaranteedExactNotional resolved.config.fees (resolved.config.specsForSymbol U symbol) = .ok () := by
  obtain ⟨⟨⟩, -, rest⟩ := except_bind_ok accepted
  obtain ⟨⟨⟩, -, rest⟩ := except_bind_ok rest
  obtain ⟨⟨⟩, defaults, rest⟩ := except_bind_ok rest
  obtain ⟨⟨⟩, underlyings, symbols⟩ := except_bind_ok rest
  have underlyings := allChecked_iff.2 underlyings
  have symbols := allChecked_iff.2 symbols
  have underlying : ∀ name, checkSpecs maxGuaranteedExactNotional resolved.config.fees
      (resolved.config.specsFor name) = .ok () := by
    intro name
    unfold MicrostructureConfig.specsFor
    cases found : resolved.config.perUnderlying[name]? with
    | none => exact defaults
    | some specs => exact underlyings name specs found
  unfold MicrostructureConfig.specsForSymbol
  cases found : resolved.config.perSymbol[symbol]? with
  | some specs => exact symbols symbol specs found
  | none =>
    cases parsed : U.parse symbol with
    | ok contract => exact underlying contract.underlying
    | error error => exact defaults

end Resolve

end Fauxchange.Microstructure
