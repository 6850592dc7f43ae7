import Fauxchange.Exchange.Envelope
import Fauxchange.Lib.Effects
import Mathlib.Order.Nat
import Mathlib.Tactic.SplitIfs

/-! The latency distribution of the venue: its file section, how it resolves, and the check that a resolved one
passes again. -/

namespace Fauxchange.Microstructure
open Lib Exchange

def i64Ceiling : Nat := 2 ^ 63 - 1

/-- The values of the 64-bit floating point type. -/
inductive F64 where
  | finite (value : Rat)
  | infinite (negative : Bool)
  | nan
  deriving DecidableEq, Repr

inductive LatencyModel where
  | fixed
  | uniform
  | normal
  | lognormal
  deriving DecidableEq, Repr

def LatencyModel.asToken : LatencyModel → String
  | .fixed => "fixed"
  | .uniform => "uniform"
  | .normal => "normal"
  | .lognormal => "lognormal"

inductive LatencyConfigError where
  | missingParam (model param : String)
  | negativeMicros (param : String) (value : Int)
  | sigmaNotFinite (value : F64)
  | sigmaNegative (value : Rat)
  | minExceedsMax (minUs maxUs : Int)
  deriving DecidableEq, Repr

inductive LatencyConfig where
  | disabled
  | fixed (us : Nat)
  | uniform (minUs maxUs : Nat)
  | normal (meanUs : Nat) (sigma : F64)
  | lognormal (medianUs : Nat) (sigma : F64)
  deriving DecidableEq, Repr

/-- The file section: a model, and the union of the parameters of all models. -/
structure FileLatency where
  model : LatencyModel
  us : Option Int
  minUs : Option Int
  maxUs : Option Int
  meanUs : Option Int
  medianUs : Option Int
  sigma : Option F64
  deriving DecidableEq, Repr

def checkMicros (param : String) (value : Int) : Except LatencyConfigError Nat :=
  if value < 0 then .error (.negativeMicros param value) else .ok value.toNat

def checkSigma : F64 → Except LatencyConfigError F64
  | .finite value => if value < 0 then .error (.sigmaNegative value) else .ok (.finite value)
  | value => .error (.sigmaNotFinite value)

namespace FileLatency
variable (file : FileLatency)

/-- A parameter of the model must be there. -/
def require {α : Type} (param : String) (value : Option α) : Except LatencyConfigError α :=
  match value with
  | some value => .ok value
  | none => .error (.missingParam file.model.asToken param)

def micros (param : String) (value : Option Int) : Except LatencyConfigError Nat := do
  let raw ← file.require param value
  checkMicros param raw

def sigmaParam : Except LatencyConfigError F64 := do
  let sigma ← file.require "sigma" file.sigma
  checkSigma sigma

def resolve : Except LatencyConfigError LatencyConfig :=
  match file.model with
  | .fixed => do
    let us ← file.micros "us" file.us
    .ok (.fixed us)
  | .uniform => do
    let minRaw ← file.require "min_us" file.minUs
    let maxRaw ← file.require "max_us" file.maxUs
    let minUs ← checkMicros "min_us" minRaw
    let maxUs ← checkMicros "max_us" maxRaw
    if maxRaw < minRaw then .error (.minExceedsMax minRaw maxRaw) else .ok (.uniform minUs maxUs)
  | .normal => do
    let meanUs ← file.micros "mean_us" file.meanUs
    let sigma ← file.sigmaParam
    .ok (.normal meanUs sigma)
  | .lognormal => do
    let medianUs ← file.micros "median_us" file.medianUs
    let sigma ← file.sigmaParam
    .ok (.lognormal medianUs sigma)

end FileLatency

/-- A band's bound as the error reports it. -/
def reportedMicros (micros : Nat) : Int := min micros i64Ceiling

def LatencyConfig.validate : LatencyConfig → Except LatencyConfigError Unit
  | .disabled => .ok ()
  | .fixed _ => .ok ()
  | .uniform minUs maxUs =>
    if maxUs < minUs then .error (.minExceedsMax (reportedMicros minUs) (reportedMicros maxUs)) else .ok ()
  | .normal _ sigma => (checkSigma sigma).map fun _ => ()
  | .lognormal _ sigma => (checkSigma sigma).map fun _ => ()

theorem checkMicros_ok {param : String} {value : Int} {micros : Nat} (checked : checkMicros param value = .ok micros) :
    (micros : Int) = value := by
  unfold checkMicros at checked
  split at checked
  · cases checked
  · cases checked
    omega

theorem checkSigma_again {sigma checked : F64} (passed : checkSigma sigma = .ok checked) :
    checkSigma checked = .ok checked := by
  cases sigma with
  | finite value =>
    unfold checkSigma at passed
    dsimp only at passed
    split_ifs at passed with negative
    cases passed
    exact if_neg negative
  | infinite negative => cases passed
  | nan => cases passed

theorem FileLatency.sigmaParam_again {file : FileLatency} {sigma : F64} (resolved : file.sigmaParam = .ok sigma) :
    checkSigma sigma = .ok sigma := by
  obtain ⟨raw, -, checked⟩ := except_bind_ok resolved
  exact checkSigma_again checked

/-- A distribution that was resolved passes the check. -/
theorem FileLatency.resolve_validate {file : FileLatency} {latency : LatencyConfig}
    (resolved : file.resolve = .ok latency) : latency.validate = .ok () := by
  unfold FileLatency.resolve at resolved
  split at resolved
  case h_1 =>
    obtain ⟨us, -, done⟩ := except_bind_ok resolved
    cases done
    rfl
  case h_2 =>
    obtain ⟨minRaw, -, rest⟩ := except_bind_ok resolved
    obtain ⟨maxRaw, -, rest⟩ := except_bind_ok rest
    obtain ⟨minUs, low, rest⟩ := except_bind_ok rest
    obtain ⟨maxUs, high, rest⟩ := except_bind_ok rest
    split_ifs at rest with inverted
    cases rest
    have minimum := checkMicros_ok low
    have maximum := checkMicros_ok high
    apply if_neg
    omega
  case h_3 =>
    obtain ⟨meanUs, -, rest⟩ := except_bind_ok resolved
    obtain ⟨sigma, shaped, done⟩ := except_bind_ok rest
    cases done
    simp only [LatencyConfig.validate, sigmaParam_again shaped, Except.map]
  case h_4 =>
    obtain ⟨medianUs, -, rest⟩ := except_bind_ok resolved
    obtain ⟨sigma, shaped, done⟩ := except_bind_ok rest
    cases done
    simp only [LatencyConfig.validate, sigmaParam_again shaped, Except.map]

end Fauxchange.Microstructure
