import Fauxchange.Simulation.Replay

/-! The gate on the microstructure of a bundle: what it admits under the fingerprint of another one. -/

namespace Fauxchange.Simulation
open Lib Exchange Microstructure

theorem validate_latency {maxGuaranteedExactNotional : FeeSchedule → Nat} {resolved : ResolvedMicrostructure}
    (accepted : resolved.validate maxGuaranteedExactNotional = .ok ()) : resolved.latency.validate = .ok () := by
  obtain ⟨⟨⟩, -, rest⟩ := except_bind_ok accepted
  obtain ⟨⟨⟩, drawn, -⟩ := except_bind_ok rest
  cases checked : resolved.latency.validate with
  | ok _ => rfl
  | error error =>
    rw [checked] at drawn
    cases drawn

theorem verifyBundleMicrostructure_ok_iff {maxGuaranteedExactNotional : FeeSchedule → Nat}
    {display : MicrostructureConfigError → String} {bundle : ScenarioBundle} :
    verifyBundleMicrostructure maxGuaranteedExactNotional display bundle = .ok () ↔
      bundle.microstructure.validate maxGuaranteedExactNotional = .ok () ∧
        bundle.microstructure.fingerprint = bundle.manifest.microstructureFingerprint := by
  unfold verifyBundleMicrostructure
  dsimp only
  split
  next error refused => exact iff_of_false nofun fun both => nomatch refused.symm.trans both.1
  next accepted =>
    split
    next unlike => exact iff_of_false nofun fun both => unlike both.2
    next same => exact iff_of_true rfl ⟨accepted, not_not.1 same⟩

/-- The fingerprint, and with it the gate, tells a carried microstructure from a recorded one unless the two collide. -/
theorem gate_tells_iff (U : Upstream) {maxGuaranteedExactNotional : FeeSchedule → Nat}
    (display : MicrostructureConfigError → String) {carried recorded : ResolvedMicrostructure}
    (accepted : carried.validate maxGuaranteedExactNotional = .ok ())
    (valid : recorded.validate maxGuaranteedExactNotional = .ok ()) :
    ((carried.fingerprint = recorded.fingerprint → SameBehaviour U carried recorded) ↔ ¬Colliding U carried recorded) ∧
      ∀ bundle : ScenarioBundle, bundle.microstructure = carried →
        bundle.manifest.microstructureFingerprint = recorded.fingerprint →
          ((verifyBundleMicrostructure maxGuaranteedExactNotional display bundle = .ok () →
            SameBehaviour U carried recorded) ↔ ¬Colliding U carried recorded) := by
  have tells := fingerprint_tells_iff U (validate_latency accepted) (validate_latency valid)
  refine ⟨tells, ?_⟩
  rintro bundle rfl stamped
  rw [verifyBundleMicrostructure_ok_iff, stamped, ← tells]
  exact ⟨fun gate same => gate ⟨accepted, same⟩, fun same both => same both.2⟩

/-- A default venue whose latency spreads around eleven days and a half. -/
def spread (sigma : Rat) : ResolvedMicrostructure := ⟨.default, .lognormal 1000000000000 (.finite sigma)⟩

theorem spread_valid {sigma : Rat} (positive : 0 ≤ sigma) : (spread sigma).validate (fun _ => 2 ^ 64) = .ok () := by
  have checked : checkSigma (.finite sigma) = .ok (.finite sigma) := if_neg (not_lt.2 positive)
  have drawn : (spread sigma).latency.validate = .ok () := by
    unfold spread LatencyConfig.validate
    dsimp only
    rw [checked]
    rfl
  have standard : (⟨.default, .disabled⟩ : ResolvedMicrostructure).validate (fun _ => 2 ^ 64) = .ok () := rfl
  unfold ResolvedMicrostructure.validate at standard ⊢
  rw [drawn]
  exact standard

/-- Of the two spreads one is twice the other. -/
theorem gate_tells_iff_spread :
    ((spread (1 / 4194304)).fingerprint = (spread (1 / 2097152)).fingerprint →
        SameBehaviour referenceUpstream (spread (1 / 4194304)) (spread (1 / 2097152))) ↔
      ¬Colliding referenceUpstream (spread (1 / 4194304)) (spread (1 / 2097152)) :=
  (gate_tells_iff referenceUpstream (fun _ => "rejected") (spread_valid (by norm_num)) (spread_valid (by norm_num))).1

/-- The two spreads have one fingerprint, so the gate lets either pass for the other. -/
theorem spreads_pass :
    let carried := spread (1 / 4194304)
    let recorded := spread (1 / 2097152)
    carried.validate (fun _ => 2 ^ 64) = .ok () ∧ recorded.validate (fun _ => 2 ^ 64) = .ok () ∧
      carried.fingerprint = recorded.fingerprint ∧ ¬SameBehaviour referenceUpstream carried recorded ∧
        verifyBundleMicrostructure (fun _ => 2 ^ 64) (fun _ => "rejected")
          ⟨scenarioBundleSchema, ⟨recorded.fingerprint, .current⟩, carried, []⟩ = .ok () := by
  intro carried recorded
  have accepted : carried.validate (fun _ => 2 ^ 64) = .ok () := spread_valid (by norm_num)
  have same : carried.fingerprint = recorded.fingerprint := by decide +kernel
  refine ⟨accepted, spread_valid (by norm_num), same, fun alike => ?_, verifyBundleMicrostructure_ok_iff.2 ⟨accepted, same⟩⟩
  have latency := alike.latency
  revert latency
  decide +kernel

/-- Of microstructures whose names and places are plain, the gate lets none pass for another. -/
theorem gate_faithful (U : Upstream) {maxGuaranteedExactNotional : FeeSchedule → Nat} {display : MicrostructureConfigError → String}
    {bundle : ScenarioBundle} {recorded : ResolvedMicrostructure} (plain : PlainText bundle.microstructure)
    (ordinary : PlainText recorded) (valid : recorded.validate maxGuaranteedExactNotional = .ok ())
    (stamped : bundle.manifest.microstructureFingerprint = recorded.fingerprint)
    (admitted : verifyBundleMicrostructure maxGuaranteedExactNotional display bundle = .ok ()) :
    SameBehaviour U bundle.microstructure recorded := by
  obtain ⟨accepted, same⟩ := verifyBundleMicrostructure_ok_iff.1 admitted
  have tells := fingerprint_tells_iff U (validate_latency accepted) (validate_latency valid)
  exact tells.2 (plain.not_colliding ordinary) (same.trans stamped)

theorem quarter_faithful :
    let bundle : ScenarioBundle := ⟨scenarioBundleSchema, ⟨(spread (1 / 4)).fingerprint, .current⟩, spread (1 / 4), []⟩
    verifyBundleMicrostructure (fun _ => 2 ^ 64) (fun _ => "rejected") bundle = .ok () ∧
      SameBehaviour referenceUpstream bundle.microstructure (spread (1 / 4)) := by
  intro bundle
  have valid : (spread (1 / 4)).validate (fun _ => 2 ^ 64) = .ok () := spread_valid (by norm_num)
  have plain : PlainText (spread (1 / 4)) := ⟨by decide +kernel, by decide +kernel, by decide +kernel⟩
  have admitted : verifyBundleMicrostructure (fun _ => 2 ^ 64) (fun _ => "rejected") bundle = .ok () :=
    verifyBundleMicrostructure_ok_iff.2 ⟨valid, rfl⟩
  exact ⟨admitted, gate_faithful referenceUpstream plain plain valid rfl admitted⟩

end Fauxchange.Simulation
