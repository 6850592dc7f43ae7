import Fauxchange.Exchange.Envelope
import Fauxchange.Lib.LastWrite

/-! The runtime configuration of the market maker, and the sequenced controls that change it. -/

namespace Fauxchange.MarketMaker
open Lib Exchange

/-- The kill switch and the three multipliers, kept as rationals. -/
@[ext] structure MarketMakerConfig where
  enabled : Bool
  spreadMultiplier : Rat
  sizeScalar : Rat
  directionalSkew : Rat
  deriving DecidableEq, Repr

def MarketMakerConfig.default : MarketMakerConfig := ⟨true, 1, 1, 0⟩

/-- The `f64` nearest to 0.1. -/
def spreadMultiplierMin : Rat := 3602879701896397 / 36028797018963968
def spreadMultiplierMax : Rat := 10
def sizeScalarMin : Rat := 0
def sizeScalarMax : Rat := 1
def directionalSkewMin : Rat := -1
def directionalSkewMax : Rat := 1

/-- A value within its range. The text of a refusal only goes to the log. -/
def validateControlValue (value min max : Rat) : Option Rat :=
  if min ≤ value ∧ value ≤ max then some value else none

/-- A value out of range leaves the knob as it is. -/
def applyKnob (slot value min max : Rat) : Rat := (validateControlValue value min max).getD slot

namespace MarketMakerConfig
variable (config : MarketMakerConfig)

def applySequencedControl (knobs : MarketMakerControlKnobs) : MarketMakerConfig where
  enabled := knobs.enabled.getD config.enabled
  spreadMultiplier := match knobs.spreadMultiplier with
    | none => config.spreadMultiplier
    | some value => applyKnob config.spreadMultiplier value spreadMultiplierMin spreadMultiplierMax
  sizeScalar := match knobs.sizeScalar with
    | none => config.sizeScalar
    | some value => applyKnob config.sizeScalar value sizeScalarMin sizeScalarMax
  directionalSkew := match knobs.directionalSkew with
    | none => config.directionalSkew
    | some value => applyKnob config.directionalSkew value directionalSkewMin directionalSkewMax

end MarketMakerConfig

/-- What a control sets a multiplier to: nothing where it is absent or out of range. -/
def knobSetting (knob : MarketMakerControlKnobs → Option Rat) (min max : Rat) (knobs : MarketMakerControlKnobs) :
    Option Rat :=
  (knob knobs).bind fun value => validateControlValue value min max

def spreadSetting : MarketMakerControlKnobs → Option Rat :=
  knobSetting (·.spreadMultiplier) spreadMultiplierMin spreadMultiplierMax

def sizeSetting : MarketMakerControlKnobs → Option Rat := knobSetting (·.sizeScalar) sizeScalarMin sizeScalarMax

def skewSetting : MarketMakerControlKnobs → Option Rat :=
  knobSetting (·.directionalSkew) directionalSkewMin directionalSkewMax

section Settings
variable (config : MarketMakerConfig) (knobs : MarketMakerControlKnobs)

theorem applySequencedControl_enabled :
    (config.applySequencedControl knobs).enabled = knobs.enabled.getD config.enabled := rfl

theorem applySequencedControl_spread : (config.applySequencedControl knobs).spreadMultiplier =
    (spreadSetting knobs).getD config.spreadMultiplier := by
  cases given : knobs.spreadMultiplier with
  | none => simp [MarketMakerConfig.applySequencedControl, spreadSetting, knobSetting, given]
  | some value => simp [MarketMakerConfig.applySequencedControl, spreadSetting, knobSetting, applyKnob, given]

theorem applySequencedControl_size : (config.applySequencedControl knobs).sizeScalar =
    (sizeSetting knobs).getD config.sizeScalar := by
  cases given : knobs.sizeScalar with
  | none => simp [MarketMakerConfig.applySequencedControl, sizeSetting, knobSetting, given]
  | some value => simp [MarketMakerConfig.applySequencedControl, sizeSetting, knobSetting, applyKnob, given]

theorem applySequencedControl_skew : (config.applySequencedControl knobs).directionalSkew =
    (skewSetting knobs).getD config.directionalSkew := by
  cases given : knobs.directionalSkew with
  | none => simp [MarketMakerConfig.applySequencedControl, skewSetting, knobSetting, given]
  | some value => simp [MarketMakerConfig.applySequencedControl, skewSetting, knobSetting, applyKnob, given]

/-- A configuration within its ranges stays within them, whatever the control. -/
structure MarketMakerConfig.Ranged (config : MarketMakerConfig) : Prop where
  spread : spreadMultiplierMin ≤ config.spreadMultiplier ∧ config.spreadMultiplier ≤ spreadMultiplierMax
  size : sizeScalarMin ≤ config.sizeScalar ∧ config.sizeScalar ≤ sizeScalarMax
  skew : directionalSkewMin ≤ config.directionalSkew ∧ config.directionalSkew ≤ directionalSkewMax

variable {config}

theorem getD_knobSetting_ranged {knob : MarketMakerControlKnobs → Option Rat} {min max slot : Rat}
    (ranged : min ≤ slot ∧ slot ≤ max) :
    min ≤ (knobSetting knob min max knobs).getD slot ∧ (knobSetting knob min max knobs).getD slot ≤ max := by
  cases written : knobSetting knob min max knobs with
  | none => exact ranged
  | some value =>
    obtain ⟨raw, -, valid⟩ := Option.bind_eq_some_iff.1 written
    unfold validateControlValue at valid
    split at valid
    next within =>
      cases valid
      exact within
    next => cases valid

theorem MarketMakerConfig.Ranged.applySequencedControl (ranged : config.Ranged) :
    (config.applySequencedControl knobs).Ranged := by
  constructor
  · rw [applySequencedControl_spread]
    exact getD_knobSetting_ranged knobs ranged.spread
  · rw [applySequencedControl_size]
    exact getD_knobSetting_ranged knobs ranged.size
  · rw [applySequencedControl_skew]
    exact getD_knobSetting_ranged knobs ranged.skew

theorem MarketMakerConfig.default_ranged : MarketMakerConfig.default.Ranged :=
  ⟨by decide +kernel, by decide +kernel, by decide +kernel⟩

end Settings

end Fauxchange.MarketMaker
