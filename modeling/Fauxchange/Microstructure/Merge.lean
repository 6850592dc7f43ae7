import Fauxchange.Exchange.ReferenceBook
import Fauxchange.Lib.TakenInserts
import Fauxchange.Microstructure.Resolve
import Mathlib.Data.List.ReduceOption

/-! The specs of a symbol, knob by knob: the nearest level that sets a knob decides it. -/

namespace Fauxchange.Microstructure
open Lib Exchange

/-- The knobs of the contract specs. -/
inductive SpecKnob where
  | tickSizeCents
  | lotSize
  | minPriceCents
  | maxPriceCents
  | maxOrderQty

def ContractSpecsConfig.knob (config : ContractSpecsConfig) : SpecKnob → Option Nat
  | .tickSizeCents => config.tickSizeCents
  | .lotSize => config.lotSize
  | .minPriceCents => config.minPriceCents
  | .maxPriceCents => config.maxPriceCents
  | .maxOrderQty => config.maxOrderQty

def ResolvedContractSpecs.knob (specs : ResolvedContractSpecs) : SpecKnob → Nat
  | .tickSizeCents => specs.tickSizeCents
  | .lotSize => specs.lotSize
  | .minPriceCents => specs.minPriceCents
  | .maxPriceCents => specs.maxPriceCents
  | .maxOrderQty => specs.maxOrderQty

section Levels
variable (U : Upstream) (file : FileMicrostructure) (instrumentSpecs : Std.ExtTreeMap String ContractSpecsConfig)

/-- A full option symbol; any other name is the name of an underlying. -/
def NamesSymbol (name : String) : Prop := ∃ parsed, U.parse name = .ok parsed

instance (name : String) : Decidable (NamesSymbol U name) :=
  match parses : U.parse name with
  | .ok parsed => isTrue ⟨parsed, parses⟩
  | .error _ => isFalse fun ⟨_, other⟩ => nomatch parses.symm.trans other

def symbolOverride (symbol : Symbol) : Option ContractSpecsConfig :=
  if NamesSymbol U symbol then instrumentSpecs[symbol]? else none

/-- The override of an underlying: a full option symbol has none. -/
def underlyingOverride (underlying : String) : Option ContractSpecsConfig :=
  if NamesSymbol U underlying then none else instrumentSpecs[underlying]?

/-- The override of the underlying that a symbol names. -/
def inheritedOverride (symbol : Symbol) : Option ContractSpecsConfig :=
  match U.parse symbol with
  | .ok parsed => underlyingOverride U instrumentSpecs parsed.underlying
  | .error _ => none

/-- What is set for a symbol, the nearest level first. -/
def levels (symbol : Symbol) : List ContractSpecsConfig :=
  [symbolOverride U instrumentSpecs symbol, inheritedOverride U instrumentSpecs symbol, file.specs].reduceOption

/-- What the nearest level that sets a knob says, or else the baseline. -/
def merged (symbol : Symbol) (knob : SpecKnob) : Nat :=
  ((levels U file instrumentSpecs symbol).findSome? (·.knob knob)).getD (ResolvedContractSpecs.baseline.knob knob)

end Levels

theorem resolveOver_knob {config : ContractSpecsConfig} {base resolved : ResolvedContractSpecs}
    (done : config.resolveOver base = .ok resolved) (knob : SpecKnob) :
    resolved.knob knob = (config.knob knob).getD (base.knob knob) := by
  obtain ⟨⟨⟩, -, same⟩ := except_bind_ok done
  cases same
  cases knob <;> rfl

section Passes
variable {U : Upstream} {maxGuaranteedExactNotional : FeeSchedule → Nat} {fees : FeeConfig}
  {defaultSpecs : ResolvedContractSpecs} {perUnderlying : Std.ExtTreeMap String ResolvedContractSpecs}

theorem resolveProved_knob {specs : ContractSpecsConfig} {base resolved : ResolvedContractSpecs}
    (done : resolveProved maxGuaranteedExactNotional fees specs base = .ok resolved) (knob : SpecKnob) :
    resolved.knob knob = (specs.knob knob).getD (base.knob knob) := by
  obtain ⟨shaped, inherited, rest⟩ := except_bind_ok done
  obtain ⟨⟨⟩, -, same⟩ := except_bind_ok rest
  cases same
  exact resolveOver_knob inherited knob

theorem underlying_inserting : Inserting (fun name => ¬NamesSymbol U name)
    (fun entry resolved => resolveProved maxGuaranteedExactNotional fees entry.2 defaultSpecs = .ok resolved)
    (resolveUnderlying U maxGuaranteedExactNotional fees defaultSpecs) := by
  constructor
  · intro map entry next done named
    obtain ⟨parsed, parses⟩ := not_not.1 named
    unfold resolveUnderlying at done
    rw [parses] at done
    exact (Except.ok.inj done).symm
  · intro map entry next done unnamed
    unfold resolveUnderlying at done
    split at done
    next parsed parses => exact absurd ⟨parsed, parses⟩ unnamed
    next =>
      obtain ⟨resolved, proved, same⟩ := except_bind_ok done
      exact ⟨resolved, proved, (Except.ok.inj same).symm⟩

theorem symbol_inserting : Inserting (NamesSymbol U)
    (fun entry resolved => ∃ parsed, U.parse entry.1 = .ok parsed ∧
      resolveProved maxGuaranteedExactNotional fees entry.2 (perUnderlying[parsed.underlying]?.getD defaultSpecs) = .ok resolved)
    (resolveSymbol U maxGuaranteedExactNotional fees defaultSpecs perUnderlying) := by
  constructor
  · intro map entry next done unnamed
    unfold resolveSymbol at done
    split at done
    next => exact (Except.ok.inj done).symm
    next parsed parses => exact absurd ⟨parsed, parses⟩ unnamed
  · rintro map entry next done ⟨parsed, parses⟩
    unfold resolveSymbol at done
    rw [parses] at done
    obtain ⟨resolved, proved, same⟩ := except_bind_ok done
    exact ⟨resolved, ⟨parsed, parses, proved⟩, (Except.ok.inj same).symm⟩

end Passes

section Merging
variable {U : Upstream} {maxGuaranteedExactNotional : FeeSchedule → Nat} {file : FileMicrostructure}
  {instrumentSpecs : Std.ExtTreeMap String ContractSpecsConfig} {resolved : ResolvedMicrostructure}

theorem merged_eq (symbol : Symbol) (knob : SpecKnob) :
    merged U file instrumentSpecs symbol knob =
      (((symbolOverride U instrumentSpecs symbol).bind (·.knob knob)).or
        (((inheritedOverride U instrumentSpecs symbol).bind (·.knob knob)).or (file.specs.bind (·.knob knob)))).getD
          (ResolvedContractSpecs.baseline.knob knob) := by
  have first : ∀ (level : Option ContractSpecsConfig) (rest : List (Option ContractSpecsConfig)),
      (level :: rest).reduceOption.findSome? (·.knob knob) =
        (level.bind (·.knob knob)).or (rest.reduceOption.findSome? (·.knob knob)) := by
    intro level rest
    cases level with
    | none => rfl
    | some config =>
      rw [List.reduceOption_cons_of_some, List.findSome?_cons, Option.bind_some]
      cases config.knob knob <;> rfl
  unfold merged levels
  rw [first, first, first, List.reduceOption_nil, List.findSome?_nil, Option.or_none]

/-- What the resolution leaves under each name. -/
structure Resolution (U : Upstream) (file : FileMicrostructure)
    (instrumentSpecs : Std.ExtTreeMap String ContractSpecsConfig) (config : MicrostructureConfig) : Prop where
  default : ∀ knob, config.defaultSpecs.knob knob =
    (file.specs.bind (·.knob knob)).getD (ResolvedContractSpecs.baseline.knob knob)
  underlying : ∀ name knob, (config.specsFor name).knob knob =
    ((underlyingOverride U instrumentSpecs name).bind (·.knob knob)).getD (config.defaultSpecs.knob knob)
  symbol : ∀ name parsed, U.parse name = .ok parsed →
    match config.perSymbol[name]? with
    | some specs => ∀ knob, specs.knob knob =
      ((symbolOverride U instrumentSpecs name).bind (·.knob knob)).getD ((config.specsFor parsed.underlying).knob knob)
    | none => symbolOverride U instrumentSpecs name = none
  other : ∀ name, ¬NamesSymbol U name → config.perSymbol[name]? = none

theorem resolve_resolution (accepted : resolve U maxGuaranteedExactNotional file instrumentSpecs = .ok resolved) :
    Resolution U file instrumentSpecs resolved.config := by
  obtain ⟨⟨⟩, -, rest⟩ := except_bind_ok accepted
  obtain ⟨latency, -, rest⟩ := except_bind_ok rest
  obtain ⟨defaultSpecs, proved, rest⟩ := except_bind_ok rest
  obtain ⟨perUnderlying, first, rest⟩ := except_bind_ok rest
  obtain ⟨perSymbol, second, rest⟩ := except_bind_ok rest
  cases rest
  constructor
  · intro knob
    refine (resolveProved_knob proved knob).trans ?_
    cases file.specs with
    | none => cases knob <;> rfl
    | some specs => rfl
  · intro name knob
    unfold MicrostructureConfig.specsFor underlyingOverride
    rcases underlying_inserting.read first name with ⟨specs, outcome, unnamed, found, made, read⟩ | ⟨missing, read⟩
    · rw [read, if_neg unnamed, found]
      exact resolveProved_knob made knob
    · rw [read]
      split
      next => rfl
      next unnamed =>
        rw [missing unnamed]
        rfl
  · intro name parsed parses
    have named : NamesSymbol U name := ⟨parsed, parses⟩
    unfold symbolOverride
    rw [if_pos named]
    rcases symbol_inserting.read second name with ⟨specs, outcome, _, found, made, read⟩ | ⟨missing, read⟩
    · rw [read, found]
      intro knob
      obtain ⟨again, sameParse, made⟩ := made
      obtain rfl : parsed = again := Except.ok.inj (parses.symm.trans sameParse)
      exact resolveProved_knob made knob
    · rw [read]
      exact missing named
  · intro name unnamed
    rcases symbol_inserting.read second name with ⟨_, _, named, _⟩ | ⟨_, read⟩
    · exact absurd named unnamed
    · exact read

/-- The lookup agrees with the merge. -/
theorem Resolution.merges {config : MicrostructureConfig} (resolution : Resolution U file instrumentSpecs config)
    (symbol : Symbol) (knob : SpecKnob) :
    (config.specsForSymbol U symbol).knob knob = merged U file instrumentSpecs symbol knob := by
  rw [merged_eq]
  unfold MicrostructureConfig.specsForSymbol inheritedOverride
  cases parses : U.parse symbol with
  | error error =>
    have unnamed : ¬NamesSymbol U symbol := fun ⟨parsed, other⟩ => nomatch parses.symm.trans other
    rw [resolution.other symbol unnamed]
    unfold symbolOverride
    rw [if_neg unnamed]
    exact resolution.default knob
  | ok parsed =>
    have below := resolution.underlying parsed.underlying knob
    rw [resolution.default] at below
    have read := resolution.symbol symbol parsed parses
    cases found : config.perSymbol[symbol]? with
    | some specs =>
      rw [found] at read
      dsimp only
      rw [read knob, below, Option.getD_or, Option.getD_or]
    | none =>
      rw [found] at read
      dsimp only
      rw [read, below, Option.bind_none, Option.none_or, Option.getD_or]

theorem checkSpecs_nonzero {fees : FeeConfig} {specs : ResolvedContractSpecs}
    (checked : checkSpecs maxGuaranteedExactNotional fees specs = .ok ()) : specs.tickSizeCents ≠ 0 ∧ specs.lotSize ≠ 0 := by
  obtain ⟨⟨⟩, validated, -⟩ := except_bind_ok checked
  obtain ⟨⟨⟩, nonzero, -⟩ := except_bind_ok validated
  rw [forM_ok_iff] at nonzero
  have knob : ∀ knob : String × Nat, ResolvedContractSpecs.checkKnobNotZero knob = .ok () → knob.2 ≠ 0 := by
    intro knob checked zero
    unfold ResolvedContractSpecs.checkKnobNotZero at checked
    rw [if_pos zero] at checked
    cases checked
  exact ⟨knob _ (nonzero ("tick_size_cents", specs.tickSizeCents) (by simp)),
    knob _ (nonzero ("lot_size", specs.lotSize) (by simp))⟩

theorem admit_ok_iff {bounds : PriceBounds} {price : Nat} :
    bounds.admit price = .ok () ↔ bounds.min ≤ price ∧ price ≤ bounds.max := by
  unfold PriceBounds.admit
  split
  next below => exact iff_of_false nofun fun within => Nat.not_le.2 below within.1
  next notBelow =>
    split
    next above => exact iff_of_false nofun fun within => Nat.not_le.2 above within.2
    next notAbove => exact iff_of_true rfl ⟨Nat.not_lt.1 notBelow, Nat.not_lt.1 notAbove⟩

/-- What an order of a symbol must be, by the merged knobs. -/
structure Admissible (knob : SpecKnob → Nat) (limitPrice : Option Nat) (quantity : Nat) : Prop where
  banded : ∀ price, limitPrice = some price → knob .minPriceCents ≤ price ∧ price ≤ knob .maxPriceCents
  onTick : ∀ price, limitPrice = some price → knob .tickSizeCents ∣ price
  onLot : knob .lotSize ∣ quantity
  atMost : quantity ≤ knob .maxOrderQty

theorem admitOrder_admissible {fees : FeeConfig} {specs : ResolvedContractSpecs}
    (checked : checkSpecs maxGuaranteedExactNotional fees specs = .ok ()) (limitPrice : Option Nat) (quantity : Nat) :
    specs.admitOrder limitPrice quantity = .ok () ↔ Admissible specs.knob limitPrice quantity := by
  obtain ⟨tick, lot⟩ := checkSpecs_nonzero checked
  rw [ResolvedContractSpecs.admitOrder_ok_iff]
  unfold ResolvedContractSpecs.Shaped
  simp only [admit_ok_iff, tick, lot, or_false]
  constructor
  · rintro ⟨banded, onTick, onLot, atMost⟩
    exact ⟨banded, onTick, onLot, atMost⟩
  · rintro ⟨banded, onTick, onLot, atMost⟩
    exact ⟨banded, onTick, onLot, atMost⟩

/-- What is resolved passes the checks again; the knobs of each symbol are those of its levels merged; and an order is
admitted exactly by them. -/
theorem resolve_merged (accepted : resolve U maxGuaranteedExactNotional file instrumentSpecs = .ok resolved) :
    resolved.validate maxGuaranteedExactNotional = .ok () ∧ ∀ symbol,
      (∀ knob, (resolved.config.specsForSymbol U symbol).knob knob = merged U file instrumentSpecs symbol knob) ∧
        ∀ limitPrice quantity, resolved.config.admitOrderForSymbol U symbol limitPrice quantity = .ok () ↔
          Admissible (merged U file instrumentSpecs symbol) limitPrice quantity := by
  have validated := resolve_validate accepted
  refine ⟨validated, fun symbol => ?_⟩
  have merges := (resolve_resolution accepted).merges symbol
  refine ⟨merges, fun limitPrice quantity => ?_⟩
  rw [← funext merges]
  exact admitOrder_admissible (specsForSymbol_checked validated symbol) limitPrice quantity

end Merging

/-- A venue with a tick, an underlying with a cap and a lot, and a contract with a lot of its own. -/
def tieredFile : FileMicrostructure := ⟨some ⟨-10, 35⟩, none, some ⟨some 5, none, none, none, none⟩, none⟩

def tieredSpecs : Std.ExtTreeMap String ContractSpecsConfig :=
  (Std.ExtTreeMap.empty.insert "BTC" ⟨none, some 4, none, some 90000, none⟩).insert "BTC-20351231-50000-C"
    ⟨none, some 2, none, none, none⟩

def tiered : ResolvedMicrostructure where
  config := ⟨⟨-10, 35⟩, .none, ⟨5, 1, 1, 100000000, 1000000⟩,
    Std.ExtTreeMap.empty.insert "BTC" ⟨5, 4, 1, 90000, 1000000⟩,
    Std.ExtTreeMap.empty.insert "BTC-20351231-50000-C" ⟨5, 2, 1, 90000, 1000000⟩⟩
  latency := .disabled

/-- An order of the contract is held to the venue's tick, its own lot and the cap of its underlying. -/
theorem resolve_merged_tiered :
    let specs := tiered.config.specsForSymbol referenceUpstream "BTC-20351231-50000-C"
    tiered.validate (fun _ => 2 ^ 64) = .ok () ∧ specs.knob .tickSizeCents = 5 ∧ specs.knob .lotSize = 2 ∧
      specs.knob .maxPriceCents = 90000 ∧
        tiered.config.admitOrderForSymbol referenceUpstream "BTC-20351231-50000-C" (some 89995) 6 = .ok () := by
  have accepted : resolve referenceUpstream (fun _ => 2 ^ 64) tieredFile tieredSpecs = .ok tiered := rfl
  obtain ⟨validated, symbols⟩ := resolve_merged accepted
  obtain ⟨merges, admits⟩ := symbols "BTC-20351231-50000-C"
  refine ⟨validated, merges .tickSizeCents, merges .lotSize, merges .maxPriceCents, (admits _ _).2 ⟨?_, ?_, ?_, ?_⟩⟩
  · rintro price ⟨⟩
    decide
  · rintro price ⟨⟩
    decide
  · decide
  · decide

end Fauxchange.Microstructure
