import Fauxchange.Lib.CheckedDigits
import Fauxchange.Lib.LineText
import Fauxchange.Microstructure.Resolve
import Mathlib.Algebra.Order.Field.Basic
import Mathlib.Algebra.Order.Ring.Rat
import Mathlib.Tactic.NormNum

/-! The fingerprint of a microstructure: one line of text that stands for it in a run's manifest, and what the text
determines. -/

namespace Fauxchange.Microstructure
open Lib Exchange

def defaultMicrostructureFingerprint : String := "microstructure.default.v1"

def stpToken : STPMode → String
  | .none => "off"
  | .cancelTaker => "cancel_taker"
  | .cancelMaker => "cancel_maker"
  | .cancelBoth => "cancel_both"

def specsFragment (specs : ResolvedContractSpecs) : String :=
  "t" ++ toString specs.tickSizeCents ++ "l" ++ toString specs.lotSize ++ "min" ++ toString specs.minPriceCents ++
    "max" ++ toString specs.maxPriceCents ++ "q" ++ toString specs.maxOrderQty

/-- A number to six decimal places, in units of the last, a tie to the even one. -/
def sixPlaces (value : Rat) : Nat :=
  let units := (value * 1000000).floor
  let rest := value * 1000000 - units
  (if 1 / 2 < rest ∨ rest = 1 / 2 ∧ units % 2 = 1 then units + 1 else units).toNat

/-- `{:.6}` -/
def fmtSigma : F64 → String
  | .finite value =>
    let places := sixPlaces (if value < 0 then -value else value)
    (if value < 0 then "-" else "") ++ toString (places / 1000000) ++ "." ++ .ofList (padded 6 (places % 1000000))
  | .infinite negative => if negative then "-inf" else "inf"
  | .nan => "NaN"

def LatencyConfig.fingerprintFragment : LatencyConfig → String
  | .disabled => ""
  | .fixed us => ";latency=fixed(us" ++ toString us ++ ")"
  | .uniform minUs maxUs => ";latency=uniform(min" ++ toString minUs ++ "max" ++ toString maxUs ++ ")"
  | .normal meanUs sigma => ";latency=normal(mean" ++ toString meanUs ++ "sigma" ++ fmtSigma sigma ++ ")"
  | .lognormal medianUs sigma => ";latency=lognormal(median" ++ toString medianUs ++ "sigma" ++ fmtSigma sigma ++ ")"

namespace ResolvedMicrostructure

/-- `*self == Self::default()` -/
def isDefault (resolved : ResolvedMicrostructure) : Bool :=
  resolved.config.fees = .default ∧ resolved.config.stp = .none ∧ resolved.config.defaultSpecs = .baseline ∧
    resolved.config.perUnderlying.isEmpty ∧ resolved.config.perSymbol.isEmpty ∧ resolved.latency = .disabled

def fingerprint (resolved : ResolvedMicrostructure) : String :=
  if resolved.isDefault then defaultMicrostructureFingerprint
  else
    let config := resolved.config
    let out := "microstructure.v1;fees=m" ++ toString config.fees.makerBps ++ "/t" ++ toString config.fees.takerBps ++
      ";stp=" ++ stpToken config.stp ++ ";specs.*=" ++ specsFragment config.defaultSpecs
    let out := config.perUnderlying.toList.foldl
      (fun out entry => out ++ (";specs." ++ entry.1 ++ "=" ++ specsFragment entry.2)) out
    let out := config.perSymbol.toList.foldl
      (fun out entry => out ++ (";specs.sym." ++ entry.1 ++ "=" ++ specsFragment entry.2)) out
    out ++ resolved.latency.fingerprintFragment

end ResolvedMicrostructure

section Fields
variable {delimiter : Char} {rest last : List Char}

/-- A number is read up to a character that is no digit. -/
theorem number_inj {value other : Nat} (nondigit : delimiter.isDigit = false)
    (same : (toString value).toList ++ delimiter :: rest = (toString other).toList ++ delimiter :: last) :
    value = other ∧ rest = last := by
  obtain ⟨numbers, rests⟩ := field_inj (toList_toString_free nondigit value) (toList_toString_free nondigit other)
    (by simp) (by simp) same
  exact ⟨toString_toList_inj numbers, (List.cons.inj rests).2⟩

theorem toList_toString_int (value : Int) :
    (toString value).toList = (if value < 0 then ['-'] else []) ++ (toString value.natAbs).toList := by
  cases value with
  | ofNat value =>
    have unsigned : ¬Int.ofNat value < 0 := Int.not_lt.2 (Int.natCast_nonneg value)
    rw [if_neg unsigned]
    rfl
  | negSucc value =>
    rw [if_pos (Int.negSucc_lt_zero value)]
    exact String.toList_append

theorem integer_inj {value other : Int} (nondigit : delimiter.isDigit = false) (unsigned : delimiter ≠ '-')
    (same : (toString value).toList ++ delimiter :: rest = (toString other).toList ++ delimiter :: last) :
    value = other ∧ rest = last := by
  have free : ∀ value : Int, delimiter ∉ (toString value).toList := by
    intro value member
    rw [toList_toString_int] at member
    rcases List.mem_append.1 member with sign | digit
    · split at sign
      · exact unsigned (List.mem_singleton.1 sign)
      · cases sign
    · exact toList_toString_free nondigit _ digit
  obtain ⟨numbers, rests⟩ := field_inj (free value) (free other) (by simp) (by simp) same
  refine ⟨?_, (List.cons.inj rests).2⟩
  have minus : ∀ value : Nat, '-' ∉ (toString value).toList := toList_toString_free (by decide)
  rw [toList_toString_int, toList_toString_int] at numbers
  split at numbers
  · split at numbers
    · have magnitudes := toString_toList_inj (List.append_cancel_left numbers)
      omega
    · refine absurd ?_ (minus other.natAbs)
      change '-' ∈ [] ++ (toString other.natAbs).toList
      rw [← numbers]
      exact List.mem_cons_self
  · split at numbers
    · refine absurd ?_ (minus value.natAbs)
      change '-' ∈ [] ++ (toString value.natAbs).toList
      rw [numbers]
      exact List.mem_cons_self
    · have magnitudes := toString_toList_inj numbers
      omega

end Fields

theorem isDigit_of_mem {value : Nat} {character : Char} (member : character ∈ (toString value).toList) :
    character.isDigit = true := by
  by_contra nondigit
  exact toList_toString_free (Bool.eq_false_iff.2 nondigit) value member

theorem toList_specsFragment (specs : ResolvedContractSpecs) : (specsFragment specs).toList =
    't' :: ((toString specs.tickSizeCents).toList ++ 'l' :: ((toString specs.lotSize).toList ++ 'm' :: 'i' :: 'n' ::
      ((toString specs.minPriceCents).toList ++ 'm' :: 'a' :: 'x' :: ((toString specs.maxPriceCents).toList ++ 'q' ::
        (toString specs.maxOrderQty).toList)))) := by
  unfold specsFragment
  simp only [String.toList_append, List.append_assoc]
  rfl

theorem mem_specsFragment {specs : ResolvedContractSpecs} {character : Char}
    (member : character ∈ (specsFragment specs).toList) :
    character.isDigit = true ∨ character ∈ ['t', 'l', 'm', 'i', 'n', 'a', 'x', 'q'] := by
  rw [toList_specsFragment] at member
  simp only [List.mem_cons, List.mem_append] at member ⊢
  have digits : ∀ value : Nat, character ∈ (toString value).toList → character.isDigit = true := fun _ => isDigit_of_mem
  grind

theorem specsFragment_inj {specs other : ResolvedContractSpecs}
    (same : (specsFragment specs).toList = (specsFragment other).toList) : specs = other := by
  rw [toList_specsFragment, toList_specsFragment] at same
  obtain ⟨ticks, same⟩ := number_inj (by decide) (List.cons.inj same).2
  obtain ⟨lots, same⟩ := number_inj (by decide) same
  obtain ⟨floors, same⟩ := number_inj (by decide) (List.cons.inj (List.cons.inj same).2).2
  obtain ⟨caps, same⟩ := number_inj (by decide) (List.cons.inj (List.cons.inj same).2).2
  have sizes := toString_toList_inj same
  cases specs
  cases other
  simp_all

/-- How the overrides are written. -/
def specsLines : LineFormat Char ResolvedContractSpecs where
  head := [';', 's', 'p', 'e', 'c', 's', '.']
  mark := '='
  encode specs := (specsFragment specs).toList

theorem specsLines_mark : specsLines.mark = '=' := rfl

theorem specsLines_encode (specs : ResolvedContractSpecs) : specsLines.encode specs = (specsFragment specs).toList := by
  unfold specsLines
  dsimp only

theorem specsLines_free {character : Char} (nondigit : character.isDigit = false)
    (other : character ∉ ['t', 'l', 'm', 'i', 'n', 'a', 'x', 'q']) (specs : ResolvedContractSpecs) :
    character ∉ (specsFragment specs).toList := by
  intro member
  rcases mem_specsFragment member with digit | letter
  · rw [nondigit] at digit
    cases digit
  · exact other letter

theorem specsLines_sound : specsLines.Sound := by
  have free : ∀ specs, '=' ∉ (specsFragment specs).toList := specsLines_free (by decide) (by decide)
  have fresh : ∀ specs, ';' ∉ (specsFragment specs).toList := specsLines_free (by decide) (by decide)
  unfold specsLines
  constructor <;> dsimp only
  · intro specs other same
    dsimp only at same
    exact specsFragment_inj same
  · exact ⟨_, _, rfl, fresh⟩
  · exact free
  · decide

/-- A sigma as its text shows it. -/
def F64.shown : F64 → F64
  | .finite value => .finite (sixPlaces value / 1000000)
  | other => other

/-- A distribution as its text shows it. -/
def LatencyConfig.shown : LatencyConfig → LatencyConfig
  | .normal meanUs sigma => .normal meanUs sigma.shown
  | .lognormal medianUs sigma => .lognormal medianUs sigma.shown
  | other => other

section Latency
variable {value other : Rat}

/-- A sigma that has passed its check. -/
def SigmaChecked (sigma : F64) : Prop := ∃ value, 0 ≤ value ∧ sigma = .finite value

theorem checkSigma_checked {sigma : F64} (accepted : (checkSigma sigma).map (fun _ => ()) = .ok ()) :
    SigmaChecked sigma := by
  unfold checkSigma at accepted
  split at accepted
  next value =>
    split at accepted
    next => cases accepted
    next positive => exact ⟨value, not_lt.1 positive, rfl⟩
  next => cases accepted

theorem toList_fmtSigma (positive : 0 ≤ value) : (fmtSigma (.finite value)).toList =
    (toString (sixPlaces value / 1000000)).toList ++ '.' :: padded 6 (sixPlaces value % 1000000) := by
  unfold fmtSigma
  dsimp only
  rw [if_neg (not_lt.2 positive), if_neg (not_lt.2 positive)]
  simp only [String.toList_append, String.toList_ofList, List.append_assoc]
  rfl

theorem mem_fmtSigma (positive : 0 ≤ value) {character : Char} (member : character ∈ (fmtSigma (.finite value)).toList) :
    character.isDigit = true ∨ character = '.' := by
  rw [toList_fmtSigma positive] at member
  rcases List.mem_append.1 member with whole | places
  · exact Or.inl (isDigit_of_mem whole)
  · rcases List.mem_cons.1 places with point | places
    · exact Or.inr point
    · exact Or.inl (List.all_eq_true.1 all_isDigit_padded character places)

/-- A sigma is read up to six places. -/
theorem fmtSigma_inj (positive : 0 ≤ value) (others : 0 ≤ other)
    (same : (fmtSigma (.finite value)).toList = (fmtSigma (.finite other)).toList) :
    F64.shown (.finite value) = F64.shown (.finite other) := by
  rw [toList_fmtSigma positive, toList_fmtSigma others] at same
  obtain ⟨wholes, places⟩ := number_inj (by decide) same
  have parts : sixPlaces value % 1000000 = sixPlaces other % 1000000 := by
    rw [← @ofDigitChars_padded (sixPlaces value % 1000000) 6, places, ofDigitChars_padded]
  have units : sixPlaces value = sixPlaces other := by omega
  unfold F64.shown
  dsimp only
  rw [units]

theorem fmtSigma_of_shown (positive : 0 ≤ value) (others : 0 ≤ other)
    (same : F64.shown (.finite value) = F64.shown (.finite other)) :
    (fmtSigma (.finite value)).toList = (fmtSigma (.finite other)).toList := by
  have units : sixPlaces value = sixPlaces other := by
    have quotients := F64.finite.inj same
    rw [div_left_inj' (by norm_num)] at quotients
    exact_mod_cast quotients
  rw [toList_fmtSigma positive, toList_fmtSigma others, units]

/-- What stands after `latency=`. -/
def LatencyConfig.parameters : LatencyConfig → List Char
  | .disabled => []
  | .fixed us => "fixed(us".toList ++ ((toString us).toList ++ [')'])
  | .uniform minUs maxUs => "uniform(min".toList ++ ((toString minUs).toList ++ 'm' :: 'a' :: 'x' ::
      ((toString maxUs).toList ++ [')']))
  | .normal meanUs sigma => "normal(mean".toList ++ ((toString meanUs).toList ++ 's' :: 'i' :: 'g' :: 'm' :: 'a' ::
      ((fmtSigma sigma).toList ++ [')']))
  | .lognormal medianUs sigma => "lognormal(median".toList ++ ((toString medianUs).toList ++ 's' :: 'i' :: 'g' :: 'm' ::
      'a' :: ((fmtSigma sigma).toList ++ [')']))

theorem toList_fingerprintFragment (latency : LatencyConfig) : latency.fingerprintFragment.toList =
    if latency = .disabled then [] else ";latency".toList ++ '=' :: latency.parameters := by
  by_cases off : latency = .disabled
  · subst off
    rfl
  · rw [if_neg off]
    unfold LatencyConfig.fingerprintFragment LatencyConfig.parameters
    cases latency with
    | disabled => exact absurd rfl off
    | _ =>
      simp only [String.toList_append, List.append_assoc]
      rfl

theorem parameters_free {latency : LatencyConfig} (accepted : latency.validate = .ok ()) :
    '=' ∉ latency.parameters := by
  have number : ∀ value : Nat, '=' ∉ (toString value).toList := toList_toString_free (by decide)
  have decimal : ∀ sigma, (checkSigma sigma).map (fun _ => ()) = .ok () → '=' ∉ (fmtSigma sigma).toList := by
    intro sigma checked member
    obtain ⟨value, positive, rfl⟩ := checkSigma_checked checked
    rcases mem_fmtSigma positive member with digit | point
    · cases digit
    · revert point
      decide
  unfold LatencyConfig.parameters
  cases latency with
  | disabled => exact List.not_mem_nil
  | fixed us =>
    simp only [List.mem_append, not_or]
    exact ⟨by decide, number us, by decide⟩
  | uniform minUs maxUs =>
    simp only [List.mem_append, List.mem_cons, not_or]
    exact ⟨by decide, number minUs, by decide, by decide, by decide, number maxUs, by decide⟩
  | normal meanUs sigma =>
    simp only [List.mem_append, List.mem_cons, not_or]
    exact ⟨by decide, number meanUs, by decide, by decide, by decide, by decide, by decide, decimal sigma accepted,
      by decide⟩
  | lognormal medianUs sigma =>
    simp only [List.mem_append, List.mem_cons, not_or]
    exact ⟨by decide, number medianUs, by decide, by decide, by decide, by decide, by decide, decimal sigma accepted,
      by decide⟩

theorem parameters_opens {latency : LatencyConfig} (enabled : latency ≠ .disabled) : '(' ∈ latency.parameters := by
  unfold LatencyConfig.parameters
  cases latency with
  | disabled => exact absurd rfl enabled
  | _ => exact List.mem_append_left _ (by decide)

/-- The first letter of the model. -/
def LatencyConfig.initial : LatencyConfig → Option Char
  | .disabled => none
  | .fixed _ => some 'f'
  | .uniform .. => some 'u'
  | .normal .. => some 'n'
  | .lognormal .. => some 'l'

theorem head?_parameters (latency : LatencyConfig) : latency.parameters.head? = latency.initial := by
  cases latency <;> rfl

theorem initial_shown (latency : LatencyConfig) : latency.shown.initial = latency.initial := by
  cases latency <;> rfl

/-- The text of a sigma between the number before it and the closing bracket. -/
theorem sigma_inj {number next : Nat} {sigma other : F64} (checked : (checkSigma sigma).map (fun _ => ()) = .ok ())
    (valid : (checkSigma other).map (fun _ => ()) = .ok ()) :
    (toString number).toList ++ 's' :: 'i' :: 'g' :: 'm' :: 'a' :: ((fmtSigma sigma).toList ++ [')']) =
        (toString next).toList ++ 's' :: 'i' :: 'g' :: 'm' :: 'a' :: ((fmtSigma other).toList ++ [')']) ↔
      number = next ∧ sigma.shown = other.shown := by
  obtain ⟨value, positive, rfl⟩ := checkSigma_checked checked
  obtain ⟨last, others, rfl⟩ := checkSigma_checked valid
  constructor
  · intro same
    obtain ⟨numbers, rest⟩ := number_inj (by decide) same
    simp only [List.cons.injEq, true_and] at rest
    exact ⟨numbers, fmtSigma_inj positive others (List.append_cancel_right rest)⟩
  · rintro ⟨rfl, shown⟩
    rw [fmtSigma_of_shown positive others shown]

/-- The parameters are read back as they are shown. -/
theorem parameters_eq_iff {latency other : LatencyConfig} (accepted : latency.validate = .ok ())
    (valid : other.validate = .ok ()) : latency.parameters = other.parameters ↔ latency.shown = other.shown := by
  by_cases models : latency.initial = other.initial
  · cases latency with
    | disabled =>
      cases other with
      | disabled => exact iff_of_true rfl rfl
      | _ => simp [LatencyConfig.initial] at models
    | fixed us =>
      cases other with
      | fixed next =>
        constructor
        · intro same
          rw [(number_inj (by decide) (List.append_cancel_left same)).1]
        · intro same
          rw [LatencyConfig.fixed.inj same]
      | _ => simp [LatencyConfig.initial] at models
    | uniform minUs maxUs =>
      cases other with
      | uniform low high =>
        constructor
        · intro same
          obtain ⟨lows, rest⟩ := number_inj (by decide) (List.append_cancel_left same)
          simp only [List.cons.injEq, true_and] at rest
          rw [lows, (number_inj (by decide) rest).1]
        · intro same
          obtain ⟨lows, highs⟩ := LatencyConfig.uniform.inj same
          rw [lows, highs]
      | _ => simp [LatencyConfig.initial] at models
    | normal meanUs sigma =>
      cases other with
      | normal next last =>
        refine (List.append_cancel_left_eq _ _ _).to_iff.trans ((sigma_inj accepted valid).trans ?_)
        exact (LatencyConfig.normal.injEq ..).to_iff.symm
      | _ => simp [LatencyConfig.initial] at models
    | lognormal medianUs sigma =>
      cases other with
      | lognormal next last =>
        refine (List.append_cancel_left_eq _ _ _).to_iff.trans ((sigma_inj accepted valid).trans ?_)
        exact (LatencyConfig.lognormal.injEq ..).to_iff.symm
      | _ => simp [LatencyConfig.initial] at models
  · constructor
    · intro same
      have initials := congrArg List.head? same
      rw [head?_parameters, head?_parameters] at initials
      exact absurd initials models
    · intro same
      have initials := congrArg LatencyConfig.initial same
      rw [initial_shown, initial_shown] at initials
      exact absurd initials models

end Latency

/-- The overrides as they are written, those of the symbols under a prefix of their own. -/
def ResolvedMicrostructure.overrideLines (resolved : ResolvedMicrostructure) : List (List Char × ResolvedContractSpecs) :=
  (resolved.config.perUnderlying.toList.map fun entry => (entry.1.toList, entry.2)) ++
    resolved.config.perSymbol.toList.map fun entry => ("sym.".toList ++ entry.1.toList, entry.2)

section Reading
variable {resolved other : ResolvedMicrostructure} {latency last : LatencyConfig}
  {lines others : List (List Char × ResolvedContractSpecs)}

theorem toList_writeLines {name : String → List Char} {write : String × ResolvedContractSpecs → String}
    (writes : ∀ entry, (write entry).toList = specsLines.text (name entry.1, entry.2))
    (entries : List (String × ResolvedContractSpecs)) (out : String) :
    (entries.foldl (fun out entry => out ++ write entry) out).toList =
      out.toList ++ specsLines.texts (entries.map fun entry => (name entry.1, entry.2)) := by
  induction entries generalizing out with
  | nil => exact (List.append_nil _).symm
  | cons entry rest ih =>
    rw [List.foldl_cons, ih, List.map_cons, LineFormat.texts_cons, String.toList_append, writes, List.append_assoc]

theorem toList_fingerprint (custom : resolved.isDefault = false) : resolved.fingerprint.toList =
    "microstructure.v1;fees=m".toList ++ ((toString resolved.config.fees.makerBps).toList ++ '/' :: 't' ::
      ((toString resolved.config.fees.takerBps).toList ++ ';' :: ("stp=".toList ++ ((stpToken resolved.config.stp).toList ++
        ';' :: ("specs.*=".toList ++ ((specsFragment resolved.config.defaultSpecs).toList ++
          (specsLines.texts resolved.overrideLines ++ resolved.latency.fingerprintFragment.toList))))))) := by
  have underlyings : ∀ entry : String × ResolvedContractSpecs,
      (";specs." ++ entry.1 ++ "=" ++ specsFragment entry.2).toList = specsLines.text (entry.1.toList, entry.2) := by
    intro entry
    unfold LineFormat.text specsLines
    simp only [String.toList_append, List.append_assoc]
    rfl
  have symbols : ∀ entry : String × ResolvedContractSpecs, (";specs.sym." ++ entry.1 ++ "=" ++ specsFragment entry.2).toList =
      specsLines.text ("sym.".toList ++ entry.1.toList, entry.2) := by
    intro entry
    unfold LineFormat.text specsLines
    simp only [String.toList_append, List.append_assoc]
    rfl
  have joined : specsLines.texts resolved.overrideLines =
      specsLines.texts (resolved.config.perUnderlying.toList.map fun entry => (entry.1.toList, entry.2)) ++
        specsLines.texts (resolved.config.perSymbol.toList.map fun entry => ("sym.".toList ++ entry.1.toList, entry.2)) :=
    List.flatMap_append
  unfold ResolvedMicrostructure.fingerprint
  rw [custom, if_neg Bool.false_ne_true, joined]
  dsimp only
  rw [String.toList_append, @toList_writeLines (fun name => "sym.".toList ++ name.toList) _ symbols,
    @toList_writeLines String.toList _ underlyings]
  simp only [String.toList_append, List.append_assoc]
  rfl

theorem toList_stpToken_inj {stp next : STPMode} (same : (stpToken stp).toList = (stpToken next).toList) : stp = next := by
  revert same
  cases stp <;> cases next <;> decide

theorem stpToken_free (stp : STPMode) : ';' ∉ (stpToken stp).toList := by
  cases stp <;> decide

/-- The lines and the latency stand after a semicolon, if any of them are there. -/
theorem lines_begin (lines : List (List Char × ResolvedContractSpecs)) (latency : LatencyConfig) :
    ∀ first ∈ (specsLines.texts lines ++ latency.fingerprintFragment.toList).head?, first = ';' := by
  intro first begins
  cases lines with
  | nil =>
    rw [toList_fingerprintFragment] at begins
    change first ∈ (if latency = .disabled then [] else ";latency".toList ++ '=' :: latency.parameters).head? at begins
    split at begins
    · cases begins
    · exact (Option.some.inj begins).symm
  | cons line rest =>
    rw [LineFormat.texts_cons] at begins
    exact (Option.some.inj begins).symm

/-- No lines read like lines with a latency after them. -/
theorem lines_ne_latency (enabled : latency ≠ .disabled) (accepted : latency.validate = .ok ()) :
    specsLines.texts lines ≠ specsLines.texts others ++ (";latency".toList ++ '=' :: latency.parameters) := by
  intro same
  rw [← List.append_assoc] at same
  by_cases none : lines = []
  · subst none
    exact List.append_ne_nil_of_right_ne_nil _ (List.cons_ne_nil _ _) same.symm
  · obtain ⟨front, value, ends⟩ := LineFormat.texts_ends none
    rw [ends, specsLines_mark, specsLines_encode] at same
    have free : '=' ∉ (specsFragment value).toList := specsLines_free (by decide) (by decide) value
    obtain ⟨_, values⟩ := append_cons_inj free (parameters_free accepted) same
    have clear : '(' ∉ (specsFragment value).toList := specsLines_free (by decide) (by decide) value
    exact absurd (parameters_opens enabled) (values ▸ clear)

theorem tail_eq_iff (accepted : latency.validate = .ok ()) (valid : last.validate = .ok ()) :
    specsLines.texts lines ++ latency.fingerprintFragment.toList = specsLines.texts others ++ last.fingerprintFragment.toList ↔
      specsLines.SameLines lines others ∧ latency.shown = last.shown := by
  have initials : latency.shown = last.shown → latency.initial = last.initial := by
    intro same
    rw [← initial_shown, ← initial_shown last, same]
  rw [toList_fingerprintFragment, toList_fingerprintFragment, ← specsLines_sound.texts_eq_iff]
  by_cases off : latency = .disabled
  · subst off
    rw [if_pos rfl, List.append_nil]
    by_cases others : last = .disabled
    · subst others
      rw [if_pos rfl, List.append_nil]
      exact (and_iff_left rfl).symm
    · rw [if_neg others]
      refine iff_of_false (lines_ne_latency others valid) fun both => others ?_
      have same := initials both.2
      cases last with
      | disabled => rfl
      | _ => cases same
  · rw [if_neg off]
    by_cases others : last = .disabled
    · subst others
      rw [if_pos rfl, List.append_nil]
      refine iff_of_false (lines_ne_latency off accepted).symm fun both => off ?_
      have same := initials both.2
      cases latency with
      | disabled => rfl
      | _ => cases same
    · rw [if_neg others, ← parameters_eq_iff accepted valid, ← List.append_assoc, ← List.append_assoc]
      constructor
      · intro same
        obtain ⟨fronts, fields⟩ := append_cons_inj (parameters_free accepted) (parameters_free valid) same
        exact ⟨List.append_cancel_right fronts, fields⟩
      · rintro ⟨fronts, fields⟩
        rw [fronts, fields]

/-- Two microstructures that are written alike: the same but for the places of a sigma after the sixth, and for lines that
a name swallows. -/
structure WrittenAlike (resolved other : ResolvedMicrostructure) : Prop where
  fees : resolved.config.fees = other.config.fees
  stp : resolved.config.stp = other.config.stp
  defaultSpecs : resolved.config.defaultSpecs = other.config.defaultSpecs
  lines : specsLines.SameLines resolved.overrideLines other.overrideLines
  latency : resolved.latency.shown = other.latency.shown

theorem fingerprint_ne_default (custom : resolved.isDefault = false) :
    resolved.fingerprint ≠ defaultMicrostructureFingerprint := by
  intro same
  have texts := congrArg (fun text => text.toList.take 24) same
  rw [toList_fingerprint custom, List.take_append_of_le_length (by decide)] at texts
  revert texts
  decide

theorem isDefault_eq (standard : resolved.isDefault = true) : resolved = ⟨.default, .disabled⟩ := by
  obtain ⟨⟨fees, stp, defaultSpecs, perUnderlying, perSymbol⟩, latency⟩ := resolved
  obtain ⟨rated, prevented, specs, underlyings, symbols, off⟩ := of_decide_eq_true standard
  dsimp only at rated prevented specs underlyings symbols off
  rw [Std.ExtTreeMap.isEmpty_iff] at underlyings symbols
  subst rated prevented specs underlyings symbols off
  rfl

/-- Equal fingerprints are those of two default microstructures, or of two others that are written alike. -/
theorem fingerprint_eq_iff (accepted : resolved.latency.validate = .ok ()) (valid : other.latency.validate = .ok ()) :
    resolved.fingerprint = other.fingerprint ↔
      resolved.isDefault = other.isDefault ∧ (resolved.isDefault = false → WrittenAlike resolved other) := by
  by_cases standard : resolved.isDefault = true
  · by_cases others : other.isDefault = true
    · unfold ResolvedMicrostructure.fingerprint
      rw [standard, others, if_pos rfl, if_pos rfl]
      exact iff_of_true rfl ⟨rfl, nofun⟩
    · have custom := Bool.eq_false_iff.2 others
      refine iff_of_false (fun same => fingerprint_ne_default custom ?_) fun both => others (both.1.symm.trans standard)
      rw [← same]
      unfold ResolvedMicrostructure.fingerprint
      exact if_pos standard
  · have custom := Bool.eq_false_iff.2 standard
    by_cases others : other.isDefault = true
    · refine iff_of_false (fun same => fingerprint_ne_default custom ?_) fun both => standard (both.1.trans others)
      rw [same]
      unfold ResolvedMicrostructure.fingerprint
      exact if_pos others
    · have customs := Bool.eq_false_iff.2 others
      rw [← String.toList_inj, toList_fingerprint custom, toList_fingerprint customs, custom, customs]
      constructor
      · intro same
        refine ⟨rfl, fun _ => ?_⟩
        obtain ⟨makers, same⟩ := integer_inj (by decide) (by decide) (List.append_cancel_left same)
        obtain ⟨takers, same⟩ := integer_inj (by decide) (by decide) (List.cons.inj same).2
        obtain ⟨tokens, same⟩ := field_inj (stpToken_free _) (stpToken_free _) (by simp) (by simp)
          (List.append_cancel_left same)
        obtain ⟨specs, same⟩ := field_inj (specsLines_free (by decide) (by decide) _)
          (specsLines_free (by decide) (by decide) _) (lines_begin _ _) (lines_begin _ _)
          (List.append_cancel_left (List.cons.inj same).2)
        obtain ⟨lines, latency⟩ := (tail_eq_iff accepted valid).1 same
        refine ⟨?_, toList_stpToken_inj tokens, specsFragment_inj specs, lines, latency⟩
        exact FeeConfig.mk.injEq .. ▸ ⟨makers, takers⟩
      · rintro ⟨-, alike⟩
        obtain ⟨fees, stp, defaultSpecs, lines, latency⟩ := alike rfl
        rw [fees, stp, defaultSpecs, (tail_eq_iff accepted valid).2 ⟨lines, latency⟩]

/-- What the order path and the gateway read of a microstructure is the same. -/
structure SameBehaviour (U : Upstream) (resolved other : ResolvedMicrostructure) : Prop where
  fees : resolved.config.fees = other.config.fees
  stp : resolved.config.stp = other.config.stp
  latency : resolved.latency = other.latency
  specs : ∀ symbol, resolved.config.specsForSymbol U symbol = other.config.specsForSymbol U symbol

/-- Two microstructures that are written alike, but have another sigma or other specs for a symbol. -/
structure Colliding (U : Upstream) (resolved other : ResolvedMicrostructure) : Prop where
  custom : resolved.isDefault = false ∧ other.isDefault = false
  alike : WrittenAlike resolved other
  unlike : resolved.latency ≠ other.latency ∨
    ∃ symbol, resolved.config.specsForSymbol U symbol ≠ other.config.specsForSymbol U symbol

/-- The fingerprint tells two microstructures apart unless they collide. -/
theorem fingerprint_tells_iff (U : Upstream) (accepted : resolved.latency.validate = .ok ())
    (valid : other.latency.validate = .ok ()) :
    (resolved.fingerprint = other.fingerprint → SameBehaviour U resolved other) ↔ ¬Colliding U resolved other := by
  constructor
  · rintro tells ⟨⟨custom, customs⟩, alike, unlike⟩
    have same := tells ((fingerprint_eq_iff accepted valid).2 ⟨custom.trans customs.symm, fun _ => alike⟩)
    rcases unlike with latency | ⟨symbol, specs⟩
    · exact latency same.latency
    · exact specs (same.specs symbol)
  · intro apart same
    obtain ⟨defaults, written⟩ := (fingerprint_eq_iff accepted valid).1 same
    by_cases standard : resolved.isDefault = true
    · rw [isDefault_eq standard, isDefault_eq (defaults.symm.trans standard)]
      exact ⟨rfl, rfl, rfl, fun _ => rfl⟩
    · have custom := Bool.eq_false_iff.2 standard
      have alike := written custom
      have like := not_or.1 fun unlike => apart ⟨⟨custom, defaults.symm.trans custom⟩, alike, unlike⟩
      refine ⟨alike.fees, alike.stp, not_not.1 like.1, fun symbol => ?_⟩
      exact not_not.1 fun specs => like.2 ⟨symbol, specs⟩

/-- The name of an underlying under the prefix is written like that of a symbol. -/
example :
    (⟨{ MicrostructureConfig.default with perUnderlying := Std.ExtTreeMap.empty.insert "sym.BTC" ⟨5, 1, 1, 100, 10⟩ },
        .disabled⟩ : ResolvedMicrostructure).fingerprint =
      (⟨{ MicrostructureConfig.default with perSymbol := Std.ExtTreeMap.empty.insert "BTC" ⟨5, 1, 1, 100, 10⟩ },
        .disabled⟩ : ResolvedMicrostructure).fingerprint := by
  decide +kernel

/-- No more places than are shown, no name with the mark of a line in it, and no underlying under the prefix of the
symbols. -/
structure PlainText (resolved : ResolvedMicrostructure) : Prop where
  latency : resolved.latency.shown = resolved.latency
  names : ∀ line ∈ resolved.overrideLines, '=' ∉ line.1
  unprefixed : ∀ entry ∈ resolved.config.perUnderlying.toList, ¬"sym.".toList <+: entry.1.toList

/-- The lines under the prefix are those of the symbols. -/
theorem PlainText.split (plain : PlainText resolved) :
    (resolved.overrideLines.filter fun line => "sym.".toList <+: line.1) =
        (resolved.config.perSymbol.toList.map fun entry => ("sym.".toList ++ entry.1.toList, entry.2)) ∧
      (resolved.overrideLines.filter fun line => ¬"sym.".toList <+: line.1) =
        resolved.config.perUnderlying.toList.map fun entry => (entry.1.toList, entry.2) := by
  have underlyings : ∀ line ∈ resolved.config.perUnderlying.toList.map fun entry => (entry.1.toList, entry.2),
      ¬"sym.".toList <+: line.1 := List.forall_mem_map.2 plain.unprefixed
  have symbols : ∀ line ∈ resolved.config.perSymbol.toList.map fun entry => ("sym.".toList ++ entry.1.toList, entry.2),
      "sym.".toList <+: line.1 := List.forall_mem_map.2 fun entry _ => List.prefix_append _ _
  unfold ResolvedMicrostructure.overrideLines
  rw [List.filter_append, List.filter_append]
  constructor
  · rw [List.filter_eq_nil_iff.2 fun line member => by simpa using underlyings line member,
      List.filter_eq_self.2 fun line member => by simpa using symbols line member, List.nil_append]
  · rw [List.filter_eq_self.2 fun line member => by simpa using underlyings line member,
      List.filter_eq_nil_iff.2 fun line member => by simpa using symbols line member, List.append_nil]

/-- Plain microstructures never collide. -/
theorem PlainText.not_colliding {U : Upstream} (plain : PlainText resolved) (ordinary : PlainText other) :
    ¬Colliding U resolved other := by
  rintro ⟨_, alike, unlike⟩
  have lines := alike.lines.eq plain.names ordinary.names
  obtain ⟨symbols, underlyings⟩ := plain.split
  obtain ⟨last, first⟩ := ordinary.split
  rw [lines] at symbols underlyings
  have written : Function.Injective fun entry : String × ResolvedContractSpecs => (entry.1.toList, entry.2) :=
    fun entry next same => Prod.ext (String.toList_inj.1 (Prod.mk.inj same).1) (Prod.mk.inj same).2
  have prefixed : Function.Injective fun entry : String × ResolvedContractSpecs =>
      ("sym.".toList ++ entry.1.toList, entry.2) :=
    fun entry next same =>
      Prod.ext (String.toList_inj.1 (List.append_cancel_left (Prod.mk.inj same).1)) (Prod.mk.inj same).2
  have sameUnderlyings := Std.ExtTreeMap.toList_inj.1 (written.list_map (underlyings.symm.trans first))
  have sameSymbols := Std.ExtTreeMap.toList_inj.1 (prefixed.list_map (symbols.symm.trans last))
  rcases unlike with latency | ⟨symbol, specs⟩
  · exact latency (plain.latency.symm.trans (alike.latency.trans ordinary.latency))
  · refine specs ?_
    unfold MicrostructureConfig.specsForSymbol MicrostructureConfig.specsFor
    rw [sameUnderlyings, sameSymbols, alike.defaultSpecs]

end Reading

end Fauxchange.Microstructure
