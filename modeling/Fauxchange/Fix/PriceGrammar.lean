import Fauxchange.Fix.Price
import Fauxchange.Lib.DecimalText

/-! The seam read as a grammar: which texts it accepts, with the cents each gives, and the text that a value is
rendered to. -/

namespace Fauxchange.Fix
open Exchange Lib

section Unsigned
variable {characters : List Char} {cents : Nat}

theorem digit_ne_dot {character : Char} (digit : character.isDigit) : character ≠ '.' := by
  rintro rfl
  revert digit
  decide

theorem dot_not_digit {digits : List Char} (allDigits : digits.all Char.isDigit) : '.' ∉ digits := by
  intro member
  exact digit_ne_dot (List.all_eq_true.1 allDigits _ member) rfl

theorem all_digits_of_no_dot {list : List Char} (allowed : list.all (fun c => c.isDigit || c == '.')) (none : '.' ∉ list) :
    list.all Char.isDigit := by
  rw [List.all_eq_true] at allowed ⊢
  intro character member
  have either := allowed character member
  simp only [Bool.or_eq_true, beq_iff_eq] at either
  rcases either with digit | rfl
  · exact digit
  · exact absurd member none

theorem takeWhile_digits {digits rest : List Char} (allDigits : digits.all Char.isDigit) :
    (digits ++ rest).takeWhile (· ≠ '.') = digits ++ rest.takeWhile (· ≠ '.') := by
  apply List.takeWhile_append_of_pos
  intro digit member
  simpa using digit_ne_dot (List.all_eq_true.1 allDigits digit member)

theorem dropWhile_digits {digits rest : List Char} (allDigits : digits.all Char.isDigit) :
    (digits ++ rest).dropWhile (· ≠ '.') = rest.dropWhile (· ≠ '.') := by
  apply List.dropWhile_append_of_pos
  intro digit member
  simpa using digit_ne_dot (List.all_eq_true.1 allDigits digit member)

/-- A fraction is padded on the right to the scale. -/
theorem fractionalCents_eq {fraction : List Char} (allDigits : fraction.all Char.isDigit)
    (short : fraction.length ≤ centsScale) :
    fractionalCents fraction = Nat.ofDigitChars 10 fraction 0 * 10 ^ (centsScale - fraction.length) := by
  have cut : (fraction ++ List.replicate centsScale '0').take centsScale =
      fraction ++ List.replicate (centsScale - fraction.length) '0' := by
    rw [List.take_append, List.take_of_length_le short, List.take_replicate, Nat.min_eq_left (Nat.sub_le _ _)]
  have worth : Nat.ofDigitChars 10 (fraction ++ List.replicate (centsScale - fraction.length) '0') 0 =
      Nat.ofDigitChars 10 fraction 0 * 10 ^ (centsScale - fraction.length) := by
    rw [Nat.ofDigitChars_append, Nat.ofDigitChars_replicate_zero, Nat.mul_comm]
  have digits : (fraction ++ List.replicate (centsScale - fraction.length) '0').all Char.isDigit := by
    rw [List.all_append, allDigits, List.all_replicate]
    simp
  have small : Nat.ofDigitChars 10 (fraction ++ List.replicate (centsScale - fraction.length) '0') 0 ≤ u128Max := by
    have length : (fraction ++ List.replicate (centsScale - fraction.length) '0').length = centsScale := by
      rw [List.length_append, List.length_replicate]
      omega
    have below := ofDigitChars_lt digits
    rw [length] at below
    exact Nat.le_trans (Nat.le_of_lt below) (by decide)
  unfold fractionalCents foldDigits
  rw [cut, checkedDigits_eq digits small, worth]
  rfl

/-- What the seam checks of a text before it folds the digits. -/
theorem parseDecimalChars_ok_form (parsed : parseDecimalChars characters = .ok cents) :
    ∃ decimal : DecimalText centsScale, characters = decimal.characters := by
  unfold parseDecimalChars at parsed
  dsimp only at parsed
  split at parsed
  · cases parsed
  · split at parsed
    · cases parsed
    next allowed =>
      rw [not_or, not_not] at allowed
      obtain ⟨alphabet, few⟩ := allowed
      split at parsed
      · cases parsed
      next present =>
        split at parsed
        · cases parsed
        next pointed =>
          split at parsed
          · cases parsed
          next short =>
            by_cases dot : '.' ∈ characters
            · obtain ⟨units, fraction, rfl, before⟩ := List.eq_append_cons_of_mem dot
              rw [List.count_append, List.count_cons_self, List.count_eq_zero.2 before] at few
              have after : '.' ∉ fraction := List.count_eq_zero.1 (by omega)
              rw [List.all_append, List.all_cons, Bool.and_eq_true, Bool.and_eq_true] at alphabet
              have unitDigits := all_digits_of_no_dot alphabet.1 before
              have fractionDigits := all_digits_of_no_dot alphabet.2.2 after
              rw [dropWhile_digits unitDigits] at short pointed
              rw [takeWhile_digits unitDigits] at present
              simp only [ne_eq, not_true_eq_false, decide_false, Bool.false_eq_true, not_false_eq_true,
                List.dropWhile_cons_of_neg, List.takeWhile_cons_of_neg, List.drop_one, List.tail_cons,
                List.append_nil, Nat.not_lt] at short pointed present
              refine ⟨⟨units, fraction, present, unitDigits, fractionDigits, short⟩, ?_⟩
              rw [DecimalText.characters, if_neg fun none => pointed ⟨dot, none⟩]
            · have digits := all_digits_of_no_dot alphabet dot
              refine ⟨⟨characters, [], ?_, digits, rfl, Nat.zero_le _⟩, ?_⟩
              · assumption
              · rw [DecimalText.characters, if_pos rfl, List.append_nil]

section Written
variable (decimal : DecimalText centsScale)

theorem takeWhile_written : decimal.characters.takeWhile (· ≠ '.') = decimal.units := by
  rw [DecimalText.characters, takeWhile_digits decimal.unitDigits]
  split <;> simp

theorem fraction_written : (decimal.characters.dropWhile (· ≠ '.')).drop 1 = decimal.fraction := by
  rw [DecimalText.characters, dropWhile_digits decimal.unitDigits]
  split
  next none => rw [none]; rfl
  next => simp

theorem alphabet_written : decimal.characters.all (fun c => c.isDigit || c == '.') := by
  have digits {list : List Char} (allDigits : list.all Char.isDigit) :
      list.all (fun c => c.isDigit || c == '.') := by
    rw [List.all_eq_true] at allDigits ⊢
    intro character member
    simp [allDigits character member]
  rw [DecimalText.characters, List.all_append, digits decimal.unitDigits]
  split
  · rfl
  · rw [List.all_cons, digits decimal.fractionDigits]
    decide

theorem count_dot_written : decimal.characters.count '.' ≤ 1 := by
  rw [DecimalText.characters, List.count_append, List.count_eq_zero.2 (dot_not_digit decimal.unitDigits)]
  split
  · simp
  · rw [List.count_cons_self, List.count_eq_zero.2 (dot_not_digit decimal.fractionDigits)]

theorem dot_written (dot : '.' ∈ decimal.characters) : decimal.fraction ≠ [] := by
  intro none
  rw [DecimalText.characters, if_pos none, List.append_nil] at dot
  exact dot_not_digit decimal.unitDigits dot

/-- A written decimal is read as its value in cents, unless that leaves 64 bits. -/
theorem parseDecimalChars_written :
    parseDecimalChars decimal.characters =
      if u64Max < decimal.scaled then .error (.outOfRange (truncateUntrusted decimal.text)) else .ok decimal.scaled := by
  have nonempty : decimal.characters ≠ [] := by
    intro none
    exact decimal.present (List.append_eq_nil_iff.1 none).1
  have fine := fractionalCents_eq decimal.fractionDigits decimal.short
  have scaled : Nat.ofDigitChars 10 decimal.units 0 * 100 + fractionalCents decimal.fraction = decimal.scaled := by
    rw [fine]
    rfl
  unfold parseDecimalChars
  simp only [takeWhile_written, fraction_written]
  rw [if_neg nonempty, if_neg, if_neg decimal.present, if_neg fun both => dot_written decimal both.1 both.2,
    if_neg (Nat.not_lt.2 decimal.short)]
  · by_cases fits : Nat.ofDigitChars 10 decimal.units 0 ≤ u128Max
    · rw [foldDigits, checkedDigits_eq decimal.unitDigits fits]
      dsimp only
      rw [scaled]
      rfl
    · have folded : foldDigits decimal.units = none := by
        rw [Option.eq_none_iff_forall_ne_some]
        intro value some
        obtain ⟨-, rfl, small⟩ := checkedDigits_eq_some.1 some
        exact fits small
      have large : u64Max < decimal.scaled := by
        have wide : u64Max < u128Max := by decide
        omega
      rw [folded, if_pos large]
      rfl
  · rw [not_or, not_not]
    exact ⟨alphabet_written decimal, Nat.not_lt.2 (count_dot_written decimal)⟩

end Written

theorem parseDecimalChars_eq_ok :
    parseDecimalChars characters = .ok cents ↔
      ∃ decimal : DecimalText centsScale, characters = decimal.characters ∧ decimal.scaled = cents ∧ cents ≤ u64Max := by
  constructor
  · intro parsed
    obtain ⟨decimal, rfl⟩ := parseDecimalChars_ok_form parsed
    rw [parseDecimalChars_written] at parsed
    split at parsed
    · cases parsed
    next fits =>
      obtain rfl := Except.ok.inj parsed
      exact ⟨decimal, rfl, rfl, Nat.not_lt.1 fits⟩
  · rintro ⟨decimal, rfl, rfl, fits⟩
    rw [parseDecimalChars_written, if_neg (Nat.not_lt.2 fits)]

/-- The two-place decimal that a value is rendered to. -/
def renderedDecimal (cents : Nat) : DecimalText centsScale where
  units := Nat.toDigits 10 (cents / 100)
  fraction := padded 2 (cents % 100)
  present := Nat.toDigits_ne_nil
  unitDigits := all_isDigit_toDigits
  fractionDigits := all_isDigit_padded
  short := Nat.le_of_eq (padded_length (by decide) (Nat.mod_lt _ (by decide)))

theorem renderedDecimal_places : (renderedDecimal cents).fraction.length = centsScale :=
  padded_length (by decide) (Nat.mod_lt _ (by decide))

theorem renderCentsChars_eq : renderCentsChars cents = (renderedDecimal cents).characters := by
  have some : (renderedDecimal cents).fraction ≠ [] := by
    intro none
    have places := @renderedDecimal_places cents
    rw [none] at places
    cases places
  rw [DecimalText.characters, if_neg some]
  rfl

theorem renderedDecimal_canonical : (renderedDecimal cents).Canonical :=
  ⟨renderedDecimal_places, leading_toDigits⟩

theorem renderedDecimal_scaled : (renderedDecimal cents).scaled = cents := by
  unfold DecimalText.scaled
  rw [renderedDecimal_places, Nat.sub_self, pow_zero, Nat.mul_one]
  change Nat.ofDigitChars 10 (Nat.toDigits 10 (cents / 100)) 0 * 10 ^ centsScale +
    Nat.ofDigitChars 10 (padded 2 (cents % 100)) 0 = cents
  rw [Nat.ofDigitChars_ten_toDigits, ofDigitChars_padded]
  change cents / 100 * 100 + cents % 100 = cents
  omega

theorem parseDecimalToCents_eq_ok {value : String} :
    parseDecimalToCents value = .ok cents ↔
      ∃ decimal : DecimalText centsScale, value = decimal.text ∧ decimal.value * 100 = cents ∧ cents ≤ u64Max := by
  have hundredths (decimal : DecimalText centsScale) : decimal.value * 100 = cents ↔ decimal.scaled = cents := by
    have cast : (decimal.scaled : Rat) = decimal.value * 100 := by
      rw [decimal.cast_scaled]
      norm_num [centsScale]
    rw [← cast]
    exact Nat.cast_inj
  have spelled (decimal : DecimalText centsScale) : value = decimal.text ↔ value.toList = decimal.characters := by
    rw [DecimalText.text, ← String.toList_inj, String.toList_ofList]
  unfold parseDecimalToCents
  rw [parseDecimalChars_eq_ok]
  simp only [hundredths, spelled]

end Unsigned

/-- Every amount of cents is read back from its rendering. -/
theorem parseDecimalChars_rendered {cents : Nat} (fits : cents ≤ u64Max) :
    parseDecimalChars (renderCentsChars cents) = .ok cents :=
  parseDecimalChars_eq_ok.2 ⟨renderedDecimal cents, renderCentsChars_eq, renderedDecimal_scaled, fits⟩

theorem parseDecimalToCents_render {cents : Nat} (fits : cents ≤ u64Max) :
    parseDecimalToCents (renderCentsToDecimal cents) = .ok cents := by
  unfold parseDecimalToCents renderCentsToDecimal
  rw [String.toList_ofList]
  exact parseDecimalChars_rendered fits

/-- The unsigned seam: what it accepts and with which value, that a rendered value is read back, and that rendering
what was read writes the same number with both places and no leading zero. -/
theorem decimalSeam_exact :
    (∀ (value : String) (cents : Nat), parseDecimalToCents value = .ok cents ↔
      ∃ decimal : DecimalText centsScale, value = decimal.text ∧ decimal.value * 100 = cents ∧ cents ≤ u64Max) ∧
    (∀ cents ≤ u64Max, parseDecimalToCents (renderCentsToDecimal cents) = .ok cents) ∧
    ∀ (decimal : DecimalText centsScale) (cents : Nat), parseDecimalToCents decimal.text = .ok cents →
      ∃ canonical : DecimalText centsScale, canonical.Canonical ∧ canonical.value = decimal.value ∧
        renderCentsToDecimal cents = canonical.text := by
  refine ⟨fun _ _ => parseDecimalToCents_eq_ok, fun _ fits => parseDecimalToCents_render fits, ?_⟩
  intro decimal cents parsed
  rw [parseDecimalToCents, DecimalText.text, String.toList_ofList, parseDecimalChars_written] at parsed
  split at parsed
  · cases parsed
  · obtain rfl := Except.ok.inj parsed
    refine ⟨renderedDecimal decimal.scaled, renderedDecimal_canonical, ?_, ?_⟩
    · exact DecimalText.value_eq_of_scaled renderedDecimal_scaled
    · rw [renderCentsToDecimal, renderCentsChars_eq]
      rfl

/-- The least amount of an `i64`. -/
def i64Min : Int := -2 ^ 63

/-- An unsigned decimal with an optional minus sign before it. -/
structure SignedText where
  negative : Bool
  magnitude : DecimalText centsScale

namespace SignedText

def text (signed : SignedText) : String :=
  if signed.negative then "-" ++ signed.magnitude.text else signed.magnitude.text

def value (signed : SignedText) : Rat :=
  if signed.negative then -signed.magnitude.value else signed.magnitude.value

/-- The signed amount in cents. -/
def scaled (signed : SignedText) : Int :=
  if signed.negative then -signed.magnitude.scaled else signed.magnitude.scaled

theorem value_mul_eq_iff {signed : SignedText} {amount : Int} : signed.value * 100 = amount ↔ signed.scaled = amount := by
  have cast : ((signed.scaled : Int) : Rat) = signed.value * 100 := by
    have hundredths : (signed.magnitude.scaled : Rat) = signed.magnitude.value * 100 := by
      rw [signed.magnitude.cast_scaled]
      norm_num [centsScale]
    unfold scaled value
    split
    · push_cast
      rw [hundredths, neg_mul]
    · exact_mod_cast hundredths
  rw [← cast]
  exact Int.cast_inj

end SignedText

/-- At this text the signed parser accepts what the grammar and the range of `i64` allow, with the signed value. -/
def ReadsSigned (value : String) : Prop :=
  ∀ amount : Int, parseSignedDecimalToCents value = .ok amount ↔
    ∃ signed : SignedText, value = signed.text ∧ signed.value * 100 = amount ∧ i64Min ≤ amount ∧ amount ≤ i64Max

section Signed

theorem no_sign (decimal : DecimalText centsScale) (rest : List Char) : decimal.characters ≠ '-' :: rest := by
  intro same
  have alphabet := alphabet_written decimal
  rw [same, List.all_cons] at alphabet
  revert alphabet
  simp

variable {value : String} {amount : Int}

theorem SignedText.toList_text (signed : SignedText) :
    signed.text.toList =
      if signed.negative then '-' :: signed.magnitude.characters else signed.magnitude.characters := by
  unfold SignedText.text DecimalText.text
  split
  · rw [String.toList_append, String.toList_ofList, String.toList_ofList]
    rfl
  · rw [String.toList_ofList]

/-- The magnitude that is read has to be within the positive range, whatever the sign. -/
theorem parseSigned_eq_ok :
    parseSignedDecimalToCents value = .ok amount ↔
      ∃ signed : SignedText, value = signed.text ∧ signed.scaled = amount ∧ signed.magnitude.scaled ≤ i64Max := by
  have wide : i64Max ≤ u64Max := by decide
  have spelled (signed : SignedText) : value = signed.text ↔ value.toList = signed.text.toList :=
    String.toList_inj.symm
  simp only [spelled, SignedText.toList_text]
  unfold parseSignedDecimalToCents
  constructor
  · intro parsed
    split at parsed
    next magnitude minus =>
      cases read : parseDecimalChars magnitude with
      | error error =>
        rw [read] at parsed
        cases parsed
      | ok cents =>
        simp only [read, bind, Except.bind] at parsed
        split at parsed
        · cases parsed
        next fits =>
          obtain ⟨decimal, rfl, rfl, -⟩ := parseDecimalChars_eq_ok.1 read
          exact ⟨⟨true, decimal⟩, minus, Except.ok.inj parsed, Nat.not_lt.1 fits⟩
    next =>
      cases read : parseDecimalChars value.toList with
      | error error =>
        rw [read] at parsed
        cases parsed
      | ok cents =>
        simp only [read, bind, Except.bind] at parsed
        split at parsed
        · cases parsed
        next fits =>
          obtain ⟨decimal, same, rfl, -⟩ := parseDecimalChars_eq_ok.1 read
          exact ⟨⟨false, decimal⟩, same, Except.ok.inj parsed, Nat.not_lt.1 fits⟩
  · rintro ⟨signed, same, rfl, fits⟩
    obtain ⟨negative, decimal⟩ := signed
    have read : parseDecimalChars decimal.characters = .ok decimal.scaled :=
      parseDecimalChars_eq_ok.2 ⟨decimal, rfl, rfl, Nat.le_trans fits wide⟩
    have small : ¬ i64Max < decimal.scaled := Nat.not_lt.2 fits
    rw [same]
    cases negative with
    | true =>
      simp only [if_true, read, bind, Except.bind, if_neg small]
      rfl
    | false =>
      simp only [Bool.false_eq_true, if_false]
      split
      next rest minus => exact absurd minus (no_sign decimal rest)
      next =>
        simp only [read, bind, Except.bind, if_neg small]
        rfl

/-- Only the text of the least amount is refused against the grammar. -/
theorem readsSigned_iff :
    ReadsSigned value ↔
      ¬ ∃ decimal : DecimalText centsScale, value = "-" ++ decimal.text ∧ decimal.value * 100 = 2 ^ 63 := by
  have least (decimal : DecimalText centsScale) : decimal.value * 100 = 2 ^ 63 ↔ decimal.scaled = 2 ^ 63 := by
    have hundredths : (decimal.scaled : Rat) = decimal.value * 100 := by
      rw [decimal.cast_scaled]
      norm_num [centsScale]
    rw [← hundredths]
    norm_cast
  unfold ReadsSigned
  simp only [parseSigned_eq_ok, SignedText.value_mul_eq_iff, least]
  constructor
  · rintro reads ⟨decimal, rfl, worth⟩
    have inside : i64Min ≤ (⟨true, decimal⟩ : SignedText).scaled ∧ (⟨true, decimal⟩ : SignedText).scaled ≤ i64Max := by
      simp only [SignedText.scaled, if_true, worth]
      decide
    obtain ⟨signed, -, scaled, fits⟩ := (reads _).2 ⟨⟨true, decimal⟩, rfl, rfl, inside⟩
    simp only [SignedText.scaled, if_true, worth] at scaled
    have top : i64Max = 2 ^ 63 - 1 := rfl
    split at scaled <;> omega
  · intro apart amount
    have top : i64Max = 2 ^ 63 - 1 := rfl
    have bottom : i64Min = -2 ^ 63 := rfl
    constructor
    · rintro ⟨signed, same, rfl, fits⟩
      refine ⟨signed, same, rfl, ?_⟩
      unfold SignedText.scaled
      split <;> omega
    · rintro ⟨signed, same, rfl, inside⟩
      refine ⟨signed, same, rfl, ?_⟩
      unfold SignedText.scaled at inside
      split at inside
      next negative =>
        have unlike : signed.magnitude.scaled ≠ 2 ^ 63 := by
          intro worth
          refine apart ⟨signed.magnitude, ?_, worth⟩
          rw [same, SignedText.text, if_pos negative]
        omega
      next => omega

/-- The signed text that an amount is rendered to. -/
def renderedSigned (amount : Int) : SignedText := ⟨decide (amount < 0), renderedDecimal amount.natAbs⟩

theorem renderCentsToDecimal_eq (cents : Nat) : renderCentsToDecimal cents = (renderedDecimal cents).text := by
  rw [renderCentsToDecimal, renderCentsChars_eq]
  rfl

theorem renderSigned_eq : renderSignedCentsToDecimal amount = (renderedSigned amount).text := by
  unfold renderSignedCentsToDecimal SignedText.text renderedSigned
  simp only [renderCentsToDecimal_eq, decide_eq_true_eq]

theorem renderedSigned_scaled : (renderedSigned amount).scaled = amount := by
  unfold renderedSigned SignedText.scaled
  simp only [renderedDecimal_scaled, decide_eq_true_eq]
  split <;> omega

/-- A rendered amount is read back when its magnitude is within the positive range. -/
theorem parseSigned_render_iff :
    parseSignedDecimalToCents (renderSignedCentsToDecimal amount) = .ok amount ↔ amount.natAbs ≤ i64Max := by
  rw [parseSigned_eq_ok, renderSigned_eq]
  constructor
  · rintro ⟨signed, -, scaled, fits⟩
    unfold SignedText.scaled at scaled
    split at scaled <;> omega
  · intro fits
    refine ⟨renderedSigned amount, rfl, renderedSigned_scaled, ?_⟩
    exact Nat.le_trans (Nat.le_of_eq renderedDecimal_scaled) fits

end Signed

/-- The signed seam over `i64` amounts and over all texts: only the least amount is not read back, only its texts
are refused against the grammar, and no negation of a magnitude overflows. -/
theorem signedSeam_iff (amount : Int) (value : String) :
    (i64Min ≤ amount → amount ≤ i64Max →
      (parseSignedDecimalToCents (renderSignedCentsToDecimal amount) = .ok amount ↔ amount ≠ i64Min)) ∧
    (ReadsSigned value ↔
      ¬ ∃ decimal : DecimalText centsScale, value = "-" ++ decimal.text ∧ decimal.value * 100 = 2 ^ 63) ∧
    ∀ read, parseSignedDecimalToCents value = .ok read → i64Min ≤ -read ∧ -read ≤ i64Max := by
  have largest : i64Max = 2 ^ 63 - 1 := rfl
  have least : i64Min = -2 ^ 63 := rfl
  refine ⟨?_, readsSigned_iff, ?_⟩
  · intro bottom top
    rw [parseSigned_render_iff]
    constructor <;> intro <;> omega
  · intro read parsed
    obtain ⟨signed, -, rfl, fits⟩ := parseSigned_eq_ok.1 parsed
    unfold SignedText.scaled
    split <;> omega

/-- The least amount of an `i64` is rendered and not read back. -/
theorem leastAmount_refused :
    ¬ ∀ amount : Int, i64Min ≤ amount → amount ≤ i64Max →
      parseSignedDecimalToCents (renderSignedCentsToDecimal amount) = .ok amount := by
  intro all
  have read := all i64Min (by decide) (by decide)
  revert read
  decide +kernel

end Fauxchange.Fix
