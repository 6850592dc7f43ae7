import Fauxchange.Fix.Messages
import Fauxchange.Fix.Codec
import Fauxchange.Lib.Calendar
import Fauxchange.Lib.DigitRun

/-! The timestamps as civil dates and times of day: the conversions between days and dates agree with the calendar,
every accepted text is a row of digit runs, and what is rendered is read back. -/

namespace Fauxchange.Fix
open Exchange Lib

section Days

/-- The days of the earlier years of an era that begin in March. -/
def marchYearStart (year : Nat) : Nat := 365 * year + year / 4 - year / 100 + year / 400

/-- The year of an era that a day of it lies in, as `civil_from_days` computes it. -/
def yearOfEra (doe : Nat) : Nat := (doe - doe / 1460 + doe / 36524 - doe / 146096) / 365

theorem yearOfEra_mono {doe later : Nat} (order : doe ≤ later) (inside : later < 146097) :
    yearOfEra doe ≤ yearOfEra later := by
  unfold yearOfEra
  apply Nat.div_le_div_right
  omega

theorem yearOfEra_ends : ∀ year < 400, yearOfEra (marchYearStart year) = year ∧
    yearOfEra (marchYearStart (year + 1) - 1) = year := by
  decide +kernel

/-- The computed year is the one that the day lies in. -/
theorem yearOfEra_spec {doe : Nat} (inside : doe < 146097) :
    yearOfEra doe < 400 ∧ marchYearStart (yearOfEra doe) ≤ doe ∧ doe < marchYearStart (yearOfEra doe + 1) := by
  have small : yearOfEra doe < 400 := by
    have top : yearOfEra 146096 = 399 := by decide
    have bound := yearOfEra_mono (Nat.le_of_lt_succ inside) (by decide)
    omega
  refine ⟨small, ?_, ?_⟩
  · by_contra below
    cases year : yearOfEra doe with
    | zero =>
      rw [year] at below
      exact below (Nat.zero_le _)
    | succ earlier =>
      rw [year] at below small
      have ends := (yearOfEra_ends earlier (by omega)).2
      have start : marchYearStart (earlier + 1) - 1 < 146097 := by
        unfold marchYearStart
        omega
      have order := yearOfEra_mono (show doe ≤ marchYearStart (earlier + 1) - 1 by omega) start
      omega
  · by_contra above
    by_cases last : yearOfEra doe + 1 < 400
    · have begins := (yearOfEra_ends _ last).1
      have order := yearOfEra_mono (show marchYearStart (yearOfEra doe + 1) ≤ doe by omega) inside
      omega
    · have era : marchYearStart 400 = 146097 := by decide
      obtain same : yearOfEra doe + 1 = 400 := by omega
      rw [same, era] at above
      omega

/-- The first of March of a year in days from the first of January of year zero, with the leap day of that year. -/
theorem marchYearStart_eq (year : Nat) :
    daysBeforeYear year + (if isLeap year then 1 else 0) = marchYearStart year + 1 := by
  have counted := daysBeforeYear_eq year
  have leapDay := leapDay_eq year
  obtain ⟨fours, centuries, eras⟩ := quotient_next year
  rw [Nat.add_div_right _ (by decide)] at fours centuries eras
  unfold marchYearStart
  omega

theorem marchYearStart_add (era yoe : Nat) : marchYearStart (yoe + era * 400) = era * 146097 + marchYearStart yoe := by
  unfold marchYearStart
  omega

theorem marchYearStart_succ (year : Nat) :
    marchYearStart (year + 1) = marchYearStart year + 365 + if isLeap (year + 1) then 1 else 0 := by
  have begins := marchYearStart_eq year
  have ends := marchYearStart_eq (year + 1)
  unfold daysBeforeYear at ends
  rw [daysInYear_eq] at ends
  omega

/-- The months of a year that begins in March lie in fifths of 153 days, and February has the rest. -/
theorem fifths_of_day {year doy : Nat} (inside : marchYearStart year + doy < marchYearStart (year + 1)) :
    ∃ mp ≤ 11, (5 * doy + 2) / 153 = mp ∧ (153 * mp + 2) / 5 ≤ doy ∧
      (mp < 10 → doy - (153 * mp + 2) / 5 + 1 ≤ daysInMonth year (mp + 3)) ∧
      (¬ mp < 10 → doy - (153 * mp + 2) / 5 + 1 ≤ daysInMonth (year + 1) (mp - 9)) := by
  rw [marchYearStart_succ] at inside
  have days : doy ≤ 364 + if isLeap (year + 1) then 1 else 0 := by omega
  have most : doy < 366 := by
    split at days <;> omega
  have february : (if isLeap (year + 1) then 29 else 28) = 28 + if isLeap (year + 1) then 1 else 0 := by
    split <;> rfl
  refine ⟨(5 * doy + 2) / 153, by omega, rfl, by omega, ?_⟩
  generalize month : (5 * doy + 2) / 153 = mp
  have few : mp ≤ 11 := by omega
  interval_cases mp <;> simp only [daysInMonth] <;> omega

/-- The conversion of a day count gives the date of that day. -/
theorem civilFromDays_date (days : Nat) :
    ∃ date : CivilDate, civilFromDays days = (date.year, date.month, date.day) ∧
      date.dayNumber = days + epochDayNumber := by
  obtain ⟨era, split⟩ : ∃ era, (days + 719468) / 146097 = era := ⟨_, rfl⟩
  obtain ⟨doe, rest⟩ : ∃ doe, days + 719468 - era * 146097 = doe := ⟨_, rfl⟩
  have inside : doe < 146097 := by omega
  obtain ⟨few, begun, ends⟩ := yearOfEra_spec inside
  obtain ⟨yoe, year⟩ : ∃ yoe, yearOfEra doe = yoe := ⟨_, rfl⟩
  rw [year] at few begun ends
  obtain ⟨doy, day⟩ : ∃ doy, doe - marchYearStart yoe = doy := ⟨_, rfl⟩
  have start : marchYearStart yoe = 365 * yoe + yoe / 4 - yoe / 100 := by
    unfold marchYearStart
    omega
  have shifted := marchYearStart_add era yoe
  have next : marchYearStart (yoe + era * 400 + 1) = era * 146097 + marchYearStart (yoe + 1) := by
    rw [Nat.add_right_comm]
    exact marchYearStart_add era (yoe + 1)
  obtain ⟨mp, most, month, fifths, early, late⟩ :=
    @fifths_of_day (yoe + era * 400) doy (by omega)
  have computed : civilFromDays days =
      (if (if mp < 10 then mp + 3 else mp - 9) ≤ 2 then yoe + era * 400 + 1 else yoe + era * 400,
        if mp < 10 then mp + 3 else mp - 9, doy - (153 * mp + 2) / 5 + 1) := by
    rw [← month, ← day, start, ← year, ← rest, ← split]
    rfl
  have first := marchYearStart_eq (yoe + era * 400)
  have number : era * 146097 + marchYearStart yoe + doy + 60 = days + epochDayNumber := by
    unfold epochDayNumber
    omega
  by_cases march : mp < 10
  · refine ⟨⟨yoe + era * 400, mp + 3, doy - (153 * mp + 2) / 5 + 1, by omega, by omega, by omega, early march⟩, ?_, ?_⟩
    · rw [computed, if_pos march, if_neg (show ¬ mp + 3 ≤ 2 by omega)]
    · have months := @daysBeforeMonth_eq (yoe + era * 400) (mp + 3) (by omega) (by omega)
      rw [Nat.add_sub_cancel] at months
      unfold CivilDate.dayNumber
      dsimp only
      rw [months, Nat.add_sub_cancel]
      omega
  · refine ⟨⟨yoe + era * 400 + 1, mp - 9, doy - (153 * mp + 2) / 5 + 1, by omega, by omega, by omega, late march⟩, ?_, ?_⟩
    · rw [computed, if_neg march, if_pos (show mp - 9 ≤ 2 by omega)]
    · have years : daysBeforeYear (yoe + era * 400 + 1) =
          daysBeforeYear (yoe + era * 400) + daysInYear (yoe + era * 400) := rfl
      rw [daysInYear_eq] at years
      unfold CivilDate.dayNumber
      dsimp only
      rw [years, Nat.add_sub_cancel]
      obtain rfl | rfl : mp = 10 ∨ mp = 11 := by omega
      · have january : daysBeforeMonth (yoe + era * 400 + 1) (10 - 9) = 0 := rfl
        omega
      · have february : daysBeforeMonth (yoe + era * 400 + 1) (11 - 9) = 31 := rfl
        omega

/-- The days of the earlier years that begin in March, for any year. -/
def marchStart (year : Int) : Int := 365 * year + year / 4 - year / 100 + year / 400

theorem marchStart_eq (year : Nat) : marchStart year = marchYearStart year := by
  unfold marchStart marchYearStart
  omega

/-- The year that began in March before the month. -/
def marchYear (year month : Nat) : Int := if month ≤ 2 then (year : Int) - 1 else year

/-- The months since March, or from March of the year before. -/
def monthsFromMarch (month : Nat) : Nat := if 2 < month then month - 3 else month + 9

theorem marchStart_previous (year : Nat) : marchStart ((year : Int) - 1) + 366 = daysBeforeYear year := by
  cases year with
  | zero => decide
  | succ earlier =>
    have begun := marchYearStart_eq earlier
    have next : daysBeforeYear (earlier + 1) = daysBeforeYear earlier + daysInYear earlier := rfl
    rw [daysInYear_eq] at next
    rw [show ((earlier + 1 : Nat) : Int) - 1 = (earlier : Int) by omega, marchStart_eq]
    omega

/-- The day on which the reader begins a month: month zero is the December before, and the months past December go on
in fifths of 153 days. -/
def monthStart (year : Nat) : Nat → Int
  | 0 => (daysBeforeYear year : Int) - 31
  | 1 => daysBeforeYear year
  | 2 => daysBeforeYear year + 31
  | month + 3 => daysBeforeYear year + 59 + (if isLeap year then 1 else 0) + (153 * month + 2) / 5

theorem monthStart_later (year month : Nat) :
    monthStart year (month + 3) =
      daysBeforeYear year + 59 + ((if isLeap year then 1 else 0 : Nat) : Int) + ((153 * month + 2) / 5 : Nat) := by
  unfold monthStart
  dsimp only
  split <;> omega

/-- What the conversion of three numbers to a day count computes, whether they are a date or not. -/
theorem daysFromCivil_eq (year month day : Nat) :
    daysFromCivil year month day = monthStart year month + (day - 1) - epochDayNumber := by
  obtain ⟨y, begun⟩ : ∃ y, marchYear year month = y := ⟨_, rfl⟩
  have from_era : (if (month : Int) ≤ 2 then (year : Int) - 1 else year) = y := by
    rw [← begun]
    unfold marchYear
    split <;> split <;> omega
  have floor : (if 0 ≤ y then y else y - 399).tdiv 400 = y / 400 := by
    split
    · rw [Int.tdiv_eq_ediv_of_nonneg ‹_›]
    · have least : y = -1 := by
        unfold marchYear at begun
        split at begun <;> omega
      subst least
      decide
  have months : (if 2 < (month : Int) then (month : Int) - 3 else month + 9) = (monthsFromMarch month : Nat) := by
    unfold monthsFromMarch
    split <;> split <;> omega
  have counted : daysFromCivil year month day =
      marchStart y + ((153 * monthsFromMarch month + 2) / 5 : Nat) + (day - 1) - 719468 := by
    unfold daysFromCivil
    simp only [from_era, floor, months]
    rw [Int.tdiv_eq_ediv_of_nonneg (by omega), Int.tdiv_eq_ediv_of_nonneg (by omega),
      Int.tdiv_eq_ediv_of_nonneg (by omega)]
    unfold marchStart
    omega
  rw [counted, ← begun]
  have previous := marchStart_previous year
  have current := marchYearStart_eq year
  rw [← @Int.natCast_inj, Int.natCast_add, Int.natCast_add, ← marchStart_eq] at current
  unfold marchYear monthsFromMarch epochDayNumber
  match month with
  | 0 | 1 | 2 =>
    simp only [monthStart, Nat.reduceLeDiff, Nat.reduceLT, if_true, if_false]
    omega
  | month + 3 =>
    rw [if_neg (by omega), if_pos (by omega), monthStart_later, Nat.add_sub_cancel]
    omega

theorem monthStart_date (date : CivilDate) :
    monthStart date.year date.month = daysBeforeYear date.year + daysBeforeMonth date.year date.month := by
  obtain ⟨year, month, day, monthFrom, monthTo, dayFrom, dayTo⟩ := date
  match month with
  | 1 | 2 => rfl
  | month + 3 =>
    have before := @daysBeforeMonth_eq year (month + 3) (by omega) monthTo
    rw [Nat.add_sub_cancel] at before
    dsimp only
    rw [monthStart_later, before]
    omega

/-- The conversion of a date gives its day count from the epoch. -/
theorem daysFromCivil_date (date : CivilDate) :
    daysFromCivil date.year date.month date.day = (date.dayNumber : Int) - epochDayNumber := by
  have first := date.dayFrom
  rw [daysFromCivil_eq, monthStart_date]
  unfold CivilDate.dayNumber
  omega

end Days

/-- The digits past the milliseconds: none, three or six. -/
def FinerDigits : Type :=
  { digits : List Char // (digits.length = 0 ∨ digits.length = 3 ∨ digits.length = 6) ∧ digits.all Char.isDigit }

/-- A timestamp text as its fields. -/
structure WrittenTimestamp where
  year : DigitRun 4
  month : DigitRun 2
  day : DigitRun 2
  hour : DigitRun 2
  minute : DigitRun 2
  second : DigitRun 2
  fraction : Option (DigitRun 3 × FinerDigits)

namespace WrittenTimestamp

def fractionText (written : WrittenTimestamp) : List Char :=
  match written.fraction with
  | none => []
  | some (millis, finer) => '.' :: (millis.val ++ finer.val)

def characters (written : WrittenTimestamp) : List Char :=
  written.year.val ++ (written.month.val ++ (written.day.val ++ '-' :: (written.hour.val ++
    ':' :: (written.minute.val ++ ':' :: (written.second.val ++ written.fractionText)))))

def text (written : WrittenTimestamp) : UtcTimestamp := ⟨String.ofList written.characters⟩

/-- The milliseconds, which a text without a fraction leaves at zero. -/
def milli (written : WrittenTimestamp) : Nat :=
  match written.fraction with
  | none => 0
  | some (millis, _) => millis.value

end WrittenTimestamp

section Rows
variable {characters : List Char} {start : Nat}

theorem digitRun_split {middle stop : Nat} (first : start ≤ middle) (second : middle ≤ stop) :
    digitRun characters start stop = (digitRun characters start middle && digitRun characters middle stop) := by
  obtain ⟨left, rfl⟩ := Nat.exists_eq_add_of_le first
  obtain ⟨right, rfl⟩ := Nat.exists_eq_add_of_le second
  unfold digitRun
  rw [Nat.add_sub_cancel_left, Nat.add_sub_cancel_left, Nat.add_assoc, Nat.add_sub_cancel_left, List.take_add,
    List.all_append, List.drop_drop]

/-- A run of digits that a check has found is a field before the rest. -/
theorem field_of_digitRun {width : Nat} (enough : start + width ≤ characters.length)
    (digits : digitRun characters start (start + width)) :
    ∃ run : DigitRun width, characters.drop start = run.val ++ characters.drop (start + width) := by
  unfold digitRun at digits
  rw [Nat.add_sub_cancel_left] at digits
  refine ⟨⟨(characters.drop start).take width, ?_, digits⟩, ?_⟩
  · rw [List.length_take, List.length_drop]
    omega
  · rw [← List.drop_drop, List.take_append_drop]

theorem mark_of_getElem? {mark : Char} (here : characters[start]? = some mark) :
    characters.drop start = mark :: characters.drop (start + 1) := by
  obtain ⟨inside, rfl⟩ := List.getElem?_eq_some_iff.1 here
  exact List.drop_eq_getElem_cons inside

theorem field_at {width : Nat} {run : DigitRun width} {rest : List Char}
    (here : characters.drop start = run.val ++ rest) :
    (characters.drop start).take width = run.val ∧ characters.drop (start + width) = rest := by
  rw [← List.drop_drop, here]
  exact ⟨List.take_left' run.property.1, List.drop_left' run.property.1⟩

theorem mark_at {mark : Char} {rest : List Char} (here : characters.drop start = mark :: rest) :
    characters[start]? = some mark ∧ characters.drop (start + 1) = rest := by
  rw [← List.drop_drop, here, ← List.head?_drop, here]
  exact ⟨rfl, rfl⟩

/-- Where the fields of a text lie. -/
structure Placed (written : WrittenTimestamp) (characters : List Char) : Prop where
  year : (characters.drop 0).take 4 = written.year.val
  month : (characters.drop 4).take 2 = written.month.val
  day : (characters.drop 6).take 2 = written.day.val
  dash : characters[8]? = some '-'
  hour : (characters.drop 9).take 2 = written.hour.val
  colon : characters[11]? = some ':'
  minute : (characters.drop 12).take 2 = written.minute.val
  lastColon : characters[14]? = some ':'
  second : (characters.drop 15).take 2 = written.second.val
  rest : characters.drop 17 = written.fractionText
  length : characters.length = 17 + written.fractionText.length

theorem WrittenTimestamp.placed (written : WrittenTimestamp) : Placed written written.characters := by
  obtain ⟨year, atMonth⟩ := @field_at written.characters 0 _ written.year _ rfl
  obtain ⟨month, atDay⟩ := field_at atMonth
  obtain ⟨day, atDash⟩ := field_at atDay
  obtain ⟨dash, atHour⟩ := mark_at atDash
  obtain ⟨hour, atColon⟩ := field_at atHour
  obtain ⟨colon, atMinute⟩ := mark_at atColon
  obtain ⟨minute, atLastColon⟩ := field_at atMinute
  obtain ⟨lastColon, atSecond⟩ := mark_at atLastColon
  obtain ⟨second, rest⟩ := field_at atSecond
  refine ⟨year, month, day, dash, hour, colon, minute, lastColon, second, rest, ?_⟩
  unfold WrittenTimestamp.characters
  simp only [List.length_append, List.length_cons, written.year.property.1, written.month.property.1,
    written.day.property.1, written.hour.property.1, written.minute.property.1, written.second.property.1]
  omega

/-- A field reads as its value. -/
theorem digitsAt_field {width : Nat} {run : DigitRun width} (enough : start + width ≤ characters.length)
    (here : (characters.drop start).take width = run.val) (fits : 10 ^ width ≤ i64Max) :
    digitsAt characters start (start + width) = some run.value := by
  unfold digitsAt
  rw [if_neg (by omega), Nat.add_sub_cancel_left, here]
  exact run.checkedDigits_run fits

theorem digitRun_field {width : Nat} {run : DigitRun width} (here : (characters.drop start).take width = run.val) :
    digitRun characters start (start + width) = true := by
  unfold digitRun
  rw [Nat.add_sub_cancel_left, here]
  exact run.property.2

end Rows

namespace WrittenTimestamp

theorem fractionText_length (written : WrittenTimestamp) :
    written.fractionText.length = 0 ∧ written.fraction = none ∨
      ∃ millis finer, written.fraction = some (millis, finer) ∧ written.fractionText = '.' :: (millis.val ++ finer.val) ∧
        written.fractionText.length = 4 + finer.val.length := by
  unfold fractionText
  split
  next none => exact .inl ⟨rfl, none⟩
  next millis finer some =>
    refine .inr ⟨millis, finer, some, rfl, ?_⟩
    rw [List.length_cons, List.length_append, millis.property.1]
    omega

/-- A written row passes the check. -/
theorem valid_characters (written : WrittenTimestamp) : validUtcTimestamp written.characters = true := by
  have placed := written.placed
  have dateDigits : digitRun written.characters 0 8 = true := by
    rw [@digitRun_split _ 0 4 8 (by decide) (by decide), @digitRun_split _ 4 6 8 (by decide) (by decide)]
    simp only [Bool.and_eq_true]
    exact ⟨digitRun_field placed.year, digitRun_field placed.month, digitRun_field placed.day⟩
  have hourDigits : digitRun written.characters 9 11 = true := digitRun_field placed.hour
  have minuteDigits : digitRun written.characters 12 14 = true := digitRun_field placed.minute
  have secondDigits : digitRun written.characters 15 17 = true := digitRun_field placed.second
  unfold validUtcTimestamp
  simp only [dateDigits, hourDigits, minuteDigits, secondDigits, placed.dash, placed.colon, placed.lastColon,
    Bool.and_eq_true, Bool.or_eq_true, decide_eq_true_eq, beq_iff_eq, beq_self_eq_true, and_true]
  have length := placed.length
  refine ⟨by omega, ?_⟩
  rcases written.fractionText_length with ⟨short, -⟩ | ⟨millis, finer, -, fraction, long⟩
  · left
    omega
  · right
    have rest := placed.rest
    rw [fraction] at rest
    obtain ⟨dot, digits⟩ := mark_at rest
    rw [dot, digits, List.all_append, millis.property.2, finer.property.2]
    refine ⟨⟨?_, rfl⟩, rfl⟩
    have widths := finer.property.1
    omega

end WrittenTimestamp

/-- A text that passes the check is a written row. -/
theorem written_of_valid {characters : List Char} (valid : validUtcTimestamp characters = true) :
    ∃ written : WrittenTimestamp, characters = written.characters := by
  unfold validUtcTimestamp at valid
  simp only [Bool.and_eq_true, Bool.or_eq_true, decide_eq_true_eq, beq_iff_eq] at valid
  obtain ⟨⟨⟨⟨⟨⟨⟨⟨length, dateDigits⟩, dash⟩, hourDigits⟩, colon⟩, minuteDigits⟩, lastColon⟩, secondDigits⟩, fraction⟩ := valid
  rw [@digitRun_split _ 0 4 8 (by decide) (by decide), @digitRun_split _ 4 6 8 (by decide) (by decide)] at dateDigits
  simp only [Bool.and_eq_true] at dateDigits
  obtain ⟨yearDigits, monthDigits, dayDigits⟩ := dateDigits
  obtain ⟨year, atYear⟩ := @field_of_digitRun characters 0 4 (by omega) yearDigits
  obtain ⟨month, atMonth⟩ := @field_of_digitRun characters 4 2 (by omega) monthDigits
  obtain ⟨day, atDay⟩ := @field_of_digitRun characters 6 2 (by omega) dayDigits
  obtain ⟨hour, atHour⟩ := @field_of_digitRun characters 9 2 (by omega) hourDigits
  obtain ⟨minute, atMinute⟩ := @field_of_digitRun characters 12 2 (by omega) minuteDigits
  obtain ⟨second, atSecond⟩ := @field_of_digitRun characters 15 2 (by omega) secondDigits
  have row : characters = year.val ++ (month.val ++ (day.val ++ '-' :: (hour.val ++
      ':' :: (minute.val ++ ':' :: (second.val ++ characters.drop 17))))) := by
    conv_lhs => rw [← @List.drop_zero _ characters]
    rw [atYear, atMonth, atDay, mark_of_getElem? dash, atHour, mark_of_getElem? colon, atMinute,
      mark_of_getElem? lastColon, atSecond]
  rcases fraction with short | ⟨⟨widths, dot⟩, digits⟩
  · refine ⟨⟨year, month, day, hour, minute, second, none⟩, ?_⟩
    rwa [List.drop_of_length_le (Nat.le_of_eq short)] at row
  · have millisDigits : digitRun characters 18 21 = true := by
      unfold digitRun
      rw [List.all_eq_true] at digits ⊢
      exact fun digit member => digits digit (List.mem_of_mem_take member)
    obtain ⟨millis, atMillis⟩ := @field_of_digitRun characters 18 3 (by omega) millisDigits
    have finerLength : (characters.drop 21).length = 0 ∨ (characters.drop 21).length = 3 ∨
        (characters.drop 21).length = 6 := by
      rw [List.length_drop]
      omega
    rw [atMillis, List.all_append, Bool.and_eq_true] at digits
    refine ⟨⟨year, month, day, hour, minute, second, some (millis, ⟨characters.drop 21, finerLength, digits.2⟩)⟩, ?_⟩
    rwa [mark_of_getElem? dot, atMillis] at row

/-- The parser takes exactly the rows of fields, whatever numbers they write. -/
theorem parse_iff_written {tag : Nat} {value : String} {timestamp : UtcTimestamp} :
    UtcTimestamp.parse tag value = .ok timestamp ↔
      ∃ written : WrittenTimestamp, timestamp = written.text ∧ value = timestamp.value := by
  unfold UtcTimestamp.parse isValidUtcTimestamp
  constructor
  · intro parsed
    split at parsed
    next valid =>
      cases parsed
      obtain ⟨written, row⟩ := written_of_valid valid
      refine ⟨written, ?_, rfl⟩
      unfold WrittenTimestamp.text
      rw [← row, String.ofList_toList]
    next => cases parsed
  · rintro ⟨written, rfl, rfl⟩
    have valid := written.valid_characters
    unfold WrittenTimestamp.text
    rw [String.toList_ofList, valid, if_pos rfl]

/-- What the instant of a row is computed from. -/
theorem toEpochMs_written (written : WrittenTimestamp) :
    written.text.toEpochMs =
      let secs := daysFromCivil written.year.value written.month.value written.day.value * 86400 +
        written.hour.value * 3600 + written.minute.value * 60 + written.second.value
      if secs < 0 then none else some (secs.toNat * 1000 + written.milli) := by
  have placed := written.placed
  have length := placed.length
  have four : 10 ^ 4 ≤ i64Max := by decide
  have two : 10 ^ 2 ≤ i64Max := by decide
  have year : digitsAt written.characters 0 4 = some written.year.value := digitsAt_field (by omega) placed.year four
  have month : digitsAt written.characters 4 6 = some written.month.value := digitsAt_field (by omega) placed.month two
  have day : digitsAt written.characters 6 8 = some written.day.value := digitsAt_field (by omega) placed.day two
  have hour : digitsAt written.characters 9 11 = some written.hour.value := digitsAt_field (by omega) placed.hour two
  have minute : digitsAt written.characters 12 14 = some written.minute.value :=
    digitsAt_field (by omega) placed.minute two
  have second : digitsAt written.characters 15 17 = some written.second.value :=
    digitsAt_field (by omega) placed.second two
  unfold UtcTimestamp.toEpochMs WrittenTimestamp.text WrittenTimestamp.milli
  simp only [String.toList_ofList, year, month, day, hour, minute, second, Option.bind_eq_bind, Option.bind_some]
  rcases written.fractionText_length with ⟨short, fraction⟩ | ⟨run, finer, fraction, text, long⟩
  · rw [if_pos (by omega), fraction]
  · have rest := placed.rest
    rw [text] at rest
    have digits := (field_at (mark_at rest).2).1
    have millis : digitsAt written.characters 18 21 = some run.value := digitsAt_field (by omega) digits (by decide)
    rw [if_neg (by omega), fraction, millis]
    rfl

/-- A row whose fields are those of a date and a time of day. -/
structure WrittenTimestamp.Shows (written : WrittenTimestamp) (time : CivilTime) : Prop where
  year : written.year.value = time.year
  month : written.month.value = time.month
  day : written.day.value = time.day
  hour : written.hour.value = time.hour
  minute : written.minute.value = time.minute
  second : written.second.value = time.second
  milli : written.milli = time.milli

/-- A row that shows a time is read as the instant of that time. -/
theorem toEpochMs_shows {written : WrittenTimestamp} {time : CivilTime} (shows_ : written.Shows time) :
    written.text.toEpochMs = if time.epochMs < 0 then none else some time.epochMs.toNat := by
  have milli := time.milliTo
  rw [toEpochMs_written, shows_.year, shows_.month, shows_.day, shows_.hour, shows_.minute, shows_.second, shows_.milli,
    daysFromCivil_date]
  unfold CivilTime.epochMs CivilTime.secondOfDay
  dsimp only
  split
  next before =>
    rw [if_pos (by omega)]
  next after =>
    rw [if_neg (by omega)]
    congr 1
    omega

/-- The fractions of rows with different milliseconds are ordered by them. -/
theorem fractionText_lt {written other : WrittenTimestamp} (less : written.milli < other.milli) :
    written.fractionText < other.fractionText := by
  unfold WrittenTimestamp.milli at less
  unfold WrittenTimestamp.fractionText
  cases later : other.fraction with
  | none =>
    rw [later] at less
    exact absurd less (Nat.not_lt_zero _)
  | some fraction =>
    cases earlier : written.fraction with
    | none => exact List.nil_lt_cons _ _
    | some first =>
      rw [later, earlier] at less
      exact List.cons_lt_cons_iff.2 (.inr ⟨rfl, DigitRun.append_lt (.inl less)⟩)

/-- Rows are ordered as the instants that they show. -/
theorem WrittenTimestamp.Shows.lt {written other : WrittenTimestamp} {time later : CivilTime}
    (shown : written.Shows time) (otherShown : other.Shows later) (less : time.epochMs < later.epochMs) :
    written.characters < other.characters := by
  have mark {mark : Char} {first second : List Char} (rest : first < second) : mark :: first < mark :: second :=
    List.cons_lt_cons_iff.2 (.inr ⟨rfl, rest⟩)
  have fields := CivilTime.fields_of_epochMs_lt less
  have date : time.toCivilDate = later.toCivilDate →
      time.year = later.year ∧ time.month = later.month ∧ time.day = later.day := by
    intro same
    exact ⟨congrArg CivilDate.year same, congrArg CivilDate.month same, congrArg CivilDate.day same⟩
  unfold CivilDate.Before at fields
  rw [← shown.year, ← otherShown.year, ← shown.month, ← otherShown.month, ← shown.day, ← otherShown.day] at fields date
  rw [← shown.hour, ← otherShown.hour, ← shown.minute, ← otherShown.minute, ← shown.second, ← otherShown.second,
    ← shown.milli, ← otherShown.milli] at fields
  unfold WrittenTimestamp.characters
  rcases fields with (years | ⟨year, months | ⟨month, days⟩⟩) | ⟨same, fields⟩
  · exact DigitRun.append_lt (.inl years)
  · exact DigitRun.append_lt (.inr ⟨year, DigitRun.append_lt (.inl months)⟩)
  · exact DigitRun.append_lt (.inr ⟨year, DigitRun.append_lt (.inr ⟨month, DigitRun.append_lt (.inl days)⟩)⟩)
  · obtain ⟨year, month, day⟩ := date same
    apply DigitRun.append_lt
    refine .inr ⟨year, DigitRun.append_lt (.inr ⟨month, DigitRun.append_lt (.inr ⟨day, mark (DigitRun.append_lt ?_)⟩)⟩)⟩
    rcases fields with hours | ⟨hour, minutes | ⟨minute, seconds | ⟨second, millis⟩⟩⟩
    · exact .inl hours
    · exact .inr ⟨hour, mark (DigitRun.append_lt (.inl minutes))⟩
    · exact .inr ⟨hour, mark (DigitRun.append_lt (.inr ⟨minute, mark (DigitRun.append_lt (.inl seconds))⟩))⟩
    · refine .inr ⟨hour, mark (DigitRun.append_lt (.inr ⟨minute, mark (DigitRun.append_lt (.inr ⟨second, ?_⟩))⟩))⟩
      exact fractionText_lt millis

section Rendered

/-- The row of a time whose year has four digits. -/
def rowOf (time : CivilTime) (within : time.year < 10 ^ 4) : WrittenTimestamp where
  year := .ofNat 4 time.year (by decide) within
  month := .ofNat 2 time.month (by decide) (by have := time.monthTo; omega)
  day := .ofNat 2 time.day (by decide) (by have := daysInMonth_le time.year time.month; have := time.dayTo; omega)
  hour := .ofNat 2 time.hour (by decide) (by have := time.hourTo; omega)
  minute := .ofNat 2 time.minute (by decide) (by have := time.minuteTo; omega)
  second := .ofNat 2 time.second (by decide) (by have := time.secondTo; omega)
  fraction := some (.ofNat 3 time.milli (by decide) time.milliTo, ⟨[], .inl rfl, rfl⟩)

variable {time later : CivilTime} {within : time.year < 10 ^ 4} {laterWithin : later.year < 10 ^ 4}

theorem rowOf_shows : (rowOf time within).Shows time := by
  constructor <;> exact ofDigitChars_padded

/-- The time whose fields are the ones that the rendering of an instant divides it into. -/
structure Divided (ms : Nat) (time : CivilTime) : Prop where
  date : civilFromDays (ms / 1000 / 86400) = (time.year, time.month, time.day)
  hour : ms / 1000 % 86400 / 3600 = time.hour
  minute : ms / 1000 % 86400 % 3600 / 60 = time.minute
  second : ms / 1000 % 86400 % 60 = time.second
  milli : ms % 1000 = time.milli

/-- Every instant is divided into the fields of its time. -/
theorem divided_of_instant (ms : Nat) : ∃ time : CivilTime, Divided ms time ∧ time.epochMs = ms := by
  obtain ⟨date, computed, number⟩ := civilFromDays_date (ms / 1000 / 86400)
  refine ⟨⟨date, ms / 1000 % 86400 / 3600, ms / 1000 % 86400 % 3600 / 60, ms / 1000 % 86400 % 60, ms % 1000,
    by omega, by omega, by omega, by omega⟩, ⟨computed, rfl, rfl, rfl, rfl⟩, ?_⟩
  unfold CivilTime.epochMs CivilTime.secondOfDay
  dsimp only
  omega

/-- The instant at which the year 10000 begins. -/
def yearTenThousand : Nat := (daysBeforeYear 10000 - epochDayNumber) * 86400000

theorem four_digits (inside : time.epochMs < yearTenThousand) : time.year < 10 ^ 4 := by
  by_contra later
  have begun := daysBeforeYear_mono (Nat.le_of_not_lt later)
  have passed := CivilDate.daysBeforeYear_le time.toCivilDate
  have epoch := daysBeforeYear_mono (show 1970 ≤ 10000 by decide)
  have counted := daysBeforeYear_eq 1970
  unfold CivilTime.epochMs at inside
  unfold yearTenThousand epochDayNumber at inside
  change daysBeforeYear 10000 ≤ _ at begun
  omega

/-- What the clock renders is the row of the instant's time. -/
theorem fromEpochMs_eq {ms : Nat} (divided : Divided ms time) :
    UtcTimestamp.fromEpochMs ms = (rowOf time within).text := by
  unfold UtcTimestamp.fromEpochMs WrittenTimestamp.text WrittenTimestamp.characters WrittenTimestamp.fractionText
  dsimp only
  rw [divided.date, divided.hour, divided.minute, divided.second, divided.milli]
  simp only [rowOf, DigitRun.ofNat, List.append_assoc, List.cons_append, List.append_nil]

end Rendered

end Fauxchange.Fix
