import Mathlib.Data.String.Basic
import Fauxchange.Fix.CivilTimestamp

/-! The text of an instant on the credential plane, beside the one on the FIX wire. -/

namespace Fauxchange.Rest
open Exchange Fauxchange.Fix Lib

/-- The instant of a count of seconds, with a third copy of the conversion from days. -/
def formatRfc3339Utc (secs : Nat) : String :=
  let days := secs / 86400
  let rem := secs % 86400
  let (hour, minute, second) := (rem / 3600, rem % 3600 / 60, rem % 60)
  let z := days + 719468
  let era := z / 146097
  let doe := z - era * 146097
  let yoe := (doe - doe / 1460 + doe / 36524 - doe / 146096) / 365
  let year := yoe + era * 400
  let doy := doe - (365 * yoe + yoe / 4 - yoe / 100)
  let mp := (5 * doy + 2) / 153
  let day := doy - (153 * mp + 2) / 5 + 1
  let month := if mp < 10 then mp + 3 else mp - 9
  let year := if month ≤ 2 then year + 1 else year
  .ofList (padded 4 year ++ '-' :: padded 2 month ++ '-' :: padded 2 day ++ 'T' :: padded 2 hour ++
    ':' :: padded 2 minute ++ ':' :: padded 2 second ++ ['Z'])

/-- The date and the time of day of a row, with the separators of RFC 3339. -/
def rfc3339 (written : WrittenTimestamp) : String :=
  .ofList (written.year.val ++ '-' :: written.month.val ++ '-' :: written.day.val ++ 'T' :: written.hour.val ++
    ':' :: written.minute.val ++ ':' :: written.second.val ++ ['Z'])

/-- The third copy divides an instant into the same fields. -/
theorem formatRfc3339Utc_eq {ms : Nat} {time : CivilTime} {within : time.year < 10 ^ 4} (divided : Divided ms time) :
    formatRfc3339Utc (ms / 1000) = rfc3339 (rowOf time within) := by
  have copied : formatRfc3339Utc (ms / 1000) =
      let (year, month, day) := civilFromDays (ms / 1000 / 86400)
      .ofList (padded 4 year ++ '-' :: padded 2 month ++ '-' :: padded 2 day ++
        'T' :: padded 2 (ms / 1000 % 86400 / 3600) ++ ':' :: padded 2 (ms / 1000 % 86400 % 3600 / 60) ++
        ':' :: padded 2 (ms / 1000 % 86400 % 60) ++ ['Z']) := rfl
  rw [copied, divided.date, divided.hour, divided.minute, divided.second]
  rfl

/-- Up to the year 10000 the clock is rendered as the row of its civil time, which is read back as the same instant and
shown alike on the credential plane, and the texts are ordered as the instants. -/
theorem timestamps_exact :
    (∀ ms < yearTenThousand, ∃ (time : CivilTime) (written : WrittenTimestamp), time.epochMs = ms ∧ written.Shows time ∧
      UtcTimestamp.fromEpochMs ms = written.text ∧
      (∀ tag, UtcTimestamp.parse tag (UtcTimestamp.fromEpochMs ms).value = .ok (UtcTimestamp.fromEpochMs ms)) ∧
      (UtcTimestamp.fromEpochMs ms).toEpochMs = some ms ∧ formatRfc3339Utc (ms / 1000) = rfc3339 written) ∧
    ∀ earlier later, earlier < later → later < yearTenThousand →
      (UtcTimestamp.fromEpochMs earlier).value < (UtcTimestamp.fromEpochMs later).value := by
  have rendered (ms : Nat) (inside : ms < yearTenThousand) : ∃ (time : CivilTime) (within : time.year < 10 ^ 4),
      Divided ms time ∧ time.epochMs = ms ∧ UtcTimestamp.fromEpochMs ms = (rowOf time within).text := by
    obtain ⟨time, divided, instant⟩ := divided_of_instant ms
    have within : time.year < 10 ^ 4 := by
      apply four_digits
      rw [instant]
      exact_mod_cast inside
    exact ⟨time, within, divided, instant, fromEpochMs_eq divided⟩
  constructor
  · intro ms inside
    obtain ⟨time, within, divided, instant, text⟩ := rendered ms inside
    refine ⟨time, rowOf time within, instant, rowOf_shows, text, ?_, ?_, formatRfc3339Utc_eq divided⟩
    · intro tag
      exact parse_iff_written.2 ⟨_, text, rfl⟩
    · rw [text, toEpochMs_shows rowOf_shows, instant, if_neg (by omega), Int.toNat_natCast]
  · intro earlier later less inside
    obtain ⟨time, within, -, instant, text⟩ := rendered earlier (Nat.lt_trans less inside)
    obtain ⟨laterTime, laterWithin, -, laterInstant, laterText⟩ := rendered later inside
    rw [text, laterText, String.lt_iff_toList_lt]
    unfold WrittenTimestamp.text
    rw [String.toList_ofList, String.toList_ofList]
    apply rowOf_shows.lt rowOf_shows
    rw [instant, laterInstant]
    exact_mod_cast less

end Fauxchange.Rest
