import Fauxchange.Fix.CivilTimestamp
import Fauxchange.Fix.OrderFlow

/-! The expiry of a good-'til-date order, as the client wrote it and as it is journaled. The reader counts any fields, so
an impossible date is taken as a later one unless it is counted to before the epoch. -/

namespace Fauxchange.Fix
open Exchange hiding VenueError
open Lib OrderFlow

/-- The instant of a row is that of the date and time of day it shows, and a row that shows none is refused. -/
structure ExpiryKept (written : WrittenTimestamp) : Prop where
  instant : ∀ ms, written.text.toEpochMs = some ms → ∃ time : CivilTime, written.Shows time ∧ time.epochMs = ms
  journaled : ∀ timeInForce, seamTimeInForce .gtd (some written.text) = .ok timeInForce →
    ∃ (time : CivilTime) (deadline : Nat), written.Shows time ∧ time.epochMs = deadline ∧ timeInForce = .gtd deadline
  refused : (¬ ∃ time : CivilTime, written.Shows time) →
    ∃ error, seamTimeInForce .gtd (some written.text) = .error error

/-- The day and the time of day, counted on from where the month begins, are before the epoch. -/
def EndsBeforeEpoch (written : WrittenTimestamp) : Prop :=
  (monthStart written.year.value written.month.value + (written.day.value - 1) - epochDayNumber) * 86400 +
    written.hour.value * 3600 + written.minute.value * 60 + written.second.value < 0

/-- A row has an instant unless it is counted to before the epoch. -/
theorem toEpochMs_none_iff {written : WrittenTimestamp} : written.text.toEpochMs = none ↔ EndsBeforeEpoch written := by
  rw [toEpochMs_written, daysFromCivil_eq]
  unfold EndsBeforeEpoch
  dsimp only
  split
  next before => exact iff_of_true rfl before
  next after => exact iff_of_false nofun after

theorem expiryKept_of_shows {written : WrittenTimestamp} {time : CivilTime} (shown : written.Shows time) :
    ExpiryKept written := by
  have instant (ms : Nat) (read : written.text.toEpochMs = some ms) : time.epochMs = ms := by
    rw [toEpochMs_shows shown] at read
    split at read
    next => cases read
    next after =>
      obtain rfl : time.epochMs.toNat = ms := Option.some.inj read
      omega
  refine ⟨fun ms read => ⟨time, shown, instant ms read⟩, ?_, fun none => absurd ⟨time, shown⟩ none⟩
  intro timeInForce accepted
  unfold seamTimeInForce at accepted
  dsimp only at accepted
  split at accepted
  next => cases accepted
  next deadline read =>
    cases accepted
    exact ⟨time, deadline, shown, instant deadline read, rfl⟩

theorem expiryKept_of_endsBeforeEpoch {written : WrittenTimestamp} (before : EndsBeforeEpoch written) :
    ExpiryKept written := by
  have unread := toEpochMs_none_iff.2 before
  have refused : seamTimeInForce .gtd (some written.text) =
      .error (.invalidOrder "GTD ExpireTime (126) is before the Unix epoch") := by
    unfold seamTimeInForce
    dsimp only
    rw [unread]
  constructor
  · intro ms read
    rw [unread] at read
    cases read
  · intro timeInForce accepted
    rw [refused] at accepted
    cases accepted
  · exact fun _ => ⟨_, refused⟩

/-- The parser accepts every row of digits, and the expiry is the one written exactly for the rows that show a date and
a time of day and for those counted to before the epoch. -/
theorem expireTime_kept_iff (tag : Nat) (value : String) (timestamp : UtcTimestamp) (written : WrittenTimestamp) :
    (UtcTimestamp.parse tag value = .ok timestamp ↔
      ∃ row : WrittenTimestamp, timestamp = row.text ∧ value = timestamp.value) ∧
    (ExpiryKept written ↔ (∃ time : CivilTime, written.Shows time) ∨ EndsBeforeEpoch written) := by
  refine ⟨parse_iff_written, ?_, ?_⟩
  · intro kept
    cases read : written.text.toEpochMs with
    | none => exact .inr (toEpochMs_none_iff.1 read)
    | some ms =>
      obtain ⟨time, shown, -⟩ := kept.instant ms read
      exact .inl ⟨time, shown⟩
  · rintro (⟨time, shown⟩ | before)
    · exact expiryKept_of_shows shown
    · exact expiryKept_of_endsBeforeEpoch before

/-- A day that February never has is accepted and expires on the second of March. -/
theorem februaryThirtyFirst_expires :
    UtcTimestamp.parse Tag.expireTime "20240231-00:00:00" = .ok ⟨"20240231-00:00:00"⟩ ∧
      seamTimeInForce .gtd (some ⟨"20240231-00:00:00"⟩) = .ok (.gtd 1709337600000) ∧
      UtcTimestamp.fromEpochMs 1709337600000 = ⟨"20240302-00:00:00.000"⟩ ∧
      ∀ written : WrittenTimestamp, written.text = ⟨"20240231-00:00:00"⟩ →
        (∀ time : CivilTime, ¬ written.Shows time) ∧ ¬ ExpiryKept written := by
  have read : UtcTimestamp.toEpochMs ⟨"20240231-00:00:00"⟩ = some 1709337600000 := by decide +kernel
  refine ⟨by decide +kernel, by decide +kernel, by decide +kernel, fun written text => ?_⟩
  have row : written.characters = "20240231-00:00:00".toList := by
    have value : String.ofList written.characters = "20240231-00:00:00" := congrArg UtcTimestamp.value text
    rw [← value, String.toList_ofList]
  have placed := written.placed
  have month : written.month.value = 2 := by
    unfold DigitRun.value
    rw [← placed.month, row]
    decide
  have day : written.day.value = 31 := by
    unfold DigitRun.value
    rw [← placed.day, row]
    decide
  have unreal (time : CivilTime) : ¬ written.Shows time := by
    intro shown
    have last := time.dayTo
    rw [← shown.day, ← shown.month, day, month] at last
    have short : daysInMonth time.year 2 ≤ 29 := by
      change (if isLeap time.year then 29 else 28) ≤ 29
      split <;> decide
    omega
  refine ⟨unreal, fun kept => ?_⟩
  obtain ⟨time, shown, -⟩ := kept.instant 1709337600000 (by rw [text]; exact read)
  exact unreal time shown

end Fauxchange.Fix
