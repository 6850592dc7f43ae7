import Fauxchange.Fix.Price

/-! FIX UTC timestamps: the structural check, the rendering of the venue clock and its reading back. -/

namespace Fauxchange.Fix
open Exchange Lib

/-- The exact wire string of a UTC timestamp field. -/
structure UtcTimestamp where
  value : String
  deriving DecidableEq, Repr

def digitRun (characters : List Char) (start stop : Nat) : Bool :=
  ((characters.drop start).take (stop - start)).all Char.isDigit

/-- `YYYYMMDD-HH:MM:SS`, optionally with a fraction of 3, 6 or 9 digits. -/
def validUtcTimestamp (characters : List Char) : Bool :=
  17 ≤ characters.length && digitRun characters 0 8 && characters[8]? == some '-' &&
    digitRun characters 9 11 && characters[11]? == some ':' && digitRun characters 12 14 &&
    characters[14]? == some ':' && digitRun characters 15 17 &&
    (characters.length == 17 ||
      (characters.length == 21 || characters.length == 24 || characters.length == 27) &&
        characters[17]? == some '.' && (characters.drop 18).all Char.isDigit)

def isValidUtcTimestamp (value : String) : Bool := validUtcTimestamp value.toList

/-- Howard Hinnant's `civil_from_days`: the year, month and day of a count of days from the epoch. The
count is not negative, so the branch for the eras before year zero is not reached. -/
def civilFromDays (days : Nat) : Nat × Nat × Nat :=
  let z := days + 719468
  let era := z / 146097
  let doe := z - era * 146097
  let yoe := (doe - doe / 1460 + doe / 36524 - doe / 146096) / 365
  let doy := doe - (365 * yoe + yoe / 4 - yoe / 100)
  let mp := (5 * doy + 2) / 153
  let day := doy - (153 * mp + 2) / 5 + 1
  let month := if mp < 10 then mp + 3 else mp - 9
  let year := yoe + era * 400
  (if month ≤ 2 then year + 1 else year, month, day)

/-- The inverse of `civil_from_days`, with the division of `i64`. Fields of four and two digits keep
every step within `i64`, so none of the source's checks fails. -/
def daysFromCivil (year month day : Int) : Int :=
  let y := if month ≤ 2 then year - 1 else year
  let era := (if 0 ≤ y then y else y - 399).tdiv 400
  let yoe := y - era * 400
  let mp := if 2 < month then month - 3 else month + 9
  let doy := (153 * mp + 2).tdiv 5 + (day - 1)
  let doe := yoe * 365 + yoe.tdiv 4 - yoe.tdiv 100 + doy
  era * 146097 + doe - 719468

def digitsAt (characters : List Char) (start stop : Nat) : Option Nat :=
  if characters.length < stop then none
  else checkedDigits i64Max ((characters.drop start).take (stop - start))

namespace UtcTimestamp

def fromEpochMs (ms : Nat) : UtcTimestamp :=
  let secs := ms / 1000
  let rem := secs % 86400
  let (year, month, day) := civilFromDays (secs / 86400)
  ⟨String.ofList (padded 4 year ++ padded 2 month ++ padded 2 day ++ '-' :: padded 2 (rem / 3600) ++
    ':' :: padded 2 (rem % 3600 / 60) ++ ':' :: padded 2 (rem % 60) ++ '.' :: padded 3 (ms % 1000))⟩

/-- The instant in milliseconds, or nothing before the epoch; finer fractions are truncated. -/
def toEpochMs (timestamp : UtcTimestamp) : Option Nat := do
  let characters := timestamp.value.toList
  let year ← digitsAt characters 0 4
  let month ← digitsAt characters 4 6
  let day ← digitsAt characters 6 8
  let hour ← digitsAt characters 9 11
  let minute ← digitsAt characters 12 14
  let second ← digitsAt characters 15 17
  let millis ← if characters.length = 17 then some 0 else digitsAt characters 18 21
  let secs := daysFromCivil year month day * 86400 + hour * 3600 + minute * 60 + second
  if secs < 0 then none else some (secs.toNat * 1000 + millis)

end UtcTimestamp

example : (UtcTimestamp.fromEpochMs 1711713600500).value = "20240329-12:00:00.500" := by decide +kernel

example : UtcTimestamp.toEpochMs ⟨"20240329-12:00:00.123456"⟩ = some 1711713600123 := by decide +kernel

end Fauxchange.Fix
