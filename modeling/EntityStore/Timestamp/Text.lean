import EntityStore.Timestamp.Basic

/-!
The calendar form of a timestamp.

`Date.ofDayNumber` reads a count of days off the proleptic Gregorian calendar.
It counts years from March on, so that the leap day is the last day of a year,
and works in eras of 400 years, after which the calendar repeats.
`Timestamp.toString` writes the RFC 3339 form in UTC with three digits of the
second's fraction, further digits cut off.
-/

namespace EntityStore

/-- A day of the proleptic Gregorian calendar; year 0 is the year before year 1. -/
structure Date where
  year : Int
  month : Nat
  day : Nat
  deriving DecidableEq

namespace Date

/-- Days from 0000-03-01 to 1970-01-01. -/
def epochOffset : Int := 719468

/-- Days in 400 consecutive years. -/
def daysPerEra : Int := 146097

/-- The date that lies a number of days after 1970-01-01. -/
def ofDayNumber (days : Int) : Date :=
  let shifted := days + epochOffset
  let era := shifted / daysPerEra
  let dayOfEra := (shifted % daysPerEra).toNat
  let yearOfEra :=
    (dayOfEra - dayOfEra / 1460 + dayOfEra / 36524 - dayOfEra / 146096) / 365
  let dayOfYear := dayOfEra - (365 * yearOfEra + yearOfEra / 4 - yearOfEra / 100)
  let monthFromMarch := (5 * dayOfYear + 2) / 153
  let day := dayOfYear - (153 * monthFromMarch + 2) / 5 + 1
  let month := if monthFromMarch < 10 then monthFromMarch + 3 else monthFromMarch - 9
  let year := Int.ofNat yearOfEra + era * 400
  ⟨if month ≤ 2 then year + 1 else year, month, day⟩

end Date

/-- Decimal digits, filled up with zeros on the left. -/
def paddedDecimal (width n : Nat) : String :=
  String.ofList ((toString n).toList.leftpad width '0')

/-- The years 0 to 9999 have four digits; any other year has a sign and at
least four digits. -/
def Date.yearText (year : Int) : String :=
  if year < 0 then "-" ++ paddedDecimal 4 year.natAbs
  else if 9999 < year then "+" ++ paddedDecimal 4 year.natAbs
  else paddedDecimal 4 year.natAbs

namespace Timestamp

/-- The RFC 3339 form in UTC, to the millisecond.  Within a leap second the
seconds read 60. -/
protected def toString (t : Timestamp) : String :=
  let date := Date.ofDayNumber (t.seconds / secondsPerDay)
  let secondOfDay := (t.seconds % secondsPerDay).toNat
  let leap := if t.inLeapSecond then 1 else 0
  let milliseconds := (t.nanos - leap * nanosPerSecond) / 1000000
  Date.yearText date.year ++ "-" ++ paddedDecimal 2 date.month ++ "-" ++
    paddedDecimal 2 date.day ++ "T" ++ paddedDecimal 2 (secondOfDay / 3600) ++ ":" ++
    paddedDecimal 2 (secondOfDay / 60 % 60) ++ ":" ++
    paddedDecimal 2 (secondOfDay % 60 + leap) ++ "." ++ paddedDecimal 3 milliseconds ++ "Z"

instance : ToString Timestamp := ⟨Timestamp.toString⟩

end Timestamp

end EntityStore
