import WindowTally.Time.Millis

/-!
# Calendar text of an event time

A time is written as a date and time of day in the proleptic Gregorian calendar,
in UTC. Dates are kept from the start of year -262143 to the end of year 262142,
so a time far from the epoch has no calendar form (`Moment.ofMillis?`).

* `Civil.ofDay` is the date of a day counted from 1970-01-01,
* `Moment.textMillis` always shows three fraction digits,
* `Moment.textUtc` shows them only when the fraction is not zero, and names the zone.
-/
namespace WindowTally

/-- A date of the proleptic Gregorian calendar. -/
structure Civil where
  year : Int
  month : Nat
  day : Nat
  deriving DecidableEq, Repr

namespace Civil

/-- The date of the day `z` days after 1970-01-01. Years are counted from March,
so the leap day ends its year and 400 years are one cycle of 146097 days. -/
def ofDay (z : Int) : Civil :=
  let n := z + 719468
  let cycle := n / 146097
  let dayOfCycle := (n % 146097).toNat
  let yearOfCycle :=
    (dayOfCycle - dayOfCycle / 1460 + dayOfCycle / 36524 - dayOfCycle / 146096) / 365
  let dayOfYear := dayOfCycle - (365 * yearOfCycle + yearOfCycle / 4 - yearOfCycle / 100)
  let monthFromMarch := (5 * dayOfYear + 2) / 153
  let day := dayOfYear - (153 * monthFromMarch + 2) / 5 + 1
  let month := if monthFromMarch < 10 then monthFromMarch + 3 else monthFromMarch - 9
  let year := (yearOfCycle : Int) + cycle * 400
  ⟨if month ≤ 2 then year + 1 else year, month, day⟩

end Civil

/-- `n` in decimal with at least `width` digits. -/
def padded (width n : Nat) : String :=
  let digits := Nat.toDigits 10 n
  String.ofList (List.replicate (width - digits.length) '0' ++ digits)

namespace Civil

/-- A year has at least four digits; outside 0 to 9999 it also has a sign. -/
def yearText (year : Int) : String :=
  if 0 ≤ year ∧ year ≤ 9999 then padded 4 year.toNat
  else if year < 0 then "-" ++ padded 4 year.natAbs
  else "+" ++ padded 4 year.natAbs

/-- `YYYY-MM-DD`. -/
def text (c : Civil) : String :=
  yearText c.year ++ "-" ++ padded 2 c.month ++ "-" ++ padded 2 c.day

end Civil

/-- A date and a time of day, to the millisecond. -/
structure Moment where
  date : Civil
  milliOfDay : Nat
  deriving DecidableEq, Repr

namespace Moment

/-- The first and the last time that have a calendar form. -/
def firstMillis : Int := -8334601228800000

def lastMillis : Int := 8210266876799999

/-- The calendar form of a time, if it has one. -/
def ofMillis? (m : Millis) : Option Moment :=
  if firstMillis ≤ m.toInt ∧ m.toInt ≤ lastMillis then
    some ⟨Civil.ofDay (m.toInt / 86400000), (m.toInt % 86400000).toNat⟩
  else none

/-- `HH:MM:SS`. -/
def clockText (t : Moment) : String :=
  padded 2 (t.milliOfDay / 3600000) ++ ":" ++ padded 2 (t.milliOfDay / 60000 % 60) ++ ":" ++
    padded 2 (t.milliOfDay / 1000 % 60)

/-- `.fff`. -/
def fractionText (t : Moment) : String := "." ++ padded 3 (t.milliOfDay % 1000)

/-- `YYYY-MM-DD HH:MM:SS.fff`. -/
def textMillis (t : Moment) : String :=
  t.date.text ++ " " ++ t.clockText ++ t.fractionText

/-- `YYYY-MM-DD HH:MM:SS UTC`, with `.fff` after the seconds unless it is zero. -/
def textUtc (t : Moment) : String :=
  let fraction := if t.milliOfDay % 1000 = 0 then "" else t.fractionText
  t.date.text ++ " " ++ t.clockText ++ fraction ++ " UTC"

end Moment

end WindowTally
