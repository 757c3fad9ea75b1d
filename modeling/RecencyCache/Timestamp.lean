import RecencyCache.Decimal.Digits

/-!
# Times of day

A timestamp counts seconds since the start of 1970 in UTC and is written as RFC 3339 asks, in
the proleptic Gregorian calendar, which has a year zero. The fraction of a second is left out
when it is zero and otherwise has three, six or nine digits, the fewest that are exact. A year
outside 0 to 9999 carries a sign.
-/

namespace RecencyCache

/-- A day of the proleptic Gregorian calendar. -/
structure CivilDate where
  year : Int
  month : Nat
  day : Nat
  deriving DecidableEq

namespace CivilDate

/-- The day that lies `days` days after 1970-01-01.

Years are counted from the first of March, so that a leap day ends its year. The calendar
repeats after 400 years, which are 146097 days; `719468` days lead from the first of March of
year zero to 1970-01-01. -/
def ofDays (days : Int) : CivilDate :=
  let shifted := days + 719468
  let era := shifted / 146097
  let dayOfEra := (shifted % 146097).toNat
  let yearOfEra := (dayOfEra - dayOfEra / 1460 + dayOfEra / 36524 - dayOfEra / 146096) / 365
  let dayOfYear := dayOfEra - (365 * yearOfEra + yearOfEra / 4 - yearOfEra / 100)
  let monthFromMarch := (5 * dayOfYear + 2) / 153
  let day := dayOfYear - (153 * monthFromMarch + 2) / 5 + 1
  let month := if monthFromMarch < 10 then monthFromMarch + 3 else monthFromMarch - 9
  let year := (yearOfEra : Int) + era * 400
  { year := if month ≤ 2 then year + 1 else year, month, day }

/-- The year with four digits, or with a sign and at least four digits outside 0 to 9999. -/
def yearText (date : CivilDate) : String :=
  let digits := Decimal.padded 4 date.year.natAbs
  if date.year < 0 then "-" ++ digits
  else if 9999 < date.year then "+" ++ digits
  else digits

/-- The date in the form `2023-11-14`. -/
def render (date : CivilDate) : String :=
  date.yearText ++ "-" ++ Decimal.padded 2 date.month ++ "-" ++ Decimal.padded 2 date.day

end CivilDate

/-- A time of day in UTC. `nanos` is below 10^9, or below 2 · 10^9 within a leap second, which
prolongs the second that `seconds` names. -/
structure Timestamp where
  seconds : Int
  nanos : Nat
  deriving DecidableEq

namespace Timestamp

/-- The last second of the calendar, whose last day is the 31st of December 262142. -/
def lastSecond : Int := 8210266876799

/-- The time that lies `elapsed` nanoseconds after the start of 1970. -/
def ofNanos (elapsed : Int) : Timestamp :=
  { seconds := elapsed / 1000000000, nanos := (elapsed % 1000000000).toNat }

/-- The fraction of a second, with its point. -/
def fractionText (nanos : Nat) : String :=
  if nanos = 0 then ""
  else if nanos % 1000000 = 0 then "." ++ Decimal.padded 3 (nanos / 1000000)
  else if nanos % 1000 = 0 then "." ++ Decimal.padded 6 (nanos / 1000)
  else "." ++ Decimal.padded 9 nanos

/-- The time in the form `2023-11-14T22:13:20.500Z`; a leap second is written as second 60. -/
def render (time : Timestamp) : String :=
  let date := CivilDate.ofDays (time.seconds / 86400)
  let secondOfDay := (time.seconds % 86400).toNat
  let hour := secondOfDay / 3600
  let minute := secondOfDay / 60 % 60
  let second := secondOfDay % 60 + time.nanos / 1000000000
  date.render ++ "T" ++ Decimal.padded 2 hour ++ ":" ++ Decimal.padded 2 minute ++ ":"
    ++ Decimal.padded 2 second ++ fractionText (time.nanos % 1000000000) ++ "Z"

end Timestamp

end RecencyCache
