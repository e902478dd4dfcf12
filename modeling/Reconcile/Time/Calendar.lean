/-!
# The civil calendar

Dates of the Gregorian calendar, run back before its introduction, and the days they are away from
1 January 1970. Years are counted from March inside an era of 400 years, so that the leap day is
the last day of its year and every era has the same 146097 days.
-/

namespace Reconcile

/-- A calendar date. Year 0 is the year before year 1. -/
structure Date where
  year : Int
  month : Int
  day : Int
deriving DecidableEq, Repr

namespace Date

/-- Days in an era of 400 years. -/
def eraDays : Int := 146097

/-- Days from 1 March of year 0 to 1 January 1970. -/
def epochShift : Int := 719468

def isLeapYear (year : Int) : Bool :=
  year % 4 = 0 && (year % 100 != 0 || year % 400 = 0)

def monthDays (year month : Int) : Int :=
  if month = 2 then (if isLeapYear year then 29 else 28)
  else if month = 4 || month = 6 || month = 9 || month = 11 then 30
  else 31

/-- The first and last year that instants reach. -/
def firstYear : Int := -262143

def lastYear : Int := 262142

/-- Whether the date exists and lies in the range of instants. -/
def isValid (d : Date) : Bool :=
  firstYear ≤ d.year && d.year ≤ lastYear && 1 ≤ d.month && d.month ≤ 12 &&
    1 ≤ d.day && d.day ≤ monthDays d.year d.month

/-- Days of a March year before one of its months, March being month 0. -/
def daysBeforeMonth (month : Int) : Int :=
  (153 * month + 2) / 5

def daysBeforeYear (year : Int) : Int :=
  365 * year + year / 4 - year / 100

/-- Days since 1 January 1970. -/
def toDays (d : Date) : Int :=
  let year := if d.month ≤ 2 then d.year - 1 else d.year
  let month := if d.month ≤ 2 then d.month + 9 else d.month - 3
  year / 400 * eraDays + daysBeforeYear (year % 400) + daysBeforeMonth month + (d.day - 1) -
    epochShift

def ofDays (days : Int) : Date :=
  let shifted := days + epochShift
  let era := shifted / eraDays
  let dayOfEra := shifted % eraDays
  let yearOfEra := (dayOfEra - dayOfEra / 1460 + dayOfEra / 36524 - dayOfEra / 146096) / 365
  let dayOfYear := dayOfEra - daysBeforeYear yearOfEra
  let month := (5 * dayOfYear + 2) / 153
  let year := era * 400 + yearOfEra
  let day := dayOfYear - daysBeforeMonth month + 1
  if month < 10 then ⟨year, month + 3, day⟩ else ⟨year + 1, month - 9, day⟩

end Date

end Reconcile
