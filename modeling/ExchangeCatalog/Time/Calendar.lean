/-!
# The proleptic Gregorian calendar

Days are counted from 2000-01-01, the day zero of the database's own clock. The year is taken to
begin in March, so that the leap day is its last day and the lengths of the months follow one linear
rule.

## Main definitions

* `Date` — year, month and day, with `Date.IsValid`
* `Date.toDay`, `Date.ofDay` — the day number of a date, and the date of a day number
-/

namespace ExchangeCatalog

/-- A date of the Gregorian calendar, extended to all years; year zero is the year before year
one. -/
structure Date where
  year : Int
  month : Nat
  day : Nat
  deriving DecidableEq, Repr

namespace Date

/-- Every fourth year is a leap year, except centuries that four hundred does not divide. -/
def isLeapYear (year : Int) : Bool := year % 4 == 0 && (year % 100 != 0 || year % 400 == 0)

/-- The length of a month; zero for a number that names no month. -/
def daysInMonth (year : Int) (month : Nat) : Nat :=
  match month with
  | 1 | 3 | 5 | 7 | 8 | 10 | 12 => 31
  | 4 | 6 | 9 | 11 => 30
  | 2 => if isLeapYear year then 29 else 28
  | _ => 0

/-- The date exists in the calendar. -/
def IsValid (d : Date) : Prop := 1 ≤ d.day ∧ d.day ≤ daysInMonth d.year d.month

instance (d : Date) : Decidable d.IsValid := by unfold IsValid; infer_instance

/-- Days from 0000-03-01 to 2000-01-01. -/
def dayZeroOffset : Int := 730425

/-- The number of days from 2000-01-01. -/
def toDay (d : Date) : Int :=
  -- January and February belong to the year before, whose last months they are.
  let year := if d.month ≤ 2 then d.year - 1 else d.year
  -- The calendar repeats after four hundred years, which have 146097 days.
  let era := year / 400
  let yearOfEra := year - era * 400
  let monthFromMarch : Int := (d.month + 9) % 12
  -- Five months from March on have 153 days together, and so have the next five.
  let dayOfYear := (153 * monthFromMarch + 2) / 5 + d.day - 1
  let dayOfEra := yearOfEra * 365 + yearOfEra / 4 - yearOfEra / 100 + dayOfYear
  era * 146097 + dayOfEra - dayZeroOffset

/-- The date that lies a number of days from 2000-01-01. -/
def ofDay (n : Int) : Date :=
  let z := n + dayZeroOffset
  let era := z / 146097
  let dayOfEra := z - era * 146097
  -- Leap days are taken out before the days are divided into years.
  let yearOfEra := (dayOfEra - dayOfEra / 1460 + dayOfEra / 36524 - dayOfEra / 146096) / 365
  let dayOfYear := dayOfEra - (365 * yearOfEra + yearOfEra / 4 - yearOfEra / 100)
  let monthFromMarch := (5 * dayOfYear + 2) / 153
  let day := dayOfYear - (153 * monthFromMarch + 2) / 5 + 1
  let month := if monthFromMarch < 10 then monthFromMarch + 3 else monthFromMarch - 9
  let year := yearOfEra + era * 400
  ⟨if month ≤ 2 then year + 1 else year, month.toNat, day.toNat⟩

/-- The first representable day, -262143-01-01. -/
def firstDay : Int := toDay ⟨-262143, 1, 1⟩

/-- The last representable day, 262142-12-31. -/
def lastDay : Int := toDay ⟨262142, 12, 31⟩

end Date

end ExchangeCatalog
