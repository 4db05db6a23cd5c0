import ExchangeCatalog.Time.Calendar

/-!
# Instants

An instant is a moment of universal time with nanoseconds. A leap second extends the second `59` of
its minute: its fraction runs on from one to two thousand million nanoseconds, so it orders after
every other moment of that second and before the next one.

## Main definitions

* `Instant` — day, second of the day and nanosecond, within the representable years
* `Instant.compare` — the order of time
* `Instant.ofLocal?` — the instant of a local date and time at an offset from universal time
* `Instant.micros`, `Instant.ofMicros?` — the database's count of microseconds since 2000-01-01
-/

namespace ExchangeCatalog

/-- A representable moment of universal time. -/
structure Instant where
  /-- Days from 2000-01-01. -/
  day : Int
  /-- Seconds from midnight. -/
  second : Nat
  /-- Nanoseconds from the start of the second; a thousand million or more inside a leap second. -/
  nano : Nat
  firstDay_le : Date.firstDay ≤ day
  day_le : day ≤ Date.lastDay
  second_lt : second < 86400
  nano_lt : nano < 2000000000
  leap_at_end : 1000000000 ≤ nano → second % 60 = 59
  deriving DecidableEq

namespace Instant

/-- The instant with the given parts, when they lie in the representable range. -/
def ofParts? (day : Int) (second nano : Nat) : Option Instant :=
  if h : Date.firstDay ≤ day ∧ day ≤ Date.lastDay ∧ second < 86400 ∧ nano < 2000000000 ∧
      (1000000000 ≤ nano → second % 60 = 59) then
    some ⟨day, second, nano, h.1, h.2.1, h.2.2.1, h.2.2.2.1, h.2.2.2.2⟩
  else none

/-- Earlier instants come first. -/
def compare (a b : Instant) : Ordering :=
  (Ord.compare a.day b.day).then ((Ord.compare a.second b.second).then (Ord.compare a.nano b.nano))

instance : Ord Instant := ⟨compare⟩

/-- The nanosecond of a clock reading: second sixty is a leap second, whose fraction runs on past a
thousand million. -/
def clockNano (second fraction : Nat) : Nat :=
  if second = 60 then fraction + 1000000000 else fraction

/-- The instant of a local date and clock time, `offset` minutes ahead of universal time. A second
`60` is the leap second of its minute, whichever minute that is. Fails outside the representable
range. -/
def ofLocal? (date : Date) (hour minute second fraction : Nat) (offset : Int) : Option Instant :=
  -- A clock reading below midnight or past it lands on a neighbouring day.
  let clock : Int := hour * 3600 + minute * 60 + (if second = 60 then 59 else second) - offset * 60
  ofParts? (date.toDay + clock / 86400) (clock % 86400).toNat (clockNano second fraction)

/-- Nanoseconds from 2000-01-01; inside a leap second the count runs into the next second. -/
def nanosSinceEpoch (t : Instant) : Int := (t.day * 86400 + t.second) * 1000000000 + t.nano

/-- Microseconds from 2000-01-01, what is below a microsecond cut off toward zero. -/
def micros (t : Instant) : Int := t.nanosSinceEpoch.tdiv 1000

/-- The instant that lies a number of microseconds from 2000-01-01, if it is representable. -/
def ofMicros? (n : Int) : Option Instant :=
  let seconds := n / 1000000
  ofParts? (seconds / 86400) (seconds % 86400).toNat ((n % 1000000).toNat * 1000)

end Instant

end ExchangeCatalog
