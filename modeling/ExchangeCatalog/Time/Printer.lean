import ExchangeCatalog.Text.Decimal
import ExchangeCatalog.Time.Instant

/-!
# The text of an instant

Instants are written in universal time, with the fewest of no, three, six or nine fractional digits
that lose nothing. Years of up to four digits are written with four; any other year carries a sign.

## Main definitions

* `Instant.text` — the text of an instant
-/

namespace ExchangeCatalog

/-- A year in the written form of an instant: four digits, or a sign and at least four digits after
a minus and five after a plus. -/
def Date.yearText (year : Int) : List Char :=
  if 0 ≤ year ∧ year ≤ 9999 then Decimal.padded 4 year.natAbs
  else (if year < 0 then '-' else '+') :: Decimal.padded 4 year.natAbs

namespace Instant

/-- The fraction of a second, with its point; nothing for a whole second. -/
def fractionText (nano : Nat) : List Char :=
  if nano = 0 then []
  else if nano % 1000000 = 0 then '.' :: Decimal.padded 3 (nano / 1000000)
  else if nano % 1000 = 0 then '.' :: Decimal.padded 6 (nano / 1000)
  else '.' :: Decimal.padded 9 nano

/-- The clock of an instant: hours, minutes, seconds and fraction; a leap second shows as second
sixty. -/
def clockText (second nano : Nat) : List Char :=
  let leap := 1000000000 ≤ nano
  Decimal.padded 2 (second / 3600) ++ ':' :: Decimal.padded 2 (second / 60 % 60) ++
    ':' :: Decimal.padded 2 (second % 60 + if leap then 1 else 0) ++
    fractionText (if leap then nano - 1000000000 else nano)

/-- The text of an instant in universal time, ending in `Z`. -/
def text (t : Instant) : String :=
  let d := Date.ofDay t.day
  String.ofList (Date.yearText d.year ++ '-' :: Decimal.padded 2 d.month ++
    '-' :: Decimal.padded 2 d.day ++ 'T' :: clockText t.second t.nano ++ ['Z'])

end Instant

end ExchangeCatalog
