import ExchangeCatalog.Number.Binary64
import ExchangeCatalog.Text.Decimal

/-!
# Shortest decimal text of a floating-point number

A floating-point number is written with the fewest significant digits that still read back as it; of
two such decimals the nearer one is taken. Where the decimal point goes, and whether an exponent is
written, is the business of the format that asks.

## Main definitions

* `Binary64.shortest` — the digits and the decimal exponent
* `Binary64.positional` — the number without an exponent, a whole number without a point
* `Binary64.literal` — the number as JSON messages show it: with a point or an exponent, always
-/

namespace ExchangeCatalog.Binary64

/-- The least and greatest points of the interval that rounds to a value, over four times the
value's own denominator, and whether the ends belong to it. -/
private def interval (m : Nat) (e : Int) : Nat × Nat × Bool :=
  let below := if m = hiddenBit ∧ leastExponent < e then 1 else 2
  (4 * m - below, 4 * m + 2, m % 2 == 0)

/-- Whether `num / den < 10 ^ p` fails, that is, whether the quotient reaches that power of ten. -/
private def reaches (num den : Nat) (p : Int) : Bool :=
  if 0 ≤ p then den * Decimal.tenTo p.toNat ≤ num else den ≤ num * Decimal.tenTo (-p).toNat

/-- The exponent of the leading decimal digit of a positive quotient. -/
def decimalExponent (num den : Nat) : Int :=
  let guess : Int := ((num.log2 : Int) - den.log2) * 30103 / 100000
  if reaches num den (guess + 1) then guess + 1
  else if reaches num den guess then guess
  else guess - 1

/-- The best decimal of `n` significant digits inside the interval of a value, as digits and the
exponent of the last of them. -/
private def candidate (m : Nat) (e : Int) (n : Nat) : Option (Nat × Int) :=
  let value := ratio m e
  -- The power of ten of the last of `n` digits.
  let place := decimalExponent value.1 value.2 - (n : Int) + 1
  let (low, high, closed) := interval m e
  let unit := ratio 1 e
  let (up, down) : Nat × Nat :=
    if 0 ≤ place then (Decimal.tenTo place.toNat, 1) else (1, Decimal.tenTo (-place).toNat)
  -- The ends of the interval and the decimal are compared over one common denominator.
  let inside := fun (d : Nat) =>
    let x := 4 * d * up * unit.2
    let l := low * down * unit.1
    let h := high * down * unit.1
    if closed then decide (l ≤ x ∧ x ≤ h) else decide (l < x ∧ x < h)
  -- If any decimal of this length lies inside, one of the value's two neighbours does.
  let d := value.1 * down / (value.2 * up)
  let r := value.1 * down % (value.2 * up)
  let upperNearer := decide (value.2 * up < 2 * r) || (value.2 * up == 2 * r && d % 2 == 1)
  match inside d, inside (d + 1) with
  | true, true => some (if upperNearer then d + 1 else d, place)
  | true, false => some (d, place)
  | false, true => some (d + 1, place)
  | false, false => none

/-- Removes the zeros at the end of a significand, raising the exponent for each. -/
private def stripZeros (d : Nat) (p : Int) : Nat × Int :=
  if h : d = 0 ∨ d % 10 ≠ 0 then (d, p) else stripZeros (d / 10) (p + 1)
termination_by d
decreasing_by omega

/-- The shortest digits of a finite positive value, and the power of ten of the last digit.
Seventeen digits always suffice. -/
def shortest (m : Nat) (e : Int) : Nat × Int :=
  match (List.range 17).findSome? fun n => candidate m e (n + 1) with
  | some (d, p) => stripZeros d p
  | none => (0, 0)

private def signed (negative : Bool) (cs : List Char) : String :=
  String.ofList (if negative then '-' :: cs else cs)

/-- Digits with the last one at the power of ten `p`, written without an exponent. -/
private def plain (ds : List Char) (p : Int) : List Char :=
  if 0 ≤ p then ds ++ List.replicate p.toNat '0'
  else
    let places := (-p).toNat
    if places < ds.length then ds.take (ds.length - places) ++ '.' :: ds.drop (ds.length - places)
    else '0' :: '.' :: List.replicate (places - ds.length) '0' ++ ds

/-- A number without an exponent; a whole number has no point. -/
def positional : Binary64 → String
  | .notANumber => "NaN"
  | .infinite negative => signed negative "inf".toList
  | .finite negative m e =>
    if m = 0 then signed negative ['0']
    else
      let (d, p) := shortest m e
      signed negative (plain (Decimal.digits d) p)

/-- A number as JSON messages show it: never as a whole number's plain text. From `1e-5` up to
`1e16` it is positional, with `.0` after a whole number; outside it has one digit before the point
and a signed exponent. -/
def literal : Binary64 → String
  | .notANumber => "NaN"
  | .infinite negative => signed negative "inf".toList
  | .finite negative m e =>
    if m = 0 then signed negative "0.0".toList
    else
      let (d, p) := shortest m e
      let ds := Decimal.digits d
      let leading : Int := p + (ds.length : Int) - 1
      if -5 ≤ leading ∧ leading < 16 then
        signed negative (if 0 ≤ p then plain ds p ++ ['.', '0'] else plain ds p)
      else
        let fraction := ds.drop 1
        let mark := if leading < 0 then "e-".toList else "e+".toList
        signed negative (ds.take 1 ++ (if fraction = [] then [] else '.' :: fraction) ++ mark ++
          Decimal.digits leading.natAbs)

end ExchangeCatalog.Binary64
