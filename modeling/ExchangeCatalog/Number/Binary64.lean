import ExchangeCatalog.Text.Decimal

/-!
# Binary floating point

Numbers with a fraction or an exponent are held as binary floating point of 64 bits. They matter in
two places only: a message shows the number that was found where another kind was expected, and a
setting given as such a number is turned into a whole number or a text. Both depend on the exact
value, so values are kept as an integer times a power of two, and every rounding is done on whole
numbers.

## Main definitions

* `Binary64` — a value: finite, infinite or not a number
* `Binary64.ofRatio` — the value nearest to a quotient, a tie going to the even significand
* `Binary64.ofDecimal` — the value nearest to a decimal number
* `Binary64.roundAway` — the nearest whole number, a half going away from zero
-/

namespace ExchangeCatalog

/-- A value of binary floating point. A finite one is `significand * 2 ^ exponent`, with the
significand below `2 ^ 53` and, except at the least exponent `-1074`, at least `2 ^ 52`. -/
inductive Binary64
  | finite (negative : Bool) (significand : Nat) (exponent : Int)
  | infinite (negative : Bool)
  | notANumber
  deriving DecidableEq, Repr

namespace Binary64

/-- The least exponent of a finite value. -/
def leastExponent : Int := -1074

/-- The leading bit of a significand above the least exponent, which is `2 ^ 52`. -/
def hiddenBit : Nat := 0x10000000000000

/-- The greatest exponent of a finite value. -/
def greatestExponent : Int := 971

/-- The quotient `num / (den * 2 ^ e)` as a whole number and a remainder over a new denominator. -/
private def scaled (num den : Nat) (e : Int) : Nat × Nat :=
  if 0 ≤ e then (num, den <<< e.toNat) else (num <<< (-e).toNat, den)

/-- The whole number nearest to `num / den`, a tie going to the even one. -/
def roundHalfEven (num den : Nat) : Nat :=
  let q := num / den
  let r := num % den
  if 2 * r < den then q else if den < 2 * r then q + 1 else if q % 2 = 0 then q else q + 1

/-- The value nearest to `num / den`, with the given sign; infinite when the quotient is too
large. -/
def ofRatio (negative : Bool) (num den : Nat) : Binary64 :=
  if num = 0 then .finite negative 0 leastExponent
  else
    -- The lengths of the operands give the exponent up to one.
    let guess : Int := (num.log2 : Int) - den.log2 - 53
    let wide := scaled num den guess
    let e := max leastExponent (if wide.1 / wide.2 < 2 * hiddenBit then guess else guess + 1)
    let fit := scaled num den e
    let m := roundHalfEven fit.1 fit.2
    -- Rounding up may lengthen the significand by one bit.
    let (m, e) := if m = 2 * hiddenBit then (hiddenBit, e + 1) else (m, e)
    if greatestExponent < e then .infinite negative else .finite negative m e

/-- The value nearest to `digits * 10 ^ exponent`. Exponents far outside the range are answered
without computing the power. -/
def ofDecimal (negative : Bool) (digits : Nat) (exponent : Int) : Binary64 :=
  let size : Int := (digits.log2 : Int) * 3 / 10 + exponent
  if digits = 0 then .finite negative 0 leastExponent
  else if 400 < size then .infinite negative
  else if size < -400 - (digits.log2 : Int) then .finite negative 0 leastExponent
  else if 0 ≤ exponent then ofRatio negative (digits * Decimal.tenTo exponent.toNat) 1
  else ofRatio negative digits (Decimal.tenTo (-exponent).toNat)

/-- The absolute value of a finite number as a quotient of whole numbers. -/
def ratio (significand : Nat) (exponent : Int) : Nat × Nat :=
  if 0 ≤ exponent then (significand <<< exponent.toNat, 1)
  else (significand, 1 <<< (-exponent).toNat)

/-- Whether a value is zero, of either sign. -/
def isZero : Binary64 → Bool
  | .finite _ m _ => m == 0
  | _ => false

/-- The rounded product of a value with a power of ten that is itself rounded; `places` may be
negative, and then it is the rounded quotient. Infinite or undefined operands are returned as they
are. -/
def scaleTen (x : Binary64) (places : Int) : Binary64 :=
  match x, ofDecimal false 1 places.natAbs with
  | .finite s m e, .finite _ m' e' =>
    let a := ratio m e
    let b := ratio m' e'
    if 0 ≤ places then ofRatio s (a.1 * b.1) (a.2 * b.2) else ofRatio s (a.1 * b.2) (a.2 * b.1)
  | x, _ => x

/-- The whole number nearest to a finite value's magnitude, a half going away from zero, with its
sign. -/
def roundAway (negative : Bool) (significand : Nat) (exponent : Int) : Int :=
  let r := ratio significand exponent
  let n : Int := (2 * r.1 + r.2) / (2 * r.2)
  if negative then -n else n

end Binary64

end ExchangeCatalog
