/-!
# Whole numbers in decimal text

Every whole number of the service is read by one grammar: an optional single sign, then one or more
ASCII digits, leading zeros allowed. Digits of other scripts are no digits here.

## Main definitions

* `Decimal.digits`, `Decimal.ofInt` — the decimal text of a number
* `Decimal.nat?`, `Decimal.int?` — the number that a text spells
* `Decimal.int64?`, `Decimal.uint64?` — the same within a word of 64 bits
-/

namespace ExchangeCatalog.Decimal

/-- The ASCII digits. -/
def isDigit (c : Char) : Bool := '0' ≤ c && c ≤ '9'

/-- The number that one ASCII digit stands for. -/
def digitValue (c : Char) : Nat := c.toNat - '0'.toNat

/-- The digit of a number below ten. -/
def digitChar (n : Nat) : Char := Char.ofNat ('0'.toNat + n)

/-- The number that a run of digits spells, most significant first. -/
def ofDigits (cs : List Char) : Nat := cs.foldl (fun n c => n * 10 + digitValue c) 0

/-- The decimal digits of a number, most significant first and without leading zeros. -/
def digits (n : Nat) : List Char :=
  if n < 10 then [digitChar n] else digits (n / 10) ++ [digitChar (n % 10)]
termination_by n
decreasing_by omega

/-- The decimal text of an integer: a minus sign only below zero. -/
def ofInt (n : Int) : List Char := if n < 0 then '-' :: digits n.natAbs else digits n.natAbs

/-- The digits of `n`, with zeros in front up to `width` characters. -/
def padded (width n : Nat) : List Char :=
  let ds := digits n
  List.replicate (width - ds.length) '0' ++ ds

/-- Ten to a power. -/
def tenTo (n : Nat) : Nat := Nat.pow 10 n

/-- One or more digits and nothing else. -/
def nat? (cs : List Char) : Option Nat :=
  if cs ≠ [] ∧ cs.all isDigit then some (ofDigits cs) else none

/-- An optional sign, then one or more digits and nothing else. -/
def int? : List Char → Option Int
  | '+' :: cs => (nat? cs).map Int.ofNat
  | '-' :: cs => (nat? cs).map fun n => -Int.ofNat n
  | cs => (nat? cs).map Int.ofNat

/-- An integer as a signed word, when it fits. -/
def toInt64? (n : Int) : Option Int64 :=
  if -0x8000000000000000 ≤ n ∧ n < 0x8000000000000000 then some (Int64.ofInt n) else none

/-- A signed word in the grammar of `int?`. -/
def int64? (cs : List Char) : Option Int64 := (int? cs).bind toInt64?

/-- An unsigned word: an optional plus sign, then digits. -/
def uint64? (cs : List Char) : Option UInt64 :=
  let n := match cs with
    | '+' :: ds => nat? ds
    | ds => nat? ds
  n.bind fun n => if n < UInt64.size then some (UInt64.ofNat n) else none

end ExchangeCatalog.Decimal
