import ExchangeCatalog.Number.Binary64
import ExchangeCatalog.Text.Split

/-!
# Reading decimal text as floating point

Decimal text is an optional sign and digits with a point anywhere among them or none, and an
exponent may follow. The words for infinity and for what is no number count in any letter case.

## Main definitions

* `Binary64.read?` — the value nearest to the number that a text spells
-/

namespace ExchangeCatalog.Binary64

/-- The value nearest to an unsigned number that a text spells, with the given sign. -/
private def readUnsigned? (negative : Bool) (body : List Char) : Option Binary64 :=
  let word := String.ofList (body.map Char.toLower)
  if word = "inf" ∨ word = "infinity" then some (.infinite negative)
  else if word = "nan" then some .notANumber
  else
    let isMark := fun (c : Char) => c == 'e' || c == 'E'
    let mantissa := body.takeWhile fun c => !isMark c
    let (whole, fraction) := match Text.cutFirst? '.' mantissa with
      | some (a, b) => (a, b)
      | none => (mantissa, [])
    let exponent : Option Int := match body.dropWhile fun c => !isMark c with
      | [] => some 0
      | _ :: e => Decimal.int? e
    -- Either side of the point may be empty, but not both.
    let ds := whole ++ fraction
    match exponent with
    | some e =>
      if ds ≠ [] ∧ ds.all Decimal.isDigit then
        some (ofDecimal negative (Decimal.ofDigits ds) (e - fraction.length))
      else none
    | none => none

/-- The value nearest to the number that a text spells; infinite when that is too large. -/
def read? : List Char → Option Binary64
  | '-' :: cs => readUnsigned? true cs
  | '+' :: cs => readUnsigned? false cs
  | cs => readUnsigned? false cs

end ExchangeCatalog.Binary64
