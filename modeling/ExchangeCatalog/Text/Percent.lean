import ExchangeCatalog.Text.Split
import ExchangeCatalog.Text.Utf8

/-!
# Percent-encoded text

In an address a percent sign and two hexadecimal digits stand for a byte. A percent sign without
them stands for itself. Query parameters write a space as a plus sign besides.

## Main definitions

* `Percent.decode` — the bytes that an encoded text stands for
* `Percent.formPairs` — the decoded parameters of a query
-/

namespace ExchangeCatalog

/-- The value of a hexadecimal digit. -/
def hexValue? (b : UInt8) : Option Nat :=
  let n := b.toNat
  if 0x30 ≤ n ∧ n ≤ 0x39 then some (n - 0x30)
  else if 0x41 ≤ n ∧ n ≤ 0x46 then some (n - 0x41 + 10)
  else if 0x61 ≤ n ∧ n ≤ 0x66 then some (n - 0x61 + 10)
  else none

namespace Percent

/-- The bytes that an encoded text stands for. -/
def decode : List UInt8 → List UInt8
  | [] => []
  | 0x25 :: a :: b :: bs =>
    match hexValue? a, hexValue? b with
    | some h, some l => UInt8.ofNat (h * 16 + l) :: decode bs
    -- The two bytes may begin an encoded byte themselves.
    | _, _ => 0x25 :: decode (a :: b :: bs)
  | b :: bs => b :: decode bs

/-- One name or value of a query: plus signs are spaces, and bytes that are no UTF-8 are
replaced. -/
def formText (cs : List Char) : String :=
  -- Plus signs are replaced first, so that an encoded plus sign stays one.
  let bytes := (Utf8.encode (String.ofList cs)).map fun b => if b = 0x2B then 0x20 else b
  Utf8.decodeLossy (decode bytes)

/-- The decoded parameters of a query. Empty parts are none; a part without an equals sign has an
empty value. -/
def formPairs (query : String) : List (String × String) :=
  ((Text.pieces '&' query.toList).filter fun part => !part.isEmpty).map fun part =>
    match Text.cutFirst? '=' part with
    | some (name, value) => (formText name, formText value)
    | none => (formText part, "")

end Percent

end ExchangeCatalog
