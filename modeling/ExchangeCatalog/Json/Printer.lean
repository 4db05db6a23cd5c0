import ExchangeCatalog.Json.Basic
import ExchangeCatalog.Number.Shortest
import ExchangeCatalog.Text.Decimal

/-!
# Writing JSON values

Values are written without blanks, members in the order in which they stand. Only the quote, the
backslash and the control characters are escaped.

## Main definitions

* `Json.render` — the text of a value
-/

namespace ExchangeCatalog.Json

/-- One character inside a JSON string. -/
def escapedChar (c : Char) : List Char :=
  match c with
  | '"' => ['\\', '"']
  | '\\' => ['\\', '\\']
  | '\x08' => ['\\', 'b']
  | '\x0c' => ['\\', 'f']
  | '\n' => ['\\', 'n']
  | '\r' => ['\\', 'r']
  | '\t' => ['\\', 't']
  | _ =>
    if c.toNat < 0x20 then
      let ds := Nat.toDigits 16 c.toNat
      ['\\', 'u'] ++ List.replicate (4 - ds.length) '0' ++ ds
    else [c]

/-- A JSON string. -/
def stringChars (s : String) : List Char := '"' :: s.toList.flatMap escapedChar ++ ['"']

/-- A scalar value. -/
def scalarChars : Scalar → List Char
  | .null => "null".toList
  | .bool b => (if b then "true" else "false").toList
  | .number (.integer n) => Decimal.ofInt n
  | .number (.real x) => x.literal.toList
  | .string s => stringChars s

mutual

/-- The characters of a value. -/
def chars : Json → List Char
  | .scalar s => scalarChars s
  | .array [] => ['[', ']']
  | .array (v :: vs) => '[' :: chars v ++ itemsChars vs
  | .object [] => ['\x7b', '\x7d']
  | .object ((k, v) :: ms) => '\x7b' :: stringChars k ++ ':' :: chars v ++ membersChars ms

/-- The items after the first, with the closing bracket. -/
def itemsChars : List Json → List Char
  | [] => [']']
  | v :: vs => ',' :: chars v ++ itemsChars vs

/-- The members after the first, with the closing brace. -/
def membersChars : List (String × Json) → List Char
  | [] => ['\x7d']
  | (k, v) :: ms => ',' :: stringChars k ++ ':' :: chars v ++ membersChars ms

end

/-- The text of a value. -/
def render (v : Json) : String := String.ofList (chars v)

end ExchangeCatalog.Json
