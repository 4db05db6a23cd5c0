import ExchangeCatalog.Json.Basic
import ExchangeCatalog.Text.Blank
import ExchangeCatalog.Text.Decimal
import ExchangeCatalog.Time.Printer
import ExchangeCatalog.Time.Reader

/-!
# Column values

A column holds values of one of four kinds. A filter names a value by its text, which each kind
reads in its own way; values of one kind are ordered, values of two kinds are not comparable.

## Main definitions

* `Kind`, `Kind.Carrier` — the kinds of columns and the type of the values of each
* `Value` — a value of some kind
* `Kind.read?` — the value that a filter's text names
* `Value.compare?` — the order of two values, when they are of one kind
* `Value.toJson`, `Value.ofJson?` — the JSON form of a value
-/

namespace ExchangeCatalog

/-- The kinds of columns. -/
inductive Kind
  | integer
  | text
  | boolean
  | timestamp
  deriving DecidableEq, Repr

namespace Kind

/-- The name of a kind in messages. -/
def name : Kind → String
  | integer => "integer"
  | text => "text"
  | boolean => "boolean"
  | timestamp => "timestamp"

/-- The values that a column of a kind may hold. -/
abbrev Carrier : Kind → Type
  | integer => Int64
  | text => String
  | boolean => Bool
  | timestamp => Instant

instance : (k : Kind) → DecidableEq k.Carrier
  | integer => inferInstanceAs (DecidableEq Int64)
  | text => inferInstanceAs (DecidableEq String)
  | boolean => inferInstanceAs (DecidableEq Bool)
  | timestamp => inferInstanceAs (DecidableEq Instant)

end Kind

/-- A value of some kind. -/
inductive Value
  | integer (n : Int64)
  | text (s : String)
  | boolean (b : Bool)
  | timestamp (t : Instant)
  deriving DecidableEq

/-- A truth value in a filter: a word in any case, or a digit. -/
def readBoolean? (cs : List Char) : Option Bool :=
  let word := String.ofList (cs.map Char.toLower)
  if word = "true" ∨ word = "1" then some true
  else if word = "false" ∨ word = "0" then some false
  else none

/-- What a filter's text names in a column of a kind. Text stands for itself; the other kinds allow
blanks around it. -/
def Kind.read? (k : Kind) (raw : String) : Option k.Carrier :=
  match k with
  -- Blanks are part of a text, and of no number, truth value or instant.
  | .integer => Decimal.int64? (Text.trim raw.toList)
  | .text => some raw
  | .boolean => readBoolean? (Text.trim raw.toList)
  | .timestamp => Instant.read? (Text.trim raw.toList)

/-- A value of a known kind, with its kind forgotten. -/
def Kind.value : (k : Kind) → k.Carrier → Value
  | .integer, n => .integer n
  | .text, s => .text s
  | .boolean, b => .boolean b
  | .timestamp, t => .timestamp t

namespace Value

/-- The kind of a value. -/
def kind : Value → Kind
  | integer _ => .integer
  | text _ => .text
  | boolean _ => .boolean
  | timestamp _ => .timestamp

/-- The value that a filter's text names in a column of a kind. -/
def read? (k : Kind) (raw : String) : Option Value := (k.read? raw).map k.value

/-- The order of two values of one kind: numbers by size, texts by code points, `false` before
`true`, instants by time. -/
def compare? : Value → Value → Option Ordering
  | integer a, integer b => some (Ord.compare a.toInt b.toInt)
  | text a, text b => some (Ord.compare a b)
  | boolean a, boolean b => some (Ord.compare a b)
  | timestamp a, timestamp b => some (a.compare b)
  -- Nothing of one kind comes before or after something of another.
  | _, _ => none

/-- A value as it stands in a response. -/
def toJson : Value → Json
  | integer n => .integer n.toInt
  | text s => .string s
  | boolean b => .bool b
  | timestamp t => .string t.text

/-- The value that a JSON scalar denotes on its own. A string is always text, since nothing says
that an instant is meant. -/
def ofJson? : Json → Option Value
  | .scalar (.number (.integer n)) => (Decimal.toInt64? n).map integer
  | .scalar (.string s) => some (text s)
  | .scalar (.bool b) => some (boolean b)
  | _ => none

end Value

@[simp] theorem Kind.kind_value (k : Kind) (c : k.Carrier) : (k.value c).kind = k := by
  cases k <;> rfl

end ExchangeCatalog
