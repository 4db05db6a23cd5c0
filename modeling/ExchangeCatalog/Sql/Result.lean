import ExchangeCatalog.Entity.Basic

/-!
# What the database answers

A statement ends with rows, with a count of the rows it touched, with a refusal, or with a broken
connection. Rows are read by the names of their columns: where columns stand, and which others stand
beside them, does not matter.

## Main definitions

* `ResultSet`, `Outcome` — rows with their columns, and the four endings of a statement
* `ResultSet.cell?` — the cell of a row under a name
* `ResultSet.row?` — a row read as a row of an entity
-/

namespace ExchangeCatalog

/-- The types of result columns. -/
inductive ResultType
  | bigint
  | integer
  /-- Any type whose values are read as texts, such as `TEXT` and `VARCHAR`. -/
  | text
  | boolean
  | timestamp
  deriving DecidableEq, Repr

/-- A value in a result; instants are counted in microseconds from 2000-01-01. -/
inductive Cell
  | number (n : Int)
  | text (s : String)
  | boolean (b : Bool)
  | micros (n : Int)
  deriving DecidableEq, Repr

/-- A column of a result. -/
structure ResultColumn where
  name : String
  type : ResultType
  deriving DecidableEq, Repr

/-- Rows with their columns; a cell may be empty. -/
structure ResultSet where
  columns : List ResultColumn
  rows : List (List (Option Cell))
  deriving DecidableEq, Repr

/-- How a statement ends. -/
inductive Outcome
  | rows (result : ResultSet)
  | affected (n : Nat)
  | refused (code message : String)
  | lost
  deriving DecidableEq, Repr

/-- The result type that holds the values of a kind. -/
def Kind.resultType : Kind → ResultType
  | integer => .bigint
  | text => .text
  | boolean => .boolean
  | timestamp => .timestamp

/-- The value of a kind that a cell holds. -/
def Kind.ofCell? (k : Kind) (c : Cell) : Option k.Carrier :=
  match k, c with
  | .integer, .number n => Decimal.toInt64? n
  | .text, .text s => some s
  | .boolean, .boolean b => some b
  | .timestamp, .micros n => Instant.ofMicros? n
  | _, _ => none

/-- The cell under the last column with a name, and that column's type. -/
def cellOf? (columns : List ResultColumn) (cells : List (Option Cell)) (name : String) :
    Option (ResultType × Option Cell) :=
  -- Of two columns with one name the later hides the earlier.
  ((columns.zip cells).reverse.find? fun p => p.1.name == name).map fun p => (p.1.type, p.2)

/-- The value of a kind under a name; the column must have exactly the type of the kind, and the
cell a value. -/
def valueUnder? (columns : List ResultColumn) (cells : List (Option Cell)) (name : String)
    (k : Kind) : Option k.Carrier :=
  match cellOf? columns cells name with
  -- A column of a wider or narrower type is not converted.
  | some (type, some cell) => if type = k.resultType then k.ofCell? cell else none
  | _ => none

/-- The record whose values stand under the names of its columns. -/
def recordUnder? (columns : List ResultColumn) (cells : List (Option Cell)) :
    (cs : List Column) → Option (Record cs)
  | [] => some .nil
  | c :: cs => do
    let x ← valueUnder? columns cells c.name c.kind
    let xs ← recordUnder? columns cells cs
    some (.cons x xs)

/-- A row of an entity, read from the cells of a result. -/
def Entity.rowOf? (e : Entity) (columns : List ResultColumn) (cells : List (Option Cell)) :
    Option (Row e) := do
  let id ← valueUnder? columns cells Column.id.name Column.id.kind
  let record ← recordUnder? columns cells e.columns
  some ⟨id, record⟩

/-- The first cell of the first row, when its column has the given type and it has a value. -/
def ResultSet.first? (r : ResultSet) (type : ResultType) : Option Cell :=
  match r.columns, r.rows with
  | c :: _, (some cell :: _) :: _ => if c.type = type then some cell else none
  | _, _ => none

end ExchangeCatalog
