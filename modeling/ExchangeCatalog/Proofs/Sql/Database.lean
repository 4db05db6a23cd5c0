import ExchangeCatalog.Proofs.Sql.Query
import ExchangeCatalog.Sql.Result

/-!
# A database of one table

The database is known by what it does with the text of a statement and the values of its places: the
text is read as a query, the names in it are looked up among the columns, each place is given its
value, which must be of the column's type, and the query is carried out. It sees nothing of a
statement but these two, and it refuses what it cannot read, what names another table or column, and
what gives a column the wrong type.

Text is stored whatever its characters are and ordered by code points; an empty cell meets no
condition and stands last in the order of a column. The database hands out identifiers itself.

## Main definitions

* `Cell.ofValue`, `Cell.compare?`, `Sql.Comparison.holds` — values in cells and what is asked of
  them
* `Sql.StoredRow.precedes` — the order of rows by a column of numbers
* `Sql.Database` — the table
* `Sql.Database.carryOut?` — what a query does
* `Sql.Database.execute` — what a statement does
-/

namespace ExchangeCatalog

namespace Cell

/-- The type of the columns that may hold a cell. -/
def type : Cell → ResultType
  | number _ => .bigint
  | text _ => .text
  | boolean _ => .boolean
  | micros _ => .timestamp

/-- A value as it is stored. -/
def ofValue : Value → Cell
  | .integer n => number n.toInt
  | .text s => text s
  | .boolean b => boolean b
  | .timestamp t => micros t.micros

/-- The order of two cells of one type. -/
def compare? : Cell → Cell → Option Ordering
  | number a, number b => some (Ord.compare a b)
  | text a, text b => some (Ord.compare a b)
  | boolean a, boolean b => some (Ord.compare a b)
  | micros a, micros b => some (Ord.compare a b)
  | _, _ => none

end Cell

namespace Sql

/-- Whether two cells that are ordered so stand in the relation. -/
def Comparison.holds : Comparison → Ordering → Bool
  | eq, o => o.isEq
  | lt, o => o.isLT
  | le, o => o.isLE
  | gt, o => o.isGT
  | ge, o => o.isGE

/-- A stored row: the cell under each name, if there is one that is not empty. -/
abbrev StoredRow := String → Option Cell

namespace StoredRow

/-- A row with some of its cells written. -/
def write (cells : List (String × Cell)) (row : StoredRow) : StoredRow :=
  fun name => (cells.lookup name).or (row name)

/-- A row that has nothing but its identifier. -/
def identified (id : Int) : StoredRow :=
  fun name => if name = Column.id.name then some (.number id) else none

/-- What a row is ordered by in a column of numbers, if its cell is not empty. -/
def key? (column : String) (row : StoredRow) : Option Int :=
  match row column with
  | some (.number n) => some n
  | _ => none

/-- Whether a row may stand before another in the order of a column; empty cells come last. -/
def precedes (column : String) (a b : StoredRow) : Bool :=
  match a.key? column, b.key? column with
  | some m, some n => decide (m ≤ n)
  | none, some _ => false
  | _, none => true

/-- Before a row with a number may stand only one whose number is no greater. -/
theorem precedes_iff {column : String} {a b : StoredRow} :
    a.precedes column b ↔ ∀ n ∈ b.key? column, ∃ m ∈ a.key? column, m ≤ n := by
  rw [precedes]
  cases a.key? column with
  | none =>
    cases b.key? column with
    | none => exact iff_of_true rfl nofun
    | some n => exact iff_of_false Bool.false_ne_true fun h => nomatch h n rfl
  | some m =>
    cases b.key? column with
    | none => exact iff_of_true rfl nofun
    | some n =>
      rw [decide_eq_true_eq]
      constructor
      · rintro hle _ ⟨⟩
        exact ⟨m, rfl, hle⟩
      · intro h
        obtain ⟨_, ⟨⟩, hle⟩ := h n rfl
        exact hle

theorem precedes_trans (column : String) (a b c : StoredRow) (hab : a.precedes column b)
    (hbc : b.precedes column c) : a.precedes column c := by
  rw [precedes_iff] at hab hbc ⊢
  intro k hk
  obtain ⟨n, hn, hnk⟩ := hbc k hk
  obtain ⟨m, hm, hmn⟩ := hab n hn
  exact ⟨m, hm, Int.le_trans hmn hnk⟩

theorem precedes_total (column : String) (a b : StoredRow) :
    a.precedes column b || b.precedes column a := by
  rw [Bool.or_eq_true, precedes_iff, precedes_iff]
  cases a.key? column with
  | none => exact Or.inr nofun
  | some m =>
    cases b.key? column with
    | none => exact Or.inl nofun
    | some n =>
      refine (Int.le_total m n).imp ?_ ?_
      · rintro hle _ ⟨⟩
        exact ⟨m, rfl, hle⟩
      · rintro hle _ ⟨⟩
        exact ⟨n, rfl, hle⟩

end StoredRow

/-- A table of the database. -/
structure Database where
  table : String
  columns : List ResultColumn
  rows : List StoredRow
  /-- The identifier that the next new row gets. -/
  next : Int

/-- The value of a place; places are numbered from one. -/
def valueAt? (values : List Cell) : Nat → Option Cell
  | 0 => none
  | n + 1 => values[n]?

/-- The number of rows that a place stands for. -/
def countAt? (values : List Cell) (place : Nat) : Option Nat :=
  match valueAt? values place with
  | some (.number n) => if 0 ≤ n then some n.toNat else none
  | _ => none

namespace Database

variable (db : Database) (values : List Cell)

/-- The type of the column with a name. -/
def typeOf? (name : String) : Option ResultType :=
  (db.columns.find? fun c => c.name == name).map ResultColumn.type

/-- The value of a place for a column, which must be of the column's type. -/
def valueFor? (column : String) (place : Nat) : Option Cell := do
  let type ← db.typeOf? column
  let value ← valueAt? values place
  if value.type = type then some value else none

/-- The rows that meet a condition. -/
def test? (c : Condition) : Option (StoredRow → Bool) :=
  (db.valueFor? values c.column c.place).map fun value row =>
    ((row c.column).bind fun cell => cell.compare? value).any c.comparison.holds

/-- The rows that meet all conditions. -/
def tests? (cs : List Condition) : Option (StoredRow → Bool) :=
  (cs.mapM (db.test? values)).map fun tests row => tests.all fun test => test row

/-- The cell that an assignment writes, beside the name of its column. -/
def cell? (a : Assignment) : Option (String × Cell) :=
  (db.valueFor? values a.column a.place).map fun value => (a.column, value)

/-- The cells that assignments write. A column is written once, and the identifier never. -/
def cells? (as : List Assignment) : Option (List (String × Cell)) :=
  if (Column.id.name :: as.map Assignment.column).Nodup then
    as.mapM (db.cell? values)
  else none

/-- Rows in the order of a column, without those before the window and those after it. -/
def windowed? (w : Window) (rows : List StoredRow) : Option (List StoredRow) := do
  let limit ← countAt? values w.limit
  let offset ← countAt? values w.offset
  if db.typeOf? w.column = some .bigint then
    let sorted := rows.mergeSort (StoredRow.precedes w.column)
    some ((sorted.drop offset).take limit)
  else none

/-- Rows as they are sent, each with a cell for every column. -/
def result (rows : List StoredRow) : Outcome :=
  .rows ⟨db.columns, rows.map fun row => db.columns.map fun c => row c.name⟩

/-- What a query ends with, and the database after it. -/
def carryOut? : Query → Option (Outcome × Database)
  | .count _ cs => do
    let meets ← db.tests? values cs
    some (.rows ⟨[⟨"count", .bigint⟩], [[some (.number (db.rows.filter meets).length)]]⟩, db)
  | .select _ cs none => do
    let meets ← db.tests? values cs
    some (db.result (db.rows.filter meets), db)
  | .select _ cs (some w) => do
    let meets ← db.tests? values cs
    let rows ← db.windowed? values w (db.rows.filter meets)
    some (db.result rows, db)
  | .insert _ as => do
    let cells ← db.cells? values as
    let row := (StoredRow.identified db.next).write cells
    -- Identifiers are used up one by one, whether or not a row is put in.
    if 0x8000000000000000 ≤ db.next then none
    else if db.rows.any fun r => r Column.id.name == some (.number db.next) then
      some (.refused "23505" "duplicate key", { db with next := db.next + 1 })
    else some (db.result [row], { db with rows := db.rows ++ [row], next := db.next + 1 })
  | .update _ as cs => do
    let meets ← db.tests? values cs
    let cells ← db.cells? values as
    some (db.result ((db.rows.filter meets).map (StoredRow.write cells)),
      { db with rows := db.rows.map fun row => if meets row then row.write cells else row })
  | .delete _ cs => do
    let meets ← db.tests? values cs
    some (.affected (db.rows.filter meets).length,
      { db with rows := db.rows.filter fun row => !meets row })

/-- What a text with values for its places ends with, when it asks something of this table. -/
def respond? (text : String) (binds : List Value) : Option (Outcome × Database) := do
  let query ← Query.ofText? text
  if query.table = db.table then db.carryOut? (binds.map Cell.ofValue) query else none

/-- What a statement ends with, and the database after it. -/
def execute (s : Statement) (db : Database) : Outcome × Database :=
  match db.respond? s.text s.binds with
  | some answer => answer
  | none => (.refused "42000" "the statement cannot be carried out", db)

end Database

end Sql

end ExchangeCatalog
