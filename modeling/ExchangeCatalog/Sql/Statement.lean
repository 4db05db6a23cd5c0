import ExchangeCatalog.Filter.Registry
import ExchangeCatalog.Page.Request

/-!
# Statements to the database

Rows are kept in a database that takes statements as text with numbered places, and the values for
these places beside the text. The text of a statement is made of fixed words, quoted names and
places alone, so nothing that a client sends can become part of it.

## Main definitions

* `Statement` — the statements that the service sends
* `Statement.text`, `Statement.binds` — the text of a statement and the values of its places
* `quoteName` — a name as it stands in a statement
-/

namespace ExchangeCatalog

/-- A name between double quotes, a double quote inside it written twice. -/
def quoteName (name : String) : String :=
  String.ofList ('"' :: name.toList.flatMap (fun c => if c = '"' then ['"', '"'] else [c]) ++ ['"'])

/-- The statements that the service sends. A write names each column together with its value. -/
inductive Statement
  /-- Asks for the number one. -/
  | probe
  | count (table : String) (filters : List TypedFilter)
  | page (table : String) (filters : List TypedFilter) (limit offset : Int64)
  | find (table : String) (id : Int64)
  | insert (table : String) (values : List (String × Value))
  | update (table : String) (values : List (String × Value)) (id : Int64)
  | delete (table : String) (id : Int64)
  deriving DecidableEq

namespace Statement

/-- The numbered place for a value. -/
def placeText (n : Nat) : String := "$" ++ String.ofList (Decimal.digits n)

/-- A column in a relation to a numbered place. -/
def condition (column op : String) (n : Nat) : String :=
  quoteName column ++ " " ++ op ++ " " ++ placeText n

/-- The condition that each filter passes, places numbered from one; nothing without filters. -/
def whereClause (filters : List TypedFilter) : String :=
  -- Places are numbered from one, positions from zero.
  if filters.isEmpty then ""
  else " WHERE " ++ " AND ".intercalate
    (filters.zipIdx.map fun (f, i) => condition f.column f.op.sql (i + 1))

/-- The text of a statement. -/
def text : Statement → String
  | probe => "SELECT 1"
  | count table filters => "SELECT COUNT(*) FROM " ++ quoteName table ++ whereClause filters
  | page table filters _ _ =>
    -- The places of the bounds follow those of the filters.
    "SELECT * FROM " ++ quoteName table ++ whereClause filters ++ " ORDER BY \"id\" LIMIT " ++
      placeText (filters.length + 1) ++ " OFFSET " ++ placeText (filters.length + 2)
  | find table _ => "SELECT * FROM " ++ quoteName table ++ " WHERE " ++ condition "id" "=" 1
  | insert table values =>
    "INSERT INTO " ++ quoteName table ++
      " (" ++ ", ".intercalate (values.map fun v => quoteName v.1) ++
      ") VALUES (" ++ ", ".intercalate (values.zipIdx.map fun (_, i) => placeText (i + 1)) ++
      ") RETURNING *"
  | update table values _ =>
    "UPDATE " ++ quoteName table ++ " SET " ++
      ", ".intercalate (values.zipIdx.map fun (v, i) => condition v.1 "=" (i + 1)) ++
      " WHERE " ++ condition "id" "=" (values.length + 1) ++ " RETURNING *"
  | delete table _ => "DELETE FROM " ++ quoteName table ++ " WHERE " ++ condition "id" "=" 1

/-- The values of a statement's places, in the order of their numbers. -/
def binds : Statement → List Value
  | probe => []
  | count _ filters => filters.map TypedFilter.value
  | page _ filters limit offset =>
    filters.map TypedFilter.value ++ [.integer limit, .integer offset]
  | find _ id | delete _ id => [.integer id]
  | insert _ values => values.map Prod.snd
  | update _ values id => values.map Prod.snd ++ [.integer id]

end Statement

/-- A count of rows as the database takes it, which has no unsigned words. -/
def boundedCount (n : UInt64) : Int64 :=
  if n.toNat < 0x8000000000000000 then n.toInt64 else Int64.maxValue

namespace Entity

variable (e : Entity)

/-- The statement that counts the rows which pass filters. -/
def countStatement (filters : List TypedFilter) : Statement := .count e.table filters

/-- The statement for a page of the rows that pass filters. -/
def pageStatement (filters : List TypedFilter) (request : PageRequest) : Statement :=
  .page e.table filters (boundedCount request.limit) (boundedCount request.offset)

/-- The columns of a record beside their values. -/
def assignments (r : Record e.columns) : List (String × Value) :=
  (e.columns.map Column.name).zip r.values

/-- The statement that puts in a row with a record. -/
def insertStatement (r : Record e.columns) : Statement := .insert e.table (e.assignments r)

/-- The statement that replaces a row's values. -/
def updateStatement (r : Row e) : Statement := .update e.table (e.assignments r.record) r.id

end Entity

end ExchangeCatalog
