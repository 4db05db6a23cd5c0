import ExchangeCatalog.Repository.Basic
import ExchangeCatalog.Repository.Table

/-!
# The repository in memory

The rows of an entity are kept in a table beside a counter, which hands out identifiers. Each
question to the repository is a plan over steps that happen at once; a new row takes two of them,
its identifier and its place, and other steps may happen in between.

## Main definitions

* `MemoryStore` — a table and its counter
* `MemoryStore.Step`, `MemoryStore.apply` — the indivisible steps and what they do
* `MemoryStore.ofRows?` — the store of a list of rows
* `MemoryStore.answer` — a question to the repository as a plan over steps
-/

namespace ExchangeCatalog

/-- The rows of an entity and the identifier that the next new row gets. -/
structure MemoryStore (e : Entity) where
  table : Table e
  nextId : Int64

namespace MemoryStore

variable {e : Entity}

/-- The store without rows; identifiers start from one. -/
def empty : MemoryStore e := ⟨Table.empty, 1⟩

/-- The store of a list of rows, which hands out identifiers above all of theirs. Fails when the
greatest identifier has no successor. -/
def ofRows? (rs : List (Row e)) : Option (MemoryStore e) :=
  let table := Table.ofRows rs
  match table.lastId? with
  -- A greatest identifier below zero is followed by one that need not be positive.
  | none => some ⟨table, 1⟩
  | some id => if id = Int64.maxValue then none else some ⟨table, id + 1⟩

/-- A step that happens at once. -/
inductive Step (e : Entity)
  /-- Takes the next identifier. -/
  | takeId
  /-- Puts a row in. -/
  | insert (row : Row e)
  /-- Reads the row of an identifier. -/
  | read (id : Int64)
  /-- Puts a row in the place of one with its identifier. -/
  | overwrite (row : Row e)
  /-- Removes the row of an identifier. -/
  | remove (id : Int64)
  /-- Reads a page of the rows that pass filters. -/
  | select (filters : List TypedFilter) (request : PageRequest)

/-- What a step answers. -/
abbrev Step.Answer {e : Entity} : Step e → Type
  | takeId => Int64
  | insert _ => Unit
  | read _ => Option (Row e)
  | overwrite _ => Bool
  | remove _ => Bool
  | select .. => Page (Row e)

/-- A page of the rows that pass filters. -/
def selectPage (t : Table e) (filters : List TypedFilter) (request : PageRequest) : Page (Row e) :=
  let matching := t.rows.filter (passes filters)
  ⟨(matching.drop request.offset.toNat).take request.limit.toNat, UInt64.ofNat matching.length⟩

/-- What a step answers, and the store after it. The counter wraps around at the greatest
identifier. -/
def apply : (step : Step e) → MemoryStore e → step.Answer × MemoryStore e
  | .takeId, s => (s.nextId, { s with nextId := s.nextId + 1 })
  | .insert row, s => ((), { s with table := s.table.insert row })
  | .read id, s => (s.table.find? id, s)
  | .overwrite row, s =>
    if (s.table.find? row.id).isSome then (true, { s with table := s.table.insert row })
    else (false, s)
  | .remove id, s =>
    if (s.table.find? id).isSome then (true, { s with table := s.table.erase id }) else (false, s)
  | .select filters request, s => (selectPage s.table filters request, s)

/-- The steps that answer a question to the repository. Filters are read before any step. -/
def answer : (c : Call e) → Plan (Step e) Step.Answer c.Answer
  | .find id => .ask (.read id) fun r => .done (.ok r)
  | .page filters request =>
    match typedFilters filters with
    | .error fault => .done (.error fault)
    | .ok filters => .ask (.select filters request) fun page => .done (.ok page)
  -- The identifier is taken before the row is put in, so no two new rows share one.
  | .create record =>
    .ask .takeId fun id => .ask (.insert ⟨id, record⟩) fun _ => .done (.ok ⟨id, record⟩)
  | .update row =>
    .ask (.overwrite row) fun there => .done (.ok (if (there : Bool) then some row else none))
  | .delete id => .ask (.remove id) fun removed => .done (.ok removed)

/-- Runs a session of the service against the store, its steps one after the other. -/
def run {α : Type} (s : MemoryStore e) (session : Plan (Call e) Call.Answer α) :
    α × MemoryStore e :=
  (session.through answer).run apply s

end MemoryStore

end ExchangeCatalog
