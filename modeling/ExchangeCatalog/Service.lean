import ExchangeCatalog.Repository.Basic
import ExchangeCatalog.Text.Quoted

/-!
# The catalog service

The service of an entity turns each request of a client into questions to a repository. A change to
a row is two questions, the row and its replacement; another request may come between them.

## Main definitions

* `Service.list`, `Service.get`, `Service.create`, `Service.replace`, `Service.patch`,
  `Service.delete`
-/

namespace ExchangeCatalog

/-- A plan over the questions to a repository of an entity that may end in a fault. -/
abbrev Session (e : Entity) (α : Type) := Plan (Call e) Call.Answer (Except Fault α)

namespace Service

variable {e : Entity}

/-- Asks a repository and goes on unless it answers with a fault. -/
def asking {α : Type} (c : Call e) (next : c.Result → Session e α) : Session e α :=
  .ask c fun answer =>
    match answer with
    | .ok r => next r
    | .error fault => .done (.error fault)

/-- A row that must be there. -/
def found (r : Option (Row e)) : Except Fault (Row e) :=
  match r with
  | some r => .ok r
  | none => .error (.rowNotFound e.label)

/-- A page of the rows that pass the predicates which the entity allows. -/
def list (predicates : List Predicate) (request : PageRequest) : Session e (Page (Row e)) :=
  asking (.page (e.retain predicates) request) fun page => .done (.ok page)

/-- The row with an identifier. -/
def get (id : Int64) : Session e (Row e) :=
  asking (.find id) fun r => .done (found r)

/-- A new row. -/
def create (record : Record e.columns) : Session e (Row e) :=
  asking (.create record) fun r => .done (.ok r)

/-- The row with an identifier, changed. -/
def change (id : Int64) (edit : Row e → Row e) : Session e (Row e) :=
  asking (.find id) fun r =>
    match found r with
    | .error fault => .done (.error fault)
    | .ok r => asking (.update (edit r)) fun r => .done (found r)

/-- The row with an identifier, every value replaced. -/
def replace (id : Int64) (record : Record e.columns) : Session e (Row e) :=
  change id fun r => { r with record := record }

/-- The row with an identifier, some values replaced. -/
def patch (id : Int64) (p : Patch e.columns) : Session e (Row e) :=
  change id fun r => r.applyPatch p

/-- No row with an identifier any more; there must have been one. -/
def delete (id : Int64) : Session e Unit :=
  asking (.delete id) fun (removed : Bool) =>
    .done (if removed then .ok () else .error (.rowNotFound e.label))

/-- The service of an entity in a log. -/
def description (e : Entity) : String :=
  "CatalogService \x7b table: " ++ Text.quoted e.table ++ " \x7d"

end Service

end ExchangeCatalog
