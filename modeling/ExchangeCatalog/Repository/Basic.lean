import ExchangeCatalog.Filter.Registry
import ExchangeCatalog.Page.Request
import ExchangeCatalog.Plan

/-!
# What a repository can be asked

## Main definitions

* `Call` — the five requests to a repository of an entity's rows, and `Call.Answer`, what each is
  answered
-/

namespace ExchangeCatalog

/-- A request to a repository. -/
inductive Call (e : Entity)
  /-- The row with an identifier. -/
  | find (id : Int64)
  /-- A page of the rows that pass filters. -/
  | page (filters : List RetainedFilter) (request : PageRequest)
  /-- A new row with a record. -/
  | create (record : Record e.columns)
  /-- A row in place of the one with its identifier. -/
  | update (row : Row e)
  /-- No row with an identifier any more. -/
  | delete (id : Int64)

/-- What a repository answers, if nothing goes wrong. -/
abbrev Call.Result {e : Entity} : Call e → Type
  | find _ => Option (Row e)
  | page .. => Page (Row e)
  | create _ => Row e
  | update _ => Option (Row e)
  | delete _ => Bool

/-- What a repository answers. -/
abbrev Call.Answer {e : Entity} (c : Call e) : Type := Except Fault c.Result

end ExchangeCatalog
