import ExchangeCatalog.Repository.Basic
import ExchangeCatalog.Sql.Result
import ExchangeCatalog.Sql.Statement

/-!
# The repository on a database

Each question to the repository is a plan over statements. A statement that is refused because a key
is taken or missing is a conflict, and its text is passed on; any other failure, and any reply that
cannot be read, is reported without details.

## Main definitions

* `SqlRepository.answer` — a question to the repository as a plan over statements
* `SqlRepository.probe` — the question whether the database answers at all
-/

namespace ExchangeCatalog

/-- A plan over statements. -/
abbrev StatementPlan (α : Type) := Plan Statement (fun _ => Outcome) α

namespace SqlRepository

variable {e : Entity}

/-- The codes of refusals because of a key that is taken or missing. -/
def isKeyViolation (code : String) : Bool := code == "23505" || code == "23503"

/-- The fault of a statement that was refused. -/
def refusal (label : String) (activity : Activity) (code message : String) : Fault :=
  if isKeyViolation code then .conflict label activity message else .database label activity

/-- The rows that a statement ended with; a count of touched rows is no row. -/
def resultSet (label : String) (activity : Activity) : Outcome → Except Fault ResultSet
  | .rows r => .ok r
  | .affected _ => .ok ⟨[], []⟩
  | .refused code message => .error (refusal label activity code message)
  | .lost => .error (.database label activity)

/-- Something that must be readable. -/
def readable {α : Type} (label : String) (activity : Activity) : Option α → Except Fault α
  | some a => .ok a
  | none => .error (.database label activity)

/-- The first row, if there is one; further rows are not looked at. -/
def optionalRow (e : Entity) (activity : Activity) (o : Outcome) :
    Except Fault (Option (Row e)) := do
  let r ← resultSet e.label activity o
  match r.rows with
  | [] => .ok none
  | cells :: _ => (readable e.label activity (e.rowOf? r.columns cells)).map some

/-- The first row, which must be there. -/
def oneRow (e : Entity) (activity : Activity) (o : Outcome) : Except Fault (Row e) := do
  let row ← optionalRow e activity o
  readable e.label activity row

/-- Every row. -/
def allRows (e : Entity) (activity : Activity) (o : Outcome) : Except Fault (List (Row e)) := do
  let r ← resultSet e.label activity o
  readable e.label activity (r.rows.mapM fun cells => e.rowOf? r.columns cells)

/-- The number of rows that a count found; a negative one counts as zero. -/
def counted (e : Entity) (o : Outcome) : Except Fault UInt64 := do
  let r ← resultSet e.label .count o
  match r.first? .bigint with
  | some (.number n) => .ok (UInt64.ofNat n.toNat)
  | _ => .error (.database e.label .count)

/-- Whether a statement touched any row. -/
def touched (e : Entity) (activity : Activity) : Outcome → Except Fault Bool
  | .affected n => .ok (decide (0 < n))
  | .rows r => .ok (!r.rows.isEmpty)
  | .refused code message => .error (refusal e.label activity code message)
  | .lost => .error (.database e.label activity)

/-- The statements that answer a question to the repository. Filters are read before any statement,
and the rows of a page are asked for only once they have been counted. -/
def answer : (c : Call e) → StatementPlan c.Answer
  | .find id => .ask (.find e.table id) fun o => .done (optionalRow e .find o)
  | .page filters request =>
    match typedFilters filters with
    | .error fault => .done (.error fault)
    | .ok filters =>
      -- Without a count that can be read the rows are not asked for.
      .ask (e.countStatement filters) fun o =>
        match counted e o with
        | .error fault => .done (.error fault)
        | .ok total =>
          .ask (e.pageStatement filters request) fun o =>
            .done ((allRows e .list o).map fun items => ⟨items, total⟩)
  | .create record => .ask (e.insertStatement record) fun o => .done (oneRow e .create o)
  | .update row => .ask (e.updateStatement row) fun o => .done (optionalRow e .update o)
  | .delete id => .ask (.delete e.table id) fun o => .done (touched e .delete o)

/-- Asks the database for the number one. -/
def probe : StatementPlan (Except Fault Unit) :=
  .ask .probe fun o =>
    .done (match o with
      | .rows r =>
        match r.first? .integer with
        | some (.number n) => if n = 1 then .ok () else .error (.unexpectedProbe n)
        | _ => .error .unreachable
      | _ => .error .unreachable)

end SqlRepository

end ExchangeCatalog
