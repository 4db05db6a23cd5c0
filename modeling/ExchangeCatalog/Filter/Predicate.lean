import ExchangeCatalog.Text.Split

/-!
# Predicates of a list request

A query parameter such as `price_gte=100` constrains a field. The key names the field and, by a
suffix after its last underscore, the operator; a key without a known suffix asks for equality, so a
field may have underscores of its own.

## Main definitions

* `Operator` — the five comparisons
* `splitKey`, `joinKey` — a key as field and operator, and back
* `Predicate` — a constraint with its value still as text
* `parseQuery` — the predicates of a list of decoded parameters
-/

namespace ExchangeCatalog

/-- The comparisons that a filter may ask for. -/
inductive Operator
  | equal
  | lessThan
  | lessThanOrEqual
  | greaterThan
  | greaterThanOrEqual
  deriving DecidableEq, Repr

namespace Operator

/-- The operator that a key's suffix names. Equality has no suffix. -/
def ofSuffix? (suffix : String) : Option Operator :=
  if suffix = "gt" then some greaterThan
  else if suffix = "lt" then some lessThan
  else if suffix = "lte" then some lessThanOrEqual
  else if suffix = "gte" then some greaterThanOrEqual
  else none

/-- The suffix that names an operator in a key. -/
def suffix? : Operator → Option String
  | equal => none
  | lessThan => some "lt"
  | lessThanOrEqual => some "lte"
  | greaterThan => some "gt"
  | greaterThanOrEqual => some "gte"

/-- The operator in a statement. -/
def sql : Operator → String
  | equal => "="
  | lessThan => "<"
  | lessThanOrEqual => "<="
  | greaterThan => ">"
  | greaterThanOrEqual => ">="

/-- Whether a column that orders so against the filter's value passes. -/
def accepts : Operator → Ordering → Bool
  | equal, o => o == .eq
  | lessThan, o => o == .lt
  | lessThanOrEqual, o => o != .gt
  | greaterThan, o => o == .gt
  | greaterThanOrEqual, o => o != .lt

end Operator

/-- The field and the operator that a key names. Only a known suffix after the last underscore is an
operator, and only when a field is left before it. -/
def splitKey (key : String) : String × Operator :=
  match Text.cutLast? '_' key.toList with
  | some (field, suffix) =>
    -- A key such as `_gt` names a field of that name.
    if field = [] then (key, .equal)
    else match Operator.ofSuffix? (String.ofList suffix) with
      | some op => (String.ofList field, op)
      | none => (key, .equal)
  | none => (key, .equal)

/-- The key that names a field and an operator. -/
def joinKey (field : String) (op : Operator) : String :=
  match op.suffix? with
  | some suffix => field ++ "_" ++ suffix
  | none => field

/-- A constraint on a field, its value still as it stood in the request. -/
structure Predicate where
  field : String
  op : Operator
  value : String
  deriving DecidableEq, Repr

/-- The predicate of one parameter; a parameter without a value constrains nothing. -/
def Predicate.ofPair? (key value : String) : Option Predicate :=
  if value = "" then none
  else
    let (field, op) := splitKey key
    some ⟨field, op, value⟩

/-- The first parameter of each name, in the order of the request. -/
def firstOccurrences (pairs : List (String × String)) : List (String × String) :=
  go [] pairs
where
  /-- The parameters whose names are not among those seen. -/
  go (seen : List String) : List (String × String) → List (String × String)
    | [] => []
    | p :: ps => if p.1 ∈ seen then go seen ps else p :: go (p.1 :: seen) ps

/-- The predicates of a request. A repeated name counts once, with its first value, even where that
value is empty. -/
def parseQuery (pairs : List (String × String)) : List Predicate :=
  (firstOccurrences pairs).filterMap fun p => Predicate.ofPair? p.1 p.2

end ExchangeCatalog
