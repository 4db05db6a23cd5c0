import ExchangeCatalog.Filter.Predicate
import ExchangeCatalog.Page.Request

/-!
# List requests

A list request is read from its decoded parameters: which page is asked for, which predicates are
set, and under which address the client sees the list. Every parameter is also a predicate; an
entity that has no field of such a name drops it later.

## Main definitions

* `ListRequest` — the parts of a list request
* `ListRequest.ofPairs`, `ListRequest.url` — reading one, and its address
-/

namespace ExchangeCatalog

/-- What a request for a list of rows asks for. -/
structure ListRequest where
  page : PageRequest
  predicates : List Predicate
  /-- The host that the client addressed. -/
  host : String
  /-- The path and the query of the request. -/
  pathAndQuery : String

namespace ListRequest

/-- The value of the first parameter with a name. -/
def firstValue? (name : String) (pairs : List (String × String)) : Option String :=
  (pairs.find? fun p => p.1 == name).map Prod.snd

/-- The list request of decoded parameters. -/
def ofPairs (pairs : List (String × String)) (host pathAndQuery : String) : ListRequest where
  page := PageRequest.ofQuery (firstValue? "page" pairs) (firstValue? "limit" pairs)
  predicates := parseQuery pairs
  host := host
  pathAndQuery := pathAndQuery

/-- The address of a request as the client sees it. -/
def url (r : ListRequest) (scheme : String) : String := scheme ++ "://" ++ r.host ++ r.pathAndQuery

end ListRequest

end ExchangeCatalog
