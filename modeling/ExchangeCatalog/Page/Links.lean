import ExchangeCatalog.Json.Basic
import ExchangeCatalog.Page.Request
import ExchangeCatalog.Text.Split

/-!
# Pages around a page

A list response says how many pages there are and links the pages next to it. A link is the address
of the request with its page number replaced, so everything else the request asked for is kept.

## Main definitions

* `totalPages`, `hasNext`, `hasPrevious` — facts about a page among the matching rows
* `setPage` — an address with another page number
* `Pagination` — these facts and links, with `Pagination.toJson`
* `envelope` — the body of a list response
-/

namespace ExchangeCatalog

/-- The number of pages that the rows fill; none when nothing matched or a page holds nothing. -/
def totalPages (total limit : UInt64) : UInt64 :=
  if total = 0 ∨ limit = 0 then 0
  else UInt64.ofNat ((total.toNat + limit.toNat - 1) / limit.toNat)

/-- Rows exist beyond the page. -/
def hasNext (total page limit : UInt64) : Bool :=
  total != 0 && decide (page.toNat * limit.toNat < total.toNat)

/-- The page is not the first, and there are more rows than one page holds. -/
def hasPrevious (total page limit : UInt64) : Bool :=
  total != 0 && decide (1 < page) && decide (limit < total)

/-- The part of a query that asks for a page. -/
def pagePart (page : UInt64) : List Char := "page=".toList ++ Decimal.digits page.toNat

/-- Whether a part of a query has the key `page`, spelled so. -/
def isPagePart (part : List Char) : Bool :=
  (match Text.cutFirst? '=' part with
    | some (key, _) => key
    | none => part) == "page".toList

/-- The parts of a query with the first page part replaced, or the new one put at the end, and any
further page part left out. -/
def replacePage (page : UInt64) (parts : List (List Char)) : List (List Char) :=
  let before := parts.takeWhile fun p => !isPagePart p
  let after := parts.dropWhile fun p => !isPagePart p
  -- Without a page part nothing is left after, and the new one ends the query.
  before ++ pagePart page :: after.filter fun p => !isPagePart p

/-- An address with another page number. Empty parts of its query are left out; the fragment
stays. -/
def setPage (url : String) (page : UInt64) : String :=
  let (head, fragment) := match Text.cutFirst? '#' url.toList with
    | some (head, tail) => (head, '#' :: tail)
    | none => (url.toList, [])
  -- Only what stands before the fragment can hold a query.
  let (base, query) := match Text.cutFirst? '?' head with
    | some (base, query) => (base, query)
    | none => (head, [])
  let parts := (Text.pieces '&' query).filter fun p => p != []
  String.ofList (base ++ '?' :: ['&'].intercalate (replacePage page parts) ++ fragment)

/-- What a list response says about its page. -/
structure Pagination where
  page : UInt64
  limit : UInt64
  totalCount : UInt64
  totalPages : UInt64
  hasNext : Bool
  hasPrevious : Bool
  nextLink : Option String
  previousLink : Option String

namespace Pagination

/-- The facts about a page among `total` rows, without links. -/
def compute (request : PageRequest) (total : UInt64) : Pagination where
  page := request.page
  limit := request.limit
  totalCount := total
  totalPages := ExchangeCatalog.totalPages total request.limit
  hasNext := ExchangeCatalog.hasNext total request.page request.limit
  hasPrevious := ExchangeCatalog.hasPrevious total request.page request.limit
  nextLink := none
  previousLink := none

/-- The same with links, made from the address of the request. Fails when the next page has no
number. -/
def withLinks? (p : Pagination) (url : String) : Option Pagination :=
  -- The greatest page number has no successor to link to.
  if p.hasNext ∧ p.page.toNat + 1 = UInt64.size then none
  else some
    { p with
      nextLink := if p.hasNext then some (setPage url (p.page + 1)) else none
      previousLink := if p.hasPrevious then some (setPage url (p.page - 1)) else none }

/-- The pagination block of a response; an absent link is the empty text. -/
def toJson (p : Pagination) : Json :=
  .object [("next_page", .string (p.nextLink.getD "")),
    ("prev_page", .string (p.previousLink.getD "")),
    ("total_records", .integer p.totalCount.toNat), ("total_pages", .integer p.totalPages.toNat),
    ("current_page", .integer p.page.toNat)]

end Pagination

/-- The body of a list response. -/
def envelope (p : Pagination) (items : List Json) : Json :=
  .object [("pagination", p.toJson), ("data", .array items)]

end ExchangeCatalog
