import ExchangeCatalog.Text.Blank
import ExchangeCatalog.Text.Decimal

/-!
# The requested page

A list request asks for a page by its number, from one, and by the number of rows on a page.
Anything but a positive number stands for the default.

## Main definitions

* `PageRequest` — page number and page size
* `PageRequest.ofQuery`, `PageRequest.ofNumbers` — the request that texts or numbers ask for
* `PageRequest.offset` — how many rows come before the page
-/

namespace ExchangeCatalog

/-- A page number and a page size. -/
structure PageRequest where
  page : UInt64
  limit : UInt64
  deriving DecidableEq, Repr

namespace PageRequest

/-- The first page. -/
def defaultPage : UInt64 := 1

/-- The usual page size. -/
def defaultLimit : UInt64 := 10

/-- What a request without page and size asks for. -/
def standard : PageRequest := ⟨defaultPage, defaultLimit⟩

/-- A page request in which zero stands for the default. -/
def ofNumbers (page limit : UInt64) : PageRequest :=
  ⟨if page = 0 then defaultPage else page, if limit = 0 then defaultLimit else limit⟩

/-- A positive number in the text of a parameter, or the given default. -/
def positiveOr (standard : UInt64) (raw : Option String) : UInt64 :=
  match raw.bind fun s => Decimal.int64? (Text.trim s.toList) with
  | some n => if 1 ≤ n then n.toUInt64 else standard
  | none => standard

/-- The page request that the parameters `page` and `limit` ask for. -/
def ofQuery (page limit : Option String) : PageRequest :=
  ⟨positiveOr defaultPage page, positiveOr defaultLimit limit⟩

/-- The rows before the page, at most the greatest word. -/
def offset (r : PageRequest) : UInt64 :=
  -- Page zero is the first page as well, and a product beyond the words stops at the greatest.
  UInt64.ofNat (min ((r.page.toNat - 1) * r.limit.toNat) (UInt64.size - 1))

end PageRequest

/-- A page of items, and how many there are on all pages together. -/
structure Page (α : Type) where
  items : List α
  total : UInt64

end ExchangeCatalog
