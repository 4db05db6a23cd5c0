import ExchangeCatalog.Proofs.Page.Address
import ExchangeCatalog.Proofs.Page.Partition

/-!
# The pages next to a page

Every page request, whether it was made of numbers, of texts or of nothing at all, asks for a page
from the first one on that holds at least one row. This is enough to compute with words: the number
of a next page is one that a word can count, and the number of a page before is not below one. The
next page always has rows on it. The page before need not, when the client asked for a page far
behind the last one.

## Main definitions

* `NeighboursExact` — all that is said about a page and the pages next to it

## Main results

* `window_ne_nil_iff_le_totalPages` — the pages that show something
* `namesPage_of_withLinks?` — the numbers that the links are written with
* `neighbours_exact` — what is said about a page is exact for all words
-/

namespace ExchangeCatalog

variable {request : PageRequest} {total : UInt64}

/-- A page of a list shows something exactly when it is one of the pages that are counted. -/
theorem window_ne_nil_iff_le_totalPages {α : Type} {page limit : UInt64} (hlimit : 0 < limit.toNat)
    (hpage : 0 < page.toNat) {rows : List α} (hrows : rows.length = total.toNat) :
    PageRequest.window ⟨page, limit⟩ rows ≠ [] ↔ page ≤ totalPages total limit := by
  rw [window_ne_nil_iff hlimit, hrows, ← le_totalPages_iff hlimit, UInt64.le_iff_toNat_le,
    Nat.sub_add_cancel hpage]

/-- The links of a page name the page after it and the page before it. -/
theorem namesPage_of_withLinks? {url : String} {p : Pagination} (hlimit : 0 < request.limit.toNat)
    (hp : (Pagination.compute request total).withLinks? url = some p) :
    (∀ link ∈ p.nextLink, NamesPage link (request.page.toNat + 1)) ∧
      ∀ link ∈ p.previousLink, NamesPage link (request.page.toNat - 1) := by
  obtain ⟨p', hp', hnext, hprevious⟩ := exists_withLinks? hlimit total url
  obtain rfl := Option.some.inj (hp'.symm.trans hp)
  rw [hnext, hprevious]
  constructor
  · intro link hlink
    obtain ⟨hlater, hnames⟩ := namesPage_of_mem_ite hlink
    rwa [toNat_add_one_of_hasNext hlimit hlater] at hnames
  · intro link hlink
    obtain ⟨hearlier, hnames⟩ := namesPage_of_mem_ite hlink
    rwa [(toNat_sub_one_of_hasPrevious hlimit hearlier).1] at hnames

/-! ### All about a page -/

/-- All that is said about a page among a number of rows, and about the pages next to it. -/
structure NeighboursExact (request : PageRequest) (total : UInt64) (facts : Pagination) :
    Prop where
  /-- The number of pages is the exact quotient of rows and page size, rounded up. -/
  totalPages_eq : facts.totalPages.toNat = ⌈(total.toNat : ℚ) / request.limit.toNat⌉₊
  /-- There is a next page exactly when the page is not the last one or behind it, -/
  hasNext_iff : facts.hasNext ↔ request.page < facts.totalPages
  /-- and one before exactly when the page is not the first one and there are several. -/
  hasPrevious_iff : facts.hasPrevious ↔ 1 < request.page ∧ 1 < facts.totalPages
  /-- The links can be made. They are there exactly when these pages are, and name them. -/
  links : ∀ url, ∃ p, facts.withLinks? url = some p ∧
    p.nextLink = (if facts.hasNext then some (setPage url (request.page + 1)) else none) ∧
    p.previousLink = (if facts.hasPrevious then some (setPage url (request.page - 1)) else none)
  /-- The numbers of these pages stand in the queries of the links, in decimal digits. -/
  written : ∀ url p, facts.withLinks? url = some p →
    (∀ link ∈ p.nextLink, NamesPage link (request.page.toNat + 1)) ∧
      ∀ link ∈ p.previousLink, NamesPage link (request.page.toNat - 1)
  /-- The number of the next page is the next number, and not above the number of pages; so this
  page has rows on it. -/
  next : facts.hasNext → (request.page + 1).toNat = request.page.toNat + 1 ∧
    request.page + 1 ≤ facts.totalPages ∧
    ∀ {α : Type} (rows : List α), rows.length = total.toNat →
      PageRequest.window ⟨request.page + 1, request.limit⟩ rows ≠ []
  /-- The number of the page before is the number before, and at least one. It is not above the
  number of pages, and has rows on it, exactly when the page itself is at most one behind them. -/
  previous : facts.hasPrevious → (request.page - 1).toNat + 1 = request.page.toNat ∧
    1 ≤ request.page - 1 ∧
    (request.page - 1 ≤ facts.totalPages ↔ request.page.toNat ≤ facts.totalPages.toNat + 1) ∧
    ∀ {α : Type} (rows : List α), rows.length = total.toNat →
      (PageRequest.window ⟨request.page - 1, request.limit⟩ rows ≠ [] ↔
        request.page.toNat ≤ facts.totalPages.toNat + 1)

/-- What is said about a page is exact for every page request and every number of rows, up to the
greatest words. -/
theorem neighbours_exact (h : request.IsMade) (total : UInt64) :
    NeighboursExact request total (.compute request total) where
  totalPages_eq := totalPages_eq_ceil h.pos.2
  hasNext_iff := (hasNext_iff h.pos.2).trans UInt64.lt_iff_toNat_lt.symm
  hasPrevious_iff := hasPrevious_iff h.pos.2
  links := exists_withLinks? h.pos.2 total
  written _ _ hp := namesPage_of_withLinks? h.pos.2 hp
  next := by
    intro hnext
    have hnumber := toNat_add_one_of_hasNext h.pos.2 hnext
    have hle : request.page + 1 ≤ totalPages total request.limit := by
      rw [UInt64.le_iff_toNat_le, hnumber]
      exact (hasNext_iff h.pos.2).mp hnext
    refine ⟨hnumber, hle, fun rows hrows => ?_⟩
    exact (window_ne_nil_iff_le_totalPages h.pos.2 (by omega) hrows).mpr hle
  previous := by
    intro hprevious
    obtain ⟨hnumber, hpage⟩ := toNat_sub_one_of_hasPrevious h.pos.2 hprevious
    have hle : request.page - 1 ≤ totalPages total request.limit ↔
        request.page.toNat ≤ (totalPages total request.limit).toNat + 1 := by
      rw [UInt64.le_iff_toNat_le, hnumber]
      omega
    refine ⟨by omega, ?_, hle, fun rows hrows => ?_⟩
    · rw [UInt64.le_iff_toNat_le, UInt64.toNat_one, hnumber]
      exact Nat.le_sub_one_of_lt hpage
    · exact (window_ne_nil_iff_le_totalPages h.pos.2 (by omega) hrows).trans hle

/-- Of as many pages of one row as a word can count, the last but one has the greatest number for a
next page. -/
theorem lastPage_exact :
    (PageRequest.ofNumbers 0xFFFFFFFFFFFFFFFE 1).IsMade ∧
      (Pagination.compute (.ofNumbers 0xFFFFFFFFFFFFFFFE 1) 0xFFFFFFFFFFFFFFFF).hasNext ∧
      NeighboursExact (.ofNumbers 0xFFFFFFFFFFFFFFFE 1) 0xFFFFFFFFFFFFFFFF
        (.compute (.ofNumbers 0xFFFFFFFFFFFFFFFE 1) 0xFFFFFFFFFFFFFFFF) :=
  ⟨.ofNumbers _ _, by decide, neighbours_exact (.ofNumbers _ _) _⟩

end ExchangeCatalog
