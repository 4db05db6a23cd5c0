import ExchangeCatalog.Page.Links
import Mathlib.Data.Rat.Floor

/-!
# Facts about a page

The number of pages is the exact quotient rounded up. A page has a successor exactly when its number
is below it, and a predecessor exactly when it is not the first page and there is more than one; the
words of 64 bits suffice for all of these.

## Main results

* `toNat_totalPages` — the number of pages in unbounded arithmetic
* `le_totalPages_iff` — a page has a number up to the number of pages exactly when rows stand before
  its end
* `totalPages_eq_ceil` — the number of pages as a quotient that is rounded up
* `hasNext_iff` — a page has a successor exactly when its number is below the number of pages
* `hasPrevious_iff` — a page has a predecessor exactly when it is a later page of several
* `toNat_add_one_of_hasNext`, `toNat_sub_one_of_hasPrevious` — the numbers of the pages next to it
* `exists_withLinks?` — the links can be made
-/

namespace ExchangeCatalog

variable {total page limit : UInt64}

private theorem toNat_pos_iff {n : UInt64} : 0 < n.toNat ↔ n ≠ 0 := by
  rw [Nat.pos_iff_ne_zero, ne_eq, ne_eq, ← UInt64.toNat_inj]
  rfl

/-- The number of pages is the quotient of rows and page size, rounded up. -/
theorem toNat_totalPages (hlimit : 0 < limit.toNat) :
    (totalPages total limit).toNat = (total.toNat + limit.toNat - 1) / limit.toNat := by
  have hlimit0 : limit ≠ 0 := toNat_pos_iff.mp hlimit
  rw [totalPages]
  split
  · rename_i h
    rcases h with rfl | h
    · exact (Nat.div_eq_of_lt (by rw [UInt64.toNat_zero]; omega)).symm
    · exact absurd h hlimit0
  · rename_i h
    have htotal : 0 < total.toNat := toNat_pos_iff.mpr fun h0 => h (Or.inl h0)
    rw [UInt64.toNat_ofNat']
    refine Nat.mod_eq_of_lt (Nat.lt_of_le_of_lt ?_ (UInt64.toNat_lt total))
    -- A page of at least one row each: there are no more pages than rows.
    rw [Nat.div_le_iff_le_mul_add_pred hlimit]
    have hrows : 1 * total.toNat ≤ limit.toNat * total.toNat := Nat.mul_le_mul_right _ hlimit
    omega

/-- A page number is at most the number of pages exactly when some row stands at or after the page's
first position. -/
theorem le_totalPages_iff (hlimit : 0 < limit.toNat) (n : Nat) :
    n + 1 ≤ (totalPages total limit).toNat ↔ n * limit.toNat < total.toNat := by
  rw [toNat_totalPages hlimit, Nat.le_div_iff_mul_le hlimit, Nat.add_mul, Nat.one_mul]
  omega

/-- The number of pages is the exact quotient of rows and page size, rounded up. -/
theorem totalPages_eq_ceil (hlimit : 0 < limit.toNat) :
    (totalPages total limit).toNat = ⌈(total.toNat : ℚ) / limit.toNat⌉₊ := by
  refine eq_of_forall_lt_iff fun n => ?_
  have hpos : (0 : ℚ) < limit.toNat := Nat.cast_pos.mpr hlimit
  rw [Nat.lt_iff_add_one_le, le_totalPages_iff hlimit, Nat.lt_ceil, lt_div_iff₀ hpos,
    ← Nat.cast_mul, Nat.cast_lt]

/-- A page has a successor exactly when its number is below the number of pages. -/
theorem hasNext_iff (hlimit : 0 < limit.toNat) :
    hasNext total page limit = true ↔ page.toNat < (totalPages total limit).toNat := by
  rw [hasNext, Bool.and_eq_true, bne_iff_ne, decide_eq_true_iff]
  constructor
  · rintro ⟨-, h⟩
    exact (le_totalPages_iff hlimit _).mpr h
  · intro h
    have hrows := (le_totalPages_iff hlimit _).mp h
    exact ⟨toNat_pos_iff.mp (by omega), hrows⟩

/-- A page has a predecessor exactly when it is not the first one and there are more pages than
one. -/
theorem hasPrevious_iff (hlimit : 0 < limit.toNat) :
    hasPrevious total page limit = true ↔ 1 < page ∧ 1 < totalPages total limit := by
  have hpages : 1 < totalPages total limit ↔ limit < total := by
    rw [UInt64.lt_iff_toNat_lt, UInt64.lt_iff_toNat_lt, UInt64.toNat_one, Nat.lt_iff_add_one_le,
      le_totalPages_iff hlimit, Nat.one_mul]
  rw [hasPrevious, Bool.and_eq_true, Bool.and_eq_true, bne_iff_ne, decide_eq_true_iff,
    decide_eq_true_iff, hpages]
  constructor
  · rintro ⟨⟨-, hpage⟩, hrows⟩
    exact ⟨hpage, hrows⟩
  · rintro ⟨hpage, hrows⟩
    have htotal : 0 < total.toNat := Nat.lt_trans hlimit (UInt64.lt_iff_toNat_lt.mp hrows)
    exact ⟨⟨toNat_pos_iff.mp htotal, hpage⟩, hrows⟩

/-! ### Pages next to a page -/

variable {request : PageRequest}

/-- The number of a page that has a successor can be counted on. -/
theorem toNat_add_one_of_hasNext (hlimit : 0 < request.limit.toNat)
    (hnext : hasNext total request.page request.limit) :
    (request.page + 1).toNat = request.page.toNat + 1 := by
  -- The number of pages is a word, and the page is not the last one of them.
  have hpage := (hasNext_iff hlimit).mp hnext
  have hpages := (totalPages total request.limit).toNat_lt
  rw [UInt64.toNat_add, UInt64.toNat_one, Nat.mod_eq_of_lt (by omega)]

/-- The number of a page that has a predecessor can be counted back from. -/
theorem toNat_sub_one_of_hasPrevious (hlimit : 0 < request.limit.toNat)
    (hprevious : hasPrevious total request.page request.limit) :
    (request.page - 1).toNat = request.page.toNat - 1 ∧ 1 < request.page.toNat := by
  have hpage : 1 < request.page.toNat :=
    UInt64.lt_iff_toNat_lt.mp ((hasPrevious_iff hlimit).mp hprevious).1
  exact ⟨UInt64.toNat_sub_of_le _ _ (UInt64.le_iff_toNat_le.mpr hpage.le), hpage⟩

/-- The links can be made for every page of a positive size. -/
theorem exists_withLinks? (hlimit : 0 < request.limit.toNat) (total : UInt64) (url : String) :
    ∃ p, (Pagination.compute request total).withLinks? url = some p ∧
      p.nextLink = (if hasNext total request.page request.limit then
        some (setPage url (request.page + 1)) else none) ∧
      p.previousLink = (if hasPrevious total request.page request.limit then
        some (setPage url (request.page - 1)) else none) := by
  have hcount : ¬ (hasNext total request.page request.limit ∧
      request.page.toNat + 1 = UInt64.size) := by
    rintro ⟨hnext, hsize⟩
    have hlt := (request.page + 1).toNat_lt
    rw [toNat_add_one_of_hasNext hlimit hnext, hsize] at hlt
    exact Nat.lt_irrefl _ hlt
  exact ⟨_, if_neg hcount, rfl, rfl⟩

end ExchangeCatalog
