import ExchangeCatalog.Repository.Memory
import Mathlib.Tactic.SplitIfs

/-!
# The rows of a page

A page shows the matching rows at the positions from `(page - 1) * limit` up to `page * limit`. The
store computes with words, which saturate; as long as a word can count the matching rows, that makes
no difference to what it shows.

## Main definitions

* `PageRequest.window` — the part of a list at the positions of a page, in unbounded arithmetic
* `matchingRows` — the rows of a table that pass filters, in ascending order

## Main results

* `PageRequest.drop_offset` — the saturated offset leaves out the same rows
* `MemoryStore.items_selectPage` — the rows that the store shows
-/

namespace ExchangeCatalog

namespace PageRequest

variable {α : Type}

/-- The position of the first row of a page. -/
def start (r : PageRequest) : Nat := (r.page.toNat - 1) * r.limit.toNat

/-- The part of a list at the positions of a page. -/
def window (r : PageRequest) (xs : List α) : List α := (xs.drop r.start).take r.limit.toNat

theorem toNat_offset (r : PageRequest) : r.offset.toNat = min r.start (UInt64.size - 1) := by
  rw [offset, start, UInt64.toNat_ofNat']
  exact Nat.mod_eq_of_lt (by simp only [UInt64.size]; omega)

/-- Saturation of the offset does not show in a list that a word can count. -/
theorem drop_offset (r : PageRequest) {xs : List α} (h : xs.length < UInt64.size) :
    xs.drop r.offset.toNat = xs.drop r.start := by
  rw [toNat_offset]
  by_cases hstart : r.start ≤ UInt64.size - 1
  · rw [Nat.min_eq_left hstart]
  · rw [Nat.min_eq_right (by omega), List.drop_of_length_le (by omega),
      List.drop_of_length_le (by omega)]

end PageRequest

variable {e : Entity}

/-- The rows of a table that pass filters, in ascending order. -/
def matchingRows (t : Table e) (filters : List TypedFilter) : List (Row e) :=
  t.rows.filter (passes filters)

theorem length_matchingRows_le (t : Table e) (filters : List TypedFilter) :
    (matchingRows t filters).length ≤ t.rows.length := List.length_filter_le _ _

namespace MemoryStore

theorem items_selectPage {t : Table e} (h : t.rows.length < UInt64.size)
    (filters : List TypedFilter) (request : PageRequest) :
    (selectPage t filters request).items = request.window (matchingRows t filters) := by
  have hlength := Nat.lt_of_le_of_lt (length_matchingRows_le t filters) h
  rw [PageRequest.window, ← request.drop_offset hlength]
  rfl

end MemoryStore

end ExchangeCatalog
