import ExchangeCatalog.Catalog
import ExchangeCatalog.Proofs.Filter.Registry
import ExchangeCatalog.Proofs.Page.Facts
import ExchangeCatalog.Proofs.Page.Window
import ExchangeCatalog.Proofs.Repository.Memory

/-!
# The pages of a list

The pages of a list share the matching rows out among them: put one after the other they are the
matching rows in ascending order, each once. A client who moves to the next page as long as there is
one sees every page, and then stops.

## Main definitions

* `RetainedFilter.Matches` — a row stands in the asked relation to the value that a filter names
* `Visits` — the pages that a client sees who moves on as long as there is a next one
* `PartitionsInto` — all that the pages of a list amount to

## Main results

* `flatMap_window` — the windows of the first pages, one after the other, are the first rows
* `Visits.iff_eq` — which pages such a client sees
* `pages_partition_matching_rows` — the pages of any filtered list of any size
-/

namespace ExchangeCatalog

variable {e : Entity}

/-! ### Rows that match -/

/-- A row stands in the asked relation to the value that a filter's text names. -/
def RetainedFilter.Matches (f : RetainedFilter) (r : Row e) : Prop :=
  ∃ asked held order, Value.read? f.column.kind f.value = some asked ∧
    r.valueOf? f.column.name = some held ∧ held.compare? asked = some order ∧ f.op.accepts order

theorem RetainedFilter.accepts_typed_iff {f : RetainedFilter} {asked : Value}
    (h : Value.read? f.column.kind f.value = some asked) (r : Row e) :
    TypedFilter.accepts ⟨f.column.name, f.op, asked⟩ r ↔ f.Matches r := by
  rw [TypedFilter.accepts]
  constructor
  · intro hpass
    cases hheld : r.valueOf? f.column.name with
    | none => simp [hheld] at hpass
    | some held =>
      cases horder : held.compare? asked with
      | none => simp [hheld, horder] at hpass
      | some order =>
        simp only [hheld, Option.bind_some, horder] at hpass
        exact ⟨asked, held, order, h, hheld, horder, hpass⟩
  · rintro ⟨asked', held, order, hasked, hheld, horder, hpass⟩
    obtain rfl := Option.some.inj (h.symm.trans hasked)
    simp only [hheld, Option.bind_some, horder]
    exact hpass

/-- A row passes filters that have been read exactly when it matches each of them. -/
theorem passes_iff_of_typedFilters {filters : List RetainedFilter} {typed : List TypedFilter}
    (h : typedFilters filters = .ok typed) (r : Row e) :
    passes typed r ↔ ∀ f ∈ filters, f.Matches r := by
  induction filters generalizing typed with
  | nil =>
    cases h
    simp [passes]
  | cons f filters ih =>
    obtain ⟨asked, rest, hasked, hrest, rfl⟩ := exists_of_typedFilters_cons h
    rw [passes, List.all_cons, Bool.and_eq_true, RetainedFilter.accepts_typed_iff hasked,
      List.forall_mem_cons, ← ih hrest, passes]

/-- Filters whose texts all name values can be read, and a row passes them exactly when it matches
each. -/
theorem exists_typedFilters {filters : List RetainedFilter}
    (h : ∀ f ∈ filters, (Value.read? f.column.kind f.value).isSome) :
    ∃ typed, typedFilters filters = .ok typed ∧
      ∀ r : Row e, passes typed r ↔ ∀ f ∈ filters, f.Matches r := by
  obtain ⟨typed, htyped⟩ := exists_typedFilters_iff.mpr h
  exact ⟨typed, htyped, fun r => passes_iff_of_typedFilters htyped r⟩

/-! ### Pages one after the other -/

/-- The numbers of the first pages. -/
def firstPages (n : Nat) : List UInt64 := (List.range n).map fun i => UInt64.ofNat (i + 1)

/-- The windows of the first pages, one after the other, are the first rows. -/
theorem flatMap_window {α : Type} {limit : UInt64} (xs : List α) {n : Nat} (h : n < UInt64.size) :
    ((firstPages n).flatMap fun page => PageRequest.window ⟨page, limit⟩ xs) =
      xs.take (n * limit.toNat) := by
  rw [firstPages, List.flatMap_map]
  induction n with
  | zero => rw [List.range_zero, List.flatMap_nil, Nat.zero_mul, List.take_zero]
  | succ n ih =>
    rw [List.range_succ, List.flatMap_append, ih (by omega), List.flatMap_singleton,
      PageRequest.window, PageRequest.start]
    dsimp only
    rw [UInt64.toNat_ofNat_of_lt' h, Nat.add_sub_cancel, ← List.take_add, Nat.add_mul, Nat.one_mul]

/-- A page shows something exactly when rows stand from its first position on. -/
theorem window_ne_nil_iff {α : Type} {page limit : UInt64} (hlimit : 0 < limit.toNat)
    (xs : List α) :
    PageRequest.window ⟨page, limit⟩ xs ≠ [] ↔ (page.toNat - 1) * limit.toNat < xs.length := by
  rw [PageRequest.window, ne_eq, List.take_eq_nil_iff, List.drop_eq_nil_iff, PageRequest.start]
  dsimp only
  omega

private theorem lastPage_lt_size (total limit : UInt64) :
    max 1 (totalPages total limit).toNat < UInt64.size :=
  Nat.max_lt.mpr ⟨by decide, (totalPages total limit).toNat_lt⟩

private theorem one_le_ofNat {n : Nat} (h : (UInt64.ofNat (n + 1)).toNat = n + 1) :
    1 ≤ UInt64.ofNat (n + 1) := by
  rw [UInt64.le_iff_toNat_le, h]
  exact Nat.le_add_left 1 n

/-! ### A walk over the pages -/

/-- The pages that a client sees who starts at a page of a filtered list and moves to the next page
as long as there is one. -/
inductive Visits (s : MemoryStore e) (filters : List RetainedFilter) (limit : UInt64) :
    UInt64 → List UInt64 → Prop
  | stop {page : UInt64} {p : Page (Row e)}
      (answered : (MemoryStore.ask (.page filters ⟨page, limit⟩) s).1 = .ok p)
      (last : (Pagination.compute ⟨page, limit⟩ p.total).hasNext = false) :
      Visits s filters limit page [page]
  | move {page : UInt64} {p : Page (Row e)} {pages : List UInt64}
      (answered : (MemoryStore.ask (.page filters ⟨page, limit⟩) s).1 = .ok p)
      (more : (Pagination.compute ⟨page, limit⟩ p.total).hasNext = true)
      (rest : Visits s filters limit (page + 1) pages) :
      Visits s filters limit page (page :: pages)

namespace Visits

variable {s : MemoryStore e} {filters : List RetainedFilter} {limit page : UInt64}
  {p : Page (Row e)} {visited : List UInt64}

theorem iff_of_last (answered : (MemoryStore.ask (.page filters ⟨page, limit⟩) s).1 = .ok p)
    (last : hasNext p.total page limit = false) :
    Visits s filters limit page visited ↔ visited = [page] := by
  constructor
  · intro h
    cases h with
    | stop => rfl
    | move answered' more =>
      obtain rfl := Except.ok.inj (answered.symm.trans answered')
      exact absurd (more.symm.trans last) Bool.true_eq_false.mp
  · rintro rfl
    exact stop answered last

theorem iff_of_hasNext (answered : (MemoryStore.ask (.page filters ⟨page, limit⟩) s).1 = .ok p)
    (more : hasNext p.total page limit = true) :
    Visits s filters limit page visited ↔
      ∃ rest, visited = page :: rest ∧ Visits s filters limit (page + 1) rest := by
  constructor
  · intro h
    cases h with
    | stop answered' last =>
      obtain rfl := Except.ok.inj (answered.symm.trans answered')
      exact absurd (more.symm.trans last) Bool.true_eq_false.mp
    | move _ _ rest => exact ⟨_, rfl, rest⟩
  · rintro ⟨rest, rfl, h⟩
    exact move answered more h

/-- From the page after the first `n`, a client sees the pages up to the last one, which is the
first page when there are no pages. -/
private theorem iff_eq_range' {total : UInt64} {items : UInt64 → List (Row e)}
    (hlimit : 0 < limit.toNat) (answered : ∀ page : UInt64, 1 ≤ page →
      (MemoryStore.ask (.page filters ⟨page, limit⟩) s).1 = .ok ⟨items page, total⟩)
    {k n : Nat} (h : n + (k + 1) = max 1 (totalPages total limit).toNat) :
    Visits s filters limit (UInt64.ofNat (n + 1)) visited ↔
      visited = (List.range' n (k + 1)).map fun i => UInt64.ofNat (i + 1) := by
  -- The induction is on the number of pages that follow.
  induction k generalizing n visited with
  | zero =>
    have hpage : (UInt64.ofNat (n + 1)).toNat = n + 1 :=
      UInt64.toNat_ofNat_of_lt' (h ▸ lastPage_lt_size total limit)
    have hlast : hasNext total (UInt64.ofNat (n + 1)) limit = false := by
      rw [Bool.eq_false_iff, ne_eq, hasNext_iff hlimit, hpage]
      omega
    exact iff_of_last (answered _ (one_le_ofNat hpage)) hlast
  | succ k ih =>
    have hlast := lastPage_lt_size total limit
    have hpage : (UInt64.ofNat (n + 1)).toNat = n + 1 := UInt64.toNat_ofNat_of_lt' (by omega)
    have hnext : hasNext total (UInt64.ofNat (n + 1)) limit = true := by
      rw [hasNext_iff hlimit, hpage]
      omega
    have hrest : n + 1 + (k + 1) = max 1 (totalPages total limit).toNat := by omega
    have hsucc : UInt64.ofNat (n + 1) + 1 = UInt64.ofNat (n + 1 + 1) :=
      (UInt64.ofNat_add (n + 1) 1).symm
    rw [iff_of_hasNext (answered _ (one_le_ofNat hpage)) hnext, List.range'_succ, List.map_cons,
      hsucc]
    constructor
    · rintro ⟨rest, rfl, hwalk⟩
      rw [(ih hrest).mp hwalk]
    · rintro rfl
      exact ⟨_, rfl, (ih hrest).mpr rfl⟩

/-- A client who starts at the first page sees every page, or the first one alone when there are
none. -/
theorem iff_eq {total : UInt64} {items : UInt64 → List (Row e)} (hlimit : 0 < limit.toNat)
    (answered : ∀ page : UInt64, 1 ≤ page →
      (MemoryStore.ask (.page filters ⟨page, limit⟩) s).1 = .ok ⟨items page, total⟩) :
    Visits s filters limit 1 visited ↔
      visited = firstPages (max 1 (totalPages total limit).toNat) := by
  obtain ⟨k, hk⟩ : ∃ k, k + 1 = max 1 (totalPages total limit).toNat :=
    ⟨max 1 (totalPages total limit).toNat - 1, by omega⟩
  rw [firstPages, List.range_eq_range', ← hk]
  exact iff_eq_range' (n := 0) hlimit answered (by rw [Nat.zero_add, hk])

end Visits

/-! ### All pages of a list -/

/-- All that the pages of a filtered list amount to: the rows that match, and how many they are. -/
structure PartitionsInto (s : MemoryStore e) (filters : List RetainedFilter) (limit : UInt64)
    (matching : List (Row e)) (total : UInt64) : Prop where
  /-- The matching rows are the rows of the store that match every filter. -/
  mem_iff : ∀ r, r ∈ matching ↔ r ∈ s.table.rows ∧ ∀ f ∈ filters, f.Matches r
  /-- They ascend, so none of them is there twice. -/
  ascending : matching.Pairwise fun a b => a.id < b.id
  /-- The number of rows is exact. -/
  total_eq : total.toNat = matching.length
  /-- A page shows the matching rows at its positions, and leaves the store as it is. -/
  page_eq : ∀ page : UInt64, 1 ≤ page →
    MemoryStore.ask (.page filters ⟨page, limit⟩) s =
      (.ok ⟨PageRequest.window ⟨page, limit⟩ matching, total⟩, s)
  /-- A page shows something exactly when it is one of the pages that are counted. -/
  nonempty_iff : ∀ page : UInt64, 1 ≤ page →
    (PageRequest.window ⟨page, limit⟩ matching ≠ [] ↔ page ≤ totalPages total limit)
  /-- The counted pages, one after the other, show every matching row, in order. -/
  joined : ((firstPages (totalPages total limit).toNat).flatMap fun page =>
    PageRequest.window ⟨page, limit⟩ matching) = matching
  /-- A client who moves on from the first page sees every counted page, or the first one alone. -/
  visits_iff : ∀ visited,
    Visits s filters limit 1 visited ↔ visited = firstPages (max 1 (totalPages total limit).toNat)

/-- The pages of a list whose filters can all be read partition the matching rows, for every size of
a page. A word counts the rows of a store, as it does for everything that is kept in memory. -/
theorem pages_partition_matching_rows (s : MemoryStore e)
    (hsize : s.table.rows.length < UInt64.size) (filters : List RetainedFilter)
    (hread : ∀ f ∈ filters, (Value.read? f.column.kind f.value).isSome)
    (limit : UInt64) (hlimit : 1 ≤ limit) :
    ∃ matching total, PartitionsInto s filters limit matching total := by
  have hpos : 0 < limit.toNat := UInt64.le_iff_toNat_le.mp hlimit
  obtain ⟨typed, htyped, hpass⟩ := exists_typedFilters (e := e) hread
  let matching := matchingRows s.table typed
  let total := UInt64.ofNat matching.length
  have htotal : total.toNat = matching.length :=
    UInt64.toNat_ofNat_of_lt' (Nat.lt_of_le_of_lt (length_matchingRows_le _ _) hsize)
  have hask : ∀ page : UInt64, MemoryStore.ask (.page filters ⟨page, limit⟩) s =
      (.ok ⟨PageRequest.window ⟨page, limit⟩ matching, total⟩, s) := by
    intro page
    rw [MemoryStore.ask_page, htyped, ← MemoryStore.items_selectPage hsize]
    rfl
  refine ⟨matching, total, ?_, s.table.ascending.filter _, htotal, fun page _ => hask page,
    ?_, ?_, ?_⟩
  · intro r
    rw [← hpass r]
    exact List.mem_filter
  · intro page hpage
    have hpage' : 1 ≤ page.toNat := UInt64.le_iff_toNat_le.mp hpage
    rw [window_ne_nil_iff hpos, ← htotal, ← le_totalPages_iff hpos, UInt64.le_iff_toNat_le,
      Nat.sub_add_cancel hpage']
  · rw [flatMap_window _ (totalPages total limit).toNat_lt]
    -- No row stands at or after the end of the last page.
    refine List.take_of_length_le ?_
    rw [← htotal]
    exact Nat.not_lt.mp fun h => absurd ((le_totalPages_iff hpos _).mpr h) (Nat.not_succ_le_self _)
  · intro visited
    exact Visits.iff_eq hpos fun page _ => congrArg Prod.fst (hask page)

/-- Three assignments, of which the first two are of one group. -/
def groupHallStore : MemoryStore Catalog.groupHall :=
  ⟨.ofRows [⟨1, .cons (7 : Int64) (.cons (1 : Int64) .nil)⟩,
    ⟨2, .cons (7 : Int64) (.cons (2 : Int64) .nil)⟩,
    ⟨3, .cons (8 : Int64) (.cons (1 : Int64) .nil)⟩], 4⟩

/-- The filter on the group. -/
def groupFilter : RetainedFilter := ⟨⟨"group_id", .integer⟩, .equal, "7"⟩

theorem groupHallStore_pages_partition :
    groupHallStore.table.rows.length < UInt64.size ∧
      (∀ f ∈ [groupFilter], (Value.read? f.column.kind f.value).isSome) ∧ (1 : UInt64) ≤ 1 ∧
        ∃ matching total, PartitionsInto groupHallStore [groupFilter] 1 matching total :=
  ⟨by decide, by decide, by decide,
    pages_partition_matching_rows groupHallStore (by decide) [groupFilter] (by decide) 1
      (by decide)⟩

end ExchangeCatalog
