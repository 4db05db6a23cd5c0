import ExchangeCatalog.Proofs.Filter.FirstOccurrence
import ExchangeCatalog.Proofs.Lists
import ExchangeCatalog.Proofs.Page.Partition
import ExchangeCatalog.Proofs.Service.Operation

/-!
# Filters side by side

A row is listed when it matches every filter, so which filters there are is all that a list depends
on. Their order and their repetition show in one thing alone: when the values of several filters
cannot be read, the first of these filters is the fault.

## Main definitions

* `ListsAlike` — two answers are the same page, or refuse the value of a filter both
* `FiltersConjoin` — how the filters of lists go together

## Main results

* `MemoryStore.selectPage_eq_of_mem_iff` — the same filters list the same page
* `MemoryStore.ask_page_of_repeated` — a filter that is repeated changes nothing
* `perm_retain_parseQuery` — parameters in another order name the same filters
* `filters_conjoin` — the filters of the lists of any store
-/

namespace ExchangeCatalog

open Service (serve serve_list)

variable {e : Entity} {filters filters' before : List RetainedFilter}
  {typed typed' : List TypedFilter} {f : RetainedFilter}

/-! ### The same filters -/

/-- Two answers to a list are the same page, or refuse the value of a filter both. -/
def ListsAlike (answer answer' : Except Fault (Page (Row e))) : Prop :=
  (∃ page, answer = .ok page ∧ answer' = .ok page) ∨ IsValidation answer ∧ IsValidation answer'

namespace MemoryStore

/-- The same filters list the same page, however often and in whichever order they stand. -/
theorem selectPage_eq_of_mem_iff (hsame : ∀ f, f ∈ filters ↔ f ∈ filters')
    (h : typedFilters filters = .ok typed) (h' : typedFilters filters' = .ok typed') (t : Table e)
    (request : PageRequest) : selectPage t typed request = selectPage t typed' request := by
  have hpasses : passes (e := e) typed = passes typed' := by
    funext r
    rw [Bool.eq_iff_iff, passes_iff_of_typedFilters h, passes_iff_of_typedFilters h']
    simp only [hsame]
  rw [selectPage, selectPage, hpasses]

/-- The same filters list alike. -/
theorem listsAlike_of_mem_iff (hsame : ∀ f, f ∈ filters ↔ f ∈ filters') (request : PageRequest)
    (s : MemoryStore e) :
    ListsAlike (ask (.page filters request) s).1 (ask (.page filters' request) s).1 := by
  -- The values of both can be read, or of neither.
  have hread : (∃ typed, typedFilters filters = .ok typed) ↔
      ∃ typed, typedFilters filters' = .ok typed := by
    rw [exists_typedFilters_iff, exists_typedFilters_iff]
    simp only [hsame]
  rw [ask_page, ask_page]
  cases h : typedFilters filters with
  | error fault =>
    cases h' : typedFilters filters' with
    | error fault' =>
      exact Or.inr ⟨⟨fault, rfl, kind_of_typedFilters h⟩, fault', rfl, kind_of_typedFilters h'⟩
    | ok typed' => simp [h, h'] at hread
  | ok typed =>
    cases h' : typedFilters filters' with
    | error fault' => simp [h, h'] at hread
    | ok typed' =>
      exact Or.inl ⟨_, rfl, congrArg Except.ok (selectPage_eq_of_mem_iff hsame h h' _ _).symm⟩

/-- A filter that is repeated changes nothing, be the answer a page or a fault. -/
theorem ask_page_of_repeated (hf : f ∈ before) (after : List RetainedFilter) (request : PageRequest)
    (s : MemoryStore e) :
    ask (.page (before ++ f :: after) request) s = ask (.page (before ++ after) request) s := by
  have hsame : ∀ g, g ∈ before ++ f :: after ↔ g ∈ before ++ after := by
    intro g
    rw [List.mem_append, List.mem_append, List.mem_cons]
    constructor
    · rintro (hg | rfl | hg)
      · exact Or.inl hg
      · exact Or.inl hf
      · exact Or.inr hg
    · exact Or.imp_right Or.inr
  -- A first filter that is refused stands before the repetition, or is not the one repeated.
  have hfault : ∀ fault, typedFilters (before ++ f :: after) = .error fault ↔
      typedFilters (before ++ after) = .error fault := by
    intro fault
    rw [typedFilters_eq_error_iff, typedFilters_eq_error_iff, find?_append_cons_of_mem hf]
  rw [ask_page, ask_page]
  cases h : typedFilters (before ++ f :: after) with
  | error fault => rw [(hfault fault).mp h]
  | ok typed =>
    cases h' : typedFilters (before ++ after) with
    | error fault => cases h.symm.trans ((hfault fault).mpr h')
    | ok typed' =>
      rw [Except.map, Except.map, selectPage_eq_of_mem_iff hsame h h']

end MemoryStore

/-! ### Parameters in another order -/

variable {pairs pairs' : List (String × String)}

theorem pairwise_of_perm (hnames : pairs.Pairwise fun p q => p.1 ≠ q.1)
    (hperm : pairs.Perm pairs') : pairs'.Pairwise fun p q => p.1 ≠ q.1 :=
  hperm.pairwise hnames Ne.symm

/-- Parameters of different names are the same predicates in another order. -/
theorem perm_parseQuery (hnames : pairs.Pairwise fun p q => p.1 ≠ q.1) (hperm : pairs.Perm pairs') :
    (parseQuery pairs).Perm (parseQuery pairs') := by
  rw [parseQuery, parseQuery, firstOccurrences_of_pairwise hnames,
    firstOccurrences_of_pairwise (pairwise_of_perm hnames hperm)]
  exact hperm.filterMap _

/-- They name the same filters. -/
theorem perm_retain_parseQuery (e : Entity) (hnames : pairs.Pairwise fun p q => p.1 ≠ q.1)
    (hperm : pairs.Perm pairs') :
    (e.retain (parseQuery pairs)).Perm (e.retain (parseQuery pairs')) :=
  (perm_parseQuery hnames hperm).filterMap _

/-- Of parameters with different names, the one of a name has its value wherever it stands. -/
theorem lookup_eq_some_iff_mem (hnames : pairs.Pairwise fun p q => p.1 ≠ q.1)
    {name value : String} : pairs.lookup name = some value ↔ (name, value) ∈ pairs := by
  rw [← mem_namedOnce_iff, ← firstOccurrences_eq_namedOnce, firstOccurrences_of_pairwise hnames]

theorem lookup_eq_of_perm (hnames : pairs.Pairwise fun p q => p.1 ≠ q.1)
    (hperm : pairs.Perm pairs') (name : String) : pairs.lookup name = pairs'.lookup name := by
  ext value
  rw [lookup_eq_some_iff_mem hnames, lookup_eq_some_iff_mem (pairwise_of_perm hnames hperm),
    hperm.mem_iff]

/-! ### Filters together -/

theorem mem_matchingRows_append {t : Table e} {r : Row e} :
    r ∈ matchingRows t (typed ++ typed') ↔
      r ∈ matchingRows t typed ∧ r ∈ matchingRows t typed' := by
  simp only [matchingRows, passes, List.mem_filter, List.all_append, Bool.and_eq_true]
  tauto

/-- More filters leave fewer rows. -/
theorem matchingRows_sublist_of_subset (hsub : filters ⊆ filters')
    (h : typedFilters filters = .ok typed) (h' : typedFilters filters' = .ok typed') (t : Table e) :
    (matchingRows t typed').Sublist (matchingRows t typed) := by
  refine List.monotone_filter_right _ fun r hr => ?_
  rw [passes_iff_of_typedFilters h'] at hr
  exact (passes_iff_of_typedFilters h r).mpr fun f hf => hr f (hsub hf)

theorem MemoryStore.ask_page_of_typedFilters (h : typedFilters filters = .ok typed)
    (request : PageRequest) (s : MemoryStore e) :
    (ask (.page filters request) s).1 = .ok (selectPage s.table typed request) := by
  rw [ask_page, h]
  rfl

/-- The total of a page that is answered counts the rows that match filters which can be read. -/
theorem exists_of_ask_page {s : MemoryStore e} {request : PageRequest} {page : Page (Row e)}
    (h : (MemoryStore.ask (.page filters request) s).1 = .ok page) :
    ∃ typed, typedFilters filters = .ok typed ∧
      page.total = UInt64.ofNat (matchingRows s.table typed).length := by
  cases htyped : typedFilters filters with
  | error fault => simp [MemoryStore.ask_page, htyped, Except.map] at h
  | ok typed =>
    rw [MemoryStore.ask_page_of_typedFilters htyped] at h
    cases h
    exact ⟨typed, rfl, rfl⟩

/-- How the filters of lists go together. -/
structure FiltersConjoin (s : MemoryStore e) : Prop where
  /-- Parameters of different names may stand in any order: they ask for the same page, and list
  alike. -/
  permuted : ∀ pairs pairs' : List (String × String), pairs.Pairwise (fun p q => p.1 ≠ q.1) →
    pairs.Perm pairs' →
      (∀ host path, (ListRequest.ofPairs pairs host path).page =
        (ListRequest.ofPairs pairs' host path).page) ∧
      ∀ request, ListsAlike (serve (.list (parseQuery pairs) request) s).1
        (serve (.list (parseQuery pairs') request) s).1
  /-- Filters that differ in their order and repetition only list alike, -/
  alike : ∀ filters filters', (∀ f, f ∈ filters ↔ f ∈ filters') → ∀ request,
    ListsAlike (MemoryStore.ask (.page filters request) s).1
      (MemoryStore.ask (.page filters' request) s).1
  /-- and a filter that is repeated after it has been there changes nothing at all. -/
  repeated : ∀ before f after, f ∈ before → ∀ request,
    MemoryStore.ask (.page (before ++ f :: after) request) s =
      MemoryStore.ask (.page (before ++ after) request) s
  /-- Filters that can be read are answered with a page of the rows that match them, and with how
  many these are. -/
  answered : ∀ filters typed, typedFilters filters = .ok typed → ∀ request,
    (MemoryStore.ask (.page filters request) s).1 =
        .ok (MemoryStore.selectPage s.table typed request) ∧
      (MemoryStore.selectPage s.table typed request).total =
        UInt64.ofNat (matchingRows s.table typed).length
  /-- Two lists of filters that can be read can be read together, and the rows that match them
  together are those that match both. -/
  conjoined : ∀ filters filters' typed typed', typedFilters filters = .ok typed →
    typedFilters filters' = .ok typed' →
      typedFilters (filters ++ filters') = .ok (typed ++ typed') ∧
      ∀ r, r ∈ matchingRows s.table (typed ++ typed') ↔
        r ∈ matchingRows s.table typed ∧ r ∈ matchingRows s.table typed'
  /-- Filters that are added, wherever, leave no more rows than there were, -/
  fewer : ∀ filters filters' typed typed', filters ⊆ filters' → typedFilters filters = .ok typed →
    typedFilters filters' = .ok typed' →
      (matchingRows s.table typed').Sublist (matchingRows s.table typed)
  /-- and do not raise the total. The total is a word, which counts the rows of every store but one
  with a row under each identifier. -/
  total_le : s.table.rows.length < UInt64.size → ∀ filters filters' request page page',
    filters ⊆ filters' → (MemoryStore.ask (.page filters request) s).1 = .ok page →
      (MemoryStore.ask (.page filters' request) s).1 = .ok page' → page'.total ≤ page.total

/-- The filters of the lists of a store amount to their conjunction. -/
theorem filters_conjoin (s : MemoryStore e) : FiltersConjoin s where
  permuted pairs pairs' hnames hperm := by
    refine ⟨fun host path => ?_, fun request => ?_⟩
    · simp only [ListRequest.ofPairs, ListRequest.firstValue?_eq_lookup,
        lookup_eq_of_perm hnames hperm]
    · have hsame := fun f => (perm_retain_parseQuery e hnames hperm).mem_iff (a := f)
      have halike := MemoryStore.listsAlike_of_mem_iff hsame request s
      rwa [MemoryStore.ask_page, MemoryStore.ask_page, ← serve_list, ← serve_list] at halike
  alike _ _ hsame request := MemoryStore.listsAlike_of_mem_iff hsame request s
  repeated _ _ after hf request := MemoryStore.ask_page_of_repeated hf after request s
  answered _ _ h request := ⟨MemoryStore.ask_page_of_typedFilters h request s, rfl⟩
  conjoined _ _ _ _ h h' := ⟨typedFilters_append h h', fun _ => mem_matchingRows_append⟩
  fewer _ _ _ _ hsub h h' := matchingRows_sublist_of_subset hsub h h' s.table
  total_le hsize filters filters' request page page' hsub hpage hpage' := by
    obtain ⟨typed, htyped, htotal⟩ := exists_of_ask_page hpage
    obtain ⟨typed', htyped', htotal'⟩ := exists_of_ask_page hpage'
    have hle := (matchingRows_sublist_of_subset hsub htyped htyped' s.table).length_le
    have hbound := Nat.lt_of_le_of_lt (length_matchingRows_le s.table typed) hsize
    rw [UInt64.le_iff_toNat_le, htotal, htotal', UInt64.toNat_ofNat_of_lt' hbound,
      UInt64.toNat_ofNat_of_lt' (Nat.lt_of_le_of_lt hle hbound)]
    exact hle

end ExchangeCatalog
