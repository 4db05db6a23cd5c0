import ExchangeCatalog.Proofs.Page.Query
import Mathlib.Data.List.Basic

/-!
# Names that a query repeats

A query may name a parameter more than once. Its first occurrence decides, also when it has no
value: a later one never stands in for it. Page, size and predicates are all taken from these first
occurrences, so they never disagree, and since a key is put together again from its field and its
operator, no two predicates constrain one field in one way.

## Main definitions

* `namedOnce` — the names of a query in the order of their first occurrences, with their first
  values
* `ReadsNamedOnce` — all that the reading of a query amounts to

## Main results

* `firstOccurrences_eq_namedOnce` — the parameters that count
* `firstOccurrences_of_repeated` — a repeated parameter may be left out
* `query_reads_named_once` — every query is read by its first occurrences
-/

namespace ExchangeCatalog

/-- The names of a query's parameters in the order of their first occurrences, each with its first
value. -/
def namedOnce (pairs : List (String × String)) : List (String × String) :=
  (pairs.map Prod.fst).eraseDups.filterMap fun name =>
    (pairs.lookup name).map fun value => (name, value)

variable {pairs before after : List (String × String)} {p : String × String} {name value : String}

/-! ### The parameters that count -/

theorem ListRequest.firstValue?_eq_lookup (name : String) (pairs : List (String × String)) :
    firstValue? name pairs = pairs.lookup name := by
  induction pairs with
  | nil => rfl
  | cons p pairs ih =>
    rw [List.lookup_cons, ← ih, firstValue?, List.find?_cons]
    by_cases hname : p.1 = name
    · rw [beq_iff_eq.mpr hname, beq_iff_eq.mpr hname.symm]
      rfl
    · rw [beq_eq_false_iff_ne.mpr hname, beq_eq_false_iff_ne.mpr (Ne.symm hname)]
      rfl

theorem lookup_filter_ne (h : name ≠ p.1) :
    (pairs.filter fun q => q.1 != p.1).lookup name = pairs.lookup name := by
  have hkeep := ListRequest.firstValue?_filter (fun key => key != p.1) (bne_iff_ne.mpr h) pairs
  rwa [ListRequest.firstValue?_eq_lookup, ListRequest.firstValue?_eq_lookup] at hkeep

theorem namedOnce_cons (p : String × String) (pairs : List (String × String)) :
    namedOnce (p :: pairs) = p :: namedOnce (pairs.filter fun q => q.1 != p.1) := by
  have hfirst : List.lookup p.1 (p :: pairs) = some p.2 := by
    rw [List.lookup_cons, beq_self_eq_true]
  have hnames : (pairs.map Prod.fst).filter (fun name => name != p.1) =
      (pairs.filter fun q => q.1 != p.1).map Prod.fst := List.filter_map
  rw [namedOnce, List.map_cons, List.eraseDups_cons, List.filterMap_cons, hfirst, namedOnce,
    ← hnames]
  refine congrArg (p :: ·) (List.filterMap_congr fun name hname => ?_)
  -- The other names are looked up behind the first parameter.
  have hne : name ≠ p.1 := by simpa using (List.mem_filter.mp (List.mem_eraseDups.mp hname)).2
  rw [List.lookup_cons, beq_eq_false_iff_ne.mpr hne, lookup_filter_ne hne]

theorem not_mem_of_mem_firstOccurrences_go {seen : List String}
    (h : p ∈ firstOccurrences.go seen pairs) : p.1 ∉ seen := by
  induction pairs generalizing seen with
  | nil => exact absurd h List.not_mem_nil
  | cons q pairs ih =>
    rw [firstOccurrences.go] at h
    split at h
    · exact ih h
    · rename_i hq
      rcases List.mem_cons.mp h with rfl | h
      · exact hq
      · exact fun hp => ih h (List.mem_cons_of_mem _ hp)

/-- A parameter counts at its place, and hides the later ones of its name. -/
theorem firstOccurrences_cons (p : String × String) (pairs : List (String × String)) :
    firstOccurrences (p :: pairs) = p :: firstOccurrences (pairs.filter fun q => q.1 != p.1) := by
  have hothers : ∀ q ∈ firstOccurrences.go [p.1] pairs, q.1 != p.1 := fun q hq =>
    bne_iff_ne.mpr fun heq => not_mem_of_mem_firstOccurrences_go hq (List.mem_singleton.mpr heq)
  have hnew : ∀ key, key != p.1 → (key ∈ ([] : List String) ↔ key ∈ [p.1]) := fun key hkey =>
    iff_of_false List.not_mem_nil fun hmem => bne_iff_ne.mp hkey (List.mem_singleton.mp hmem)
  have hfilter := firstOccurrences_go_filter (fun key => key != p.1) hnew pairs
  rw [List.filter_eq_self.mpr hothers] at hfilter
  exact congrArg (p :: ·) hfilter.symm

/-- The parameters that count are the names in the order of their first occurrences, with their
first values. -/
theorem firstOccurrences_eq_namedOnce : (pairs : List (String × String)) →
    firstOccurrences pairs = namedOnce pairs
  | [] => rfl
  | p :: pairs => by
    rw [firstOccurrences_cons, namedOnce_cons, firstOccurrences_eq_namedOnce]
termination_by pairs => pairs.length
decreasing_by exact Nat.lt_succ_of_le (List.length_filter_le _ _)

theorem mem_namedOnce_iff : (name, value) ∈ namedOnce pairs ↔ pairs.lookup name = some value := by
  rw [namedOnce, List.mem_filterMap]
  constructor
  · rintro ⟨name', -, h⟩
    obtain ⟨value', hvalue, heq⟩ := Option.map_eq_some_iff.mp h
    cases heq
    exact hvalue
  · intro h
    obtain ⟨before, after, rfl, -⟩ := List.lookup_eq_some_iff.mp h
    refine ⟨name, List.mem_eraseDups.mpr ?_, by rw [h]; rfl⟩
    exact List.mem_map_of_mem (List.mem_append_right before List.mem_cons_self)

/-- A name has the same first value among the parameters that count. -/
theorem lookup_namedOnce (name : String) : (pairs : List (String × String)) →
    (namedOnce pairs).lookup name = pairs.lookup name
  | [] => rfl
  | p :: pairs => by
    rw [namedOnce_cons, List.lookup_cons, List.lookup_cons, lookup_namedOnce]
    by_cases hname : name = p.1
    · rw [beq_iff_eq.mpr hname]
    · rw [beq_eq_false_iff_ne.mpr hname, lookup_filter_ne hname]
termination_by pairs => pairs.length
decreasing_by exact Nat.lt_succ_of_le (List.length_filter_le _ _)

/-- The parameters that count have different names. -/
theorem pairwise_firstOccurrences : (pairs : List (String × String)) →
    (firstOccurrences pairs).Pairwise fun p q => p.1 ≠ q.1
  | [] => .nil
  | p :: pairs => by
    rw [firstOccurrences_cons]
    refine List.pairwise_cons.mpr ⟨fun q hq => ?_, pairwise_firstOccurrences _⟩
    rw [firstOccurrences_filter (fun key => key != p.1)] at hq
    exact Ne.symm (bne_iff_ne.mp (List.mem_filter.mp hq).2)
termination_by pairs => pairs.length
decreasing_by exact Nat.lt_succ_of_le (List.length_filter_le _ _)

/-- Where no name is repeated every parameter counts. -/
theorem firstOccurrences_of_pairwise (h : pairs.Pairwise fun p q => p.1 ≠ q.1) :
    firstOccurrences pairs = pairs := by
  induction pairs with
  | nil => rfl
  | cons p pairs ih =>
    obtain ⟨hp, hpairs⟩ := List.pairwise_cons.mp h
    have hothers : ∀ q ∈ pairs, q.1 != p.1 := fun q hq => bne_iff_ne.mpr (Ne.symm (hp q hq))
    rw [firstOccurrences_cons, List.filter_eq_self.mpr hothers, ih hpairs]

/-- A repeated parameter may be left out. -/
theorem firstOccurrences_go_of_repeated {seen : List String}
    (h : p.1 ∈ seen ∨ p.1 ∈ before.map Prod.fst) :
    firstOccurrences.go seen (before ++ p :: after) =
      firstOccurrences.go seen (before ++ after) := by
  induction before generalizing seen with
  | nil => exact if_pos (h.resolve_right List.not_mem_nil)
  | cons q before ih =>
    rw [List.cons_append, List.cons_append, firstOccurrences.go, firstOccurrences.go]
    split_ifs with hq
    · refine ih ?_
      rcases h with hseen | hmem
      · exact Or.inl hseen
      · -- If the parameter in front has the name, the name has been seen.
        rcases List.mem_cons.mp hmem with heq | hmem
        · exact Or.inl (heq ▸ hq)
        · exact Or.inr hmem
    · refine congrArg (q :: ·) (ih ?_)
      rcases h with hseen | hmem
      · exact Or.inl (List.mem_cons_of_mem _ hseen)
      · rcases List.mem_cons.mp hmem with heq | hmem
        · exact Or.inl (heq ▸ List.mem_cons_self)
        · exact Or.inr hmem

theorem firstOccurrences_of_repeated (h : p.1 ∈ before.map Prod.fst) :
    firstOccurrences (before ++ p :: after) = firstOccurrences (before ++ after) :=
  firstOccurrences_go_of_repeated (Or.inr h)

/-! ### The reading of a query -/

theorem Predicate.ofPair?_eq_some_iff {q : Predicate} :
    ofPair? name value = some q ↔
      value ≠ "" ∧ splitKey name = (q.field, q.op) ∧ q.value = value := by
  rw [ofPair?]
  split_ifs with hvalue
  · exact iff_of_false id fun h => h.1 hvalue
  · obtain ⟨field, op, text⟩ := q
    simp only [Option.some.injEq, Predicate.mk.injEq, Prod.ext_iff]
    tauto

/-- The predicates are those of the names whose first value is not empty. -/
theorem mem_parseQuery_iff {q : Predicate} : q ∈ parseQuery pairs ↔
    ∃ name, pairs.lookup name = some q.value ∧ q.value ≠ "" ∧ splitKey name = (q.field, q.op) := by
  rw [parseQuery, firstOccurrences_eq_namedOnce, List.mem_filterMap]
  constructor
  · rintro ⟨⟨name, value⟩, hp, hq⟩
    obtain ⟨hvalue, hsplit, rfl⟩ := Predicate.ofPair?_eq_some_iff.mp hq
    exact ⟨name, mem_namedOnce_iff.mp hp, hvalue, hsplit⟩
  · rintro ⟨name, hfirst, hvalue, hsplit⟩
    exact ⟨(name, q.value), mem_namedOnce_iff.mpr hfirst,
      Predicate.ofPair?_eq_some_iff.mpr ⟨hvalue, hsplit, rfl⟩⟩

/-- No two predicates constrain one field in one way. -/
theorem pairwise_parseQuery (pairs : List (String × String)) :
    (parseQuery pairs).Pairwise fun q q' => (q.field, q.op) ≠ (q'.field, q'.op) := by
  refine List.pairwise_filterMap.mpr ((pairwise_firstOccurrences pairs).imp ?_)
  intro p p' hnames q hq q' hq' heq
  obtain ⟨-, hsplit, -⟩ := Predicate.ofPair?_eq_some_iff.mp hq
  obtain ⟨-, hsplit', -⟩ := Predicate.ofPair?_eq_some_iff.mp hq'
  exact hnames (splitKey_injective (hsplit.trans (heq.trans hsplit'.symm)))

/-- All that the reading of a query amounts to. -/
structure ReadsNamedOnce (pairs : List (String × String)) : Prop where
  /-- Each name has one predicate, if its first value is not empty, in the order of the names' first
  occurrences. -/
  predicates_eq : parseQuery pairs = (namedOnce pairs).filterMap fun (name, value) =>
    if value = "" then none else some ⟨(splitKey name).1, (splitKey name).2, value⟩
  /-- Nothing else is a predicate of the query. -/
  mem_iff : ∀ q, q ∈ parseQuery pairs ↔
    ∃ name, pairs.lookup name = some q.value ∧ q.value ≠ "" ∧ splitKey name = (q.field, q.op)
  /-- A name whose first value is empty has no predicate, whatever values come later. -/
  hidden : ∀ name, pairs.lookup name = some "" →
    ∀ q ∈ parseQuery pairs, splitKey name ≠ (q.field, q.op)
  /-- No two predicates constrain one field in one way. -/
  distinct : (parseQuery pairs).Pairwise fun q q' => (q.field, q.op) ≠ (q'.field, q'.op)
  /-- A parameter whose name occurred earlier may be left out, -/
  repeated : ∀ before p after, pairs = before ++ p :: after → p.1 ∈ before.map Prod.fst →
    parseQuery (before ++ after) = parseQuery pairs
  /-- and so may all of them. -/
  named_once : parseQuery (namedOnce pairs) = parseQuery pairs
  /-- A list request takes its predicates, its page and its size from the same first occurrences. -/
  request : ∀ host path, (ListRequest.ofPairs pairs host path).predicates = parseQuery pairs ∧
    (ListRequest.ofPairs pairs host path).page =
      .ofQuery ((namedOnce pairs).lookup "page") ((namedOnce pairs).lookup "limit")

/-- Every query is read by the first occurrences of its names. -/
theorem query_reads_named_once (pairs : List (String × String)) : ReadsNamedOnce pairs where
  predicates_eq := by
    rw [parseQuery, firstOccurrences_eq_namedOnce]
    rfl
  mem_iff _ := mem_parseQuery_iff
  hidden := by
    intro name hempty q hq hsplit
    obtain ⟨name', hfirst, hvalue, hsplit'⟩ := mem_parseQuery_iff.mp hq
    rw [splitKey_injective (hsplit'.trans hsplit.symm), hempty] at hfirst
    exact hvalue (Option.some.inj hfirst).symm
  distinct := pairwise_parseQuery pairs
  repeated := by
    rintro before p after rfl hp
    rw [parseQuery, parseQuery, firstOccurrences_of_repeated hp]
  named_once := by
    rw [parseQuery, parseQuery, ← firstOccurrences_eq_namedOnce,
      firstOccurrences_of_pairwise (pairwise_firstOccurrences pairs)]
  request host path := by
    refine ⟨rfl, ?_⟩
    rw [ListRequest.ofPairs, ListRequest.firstValue?_eq_lookup, ListRequest.firstValue?_eq_lookup,
      lookup_namedOnce, lookup_namedOnce]

example : parseQuery [("name", ""), ("age_gt", "3"), ("name", "x"), ("age_gt", "4")] =
    [⟨"age", .greaterThan, "3"⟩] := by decide +kernel

end ExchangeCatalog
