import ExchangeCatalog.Proofs.Filter.Key

/-!
# Predicates and the keys they came from

A predicate still tells the key that it was read from, so a parameter can be followed through the
reading of a query: leaving out names before the predicates are read leaves out the predicates of
these names and no others.

## Main definitions

* `Predicate.key` — the key that a predicate was read from

## Main results

* `Predicate.key_of_ofPair?` — no key is lost
* `parseQuery_filter` — parameters left out before or after reading
-/

namespace ExchangeCatalog

/-- The key that a predicate was read from. -/
def Predicate.key (p : Predicate) : String := joinKey p.field p.op

theorem Predicate.key_of_ofPair? {key value : String} {p : Predicate}
    (h : ofPair? key value = some p) :
    p.key = key := by
  rw [ofPair?] at h
  split at h
  · cases h
  · obtain rfl := Option.some.inj h
    exact joinKey_splitKey key

/-! ### Parameters left out -/

variable (keep : String → Bool)

theorem firstOccurrences_go_filter {seen seen' : List String}
    (hseen : ∀ key, keep key → (key ∈ seen ↔ key ∈ seen')) (pairs : List (String × String)) :
    firstOccurrences.go seen (pairs.filter fun p => keep p.1) =
      (firstOccurrences.go seen' pairs).filter fun p => keep p.1 := by
  induction pairs generalizing seen seen' with
  | nil => rfl
  | cons p pairs ih =>
    rw [firstOccurrences.go]
    by_cases hkeep : keep p.1
    · rw [List.filter_cons_of_pos (by simp [hkeep]), firstOccurrences.go]
      by_cases hmem : p.1 ∈ seen'
      · rw [if_pos hmem, if_pos ((hseen _ hkeep).mpr hmem)]
        exact ih hseen
      · rw [if_neg hmem, if_neg fun h => hmem ((hseen _ hkeep).mp h),
          List.filter_cons_of_pos (by simp [hkeep])]
        refine congrArg (p :: ·) (ih ?_)
        intro key hkey
        rw [List.mem_cons, List.mem_cons, hseen key hkey]
    · rw [List.filter_cons_of_neg (by simp [hkeep])]
      split
      · exact ih hseen
      · -- The name that has been seen is none of those that are kept.
        rw [List.filter_cons_of_neg (by simp [hkeep])]
        refine ih ?_
        intro key hkey
        have hne : key ≠ p.1 := fun h => hkeep (h ▸ hkey)
        rw [hseen key hkey, List.mem_cons, or_iff_right hne]

/-- Names may be left out before or after the first occurrences are taken. -/
theorem firstOccurrences_filter (pairs : List (String × String)) :
    firstOccurrences (pairs.filter fun p => keep p.1) =
      (firstOccurrences pairs).filter fun p => keep p.1 :=
  firstOccurrences_go_filter keep (fun _ _ => Iff.rfl) pairs

/-- Without the parameters of some names, exactly the predicates of these keys are missing. -/
theorem parseQuery_filter (pairs : List (String × String)) :
    parseQuery (pairs.filter fun p => keep p.1) =
      (parseQuery pairs).filter fun p => keep p.key := by
  rw [parseQuery, parseQuery, firstOccurrences_filter]
  induction firstOccurrences pairs with
  | nil => rfl
  | cons p pairs ih =>
    rw [List.filterMap_cons]
    by_cases hkeep : keep p.1
    · rw [List.filter_cons_of_pos (by simp [hkeep]), List.filterMap_cons, ih]
      cases hpair : Predicate.ofPair? p.1 p.2 with
      | none => rfl
      | some q =>
        exact (List.filter_cons_of_pos (by simp [Predicate.key_of_ofPair? hpair, hkeep])).symm
    · rw [List.filter_cons_of_neg (by simp [hkeep]), ih]
      cases hpair : Predicate.ofPair? p.1 p.2 with
      | none => rfl
      | some q =>
        exact (List.filter_cons_of_neg (by simp [Predicate.key_of_ofPair? hpair, hkeep])).symm

end ExchangeCatalog
