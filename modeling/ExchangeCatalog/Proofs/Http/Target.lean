import ExchangeCatalog.Http.Message
import ExchangeCatalog.Proofs.Text.Split
import Mathlib.Data.List.TakeWhile

/-!
# The target that an address names

An absolute address is a scheme, an authority, a path and a query, one after the other; what the
target of a request holds of it are these parts. A target never holds a fragment.

## Main results

* `Target.query_parse` — the query of an address, whatever stands before it
* `Target.parse_address` — all parts of an address whose scheme and authority hold no slash
* `Target.parse_pathAndQuery` — both parts of a target that is no more than a path and a query
* `Target.hash_not_mem_query` — a query has no fragment in it
-/

namespace ExchangeCatalog.Target

variable {scheme host path front query : List Char}

theorem query_ofPathText (authority : Option String) (h : '?' ∉ path) (query : List Char) :
    (ofPathText authority (path ++ '?' :: query)).query = some (String.ofList query) := by
  rw [ofPathText, Text.cutFirst?_append h]

theorem ofPathText_of_cons (authority : Option String) (h : '?' ∉ '/' :: path) (query : List Char) :
    ofPathText authority ('/' :: path ++ '?' :: query) =
      ⟨authority, String.ofList ('/' :: path), some (String.ofList query)⟩ := by
  rw [ofPathText, Text.cutFirst?_append h]
  dsimp only
  rw [if_neg fun hempty => List.cons_ne_nil _ _ hempty.2]

private theorem dropWhile_append_cons {p : Char → Bool} {c : Char} (hc : p c = false)
    (a b : List Char) :
    (a ++ c :: b).dropWhile p = a.dropWhile p ++ c :: b := by
  induction a with
  | nil => exact List.dropWhile_cons_of_neg (Bool.not_eq_true _ ▸ hc)
  | cons d a ih =>
    rw [List.cons_append, List.dropWhile_cons, List.dropWhile_cons, ih]
    split_ifs with hd
    · rfl
    · rfl

/-- The query of an address is what follows its first question mark. -/
theorem query_parse (hscheme : "://".toList <:+: front) (hfront : '?' ∉ front)
    (hfragment : '#' ∉ front ++ '?' :: query) :
    (parse (String.ofList (front ++ '?' :: query))).query = some (String.ofList query) := by
  rw [parse, String.toList_ofList, Text.takeWhile_ne_eq_self hfragment]
  dsimp only
  split
  · -- an address that begins with a slash is all path
    rw [query_ofPathText none hfront]
  · obtain ⟨a, b, hab⟩ := hscheme
    rw [List.append_assoc] at hab
    obtain ⟨a', rest, hcut, x, hx⟩ := Text.exists_cutAt?_append "://".toList a (b ++ '?' :: query)
    rw [← List.append_assoc, ← List.append_assoc, List.append_assoc a, hab] at hcut
    rw [hcut]
    dsimp only
    -- What follows the scheme begins with a part of the front, which has no question mark.
    obtain ⟨t, ht⟩ := Text.suffix_of_cutAt? hcut
    rw [← hx, ← List.append_assoc x] at ht ⊢
    rw [← List.append_assoc] at ht
    have hsuffix : x ++ b <:+ front := ⟨t, List.append_cancel_right ht⟩
    rw [dropWhile_append_cons (by decide), query_ofPathText]
    exact fun hmem => hfront (hsuffix.subset ((List.dropWhile_suffix _).subset hmem))

/-- The parts of an address whose scheme and authority hold no slash. -/
theorem parse_address (hscheme : '/' ∉ scheme) (hhost : ∀ c ∈ host, c ≠ '/' ∧ c ≠ '?')
    (hpath : '?' ∉ '/' :: path)
    (hfragment : '#' ∉ scheme ++ ("://".toList ++ (host ++ ('/' :: path ++ '?' :: query)))) :
    parse (String.ofList (scheme ++ ("://".toList ++ (host ++ ('/' :: path ++ '?' :: query))))) =
      ⟨some (String.ofList host), String.ofList ('/' :: path), some (String.ofList query)⟩ := by
  rw [parse, String.toList_ofList, Text.takeWhile_ne_eq_self hfragment]
  dsimp only
  split
  · rename_i heq
    cases scheme with
    | nil => exact absurd (List.cons.inj heq).1 (by decide)
    | cons d scheme => exact absurd (List.mem_cons.mpr (Or.inl (List.cons.inj heq).1.symm)) hscheme
  · have hfirst : ¬ ':' :: ['/', '/'] <:+: scheme := fun hinside =>
      hscheme (hinside.subset (by decide))
    have hcut := Text.cutAt?_append (by decide) hfirst (host ++ ('/' :: path ++ '?' :: query))
    have hkeep : ∀ c ∈ host, !(c == '/' || c == '?') := by
      intro c hc
      rw [Bool.not_eq_true', Bool.or_eq_false_iff, beq_eq_false_iff_ne, beq_eq_false_iff_ne]
      exact hhost c hc
    rw [show "://".toList = ':' :: ['/', '/'] from rfl, hcut]
    dsimp only
    rw [List.takeWhile_append_of_pos hkeep, List.dropWhile_append_of_pos hkeep, List.cons_append,
      List.takeWhile_cons_of_neg (by decide), List.dropWhile_cons_of_neg (by decide),
        List.append_nil,
      ← List.cons_append, ofPathText_of_cons _ hpath]

/-- A target without an authority is what its path and its query are read as, one after the
other. -/
theorem parse_pathAndQuery {t : Target} (hauthority : t.authority = none)
    (hfront : t.path.toList.head? = some '/') (hpath : '?' ∉ t.path.toList)
    (hfragment : '#' ∉ t.pathAndQuery.toList) : parse t.pathAndQuery = t := by
  obtain ⟨authority, path, query⟩ := t
  obtain rfl : authority = none := hauthority
  obtain ⟨cs, hcs⟩ : ∃ cs, path.toList = '/' :: cs := List.head?_eq_some_iff.mp hfront
  have hread : parse (pathAndQuery ⟨none, path, query⟩) =
      ofPathText none (pathAndQuery ⟨none, path, query⟩).toList := by
    have hslash : ∃ ds, (pathAndQuery ⟨none, path, query⟩).toList = '/' :: ds := by
      cases query with
      | none => exact ⟨cs, hcs⟩
      | some q => exact ⟨cs ++ '?' :: q.toList, by simp [pathAndQuery, hcs]⟩
    obtain ⟨ds, hds⟩ := hslash
    rw [parse, Text.takeWhile_ne_eq_self hfragment, hds]
    rfl
  rw [hread, ofPathText]
  cases query with
  | none =>
    have hline : pathAndQuery ⟨none, path, none⟩ = path := rfl
    rw [hline, Text.cutFirst?_eq_none_iff.mpr hpath]
    simp
  | some q =>
    have hline : (pathAndQuery ⟨none, path, some q⟩).toList = path.toList ++ '?' :: q.toList := by
      simp [pathAndQuery]
    rw [hline, Text.cutFirst?_append hpath]
    simp

/-! ### No fragments -/

private theorem subset_of_ofPathText {authority : Option String} {cs : List Char} {q : String}
    (h : (ofPathText authority cs).query = some q) : q.toList ⊆ cs := by
  rw [ofPathText] at h
  split at h
  · rename_i path query hcut
    obtain rfl := Option.some.inj h
    rw [String.toList_ofList, Text.eq_of_cutFirst? hcut]
    exact List.subset_append_of_subset_right _ (List.subset_cons_self _ _)
  · cases h

/-- A query has no fragment in it. -/
theorem hash_not_mem_query {s q : String} (h : (parse s).query = some q) : '#' ∉ q.toList := by
  have hhash : '#' ∉ s.toList.takeWhile fun c => c != '#' := fun hmem =>
    absurd (List.mem_takeWhile_imp hmem) (by decide)
  refine fun hmem => hhash ?_
  rw [parse] at h
  dsimp only at h
  split at h
  · exact subset_of_ofPathText h hmem
  · split at h
    · rename_i hcut
      have hrest := (List.dropWhile_suffix _).subset (subset_of_ofPathText h hmem)
      exact (Text.suffix_of_cutAt? hcut).subset hrest
    · cases h

@[simp] theorem query_trimmed (t : Target) : t.trimmed.query = t.query := by
  rw [trimmed]
  split
  · rfl
  · rfl

end ExchangeCatalog.Target
