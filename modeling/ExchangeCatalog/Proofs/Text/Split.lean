import ExchangeCatalog.Text.Split
import Mathlib.Data.List.Infix
import Mathlib.Data.List.TakeWhile

/-!
# Cutting joined texts

Pieces that are put together with a character between them are found again by cutting at this
character, as long as none of them holds it.

## Main results

* `Text.takeWhile_ne_append` — the first occurrence of a character divides a text
* `Text.cutFirst?_eq_some_iff`, `Text.cutFirst?_eq_none_iff` — what the first cut finds, and when
  there is none
* `Text.cutFirst?_of_mem` — the first cut as what stands before the character and what is left
* `Text.cutLast?_eq_some_iff`, `Text.cutLast?_eq_none_iff` — the same of the last cut
* `Text.pieces_intercalate` — cutting pieces that were put together
* `Text.cutAt?_eq_some_iff`, `Text.cutAt?_eq_none_iff` — the same of the first cut at a text
-/

namespace ExchangeCatalog.Text

variable {c : Char} {cs a b p : List Char}

/-! ### Before and after a character -/

theorem not_mem_takeWhile_ne (c : Char) (cs : List Char) : c ∉ cs.takeWhile (· != c) :=
  fun h => bne_iff_ne.mp (List.mem_takeWhile_imp (p := (· != c)) h) rfl

theorem takeWhile_ne_eq_self (h : c ∉ cs) : cs.takeWhile (· != c) = cs :=
  List.takeWhile_eq_self_iff.mpr fun _ hd => bne_iff_ne.mpr (ne_of_mem_of_not_mem hd h)

theorem dropWhile_ne_eq_nil (h : c ∉ cs) : cs.dropWhile (· != c) = [] :=
  List.dropWhile_eq_nil_iff.mpr fun _ hd => bne_iff_ne.mpr (ne_of_mem_of_not_mem hd h)

/-- The first occurrence of a character divides a text. -/
theorem takeWhile_ne_append (ha : c ∉ a) (hb : ∀ d ∈ b.head?, d = c) :
    (a ++ b).takeWhile (· != c) = a ∧ (a ++ b).dropWhile (· != c) = b := by
  have hfirst : ∀ d ∈ a, (d != c) = true :=
    fun d hd => bne_iff_ne.mpr (ne_of_mem_of_not_mem hd ha)
  rw [List.takeWhile_append_of_pos hfirst, List.dropWhile_append_of_pos hfirst]
  cases b with
  | nil => exact ⟨List.append_nil a, rfl⟩
  | cons d b =>
    obtain rfl := hb d rfl
    rw [List.takeWhile_cons_of_neg (by simp), List.dropWhile_cons_of_neg (by simp)]
    exact ⟨List.append_nil a, rfl⟩

/-! ### Cutting once -/

theorem cutFirst?_eq_none_iff : cutFirst? c cs = none ↔ c ∉ cs := by
  induction cs with
  | nil => simp [cutFirst?]
  | cons d cs ih =>
    rw [cutFirst?, List.mem_cons, not_or]
    by_cases h : d = c
    · rw [if_pos h]
      exact iff_of_false (Option.some_ne_none _) fun hnot => hnot.1 h.symm
    · rw [if_neg h, Option.map_eq_none_iff, ih]
      exact ⟨fun hcs => ⟨fun heq => h heq.symm, hcs⟩, And.right⟩

/-- The first cut is at the first occurrence. -/
theorem cutFirst?_append (h : c ∉ a) (b : List Char) : cutFirst? c (a ++ c :: b) = some (a, b) := by
  induction a with
  | nil => rw [List.nil_append, cutFirst?, if_pos rfl]
  | cons d a ih =>
    rw [List.cons_append, cutFirst?, if_neg (List.ne_of_not_mem_cons h).symm,
      ih (List.not_mem_of_not_mem_cons h)]
    rfl

/-- Where the character occurs, the first cut leaves out the first occurrence alone. -/
theorem cutFirst?_of_mem (h : c ∈ cs) :
    ∃ after, cutFirst? c cs = some (cs.takeWhile (· != c), after) ∧
      cs.dropWhile (· != c) = c :: after := by
  induction cs with
  | nil => cases h
  | cons d cs ih =>
    rw [cutFirst?, List.takeWhile_cons, List.dropWhile_cons]
    by_cases hd : d = c
    · subst hd
      simp only [bne_self_eq_false, Bool.false_eq_true, if_false, if_true]
      exact ⟨cs, rfl, rfl⟩
    · obtain ⟨after, hcut, hdrop⟩ := ih ((List.mem_cons.mp h).resolve_left (Ne.symm hd))
      rw [if_neg hd, if_pos (bne_iff_ne.mpr hd), if_pos (bne_iff_ne.mpr hd), hcut]
      exact ⟨after, rfl, hdrop⟩

/-- The first cut is at an occurrence with none before it. -/
theorem cutFirst?_eq_some_iff : cutFirst? c cs = some (a, b) ↔ cs = a ++ c :: b ∧ c ∉ a := by
  constructor
  · intro h
    have hc : c ∈ cs := by
      by_contra hnone
      rw [cutFirst?_eq_none_iff.mpr hnone] at h
      cases h
    obtain ⟨after, hcut, -⟩ := cutFirst?_of_mem hc
    rw [hcut] at h
    cases h
    exact ⟨eq_of_cutFirst? hcut, not_mem_takeWhile_ne c cs⟩
  · rintro ⟨rfl, ha⟩
    exact cutFirst?_append ha b

theorem cutLast?_eq_none_iff : cutLast? c cs = none ↔ c ∉ cs := by
  induction cs with
  | nil => simp [cutLast?]
  | cons d cs ih =>
    rw [cutLast?, List.mem_cons, not_or, ← ih]
    cases cutLast? c cs with
    | none =>
      by_cases h : d = c
      · simp [h]
      · simp [h, Ne.symm h]
    | some p => simp

/-- The last cut is at the last occurrence. -/
theorem cutLast?_append (a : List Char) (h : c ∉ b) : cutLast? c (a ++ c :: b) = some (a, b) := by
  induction a with
  | nil =>
    rw [List.nil_append, cutLast?, cutLast?_eq_none_iff.mpr h]
    exact if_pos rfl
  | cons d a ih => rw [List.cons_append, cutLast?, ih]

/-- The last cut is at an occurrence with none behind it. -/
theorem cutLast?_eq_some_iff : cutLast? c cs = some (a, b) ↔ cs = a ++ c :: b ∧ c ∉ b := by
  constructor
  · intro h
    refine ⟨eq_of_cutLast? h, ?_⟩
    induction cs generalizing a with
    | nil => cases h
    | cons d cs ih =>
      rw [cutLast?] at h
      cases hcut : cutLast? c cs with
      | some p =>
        rw [hcut] at h
        cases h
        exact ih hcut
      | none =>
        rw [hcut] at h
        dsimp only at h
        split at h
        · cases h
          exact cutLast?_eq_none_iff.mp hcut
        · cases h
  · rintro ⟨rfl, hb⟩
    exact cutLast?_append a hb

/-! ### Cutting everywhere -/

theorem pieces_eq_splitOn (c : Char) (cs : List Char) : pieces c cs = cs.splitOn c := by
  induction cs with
  | nil => rfl
  | cons d cs ih =>
    rw [pieces, List.splitOn_cons_eq_if_modifyHead, ← ih]
    by_cases h : d = c
    · rw [if_pos h, if_pos (beq_iff_eq.mpr h)]
    · rw [if_neg h, if_neg (mt beq_iff_eq.mp h)]
      cases hpieces : pieces c cs with
      | nil => exact absurd hpieces (pieces_ne_nil c cs)
      | cons p ps => rfl

/-- No piece holds the character, and all that a piece holds comes from the text. -/
theorem not_mem_of_mem_pieces (h : p ∈ pieces c cs) : c ∉ p ∧ p ⊆ cs := by
  induction cs generalizing p with
  | nil =>
    rw [pieces, List.mem_singleton] at h
    rw [h]
    exact ⟨List.not_mem_nil, List.Subset.refl _⟩
  | cons d cs ih =>
    rw [pieces] at h
    by_cases hd : d = c
    · rw [if_pos hd, List.mem_cons] at h
      rcases h with rfl | h
      · exact ⟨List.not_mem_nil, List.nil_subset _⟩
      · exact ⟨(ih h).1, List.subset_cons_of_subset _ (ih h).2⟩
    · rw [if_neg hd] at h
      cases hpieces : pieces c cs with
      | nil => exact absurd hpieces (pieces_ne_nil c cs)
      | cons q qs =>
        rw [hpieces] at h ih
        rcases List.mem_cons.mp h with rfl | h
        · obtain ⟨hc, hsub⟩ := ih List.mem_cons_self
          exact ⟨List.not_mem_cons_of_ne_of_not_mem (Ne.symm hd) hc, List.cons_subset_cons _ hsub⟩
        · obtain ⟨hc, hsub⟩ := ih (List.mem_cons_of_mem _ h)
          exact ⟨hc, List.subset_cons_of_subset _ hsub⟩

/-- Pieces without the character that stands between them are found again. -/
theorem pieces_intercalate {parts : List (List Char)} (hne : parts ≠ []) (h : ∀ p ∈ parts, c ∉ p) :
    pieces c ([c].intercalate parts) = parts := by
  rw [pieces_eq_splitOn, List.splitOn_intercalate c h hne]

/-! ### Cutting at a text -/

theorem cutAt?_eq_none_iff {sep : List Char} : cutAt? sep cs = none ↔ ¬ sep <:+: cs := by
  induction cs with
  | nil => simp [cutAt?]
  | cons d cs ih =>
    rw [cutAt?, List.infix_cons_iff, not_or, ← ih]
    by_cases h : sep.isPrefixOf (d :: cs)
    · rw [if_pos h]
      exact iff_of_false (Option.some_ne_none _) fun hnot =>
        hnot.1 (List.isPrefixOf_iff_prefix.mp h)
    · rw [if_neg h, Option.map_eq_none_iff]
      exact ⟨fun hcs => ⟨mt List.isPrefixOf_iff_prefix.mpr h, hcs⟩, And.right⟩

/-- A cut leaves an end of the text. -/
theorem suffix_of_cutAt? {sep : List Char} (h : cutAt? sep cs = some (a, b)) : b <:+ cs := by
  induction cs generalizing a b with
  | nil =>
    rw [cutAt?] at h
    split at h
    · cases h
      exact List.suffix_refl _
    · cases h
  | cons d cs ih =>
    rw [cutAt?] at h
    split at h
    · cases h
      exact List.drop_suffix _ _
    · obtain ⟨⟨a', b'⟩, hcut, heq⟩ := Option.map_eq_some_iff.mp h
      cases heq
      exact (ih hcut).trans (List.suffix_cons _ _)

/-- The first cut at a text is at an occurrence or before it, so it leaves all that follows the
occurrence. -/
theorem exists_cutAt?_append (sep a b : List Char) :
    ∃ a' b', cutAt? sep (a ++ (sep ++ b)) = some (a', b') ∧ b <:+ b' := by
  induction a with
  | nil =>
    rw [List.nil_append]
    cases hcs : sep ++ b with
    | nil =>
      obtain ⟨rfl, rfl⟩ := List.append_eq_nil_iff.mp hcs
      exact ⟨[], [], rfl, List.suffix_refl _⟩
    | cons d cs =>
      refine ⟨[], (d :: cs).drop sep.length, ?_, ?_⟩
      · rw [cutAt?, if_pos]
        rw [List.isPrefixOf_iff_prefix, ← hcs]
        exact List.prefix_append _ _
      · have hrest : (d :: cs).drop sep.length = b := by rw [← hcs, List.drop_left]
        exact hrest ▸ List.suffix_refl b
  | cons d a ih =>
    rw [List.cons_append, cutAt?]
    by_cases h : sep.isPrefixOf (d :: (a ++ (sep ++ b)))
    · rw [if_pos h]
      refine ⟨[], _, rfl, ?_⟩
      have hb : b <:+ d :: (a ++ (sep ++ b)) :=
        ⟨d :: (a ++ sep), by rw [List.cons_append, List.append_assoc]⟩
      refine List.suffix_of_suffix_length_le hb (List.drop_suffix _ _) ?_
      rw [List.length_drop, List.length_cons, List.length_append, List.length_append]
      omega
    · obtain ⟨a', b', hcut, hb⟩ := ih
      rw [if_neg h, hcut]
      exact ⟨d :: a', b', rfl, hb⟩

/-- A text whose first character does not occur in it again cannot begin before such a character
and end behind it. -/
private theorem not_prefix_append {s : Char} {t : List Char} (hs : s ∉ t) (ha : a ≠ [])
    (h : ¬ s :: t <+: a) (b : List Char) : ¬ s :: t <+: a ++ s :: b := by
  intro hstart
  rcases List.prefix_or_prefix_of_prefix hstart (List.prefix_append a _) with hshort | ⟨u, hu⟩
  · exact h hshort
  · rw [← hu, List.prefix_append_right_inj] at hstart
    cases u with
    | nil => exact h (by rw [← hu, List.append_nil])
    | cons y u =>
      obtain ⟨rfl, -⟩ := List.cons_prefix_cons.mp hstart
      obtain ⟨x, a, rfl⟩ := List.exists_cons_of_ne_nil ha
      obtain ⟨-, rfl⟩ := List.cons.inj hu
      exact hs (by simp)

/-- The first cut at a text is where the text stands with no occurrence before it, when its first
character does not occur in it again: then no two occurrences overlap. -/
theorem cutAt?_append {s : Char} {t : List Char} (hs : s ∉ t) (h : ¬ s :: t <:+: a)
    (b : List Char) : cutAt? (s :: t) (a ++ (s :: t ++ b)) = some (a, b) := by
  induction a with
  | nil =>
    rw [List.nil_append, List.cons_append, cutAt?, if_pos]
    · rw [← List.cons_append, List.drop_left]
    · rw [List.isPrefixOf_iff_prefix, ← List.cons_append]
      exact List.prefix_append _ _
  | cons d a ih =>
    obtain ⟨hstart, ha⟩ := not_or.mp (mt List.infix_cons_iff.mpr h)
    rw [List.cons_append, cutAt?, if_neg, ih ha]
    · rfl
    · rw [List.isPrefixOf_iff_prefix]
      exact not_prefix_append hs (List.cons_ne_nil d a) hstart (t ++ b)

theorem cutAt?_eq_some_iff {s : Char} {t : List Char} (hs : s ∉ t) :
    cutAt? (s :: t) cs = some (a, b) ↔ cs = a ++ (s :: t ++ b) ∧ ¬ s :: t <:+: a := by
  constructor
  · intro h
    induction cs generalizing a with
    | nil => cases h
    | cons d cs ih =>
      rw [cutAt?] at h
      split at h
      · rename_i hstart
        cases h
        obtain ⟨rest, hrest⟩ := List.isPrefixOf_iff_prefix.mp hstart
        rw [← hrest, List.drop_left]
        exact ⟨rfl, by simp⟩
      · rename_i hstart
        obtain ⟨⟨a', b'⟩, hcut, heq⟩ := Option.map_eq_some_iff.mp h
        cases heq
        obtain ⟨rfl, ha⟩ := ih hcut
        refine ⟨rfl, fun hinfix => ?_⟩
        rcases List.infix_cons_iff.mp hinfix with hfront | hlater
        · rw [List.isPrefixOf_iff_prefix] at hstart
          exact hstart (hfront.trans (List.prefix_append (d :: a') _))
        · exact ha hlater
  · rintro ⟨rfl, ha⟩
    exact cutAt?_append hs ha b

end ExchangeCatalog.Text
