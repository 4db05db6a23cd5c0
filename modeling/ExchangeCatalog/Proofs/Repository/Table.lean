import ExchangeCatalog.Repository.Table
import Mathlib.Data.List.Induction
import Mathlib.Data.List.Nodup
import Mathlib.Tactic.SplitIfs

/-!
# A table as a map from identifiers to rows

Looking a row up says everything about a table: two tables that find the same rows are equal, each
operation is known by what is found after it, and the rows in ascending order are the rows found
under the identifiers in ascending order.

## Main definitions

* `identifiers` — all identifiers in ascending order

## Main results

* `Table.find?_eq_some_iff` — a row is found exactly under its own identifier
* `Table.find?_insert`, `Table.find?_erase`, `Table.find?_ofRows` — what is found after each
  operation
* `Table.perm_insert`, `Table.map_perm_insert` — the rows after one has been put in
* `Table.rows_eq_filterMap` — the rows are those found under all identifiers in turn
* `Table.le_lastId?`, `Table.lastId?_eq_none_iff` — the last identifier is the greatest one
* `Table.length_rows_lt_size` — a table with a free identifier has fewer rows than a word can count
-/

namespace ExchangeCatalog

/-- All identifiers in ascending order. -/
def identifiers : List Int64 :=
  (List.range UInt64.size).map fun n : Nat => Int64.ofInt (n - 0x8000000000000000)

private theorem toInt_ofInt_sub {n : Nat} (h : n < UInt64.size) :
    (Int64.ofInt ((n : Int) - 0x8000000000000000)).toInt = n - 0x8000000000000000 := by
  simp only [UInt64.size] at h
  exact Int64.toInt_ofInt_of_le (by omega) (by omega)

theorem mem_identifiers (id : Int64) : id ∈ identifiers := by
  have hlow := Int64.le_toInt id
  have hhigh := Int64.toInt_lt id
  refine List.mem_map.mpr ⟨(id.toInt + 0x8000000000000000).toNat, ?_, ?_⟩
  · rw [List.mem_range]
    simp only [UInt64.size]
    omega
  · rw [Int.toNat_of_nonneg (by omega), Int.add_sub_cancel, Int64.ofInt_toInt]

theorem pairwise_identifiers : identifiers.Pairwise fun a b => a < b := by
  refine List.pairwise_map.mpr (List.Pairwise.imp_of_mem ?_ List.pairwise_lt_range)
  intro a b ha hb hlt
  rw [Int64.lt_iff_toInt_lt, toInt_ofInt_sub (List.mem_range.mp ha),
    toInt_ofInt_sub (List.mem_range.mp hb)]
  omega

theorem length_identifiers : identifiers.length = UInt64.size := by
  rw [identifiers, List.length_map, List.length_range]

namespace Table

variable {e : Entity} {t u : Table e} {row : Row e} {id : Int64}

/-- Rows in ascending order have different identifiers. -/
theorem nodup_ids {rows : List (Row e)} (h : rows.Pairwise fun a b => a.id < b.id) :
    (rows.map Row.id).Nodup := by
  refine List.pairwise_map.mpr (h.imp ?_)
  intro a b hlt heq
  rw [heq] at hlt
  exact Int64.lt_irrefl hlt

theorem nodup_rows (t : Table e) : t.rows.Nodup := (nodup_ids t.ascending).of_map

/-- A row is found exactly under its own identifier. -/
theorem find?_eq_some_iff : t.find? id = some row ↔ row ∈ t.rows ∧ row.id = id := by
  constructor
  · intro h
    exact ⟨List.mem_of_find?_eq_some h, by simpa using List.find?_some h⟩
  · rintro ⟨hmem, rfl⟩
    cases hfind : t.find? row.id with
    | none =>
      have := List.find?_eq_none.mp hfind row hmem
      simp at this
    | some other =>
      have hother := List.mem_of_find?_eq_some hfind
      have hid : other.id = row.id := by simpa using List.find?_some hfind
      rw [List.inj_on_of_nodup_map (nodup_ids t.ascending) hother hmem hid]

theorem mem_rows_iff : row ∈ t.rows ↔ t.find? row.id = some row := by
  rw [find?_eq_some_iff]
  exact ⟨fun h => ⟨h, rfl⟩, And.left⟩

theorem id_of_find? (h : t.find? id = some row) : row.id = id := (find?_eq_some_iff.mp h).2

/-- The rows are those found under all identifiers in turn. -/
theorem rows_eq_filterMap (t : Table e) : t.rows = identifiers.filterMap t.find? := by
  have hfound : (identifiers.filterMap t.find?).Pairwise fun a b => a.id < b.id := by
    refine List.pairwise_filterMap.mpr (pairwise_identifiers.imp ?_)
    intro i j hlt a ha b hb
    rw [id_of_find? ha, id_of_find? hb]
    exact hlt
  -- Both lists ascend and hold the same rows.
  refine List.Perm.eq_of_pairwise ?_ t.ascending hfound ?_
  · intro a b _ _ hab hba
    exact absurd (Int64.lt_trans hab hba) Int64.lt_irrefl
  · refine (List.perm_ext_iff_of_nodup (nodup_ids t.ascending).of_map
      (nodup_ids hfound).of_map).mpr fun row => ?_
    rw [mem_rows_iff, List.mem_filterMap]
    constructor
    · intro h
      exact ⟨row.id, mem_identifiers _, h⟩
    · rintro ⟨id, -, h⟩
      rwa [id_of_find? h]

/-- Two tables that find the same rows are equal. -/
theorem ext_find? (h : ∀ id, t.find? id = u.find? id) : t = u := by
  have hrows : t.rows = u.rows := by rw [rows_eq_filterMap t, rows_eq_filterMap u, funext h]
  cases t
  cases u
  congr

/-! ### What is found after an operation -/

@[simp] theorem find?_empty : (empty : Table e).find? id = none := rfl

private theorem mem_insertRow_iff {x : Row e} {rows : List (Row e)}
    (h : rows.Pairwise fun a b => a.id < b.id) :
    x ∈ insertRow row rows ↔ x = row ∨ x ∈ rows ∧ x.id ≠ row.id := by
  induction rows with
  | nil => simp [insertRow]
  | cons r rows ih =>
    obtain ⟨hr, hrows⟩ := List.pairwise_cons.mp h
    have hafter : ∀ y ∈ rows, y.id ≠ r.id := by
      intro y hy heq
      exact Int64.lt_irrefl (heq ▸ hr y hy)
    rw [insertRow]
    split_ifs with hlt heq
    · -- every row here has a greater identifier than the new one
      have hne : ∀ y ∈ r :: rows, y.id ≠ row.id := by
        intro y hy heq
        rcases List.mem_cons.mp hy with rfl | hy
        · exact Int64.lt_irrefl (heq ▸ hlt)
        · exact Int64.lt_irrefl (Int64.lt_trans hlt (heq ▸ hr y hy))
      rw [List.mem_cons]
      exact or_congr_right ⟨fun hx => ⟨hx, hne x hx⟩, And.left⟩
    · -- the row here has the identifier of the new one and gives way to it
      rw [List.mem_cons, List.mem_cons]
      refine or_congr_right ⟨fun hx => ⟨Or.inr hx, heq ▸ hafter x hx⟩, ?_⟩
      rintro ⟨rfl | hx, hne⟩
      · exact absurd heq.symm hne
      · exact hx
    · rw [List.mem_cons, List.mem_cons, ih hrows]
      constructor
      · rintro (rfl | rfl | ⟨hx, hne⟩)
        · exact Or.inr ⟨Or.inl rfl, fun hid => heq hid.symm⟩
        · exact Or.inl rfl
        · exact Or.inr ⟨Or.inr hx, hne⟩
      · rintro (rfl | ⟨rfl | hx, hne⟩)
        · exact Or.inr (Or.inl rfl)
        · exact Or.inl rfl
        · exact Or.inr (Or.inr ⟨hx, hne⟩)

theorem mem_insert_iff {x : Row e} :
    x ∈ (t.insert row).rows ↔ x = row ∨ x ∈ t.rows ∧ x.id ≠ row.id :=
  mem_insertRow_iff t.ascending

theorem find?_insert (t : Table e) (row : Row e) (id : Int64) :
    (t.insert row).find? id = if id = row.id then some row else t.find? id := by
  refine Option.ext ?_
  intro x
  rw [find?_eq_some_iff, mem_insert_iff]
  split_ifs with hid
  · subst hid
    constructor
    · rintro ⟨rfl | ⟨-, hne⟩, heq⟩
      · rfl
      · exact absurd heq hne
    · intro h
      obtain rfl := Option.some.inj h
      exact ⟨Or.inl rfl, rfl⟩
  · rw [find?_eq_some_iff]
    constructor
    · rintro ⟨rfl | ⟨hx, -⟩, rfl⟩
      · exact absurd rfl hid
      · exact ⟨hx, rfl⟩
    · rintro ⟨hx, rfl⟩
      exact ⟨Or.inr ⟨hx, hid⟩, rfl⟩

theorem find?_erase (t : Table e) (id' id : Int64) :
    (t.erase id').find? id = if id = id' then none else t.find? id := by
  refine Option.ext ?_
  intro x
  rw [find?_eq_some_iff, erase, List.mem_filter, bne_iff_ne]
  split_ifs with hid
  · subst hid
    simp only [iff_false, not_and]
    rintro ⟨-, hne⟩ heq
    exact hne heq
  · rw [find?_eq_some_iff]
    constructor
    · rintro ⟨⟨hx, -⟩, hxid⟩
      exact ⟨hx, hxid⟩
    · rintro ⟨hx, rfl⟩
      exact ⟨⟨hx, hid⟩, rfl⟩

/-- The table of a list finds the last row that has an identifier. -/
theorem find?_ofRows (rows : List (Row e)) (id : Int64) :
    (ofRows rows).find? id = rows.reverse.find? fun r => r.id == id := by
  induction rows using List.reverseRecOn with
  | nil => rfl
  | append_singleton rows row ih =>
    rw [ofRows, List.foldl_append, List.foldl_cons, List.foldl_nil, find?_insert, ← ofRows, ih,
      List.reverse_append, List.reverse_singleton, List.singleton_append, List.find?_cons]
    by_cases h : row.id = id
    · rw [if_pos h.symm, beq_iff_eq.mpr h]
    · rw [if_neg fun heq => h heq.symm, beq_eq_false_iff_ne.mpr h]

theorem isSome_find?_ofRows {rows : List (Row e)} :
    ((ofRows rows).find? id).isSome ↔ ∃ r ∈ rows, r.id = id := by
  rw [find?_ofRows, List.find?_isSome]
  simp only [List.mem_reverse, beq_iff_eq]

/-! ### The rows after an operation -/

/-- The rows of a table with a row put in: the row, and all others. -/
theorem perm_insert (t : Table e) (row : Row e) :
    (t.insert row).rows.Perm (row :: t.rows.filter fun r => r.id != row.id) := by
  have hcons : (row :: t.rows.filter fun r => r.id != row.id).Nodup := by
    refine List.nodup_cons.mpr ⟨fun hmem => ?_, t.nodup_rows.filter _⟩
    simpa using (List.mem_filter.mp hmem).2
  refine (List.perm_ext_iff_of_nodup (t.insert row).nodup_rows hcons).mpr ?_
  intro r
  rw [mem_insert_iff, List.mem_cons, List.mem_filter, bne_iff_ne]

/-- The rows with an identifier: the one that is found, if there is one. -/
theorem perm_filter_id (t : Table e) (id : Int64) :
    (t.rows.filter fun r => r.id == id).Perm (t.find? id).toList := by
  have hfound : (t.find? id).toList.Nodup := by
    cases t.find? id with
    | none => exact List.nodup_nil
    | some row => exact List.nodup_singleton row
  refine (List.perm_ext_iff_of_nodup (t.nodup_rows.filter _) hfound).mpr ?_
  intro r
  rw [List.mem_filter, beq_iff_eq, Option.mem_toList, find?_eq_some_iff]

theorem find?_eq_none_iff : t.find? id = none ↔ ∀ r ∈ t.rows, r.id ≠ id := by
  rw [find?, List.find?_eq_none]
  refine forall₂_congr ?_
  intro r _
  rw [beq_iff_eq]

/-- The rows with a row in the place of the one with its identifier, if there is one. -/
theorem map_perm_insert (t : Table e) {row : Row e} (h : t.find? row.id ≠ none) :
    (t.rows.map fun r => if r.id == row.id then row else r).Perm (t.insert row).rows := by
  obtain ⟨old, hold⟩ := Option.ne_none_iff_exists'.mp h
  have hfound := t.perm_filter_id row.id
  rw [hold, Option.toList_some] at hfound
  have hold' : old.id == row.id := beq_iff_eq.mpr (id_of_find? hold)
  -- The rows are the old one, which gives way to the new one, and the others, which stay.
  have hothers : (t.rows.filter fun r => !(r.id == row.id)).map
      (fun r => if r.id == row.id then row else r) =
        t.rows.filter fun r => !(r.id == row.id) := by
    refine (List.map_congr_left fun r hr => ?_).trans (List.map_id' _)
    exact if_neg fun hid => by simp [hid] at hr
  have hsplit := (List.filter_append_perm (fun r => r.id == row.id) t.rows).map fun r =>
    if r.id == row.id then row else r
  rw [List.map_append, hothers, hfound.eq_singleton, List.map_singleton, if_pos hold'] at hsplit
  exact hsplit.symm.trans (t.perm_insert row).symm

theorem erase_absent (h : t.find? id = none) : t.erase id = t := by
  refine ext_find? ?_
  intro id'
  rw [find?_erase]
  split
  · rename_i hid
    rw [hid, h]
  · rfl

/-- A row that is there already can be put in again. -/
theorem insert_of_find? (h : t.find? row.id = some row) : t.insert row = t := by
  refine ext_find? ?_
  intro id
  rw [find?_insert]
  split_ifs with hid
  · rw [hid, h]
  · rfl

/-- Of two rows with one identifier the later stays. -/
theorem insert_insert (t : Table e) {row row' : Row e} (h : row'.id = row.id) :
    (t.insert row).insert row' = t.insert row' := by
  refine ext_find? ?_
  intro id
  rw [find?_insert, find?_insert, find?_insert, h]
  split_ifs with hid
  · rfl
  · rfl

theorem length_insert_le (t : Table e) (row : Row e) :
    (t.insert row).rows.length ≤ t.rows.length + 1 := by
  rw [(t.perm_insert row).length_eq, List.length_cons]
  exact Nat.add_le_add_right (List.length_filter_le _ _) 1

theorem length_insert_of_found (t : Table e) {row : Row e} (h : t.find? row.id ≠ none) :
    (t.insert row).rows.length = t.rows.length := by
  rw [← (t.map_perm_insert h).length_eq, List.length_map]

theorem mem_of_mem_ofRows {rows : List (Row e)} (h : row ∈ (ofRows rows).rows) : row ∈ rows := by
  rw [mem_rows_iff, find?_ofRows] at h
  exact List.mem_reverse.mp (List.mem_of_find?_eq_some h)

/-! ### The last identifier -/

theorem lastId?_eq_none_iff : t.lastId? = none ↔ t.rows = [] := by
  rw [lastId?, Option.map_eq_none_iff, List.getLast?_eq_none_iff]

/-- The last identifier belongs to a row, and no row has a greater one. -/
theorem le_lastId? (h : t.lastId? = some id) :
    (t.find? id).isSome ∧ ∀ r ∈ t.rows, r.id ≤ id := by
  obtain ⟨last, hlast, rfl⟩ := Option.map_eq_some_iff.mp h
  obtain ⟨before, hrows⟩ := List.getLast?_eq_some_iff.mp hlast
  refine ⟨?_, fun r hr => ?_⟩
  · have hmem : last ∈ t.rows := by
      rw [hrows]
      exact List.mem_append_right _ (List.mem_singleton.mpr rfl)
    rw [mem_rows_iff.mp hmem]
    rfl
  · have hasc := t.ascending
    rw [hrows, List.pairwise_append] at hasc
    rw [hrows, List.mem_append, List.mem_singleton] at hr
    rcases hr with hr | rfl
    · exact Int64.le_of_lt (hasc.2.2 r hr last (List.mem_singleton.mpr rfl))
    · exact Int64.le_refl _

/-- A table with a free identifier has fewer rows than a word can count. -/
theorem length_rows_lt_size (h : t.find? id = none) : t.rows.length < UInt64.size := by
  rw [rows_eq_filterMap, ← length_identifiers, List.length_filterMap_lt_length_iff_exists]
  exact ⟨id, mem_identifiers id, h⟩

end Table

end ExchangeCatalog
