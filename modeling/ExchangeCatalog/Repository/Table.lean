import ExchangeCatalog.Entity.Basic

/-!
# Tables in memory

A table in memory holds rows under their identifiers, in ascending order, one row to an identifier.

## Main definitions

* `Table` — the rows, with the proof that they ascend
* `Table.find?`, `Table.insert`, `Table.erase` — look up, put and remove a row
* `Table.ofRows` — the table of a list of rows, of which a later one replaces an earlier one
-/

namespace ExchangeCatalog

/-- The rows of an entity in ascending order of their identifiers. -/
structure Table (e : Entity) where
  rows : List (Row e)
  ascending : rows.Pairwise fun a b => a.id < b.id

namespace Table

variable {e : Entity}

/-- The table without rows. -/
def empty : Table e := ⟨[], .nil⟩

/-- The row with an identifier. -/
def find? (t : Table e) (id : Int64) : Option (Row e) := t.rows.find? fun r => r.id == id

/-- A row put in its place among ascending rows, instead of one with its identifier. -/
def insertRow (row : Row e) : List (Row e) → List (Row e)
  | [] => [row]
  | r :: rs =>
    if row.id < r.id then row :: r :: rs
    else if row.id = r.id then row :: rs
    else r :: insertRow row rs

theorem mem_of_mem_insertRow {row x : Row e} {rs : List (Row e)} (h : x ∈ insertRow row rs) :
    x = row ∨ x ∈ rs := by
  induction rs with
  | nil => simp_all [insertRow]
  | cons r rs ih => simp only [insertRow] at h; grind

theorem pairwise_insertRow (row : Row e) {rs : List (Row e)}
    (h : rs.Pairwise fun a b => a.id < b.id) :
    (insertRow row rs).Pairwise fun a b => a.id < b.id := by
  induction rs with
  | nil => simp [insertRow]
  | cons r rs ih =>
    obtain ⟨hr, hrs⟩ := List.pairwise_cons.1 h
    simp only [insertRow]
    split
    · -- the new row comes first
      rename_i hlt
      refine List.pairwise_cons.2 ⟨fun x hx => ?_, h⟩
      rcases List.mem_cons.1 hx with rfl | hx
      · exact hlt
      · exact Int64.lt_trans hlt (hr x hx)
    · split
      · -- it takes the place of the first row
        rename_i heq
        exact List.pairwise_cons.2 ⟨fun x hx => heq ▸ hr x hx, hrs⟩
      · -- it comes later, and every row after the first is either it or an old one
        rename_i hnlt hne
        refine List.pairwise_cons.2 ⟨fun x hx => ?_, ih hrs⟩
        rcases mem_of_mem_insertRow hx with rfl | hx
        · have := Int64.toInt_inj (x := x.id) (y := r.id)
          have := Int64.lt_iff_toInt_lt (x := x.id) (y := r.id)
          have := Int64.lt_iff_toInt_lt (x := r.id) (y := x.id)
          grind
        · exact hr x hx

/-- The table with a row put in, instead of one with its identifier. -/
def insert (t : Table e) (row : Row e) : Table e :=
  ⟨insertRow row t.rows, pairwise_insertRow row t.ascending⟩

/-- The table without the row of an identifier. -/
def erase (t : Table e) (id : Int64) : Table e :=
  ⟨t.rows.filter fun r => r.id != id, t.ascending.filter _⟩

/-- The table of a list of rows; of two rows with one identifier the later is kept. -/
def ofRows (rs : List (Row e)) : Table e := rs.foldl insert empty

/-- The greatest identifier, if there is a row. -/
def lastId? (t : Table e) : Option Int64 := t.rows.getLast?.map Row.id

end Table

end ExchangeCatalog
