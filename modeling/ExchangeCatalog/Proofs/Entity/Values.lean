import ExchangeCatalog.Proofs.Filter.Registry

/-!
# Columns and values

The columns of an entity stand in one list and the values of a row in another, and nothing but
position says which value belongs to which column. The two lists are equally long, and at each
position there is a value of the column's kind. Since the columns have names of their own, and none
is called like the identifier, a value is found by the name of its column wherever the column
stands; under any other name nothing is found.

## Main definitions

* `ValuesAligned` — what the columns of an entity and the values of its rows have to do with one
  another

## Main results

* `Record.valueOf?_eq_getElem?` — looking up a name is looking for its position
* `Record.getElem?_values` — the value at the position of a column
* `Row.valueOf?_eq_none_iff` — the names that no row has a value under
* `values_aligned` — columns and values are aligned, for every entity
-/

namespace ExchangeCatalog

/-! ### Records -/

namespace Record

variable {cs : List Column} {name : String} {v : Value}

/-- The value under a name, among the names beside the values. -/
theorem lookup_zip_values (r : Record cs) (name : String) :
    ((cs.map Column.name).zip r.values).lookup name = r.valueOf? name := by
  induction r with
  | nil => rfl
  | @cons c cs x xs ih =>
    rw [values_cons, List.map_cons, List.zip_cons_cons, List.lookup_cons, valueOf?]
    by_cases hname : c.name = name
    · rw [if_pos hname, beq_iff_eq.mpr hname.symm]
    · rw [if_neg hname, beq_eq_false_iff_ne.mpr fun h => hname h.symm]
      exact ih

theorem length_values (r : Record cs) : r.values.length = cs.length := by
  induction r with
  | nil => rfl
  | cons x xs ih => rw [values_cons, List.length_cons, List.length_cons, ih]

/-- The value under a name is the one at the position of the first column with this name. -/
theorem valueOf?_eq_getElem? (r : Record cs) (name : String) :
    r.valueOf? name = (cs.findIdx? fun c => c.name == name).bind fun i => r.values[i]? := by
  induction r with
  | nil => rfl
  | @cons c cs x xs ih =>
    rw [valueOf?, values_cons, List.findIdx?_cons]
    by_cases hname : c.name = name
    · simp [hname]
    · -- The positions of the later columns are counted from the one behind this.
      rw [if_neg hname, ih, beq_eq_false_iff_ne.mpr hname, if_neg Bool.false_ne_true,
        Option.bind_map]
      rfl

theorem mem_zip_of_valueOf? {r : Record cs} (h : r.valueOf? name = some v) :
    (name, v) ∈ (cs.map Column.name).zip r.values := by
  rw [← lookup_zip_values, List.lookup_eq_some_iff] at h
  obtain ⟨before, after, hzip, -⟩ := h
  rw [hzip]
  exact List.mem_append_right _ List.mem_cons_self

/-- A value beside a name is of the kind of a column with this name. -/
theorem exists_column_of_mem_zip {r : Record cs}
    (h : (name, v) ∈ (cs.map Column.name).zip r.values) :
    ∃ c ∈ cs, c.name = name ∧ c.kind = v.kind := by
  induction r with
  | nil => cases h
  | @cons c cs x xs ih =>
    rw [values_cons, List.map_cons, List.zip_cons_cons, List.mem_cons] at h
    rcases h with heq | h
    · obtain ⟨rfl, rfl⟩ := Prod.mk.inj heq
      exact ⟨c, List.mem_cons_self, rfl, (Kind.kind_value c.kind x).symm⟩
    · obtain ⟨d, hd, hdc⟩ := ih h
      exact ⟨d, List.mem_cons_of_mem _ hd, hdc⟩

/-- There is no value exactly under names that no column has. -/
theorem valueOf?_eq_none_iff {r : Record cs} :
    r.valueOf? name = none ↔ name ∉ cs.map Column.name := by
  induction r with
  | nil => exact iff_of_true rfl List.not_mem_nil
  | cons x xs ih =>
    rw [valueOf?, List.map_cons, List.mem_cons, not_or]
    split
    · rename_i hname
      exact iff_of_false nofun fun h => h.1 hname.symm
    · rename_i hname
      rw [ih]
      exact (and_iff_right fun h => hname h.symm).symm

/-- Every value of a record stands where its column does, and is the value under the name of this
column. -/
theorem getElem?_values (hnodup : (cs.map Column.name).Nodup)
    (r : Record cs) {i : Nat} {c : Column} (hc : cs[i]? = some c) :
    ∃ v, r.values[i]? = some v ∧ r.valueOf? c.name = some v ∧ v.kind = c.kind := by
  induction r generalizing i with
  | nil => cases hc
  | @cons d cs x xs ih =>
    rw [List.map_cons, List.nodup_cons] at hnodup
    cases i with
    | zero =>
      obtain rfl := Option.some.inj hc
      exact ⟨d.kind.value x, rfl, if_pos rfl, d.kind.kind_value x⟩
    | succ i =>
      obtain ⟨v, hv, hvalue, hkind⟩ := ih hnodup.2 hc
      -- A later column has another name than the first.
      have hname : d.name ≠ c.name := fun heq =>
        hnodup.1 (heq ▸ List.mem_map_of_mem (List.mem_of_getElem? hc))
      exact ⟨v, hv, (if_neg hname).trans hvalue, hkind⟩

end Record

/-! ### Rows -/

namespace Row

variable {e : Entity} {name : String} {v : Value}

theorem valueOf?_id (r : Row e) : r.valueOf? Column.id.name = some (.integer r.id) := if_pos rfl

/-- A record's value under a name is the row's, since no column is called like the identifier. -/
theorem valueOf?_of_record {r : Row e} (h : r.record.valueOf? name = some v) :
    r.valueOf? name = some v := by
  have hid := (List.nodup_cons.mp e.names_nodup).1
  obtain ⟨c, hc, rfl, -⟩ := Record.exists_column_of_mem_zip (Record.mem_zip_of_valueOf? h)
  have hname : c.name ≠ Column.id.name := fun heq => hid (heq ▸ List.mem_map_of_mem hc)
  exact (if_neg hname).trans h

/-- A row has a value of its kind for every field. -/
theorem exists_valueOf?_of_mem (r : Row e) {c : Column} (hc : c ∈ e.fields) :
    ∃ v, r.valueOf? c.name = some v ∧ v.kind = c.kind := by
  rcases List.mem_cons.mp hc with rfl | hc
  · exact ⟨_, r.valueOf?_id, rfl⟩
  · obtain ⟨i, hi⟩ := List.mem_iff_getElem?.mp hc
    obtain ⟨v, -, hv, hkind⟩ := r.record.getElem?_values (List.nodup_cons.mp e.names_nodup).2 hi
    exact ⟨v, valueOf?_of_record hv, hkind⟩

/-- A row has no value exactly under names that no field has. -/
theorem valueOf?_eq_none_iff {r : Row e} :
    r.valueOf? name = none ↔ name ∉ e.fields.map Column.name := by
  rw [valueOf?, Entity.fields, List.map_cons, List.mem_cons, not_or]
  split
  · rename_i hname
    exact iff_of_false nofun fun h => h.1 hname
  · rename_i hname
    rw [Record.valueOf?_eq_none_iff]
    exact (and_iff_right hname).symm

end Row

/-- The columns of an entity and the values of its rows belong together by position. -/
structure ValuesAligned (e : Entity) : Prop where
  /-- The identifier is the first of the fields, and an integer; the columns are all others. -/
  fields : e.fields.head? = some ⟨"id", .integer⟩ ∧ e.columns = e.fields.tail
  /-- A row has as many values as the entity has columns. -/
  length : ∀ row : Row e, row.record.values.length = e.columns.length
  /-- At the position of a column stands a value of its kind, the one that the row has under the
  column's name. -/
  aligned : ∀ (row : Row e) (i : Nat) (c : Column), e.columns[i]? = some c →
    ∃ v, row.record.values[i]? = some v ∧ v.kind = c.kind ∧ row.valueOf? c.name = some v
  /-- Under the name of the identifier a row has its identifier, -/
  id : ∀ row : Row e, row.valueOf? "id" = some (.integer row.id)
  /-- and under a name that is neither this nor a column's it has nothing. -/
  other : ∀ (row : Row e) (name : String), name ≠ "id" → name ∉ e.columns.map Column.name →
    row.valueOf? name = none
  /-- So a value is looked up by looking for the position of its column. -/
  searched : ∀ (row : Row e) (name : String), name ≠ "id" → row.valueOf? name =
    (e.columns.findIdx? fun c => c.name == name).bind fun i => row.record.values[i]?
  /-- Another identifier is seen under its own name only. -/
  identified : ∀ (row : Row e) (id : Int64) (name : String),
    { row with id := id }.valueOf? name =
      if name = "id" then some (.integer id) else row.valueOf? name
  /-- What a filter names is the field of this name, and every row has a value of its kind there; -/
  resolved : ∀ (name : String) (c : Column), e.resolve? name = some c →
    c.name = name ∧ c ∈ e.fields ∧ ∀ row : Row e, ∃ v, row.valueOf? name = some v ∧ v.kind = c.kind
  /-- so it has for every filter that is kept. -/
  retained : ∀ (ps : List Predicate), ∀ f ∈ e.retain ps, ∀ row : Row e,
    ∃ v, row.valueOf? f.column.name = some v ∧ v.kind = f.column.kind

/-- Columns and values are aligned, whatever the columns of the entity are. -/
theorem values_aligned (e : Entity) : ValuesAligned e where
  fields := ⟨rfl, rfl⟩
  length row := row.record.length_values
  aligned := by
    intro row i c hc
    have hnames := (List.nodup_cons.mp e.names_nodup).2
    obtain ⟨v, hv, hvalue, hkind⟩ := row.record.getElem?_values hnames hc
    exact ⟨v, hv, hkind, Row.valueOf?_of_record hvalue⟩
  id row := row.valueOf?_id
  other := by
    intro row name hid hcolumn
    rw [Row.valueOf?_eq_none_iff, Entity.fields, List.map_cons, List.mem_cons, not_or]
    exact ⟨hid, hcolumn⟩
  searched := by
    intro row name hid
    rw [Row.valueOf?, if_neg hid]
    exact row.record.valueOf?_eq_getElem? name
  identified := by
    intro row id name
    rw [Row.valueOf?, Row.valueOf?]
    split <;> rfl
  resolved := by
    intro name c hc
    have hname := Entity.name_of_resolve? hc
    have hmem := Entity.mem_fields_of_resolve? hc
    exact ⟨hname, hmem, fun row => hname ▸ row.exists_valueOf?_of_mem hmem⟩
  retained := by
    intro ps f hf row
    exact row.exists_valueOf?_of_mem (Entity.column_mem_of_mem_retain hf)

end ExchangeCatalog
