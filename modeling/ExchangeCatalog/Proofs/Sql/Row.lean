import ExchangeCatalog.Proofs.Entity.Values
import ExchangeCatalog.Proofs.Lists
import ExchangeCatalog.Proofs.Sql.Database
import ExchangeCatalog.Proofs.Time.Micros

/-!
# Rows in the database

A row of an entity is stored with its values under the names of their columns. What is sent of it is
read back as the row, in whatever order the columns stand, and what the database asks of its cells
is what a filter asks of its values. Both hold as long as the values keep all they say when they are
stored, which fails for fine fractions of a second and for leap seconds only.

## Main definitions

* `Row.stored` — a row as it is stored
* `Value.IsPrecise`, `Row.IsPrecise` — nothing is lost in the database

## Main results

* `Entity.rowOf?_eq_some_iff` — when a row is read from cells
* `Entity.rowOf?_stored` — what is sent of a stored row is read back
* `TypedFilter.test_stored` — of a stored row it is asked what a filter asks of the row
* `Entity.write_cells` — writing the cells of a record makes a row of it
-/

namespace ExchangeCatalog

/-! ### Values -/

/-- The value keeps all it says when it is stored. -/
def Value.IsPrecise : Value → Prop
  | .timestamp t => t.IsPrecise
  | _ => True

instance : (v : Value) → Decidable v.IsPrecise
  | .integer _ | .text _ | .boolean _ => .isTrue trivial
  | .timestamp t => inferInstanceAs (Decidable t.IsPrecise)

theorem Cell.type_ofValue (v : Value) : (Cell.ofValue v).type = v.kind.resultType := by
  cases v <;> rfl

theorem Cell.compare?_ofValue {v w : Value} (hv : v.IsPrecise) (hw : w.IsPrecise) :
    (Cell.ofValue v).compare? (Cell.ofValue w) = v.compare? w := by
  cases v with
  | timestamp s =>
    cases w with
    | timestamp t => exact congrArg some (Instant.compare_micros hv hw)
    | _ => rfl
  | _ => cases w <;> rfl

/-- A cell is read as a value exactly when the value is stored in this cell, and keeps all it says
there. -/
theorem Kind.ofCell?_eq_some_iff {k : Kind} {cell : Cell} {x : k.Carrier} :
    k.ofCell? cell = some x ↔ (k.value x).IsPrecise ∧ cell = Cell.ofValue (k.value x) := by
  cases k with
  | integer =>
    cases cell with
    | number n =>
      refine Decimal.toInt64?_eq_some_iff.trans ⟨?_, fun h => Cell.number.inj h.2⟩
      rintro rfl
      exact ⟨trivial, rfl⟩
    | _ => exact iff_of_false nofun nofun
  | text =>
    cases cell with
    | text s =>
      refine ⟨?_, fun h => congrArg some (Cell.text.inj h.2)⟩
      rintro ⟨⟩
      exact ⟨trivial, rfl⟩
    | _ => exact iff_of_false nofun nofun
  | boolean =>
    cases cell with
    | boolean b =>
      refine ⟨?_, fun h => congrArg some (Cell.boolean.inj h.2)⟩
      rintro ⟨⟩
      exact ⟨trivial, rfl⟩
    | _ => exact iff_of_false nofun nofun
  | timestamp =>
    cases cell with
    | micros n =>
      refine Instant.ofMicros?_eq_some_iff.trans ⟨?_, fun h => ⟨h.1, (Cell.micros.inj h.2).symm⟩⟩
      rintro ⟨hprecise, rfl⟩
      exact ⟨hprecise, rfl⟩
    | _ => exact iff_of_false nofun nofun

theorem Sql.holds_comparison (op : Operator) (o : Ordering) :
    op.comparison.holds o = op.accepts o := by
  cases op <;> cases o <;> rfl

/-! ### Records -/

namespace Record

variable {cs : List Column}

/-- Every timestamp of a record keeps all it says when it is stored. -/
def IsPrecise (r : Record cs) : Prop := ∀ v ∈ r.values, v.IsPrecise

instance (r : Record cs) : Decidable r.IsPrecise := by unfold IsPrecise; infer_instance

theorem isPrecise_cons {c : Column} {x : c.kind.Carrier} {r : Record cs} :
    IsPrecise (.cons x r : Record (c :: cs)) ↔ (c.kind.value x).IsPrecise ∧ r.IsPrecise :=
  List.forall_mem_cons

end Record

/-! ### Rows -/

namespace Row

variable {e : Entity} {name : String} {v : Value}

/-- Every timestamp of a row keeps all it says when it is stored. -/
def IsPrecise (r : Row e) : Prop := r.record.IsPrecise

instance (r : Row e) : Decidable r.IsPrecise := inferInstanceAs (Decidable r.record.IsPrecise)

/-- The row as it is stored. -/
def stored (r : Row e) : Sql.StoredRow := fun name => (r.valueOf? name).map Cell.ofValue

theorem isPrecise_of_valueOf? {r : Row e} (h : r.IsPrecise) (hv : r.valueOf? name = some v) :
    v.IsPrecise := by
  rw [valueOf?] at hv
  split at hv
  · obtain rfl := Option.some.inj hv
    exact trivial
  · exact h v (List.of_mem_zip (Record.mem_zip_of_valueOf? hv)).2

end Row

/-! ### Columns -/

/-- The column of results that holds a column's values. -/
def Column.result (c : Column) : ResultColumn := ⟨c.name, c.kind.resultType⟩

section Columns

variable {columns : List ResultColumn} {e : Entity}

theorem Entity.names_nodup_of_perm (h : columns.Perm (e.fields.map Column.result)) :
    (columns.map ResultColumn.name).Nodup := by
  have hnames := (h.map ResultColumn.name).nodup_iff
  rw [List.map_map] at hnames
  exact hnames.mpr e.names_nodup

variable {cells : List (Option Cell)}

/-- Among columns of different names a cell is found by the name of its own. -/
theorem cellOf?_eq_some_iff (hnodup : (columns.map ResultColumn.name).Nodup) {name : String}
    {type : ResultType} {cell : Option Cell} :
    cellOf? columns cells name = some (type, cell) ↔ (⟨name, type⟩, cell) ∈ columns.zip cells := by
  -- Cells are looked up from the last column on.
  have hnames : ((columns.zip cells).reverse.map fun p => p.1.name).Nodup := by
    rw [List.map_reverse, List.nodup_reverse]
    have hzip := (map_fst_zip_sublist columns cells).map ResultColumn.name
    rw [List.map_map] at hzip
    exact hnodup.sublist hzip
  rw [cellOf?, Option.map_eq_some_iff]
  constructor
  · rintro ⟨⟨c, _⟩, hfind, heq⟩
    obtain ⟨rfl, rfl⟩ := Prod.mk.inj heq
    have hname := List.find?_some hfind
    obtain rfl : c.name = name := beq_iff_eq.mp hname
    exact List.mem_reverse.mp (List.mem_of_find?_eq_some hfind)
  · intro hmem
    exact ⟨_, find?_of_nodup_map hnames (List.mem_reverse.mpr hmem), rfl⟩

/-- A value is read under a name exactly when the cell that it is stored in stands there, in a
column of the type of its kind. -/
theorem valueUnder?_eq_some_iff (hnodup : (columns.map ResultColumn.name).Nodup) {name : String}
    {k : Kind} {x : k.Carrier} :
    valueUnder? columns cells name k = some x ↔ (k.value x).IsPrecise ∧
      (⟨name, k.resultType⟩, some (Cell.ofValue (k.value x))) ∈ columns.zip cells := by
  rw [← cellOf?_eq_some_iff hnodup, valueUnder?]
  split
  · rename_i type cell hcell
    rw [hcell, Option.ite_none_right_eq_some, Kind.ofCell?_eq_some_iff, Option.some_inj,
      Prod.mk_inj, Option.some_inj]
    exact and_left_comm
  · rename_i hnone
    exact iff_of_false nofun fun h => hnone _ _ h.2

/-- A record is read exactly when the cells that its values are stored in stand under their
names. -/
theorem recordUnder?_eq_some_iff (hnodup : (columns.map ResultColumn.name).Nodup)
    {cs : List Column} (hnames : (cs.map Column.name).Nodup) {r : Record cs} :
    recordUnder? columns cells cs = some r ↔ r.IsPrecise ∧
      ∀ c ∈ cs, (c.result, (r.valueOf? c.name).map Cell.ofValue) ∈ columns.zip cells := by
  induction r with
  | nil => exact iff_of_true rfl ⟨List.forall_mem_nil _, List.forall_mem_nil _⟩
  | @cons c cs x xs ih =>
    rw [List.map_cons, List.nodup_cons] at hnames
    have hread : recordUnder? columns cells (c :: cs) = some (.cons x xs) ↔
        valueUnder? columns cells c.name c.kind = some x ∧
          recordUnder? columns cells cs = some xs := by
      rw [recordUnder?]
      cases valueUnder? columns cells c.name c.kind <;> cases recordUnder? columns cells cs <;> simp
    -- The values of the rest stand under other names than the first one.
    have hrest : ∀ d ∈ cs,
        Record.valueOf? d.name (.cons x xs : Record (c :: cs)) = Record.valueOf? d.name xs :=
      fun d hd => if_neg fun heq => hnames.1 (List.mem_map.mpr ⟨d, hd, heq.symm⟩)
    have hfirst : Record.valueOf? c.name (.cons x xs : Record (c :: cs)) =
        some (c.kind.value x) := if_pos rfl
    rw [hread, ih hnames.2, valueUnder?_eq_some_iff hnodup, List.forall_mem_cons, hfirst,
      Record.isPrecise_cons]
    constructor
    · rintro ⟨⟨hx, hcell⟩, hxs, hcells⟩
      exact ⟨⟨hx, hxs⟩, hcell, fun d hd => hrest d hd ▸ hcells d hd⟩
    · rintro ⟨⟨hx, hxs⟩, hcell, hcells⟩
      exact ⟨⟨hx, hcell⟩, hxs, fun d hd => hrest d hd ▸ hcells d hd⟩

/-- A row is read exactly when the cells that it is stored in stand under their names. -/
theorem Entity.rowOf?_eq_some_iff (hnodup : (columns.map ResultColumn.name).Nodup) {row : Row e} :
    e.rowOf? columns cells = some row ↔ row.IsPrecise ∧
      ∀ c ∈ e.fields, (c.result, row.stored c.name) ∈ columns.zip cells := by
  obtain ⟨id, record⟩ := row
  have hnames := List.nodup_cons.mp e.names_nodup
  have hread : e.rowOf? columns cells = some ⟨id, record⟩ ↔
      valueUnder? columns cells Column.id.name .integer = some id ∧
        recordUnder? columns cells e.columns = some record := by
    rw [rowOf?]
    change ((valueUnder? columns cells Column.id.name .integer).bind fun id =>
      (recordUnder? columns cells e.columns).bind fun record => some (⟨id, record⟩ : Row e)) = _ ↔ _
    cases valueUnder? columns cells Column.id.name .integer <;>
      cases recordUnder? columns cells e.columns <;> simp
  -- No column is called like the identifier.
  have hrest : ∀ c ∈ e.columns, Row.stored ⟨id, record⟩ c.name =
      (record.valueOf? c.name).map Cell.ofValue :=
    fun c hc => congrArg _ (if_neg fun heq => hnames.1 (List.mem_map.mpr ⟨c, hc, heq⟩))
  rw [hread, valueUnder?_eq_some_iff hnodup, recordUnder?_eq_some_iff hnodup hnames.2, fields,
    List.forall_mem_cons]
  constructor
  · rintro ⟨⟨-, hid⟩, hrecord, hcells⟩
    exact ⟨hrecord, hid, fun c hc => (hrest c hc).symm ▸ hcells c hc⟩
  · rintro ⟨hrecord, hid, hcells⟩
    exact ⟨⟨trivial, hid⟩, hrecord, fun c hc => hrest c hc ▸ hcells c hc⟩

/-- What is sent of a stored row is read back as the row. -/
theorem Entity.rowOf?_stored (hcolumns : columns.Perm (e.fields.map Column.result)) {r : Row e}
    (h : r.IsPrecise) : e.rowOf? columns (columns.map fun c => r.stored c.name) = some r := by
  refine (e.rowOf?_eq_some_iff (Entity.names_nodup_of_perm hcolumns)).mpr ⟨h, fun c hc => ?_⟩
  rw [← List.map_prod_left_eq_zip]
  exact List.mem_map_of_mem (hcolumns.mem_iff.mpr (List.mem_map_of_mem hc))

end Columns

/-! ### Conditions and assignments -/

section Content

variable {e : Entity}

/-- What a filter asks of a stored row. -/
def TypedFilter.test (f : TypedFilter) (row : Sql.StoredRow) : Bool :=
  ((row f.column).bind fun cell => cell.compare? (Cell.ofValue f.value)).any f.op.comparison.holds

/-- Of a stored row it is asked what the filter asks of the row. -/
theorem TypedFilter.test_stored {f : TypedFilter} (hf : f.value.IsPrecise) {r : Row e}
    (hr : r.IsPrecise) :
    f.test r.stored = f.accepts r := by
  rw [test, accepts, Row.stored]
  cases hv : r.valueOf? f.column with
  | none => rfl
  | some v =>
    rw [Option.map_some, Option.bind_some, Option.bind_some,
      Cell.compare?_ofValue (Row.isPrecise_of_valueOf? hr hv) hf]
    cases v.compare? f.value with
    | none => rfl
    | some o => exact Sql.holds_comparison f.op o

theorem Entity.map_fst_assignments (record : Record e.columns) :
    (e.assignments record).map Prod.fst = e.columns.map Column.name := by
  refine List.map_fst_zip (Nat.le_of_eq ?_)
  rw [List.length_map, record.length_values]

theorem Entity.map_snd_assignments (record : Record e.columns) :
    (e.assignments record).map Prod.snd = record.values := by
  refine List.map_snd_zip (Nat.le_of_eq ?_)
  rw [List.length_map, record.length_values]

theorem Entity.assignments_ne_nil (record : Record e.columns) : e.assignments record ≠ [] := by
  intro hnil
  have hnames := e.map_fst_assignments record
  rw [hnil] at hnames
  exact e.columns_ne_nil (List.map_eq_nil_iff.mp hnames.symm)

/-- The cells of a record beside the names of their columns. -/
def Entity.cells (e : Entity) (record : Record e.columns) : List (String × Cell) :=
  (e.assignments record).map fun p => (p.1, Cell.ofValue p.2)

/-- The cells of a record make a row of it that has no more than its identifier besides. -/
theorem Entity.write_cells {row : Sql.StoredRow} {id : Int64} (record : Record e.columns)
    (hid : row Column.id.name = some (.number id.toInt))
    (hrow : ∀ name ∉ e.fields.map Column.name, row name = none) :
    row.write (e.cells record) = Row.stored ⟨id, record⟩ := by
  funext name
  rw [Sql.StoredRow.write, cells, lookup_map_snd, assignments, Record.lookup_zip_values, Row.stored,
    Row.valueOf?]
  dsimp only
  split
  · -- the identifier, which is no part of the record
    rename_i hname
    have hnone : record.valueOf? name = none :=
      Record.valueOf?_eq_none_iff.mpr (hname ▸ (List.nodup_cons.mp e.names_nodup).1)
    rw [hnone, hname]
    exact hid
  · rename_i hname
    cases hv : record.valueOf? name with
    | some v => rfl
    | none =>
      refine hrow name ?_
      rw [fields, List.map_cons, List.mem_cons, not_or]
      exact ⟨hname, Record.valueOf?_eq_none_iff.mp hv⟩

theorem Entity.write_cells_stored (r : Row e) (record : Record e.columns) :
    r.stored.write (e.cells record) = Row.stored ⟨r.id, record⟩ := by
  refine e.write_cells record (congrArg (Option.map Cell.ofValue) r.valueOf?_id) ?_
  intro name hname
  rw [fields, List.map_cons, List.mem_cons, not_or] at hname
  have hnone : r.valueOf? name = none :=
    (if_neg hname.1).trans (Record.valueOf?_eq_none_iff.mpr hname.2)
  rw [Row.stored, hnone]
  rfl

theorem Entity.write_cells_identified (id : Int64) (record : Record e.columns) :
    (Sql.StoredRow.identified id.toInt).write (e.cells record) = Row.stored ⟨id, record⟩ := by
  refine e.write_cells record (if_pos rfl) ?_
  intro name hname
  rw [fields, List.map_cons, List.mem_cons, not_or] at hname
  exact if_neg hname.1

end Content

end ExchangeCatalog
