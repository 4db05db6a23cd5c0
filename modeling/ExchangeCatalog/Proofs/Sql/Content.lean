import ExchangeCatalog.Proofs.Page.Window
import ExchangeCatalog.Proofs.Repository.Table
import ExchangeCatalog.Proofs.Sql.Row

/-!
# Statements to a database that holds a table

A database holds the rows of an entity's table in no order of its own, and its columns in any order.
What each statement ends with is then known from the table, and so is the table that the database
holds afterwards.

## Main definitions

* `Sql.Database.Holds` — a database holds the rows of a table
* `TypedFilter.Fits` — a filter on a field of an entity, by a value of the field's kind

## Main results

* `Sql.Database.Holds.execute_find`, `Sql.Database.Holds.execute_count`,
  `Sql.Database.Holds.execute_page`, `Sql.Database.Holds.execute_insert`,
  `Sql.Database.Holds.execute_update`, `Sql.Database.Holds.execute_delete` — each statement
-/

namespace ExchangeCatalog

variable {e : Entity}

/-! ### Filters -/

/-- The filter constrains a field of the entity by a value of the field's kind, which keeps all it
says when it is stored. -/
structure TypedFilter.Fits (e : Entity) (f : TypedFilter) : Prop where
  exists_field : ∃ c ∈ e.fields, c.name = f.column ∧ c.kind = f.value.kind
  precise : f.value.IsPrecise

/-- The filter on the identifier. -/
def TypedFilter.byId (id : Int64) : TypedFilter := ⟨Column.id.name, .equal, .integer id⟩

theorem TypedFilter.fits_byId (id : Int64) : (byId id).Fits e :=
  ⟨⟨Column.id, List.mem_cons_self, rfl, rfl⟩, trivial⟩

theorem TypedFilter.accepts_byId (id : Int64) (r : Row e) : (byId id).accepts r = (r.id == id) := by
  have hvalue : r.valueOf? (byId id).column = some (.integer r.id) := r.valueOf?_id
  rw [accepts, hvalue]
  change (Ord.compare r.id.toInt id.toInt == .eq) = _
  rw [Bool.eq_iff_iff, beq_iff_eq, beq_iff_eq, compare_eq_iff_eq, Int64.toInt_inj]

/-- What filters ask of a stored row. -/
def meets (filters : List TypedFilter) (row : Sql.StoredRow) : Bool :=
  filters.all fun f => f.test row

theorem meets_stored {filters : List TypedFilter} (hfilters : ∀ f ∈ filters, f.Fits e) {r : Row e}
    (hr : r.IsPrecise) : meets filters r.stored = passes filters r := by
  rw [meets, passes, Bool.eq_iff_iff, List.all_eq_true, List.all_eq_true]
  refine forall₂_congr ?_
  intro f hf
  rw [TypedFilter.test_stored (hfilters f hf).precise hr]

/-- The condition on the identifier holds of a stored row exactly when it is the row's. -/
theorem meets_byId_stored (id : Int64) {r : Row e} (hr : r.IsPrecise) :
    meets [.byId id] r.stored = (r.id == id) := by
  have hfits : ∀ f ∈ [TypedFilter.byId id], f.Fits e :=
    List.forall_mem_singleton.mpr (TypedFilter.fits_byId id)
  rw [meets_stored hfits hr, passes, List.all_cons, List.all_nil, Bool.and_true,
    TypedFilter.accepts_byId]

/-! ### The content of a table -/

namespace Sql.Database

/-- A database holds the rows of a table, in no order of its own, with the columns of the entity in
any order. -/
structure Holds (db : Database) (t : Table e) : Prop where
  table_eq : db.table = e.table
  columns_perm : db.columns.Perm (e.fields.map Column.result)
  rows_perm : db.rows.Perm (t.rows.map Row.stored)

/-- The database with a new row and one identifier used up. -/
def append (db : Database) (row : Row e) : Database :=
  { db with rows := db.rows ++ [row.stored], next := db.next + 1 }

/-- The database with a row in the place of one with its identifier. -/
def overwrite (db : Database) (row : Row e) : Database :=
  { db with rows := db.rows.map fun r =>
              if meets [.byId row.id] r then r.write (e.cells row.record) else r }

/-- The database without the row of an identifier. -/
def remove (db : Database) (id : Int64) : Database :=
  { db with rows := db.rows.filter fun r => !meets [.byId id] r }

namespace Holds

variable {db : Database} {t : Table e} {values : List Cell}

theorem typeOf?_eq (h : db.Holds t) {c : Column} (hc : c ∈ e.fields) :
    db.typeOf? c.name = some c.kind.resultType := by
  have hmem : c.result ∈ db.columns := h.columns_perm.mem_iff.mpr (List.mem_map_of_mem hc)
  have hfind := find?_of_nodup_map (Entity.names_nodup_of_perm h.columns_perm) hmem
  exact congrArg (Option.map ResultColumn.type) hfind

theorem valueFor?_eq (h : db.Holds t) {c : Column} (hc : c ∈ e.fields) {v : Value}
    (hkind : c.kind = v.kind) {place : Nat}
    (hvalue : valueAt? values place = some (Cell.ofValue v)) :
    db.valueFor? values c.name place = some (Cell.ofValue v) := by
  rw [valueFor?, h.typeOf?_eq hc, hvalue]
  exact if_pos ((Cell.type_ofValue v).trans (congrArg Kind.resultType hkind.symm))

theorem test?_eq (h : db.Holds t) {f : TypedFilter} (hf : f.Fits e) {place : Nat}
    (hvalue : valueAt? values place = some (Cell.ofValue f.value)) :
    db.test? values ⟨f.column, f.op.comparison, place⟩ = some f.test := by
  obtain ⟨c, hc, hname, hkind⟩ := hf.exists_field
  have hcell := h.valueFor?_eq hc hkind hvalue
  rw [hname] at hcell
  rw [test?, hcell]
  rfl

theorem valueAt?_append {α : Type} (f : α → Value) {xs : List α} {i : Nat} {x : α}
    (hx : xs[i]? = some x) (rest : List Value) :
    valueAt? ((xs.map f ++ rest).map Cell.ofValue) (i + 1) = some (Cell.ofValue (f x)) := by
  have hvalue : (xs.map f)[i]? = some (f x) := by
    rw [List.getElem?_map, hx]
    rfl
  have hlt := (List.getElem?_eq_some_iff.mp hvalue).1
  rw [valueAt?, List.getElem?_map, List.getElem?_append_left hlt, hvalue]
  rfl

theorem valueAt?_length (vs : List Value) (v : Value) (rest : List Value) :
    valueAt? ((vs ++ v :: rest).map Cell.ofValue) (vs.length + 1) = some (Cell.ofValue v) := by
  rw [valueAt?, List.getElem?_map, List.getElem?_append_right (Nat.le_refl _), Nat.sub_self]
  rfl

/-- The conditions of filters ask what the filters ask, when their values are in the places. -/
theorem tests?_eq (h : db.Holds t) {filters : List TypedFilter} (hfilters : ∀ f ∈ filters, f.Fits e)
    (rest : List Value) :
    db.tests? ((filters.map TypedFilter.value ++ rest).map Cell.ofValue)
      (filterConditions filters) = some (meets filters) := by
  have htests : (filterConditions filters).mapM
      (db.test? ((filters.map TypedFilter.value ++ rest).map Cell.ofValue)) =
        some (filters.map TypedFilter.test) := by
    refine mapM_map_zipIdx filters ?_
    intro f i hf
    exact h.test?_eq (hfilters f (List.mem_of_getElem? hf)) (valueAt?_append _ hf rest)
  rw [tests?, htests, Option.map_some]
  simp only [List.all_map, Function.comp_def]
  rfl

/-- A condition on the identifier. -/
theorem tests?_id (h : db.Holds t) {place : Nat} {id : Int64}
    (hvalue : valueAt? values place = some (.number id.toInt)) :
    db.tests? values [⟨"id", .eq, place⟩] = some (meets [.byId id]) := by
  have htest : db.test? values ⟨"id", .eq, place⟩ = some (TypedFilter.byId id).test :=
    h.test?_eq (TypedFilter.fits_byId id) hvalue
  rw [tests?, List.mapM_cons, htest]
  rfl

/-- The assignments of a record write its cells, when its values are in the places. -/
theorem cells?_eq (h : db.Holds t) (record : Record e.columns) (rest : List Value) :
    db.cells? (((e.assignments record).map Prod.snd ++ rest).map Cell.ofValue)
      (valueAssignments (e.assignments record)) = some (e.cells record) := by
  have hcells : (valueAssignments (e.assignments record)).mapM
      (db.cell? (((e.assignments record).map Prod.snd ++ rest).map Cell.ofValue)) =
        some (e.cells record) := by
    refine mapM_map_zipIdx (e.assignments record) ?_
    intro v i hv
    obtain ⟨c, hc, hname, hkind⟩ := Record.exists_column_of_mem_zip (List.mem_of_getElem? hv)
    have hvalue := h.valueFor?_eq (List.mem_cons_of_mem _ hc) hkind
      (valueAt?_append Prod.snd hv rest)
    rw [hname] at hvalue
    exact congrArg (Option.map fun value => (v.1, value)) hvalue
  rw [cells?, map_column_valueAssignments, e.map_fst_assignments]
  exact (if_pos e.names_nodup).trans hcells

/-- The stored rows that meet filters are the matching rows of the table. -/
theorem filter_perm (h : db.Holds t) (hprecise : ∀ r ∈ t.rows, r.IsPrecise)
    {filters : List TypedFilter} (hfilters : ∀ f ∈ filters, f.Fits e) :
    (db.rows.filter (meets filters)).Perm ((matchingRows t filters).map Row.stored) := by
  have hmatching : t.rows.filter (meets filters ∘ Row.stored) = matchingRows t filters :=
    List.filter_congr fun r hr => meets_stored hfilters (hprecise r hr)
  rw [← hmatching, ← List.filter_map]
  exact h.rows_perm.filter _

/-- The stored rows with an identifier. -/
theorem filter_id (h : db.Holds t) (hprecise : ∀ r ∈ t.rows, r.IsPrecise) (id : Int64) :
    db.rows.filter (meets [.byId id]) = (t.find? id).toList.map Row.stored := by
  have hmeets : t.rows.filter (meets [.byId id] ∘ Row.stored) =
      t.rows.filter fun r => r.id == id :=
    List.filter_congr fun r hr => meets_byId_stored id (hprecise r hr)
  have hperm := h.rows_perm.filter (meets [.byId id])
  rw [List.filter_map, hmeets] at hperm
  have hfound := hperm.trans ((t.perm_filter_id id).map Row.stored)
  -- A list of at most one row has no other order.
  cases hfind : t.find? id with
  | none =>
    rw [hfind] at hfound
    exact hfound.eq_nil
  | some row =>
    rw [hfind] at hfound
    exact hfound.eq_singleton

/-- What a text with its values is read as is what the statement ends with. -/
theorem execute_eq (h : db.Holds t) {s : Statement} {q : Query}
    (hquery : Query.ofText? s.text = some q) (htable : q.table = e.table)
    {answer : Outcome × Database}
    (hanswer : db.carryOut? (s.binds.map Cell.ofValue) q = some answer) :
    execute s db = answer := by
  have hrespond : db.respond? s.text s.binds = some answer := by
    rw [respond?, hquery]
    exact (if_pos (htable.trans h.table_eq.symm)).trans hanswer
  rw [execute, hrespond]

/-! ### Each statement -/

theorem execute_find (h : db.Holds t) (hprecise : ∀ r ∈ t.rows, r.IsPrecise) (id : Int64) :
    execute (.find e.table id) db = (db.result ((t.find? id).toList.map Row.stored), db) := by
  refine h.execute_eq (ofText?_find e.table id) rfl ?_
  rw [carryOut?, h.tests?_id rfl]
  change some (db.result (db.rows.filter (meets [.byId id])), db) = _
  rw [h.filter_id hprecise]

theorem execute_count (h : db.Holds t) (hprecise : ∀ r ∈ t.rows, r.IsPrecise)
    {filters : List TypedFilter} (hfilters : ∀ f ∈ filters, f.Fits e) :
    execute (e.countStatement filters) db =
      (.rows ⟨[⟨"count", .bigint⟩], [[some (.number (matchingRows t filters).length)]]⟩, db) := by
  have htests := h.tests?_eq hfilters []
  rw [List.append_nil] at htests
  refine h.execute_eq (ofText?_count e.table filters) rfl ?_
  rw [carryOut?]
  change (db.tests? ((filters.map TypedFilter.value).map Cell.ofValue)
    (filterConditions filters)).bind _ = _
  rw [htests, Option.bind_some, (h.filter_perm hprecise hfilters).length_eq, List.length_map]

theorem key?_stored (r : Row e) : r.stored.key? Column.id.name = some r.id.toInt := by
  rw [StoredRow.key?, Row.stored, r.valueOf?_id]
  rfl

theorem countAt?_append (vs : List Value) {n : Int64} (rest : List Value) (hn : 0 ≤ n.toInt) :
    countAt? ((vs ++ .integer n :: rest).map Cell.ofValue) (vs.length + 1) =
      some n.toInt.toNat := by
  rw [countAt?, valueAt?_length]
  exact if_pos hn

/-- The matching rows come in the order of their identifiers. -/
theorem sorted_eq (h : db.Holds t) (hprecise : ∀ r ∈ t.rows, r.IsPrecise)
    {filters : List TypedFilter} (hfilters : ∀ f ∈ filters, f.Fits e) :
    (db.rows.filter (meets filters)).mergeSort (StoredRow.precedes Column.id.name) =
      (matchingRows t filters).map Row.stored := by
  refine mergeSort_eq_of_perm (StoredRow.precedes_trans _) (StoredRow.precedes_total _)
    (h.filter_perm hprecise hfilters) ?_
  refine List.pairwise_map.mpr ((t.ascending.filter _).imp ?_)
  intro a b hlt
  have hids := Int64.lt_iff_toInt_lt.mp hlt
  rw [StoredRow.precedes, StoredRow.precedes, key?_stored, key?_stored]
  refine ⟨decide_eq_true (Int.le_of_lt hids), ?_⟩
  intro hba
  exact absurd (of_decide_eq_true hba) (Int.not_le.mpr hids)

theorem windowed?_eq (h : db.Holds t) (hprecise : ∀ r ∈ t.rows, r.IsPrecise)
    {filters : List TypedFilter} (hfilters : ∀ f ∈ filters, f.Fits e)
    {limitAt offsetAt limit offset : Nat} (hlimit : countAt? values limitAt = some limit)
    (hoffset : countAt? values offsetAt = some offset) :
    db.windowed? values ⟨"id", limitAt, offsetAt⟩ (db.rows.filter (meets filters)) =
      some ((((matchingRows t filters).drop offset).take limit).map Row.stored) := by
  have hid : db.typeOf? "id" = some .bigint := h.typeOf?_eq (c := Column.id) List.mem_cons_self
  have hsorted := h.sorted_eq hprecise hfilters
  rw [Column.id] at hsorted
  rw [windowed?]
  dsimp only
  rw [hlimit, hoffset, hid, hsorted, List.map_take, List.map_drop]
  rfl

theorem execute_page (h : db.Holds t) (hprecise : ∀ r ∈ t.rows, r.IsPrecise)
    {filters : List TypedFilter} (hfilters : ∀ f ∈ filters, f.Fits e) {limit offset : Int64}
    (hlimit : 0 ≤ limit.toInt) (hoffset : 0 ≤ offset.toInt) :
    execute (.page e.table filters limit offset) db =
      (db.result ((((matchingRows t filters).drop offset.toInt.toNat).take limit.toInt.toNat).map
        Row.stored), db) := by
  have hlimitAt := countAt?_append (filters.map TypedFilter.value) [.integer offset] hlimit
  have hoffsetAt := countAt?_append (filters.map TypedFilter.value ++ [.integer limit]) [] hoffset
  rw [List.length_map] at hlimitAt
  rw [List.append_assoc, List.length_append, List.length_map] at hoffsetAt
  have hwindowed := h.windowed?_eq hprecise hfilters hlimitAt hoffsetAt
  refine h.execute_eq (ofText?_page e.table filters limit offset) rfl ?_
  rw [carryOut?, Statement.binds, h.tests?_eq hfilters]
  exact congrArg (Option.bind · fun rows => some (db.result rows, db)) hwindowed

/-! ### Statements that write -/

/-- A new row gets the next identifier. -/
theorem execute_insert (h : db.Holds t) {id : Int64} (hnext : db.next = id.toInt)
    (hfresh : ∀ r ∈ t.rows, r.id ≠ id) (record : Record e.columns) :
    execute (e.insertStatement record) db =
      (db.result [Row.stored ⟨id, record⟩], db.append ⟨id, record⟩) := by
  have hcells := h.cells?_eq record []
  rw [List.append_nil] at hcells
  have hbound : ¬ 0x8000000000000000 ≤ db.next := by
    have := id.toInt_lt
    omega
  -- No stored row has the identifier, as none of the table has it.
  have hfree : ¬ (db.rows.any fun r => r Column.id.name == some (.number db.next)) = true := by
    rw [List.any_eq_true]
    rintro ⟨_, hmem, heq⟩
    obtain ⟨r, hr, rfl⟩ := List.mem_map.mp (h.rows_perm.mem_iff.mp hmem)
    rw [Row.stored, r.valueOf?_id, hnext, beq_iff_eq] at heq
    exact hfresh r hr (Int64.toInt_inj.mp (Cell.number.inj (Option.some.inj heq)))
  refine h.execute_eq (ofText?_insert e.table (e.assignments_ne_nil record)) rfl ?_
  rw [carryOut?]
  change (db.cells? (((e.assignments record).map Prod.snd).map Cell.ofValue) _).bind _ = _
  rw [hcells, Option.bind_some]
  dsimp only
  rw [if_neg hbound, if_neg hfree, hnext, e.write_cells_identified, append, hnext]

theorem append (h : db.Holds t) {row : Row e} (hfresh : ∀ r ∈ t.rows, r.id ≠ row.id) :
    (db.append row).Holds (t.insert row) where
  table_eq := h.table_eq
  columns_perm := h.columns_perm
  rows_perm := by
    have hothers : (t.rows.filter fun r => r.id != row.id) = t.rows :=
      List.filter_eq_self.mpr fun r hr => bne_iff_ne.mpr (hfresh r hr)
    have hinsert := (t.perm_insert row).map Row.stored
    rw [hothers, List.map_cons] at hinsert
    exact ((h.rows_perm.append_right _).trans (List.perm_append_singleton _ _)).trans hinsert.symm

/-- The row with an identifier is changed, if there is one. -/
theorem execute_update (h : db.Holds t) (hprecise : ∀ r ∈ t.rows, r.IsPrecise) (row : Row e) :
    execute (e.updateStatement row) db =
      (db.result ((t.find? row.id).toList.map fun _ => row.stored), db.overwrite row) := by
  -- The identifier has the place after those of the values.
  have hvalue : valueAt? (((e.assignments row.record).map Prod.snd ++ [Value.integer row.id]).map
      Cell.ofValue) ((e.assignments row.record).length + 1) = some (.number row.id.toInt) := by
    have hlast := valueAt?_length ((e.assignments row.record).map Prod.snd) (.integer row.id) []
    rw [List.length_map] at hlast
    exact hlast
  have hrows : (db.rows.filter (meets [.byId row.id])).map (StoredRow.write (e.cells row.record)) =
      (t.find? row.id).toList.map fun _ => row.stored := by
    rw [h.filter_id hprecise]
    cases hfind : t.find? row.id with
    | none => rfl
    | some old =>
      have hwrite := e.write_cells_stored old row.record
      rw [Table.id_of_find? hfind] at hwrite
      exact congrArg List.singleton hwrite
  refine h.execute_eq (ofText?_update e.table (e.assignments_ne_nil row.record) row.id) rfl ?_
  have hcells := h.cells?_eq row.record [.integer row.id]
  rw [carryOut?, Statement.binds, h.tests?_id hvalue, hcells, ← hrows]
  rfl

/-- A changed row takes the place of the one with its identifier. -/
theorem overwrite_perm (h : db.Holds t) (hprecise : ∀ r ∈ t.rows, r.IsPrecise) (row : Row e) :
    (db.overwrite row).rows.Perm
      ((t.rows.map fun r => if r.id == row.id then row else r).map Row.stored) := by
  refine (h.rows_perm.map _).trans (List.Perm.of_eq ?_)
  rw [List.map_map, List.map_map]
  refine List.map_congr_left ?_
  intro r hr
  rw [Function.comp_apply, Function.comp_apply, meets_byId_stored _ (hprecise r hr)]
  by_cases hid : r.id = row.id
  · rw [if_pos (beq_iff_eq.mpr hid), if_pos (beq_iff_eq.mpr hid), e.write_cells_stored, hid]
  · rw [if_neg (mt beq_iff_eq.mp hid), if_neg (mt beq_iff_eq.mp hid)]

theorem overwrite (h : db.Holds t) (hprecise : ∀ r ∈ t.rows, r.IsPrecise) {row : Row e}
    (hfound : t.find? row.id ≠ none) : (db.overwrite row).Holds (t.insert row) where
  table_eq := h.table_eq
  columns_perm := h.columns_perm
  rows_perm := (h.overwrite_perm hprecise row).trans ((t.map_perm_insert hfound).map Row.stored)

theorem overwrite_absent (h : db.Holds t) (hprecise : ∀ r ∈ t.rows, r.IsPrecise) {row : Row e}
    (habsent : t.find? row.id = none) : (db.overwrite row).Holds t where
  table_eq := h.table_eq
  columns_perm := h.columns_perm
  rows_perm := by
    -- No row is in the place of the changed one.
    have hrows : (t.rows.map fun r => if r.id == row.id then row else r) = t.rows := by
      refine (List.map_congr_left fun r hr => ?_).trans (List.map_id' _)
      exact if_neg (mt beq_iff_eq.mp (Table.find?_eq_none_iff.mp habsent r hr))
    have hperm := h.overwrite_perm hprecise row
    rwa [hrows] at hperm

/-- The row with an identifier is gone. -/
theorem execute_delete (h : db.Holds t) (hprecise : ∀ r ∈ t.rows, r.IsPrecise) (id : Int64) :
    execute (.delete e.table id) db = (.affected (t.find? id).toList.length, db.remove id) := by
  refine h.execute_eq (ofText?_delete e.table id) rfl ?_
  rw [carryOut?, h.tests?_id rfl]
  change some (Outcome.affected (db.rows.filter (meets [.byId id])).length, _) = _
  rw [h.filter_id hprecise, List.length_map]
  rfl

theorem remove (h : db.Holds t) (hprecise : ∀ r ∈ t.rows, r.IsPrecise) (id : Int64) :
    (db.remove id).Holds (t.erase id) where
  table_eq := h.table_eq
  columns_perm := h.columns_perm
  rows_perm := by
    have hrows : t.rows.filter ((fun r => !meets [.byId id] r) ∘ Row.stored) =
        (t.erase id).rows := by
      refine List.filter_congr ?_
      intro r hr
      rw [Function.comp_apply, meets_byId_stored id (hprecise r hr)]
      rfl
    rw [← hrows, ← List.filter_map]
    exact h.rows_perm.filter _

end Holds

end Sql.Database

end ExchangeCatalog
