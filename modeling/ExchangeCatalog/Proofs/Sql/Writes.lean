import ExchangeCatalog.Proofs.Sql.Listing
import ExchangeCatalog.Proofs.Sql.Row
import ExchangeCatalog.Repository.Sql

/-!
# The statements of a write

A write names the columns of an entity in one list and binds the values of a row in another. The two
lists meet by position alone: the place of a column is its number among the columns, and the value
bound there is the one that the row has under the column's name. Neither list is longer than the
other, so pairing them leaves nothing out, and the identifier is in neither; a change binds it
behind all values, for the condition.

## Main definitions

* `Entity.placed` — the columns of an entity beside their places in a write
* `WritesAligned` — the two statements that write a row

## Main results

* `text_insertStatement`, `text_updateStatement` — the texts of both statements
* `valueAssignments_assignments` — the columns and the places that a database reads in them
* `writes_aligned` — the statements for any row of any entity
-/

namespace ExchangeCatalog

open Statement (condition placeText)

/-! ### Columns and their places -/

namespace Entity

variable (e : Entity)

theorem length_assignments (record : Record e.columns) :
    (e.assignments record).length = e.columns.length := by
  rw [← List.length_map Prod.fst, e.map_fst_assignments, List.length_map]

/-- What is made of the names and the positions of assignments is made of the columns and theirs. -/
theorem map_zipIdx_assignments {α : Type} (f : String → Nat → α) (record : Record e.columns) :
    ((e.assignments record).zipIdx.map fun v => f v.1.1 v.2) =
      e.columns.zipIdx.map fun c => f c.1.name c.2 := by
  have hnames := congrArg (fun names => names.zipIdx.map fun name => f name.1 name.2)
    (e.map_fst_assignments record)
  rwa [List.zipIdx_map, List.zipIdx_map, List.map_map, List.map_map] at hnames

/-- The columns beside their places in a write, which are numbered from one. -/
def placed : List Sql.Assignment := e.columns.zipIdx.map fun c => ⟨c.1.name, c.2 + 1⟩

end Entity

/-! ### Both statements -/

section Statements

variable {e : Entity}

theorem text_insertStatement (record : Record e.columns) :
    (e.insertStatement record).text =
      "INSERT INTO " ++ quoteName e.table ++ " (" ++
        ", ".intercalate (e.columns.map fun c => quoteName c.name) ++ ") VALUES (" ++
        ", ".intercalate ((List.range' 1 e.columns.length).map placeText) ++ ") RETURNING *" := by
  have hnames := congrArg (List.map quoteName) (e.map_fst_assignments record)
  have hplaces := congrArg (List.map placeText) (map_zipIdx_add_one (e.assignments record))
  rw [List.map_map, List.map_map] at hnames
  rw [List.map_map, e.length_assignments] at hplaces
  simp only [Function.comp_def] at hnames hplaces
  dsimp only [Entity.insertStatement, Statement.text]
  rw [hnames, hplaces]

theorem text_updateStatement (row : Row e) :
    (e.updateStatement row).text =
      "UPDATE " ++ quoteName e.table ++ " SET " ++
        ", ".intercalate (e.columns.zipIdx.map fun c =>
          quoteName c.1.name ++ " = " ++ placeText (c.2 + 1)) ++
        " WHERE \"id\" = " ++ placeText (e.columns.length + 1) ++ " RETURNING *" := by
  have hequals : " " ++ ("=" ++ " ") = " = " := by decide
  have hwhere : " WHERE " ++ (quoteName "id" ++ " = ") = " WHERE \"id\" = " := by decide
  have hcondition : ∀ name n, condition name "=" n = quoteName name ++ " = " ++ placeText n := by
    intro name n
    rw [condition, ← hequals]
    simp only [String.append_assoc]
  have hset := e.map_zipIdx_assignments (fun name i => condition name "=" (i + 1)) row.record
  simp only [hcondition] at hset
  dsimp only [Entity.updateStatement, Statement.text]
  simp only [hcondition]
  rw [hset, e.length_assignments, ← hwhere]
  simp only [String.append_assoc]

/-- A database reads the columns of an entity in either statement, each beside its own place. -/
theorem valueAssignments_assignments (record : Record e.columns) :
    Sql.valueAssignments (e.assignments record) = e.placed :=
  e.map_zipIdx_assignments (fun name i => Sql.Assignment.mk name (i + 1)) record

end Statements

/-- The two statements that write a row: the one that puts it in, and the one that changes it. -/
structure WritesAligned (e : Entity) (row : Row e) : Prop where
  /-- They are the statements that a repository sends. -/
  sent : (∃ next, SqlRepository.answer (.create row.record) =
      .ask (e.insertStatement row.record) next) ∧
    ∃ next, SqlRepository.answer (.update row) = .ask (e.updateStatement row) next
  /-- No column is named twice, and the identifier is none of them. -/
  once : (e.columns.map Column.name).Nodup ∧ "id" ∉ e.columns.map Column.name
  /-- The one lists the columns in order, and as many places, -/
  insert_text : (e.insertStatement row.record).text =
    "INSERT INTO " ++ quoteName e.table ++ " (" ++
      ", ".intercalate (e.columns.map fun c => quoteName c.name) ++ ") VALUES (" ++
      ", ".intercalate ((List.range' 1 e.columns.length).map placeText) ++ ") RETURNING *"
  /-- the other each column with its place, and the place behind them all for the identifier. -/
  update_text : (e.updateStatement row).text =
    "UPDATE " ++ quoteName e.table ++ " SET " ++
      ", ".intercalate (e.columns.zipIdx.map fun c =>
        quoteName c.1.name ++ " = " ++ placeText (c.2 + 1)) ++
      " WHERE \"id\" = " ++ placeText (e.columns.length + 1) ++ " RETURNING *"
  /-- So a database reads them, whatever characters the names hold. -/
  read : Sql.Query.ofText? (e.insertStatement row.record).text = some (.insert e.table e.placed) ∧
    Sql.Query.ofText? (e.updateStatement row).text =
      some (.update e.table e.placed [⟨"id", .eq, e.columns.length + 1⟩])
  /-- What is bound in the place of a column is the value that the row has under its name, and is
  of the column's kind. -/
  aligned : ∀ (i : Nat) (c : Column), e.columns[i]? = some c →
    ∃ v, row.valueOf? c.name = some v ∧ v.kind = c.kind ∧
      (e.insertStatement row.record).binds[i]? = some v ∧
      (e.updateStatement row).binds[i]? = some v
  /-- Nothing else is bound but, at the end of the other, the identifier. -/
  bound : (e.insertStatement row.record).binds.length = e.columns.length ∧
    (e.updateStatement row).binds = (e.insertStatement row.record).binds ++ [.integer row.id]
  /-- Pairing the columns with the values leaves out neither. -/
  paired : (e.assignments row.record).map Prod.fst = e.columns.map Column.name ∧
    (e.assignments row.record).map Prod.snd = row.record.values

/-- A write puts every value of a row in its own column, whatever the entity and the row. -/
theorem writes_aligned (e : Entity) (row : Row e) : WritesAligned e row where
  sent := ⟨⟨_, rfl⟩, _, rfl⟩
  once := (List.nodup_cons.mp e.names_nodup).symm
  insert_text := text_insertStatement row.record
  update_text := text_updateStatement row
  read := by
    have hne := e.assignments_ne_nil row.record
    have hinsert := Sql.ofText?_insert e.table hne
    have hupdate := Sql.ofText?_update e.table hne row.id
    rw [valueAssignments_assignments] at hinsert hupdate
    rw [e.length_assignments] at hupdate
    exact ⟨hinsert, hupdate⟩
  aligned := by
    intro i c hc
    have hnames := (List.nodup_cons.mp e.names_nodup).2
    obtain ⟨v, hv, hvalue, hkind⟩ := row.record.getElem?_values hnames hc
    rw [← e.map_snd_assignments] at hv
    obtain ⟨hlt, -⟩ := List.getElem?_eq_some_iff.mp hv
    exact ⟨v, Row.valueOf?_of_record hvalue, hkind, hv, (List.getElem?_append_left hlt).trans hv⟩
  bound := by
    refine ⟨?_, rfl⟩
    exact (List.length_map _).trans (e.length_assignments row.record)
  paired := ⟨e.map_fst_assignments row.record, e.map_snd_assignments row.record⟩

end ExchangeCatalog
