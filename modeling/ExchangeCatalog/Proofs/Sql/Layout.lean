import ExchangeCatalog.Proofs.Sql.Row
import ExchangeCatalog.Repository.Sql

/-!
# Results in any layout

The statements ask for all columns of a table, so the database decides in what order they stand and
what other columns stand beside them. No answer depends on this: a value is looked up under the name
of its column, and a row is read exactly when the cells that it is stored in stand under the names
of its fields. Only the count of a list is taken from the first column, whatever its name is.

Cells hold counts of microseconds, so what is read back of a row is the row itself exactly when its
instants are whole microseconds outside leap seconds.

## Main definitions

* `ResultType.Holds` — the cells that a column of a type may have
* `ResultSet.Relaid` — a result with the columns of another in any order and among others
* `Outcome.Relaid` — the endings of a statement up to the layout of its result
* `LayoutFree` — all that is read of results

## Main results

* `Entity.isSome_rowOf?_iff` — when a row can be read
* `ResultSet.Relaid.map_rowOf?` — the rows of a result in another layout
* `SqlRepository.answer_respects` — questions to the repository
* `layout_free` — any entity
-/

namespace ExchangeCatalog

section Reading

variable {columns : List ResultColumn} {cells : List (Option Cell)}

/-- The cells that a column of a type may have: words are bounded, and instants are
representable. -/
def ResultType.Holds : ResultType → Cell → Prop
  | .bigint, .number n => -0x8000000000000000 ≤ n ∧ n < 0x8000000000000000
  | .integer, .number n => -0x80000000 ≤ n ∧ n < 0x80000000
  | .text, .text _ => True
  | .boolean, .boolean _ => True
  | .timestamp, .micros n => (Instant.ofMicros? n).isSome
  | _, _ => False

/-- A cell of a column of its type holds a value of a kind. -/
theorem Kind.isSome_ofCell? {k : Kind} {cell : Cell} (h : k.resultType.Holds cell) :
    (k.ofCell? cell).isSome := by
  cases k with
  | integer =>
    cases cell with
    | number n => exact Option.isSome_iff_exists.mpr ⟨_, if_pos h⟩
    | _ => exact h.elim
  | text =>
    cases cell with
    | text s => rfl
    | _ => exact h.elim
  | boolean =>
    cases cell with
    | boolean b => rfl
    | _ => exact h.elim
  | timestamp =>
    cases cell with
    | micros n => exact h
    | _ => exact h.elim

/-- Every cell of a field that is not empty is one that the field's column may have. Nothing is
asked of the cells of other columns. -/
def WellTyped (fields : List Column) (columns : List ResultColumn) (cells : List (Option Cell)) :
    Prop :=
  ∀ c ∈ fields, ∀ cell, (c.result, some cell) ∈ columns.zip cells → c.result.type.Holds cell

/-- A value can be read under a name exactly when there is a column of its type with a cell that is
not empty. -/
theorem isSome_valueUnder?_iff (hnodup : (columns.map ResultColumn.name).Nodup) {c : Column}
    (htyped : ∀ cell, (c.result, some cell) ∈ columns.zip cells → c.result.type.Holds cell) :
    (valueUnder? columns cells c.name c.kind).isSome ↔
      ∃ cell, (c.result, some cell) ∈ columns.zip cells := by
  rw [Option.isSome_iff_exists]
  constructor
  · rintro ⟨x, hx⟩
    exact ⟨_, ((valueUnder?_eq_some_iff hnodup).mp hx).2⟩
  · rintro ⟨cell, hcell⟩
    obtain ⟨x, hx⟩ := Option.isSome_iff_exists.mp (Kind.isSome_ofCell? (htyped _ hcell))
    obtain ⟨hprecise, rfl⟩ := Kind.ofCell?_eq_some_iff.mp hx
    exact ⟨x, (valueUnder?_eq_some_iff hnodup).mpr ⟨hprecise, hcell⟩⟩

theorem isSome_recordUnder?_iff {cs : List Column} :
    (recordUnder? columns cells cs).isSome ↔
      ∀ c ∈ cs, (valueUnder? columns cells c.name c.kind).isSome := by
  induction cs with
  | nil => exact iff_of_true rfl (List.forall_mem_nil _)
  | cons c cs ih =>
    rw [List.forall_mem_cons, ← ih, recordUnder?]
    cases valueUnder? columns cells c.name c.kind <;> cases recordUnder? columns cells cs <;> simp

/-- A row can be read exactly when all its fields can be. -/
theorem Entity.isSome_rowOf?_iff (e : Entity) (hnodup : (columns.map ResultColumn.name).Nodup)
    (htyped : WellTyped e.fields columns cells) :
    (e.rowOf? columns cells).isSome ↔
      ∀ c ∈ e.fields, ∃ cell, (c.result, some cell) ∈ columns.zip cells := by
  rw [← forall₂_congr fun c hc => isSome_valueUnder?_iff hnodup (htyped c hc), fields,
    List.forall_mem_cons, ← isSome_recordUnder?_iff, rowOf?]
  cases valueUnder? columns cells Column.id.name Column.id.kind <;>
    cases recordUnder? columns cells e.columns <;> simp

end Reading

/-! ### Results in two layouts -/

section Layout

variable {e : Entity} {added : List ResultColumn} {r r' : ResultSet}

/-- A result with the columns of another one, together with their cells, in any order and among
added columns that are called like no field. -/
structure ResultSet.Relaid (e : Entity) (added : List ResultColumn) (r r' : ResultSet) : Prop where
  /-- No two columns share a name. -/
  nodup : (r'.columns.map ResultColumn.name).Nodup
  /-- The added columns are called like no field, whatever their types are. -/
  other : ∀ c ∈ added, c.name ∉ e.fields.map Column.name
  /-- The columns may stand in any order. -/
  columns : r'.columns.Perm (r.columns ++ added)
  /-- In every row the cells stand under their columns again; those added may be empty. -/
  rows : List.Forall₂ (fun cells cells' => ∃ extra,
    (r'.columns.zip cells').Perm (r.columns.zip cells ++ added.zip extra)) r.rows r'.rows

/-- The rows of a result in another layout are the same. -/
theorem ResultSet.Relaid.map_rowOf? (h : r.Relaid e added r') :
    r'.rows.map (e.rowOf? r'.columns) = r.rows.map (e.rowOf? r.columns) := by
  have hnodup : (r.columns.map ResultColumn.name).Nodup := by
    have hall := (h.columns.map ResultColumn.name).nodup_iff.mp h.nodup
    rw [List.map_append] at hall
    exact hall.of_append_left
  have hread : List.Forall₂ (fun cells cells' =>
      e.rowOf? r.columns cells = e.rowOf? r'.columns cells') r.rows r'.rows := by
    refine h.rows.imp ?_
    rintro cells cells' ⟨extra, hperm⟩
    ext row
    rw [e.rowOf?_eq_some_iff hnodup, e.rowOf?_eq_some_iff h.nodup]
    refine and_congr_right fun _ => forall₂_congr fun c hc => ?_
    -- What was added stands under other names.
    have hother : ∀ cell, (c.result, cell) ∉ added.zip extra := fun cell hmem =>
      h.other _ (List.of_mem_zip hmem).1 (List.mem_map_of_mem hc)
    rw [hperm.mem_iff, List.mem_append, or_iff_left (hother _)]
  have hmap := List.forall₂_map_left_iff.mpr (List.forall₂_map_right_iff.mpr hread)
  exact (List.forall₂_eq_eq_eq ▸ hmap).symm

/-- Of the first row only the first cell is looked at. -/
theorem ResultSet.first?_congr (hcolumns : r'.columns.head? = r.columns.head?)
    (hcells : r'.rows.map List.head? = r.rows.map List.head?) (type : ResultType) :
    r'.first? type = r.first? type := by
  obtain ⟨columns, rows⟩ := r
  obtain ⟨columns', rows'⟩ := r'
  cases columns with
  | nil =>
    obtain rfl := List.head?_eq_none_iff.mp hcolumns
    rfl
  | cons c columns =>
    obtain ⟨columns', rfl⟩ := List.head?_eq_some_iff.mp hcolumns
    cases rows with
    | nil =>
      obtain rfl := List.map_eq_nil_iff.mp hcells
      rfl
    | cons cells rows =>
      obtain ⟨cells', rows', rfl, hfirst, -⟩ := List.map_eq_cons_iff.mp hcells
      cases cells with
      | nil =>
        obtain rfl := List.head?_eq_none_iff.mp hfirst
        rfl
      | cons cell cells =>
        obtain ⟨cells', rfl⟩ := List.head?_eq_some_iff.mp hfirst
        cases cell <;> rfl

/-- The statement counts rows. -/
def Statement.IsCount : Statement → Prop
  | .count _ _ => True
  | .probe | .page .. | .find .. | .insert .. | .update .. | .delete .. => False

/-- Two endings of a statement that differ in nothing but the layout of their results. Of a count,
only what stands first is the same. -/
inductive Outcome.Relaid (e : Entity) : Statement → Outcome → Outcome → Prop
  | same {s : Statement} (o : Outcome) : Outcome.Relaid e s o o
  | rows {s : Statement} {r r' : ResultSet} {added : List ResultColumn}
    (rows : ¬ s.IsCount) (relaid : r.Relaid e added r') :
    Outcome.Relaid e s (.rows r) (.rows r')
  | count {s : Statement} {r r' : ResultSet} (count : s.IsCount)
    (column : r'.columns.head? = r.columns.head?)
    (cells : r'.rows.map List.head? = r.rows.map List.head?) :
    Outcome.Relaid e s (.rows r) (.rows r')

/-! ### Questions to the repository -/

/-- From answers that are related a plan goes on alike. -/
def Plan.Respects {Q : Type} {A : Q → Type} {α : Type} (R : (q : Q) → A q → A q → Prop) :
    Plan Q A α → Prop
  | .done _ => True
  | .ask q next => (∀ x x', R q x x' → next x' = next x) ∧ ∀ x, (next x).Respects R

/-- Such a plan ends alike when it is answered alike, whoever answers it. -/
theorem Plan.Respects.run_eq {Q : Type} {A : Q → Type} {α σ : Type}
    {R : (q : Q) → A q → A q → Prop} {answer answer' : (q : Q) → σ → A q × σ}
    (hanswer : ∀ q s, R q (answer q s).1 (answer' q s).1 ∧ (answer' q s).2 = (answer q s).2)
    {p : Plan Q A α} (h : p.Respects R) (s : σ) : p.run answer' s = p.run answer s := by
  induction p generalizing s with
  | done a => rfl
  | ask q next ih =>
    obtain ⟨hrelated, hstate⟩ := hanswer q s
    rw [run_ask, run_ask, h.1 _ _ hrelated, hstate]
    exact ih _ (h.2 _) _

namespace SqlRepository

variable {activity : Activity} {s : Statement} {o o' : Outcome}

/-- What depends on nothing but the rows of a result does not depend on its layout. -/
theorem eq_of_relaid {α : Type} {f : Outcome → α} (g : List (Option (Row e)) → α)
    (hf : ∀ r, f (.rows r) = g (r.rows.map (e.rowOf? r.columns)))
    (h : Outcome.Relaid e s o o') (hs : ¬ s.IsCount) : f o' = f o := by
  cases h with
  | same => rfl
  | rows _ relaid => rw [hf, hf, relaid.map_rowOf?]
  | count hcount => exact absurd hcount hs

theorem optionalRow_relaid (h : Outcome.Relaid e s o o') (hs : ¬ s.IsCount) :
    optionalRow e activity o' = optionalRow e activity o := by
  refine eq_of_relaid (fun rows => rows.head?.elim (.ok none) fun row =>
    (readable e.label activity row).map some) ?_ h hs
  rintro ⟨columns, rows⟩
  cases rows with
  | nil => rfl
  | cons cells rows => rfl

theorem oneRow_relaid (h : Outcome.Relaid e s o o') (hs : ¬ s.IsCount) :
    oneRow e activity o' = oneRow e activity o := by
  rw [oneRow, oneRow, optionalRow_relaid h hs]

theorem allRows_relaid (h : Outcome.Relaid e s o o') (hs : ¬ s.IsCount) :
    allRows e activity o' = allRows e activity o := by
  refine eq_of_relaid (fun rows => readable e.label activity (rows.mapM id)) (fun r => ?_) h hs
  rw [List.mapM_map]
  rfl

theorem touched_relaid (h : Outcome.Relaid e s o o') (hs : ¬ s.IsCount) :
    touched e activity o' = touched e activity o := by
  refine eq_of_relaid (fun rows => .ok (!rows.isEmpty)) (fun r => ?_) h hs
  rw [List.isEmpty_map]
  rfl

/-- A count is what stands first. -/
theorem counted_relaid (h : Outcome.Relaid e s o o') (hs : s.IsCount) :
    counted e o' = counted e o := by
  cases h with
  | same => rfl
  | rows hrows => exact absurd hs hrows
  | @count r r' _ column cells =>
    have hfirst := ResultSet.first?_congr column cells .bigint
    simp only [counted, resultSet, bind, Except.bind, hfirst]

/-- The repository goes on alike from replies that differ in their layout alone. -/
theorem answer_respects (c : Call e) : (answer c).Respects (Outcome.Relaid e) := by
  cases c with
  | find id =>
    exact ⟨fun o o' h => congrArg _ (optionalRow_relaid h not_false), fun _ => trivial⟩
  | page filters request =>
    rw [answer]
    split
    · trivial
    · refine ⟨fun o o' h => ?_, fun o => ?_⟩
      · dsimp only
        rw [counted_relaid h trivial]
      · dsimp only
        split
        · trivial
        · refine ⟨fun o o' h => congrArg Plan.done ?_, fun _ => trivial⟩
          rw [allRows_relaid h not_false]
  | create record =>
    exact ⟨fun o o' h => congrArg _ (oneRow_relaid h not_false), fun _ => trivial⟩
  | update row =>
    exact ⟨fun o o' h => congrArg _ (optionalRow_relaid h not_false), fun _ => trivial⟩
  | delete id =>
    exact ⟨fun o o' h => congrArg _ (touched_relaid h not_false), fun _ => trivial⟩

end SqlRepository

end Layout

/-! ### Results -/

/-- What is read of the results for an entity, whatever their layout is. -/
structure LayoutFree (e : Entity) : Prop where
  /-- A row can be read exactly when the identifier and every column are there with the type of
  their kind and a cell that is not empty. -/
  isSome_iff : ∀ {columns : List ResultColumn} {cells : List (Option Cell)},
    (columns.map ResultColumn.name).Nodup → WellTyped e.fields columns cells →
      ((e.rowOf? columns cells).isSome ↔
        ∀ c ∈ e.fields, ∃ cell, (c.result, some cell) ∈ columns.zip cells)
  /-- It has in each field the value that is stored in the cell of the same name. -/
  value : ∀ {columns : List ResultColumn} {cells : List (Option Cell)} {row : Row e},
    (columns.map ResultColumn.name).Nodup → e.rowOf? columns cells = some row →
      ∀ c ∈ e.fields, ∃ v, row.valueOf? c.name = some v ∧ v.kind = c.kind ∧
        (c.result, some (Cell.ofValue v)) ∈ columns.zip cells
  /-- No answer of the repository depends on the layout of the results. -/
  answers : ∀ (c : Call e) {σ : Type} {reply reply' : Statement → σ → Outcome × σ},
    (∀ s state, Outcome.Relaid e s (reply s state).1 (reply' s state).1 ∧
      (reply' s state).2 = (reply s state).2) →
    ∀ state, (SqlRepository.answer c).run reply' state = (SqlRepository.answer c).run reply state
  /-- What is sent of a row, with its columns in any order, is read as the row exactly when its
  instants are whole microseconds outside leap seconds. -/
  stored_iff : ∀ {columns : List ResultColumn}, columns.Perm (e.fields.map Column.result) →
    ∀ row : Row e, e.rowOf? columns (columns.map fun c => row.stored c.name) = some row ↔
      row.IsPrecise

/-- Rows are read by the names of their columns alone, for any entity. -/
theorem layout_free (e : Entity) : LayoutFree e where
  isSome_iff hnodup htyped := e.isSome_rowOf?_iff hnodup htyped
  value := by
    intro columns cells row hnodup hrow c hc
    obtain ⟨-, hcells⟩ := (e.rowOf?_eq_some_iff hnodup).mp hrow
    obtain ⟨v, hv, hkind⟩ := row.exists_valueOf?_of_mem hc
    have hcell := hcells c hc
    rw [Row.stored, hv] at hcell
    exact ⟨v, hv, hkind, hcell⟩
  answers c _ _ _ hreply state := (SqlRepository.answer_respects c).run_eq hreply state
  stored_iff := by
    intro columns hcolumns row
    refine ⟨fun h => ?_, e.rowOf?_stored hcolumns⟩
    exact ((e.rowOf?_eq_some_iff (Entity.names_nodup_of_perm hcolumns)).mp h).1

/-- Something with nothing but an instant. -/
def sighting : Entity where
  table := "sightings"
  label := "sighting"
  recordName := "Sighting"
  columns := [⟨"seen_at", .timestamp⟩]
  filterable := []

/-- A sighting at an instant. -/
def sightingAt (t : Instant) : Row sighting := ⟨1, .cons t .nil⟩

/-- The replies of a database that has no rows to show, and counts them with a result. -/
def countedAs (r : ResultSet) : Statement → Unit → Outcome × Unit
  | .count _ _, _ => (.rows r, ())
  | _, _ => (.rows ⟨[], []⟩, ())

/-- An instant in a leap second is not read back even if it is a whole number of microseconds, and a
count is not read when its column stands behind another. -/
theorem leapSighting_changed :
    (∃ t, Value.read? .timestamp "2016-12-31T23:59:60.5Z" = some (.timestamp t) ∧
      t.nano % 1000 = 0 ∧
      sighting.rowOf? (sighting.fields.map Column.result)
        ((sighting.fields.map Column.result).map fun c => (sightingAt t).stored c.name) ≠
          some (sightingAt t)) ∧
      ∃ r r' : ResultSet, r.Relaid sighting [] r' ∧
        ((SqlRepository.answer (e := sighting) (.page [] .standard)).run (countedAs r) ()).1 =
          .ok ⟨[], 1⟩ ∧
        ((SqlRepository.answer (e := sighting) (.page [] .standard)).run (countedAs r') ()).1 =
          .error (.database "sighting" .count) := by
  refine ⟨⟨⟨6209, 86399, 1500000000, by decide, by decide, by decide, by decide, by decide⟩,
    by decide +kernel, rfl, fun hread => ?_⟩, ⟨[⟨"count", .bigint⟩, ⟨"note", .text⟩],
    [[some (.number 1), some (.text "x")]]⟩, ⟨[⟨"note", .text⟩, ⟨"count", .bigint⟩],
    [[some (.text "x"), some (.number 1)]]⟩, ?_, rfl, rfl⟩
  · have hnodup := Entity.names_nodup_of_perm (List.Perm.refl (sighting.fields.map _))
    exact absurd ((Entity.rowOf?_eq_some_iff hnodup).mp hread).1 (by decide)
  · exact ⟨by decide, nofun, by decide, .cons ⟨[], by decide⟩ .nil⟩

end ExchangeCatalog
