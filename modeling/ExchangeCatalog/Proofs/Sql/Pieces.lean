import ExchangeCatalog.Proofs.Filter.Registry
import ExchangeCatalog.Proofs.Interleaving
import ExchangeCatalog.Proofs.Service.Operation
import ExchangeCatalog.Proofs.Sql.Row
import ExchangeCatalog.Repository.Sql

/-!
# What the text of a statement is made of

The text of every statement is put together from fixed phrases, the quoted names of the entity's
table and columns, the five operators and numbered places. Which pieces these are, and in which
order, follows from the kind of the request and, for a list, from the columns and operators of the
filters that are kept. No value of a request has a part in it: values go to the database beside the
text, one for each place.

Two requests of one shape therefore send the same texts, whatever their values are and whatever the
database replies.

## Main definitions

* `Sql.Piece` — a part of a statement's text
* `Sql.Shape` — what of a request has a part in the texts of its statements
* `Sql.Shape.templates` — the pieces of these texts
* `Sql.IsWrittenAs` — a statement is written as pieces, with one place for each of its values

## Main results

* `Sql.sends_templates` — what a request sends is written as its shape says
* `Sql.isDeclared_of_mem_templates` — no column is named but those of the entity
* `Sql.texts_free_of_values` — the values of a request have no part in any text
-/

namespace ExchangeCatalog.Sql

open Plan (Asked Follows follows_ask_iff follows_done_iff)
open Service (Operation)

variable {e : Entity}

/-! ### Pieces -/

/-- The fixed phrases of statements. -/
inductive Phrase
  | count
  | select
  | insert
  | update
  | delete
  | «where»
  | and
  | order
  | limit
  | offset
  | columns
  | values
  | set
  | comma
  | space
  | inserted
  | returning
  deriving DecidableEq, Repr

/-- The words of a phrase. -/
def Phrase.text : Phrase → String
  | count => "SELECT COUNT(*) FROM "
  | select => "SELECT * FROM "
  | insert => "INSERT INTO "
  | update => "UPDATE "
  | delete => "DELETE FROM "
  | «where» => " WHERE "
  | and => " AND "
  | order => " ORDER BY "
  | limit => " LIMIT "
  | offset => " OFFSET "
  | columns => " ("
  | values => ") VALUES ("
  | set => " SET "
  | comma => ", "
  | space => " "
  | inserted => ") RETURNING *"
  | returning => " RETURNING *"

/-- A part of a statement's text. -/
inductive Piece
  | phrase (p : Phrase)
  /-- The name of the entity's table. -/
  | table
  /-- The name of a column. -/
  | column (name : String)
  | operator (op : Operator)
  /-- A numbered place for a value. -/
  | place (n : Nat)
  deriving DecidableEq, Repr

namespace Piece

/-- The text of a piece. -/
def text (e : Entity) : Piece → String
  | phrase p => p.text
  | table => quoteName e.table
  | column name => quoteName name
  | operator op => op.sql
  | place n => Statement.placeText n

/-- The number of a place. -/
def place? : Piece → Option Nat
  | place n => some n
  | _ => none

/-- A piece names no column but those of the entity. -/
def IsDeclared (e : Entity) : Piece → Prop
  | column name => name ∈ e.fields.map Column.name
  | _ => True

end Piece

/-- The text that pieces make. -/
def written (e : Entity) (pieces : List Piece) : String := String.join (pieces.map (Piece.text e))

theorem written_cons (p : Piece) (pieces : List Piece) :
    written e (p :: pieces) = p.text e ++ written e pieces :=
  String.join_cons

theorem written_nil : written e [] = "" := rfl

theorem written_singleton (p : Piece) : written e [p] = p.text e := by
  rw [written_cons, written_nil, String.append_empty]

theorem written_append (pieces pieces' : List Piece) :
    written e (pieces ++ pieces') = written e pieces ++ written e pieces' := by
  rw [written, List.map_append, String.join_append]
  rfl

/-- Pieces between separators make texts between separators. -/
theorem written_intercalate {α : Type} (sep : Piece) (f : α → List Piece) (xs : List α) :
    written e ([sep].intercalate (xs.map f)) =
      (sep.text e).intercalate (xs.map fun x => written e (f x)) := by
  induction xs with
  | nil => rfl
  | cons x xs ih =>
    cases xs with
    | nil =>
      rw [List.map_singleton, List.map_singleton, List.intercalate_singleton,
        String.intercalate_singleton]
    | cons y ys =>
      rw [List.map_cons, List.map_cons] at ih
      rw [List.map_cons, List.map_cons, List.map_cons, List.map_cons, List.intercalate_cons_cons,
        String.intercalate_cons_cons, written_append, written_append, ih, written_singleton]

/-- The numbers of the places in pieces, in order. -/
def placesOf (pieces : List Piece) : List Nat := pieces.filterMap Piece.place?

theorem placesOf_append (pieces pieces' : List Piece) :
    placesOf (pieces ++ pieces') = placesOf pieces ++ placesOf pieces' :=
  List.filterMap_append

/-! ### Templates -/

/-- The pieces of a column in a relation to a numbered place. -/
def conditionPieces (column : String) (op : Operator) (n : Nat) : List Piece :=
  [.column column, .phrase .space, .operator op, .phrase .space, .place n]

/-- The pieces of the condition that each filter passes. -/
def wherePieces (filters : List (String × Operator)) : List Piece :=
  if filters.isEmpty then []
  else .phrase .where :: [.phrase .and].intercalate
    (filters.zipIdx.map fun f => conditionPieces f.1.1 f.1.2 (f.2 + 1))

/-- The pieces of a count of the rows that pass filters. -/
def countPieces (filters : List (String × Operator)) : List Piece :=
  [.phrase .count, .table] ++ wherePieces filters

/-- The pieces of a page of these rows, whose bounds follow the values of the filters. -/
def pagePieces (filters : List (String × Operator)) : List Piece :=
  [.phrase .select, .table] ++ wherePieces filters ++
    [.phrase .order, .column "id", .phrase .limit, .place (filters.length + 1), .phrase .offset,
      .place (filters.length + 2)]

/-- The pieces of what is done with one row, which its identifier decides. -/
def rowPieces (p : Phrase) : List Piece :=
  [.phrase p, .table, .phrase .where] ++ conditionPieces "id" .equal 1

/-- The pieces of a new row. -/
def insertPieces (columns : List String) : List Piece :=
  [.phrase .insert, .table, .phrase .columns] ++
    [.phrase .comma].intercalate (columns.map fun column => [.column column]) ++
    .phrase .values ::
      [.phrase .comma].intercalate (columns.zipIdx.map fun c => [.place (c.2 + 1)]) ++
    [.phrase .inserted]

/-- The pieces of a change of one row. -/
def updatePieces (columns : List String) : List Piece :=
  [.phrase .update, .table, .phrase .set] ++
    [.phrase .comma].intercalate
      (columns.zipIdx.map fun c => conditionPieces c.1 .equal (c.2 + 1)) ++
    .phrase .where :: conditionPieces "id" .equal (columns.length + 1) ++ [.phrase .returning]

/-! ### Texts -/

theorem written_conditionPieces (column : String) (op : Operator) (n : Nat) :
    written e (conditionPieces column op n) = Statement.condition column op.sql n := by
  simp only [conditionPieces, written_cons, written_nil, Piece.text, Phrase.text,
    Statement.condition, String.append_assoc, String.append_empty]

/-- The columns and operators of filters decide their condition. -/
theorem written_wherePieces (filters : List TypedFilter) :
    written e (wherePieces (filters.map fun f => (f.column, f.op))) =
      Statement.whereClause filters := by
  rw [wherePieces, Statement.whereClause, List.isEmpty_map]
  split
  · rfl
  · rw [written_cons, written_intercalate, List.zipIdx_map, List.map_map]
    simp only [written_conditionPieces]
    rfl

theorem written_countPieces (filters : List TypedFilter) :
    written e (countPieces (filters.map fun f => (f.column, f.op))) =
      (e.countStatement filters).text := by
  rw [countPieces, written_append, written_wherePieces]
  dsimp only [Entity.countStatement, Statement.text]
  simp only [written_cons, written_nil, Piece.text, Phrase.text, String.append_empty]

theorem written_pagePieces (filters : List TypedFilter) (request : PageRequest) :
    written e (pagePieces (filters.map fun f => (f.column, f.op))) =
      (e.pageStatement filters request).text := by
  have horder : " ORDER BY \"id\" LIMIT " = " ORDER BY " ++ (quoteName "id" ++ " LIMIT ") := by
    decide
  rw [pagePieces, written_append, written_append, written_wherePieces, List.length_map]
  dsimp only [Entity.pageStatement, Statement.text]
  rw [horder]
  simp only [written_cons, written_nil, Piece.text, Phrase.text, String.append_assoc,
    String.append_empty]

theorem written_rowPieces (p : Phrase) :
    written e (rowPieces p) =
      p.text ++ quoteName e.table ++ " WHERE " ++ Statement.condition "id" "=" 1 := by
  rw [rowPieces, written_append, written_conditionPieces]
  simp only [written_cons, written_nil, Piece.text, Phrase.text, Operator.sql, String.append_assoc,
    String.append_empty]

theorem written_insertPieces (record : Record e.columns) :
    written e (insertPieces (e.columns.map Column.name)) = (e.insertStatement record).text := by
  rw [← e.map_fst_assignments record, insertPieces]
  dsimp only [Entity.insertStatement, Statement.text]
  simp only [written_append, written_cons, written_nil, written_intercalate, List.zipIdx_map,
    List.map_map, Function.comp_apply, Prod.map_snd, id_eq, Piece.text, Phrase.text,
    String.append_assoc, String.append_empty]

theorem written_updatePieces (row : Row e) :
    written e (updatePieces (e.columns.map Column.name)) = (e.updateStatement row).text := by
  rw [← e.map_fst_assignments row.record, updatePieces, List.length_map]
  dsimp only [Entity.updateStatement, Statement.text]
  simp only [written_append, written_cons, written_nil, written_intercalate, List.zipIdx_map,
    List.map_map, Function.comp_apply, Prod.map_fst, Prod.map_snd, id_eq, written_conditionPieces,
    Operator.sql, Piece.text, Phrase.text, String.append_assoc, String.append_empty]

/-! ### Places -/

/-- Pieces with one place each, numbered from one, and a phrase between them. -/
theorem placesOf_numbered {α : Type} (sep : Phrase) {f : α × Nat → List Piece}
    (hf : ∀ x, placesOf (f x) = [x.2 + 1]) (xs : List α) :
    placesOf ([.phrase sep].intercalate (xs.zipIdx.map f)) = List.range' 1 xs.length :=
  filterMap_intercalate_zipIdx rfl hf xs

/-- Every filter has one place, in order. -/
theorem placesOf_wherePieces (filters : List (String × Operator)) :
    placesOf (wherePieces filters) = List.range' 1 filters.length := by
  rw [wherePieces]
  split
  · rename_i hempty
    rw [List.isEmpty_iff.mp hempty]
    rfl
  · exact placesOf_numbered .and (fun _ => rfl) filters

/-- Every column of a new row has one place, in order. -/
theorem placesOf_insertPieces (columns : List String) :
    placesOf (insertPieces columns) = List.range' 1 columns.length := by
  have hnames : placesOf ([.phrase .comma].intercalate
      (columns.map fun column => [Piece.column column])) = [] := by
    rw [placesOf, filterMap_intercalate rfl, List.flatMap_map]
    exact List.flatMap_eq_nil_iff.mpr fun _ _ => rfl
  rw [insertPieces, placesOf_append, placesOf_append, placesOf_append, hnames]
  exact (List.append_nil _).trans (placesOf_numbered .comma (fun _ => rfl) columns)

/-- In a change every column has one place, in order, and the identifier has the last one. -/
theorem placesOf_updatePieces (columns : List String) :
    placesOf (updatePieces columns) = List.range' 1 (columns.length + 1) := by
  rw [updatePieces, placesOf_append, placesOf_append, placesOf_append,
    placesOf_numbered .comma (fun _ => rfl), List.range'_1_concat, Nat.add_comm 1]
  exact List.append_nil _

/-! ### Statements -/

/-- A statement is written as pieces, which have one place for each of its values, in order. -/
structure IsWrittenAs (e : Entity) (s : Statement) (pieces : List Piece) : Prop where
  text : s.text = written e pieces
  places : placesOf pieces = List.range' 1 s.binds.length

theorem isWrittenAs_count (filters : List TypedFilter) :
    IsWrittenAs e (e.countStatement filters)
      (countPieces (filters.map fun f => (f.column, f.op))) where
  text := (written_countPieces filters).symm
  places := by
    rw [countPieces, placesOf_append, placesOf_wherePieces, List.length_map, Entity.countStatement,
      Statement.binds, List.length_map]
    rfl

theorem isWrittenAs_page (filters : List TypedFilter) (request : PageRequest) :
    IsWrittenAs e (e.pageStatement filters request)
      (pagePieces (filters.map fun f => (f.column, f.op))) where
  text := (written_pagePieces filters request).symm
  places := by
    rw [pagePieces, placesOf_append, placesOf_append, placesOf_wherePieces, List.length_map,
      Entity.pageStatement, Statement.binds, List.length_append, List.length_map]
    exact range'_one_append_two filters.length

theorem isWrittenAs_find (id : Int64) : IsWrittenAs e (.find e.table id) (rowPieces .select) where
  text := (written_rowPieces .select).symm
  places := rfl

theorem isWrittenAs_insert (record : Record e.columns) :
    IsWrittenAs e (e.insertStatement record) (insertPieces (e.columns.map Column.name)) where
  text := (written_insertPieces record).symm
  places := by
    rw [placesOf_insertPieces, ← e.map_fst_assignments record, List.length_map,
      Entity.insertStatement, Statement.binds, List.length_map]

theorem isWrittenAs_update (row : Row e) :
    IsWrittenAs e (e.updateStatement row) (updatePieces (e.columns.map Column.name)) where
  text := (written_updatePieces row).symm
  places := by
    rw [placesOf_updatePieces, ← e.map_fst_assignments row.record, List.length_map,
      Entity.updateStatement, Statement.binds, List.length_append, List.length_map]
    rfl

theorem isWrittenAs_delete (id : Int64) :
    IsWrittenAs e (.delete e.table id) (rowPieces .delete) where
  text := (written_rowPieces .delete).symm
  places := rfl

/-! ### Shapes -/

/-- What of a request has a part in the texts of its statements: its kind, and the columns and
operators of the filters that are kept. -/
inductive Shape
  | list (filters : List (String × Operator))
  | get
  | create
  | change
  | delete
  deriving DecidableEq, Repr

/-- The pieces of the texts that a request of a shape may send, in order. -/
def Shape.templates (e : Entity) : Shape → List (List Piece)
  | list filters => [countPieces filters, pagePieces filters]
  | get => [rowPieces .select]
  | create => [insertPieces (e.columns.map Column.name)]
  | change => [rowPieces .select, updatePieces (e.columns.map Column.name)]
  | delete => [rowPieces .delete]

/-- The columns and operators of the filters that are kept of some predicates. -/
def keptColumns (e : Entity) (predicates : List Predicate) : List (String × Operator) :=
  (e.retain predicates).map fun f => (f.column.name, f.op)

/-- The shape of a request. -/
def shapeOf : Operation e → Shape
  | .list predicates _ => .list (keptColumns e predicates)
  | .get _ => .get
  | .create _ => .create
  | .replace .. | .patch .. => .change
  | .delete _ => .delete

/-! ### Declared columns -/

/-- Phrases between declared pieces leave them declared. -/
theorem isDeclared_intercalate {α : Type} {sep : Phrase} {f : α → List Piece} {xs : List α}
    (h : ∀ x ∈ xs, ∀ p ∈ f x, p.IsDeclared e) :
    ∀ p ∈ [.phrase sep].intercalate (xs.map f), p.IsDeclared e := by
  induction xs with
  | nil => exact fun p hp => absurd hp List.not_mem_nil
  | cons x xs ih =>
    obtain ⟨hx, hxs⟩ := List.forall_mem_cons.mp h
    cases xs with
    | nil =>
      rw [List.map_singleton, List.intercalate_singleton]
      exact hx
    | cons y ys =>
      rw [List.map_cons, List.map_cons, List.intercalate_cons_cons, List.forall_mem_append,
        List.forall_mem_append, List.forall_mem_singleton]
      exact ⟨⟨hx, trivial⟩, ih hxs⟩

theorem id_mem_fields (e : Entity) : "id" ∈ e.fields.map Column.name := List.mem_cons_self

theorem mem_fields_of_mem_columns {column : String} (h : column ∈ e.columns.map Column.name) :
    column ∈ e.fields.map Column.name :=
  List.mem_cons_of_mem _ h

theorem isDeclared_conditionPieces {column : String} (h : column ∈ e.fields.map Column.name)
    (op : Operator) (n : Nat) : ∀ p ∈ conditionPieces column op n, p.IsDeclared e := by
  rw [conditionPieces, List.forall_mem_cons]
  exact ⟨h, by simp [Piece.IsDeclared]⟩

theorem isDeclared_wherePieces {filters : List (String × Operator)}
    (h : ∀ f ∈ filters, f.1 ∈ e.fields.map Column.name) :
    ∀ p ∈ wherePieces filters, p.IsDeclared e := by
  rw [wherePieces]
  split
  · exact fun p hp => absurd hp List.not_mem_nil
  · refine List.forall_mem_cons.mpr ⟨trivial, isDeclared_intercalate fun f hf => ?_⟩
    exact isDeclared_conditionPieces (h _ (List.fst_mem_of_mem_zipIdx hf)) _ _

theorem isDeclared_insertPieces :
    ∀ p ∈ insertPieces (e.columns.map Column.name), p.IsDeclared e := by
  rw [insertPieces, List.forall_mem_append, List.forall_mem_append, List.forall_mem_append]
  refine ⟨⟨⟨by simp [Piece.IsDeclared], isDeclared_intercalate fun column hcolumn => ?_⟩,
    List.forall_mem_cons.mpr ⟨trivial, isDeclared_intercalate fun _ _ => ?_⟩⟩,
    by simp [Piece.IsDeclared]⟩
  · exact List.forall_mem_singleton.mpr (mem_fields_of_mem_columns hcolumn)
  · exact List.forall_mem_singleton.mpr trivial

theorem isDeclared_updatePieces :
    ∀ p ∈ updatePieces (e.columns.map Column.name), p.IsDeclared e := by
  rw [updatePieces, List.forall_mem_append, List.forall_mem_append, List.forall_mem_append]
  refine ⟨⟨⟨by simp [Piece.IsDeclared], isDeclared_intercalate fun c hc => ?_⟩,
    List.forall_mem_cons.mpr ⟨trivial, isDeclared_conditionPieces (id_mem_fields e) _ _⟩⟩,
    by simp [Piece.IsDeclared]⟩
  exact isDeclared_conditionPieces
    (mem_fields_of_mem_columns (List.fst_mem_of_mem_zipIdx hc)) _ _

theorem isDeclared_rowPieces (p : Phrase) : ∀ q ∈ rowPieces p, q.IsDeclared e := by
  rw [rowPieces, List.forall_mem_append]
  exact ⟨by simp [Piece.IsDeclared], isDeclared_conditionPieces (id_mem_fields e) _ _⟩

/-- The columns of kept filters are the entity's own. -/
theorem mem_fields_of_mem_keptColumns {predicates : List Predicate} {f : String × Operator}
    (h : f ∈ keptColumns e predicates) : f.1 ∈ e.fields.map Column.name := by
  obtain ⟨kept, hkept, rfl⟩ := List.mem_map.mp h
  exact List.mem_map_of_mem (Entity.column_mem_of_mem_retain hkept)

/-- The texts that a request sends name no column but those of the entity. -/
theorem isDeclared_of_mem_templates (op : Operation e) :
    ∀ pieces ∈ (shapeOf op).templates e, ∀ p ∈ pieces, p.IsDeclared e := by
  cases op with
  | list predicates request =>
    have hwhere := isDeclared_wherePieces fun f (hf : f ∈ keptColumns e predicates) =>
      mem_fields_of_mem_keptColumns hf
    rw [shapeOf, Shape.templates, List.forall_mem_cons, List.forall_mem_singleton, countPieces,
      pagePieces, List.forall_mem_append, List.forall_mem_append, List.forall_mem_append]
    refine ⟨⟨by simp [Piece.IsDeclared], hwhere⟩, ⟨by simp [Piece.IsDeclared], hwhere⟩, ?_⟩
    simpa [Piece.IsDeclared] using id_mem_fields e
  | get id | delete id => exact List.forall_mem_singleton.mpr (isDeclared_rowPieces _)
  | create record => exact List.forall_mem_singleton.mpr isDeclared_insertPieces
  | replace id _ | patch id _ =>
    exact List.forall_mem_cons.mpr
      ⟨isDeclared_rowPieces _, List.forall_mem_singleton.mpr isDeclared_updatePieces⟩

/-! ### What a request sends -/

/-- A plan sends statements that are written as these pieces, one after the other, or ends before
the last of them, whatever the replies. -/
def Sends {α : Type} (e : Entity) (p : StatementPlan α) (templates : List (List Piece)) : Prop :=
  ∀ (asked : List (Asked fun _ : Statement => Outcome)) (rest : StatementPlan α),
    Follows p asked rest →
      ∃ sent, sent <+: templates ∧ List.Forall₂ (IsWrittenAs e) (asked.map Sigma.fst) sent

theorem sends_done {α : Type} (a : α) (templates : List (List Piece)) :
    Sends e (.done a) templates := by
  intro asked rest h
  obtain ⟨rfl, -⟩ := follows_done_iff.mp h
  exact ⟨[], List.nil_prefix, .nil⟩

theorem sends_ask {α : Type} {s : Statement} {next : Outcome → StatementPlan α}
    {pieces : List Piece} {templates : List (List Piece)} (hs : IsWrittenAs e s pieces)
    (hnext : ∀ reply, Sends e (next reply) templates) :
    Sends e (.ask s next) (pieces :: templates) := by
  intro asked rest h
  rcases follows_ask_iff.mp h with ⟨rfl, -⟩ | ⟨reply, more, rfl, hmore⟩
  · exact ⟨[], List.nil_prefix, .nil⟩
  · obtain ⟨sent, hsent, hwritten⟩ := hnext reply _ _ hmore
    exact ⟨pieces :: sent, (List.prefix_cons_inj _).mpr hsent, .cons hs hwritten⟩

/-- A question that takes one statement sends it, and the session goes on from the answer. -/
theorem sends_asking {α : Type} {c : Call e} {next : c.Result → Session e α} {s : Statement}
    {read : Outcome → c.Answer} {pieces : List Piece} {templates : List (List Piece)}
    (hc : SqlRepository.answer c = .ask s fun reply => .done (read reply))
    (hs : IsWrittenAs e s pieces)
    (hnext : ∀ r, Sends e ((next r).through SqlRepository.answer) templates) :
    Sends e ((Service.asking c next).through SqlRepository.answer) (pieces :: templates) := by
  rw [Service.asking, Plan.through, hc]
  refine sends_ask hs fun reply => ?_
  dsimp only [Plan.done_bind]
  cases read reply with
  | error fault => exact sends_done _ _
  | ok r => exact hnext r

/-- A change of a row sends a search, and an update when a row is found. -/
theorem sends_change (id : Int64) (edit : Row e → Row e) :
    Sends e ((Service.change id edit).through SqlRepository.answer) (Shape.change.templates e) := by
  refine sends_asking rfl (isWrittenAs_find id) fun row? => ?_
  cases row? with
  | none => exact sends_done _ _
  | some row => exact sends_asking rfl (isWrittenAs_update (edit row)) fun _ => sends_done _ _

/-- A list request sends a count and a page, or nothing when a filter's value cannot be read. -/
theorem sends_list (predicates : List Predicate) (request : PageRequest) :
    Sends e ((Service.list predicates request : Session e _).through SqlRepository.answer)
      ((Shape.list (keptColumns e predicates)).templates e) := by
  rw [Service.list, Service.asking, Plan.through, SqlRepository.answer]
  cases htyped : typedFilters (e.retain predicates) with
  | error fault => exact sends_done _ _
  | ok typed =>
    rw [Shape.templates, keptColumns, ← map_of_typedFilters htyped]
    refine sends_ask (isWrittenAs_count typed) fun reply => ?_
    dsimp only
    cases SqlRepository.counted e reply with
    | error fault => exact sends_done _ _
    | ok total =>
      refine sends_ask (isWrittenAs_page typed request) fun reply => ?_
      dsimp only
      cases SqlRepository.allRows e .list reply with
      | error fault => exact sends_done _ _
      | ok items => exact sends_done _ _

/-- The shape of a request decides what its statements are written as. -/
theorem sends_templates (op : Operation e) :
    Sends e (op.session.through SqlRepository.answer) ((shapeOf op).templates e) := by
  cases op with
  | list predicates request => exact sends_list predicates request
  | get id => exact sends_asking rfl (isWrittenAs_find id) fun _ => sends_done _ _
  | create record => exact sends_asking rfl (isWrittenAs_insert record) fun _ => sends_done _ _
  | replace id record => exact sends_change id _
  | patch id changes => exact sends_change id _
  | delete id => exact sends_asking rfl (isWrittenAs_delete id) fun _ => sends_done _ _

/-! ### Texts without values -/

theorem map_text_of_isWrittenAs {statements : List Statement} {templates : List (List Piece)}
    (h : List.Forall₂ (IsWrittenAs e) statements templates) :
    statements.map Statement.text = templates.map (written e) := by
  induction h with
  | nil => rfl
  | cons hs _ ih => rw [List.map_cons, List.map_cons, hs.text, ih]

/-- Requests of one shape that have sent as many statements have sent the same texts. -/
theorem map_text_eq_of_shapeOf_eq {op op' : Operation e} (hshape : shapeOf op = shapeOf op')
    {asked asked' : List (Asked fun _ : Statement => Outcome)} {rest : StatementPlan op.Answer}
    {rest' : StatementPlan op'.Answer}
    (h : Follows (op.session.through SqlRepository.answer) asked rest)
    (h' : Follows (op'.session.through SqlRepository.answer) asked' rest')
    (hlength : asked.length = asked'.length) :
    asked.map (fun q => q.1.text) = asked'.map fun q => q.1.text := by
  obtain ⟨sent, hsent, hwritten⟩ := sends_templates op asked rest h
  obtain ⟨sent', hsent', hwritten'⟩ := sends_templates op' asked' rest' h'
  have hsame : sent = sent' := by
    have hlengths : sent.length = sent'.length := by
      rw [← hwritten.length_eq, ← hwritten'.length_eq, List.length_map, List.length_map, hlength]
    rw [← hshape] at hsent'
    exact (List.prefix_of_prefix_length_le hsent hsent' hlengths.le).eq_of_length hlengths
  have htexts := map_text_of_isWrittenAs hwritten
  have htexts' := map_text_of_isWrittenAs hwritten'
  rw [List.map_map] at htexts htexts'
  exact htexts.trans ((congrArg _ hsame).trans htexts'.symm)

/-- The values of a request have no part in the texts of its statements. -/
structure TextsFreeOfValues (e : Entity) : Prop where
  /-- Lists whose kept filters have the same columns and operators count and select with the same
  texts. -/
  lists : ∀ {predicates predicates' : List Predicate} {typed typed' : List TypedFilter},
    keptColumns e predicates = keptColumns e predicates' →
    typedFilters (e.retain predicates) = .ok typed →
    typedFilters (e.retain predicates') = .ok typed' →
      (e.countStatement typed).text = (e.countStatement typed').text ∧
        ∀ request request',
          (e.pageStatement typed request).text = (e.pageStatement typed' request').text
  /-- Every row is put in and changed with the same texts, -/
  rows : (∀ record record', (e.insertStatement record).text = (e.insertStatement record').text) ∧
    ∀ row row', (e.updateStatement row).text = (e.updateStatement row').text
  /-- and found and deleted with the same texts. -/
  identifiers : ∀ id id' : Int64,
    (Statement.find e.table id).text = (Statement.find e.table id').text ∧
      (Statement.delete e.table id).text = (Statement.delete e.table id').text
  /-- What a request sends is written as the pieces that follow from its shape, whatever the
  replies, and has one place for each of its values. -/
  sent : ∀ op : Operation e,
    Sends e (op.session.through SqlRepository.answer) ((shapeOf op).templates e)
  /-- These name no column but those of the entity. -/
  declared : ∀ op : Operation e, ∀ pieces ∈ (shapeOf op).templates e, ∀ p ∈ pieces, p.IsDeclared e
  /-- Whole requests of one shape send the same texts, as far as both of them get. -/
  requests : ∀ {op op' : Operation e}, shapeOf op = shapeOf op' →
    ∀ {asked asked' : List (Asked fun _ : Statement => Outcome)} {rest : StatementPlan op.Answer}
      {rest' : StatementPlan op'.Answer},
      Follows (op.session.through SqlRepository.answer) asked rest →
      Follows (op'.session.through SqlRepository.answer) asked' rest' →
      asked.length = asked'.length →
        asked.map (fun q => q.1.text) = asked'.map fun q => q.1.text
  /-- The values of a list are bound in the places of its filters and of its bounds, -/
  list_binds : ∀ typed request, (e.countStatement typed).binds = typed.map TypedFilter.value ∧
    (e.pageStatement typed request).binds = typed.map TypedFilter.value ++
      [.integer (boundedCount request.limit), .integer (boundedCount request.offset)]
  /-- those of a row in the places of its columns, -/
  row_binds : ∀ row : Row e, (e.insertStatement row.record).binds = row.record.values ∧
    (e.updateStatement row).binds = row.record.values ++ [.integer row.id]
  /-- and an identifier in its place. -/
  id_binds : ∀ id : Int64, (Statement.find e.table id).binds = [.integer id] ∧
    (Statement.delete e.table id).binds = [.integer id]

/-- The values of a request have no part in the texts of its statements, whatever the entity is. -/
theorem texts_free_of_values (e : Entity) : TextsFreeOfValues e where
  lists := by
    intro predicates predicates' typed typed' hkept htyped htyped'
    have hcolumns : (typed.map fun f => (f.column, f.op)) =
        typed'.map fun f => (f.column, f.op) := by
      rw [map_of_typedFilters htyped, map_of_typedFilters htyped']
      exact hkept
    refine ⟨?_, fun request request' => ?_⟩
    · rw [(isWrittenAs_count typed).text, hcolumns, (isWrittenAs_count typed').text]
    · rw [(isWrittenAs_page typed request).text, hcolumns, (isWrittenAs_page typed' request').text]
  rows := by
    refine ⟨fun record record' => ?_, fun row row' => ?_⟩
    · rw [(isWrittenAs_insert record).text, (isWrittenAs_insert record').text]
    · rw [(isWrittenAs_update row).text, (isWrittenAs_update row').text]
  identifiers := by
    refine fun id id' => ⟨?_, ?_⟩
    · rw [(isWrittenAs_find id).text, (isWrittenAs_find id').text]
    · rw [(isWrittenAs_delete id).text, (isWrittenAs_delete id').text]
  sent := sends_templates
  declared := isDeclared_of_mem_templates
  requests := map_text_eq_of_shapeOf_eq
  list_binds := fun _ _ => ⟨rfl, rfl⟩
  row_binds := by
    intro row
    refine ⟨e.map_snd_assignments row.record, ?_⟩
    rw [Entity.updateStatement, Statement.binds, e.map_snd_assignments]
  id_binds := fun _ => ⟨rfl, rfl⟩

end ExchangeCatalog.Sql
