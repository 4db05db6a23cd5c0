import ExchangeCatalog.Proofs.Lists
import ExchangeCatalog.Proofs.Sql.Text

/-!
# The queries that statements ask

The tokens of a statement are read as a query: what to do with which table, under which conditions,
and with which places. Clauses are found by the keywords that begin them and lists by the marks
between their elements; a name is one token, so nothing inside a name is taken for either.

## Main definitions

* `Sql.Query` — the queries, with `Sql.Condition`, `Sql.Assignment` and `Sql.Window`
* `Sql.Query.ofText?` — the query of a text

## Main results

* `Sql.ofText?_count`, `Sql.ofText?_page`, `Sql.ofText?_find`, `Sql.ofText?_insert`,
  `Sql.ofText?_update`, `Sql.ofText?_delete` — the query that each statement asks
-/

namespace ExchangeCatalog.Sql

/-- A column in a relation to the value of a place. -/
structure Condition where
  column : String
  comparison : Comparison
  place : Nat
  deriving DecidableEq, Repr

/-- A column that gets the value of a place. -/
structure Assignment where
  column : String
  place : Nat
  deriving DecidableEq, Repr

/-- The part of the rows that is asked for, in the order of a column. -/
structure Window where
  column : String
  limit : Nat
  offset : Nat
  deriving DecidableEq, Repr

/-- The queries. A write answers with the rows as they are afterwards. -/
inductive Query
  | count (table : String) (conditions : List Condition)
  | select (table : String) (conditions : List Condition) (window : Option Window)
  | insert (table : String) (assignments : List Assignment)
  | update (table : String) (assignments : List Assignment) (conditions : List Condition)
  | delete (table : String) (conditions : List Condition)
  deriving DecidableEq, Repr

/-- The table that a query is about. -/
def Query.table : Query → String
  | count table _ | select table _ _ | insert table _ | update table _ _ | delete table _ => table

/-! ### Reading tokens -/

/-- A condition and nothing else. -/
def Condition.read? : List Token → Option Condition
  | [.name column, .comparison c, .place n] => some ⟨column, c, n⟩
  | _ => none

/-- An assignment and nothing else. -/
def Assignment.read? : List Token → Option Assignment
  | [.name column, .comparison .eq, .place n] => some ⟨column, n⟩
  | _ => none

/-- A name and nothing else. -/
def readName? : List Token → Option String
  | [.name s] => some s
  | _ => none

/-- A place and nothing else. -/
def readPlace? : List Token → Option Nat
  | [.place n] => some n
  | _ => none

/-- One or more conditions. -/
def readConditions? (ts : List Token) : Option (List Condition) :=
  (ts.splitOn (.keyword .and)).mapM Condition.read?

/-- Conditions after their keyword, or nothing. -/
def readWhere? : List Token → Option (List Condition)
  | [] => some []
  | .keyword .where :: ts => readConditions? ts
  | _ => none

/-- The order and the part of the rows, after the keyword `ORDER`. -/
def Window.read? : List Token → Option Window
  | [.keyword .by, .name column, .keyword .limit, .place l, .keyword .offset, .place o] =>
    some ⟨column, l, o⟩
  | _ => none

/-- As many columns as places, each column with its place. -/
def pairUp? (columns : List String) (places : List Nat) : Option (List Assignment) :=
  if columns.length = places.length then some (columns.zipWith Assignment.mk places) else none

namespace Query

/-- The query that asks for rows, given what follows the name of its table. -/
def readSelect? (table : String) (ts : List Token) : Option Query :=
  match ts.splitOn (.keyword .order) with
  | [conditions] => (readWhere? conditions).map fun cs => .select table cs none
  | [conditions, window] => do
    let conditions ← readWhere? conditions
    let window ← Window.read? window
    some (.select table conditions (some window))
  | _ => none

/-- The query that puts in a row, given what follows the opening bracket of its columns. -/
def readInsert? (table : String) (ts : List Token) : Option Query :=
  match ts.splitOn (.mark .closing) with
  | [columns, .keyword .values :: .mark .opening :: places,
      [.keyword .returning, .mark .star]] => do
    let columns ← (columns.splitOn (.mark .comma)).mapM readName?
    let places ← (places.splitOn (.mark .comma)).mapM readPlace?
    some (.insert table (← pairUp? columns places))
  | _ => none

/-- The query that changes rows, given what follows the keyword `SET`. -/
def readUpdate? (table : String) (ts : List Token) : Option Query :=
  match ts.splitOn (.keyword .where) with
  | [assignments, rest] =>
    match rest.splitOn (.keyword .returning) with
    | [conditions, [.mark .star]] => do
      let assignments ← (assignments.splitOn (.mark .comma)).mapM Assignment.read?
      some (.update table assignments (← readConditions? conditions))
    | _ => none
  | _ => none

/-- The query that tokens spell. -/
def read? : List Token → Option Query
  | .keyword .select :: .keyword .count :: .mark .opening :: .mark .star :: .mark .closing ::
      .keyword .from :: .name table :: ts =>
    (readWhere? ts).map fun cs => .count table cs
  | .keyword .select :: .mark .star :: .keyword .from :: .name table :: ts =>
    readSelect? table ts
  | .keyword .insert :: .keyword .into :: .name table :: .mark .opening :: ts =>
    readInsert? table ts
  | .keyword .update :: .name table :: .keyword .set :: ts =>
    readUpdate? table ts
  | .keyword .delete :: .keyword .from :: .name table :: ts =>
    (readWhere? ts).map fun cs => .delete table cs
  | _ => none

/-- The query of a text. -/
def ofText? (text : String) : Option Query := (tokenize? text).bind read?

end Query

/-! ### Lists in tokens -/

section Lists

variable {α β : Type} (sep : Token) {t : Token} {f : α → List Token}

theorem not_mem_intercalate_map (ht : t ≠ sep) (h : ∀ x, t ∉ f x) (xs : List α) :
    t ∉ [sep].intercalate (xs.map f) :=
  not_mem_intercalate ht (List.forall_mem_map.mpr fun x _ => h x)

/-- A list of elements that can be read is read element by element. -/
theorem mapM_splitOn_intercalate {read : List Token → Option β} {g : α → β}
    (hread : ∀ x, read (f x) = some (g x)) (hsep : ∀ x, sep ∉ f x) {xs : List α} (hne : xs ≠ []) :
    (([sep].intercalate (xs.map f)).splitOn sep).mapM read = some (xs.map g) := by
  have hparts : ∀ p ∈ xs.map f, sep ∉ p := List.forall_mem_map.mpr fun x _ => hsep x
  rw [List.splitOn_intercalate sep hparts (mt List.map_eq_nil_iff.mp hne), List.mapM_map]
  exact mapM_eq_some_map fun x _ => hread x

end Lists

/-! ### The query of each statement -/

open Statement

/-- The conditions that filters are written as. -/
def filterConditions (filters : List TypedFilter) : List Condition :=
  filters.zipIdx.map fun (f, i) => ⟨f.column, f.op.comparison, i + 1⟩

/-- The assignments that columns beside values are written as. -/
def valueAssignments (values : List (String × Value)) : List Assignment :=
  values.zipIdx.map fun (v, i) => ⟨v.1, i + 1⟩

theorem not_mem_conditionTokens (column : String) (c : Comparison) (n : Nat) {k : Keyword} :
    .keyword k ∉ conditionTokens column c n := by
  simp [conditionTokens]

theorem readWhere?_whereTokens (filters : List TypedFilter) :
    readWhere? (whereTokens filters) = some (filterConditions filters) := by
  rw [whereTokens]
  split
  · rename_i hempty
    rw [List.isEmpty_iff.mp hempty]
    rfl
  · rename_i hne
    have hfilters : filters.zipIdx ≠ [] := by
      rw [ne_eq, List.zipIdx_eq_nil_iff]
      exact fun hnil => hne (List.isEmpty_iff.mpr hnil)
    have hread : ∀ f : TypedFilter × Nat,
        Condition.read? (conditionTokens f.1.column f.1.op.comparison (f.2 + 1)) =
          some ⟨f.1.column, f.1.op.comparison, f.2 + 1⟩ := fun _ => rfl
    exact mapM_splitOn_intercalate _ hread (fun _ => not_mem_conditionTokens _ _ _) hfilters

theorem order_not_mem_whereTokens (filters : List TypedFilter) :
    .keyword .order ∉ whereTokens filters := by
  rw [whereTokens]
  split
  · exact List.not_mem_nil
  · rw [List.mem_cons, not_or]
    exact ⟨by decide,
      not_mem_intercalate_map _ (by decide) (fun _ => not_mem_conditionTokens _ _ _) _⟩

theorem ofText?_count (table : String) (filters : List TypedFilter) :
    Query.ofText? (Statement.count table filters).text =
      some (.count table (filterConditions filters)) := by
  rw [Query.ofText?, tokenize?_text, Option.bind_some]
  change (readWhere? (whereTokens filters)).map _ = _
  rw [readWhere?_whereTokens]
  rfl

theorem ofText?_page (table : String) (filters : List TypedFilter) (limit offset : Int64) :
    Query.ofText? (Statement.page table filters limit offset).text =
      some (.select table (filterConditions filters)
        (some ⟨"id", filters.length + 1, filters.length + 2⟩)) := by
  rw [Query.ofText?, tokenize?_text, Option.bind_some]
  change Query.readSelect? table (whereTokens filters ++ .keyword .order :: _) = _
  -- The order follows the conditions, none of which has the keyword.
  rw [Query.readSelect?, List.splitOn_append_cons_self_of_not_mem
    (order_not_mem_whereTokens filters), List.splitOn_eq_singleton (by simp)]
  dsimp only
  rw [readWhere?_whereTokens]
  rfl

theorem ofText?_find (table : String) (id : Int64) :
    Query.ofText? (Statement.find table id).text = some (.select table [⟨"id", .eq, 1⟩] none) := by
  rw [Query.ofText?, tokenize?_text, Option.bind_some]
  rfl

theorem ofText?_delete (table : String) (id : Int64) :
    Query.ofText? (Statement.delete table id).text = some (.delete table [⟨"id", .eq, 1⟩]) := by
  rw [Query.ofText?, tokenize?_text, Option.bind_some]
  rfl

theorem map_column_valueAssignments (values : List (String × Value)) :
    (valueAssignments values).map Assignment.column = values.map Prod.fst := by
  have hnames : values.zipIdx.map (Prod.fst ∘ Prod.fst) = values.map Prod.fst := by
    rw [← List.map_map, List.zipIdx_map_fst]
  rw [valueAssignments, List.map_map]
  exact hnames

theorem pairUp?_values (values : List (String × Value)) :
    pairUp? (values.map Prod.fst) (values.zipIdx.map fun v => v.2 + 1) =
      some (valueAssignments values) := by
  rw [pairUp?, if_pos (by rw [List.length_map, List.length_map, List.length_zipIdx]),
    ← map_column_valueAssignments, valueAssignments, List.map_map, List.zipWith_map,
      List.zipWith_self]
  rfl

theorem ofText?_insert (table : String) {values : List (String × Value)} (hne : values ≠ []) :
    Query.ofText? (Statement.insert table values).text =
      some (.insert table (valueAssignments values)) := by
  have hzip : values.zipIdx ≠ [] := mt List.zipIdx_eq_nil_iff.mp hne
  have hname : ∀ v : String × Value, readName? [.name v.1] = some v.1 := fun _ => rfl
  have hplace : ∀ v : (String × Value) × Nat, readPlace? [.place (v.2 + 1)] = some (v.2 + 1) :=
    fun _ => rfl
  have hnames := mapM_splitOn_intercalate (.mark .comma) hname (fun _ => by simp) hne
  have hplaces := mapM_splitOn_intercalate (.mark .comma) hplace (fun _ => by simp) hzip
  -- The brackets that close the two lists are the only ones.
  have hcolumns := not_mem_intercalate_map (.mark .comma)
    (by decide : Token.mark .closing ≠ .mark .comma)
    (fun v : String × Value => (by simp : .mark .closing ∉ [Token.name v.1])) values
  have hrest : ∀ ts : List Token, .mark .closing ∉ ts →
      List.splitOn (.mark .closing) (.keyword .values :: .mark .opening ::
        (ts ++ [.mark .closing, .keyword .returning, .mark .star])) =
        [.keyword .values :: .mark .opening :: ts, [.keyword .returning, .mark .star]] := by
    intro ts hts
    rw [← List.cons_append, ← List.cons_append,
      List.splitOn_append_cons_self_of_not_mem (by simp [hts]), List.splitOn_eq_singleton (by simp)]
  rw [Query.ofText?, tokenize?_text, Option.bind_some]
  dsimp only [tokens]
  simp only [List.append_assoc, List.cons_append, List.nil_append]
  change Query.readInsert? table _ = _
  -- The tokens are cut at the brackets first, then each list at its commas.
  rw [Query.readInsert?, List.splitOn_append_cons_self_of_not_mem hcolumns,
    hrest _ (not_mem_intercalate_map _ (by decide) (fun _ => by simp) _)]
  dsimp only
  rw [hnames, hplaces]
  simp only [Option.bind_eq_bind, Option.bind_some, pairUp?_values]

theorem ofText?_update (table : String) {values : List (String × Value)} (hne : values ≠ [])
    (id : Int64) :
    Query.ofText? (Statement.update table values id).text =
      some (.update table (valueAssignments values) [⟨"id", .eq, values.length + 1⟩]) := by
  have hzip : values.zipIdx ≠ [] := mt List.zipIdx_eq_nil_iff.mp hne
  have hread : ∀ v : (String × Value) × Nat,
      Assignment.read? (conditionTokens v.1.1 .eq (v.2 + 1)) = some ⟨v.1.1, v.2 + 1⟩ :=
    fun _ => rfl
  have hassignments := mapM_splitOn_intercalate (.mark .comma) hread
    (fun _ => by simp [conditionTokens]) hzip
  have hwhere := not_mem_intercalate_map (.mark .comma)
    (by decide : Token.keyword .where ≠ .mark .comma)
    (fun v : (String × Value) × Nat => not_mem_conditionTokens v.1.1 .eq (v.2 + 1)) values.zipIdx
  rw [Query.ofText?, tokenize?_text, Option.bind_some]
  dsimp only [tokens]
  simp only [List.append_assoc, List.cons_append, List.nil_append]
  change Query.readUpdate? table _ = _
  -- The condition follows the assignments and ends with what is returned.
  rw [Query.readUpdate?, List.splitOn_append_cons_self_of_not_mem hwhere,
    List.splitOn_eq_singleton (by simp [conditionTokens])]
  dsimp only
  rw [List.splitOn_append_cons_self_of_not_mem (not_mem_conditionTokens _ _ _),
    List.splitOn_eq_singleton (by simp)]
  dsimp only
  rw [hassignments]
  rfl

end ExchangeCatalog.Sql
