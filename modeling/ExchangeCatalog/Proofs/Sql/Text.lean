import ExchangeCatalog.Proofs.Sql.Token
import ExchangeCatalog.Sql.Statement

/-!
# The tokens of the statements

The text of each statement is read as the tokens that it was written as: no name ends its quoting
early, and no two tokens run together, whatever the names of tables and columns are.

## Main definitions

* `Statement.tokens` — the tokens that a statement is written as

## Main results

* `Statement.tokenize?_text` — the text of a statement is read as its tokens
-/

namespace ExchangeCatalog

open Sql

/-- The comparison that an operator is written as. -/
def Operator.comparison : Operator → Comparison
  | equal => .eq
  | lessThan => .lt
  | lessThanOrEqual => .le
  | greaterThan => .gt
  | greaterThanOrEqual => .ge

namespace Statement

/-! ### Tokens -/

/-- The tokens of a column in a relation to a numbered place. -/
def conditionTokens (column : String) (c : Comparison) (n : Nat) : List Token :=
  [.name column, .comparison c, .place n]

/-- The tokens of the condition that each filter passes. -/
def whereTokens (filters : List TypedFilter) : List Token :=
  if filters.isEmpty then []
  else .keyword .where :: [.keyword .and].intercalate
    (filters.zipIdx.map fun (f, i) => conditionTokens f.column f.op.comparison (i + 1))

/-- The tokens of a statement. -/
def tokens : Statement → List Token
  | probe => [.keyword .select, .number 1]
  | count table filters =>
    [.keyword .select, .keyword .count, .mark .opening, .mark .star, .mark .closing, .keyword .from,
      .name table] ++ whereTokens filters
  | page table filters _ _ =>
    [.keyword .select, .mark .star, .keyword .from, .name table] ++ whereTokens filters ++
      [.keyword .order, .keyword .by, .name "id", .keyword .limit, .place (filters.length + 1),
        .keyword .offset, .place (filters.length + 2)]
  | find table _ =>
    [.keyword .select, .mark .star, .keyword .from, .name table, .keyword .where] ++
      conditionTokens "id" .eq 1
  | insert table values =>
    [.keyword .insert, .keyword .into, .name table, .mark .opening] ++
      [.mark .comma].intercalate (values.map fun v => [.name v.1]) ++
      [.mark .closing, .keyword .values, .mark .opening] ++
      [.mark .comma].intercalate (values.zipIdx.map fun (_, i) => [.place (i + 1)]) ++
      [.mark .closing, .keyword .returning, .mark .star]
  | update table values _ =>
    [.keyword .update, .name table, .keyword .set] ++
      [.mark .comma].intercalate
        (values.zipIdx.map fun (v, i) => conditionTokens v.1 .eq (i + 1)) ++
      [.keyword .where] ++ conditionTokens "id" .eq (values.length + 1) ++
      [.keyword .returning, .mark .star]
  | delete table _ =>
    [.keyword .delete, .keyword .from, .name table, .keyword .where] ++ conditionTokens "id" .eq 1

/-! ### Pieces of the text -/

theorem spells_quoteName (name : String) : Spells (quoteName name).toList [.name name] := by
  rw [quoteName, String.toList_ofList]
  exact spells_name name

theorem spells_placeText (n : Nat) : Spells (placeText n).toList [.place n] := by
  simp only [placeText, String.toList_append, String.toList_ofList]
  exact spells_place n

theorem spells_sql (op : Operator) : Spells op.sql.toList [.comparison op.comparison] := by
  cases op
  all_goals exact spells_comparison rfl fun _ _ => rfl

theorem separates_space (cs : List Char) : Separates (" ".toList ++ cs) :=
  separates_cons isBoundary_space cs

theorem closed_space : Closed " ".toList [] := fun _ _ => rfl

theorem spells_condition (column : String) (op : Operator) (n : Nat) :
    Spells (condition column op.sql n).toList (conditionTokens column op.comparison n) := by
  have hplace := closed_space.append_spells (spells_placeText n)
  have hop := closed_space.append_spells ((spells_sql op).append hplace (separates_space _))
  have hcondition := (spells_quoteName column).append hop (separates_space _)
  simp only [condition, String.toList_append, List.append_assoc]
  exact hcondition

theorem separates_whereClause (filters : List TypedFilter) :
    Separates (whereClause filters).toList := by
  rw [whereClause]
  split
  · exact separates_nil
  · rw [String.toList_append]
    exact separates_cons isBoundary_space _

theorem spells_whereClause (filters : List TypedFilter) :
    Spells (whereClause filters).toList (whereTokens filters) := by
  rw [whereClause, whereTokens]
  split
  · exact spells_nil
  · have hand : Closed " AND ".toList [.keyword .and] := fun _ _ => rfl
    have hwhere : Closed " WHERE ".toList [.keyword .where] := fun _ _ => rfl
    have hconditions := Spells.intercalate hand (separates_cons isBoundary_space _)
      (List.cons_ne_nil _ _)
      (fun f (_ : f ∈ filters.zipIdx) => spells_condition f.1.column f.1.op (f.2 + 1))
    rw [String.toList_append, String.toList_intercalate, List.map_map]
    exact hwhere.append_spells hconditions

/-! ### Whole texts -/

/-- A list between commas is read as the tokens of its elements between commas. -/
theorem spells_list {α : Type} {f : α → String} {g : α → List Token} (xs : List α)
    (h : ∀ x, Spells (f x).toList (g x)) :
    Spells (", ".intercalate (xs.map f)).toList ([.mark .comma].intercalate (xs.map g)) := by
  have hcomma : Closed ", ".toList [.mark .comma] := fun _ _ => rfl
  rw [String.toList_intercalate, List.map_map]
  exact Spells.intercalate hcomma (separates_cons isBoundary_comma _) (List.cons_ne_nil _ _)
    fun x _ => h x

theorem spells_names (values : List (String × Value)) :
    Spells (", ".intercalate (values.map fun v => quoteName v.1)).toList
      ([.mark .comma].intercalate (values.map fun v => [.name v.1])) :=
  spells_list values fun v => spells_quoteName v.1

theorem spells_places (values : List (String × Value)) :
    Spells (", ".intercalate (values.zipIdx.map fun (_, i) => placeText (i + 1))).toList
      ([.mark .comma].intercalate (values.zipIdx.map fun (_, i) => [.place (i + 1)])) :=
  spells_list values.zipIdx fun v => spells_placeText (v.2 + 1)

theorem spells_assignments (values : List (String × Value)) :
    Spells (", ".intercalate (values.zipIdx.map fun (v, i) => condition v.1 "=" (i + 1))).toList
      ([.mark .comma].intercalate
        (values.zipIdx.map fun (v, i) => conditionTokens v.1 .eq (i + 1))) :=
  spells_list values.zipIdx fun v => spells_condition v.1.1 .equal (v.2 + 1)

theorem separates_where (cs : List Char) : Separates (" WHERE ".toList ++ cs) :=
  separates_cons isBoundary_space _

/-- The condition on the row's identifier. -/
theorem spells_whereId (n : Nat) :
    Spells (" WHERE ".toList ++ (condition "id" "=" n).toList)
      (.keyword .where :: conditionTokens "id" .eq n) :=
  have hwhere : Closed " WHERE ".toList [.keyword .where] := fun _ _ => rfl
  hwhere.append_spells (spells_condition "id" .equal n)

theorem closed_selectAll :
    Closed "SELECT * FROM ".toList [.keyword .select, .mark .star, .keyword .from] :=
  fun _ _ => rfl

variable (table : String) (filters : List TypedFilter) (values : List (String × Value))

theorem spells_probe : Spells probe.text.toList probe.tokens := by
  have hhead : Closed "SELECT ".toList [.keyword .select] := fun _ _ => rfl
  exact hhead.append_spells spells_number_one

theorem spells_count : Spells (count table filters).text.toList (count table filters).tokens := by
  have hhead : Closed "SELECT COUNT(*) FROM ".toList
    [.keyword .select, .keyword .count, .mark .opening, .mark .star, .mark .closing,
      .keyword .from] := fun _ _ => rfl
  have htext := hhead.append_spells
    ((spells_quoteName table).append (spells_whereClause filters) (separates_whereClause filters))
  dsimp only [text, tokens]
  simp only [String.toList_append, List.append_assoc]
  exact htext

theorem spells_page (limit offset : Int64) :
    Spells (page table filters limit offset).text.toList
      (page table filters limit offset).tokens := by
  have hlimit : Closed " ORDER BY \"id\" LIMIT ".toList
    [.keyword .order, .keyword .by, .name "id", .keyword .limit] := fun _ _ => rfl
  have hoffset : Closed " OFFSET ".toList [.keyword .offset] := fun _ _ => rfl
  have htail := hlimit.append_spells ((spells_placeText (filters.length + 1)).append
    (hoffset.append_spells (spells_placeText (filters.length + 2)))
      (separates_cons isBoundary_space _))
  have htext := closed_selectAll.append_spells ((spells_quoteName table).append
    ((spells_whereClause filters).append htail (separates_cons isBoundary_space _))
    ((separates_whereClause filters).append (separates_cons isBoundary_space _)))
  dsimp only [text, tokens]
  simp only [String.toList_append, List.append_assoc]
  exact htext

theorem spells_find (id : Int64) : Spells (find table id).text.toList (find table id).tokens := by
  have htext := closed_selectAll.append_spells
    ((spells_quoteName table).append (spells_whereId 1) (separates_where _))
  dsimp only [text, tokens]
  simp only [String.toList_append, List.append_assoc]
  exact htext

theorem spells_insert : Spells (insert table values).text.toList (insert table values).tokens := by
  have hhead : Closed "INSERT INTO ".toList [.keyword .insert, .keyword .into] := fun _ _ => rfl
  have hopen : Closed " (".toList [.mark .opening] := fun _ _ => rfl
  have hvalues : Closed ") VALUES (".toList [.mark .closing, .keyword .values, .mark .opening] :=
    fun _ _ => rfl
  have hclose : Spells ") RETURNING *".toList
      [.mark .closing, .keyword .returning, .mark .star] :=
    Closed.spells fun _ _ => rfl
  have hplaces := (spells_places values).append hclose
    (separates_cons isBoundary_closing _)
  have hnames := (spells_names values).append (hvalues.append_spells hplaces)
    (separates_cons isBoundary_closing _)
  have htext := hhead.append_spells ((spells_quoteName table).append (hopen.append_spells hnames)
    (separates_cons isBoundary_space _))
  dsimp only [text, tokens]
  simp only [String.toList_append, List.append_assoc]
  exact htext

theorem spells_update (id : Int64) :
    Spells (update table values id).text.toList (update table values id).tokens := by
  have hhead : Closed "UPDATE ".toList [.keyword .update] := fun _ _ => rfl
  have hset : Closed " SET ".toList [.keyword .set] := fun _ _ => rfl
  have hreturning : Spells " RETURNING *".toList [.keyword .returning, .mark .star] :=
    Closed.spells fun _ _ => rfl
  have hwhere := (spells_whereId (values.length + 1)).append hreturning
    (separates_cons isBoundary_space _)
  have hassignments := hset.append_spells
    ((spells_assignments values).append hwhere (separates_where _))
  have htext := hhead.append_spells ((spells_quoteName table).append hassignments
    (separates_cons isBoundary_space _))
  dsimp only [text, tokens]
  simp only [String.toList_append, List.append_assoc]
  exact htext

theorem spells_delete (id : Int64) :
    Spells (delete table id).text.toList (delete table id).tokens := by
  have hhead : Closed "DELETE FROM ".toList [.keyword .delete, .keyword .from] := fun _ _ => rfl
  have htext := hhead.append_spells
    ((spells_quoteName table).append (spells_whereId 1) (separates_where _))
  dsimp only [text, tokens]
  simp only [String.toList_append, List.append_assoc]
  exact htext

/-- The text of a statement is read as its tokens. -/
theorem tokenize?_text (s : Statement) : tokenize? s.text = some s.tokens := by
  refine tokenize?_of_spells ?_
  cases s with
  | probe => exact spells_probe
  | count table filters => exact spells_count table filters
  | page table filters limit offset => exact spells_page table filters limit offset
  | find table id => exact spells_find table id
  | insert table values => exact spells_insert table values
  | update table values id => exact spells_update table values id
  | delete table id => exact spells_delete table id

end Statement

end ExchangeCatalog
