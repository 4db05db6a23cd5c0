import ExchangeCatalog.Proofs.Sql.Query

/-!
# The statements of a list

A list takes two statements, one that counts the rows which pass its filters and one that asks for a
page of them. Both are put together from names that may hold any characters. Read as tokens they
have the same condition, whose places are numbered as the filters are, and the values that go with
the text stand in the order of the places.

## Main definitions

* `Sql.Token.place?` — the number of a place
* `Statement.conjuncts` — the tokens of what each filter asks of a row
* `Statement.pageOf` — the statement for a page of a table
* `ListingAligned` — the two statements of a list side by side

## Main results

* `Statement.places_tokens` — any statement has one place for each of its values, in order
* `Statement.tokenize?_quoteName_append` — no name ends its quoting early
* `toInt_boundedCount` — the bounds of a page as the database takes them
* `listing_aligned` — the statements of any list
-/

namespace ExchangeCatalog

open Sql

/-- The number of a place. -/
def Sql.Token.place? : Token → Option Nat
  | .place n => some n
  | .keyword _ | .name _ | .number _ | .comparison _ | .mark _ => none

namespace Statement

/-! ### Places and values -/

/-- Every filter has one place, in order. -/
theorem places_whereTokens (filters : List TypedFilter) :
    (whereTokens filters).filterMap Token.place? = List.range' 1 filters.length := by
  rw [whereTokens]
  split
  · rename_i hempty
    rw [List.isEmpty_iff.mp hempty]
    rfl
  · rw [List.filterMap_cons_none rfl]
    exact filterMap_intercalate_zipIdx rfl (fun _ => rfl) filters

/-- A statement has one place for each of its values, and they are numbered as they stand. -/
theorem places_tokens (s : Statement) :
    s.tokens.filterMap Token.place? = List.range' 1 s.binds.length := by
  cases s with
  | probe => rfl
  | count table filters =>
    rw [tokens, List.filterMap_append, places_whereTokens, binds, List.length_map]
    rfl
  | page table filters limit offset =>
    rw [tokens, List.filterMap_append, List.filterMap_append, places_whereTokens, binds,
      List.length_append, List.length_map]
    exact range'_one_append_two filters.length
  | find table id => rfl
  | insert table values =>
    -- The names of the columns hold no place, and their values one each.
    have hnames : ([.mark .comma].intercalate (values.map fun v => [.name v.1])).filterMap
        Token.place? = [] := by
      rw [filterMap_intercalate rfl, List.flatMap_map]
      exact List.flatMap_eq_nil_iff.mpr fun _ _ => rfl
    rw [tokens, List.filterMap_append, List.filterMap_append, List.filterMap_append,
      List.filterMap_append, hnames, filterMap_intercalate_zipIdx, binds, List.length_map]
    · exact List.append_nil _
    · rfl
    · exact fun _ => rfl
  | update table values id =>
    rw [tokens, List.filterMap_append, List.filterMap_append, List.filterMap_append,
      List.filterMap_append, filterMap_intercalate_zipIdx, binds, List.length_append,
      List.length_map, List.length_singleton, List.range'_1_concat, Nat.add_comm 1]
    -- The place of the identifier follows those of the columns.
    · simp [List.filterMap_cons, Token.place?, conditionTokens]
    · rfl
    · exact fun _ => rfl
  | delete table id => rfl

/-- So it is in the text as the database reads it. -/
theorem places_text (s : Statement) :
    (tokenize? s.text).map (List.filterMap Token.place?) =
      some (List.range' 1 s.binds.length) := by
  rw [tokenize?_text, Option.map_some, places_tokens]

/-! ### Names -/

/-- A name in its quotes is one token, whatever its characters are: the rest of the text is read as
if it stood alone, as long as it does not begin with a quote itself. -/
theorem tokenize?_quoteName_append (name : String) {rest : String}
    (hrest : rest.toList.head? ≠ some '"') :
    tokenize? (quoteName name ++ rest) = (tokenize? rest).map fun ts => Token.name name :: ts := by
  rw [tokenize?, tokenize?, String.toList_append, quoteName, String.toList_ofList]
  exact (finish_name name [] hrest).trans (finish_tokens [.name name] .between rest.toList)

/-! ### Conditions -/

/-- The tokens of what each filter asks of a row. -/
def conjuncts (filters : List TypedFilter) : List (List Token) :=
  filters.zipIdx.map fun (f, i) => conditionTokens f.column f.op.comparison (i + 1)

theorem whereTokens_of_ne_nil {filters : List TypedFilter} (hne : filters ≠ []) :
    whereTokens filters = .keyword .where :: [.keyword .and].intercalate (conjuncts filters) :=
  if_neg (mt List.isEmpty_iff.mp hne)

theorem getElem?_conjuncts (filters : List TypedFilter) (i : Nat) :
    (conjuncts filters)[i]? =
      filters[i]?.map fun f => [.name f.column, .comparison f.op.comparison, .place (i + 1)] := by
  rw [conjuncts, List.getElem?_map, List.getElem?_zipIdx, Option.map_map, Nat.zero_add]
  rfl

/-- The statement for a page of the rows of a table that pass filters. -/
def pageOf (table : String) (filters : List TypedFilter) (request : PageRequest) : Statement :=
  .page table filters (boundedCount request.limit) (boundedCount request.offset)

end Statement

/-! ### Numbers of rows -/

theorem toInt_boundedCount (n : UInt64) :
    (boundedCount n).toInt = (min n.toNat (0x7FFFFFFFFFFFFFFF) : Nat) := by
  rw [boundedCount]
  split
  · rename_i hn
    have hbits : 2 * n.toBitVec.toNat < 0x10000000000000000 := by
      rw [UInt64.toNat_toBitVec]
      omega
    have hword : n.toInt64.toInt = n.toNat := BitVec.toInt_eq_toNat_of_lt hbits
    omega
  · have hmax : Int64.maxValue.toInt = 0x7FFFFFFFFFFFFFFF := rfl
    omega

theorem toNat_boundedCount (n : UInt64) :
    (boundedCount n).toInt.toNat = min n.toNat (0x7FFFFFFFFFFFFFFF) := by
  rw [toInt_boundedCount, Int.toNat_natCast]

theorem boundedCount_nonneg (n : UInt64) : 0 ≤ (boundedCount n).toInt := by
  rw [toInt_boundedCount]
  exact Int.natCast_nonneg _

open Statement (conjuncts whereTokens pageOf)

/-! ### Both statements -/

/-- The statement that counts rows of a table and the one that asks for a page of them. -/
structure ListingAligned (table : String) (filters : List TypedFilter) (request : PageRequest) :
    Prop where
  /-- They are the statements that a list of an entity with this table sends. -/
  sent : ∀ e : Entity, e.table = table → e.countStatement filters = .count table filters ∧
    e.pageStatement filters request = pageOf table filters request
  /-- The one is read as the words for a count of the table and the condition, -/
  count_tokens : tokenize? (Statement.count table filters).text =
    some ([.keyword .select, .keyword .count, .mark .opening, .mark .star, .mark .closing,
      .keyword .from, .name table] ++ whereTokens filters)
  /-- the other as those for its rows, the same condition, and the words for their order and for
  what part of them is asked for. -/
  page_tokens : tokenize? (pageOf table filters request).text =
    some ([.keyword .select, .mark .star, .keyword .from, .name table] ++ whereTokens filters ++
      [.keyword .order, .keyword .by, .name "id", .keyword .limit, .place (filters.length + 1),
        .keyword .offset, .place (filters.length + 2)])
  /-- There is a condition exactly when there are filters, with one conjunct for each of them, -/
  condition : (filters = [] → whereTokens filters = []) ∧
    (filters ≠ [] →
      whereTokens filters = .keyword .where :: [.keyword .and].intercalate (conjuncts filters)) ∧
    (conjuncts filters).length = filters.length
  /-- which compares the column of the filter to a place, and the filter's value is bound there. -/
  aligned : ∀ i f, filters[i]? = some f →
    (conjuncts filters)[i]? =
        some [Token.name f.column, .comparison f.op.comparison, .place (i + 1)] ∧
      (Statement.count table filters).binds[i]? = some f.value ∧
      (pageOf table filters request).binds[i]? = some f.value
  /-- The places are numbered from one as they stand in the text, and there are as many values. -/
  places : ∀ s ∈ [.count table filters, pageOf table filters request],
    (tokenize? s.text).map (List.filterMap Token.place?) = some (List.range' 1 s.binds.length)
  /-- No values are bound for the count but those of the filters. For the page two bounds follow
  them, which are never negative and are those of the request as far as the database can count. -/
  binds : (Statement.count table filters).binds.length = filters.length ∧
    ∃ limit offset : Int64, (pageOf table filters request).binds =
        (Statement.count table filters).binds ++ [.integer limit, .integer offset] ∧
      (limit.toInt = min (request.limit.toNat : Int) Int64.maxValue.toInt ∧ 0 ≤ limit.toInt) ∧
      offset.toInt = min (request.offset.toNat : Int) Int64.maxValue.toInt ∧ 0 ≤ offset.toInt
  /-- No name ends its quoting early, whatever characters it has and whatever text follows; only a
  quote that follows at once would go on with it. -/
  quoted : ∀ name rest : String, rest.toList.head? ≠ some '"' →
    tokenize? (quoteName name ++ rest) = (tokenize? rest).map fun ts => Token.name name :: ts

/-- The statements of a list are well formed and aligned, whatever the table, the columns and the
values are. -/
theorem listing_aligned (table : String) (filters : List TypedFilter) (request : PageRequest) :
    ListingAligned table filters request where
  sent := by
    rintro e rfl
    exact ⟨rfl, rfl⟩
  count_tokens := Statement.tokenize?_text _
  page_tokens := Statement.tokenize?_text _
  condition := by
    refine ⟨?_, Statement.whereTokens_of_ne_nil, ?_⟩
    · rintro rfl
      rfl
    · rw [conjuncts, List.length_map, List.length_zipIdx]
  aligned i f hf := by
    have hvalue : (filters.map TypedFilter.value)[i]? = some f.value := by
      rw [List.getElem?_map, hf, Option.map_some]
    refine ⟨?_, hvalue, ?_⟩
    · rw [Statement.getElem?_conjuncts, hf, Option.map_some]
    · rw [pageOf, Statement.binds, List.getElem?_append_left, hvalue]
      exact (List.getElem?_eq_some_iff.mp hvalue).1
  places s _ := s.places_text
  binds := by
    have hbound : ∀ n : UInt64, (boundedCount n).toInt =
        min (n.toNat : Int) Int64.maxValue.toInt := by
      intro n
      have hmax : Int64.maxValue.toInt = 0x7FFFFFFFFFFFFFFF := rfl
      rw [toInt_boundedCount, hmax]
      omega
    refine ⟨List.length_map _, _, _, rfl, ⟨hbound _, ?_⟩, hbound _, ?_⟩
    · exact boundedCount_nonneg request.limit
    · exact boundedCount_nonneg request.offset
  quoted name _ hrest := Statement.tokenize?_quoteName_append name hrest

/-- A column that tries to end its quoting, and one that looks like a place. -/
example : tokenize? (quoteName "a\" = $1 OR \"b" ++ " < " ++ quoteName "$1") =
    some [.name "a\" = $1 OR \"b", .comparison .lt, .name "$1"] := by
  decide

end ExchangeCatalog
