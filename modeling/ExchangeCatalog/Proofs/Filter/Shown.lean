import ExchangeCatalog.Catalog
import ExchangeCatalog.Json.Printer
import ExchangeCatalog.Proofs.Filter.Registry
import ExchangeCatalog.Proofs.Page.Window
import ExchangeCatalog.Proofs.Service.Operation
import ExchangeCatalog.Proofs.Text.Numeral
import ExchangeCatalog.Proofs.Time.Text

/-!
# Values as they are shown

A client sees a row's values in a response and may put one of them into a filter. Writer and reader
are different code: a value is written as JSON, and its text is read by the kind of the column. The
two agree, so a row is found by each of its values, with one exception. An instant before the year
zero or after the year 9999 is shown with a signed year, and a filter that names such an instant is
refused.

## Main definitions

* `Value.shown` — the text of a value in a response
* `Value.IsNameable` — a filter can name the value
* `FoundByValue` — what becomes of a list request for a row's own value

## Main results

* `Value.read?_shown`, `Value.read?_shown_eq_none` — the text of a value read back
* `rows_found_by_values` — every row is found by each of its values that a filter can name
-/

namespace ExchangeCatalog

/-! ### Values -/

namespace Value

/-- The text of a value in a response: a string without its quotes, anything else as it stands. -/
def shown (v : Value) : String :=
  match v.toJson with
  | .scalar (.string s) => s
  | j => j.render

/-- A filter can name the value. -/
def IsNameable : Value → Prop
  | timestamp t => t.HasPlainYear
  | _ => True

instance : (v : Value) → Decidable v.IsNameable
  | timestamp t => inferInstanceAs (Decidable t.HasPlainYear)
  | integer _ | text _ | boolean _ => isTrue trivial

theorem shown_integer (n : Int64) : (integer n).shown = String.ofList (Decimal.ofInt n.toInt) := rfl

theorem shown_timestamp (t : Instant) : (timestamp t).shown = t.text := rfl

/-- The text of a value is read as the value. -/
theorem read?_shown {v : Value} (h : v.IsNameable) : read? v.kind v.shown = some v := by
  cases v with
  | integer n =>
    rw [shown_integer, read?, kind, Kind.read?, String.toList_ofList, Decimal.trim_ofInt,
      Decimal.int64?_ofInt]
    rfl
  | text s => rfl
  | boolean b =>
    cases b with
    | false => decide
    | true => decide
  | timestamp t =>
    rw [shown_timestamp, read?, kind, Kind.read?, Instant.trim_text, Instant.read?_text h]
    rfl

/-- The text of an instant with a signed year is refused. -/
theorem read?_shown_eq_none {v : Value} (h : ¬ v.IsNameable) :
    v.kind = .timestamp ∧ read? v.kind v.shown = none := by
  cases v with
  | timestamp t =>
    rw [shown_timestamp, read?, kind, Kind.read?, Instant.trim_text, Instant.read?_text_eq_none h]
    exact ⟨rfl, rfl⟩
  | integer n => exact absurd trivial h
  | text s => exact absurd trivial h
  | boolean b => exact absurd trivial h

/-- A value is neither before nor after itself. -/
theorem compare?_self (v : Value) : v.compare? v = some .eq := by
  cases v with
  | integer n => exact congrArg some Std.ReflCmp.compare_self
  | text s => exact congrArg some Std.ReflCmp.compare_self
  | boolean b => exact congrArg some Std.ReflCmp.compare_self
  | timestamp t =>
    have hday : Ord.compare t.day t.day = .eq := Std.ReflCmp.compare_self
    have hsecond : Ord.compare t.second t.second = .eq := Std.ReflCmp.compare_self
    have hnano : Ord.compare t.nano t.nano = .eq := Std.ReflCmp.compare_self
    rw [compare?, Instant.compare, hday, hsecond, hnano]
    rfl

end Value

/-! ### Columns -/

/-- A record has a value under the name of each column, of the column's kind, and shows it under the
column's key. -/
theorem Record.exists_valueOf? {cs : List Column} (r : Record cs) {c : Column} (hc : c ∈ cs)
    (hnodup : (cs.map Column.name).Nodup) :
    ∃ v, r.valueOf? c.name = some v ∧ v.kind = c.kind ∧ (c.key, v.toJson) ∈ r.members := by
  induction r with
  | nil => exact absurd hc List.not_mem_nil
  | @cons d cs x xs ih =>
    rw [List.map_cons, List.nodup_cons] at hnodup
    rcases List.mem_cons.mp hc with rfl | hc
    · exact ⟨c.kind.value x, if_pos rfl, Kind.kind_value _ _, List.mem_cons_self⟩
    · obtain ⟨v, hv, hkind, hmem⟩ := ih hc hnodup.2
      have hname : d.name ≠ c.name := fun h =>
        hnodup.1 (h ▸ List.mem_map_of_mem hc)
      exact ⟨v, (if_neg hname).trans hv, hkind, List.mem_cons_of_mem _ hmem⟩

variable {e : Entity} {c : Column} {name : String}

/-- The members of the object that shows a row. -/
def Row.members (r : Row e) : List (String × Json) :=
  ("id", .integer r.id.toInt) :: r.record.members

theorem Row.toJson_eq (r : Row e) : r.toJson = .object r.members := rfl

/-- A row has a value under the name of each field, the identifier included, and shows it. -/
theorem Row.exists_valueOf? (r : Row e) (hc : c ∈ e.fields) :
    ∃ v, r.valueOf? c.name = some v ∧ v.kind = c.kind ∧ (c.key, v.toJson) ∈ r.members := by
  have hnodup := List.nodup_cons.mp e.names_nodup
  rcases List.mem_cons.mp hc with rfl | hc
  · exact ⟨.integer r.id, if_pos rfl, rfl, List.mem_cons_self⟩
  · obtain ⟨v, hv, hkind, hmem⟩ := r.record.exists_valueOf? hc hnodup.2
    have hname : c.name ≠ "id" := by
      intro h
      have hmap : c.name ∈ e.columns.map Column.name := List.mem_map_of_mem hc
      rw [h] at hmap
      exact hnodup.1 hmap
    exact ⟨v, (if_neg hname).trans hv, hkind, List.mem_cons_of_mem _ hmem⟩

/-! ### Lists -/

/-- A single predicate is kept and its value read. -/
theorem typedFilters_retain_singleton (hc : e.resolve? name = some c) (op : Operator)
    (raw : String) :
    typedFilters (e.retain [⟨name, op, raw⟩]) =
      match Value.read? c.kind raw with
      | some v => .ok [⟨c.name, op, v⟩]
      | none => .error (.invalidFilter c.kind raw c.name) := by
  have hretain : e.retain [⟨name, op, raw⟩] = [⟨c, op, raw⟩] := by
    simp only [Entity.retain, List.filterMap_cons, hc, Option.map_some, List.filterMap_nil]
  rw [hretain, typedFilters, RetainedFilter.typed]
  cases Value.read? c.kind raw with
  | none => rfl
  | some v => rfl

/-- What becomes of a list request for a value of a row, under a name that a filter may use. -/
structure FoundByValue (s : MemoryStore e) (r : Row e) (name : String) (c : Column) (v : Value) :
    Prop where
  /-- It is the value of the column, -/
  value : r.valueOf? c.name = some v ∧ v.kind = c.kind
  /-- and it stands in the object that shows the row. -/
  shown : ∃ members, r.toJson = .object members ∧ (c.key, v.toJson) ∈ members
  /-- A request for rows with this value, or with this value at most or at least, is answered, and
  the row is one of those that are found. -/
  found : v.IsNameable → ∀ op ∈ [Operator.equal, .greaterThanOrEqual, .lessThanOrEqual],
    ∃ filters, typedFilters (e.retain [⟨name, op, v.shown⟩]) = .ok filters ∧
      r ∈ matchingRows s.table filters ∧
      ∀ request, (Service.serve (.list [⟨name, op, v.shown⟩] request) s).1 =
        .ok (MemoryStore.selectPage s.table filters request)
  /-- Only an instant with a signed year cannot be asked for. -/
  refused : ¬ v.IsNameable → ∀ op request,
    (Service.serve (.list [⟨name, op, v.shown⟩] request) s).1 =
      .error (.invalidFilter .timestamp v.shown c.name)

/-- Every row of a store is found by each of its values that a filter can name. -/
theorem rows_found_by_values (s : MemoryStore e) (hc : e.resolve? name = some c) {r : Row e}
    (hr : r ∈ s.table.rows) : ∃ v, FoundByValue s r name c v := by
  obtain ⟨v, hv, hkind, hmem⟩ := r.exists_valueOf? (Entity.mem_fields_of_resolve? hc)
  refine ⟨v, ⟨hv, hkind⟩, ⟨_, r.toJson_eq, hmem⟩, fun hname op hop => ?_,
    fun hname op request => ?_⟩
  · have hfilters : typedFilters (e.retain [⟨name, op, v.shown⟩]) = .ok [⟨c.name, op, v⟩] := by
      rw [typedFilters_retain_singleton hc, ← hkind, Value.read?_shown hname]
    have haccepts : TypedFilter.accepts ⟨c.name, op, v⟩ r = op.accepts .eq := by
      rw [TypedFilter.accepts, hv, Option.bind_some, v.compare?_self]
    refine ⟨_, hfilters, List.mem_filter.mpr ⟨hr, ?_⟩, fun request => ?_⟩
    · rw [passes, List.all_cons, List.all_nil, Bool.and_true, haccepts]
      simp only [List.mem_cons, List.not_mem_nil, or_false] at hop
      rcases hop with rfl | rfl | rfl
      all_goals rfl
    · rw [Service.serve_list, hfilters]
      rfl
  · obtain ⟨htimestamp, hread⟩ := Value.read?_shown_eq_none hname
    rw [Service.serve_list, typedFilters_retain_singleton hc, ← hkind, hread, htimestamp]
    rfl

/-- The body of a report of a sale, with the text of its date. -/
def reportBody (date : String) : List UInt8 :=
  Utf8.encode ("[1,1,1,1,1,1,1,1,\"v\",1,1,1,\"v\",1,\"b\",\"2024-01-01T00:00:00Z\",\"m\",\"s\"," ++
    "\"t\",\"" ++ date ++ "\",\"v\",\"v\"]")

/-- The store after a first report. -/
def reportStore (record : Record Catalog.report.columns) : MemoryStore Catalog.report :=
  (Service.serve (.create record) .empty).2

theorem exists_report (date : String) {named : Bool} {text : String}
    (h : ((Catalog.report.readRecord (reportBody date)).toOption.bind
      fun record => record.valueOf? "trade_date").map (fun v => (decide v.IsNameable, v.shown)) =
        some (named, text)) :
    ∃ record v, Catalog.report.readRecord (reportBody date) = .ok record ∧
      record.valueOf? "trade_date" = some v ∧ decide v.IsNameable = named ∧ v.shown = text := by
  obtain ⟨v, hv, hshown⟩ := Option.map_eq_some_iff.mp h
  obtain ⟨record, hrecord, hvalue⟩ := Option.bind_eq_some_iff.mp hv
  cases hread : Catalog.report.readRecord (reportBody date) with
  | error fault =>
    rw [hread] at hrecord
    cases hrecord
  | ok other =>
    rw [hread] at hrecord
    cases hrecord
    exact ⟨record, v, rfl, hvalue, (Prod.mk.inj hshown).1, (Prod.mk.inj hshown).2⟩

/-- A sale in the last second of the year 9999, a leap second. -/
theorem leapReport_found :
    ∃ record, Catalog.report.readRecord (reportBody "9999-12-31T23:59:60.5Z") = .ok record ∧
      Catalog.report.resolve? "trade_date" = some ⟨"trade_date", .timestamp⟩ ∧
      (⟨1, record⟩ : Row Catalog.report) ∈ (reportStore record).table.rows ∧
      ∃ v, FoundByValue (reportStore record) ⟨1, record⟩ "trade_date" ⟨"trade_date", .timestamp⟩ v ∧
        v.IsNameable ∧ v.shown = "9999-12-31T23:59:60.500Z" := by
  obtain ⟨record, v, hread, hvalue, hnamed, hshown⟩ :=
    exists_report "9999-12-31T23:59:60.5Z"
      (show _ = some (true, "9999-12-31T23:59:60.500Z") by decide +kernel)
  obtain ⟨w, hfound⟩ := rows_found_by_values (reportStore record)
    (show Catalog.report.resolve? "trade_date" = some ⟨"trade_date", .timestamp⟩ from rfl)
    (show ⟨1, record⟩ ∈ (reportStore record).table.rows from List.mem_cons_self)
  obtain rfl : v = w := Option.some.inj (hvalue.symm.trans hfound.value.1)
  exact ⟨record, hread, rfl, List.mem_cons_self, v, hfound, of_decide_eq_true hnamed, hshown⟩

/-- A report of a sale after the year 9999 is not found by the date that it shows. -/
theorem lateReport_refused :
    ∃ record, Catalog.report.readRecord (reportBody "+10000-01-01T00:00:00Z") = .ok record ∧
      Catalog.report.resolve? "trade_date" = some ⟨"trade_date", .timestamp⟩ ∧
      (⟨1, record⟩ : Row Catalog.report) ∈ (reportStore record).table.rows ∧
      (∃ v, record.valueOf? "trade_date" = some v ∧ v.shown = "+10000-01-01T00:00:00Z") ∧
      ∀ request, (Service.serve (.list [⟨"trade_date", .equal, "+10000-01-01T00:00:00Z"⟩] request)
          (reportStore record)).1 =
        .error (.invalidFilter .timestamp "+10000-01-01T00:00:00Z" "trade_date") := by
  obtain ⟨record, v, hread, hvalue, -, hshown⟩ :=
    exists_report "+10000-01-01T00:00:00Z"
      (show _ = some (false, "+10000-01-01T00:00:00Z") by decide +kernel)
  have hrefused : typedFilters
      (Catalog.report.retain [⟨"trade_date", .equal, "+10000-01-01T00:00:00Z"⟩]) =
        .error (.invalidFilter .timestamp "+10000-01-01T00:00:00Z" "trade_date") := by
    decide +kernel
  refine ⟨record, hread, rfl, List.mem_cons_self, ⟨v, hvalue, hshown⟩, fun request => ?_⟩
  rw [Service.serve_list, hrefused]
  rfl

end ExchangeCatalog
