import ExchangeCatalog.Proofs.Entity.Body
import ExchangeCatalog.Proofs.Entity.Keys
import ExchangeCatalog.Proofs.Entity.Patch
import ExchangeCatalog.Proofs.Json.Record
import ExchangeCatalog.Proofs.Time.Lenient

/-!
# Reading a row back as a body

The JSON object of a row, as a response shows it, is a body for a new row with the values of the
row, and a body for a change to these values: every value is read as it was written, and the
identifier is a member of no column. This holds of the text of the object as of the object itself.

## Main definitions

* `Row.scalars` — the members of a row's object
* `Row.ReadsBack` — a row's object is a body with the row's own values

## Main results

* `Kind.ofHead_scalar` — a value is read as it was written
* `Row.outline_render_toJson` — the text of a row has the outline of the row's object
* `Row.read_toJson` — what a body rule reads of a row's object
* `Row.readsBack` — every row of an entity with distinct keys reads back
-/

namespace ExchangeCatalog

/-! ### Values -/

namespace Value

/-- A value as a JSON scalar. -/
def scalar : Value → Json.Scalar
  | integer n => .number (.integer n.toInt)
  | text s => .string s
  | boolean b => .bool b
  | timestamp t => .string t.text

theorem toJson_eq_scalar (v : Value) : v.toJson = .scalar v.scalar := by
  cases v with
  | _ => rfl

theorem isExact_scalar (v : Value) : v.scalar.IsExact := by
  cases v with
  | integer n =>
    have hlow := n.le_toInt
    have hhigh := n.toInt_lt
    exact ⟨by omega, Int.lt_trans hhigh (by decide)⟩
  | text s => trivial
  | boolean b => trivial
  | timestamp t => trivial

end Value

namespace Kind

variable {k : Kind}

/-- A value is read as it was written. -/
theorem ofHead_scalar (place : BodyPlace) (x : k.Carrier) :
    k.ofHead place (.scalar (k.value x).scalar) = .ok x := by
  cases k with
  | integer =>
    simp only [ofHead, value, Value.scalar, Decimal.toInt64?_toInt]
  | text => rfl
  | boolean => rfl
  | timestamp =>
    simp only [ofHead, value, Value.scalar, Instant.readLenient_text]
    rfl

/-- So it is where `null` might stand. -/
theorem ofHead?_scalar (place : BodyPlace) (x : k.Carrier) :
    k.ofHead? place (.scalar (k.value x).scalar) = .ok (some x) := by
  have hread : k.ofHead? place (.scalar (k.value x).scalar) =
      (k.ofHead place (.scalar (k.value x).scalar)).map some := by
    cases k with
    | _ => rfl
  rw [hread, ofHead_scalar]
  rfl

end Kind

/-! ### Objects -/

namespace Fields

variable {F : Kind → Type} {cs : List Column}

theorem all_mem_toList {α : Type} (f : (c : Column) → F c.kind → α) (xs : Fields F cs) :
    xs.All fun c x => f c x ∈ xs.toList f := by
  induction xs with
  | nil => trivial
  | cons x xs ih => exact ⟨List.mem_cons_self, ih.imp fun _ _ _ h => List.mem_cons_of_mem _ h⟩

theorem exists_of_mem_toList {α : Type} {f : (c : Column) → F c.kind → α} {xs : Fields F cs} {a : α}
    (h : a ∈ xs.toList f) : ∃ c x, a = f c x := by
  induction xs with
  | nil => cases h
  | @cons c _ x xs ih =>
    rcases List.mem_cons.mp h with rfl | h
    · exact ⟨c, x, rfl⟩
    · exact ih h

theorem map_toList {α β : Type} (g : α → β) (f : (c : Column) → F c.kind → α) (xs : Fields F cs) :
    (xs.toList f).map g = xs.toList fun c x => g (f c x) := by
  induction xs with
  | nil => rfl
  | cons x xs ih => exact congrArg (_ :: ·) ih

theorem toList_column {α : Type} (f : Column → α) (xs : Fields F cs) :
    (xs.toList fun c _ => f c) = cs.map f := by
  induction xs with
  | nil => rfl
  | cons x xs ih => exact congrArg (_ :: ·) ih

end Fields

/-- The member of a column in the object of a row. -/
def Column.scalar (c : Column) (x : c.kind.Carrier) : String × Json.Scalar :=
  (c.key, (c.kind.value x).scalar)

namespace Row

variable {e : Entity}

/-- The members of a row's object. -/
def scalars (r : Row e) : List (String × Json.Scalar) :=
  ("id", .number (.integer r.id.toInt)) :: r.record.toList Column.scalar

theorem toJson_eq_flat (r : Row e) : r.toJson = .flat r.scalars := by
  rw [toJson, Json.flat, scalars, List.map_cons, Fields.map_toList, Record.members]
  simp only [Value.toJson_eq_scalar, Column.scalar]
  rfl

theorem map_fst_scalars (r : Row e) : r.scalars.map Prod.fst = e.fields.map Column.key := by
  have hid : Column.id.key = "id" := by decide
  have hkeys : (r.record.toList fun c x => (c.scalar x).1) = e.columns.map Column.key :=
    Fields.toList_column Column.key r.record
  rw [scalars, List.map_cons, Fields.map_toList, hkeys, Entity.fields, List.map_cons, hid]

theorem isExact_of_mem_scalars (r : Row e) : ∀ m ∈ r.scalars, m.2.IsExact := by
  intro m hm
  rcases List.mem_cons.mp hm with rfl | hm
  · exact (Value.integer r.id).isExact_scalar
  · obtain ⟨c, x, rfl⟩ := Fields.exists_of_mem_toList hm
    exact (c.kind.value x).isExact_scalar

/-- The text of a row has the outline of the row's object. -/
theorem outline_render_toJson (r : Row e) :
    Json.outline (Utf8.encode r.toJson.render) = r.toJson.toOutline := by
  rw [toJson_eq_flat, Json.outline_render_flat r.isExact_of_mem_scalars]

/-- The members of a row's object as a reader of bodies meets them. -/
def items (r : Row e) : List (String × Json.Item) :=
  r.scalars.map fun m => (m.1, ⟨.scalar m.2, true⟩)

theorem toOutline_toJson (r : Row e) : r.toJson.toOutline = ⟨.object r.items true, true⟩ := by
  rw [toJson_eq_flat, Json.flat, Json.toOutline, List.map_map, items]
  rfl

/-- Each column has one member in a row's object, with the value of the row. -/
theorem valuesOf_scalars (hkeys : e.HasDistinctKeys) (r : Row e) :
    r.record.All fun c x => Json.valuesOf c.key r.scalars = [(c.kind.value x).scalar] :=
  (Fields.all_mem_toList Column.scalar r.record).imp fun _ _ _ hmem =>
    Json.valuesOf_of_mem (r.map_fst_scalars.symm ▸ hkeys) (List.mem_cons_of_mem _ hmem)

/-- What a rule reads of a row's object, in the text of a response or as a value. -/
theorem read_toJson {F : Kind → Type} (rule : BodyRule F) {vs : (k : Kind) → k.Carrier → F k}
    (hkeys : e.HasDistinctKeys)
    (hread : ∀ k place (x : k.Carrier),
      rule.entry k place (.scalar (k.value x).scalar) = .ok (vs k x))
    (r : Row e) :
    rule.read .text e.columns (Json.outline (Utf8.encode r.toJson.render)) =
        .ok (r.record.map vs) ∧
      rule.read .value e.columns r.toJson.sorted.toOutline = .ok (r.record.map vs) := by
  -- It is enough that the one member of a name is found under this name.
  have hgathers : ∀ items : List (String × Json.Item),
      (∀ name s, Json.valuesOf name r.scalars = [s] →
        Json.valuesOf name items = [⟨.scalar s, true⟩]) →
      rule.Gathers items (r.record.map vs) := by
    intro items hitems
    refine Fields.all_map_iff.mpr ((r.valuesOf_scalars hkeys).imp fun c _ x hvalues => ?_)
    exact ⟨some _, hitems _ _ hvalues, .given (hread c.kind _ x)⟩
  constructor
  · rw [outline_render_toJson, toOutline_toJson, BodyRule.read_object_iff hkeys.nodup]
    refine ⟨rfl, rfl, ?_, hgathers _ fun name s hvalues => ?_⟩
    · intro m hm _
      obtain ⟨m, -, rfl⟩ := List.mem_map.mp hm
      rfl
    · rw [items, Json.valuesOf_map name (fun s => (⟨.scalar s, true⟩ : Json.Item)), hvalues]
      rfl
  · have hflat : r.toJson = .object (r.scalars.map fun m => (m.1, .scalar m.2)) := r.toJson_eq_flat
    obtain ⟨items, hsorted, hcomplete, hitems⟩ :=
      Json.toOutline_sorted_object (r.scalars.map fun m => (m.1, .scalar m.2))
    rw [hflat, hsorted, BodyRule.read_object_iff hkeys.nodup]
    refine ⟨rfl, rfl, fun m hm _ => hcomplete m hm, hgathers _ fun name s hvalues => ?_⟩
    rw [hitems, Json.get?_object, Json.valuesOf_map, hvalues]
    rfl

end Row

/-! ### Bodies for new rows and for changes -/

namespace Row

variable {e : Entity}

/-- The object of a row is a body with the row's own values, as the text of a response and as a
value. -/
structure ReadsBack (r : Row e) : Prop where
  /-- The new row that the text describes, under the row's identifier. -/
  created : (e.readRecord (Utf8.encode r.toJson.render)).map (mk r.id) = .ok r
  /-- The new row that the value describes. -/
  created_value : (e.createOfJson r.toJson).map (mk r.id) = .ok r
  /-- Text and value ask for one change, after which any row has this row's values. -/
  patched : ∃ changes, e.readPatch (Utf8.encode r.toJson.render) = .ok changes ∧
    e.patchOfJson r.toJson = .ok changes ∧
    ∀ old : Row e, old.applyPatch changes = { old with record := r.record }

variable (hkeys : e.HasDistinctKeys) (r : Row e)
include hkeys

theorem readRecord_toJson : e.readRecord (Utf8.encode r.toJson.render) = .ok r.record := by
  have hread := (r.read_toJson e.createRule hkeys fun _ place x => Kind.ofHead_scalar place x).1
  rwa [Record.map_id] at hread

theorem createOfJson_toJson : e.createOfJson r.toJson = .ok r.record := by
  have hread := (r.read_toJson e.createRule hkeys fun _ place x => Kind.ofHead_scalar place x).2
  rwa [Record.map_id] at hread

theorem readPatch_toJson :
    e.readPatch (Utf8.encode r.toJson.render) = .ok (r.record.map fun _ => some) :=
  (r.read_toJson e.patchRule hkeys fun _ place x => Kind.ofHead?_scalar place x).1

theorem patchOfJson_toJson : e.patchOfJson r.toJson = .ok (r.record.map fun _ => some) :=
  (r.read_toJson e.patchRule hkeys fun _ place x => Kind.ofHead?_scalar place x).2

/-- Every row of an entity with distinct keys reads back. -/
theorem readsBack : r.ReadsBack where
  created := by
    rw [readRecord_toJson hkeys]
    rfl
  created_value := by
    rw [createOfJson_toJson hkeys]
    rfl
  patched := by
    refine ⟨_, r.readPatch_toJson hkeys, r.patchOfJson_toJson hkeys, ?_⟩
    intro old
    rw [applyPatch, Record.applyPatch_map_some]

end Row

end ExchangeCatalog
