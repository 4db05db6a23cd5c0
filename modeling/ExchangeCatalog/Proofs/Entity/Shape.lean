import ExchangeCatalog.Proofs.Entity.Body
import ExchangeCatalog.Proofs.Entity.Keys
import ExchangeCatalog.Proofs.Entity.Patch
import ExchangeCatalog.Proofs.Json.Outline
import ExchangeCatalog.Proofs.Text.Decimal

/-!
# The shapes of bodies

A body for a new row is an object with a value of the right kind under the key of every column, or
an array of just as many such values in the order of the columns. A body for a change is an object
in which any of the keys may be missing or have `null`, or an array that may end early and may hold
`null`. There are no other bodies, and each value goes to its own column.

A text may have several members of one key, and then it is no body if a column has the key; of a
value that has been read already the last member of a key counts.

## Main definitions

* `Kind.Denotes`, `Kind.Accepts` — a JSON value stands for a value of a kind
* `Kind.Changes` — what is given for a column, or not given, stands for a change of it
* `Entity.RecordOf`, `Entity.PatchOf` — the values that a body of the right shape has
* `Entity.DecodesByShape` — bodies are read exactly when they have the right shape

## Main results

* `BodyRule.read_value_iff`, `BodyRule.read_text_iff` — what a rule reads of a value and of its text
* `bodies_decode_by_shape` — every entity of the catalog decodes bodies by their shape
-/

namespace ExchangeCatalog

/-! ### Values of a kind -/

namespace Kind

/-- A JSON value stands for a value of a kind: an integer that fits a word, a text, a truth value,
or a text that can be read as an instant. -/
inductive Denotes : (k : Kind) → Json → k.Carrier → Prop
  | integer (n : Int64) : Denotes .integer (.integer n.toInt) n
  | text (s : String) : Denotes .text (.string s) s
  | boolean (b : Bool) : Denotes .boolean (.bool b) b
  | timestamp {s : String} {t : Instant} (h : Instant.readLenient s.toList = .ok t) :
      Denotes .timestamp (.string s) t

/-- A JSON value stands for some value of a kind. -/
def Accepts (k : Kind) (v : Json) : Prop := ∃ x, k.Denotes v x

/-- What is given for a column of a kind stands for a change of it; nothing and `null` stand for
none. -/
inductive Changes (k : Kind) : Option Json → Option k.Carrier → Prop
  | absent : Changes k none none
  | null : Changes k (some .null) none
  | value {v : Json} {x : k.Carrier} (h : k.Denotes v x) : Changes k (some v) (some x)

variable {k : Kind} {place : BodyPlace} {v : Json}

/-- A column takes the JSON values that stand for values of its kind. -/
theorem ofHead_eq_ok_iff {x : k.Carrier} : k.ofHead place v.head = .ok x ↔ k.Denotes v x := by
  constructor
  · intro h
    -- Only scalars can have been taken; which ones, each kind says.
    cases v with
    | array items =>
      cases k with
      | _ => cases h
    | object members =>
      cases k with
      | _ => cases h
    | scalar s =>
      cases k with
      | integer =>
        cases s with
        | number n =>
          cases n with
          | integer i =>
            dsimp only [Json.head, ofHead] at h
            split at h
            · cases h
              rename_i hword
              obtain rfl := Decimal.toInt64?_eq_some_iff.mp hword
              exact .integer x
            · cases h
          | real y => cases h
        | _ => cases h
      | text =>
        cases s with
        | string s =>
          cases h
          exact .text x
        | number n => cases n <;> cases h
        | _ => cases h
      | boolean =>
        cases s with
        | bool b =>
          cases h
          exact .boolean x
        | number n => cases n <;> cases h
        | _ => cases h
      | timestamp =>
        cases s with
        | string s =>
          dsimp only [Json.head, ofHead] at h
          cases hread : Instant.readLenient s.toList with
          | error fault =>
            rw [hread] at h
            cases h
          | ok t =>
            rw [hread] at h
            cases h
            exact .timestamp hread
        | number n => cases n <;> cases h
        | _ => cases h
  · rintro (n | s | b | ht)
    · simp only [Json.head, Json.integer, ofHead, Decimal.toInt64?_toInt]
    · rfl
    · rfl
    · simp only [Json.head, Json.string, ofHead, ht]
      rfl

/-- `null` is no value of any kind. -/
theorem not_denotes_null {x : k.Carrier} : ¬k.Denotes .null x := nofun

/-- A column that may stay as it is takes `null` besides. -/
theorem ofHead?_eq_ok_iff {x : Option k.Carrier} :
    k.ofHead? place v.head = .ok x ↔ k.Changes (some v) x := by
  by_cases hnull : v = .null
  · subst hnull
    constructor
    · intro h
      cases h
      exact .null
    · rintro (_ | _ | h)
      · rfl
      · exact (not_denotes_null h).elim
  · have hread : k.ofHead? place v.head = (k.ofHead place v.head).map some := by
      rw [ofHead?]
      intro heq
      cases v with
      | scalar s =>
        cases heq
        exact hnull rfl
      | array items => cases heq
      | object members => cases heq
    rw [hread]
    constructor
    · intro h
      cases hvalue : k.ofHead place v.head with
      | error fault =>
        rw [hvalue] at h
        cases h
      | ok y =>
        rw [hvalue] at h
        cases h
        exact .value (ofHead_eq_ok_iff.mp hvalue)
    · rintro (_ | _ | h)
      · exact absurd rfl hnull
      · rw [ofHead_eq_ok_iff.mpr h]
        rfl

end Kind

namespace Json

variable {F : Kind → Type} {cs : List Column}

/-! ### Whole bodies -/

/-- An object, or an array of a length that fits. -/
def Spans (fits : Nat → Prop) : Json → Prop
  | .object _ => True
  | .array items => fits items.length
  | .scalar _ => False

/-- What a body has for the column at a position: in an object the member of its key, in an array
the item at the position. -/
def given? (cs : List Column) (i : Fin cs.length) : Json → Option Json
  | .object members => (Json.object members).get? (cs.get i).key
  | .array items => items[(i : Nat)]?
  | .scalar _ => none

/-- Where a body has it. -/
def place (cs : List Column) (i : Fin cs.length) : Json → BodyPlace
  | .object _ => .member (cs.get i).key
  | .array _ => .item i
  | .scalar _ => .whole

/-- An object has no two members of one column's key. -/
def NamesOnce (cs : List Column) : Json → Prop
  | .object members => ∀ c ∈ cs, (valuesOf c.key members).length ≤ 1
  | _ => True

/-- A body for a new row, with the record that it gives. -/
structure RecordOf {cs : List Column} (v : Json) (r : Record cs) : Prop where
  /-- An object, or an array with one item for each column. -/
  spans : v.Spans (· = cs.length)
  /-- Every column has a value of its kind. -/
  values : ∀ i, ∃ x, v.given? cs i = some x ∧ (cs.get i).kind.Denotes x (r.get i)

/-- A body for a change, with the change that it asks for. -/
structure PatchOf {cs : List Column} (v : Json) (p : Patch cs) : Prop where
  /-- An object, or an array with no more items than there are columns. -/
  spans : v.Spans (· ≤ cs.length)
  /-- Every column has nothing, `null` or a value of its kind. -/
  values : ∀ i, (cs.get i).kind.Changes (v.given? cs i) (p.get i)

/-- The shape of a body for a new row. -/
structure HasRecordShape (cs : List Column) (v : Json) : Prop where
  /-- An object, or an array with one item for each column. -/
  spans : v.Spans (· = cs.length)
  /-- Every column has a value of its kind. -/
  values : ∀ i, ∃ x, v.given? cs i = some x ∧ (cs.get i).kind.Accepts x

/-- The shape of a body for a change. -/
structure HasPatchShape (cs : List Column) (v : Json) : Prop where
  /-- An object, or an array with no more items than there are columns. -/
  spans : v.Spans (· ≤ cs.length)
  /-- What a column has is `null` or a value of its kind. -/
  values : ∀ i x, v.given? cs i = some x → x = .null ∨ (cs.get i).kind.Accepts x

variable {cs : List Column} {v : Json}

/-- A value has the shape of a record exactly when it has a record. -/
theorem exists_recordOf_iff : (∃ r : Record cs, v.RecordOf r) ↔ v.HasRecordShape cs := by
  constructor
  · rintro ⟨r, hspans, hvalues⟩
    refine ⟨hspans, fun i => ?_⟩
    obtain ⟨x, hx, hdenotes⟩ := hvalues i
    exact ⟨x, hx, _, hdenotes⟩
  · rintro ⟨hspans, hvalues⟩
    have hentries : ∀ i, ∃ y, ∃ x, v.given? cs i = some x ∧ (cs.get i).kind.Denotes x y := by
      intro i
      obtain ⟨x, hx, y, hdenotes⟩ := hvalues i
      exact ⟨y, x, hx, hdenotes⟩
    obtain ⟨r, hr⟩ := Fields.exists_get hentries
    exact ⟨r, hspans, hr⟩

/-- A value has the shape of a change exactly when it asks for one. -/
theorem exists_patchOf_iff : (∃ p : Patch cs, v.PatchOf p) ↔ v.HasPatchShape cs := by
  constructor
  · rintro ⟨p, hspans, hvalues⟩
    refine ⟨hspans, fun i x hx => ?_⟩
    have hchanges := hvalues i
    rw [hx] at hchanges
    generalize p.get i = y at hchanges
    cases hchanges with
    | null => exact Or.inl rfl
    | value h => exact Or.inr ⟨_, h⟩
  · rintro ⟨hspans, hvalues⟩
    have hentries : ∀ i, ∃ y, (cs.get i).kind.Changes (v.given? cs i) y := by
      intro i
      cases hgiven : v.given? cs i with
      | none => exact ⟨none, .absent⟩
      | some x =>
        rcases hvalues i x hgiven with rfl | ⟨y, hdenotes⟩
        · exact ⟨none, .null⟩
        · exact ⟨some y, .value hdenotes⟩
    obtain ⟨p, hp⟩ := Fields.exists_get (F := fun k => Option k.Carrier) hentries
    exact ⟨p, hspans, hp⟩

end Json

namespace BodyRule

open Json (valuesOf toItem)

variable {F : Kind → Type} {rule : BodyRule F} {cs : List Column} {v : Json} {vs : Fields F cs}

/-- The entries that the columns take from a value. -/
structure Gives (rule : BodyRule F) (v : Json) (vs : Fields F cs) : Prop where
  spans : v.Spans (· ≤ cs.length)
  takes : ∀ i, rule.Takes (cs.get i) (v.place cs i) ((v.given? cs i).map toItem) (vs.get i)

/-- What a rule reads of an array depends on how its items begin. -/
theorem read_array_value_iff {source : BodySource} {items : List Json} {f : Json → Json}
    (hf : ∀ v, (f v).head = v.head) :
    rule.read source cs (Json.array (items.map f)).toOutline = .ok vs ↔
      rule.Gives (.array items) vs := by
  have hitems : (items.map f).map toItem = items.map toItem := by
    rw [List.map_map]
    exact List.map_congr_left fun v _ => congrArg (Json.Item.mk · true) (hf v)
  have houtline : (Json.array (items.map f)).toOutline = ⟨.array (items.map toItem) true, true⟩ :=
    congrArg (fun items => (⟨.array items true, true⟩ : Json.Outline)) hitems
  rw [houtline, read_array_iff, List.length_map]
  simp only [List.getElem?_map, true_and]
  constructor
  · rintro ⟨hlength, h⟩
    exact ⟨hlength, h⟩
  · rintro ⟨hlength, h⟩
    exact ⟨hlength, h⟩

/-- What a rule reads of a value. -/
theorem read_value_iff (hkeys : (cs.map Column.key).Nodup) :
    rule.read .value cs v.sorted.toOutline = .ok vs ↔ rule.Gives v vs := by
  cases v with
  | scalar s =>
    rw [Json.sorted]
    exact iff_of_false read_single_ne_ok fun h => h.spans.elim
  | array items =>
    rw [Json.sorted, Json.sortedItems_eq_map]
    exact read_array_value_iff Json.head_sorted
  | object members =>
    obtain ⟨items, hsorted, hcomplete, hitems⟩ := Json.toOutline_sorted_object members
    rw [hsorted, read_object_iff hkeys, Gathers, Fields.all_iff_get]
    constructor
    · rintro ⟨-, -, -, h⟩
      refine ⟨trivial, fun i => ?_⟩
      obtain ⟨found, hfound, htakes⟩ := h i
      rw [hitems] at hfound
      have hsame : ((Json.object members).get? (cs.get i).key).map toItem = found := by
        simpa using congrArg List.head? hfound
      exact hsame ▸ htakes
    · rintro ⟨-, h⟩
      exact ⟨rfl, rfl, fun m hm _ => hcomplete m hm, fun i => ⟨_, hitems _, h i⟩⟩

/-- A key that stands at most once. -/
theorem map_toItem_eq_toList_iff {values : List Json} {found : Option Json.Item} :
    values.map toItem = found.toList ↔
      values.length ≤ 1 ∧ values.getLast?.map toItem = found := by
  rcases values with _ | ⟨v, _ | ⟨w, values⟩⟩
  · cases found with
    | none => exact iff_of_true rfl ⟨Nat.zero_le _, rfl⟩
    | some item => exact iff_of_false nofun fun h => nomatch h.2
  · cases found with
    | none => exact iff_of_false nofun fun h => nomatch h.2
    | some item => simp
  · refine iff_of_false ?_ fun h => by simp at h
    cases found with
    | _ => exact nofun

/-- What a rule reads of the text of a value. -/
theorem read_text_iff (hkeys : (cs.map Column.key).Nodup) :
    rule.read .text cs v.toOutline = .ok vs ↔ v.NamesOnce cs ∧ rule.Gives v vs := by
  cases v with
  | scalar s => exact iff_of_false read_single_ne_ok fun h => h.2.spans.elim
  | array items =>
    have hread : rule.read .text cs (Json.array (items.map id)).toOutline = .ok vs ↔
        rule.Gives (.array items) vs := read_array_value_iff fun _ => rfl
    rw [List.map_id] at hread
    exact hread.trans (and_iff_right trivial).symm
  | object members =>
    have houtline : (Json.object members).toOutline =
        ⟨.object (members.map fun m => (m.1, toItem m.2)) true, true⟩ := rfl
    rw [houtline, read_object_iff hkeys, Gathers, Fields.all_iff_get]
    simp only [Json.valuesOf_map, map_toItem_eq_toList_iff, ← Json.get?_object, true_and]
    constructor
    · rintro ⟨-, h⟩
      refine ⟨fun c hc => ?_, trivial, fun i => ?_⟩
      · obtain ⟨i, rfl⟩ := List.get_of_mem hc
        obtain ⟨found, ⟨honce, -⟩, -⟩ := h i
        exact honce
      · obtain ⟨found, ⟨-, rfl⟩, htakes⟩ := h i
        exact htakes
    · rintro ⟨honce, -, h⟩
      refine ⟨?_, fun i => ⟨_, ⟨honce _ (List.get_mem cs i), rfl⟩, h i⟩⟩
      intro m hm _
      obtain ⟨m, -, rfl⟩ := List.mem_map.mp hm
      rfl

end BodyRule

/-! ### New rows -/

namespace Entity

variable {e : Entity} {c : Column} {place : BodyPlace} {found : Option Json} {v : Json}

/-- A column of a new row takes a value of its kind. -/
theorem createRule_takes_iff {x : c.kind.Carrier} :
    e.createRule.Takes c place (found.map Json.toItem) x ↔
      ∃ v, found = some v ∧ c.kind.Denotes v x := by
  cases found with
  | none =>
    refine iff_of_false ?_ fun ⟨_, h, _⟩ => nomatch h
    rintro (h | _)
    cases h
  | some v =>
    constructor
    · rintro (_ | h)
      exact ⟨v, rfl, Kind.ofHead_eq_ok_iff.mp h⟩
    · rintro ⟨_, hv, h⟩
      cases hv
      exact .given (Kind.ofHead_eq_ok_iff.mpr h)

/-- With a value for every column an array is as long as there are columns. -/
theorem spans_eq_of_given {cs : List Column} (hspans : v.Spans (· ≤ cs.length))
    (h : ∀ i, ∃ x, v.given? cs i = some x) : v.Spans (· = cs.length) := by
  cases v with
  | scalar s => exact hspans
  | object members => trivial
  | array items =>
    refine Nat.le_antisymm hspans (Nat.le_of_not_lt fun hshort => ?_)
    -- The column after the last item would have no value.
    obtain ⟨w, hw⟩ := h ⟨items.length, hshort⟩
    cases (List.getElem?_length items).symm.trans hw

theorem createRule_gives_iff {record : Record e.columns} :
    e.createRule.Gives v record ↔ v.RecordOf record := by
  constructor
  · rintro ⟨hspans, htakes⟩
    have hvalues := fun i => createRule_takes_iff.mp (htakes i)
    refine ⟨spans_eq_of_given hspans fun i => ?_, hvalues⟩
    obtain ⟨x, hx, -⟩ := hvalues i
    exact ⟨x, hx⟩
  · rintro ⟨hspans, hvalues⟩
    refine ⟨?_, fun i => createRule_takes_iff.mpr (hvalues i)⟩
    cases v with
    | scalar s => exact hspans
    | object members => trivial
    | array items => exact Nat.le_of_eq hspans

/-! ### Changes -/

/-- A column of a change takes nothing, `null` or a value of its kind. -/
theorem patchRule_takes_iff {x : Option c.kind.Carrier} :
    e.patchRule.Takes c place (found.map Json.toItem) x ↔ c.kind.Changes found x := by
  cases found with
  | none =>
    constructor
    · rintro (h | _)
      cases h
      exact .absent
    · rintro (_ | _)
      exact .absent rfl
  | some v =>
    constructor
    · rintro (_ | h)
      exact Kind.ofHead?_eq_ok_iff.mp h
    · exact fun h => .given (Kind.ofHead?_eq_ok_iff.mpr h)

theorem patchRule_gives_iff {changes : Patch e.columns} :
    e.patchRule.Gives v changes ↔ v.PatchOf changes := by
  constructor
  · rintro ⟨hspans, htakes⟩
    exact ⟨hspans, fun i => patchRule_takes_iff.mp (htakes i)⟩
  · rintro ⟨hspans, hvalues⟩
    exact ⟨hspans, fun i => patchRule_takes_iff.mpr (hvalues i)⟩

/-! ### Bodies -/

variable (hkeys : e.HasDistinctKeys)
include hkeys

theorem createOfJson_eq_ok_iff {record : Record e.columns} :
    e.createOfJson v = .ok record ↔ v.RecordOf record :=
  (BodyRule.read_value_iff hkeys.nodup).trans createRule_gives_iff

theorem patchOfJson_eq_ok_iff {changes : Patch e.columns} :
    e.patchOfJson v = .ok changes ↔ v.PatchOf changes :=
  (BodyRule.read_value_iff hkeys.nodup).trans patchRule_gives_iff

theorem readRecord_eq_ok_iff {body : List UInt8} (hbody : Json.read? body = some v)
    {record : Record e.columns} :
    e.readRecord body = .ok record ↔ v.NamesOnce e.columns ∧ v.RecordOf record := by
  rw [readRecord, Json.outline_of_read? hbody, BodyRule.read_text_iff hkeys.nodup,
    createRule_gives_iff]

theorem readPatch_eq_ok_iff {body : List UInt8} (hbody : Json.read? body = some v)
    {changes : Patch e.columns} :
    e.readPatch body = .ok changes ↔ v.NamesOnce e.columns ∧ v.PatchOf changes := by
  rw [readPatch, Json.outline_of_read? hbody, BodyRule.read_text_iff hkeys.nodup,
    patchRule_gives_iff]

omit hkeys in
/-- What is left out of a change or `null` in it stays as it is. -/
theorem get_applyPatch_of_unchanged {changes : Patch e.columns} (h : v.PatchOf changes) (r : Row e)
    {i : Fin e.columns.length}
    (hgiven : v.given? e.columns i = none ∨ v.given? e.columns i = some .null) :
    (r.applyPatch changes).record.get i = r.record.get i := by
  have hchanges := h.values i
  rw [Row.applyPatch, Record.get_applyPatch]
  have hnone : changes.get i = none := by
    generalize changes.get i = x at hchanges ⊢
    rcases hgiven with hgiven | hgiven
    · rw [hgiven] at hchanges
      cases hchanges
      rfl
    · rw [hgiven] at hchanges
      cases hchanges with
      | null => rfl
      | value h => exact (Kind.not_denotes_null h).elim
  rw [hnone, Option.getD_none]

end Entity

/-- The bodies for rows of an entity are those of the right shape, and each column has what they
give it. -/
structure Entity.DecodesByShape (e : Entity) : Prop where
  /-- The record that a value gives for a new row. -/
  create : ∀ (v : Json) record, e.createOfJson v = .ok record ↔ v.RecordOf record
  /-- The values that give one. -/
  create_shape : ∀ v, (∃ record, e.createOfJson v = .ok record) ↔ v.HasRecordShape e.columns
  /-- The change that a value asks for. -/
  patch : ∀ (v : Json) changes, e.patchOfJson v = .ok changes ↔ v.PatchOf changes
  /-- The values that ask for one. -/
  patch_shape : ∀ v, (∃ changes, e.patchOfJson v = .ok changes) ↔ v.HasPatchShape e.columns
  /-- The text of a value gives the same record, unless it has the key of a column twice. -/
  create_text : ∀ body v, Json.read? body = some v → ∀ record,
    e.readRecord body = .ok record ↔ v.NamesOnce e.columns ∧ v.RecordOf record
  /-- The text of a value asks for the same change, unless it has the key of a column twice. -/
  patch_text : ∀ body v, Json.read? body = some v → ∀ changes,
    e.readPatch body = .ok changes ↔ v.NamesOnce e.columns ∧ v.PatchOf changes
  /-- What is left out of a change or `null` in it stays as it is. -/
  unchanged : ∀ v changes, e.patchOfJson v = .ok changes → ∀ (r : Row e) i,
    v.given? e.columns i = none ∨ v.given? e.columns i = some .null →
      (r.applyPatch changes).record.get i = r.record.get i

theorem Entity.decodesByShape {e : Entity} (hkeys : e.HasDistinctKeys) : e.DecodesByShape where
  create _ _ := createOfJson_eq_ok_iff hkeys
  create_shape v := by
    rw [← Json.exists_recordOf_iff]
    exact exists_congr fun record => createOfJson_eq_ok_iff hkeys
  patch _ _ := patchOfJson_eq_ok_iff hkeys
  patch_shape v := by
    rw [← Json.exists_patchOf_iff]
    exact exists_congr fun changes => patchOfJson_eq_ok_iff hkeys
  create_text _ _ hbody _ := readRecord_eq_ok_iff hkeys hbody
  patch_text _ _ hbody _ := readPatch_eq_ok_iff hkeys hbody
  unchanged _ _ h r _ := get_applyPatch_of_unchanged ((patchOfJson_eq_ok_iff hkeys).mp h) r

/-- Every entity of the catalog decodes bodies by their shape, and so does every other whose columns
have keys of their own. -/
theorem bodies_decode_by_shape :
    (∀ p ∈ Catalog.routes, p.2.HasDistinctKeys) ∧
      ∀ e : Entity, e.HasDistinctKeys → e.DecodesByShape :=
  ⟨Catalog.hasDistinctKeys_of_mem_routes, fun _ => Entity.decodesByShape⟩

/-- A body that names a unit of measure, leaves its description open and has a key of no column. -/
def kilogramBody : Json :=
  .object [("id", .integer 7), ("persianName", .string "kilogram"), ("description", .null)]

/-- As a change it sets the name alone; a new row it does not describe. -/
theorem kilogramBody_decodes :
    Catalog.measureUnit.HasDistinctKeys ∧
      Catalog.measureUnit.patchOfJson kilogramBody =
        .ok (.cons (none : Option String) (.cons (some "kilogram" : Option String) .nil)) ∧
      ¬∃ record, Catalog.measureUnit.createOfJson kilogramBody = .ok record := by
  have hkeys : Catalog.measureUnit.HasDistinctKeys := by decide
  have hdecodes := bodies_decode_by_shape.2 Catalog.measureUnit hkeys
  have hdescription : kilogramBody.get? (camelCase "description") = some .null := by
    rw [show camelCase "description" = "description" by decide]
    rfl
  have hname : kilogramBody.get? (camelCase "persian_name") = some (.string "kilogram") := by
    rw [show camelCase "persian_name" = "persianName" by decide]
    rfl
  refine ⟨hkeys, (hdecodes.patch _ _).mpr ⟨trivial, ?_⟩, fun hrecord => ?_⟩
  · intro i
    match i with
    | ⟨0, _⟩ =>
      change Kind.Changes .text (kilogramBody.get? (camelCase "description")) none
      rw [hdescription]
      exact .null
    | ⟨1, _⟩ =>
      change Kind.Changes .text (kilogramBody.get? (camelCase "persian_name")) (some "kilogram")
      rw [hname]
      exact .value (.text "kilogram")
  · obtain ⟨x, hx, y, hdenotes⟩ :=
      ((hdecodes.create_shape _).mp hrecord).values ⟨0, by decide⟩
    cases hdescription.symm.trans hx
    exact Kind.not_denotes_null hdenotes

end ExchangeCatalog
