import ExchangeCatalog.Proofs.Entity.Shape
import ExchangeCatalog.Proofs.Service.Operation

/-!
# Changes in a row

Requests that change one row, one after the other, leave the row as the single request would that
has the last value of each column. A request that gives every column a value is a replacement, and
its body is one for a new row as well. No body says under which identifier a row is kept: a member
of this name belongs to no column.

## Main definitions

* `Json.without` — an object without the members of a name
* `Entity.MergesPatches` — how changes of an entity's rows come together

## Main results

* `Service.serve_patch_patch` — two requests in a row are one
* `Service.answerAll_patches` — so are any number of them
* `Entity.readPatch_of_readRecord` — a body for a new row is a body for a change
* `patches_merge` — changes of the rows of every entity come together as a merge
-/

namespace ExchangeCatalog

open Plan (answerAll)

/-! ### Rows -/

namespace Patch

variable {cs : List Column} {name : String}

theorem valueOf?_of_not_mem (h : name ∉ cs.map Column.name) (p : Patch cs) :
    p.valueOf? name = none := by
  induction cs with
  | nil =>
    cases p
    rfl
  | cons c cs ih =>
    cases p with | cons x p =>
    rw [List.map_cons, List.mem_cons, not_or] at h
    rw [valueOf?, if_neg (Ne.symm h.1)]
    exact ih h.2 p

end Patch

namespace Row

variable {e : Entity}

/-- The value under a name is the change's where it has one; it has none for the identifier. -/
theorem valueOf?_applyPatch (r : Row e) (p : Patch e.columns) (name : String) :
    (r.applyPatch p).valueOf? name = (p.valueOf? name).or (r.valueOf? name) := by
  rw [valueOf?, valueOf?]
  split_ifs with hname
  · have hid : name ∉ e.columns.map Column.name := by
      rw [hname]
      exact (List.nodup_cons.mp e.names_nodup).1
    rw [Patch.valueOf?_of_not_mem hid]
    rfl
  · exact r.record.valueOf?_applyPatch p name

theorem applyPatch_merge (r : Row e) (p q : Patch e.columns) :
    r.applyPatch (p.merge q) = (r.applyPatch p).applyPatch q :=
  congrArg (Row.mk r.id) (r.record.applyPatch_merge p q)

theorem applyPatch_empty (r : Row e) : r.applyPatch Patch.empty = r :=
  congrArg (Row.mk r.id) r.record.applyPatch_empty

theorem applyPatch_map_some (r : Row e) (record : Record e.columns) :
    r.applyPatch (record.map fun _ => some) = { r with record := record } :=
  congrArg (Row.mk r.id) (r.record.applyPatch_map_some record)

end Row

/-! ### Requests -/

namespace Service

variable {e : Entity} (id : Int64) (s : MemoryStore e)

/-- Of two requests in a row the second is answered as the single request would be, and leaves the
store as that would. -/
theorem serve_patch_patch (p q : Patch e.columns) :
    serve (.patch id q) (serve (.patch id p) s).2 = serve (.patch id (p.merge q)) s := by
  rw [serve_patch id p s, serve_patch id (p.merge q) s]
  cases hfind : s.table.find? id with
  | none =>
    dsimp only
    rw [serve_patch, hfind]
  | some r =>
    have hnow : (s.table.insert (r.applyPatch p)).find? id = some (r.applyPatch p) :=
      (Table.find?_insert _ _ _).trans (if_pos (Table.id_of_find? hfind).symm)
    have hinsert : (s.table.insert (r.applyPatch p)).insert ((r.applyPatch p).applyPatch q) =
        s.table.insert ((r.applyPatch p).applyPatch q) := s.table.insert_insert rfl
    dsimp only
    rw [serve_patch]
    dsimp only
    rw [hnow]
    dsimp only
    rw [hinsert, Row.applyPatch_merge]

/-- A request that changes nothing leaves the store as it is. -/
theorem serve_patch_empty : (serve (.patch id Patch.empty) s).2 = s := by
  rw [serve_patch]
  cases hfind : s.table.find? id with
  | none => rfl
  | some r =>
    have hid : r.id = id := Table.id_of_find? hfind
    dsimp only
    rw [Row.applyPatch_empty, Table.insert_of_find? (hid ▸ hfind)]

/-- Requests in a row leave the store as the request would that has the last value of each
column. -/
theorem answerAll_patches (ps : List (Patch e.columns)) :
    (answerAll serve (ps.map fun p => Operation.patch id p) s).2 =
      (serve (.patch id (ps.foldl Patch.merge Patch.empty)) s).2 := by
  -- The changes that were made before the list are one change, which the induction carries along.
  have hrun : ∀ (ps : List (Patch e.columns)) (p : Patch e.columns),
      (answerAll serve (ps.map fun p => Operation.patch id p) (serve (.patch id p) s).2).2 =
        (serve (.patch id (ps.foldl Patch.merge p)) s).2 := by
    intro ps
    induction ps with
    | nil => exact fun _ => rfl
    | cons q ps ih =>
      intro p
      rw [List.map_cons, Plan.answerAll_cons, serve_patch_patch]
      exact ih (p.merge q)
  rw [← hrun, serve_patch_empty]

/-- The row that a change answers with has the identifier that was asked for. -/
theorem id_of_run_change {id : Int64} {s : MemoryStore e} {edit : Row e → Row e}
    (hid : ∀ r, (edit r).id = r.id) {r : Row e} (h : (s.run (change id edit)).1 = .ok r) :
    r.id = id := by
  rw [run_change id edit hid] at h
  cases hfind : s.table.find? id with
  | none =>
    rw [hfind] at h
    cases h
  | some old =>
    rw [hfind] at h
    cases h
    exact (hid old).trans (Table.id_of_find? hfind)

/-- A request that gives every column a value is a replacement. -/
theorem serve_patch_map_some (record : Record e.columns) :
    serve (.patch id (record.map fun _ => some)) s = serve (.replace id record) s := by
  rw [serve_patch, serve_replace]
  simp only [Row.applyPatch_map_some]

end Service

/-! ### Bodies -/

namespace Kind

/-- What a column of a new row takes, a column of a change takes as well. -/
theorem ofHead?_of_ofHead {k : Kind} {place : BodyPlace} {head : Json.Head} {x : k.Carrier}
    (h : k.ofHead place head = .ok x) : k.ofHead? place head = .ok (some x) := by
  rw [ofHead?]
  · rw [h]
    rfl
  · rintro rfl
    cases k with
    | _ => cases h

end Kind

namespace Entity

variable {e : Entity} {c : Column} {place : BodyPlace} {v : Json}

theorem patchRule_takes_of_createRule {found : Option Json.Item} {x : c.kind.Carrier}
    (h : e.createRule.Takes c place found x) : e.patchRule.Takes c place found (some x) := by
  cases h with
  | absent h => cases h
  | given h => exact .given (Kind.ofHead?_of_ofHead h)

variable (hkeys : e.HasDistinctKeys)
include hkeys

/-- What is a body for a new row is a body for a change of every column. -/
theorem patchRule_read_of_createRule {source : BodySource} {o : Json.Outline}
    {record : Record e.columns} (h : e.createRule.read source e.columns o = .ok record) :
    e.patchRule.read source e.columns o = .ok (record.map fun _ => some) := by
  obtain ⟨layer, finished⟩ := o
  cases layer with
  | single head => exact (BodyRule.read_single_ne_ok h).elim
  | array items closed =>
    rw [BodyRule.read_array_iff] at h ⊢
    obtain ⟨hfinished, hclosed, hlength, htakes⟩ := h
    refine ⟨hfinished, hclosed, hlength, fun i => ?_⟩
    rw [Fields.get_map]
    exact patchRule_takes_of_createRule (htakes i)
  | object items closed =>
    rw [BodyRule.read_object_iff hkeys.nodup] at h ⊢
    obtain ⟨hfinished, hclosed, hcomplete, hgathers⟩ := h
    refine ⟨hfinished, hclosed, hcomplete, Fields.all_map_iff.mpr (hgathers.imp ?_)⟩
    rintro c _ x ⟨found, hfound, htakes⟩
    exact ⟨found, hfound, patchRule_takes_of_createRule htakes⟩

end Entity

/-! ### The key of the identifier -/

namespace Json

variable {cs : List Column} {name : String} {v : Json}

/-- An object without the members of a name; any other value as it is. -/
def without (name : String) : Json → Json
  | .object members => .object (members.filter fun m => m.1 ≠ name)
  | v => v

theorem valuesOf_without {key : String} (h : key ≠ name) (members : List (String × Json)) :
    valuesOf key (members.filter fun m => m.1 ≠ name) = valuesOf key members :=
  valuesOf_filter (fun _ hm => decide_eq_true (hm ▸ h)) members

/-- Where no column has the name as its key, the columns have the same without these members. -/
theorem given?_without (h : ∀ c ∈ cs, c.key ≠ name) (i : Fin cs.length) :
    (v.without name).given? cs i = v.given? cs i := by
  cases v with
  | object members =>
    have hvalues := valuesOf_without (h _ (List.get_mem cs i)) members
    rw [without, given?, given?, get?_object, get?_object, hvalues]
  | _ => rfl

theorem spans_without {fits : Nat → Prop} : (v.without name).Spans fits ↔ v.Spans fits := by
  cases v with
  | _ => rfl

theorem namesOnce_without (h : ∀ c ∈ cs, c.key ≠ name) :
    (v.without name).NamesOnce cs ↔ v.NamesOnce cs := by
  cases v with
  | object members =>
    refine forall₂_congr fun c hc => ?_
    rw [valuesOf_without (h c hc)]
  | _ => rfl

theorem recordOf_without (h : ∀ c ∈ cs, c.key ≠ name) {r : Record cs} :
    (v.without name).RecordOf r ↔ v.RecordOf r := by
  constructor
  · rintro ⟨hspans, hvalues⟩
    exact ⟨spans_without.mp hspans, fun i => given?_without h i ▸ hvalues i⟩
  · rintro ⟨hspans, hvalues⟩
    exact ⟨spans_without.mpr hspans, fun i => (given?_without h i).symm ▸ hvalues i⟩

theorem patchOf_without (h : ∀ c ∈ cs, c.key ≠ name) {p : Patch cs} :
    (v.without name).PatchOf p ↔ v.PatchOf p := by
  constructor
  · rintro ⟨hspans, hvalues⟩
    exact ⟨spans_without.mp hspans, fun i => given?_without h i ▸ hvalues i⟩
  · rintro ⟨hspans, hvalues⟩
    exact ⟨spans_without.mpr hspans, fun i => (given?_without h i).symm ▸ hvalues i⟩

end Json

/-! ### Changes as a merge -/

namespace Entity

open Service (serve)

/-- Changes of an entity's rows come together as a merge in which the later value counts. -/
structure MergesPatches (e : Entity) : Prop where
  /-- Every entry of a changed row is the change's where it has one, and the row's where it has
  none. -/
  entry : ∀ (r : Row e) p i, (r.applyPatch p).record.get i = (p.get i).getD (r.record.get i)
  /-- So is the value under every name, -/
  value : ∀ (r : Row e) (p : Patch e.columns) name,
    (r.applyPatch p).valueOf? name = (p.valueOf? name).or (r.valueOf? name)
  /-- and the identifier stays. -/
  id : ∀ (r : Row e) p, (r.applyPatch p).id = r.id
  /-- One change after another is a single change, -/
  merge : ∀ (r : Row e) p q, (r.applyPatch p).applyPatch q = r.applyPatch (p.merge q)
  /-- which has the later value of each column. -/
  merge_entry : ∀ (p q : Patch e.columns) i, (p.merge q).get i = (q.get i).or (p.get i)
  /-- To make a change twice is to make it once. -/
  again : ∀ (r : Row e) p, (r.applyPatch p).applyPatch p = r.applyPatch p
  /-- A change without values changes nothing. -/
  nothing : ∀ (r : Row e) (p : Patch e.columns), (∀ i, p.get i = none) → r.applyPatch p = r
  /-- Changes of different columns may be made in either order. -/
  apart : ∀ (r : Row e) (p q : Patch e.columns), (∀ i, p.get i = none ∨ q.get i = none) →
    (r.applyPatch p).applyPatch q = (r.applyPatch q).applyPatch p
  /-- A change of every column is a replacement, for a row and as a request. -/
  full : ∀ p : Patch e.columns, (∀ i, (p.get i).isSome) → ∃ record : Record e.columns,
    (∀ i, p.get i = some (record.get i)) ∧
      (∀ r : Row e, r.applyPatch p = { r with record := record }) ∧
      ∀ id s, serve (.patch id p) s = serve (.replace id record) s
  /-- A request after another is answered as the single request would be, and leaves what that
  would. -/
  requests : ∀ id (p q : Patch e.columns) s,
    serve (.patch id q) (serve (.patch id p) s).2 = serve (.patch id (p.merge q)) s
  /-- So it is with any number of requests in a row. -/
  requests_in_row : ∀ id (ps : List (Patch e.columns)) s,
    (answerAll serve (ps.map fun p => .patch id p) s).2 =
      (serve (.patch id (ps.foldl Patch.merge Patch.empty)) s).2

theorem mergesPatches (e : Entity) : e.MergesPatches where
  entry r p i := r.record.get_applyPatch p i
  value r p name := r.valueOf?_applyPatch p name
  id _ _ := rfl
  merge r p q := (r.applyPatch_merge p q).symm
  merge_entry p q i := p.get_merge q i
  again r p := by rw [← Row.applyPatch_merge, Patch.merge_self]
  nothing r p h := by
    have hempty : p = Patch.empty := Fields.ext_get fun i => (h i).trans (Patch.get_empty i).symm
    rw [hempty, Row.applyPatch_empty]
  apart r p q h := congrArg (Row.mk r.id) (r.record.applyPatch_comm (Patch.disjoint_iff_get.mpr h))
  full p h := by
    obtain ⟨record, rfl⟩ := Patch.exists_eq_map_some h
    exact ⟨record, fun i => Fields.get_map _ record i, fun r => r.applyPatch_map_some record,
      fun id s => Service.serve_patch_map_some id s record⟩
  requests id p q s := Service.serve_patch_patch id s p q
  requests_in_row id ps s := Service.answerAll_patches id s ps

/-- A body cannot move a row to another identifier, and a body for a new row is a change of every
column. -/
structure KeepsIdentifiers (e : Entity) : Prop where
  /-- What a body for a new row gives, it gives as a change. -/
  create_as_patch : ∀ v record, e.createOfJson v = .ok record →
    e.patchOfJson v = .ok (record.map fun _ => some)
  create_as_patch_text : ∀ body record, e.readRecord body = .ok record →
    e.readPatch body = .ok (record.map fun _ => some)
  /-- Members with the key of the identifier make no difference to a value, -/
  create : ∀ (v : Json) record,
    e.createOfJson (v.without "id") = .ok record ↔ e.createOfJson v = .ok record
  patch : ∀ (v : Json) changes,
    e.patchOfJson (v.without "id") = .ok changes ↔ e.patchOfJson v = .ok changes
  /-- nor to its text. -/
  create_text : ∀ body body' v, Json.read? body = some v →
    Json.read? body' = some (v.without "id") →
    ∀ record, e.readRecord body' = .ok record ↔ e.readRecord body = .ok record
  patch_text : ∀ body body' v, Json.read? body = some v → Json.read? body' = some (v.without "id") →
    ∀ changes, e.readPatch body' = .ok changes ↔ e.readPatch body = .ok changes
  /-- A changed row has the identifier that the request names, and a new one the next that is
  free. -/
  patched : ∀ id changes s (r : Row e), (serve (.patch id changes) s).1 = .ok r → r.id = id
  replaced : ∀ id record s (r : Row e), (serve (.replace id record) s).1 = .ok r → r.id = id
  created : ∀ record s (r : Row e), (serve (.create record) s).1 = .ok r → r.id = s.nextId

theorem keepsIdentifiers {e : Entity} (hkeys : e.HasDistinctKeys) : e.KeepsIdentifiers where
  create_as_patch _ _ := patchRule_read_of_createRule hkeys
  create_as_patch_text _ _ := patchRule_read_of_createRule hkeys
  create v record := by
    rw [createOfJson_eq_ok_iff hkeys, createOfJson_eq_ok_iff hkeys,
      Json.recordOf_without fun _ => hkeys.ne_id]
  patch v changes := by
    rw [patchOfJson_eq_ok_iff hkeys, patchOfJson_eq_ok_iff hkeys,
      Json.patchOf_without fun _ => hkeys.ne_id]
  create_text body body' v hbody hbody' record := by
    rw [readRecord_eq_ok_iff hkeys hbody, readRecord_eq_ok_iff hkeys hbody',
      Json.recordOf_without fun _ => hkeys.ne_id, Json.namesOnce_without fun _ => hkeys.ne_id]
  patch_text body body' v hbody hbody' changes := by
    rw [readPatch_eq_ok_iff hkeys hbody, readPatch_eq_ok_iff hkeys hbody',
      Json.patchOf_without fun _ => hkeys.ne_id, Json.namesOnce_without fun _ => hkeys.ne_id]
  patched id changes s r h := by
    have hid : ∀ r : Row e, (r.applyPatch changes).id = r.id := fun _ => rfl
    exact Service.id_of_run_change hid h
  replaced id record s r h := by
    have hid : ∀ r : Row e, { r with record := record }.id = r.id := fun _ => rfl
    exact Service.id_of_run_change hid h
  created _ _ _ h := by
    cases h
    rfl

end Entity

/-- Changes of the rows of every entity of the catalog come together as a merge and keep the
identifiers, and so they do for every other entity whose columns have keys of their own. -/
theorem patches_merge :
    (∀ p ∈ Catalog.routes, p.2.HasDistinctKeys) ∧
      ∀ e : Entity, e.MergesPatches ∧ (e.HasDistinctKeys → e.KeepsIdentifiers) :=
  ⟨Catalog.hasDistinctKeys_of_mem_routes, fun e => ⟨e.mergesPatches, Entity.keepsIdentifiers⟩⟩

/-- A unit of measure. -/
def gramRow : Row Catalog.measureUnit := ⟨1, .cons "one thousandth" (.cons "gram" .nil)⟩

/-- A change of its name, and one of its description. -/
def newName : Patch Catalog.measureUnit.columns :=
  .cons (none : Option String) (.cons (some "kilogram" : Option String) .nil)

def newDescription : Patch Catalog.measureUnit.columns :=
  .cons (some "one thousand" : Option String) (.cons (none : Option String) .nil)

/-- A body that has a name and an identifier. -/
def movingBody : Json := .object [("id", .integer 7), ("persianName", .string "kilogram")]

/-- Both changes of the row are made, and the identifier in the body plays no part. -/
theorem gramRow_changes_merge :
    Catalog.measureUnit.HasDistinctKeys ∧
      (gramRow.applyPatch newName).applyPatch newDescription =
        ⟨1, .cons "one thousand" (.cons "kilogram" .nil)⟩ ∧
      ∀ changes, Catalog.measureUnit.patchOfJson (.object [("persianName", .string "kilogram")]) =
        .ok changes ↔ Catalog.measureUnit.patchOfJson movingBody = .ok changes := by
  have hkeys : Catalog.measureUnit.HasDistinctKeys := by decide
  obtain ⟨hmerges, hkeeps⟩ := patches_merge.2 Catalog.measureUnit
  exact ⟨hkeys, hmerges.merge gramRow newName newDescription, (hkeeps hkeys).patch movingBody⟩

end ExchangeCatalog
