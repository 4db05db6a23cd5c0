import ExchangeCatalog.Proofs.Page.Window
import ExchangeCatalog.Proofs.Service.Operation
import Mathlib.Logic.Function.Basic

/-!
# The ledger that a service keeps

A ledger is what a client may take the service for: a finite map from identifiers to records, and
the greatest identifier that has ever been held or handed out. Its numbers are unbounded, it hands
out the identifier after the greatest one, and each operation touches at most the entry that it
names.

## Main definitions

* `Ledger` — the records under their identifiers, and the greatest identifier used
* `Ledger.ofRows` — the ledger that begins with some rows, of two under one identifier the later
* `Ledger.serve` — the answer to an operation, and the ledger after it
* `Ledger.IsBounded`, `Ledger.HasRoom` — no row stands above the greatest identifier used, and the
  words suffice for the new rows of a run
* `created` — the new rows among the answers to a run

## Main results

* `Ledger.row?_serve` — all that an operation can do to what stands under an identifier
* `Ledger.serve_keeps` — an operation keeps every row that it does not name
* `Ledger.created_pairwise` — identifiers are handed out in ascending order above all that were used
-/

namespace ExchangeCatalog

open Service (Operation)

/-- The records under their identifiers, and the greatest identifier that was ever held or handed
out. -/
structure Ledger (e : Entity) where
  records : Int64 → Option (Record e.columns)
  last : Int

/-- The greatest identifier of some rows, zero when there is none. -/
def greatestId {e : Entity} (rows : List (Row e)) : Int :=
  ((rows.map fun r => r.id.toInt).max?).getD 0

namespace Ledger

variable {e : Entity}

/-- The ledger that begins with some rows; the last row of an identifier counts. -/
def ofRows (rows : List (Row e)) : Ledger e where
  records id := (rows.reverse.find? fun r => r.id == id).map Row.record
  last := greatestId rows

/-- The row under an identifier. -/
def row? (l : Ledger e) (id : Int64) : Option (Row e) :=
  (l.records id).map fun record => ⟨id, record⟩

/-- The rows in ascending order of their identifiers. -/
def rows (l : Ledger e) : List (Row e) := identifiers.filterMap l.row?

/-- The ledger with a record under an identifier. -/
def put (l : Ledger e) (id : Int64) (record : Record e.columns) : Ledger e :=
  { l with records := Function.update l.records id (some record) }

/-- The ledger with nothing under an identifier. -/
def remove (l : Ledger e) (id : Int64) : Ledger e :=
  { l with records := Function.update l.records id none }

/-- The page of the rows that pass filters. -/
def page (l : Ledger e) (filters : List TypedFilter) (request : PageRequest) : Page (Row e) where
  items := request.window (l.rows.filter (passes filters))
  total := UInt64.ofNat (l.rows.filter (passes filters)).length

/-- The record under an identifier changed, when there is one. -/
def change (l : Ledger e) (id : Int64) (edit : Record e.columns → Record e.columns) :
    Except Fault (Row e) × Ledger e :=
  match l.records id with
  | some record => (.ok ⟨id, edit record⟩, l.put id (edit record))
  | none => (.error (.rowNotFound e.label), l)

/-- The answer to an operation, and the ledger after it. -/
def serve : (op : Operation e) → Ledger e → op.Answer × Ledger e
  | .list predicates request, l =>
    ((typedFilters (e.retain predicates)).map fun filters => l.page filters request, l)
  | .get id, l =>
    match l.row? id with
    | some row => (.ok row, l)
    | none => (.error (.rowNotFound e.label), l)
  | .create record, l =>
    -- The identifier after the greatest one, so that none is ever handed out twice.
    let id := Int64.ofInt (l.last + 1)
    (.ok ⟨id, record⟩, { l.put id record with last := l.last + 1 })
  | .replace id record, l => l.change id fun _ => record
  | .patch id changes, l => l.change id fun record => record.applyPatch changes
  | .delete id, l =>
    match l.records id with
    | some _ => (.ok (), l.remove id)
    | none => (.error (.rowNotFound e.label), l)

@[simp] theorem row?_put (l : Ledger e) (id id' : Int64) (record : Record e.columns) :
    (l.put id record).row? id' = if id' = id then some ⟨id, record⟩ else l.row? id' := by
  simp only [row?, put, Function.update_apply]
  split_ifs with h
  · rw [h, Option.map_some]
  · rfl

@[simp] theorem row?_remove (l : Ledger e) (id id' : Int64) :
    (l.remove id).row? id' = if id' = id then none else l.row? id' := by
  simp only [row?, remove, Function.update_apply]
  split_ifs
  · rfl
  · rfl

theorem row?_ofRows (rows : List (Row e)) (id : Int64) :
    (ofRows rows).row? id = rows.reverse.find? fun r => r.id == id := by
  simp only [row?, ofRows]
  cases hfind : rows.reverse.find? fun r => r.id == id with
  | none => rfl
  | some row =>
    have hid : row.id = id := by simpa using List.find?_some hfind
    rw [Option.map_some, Option.map_some, ← hid]

/-! ### What a ledger has used -/

/-- No record stands above the greatest identifier used, which is a word. -/
structure IsBounded (l : Ledger e) : Prop where
  id_le : ∀ id, (l.row? id).isSome → id.toInt ≤ l.last
  low : -0x8000000000000000 ≤ l.last

theorem le_greatestId {rows : List (Row e)} {r : Row e} (h : r ∈ rows) :
    r.id.toInt ≤ greatestId rows := by
  have hmem : r.id.toInt ∈ rows.map fun r => r.id.toInt := List.mem_map.mpr ⟨r, h, rfl⟩
  cases hmax : (rows.map fun r => r.id.toInt).max? with
  | none =>
    rw [List.max?_eq_none_iff] at hmax
    rw [hmax] at hmem
    exact absurd hmem List.not_mem_nil
  | some m =>
    rw [greatestId, hmax, Option.getD_some]
    exact (List.max?_eq_some_iff.mp hmax).2 _ hmem

theorem greatestId_mem {rows : List (Row e)} (h : rows ≠ []) :
    ∃ r ∈ rows, r.id.toInt = greatestId rows := by
  cases hmax : (rows.map fun r => r.id.toInt).max? with
  | none => exact absurd (List.map_eq_nil_iff.mp (List.max?_eq_none_iff.mp hmax)) h
  | some m =>
    rw [greatestId, hmax, Option.getD_some]
    exact List.mem_map.mp (List.max?_eq_some_iff.mp hmax).1

theorem isBounded_ofRows (rows : List (Row e)) : (ofRows rows).IsBounded where
  id_le id h := by
    rw [row?_ofRows, List.find?_isSome] at h
    obtain ⟨r, hr, hid⟩ := h
    rw [← beq_iff_eq.mp hid]
    exact le_greatestId (List.mem_reverse.mp hr)
  low := by
    by_cases h : rows = []
    · -- a ledger without rows begins at zero
      rw [h]
      exact show (-0x8000000000000000 : Int) ≤ 0 by decide
    · obtain ⟨r, -, hr⟩ := greatestId_mem h
      rw [ofRows, ← hr]
      exact Int64.le_toInt r.id

theorem change_eq (l : Ledger e) (id : Int64) (edit : Record e.columns → Record e.columns) :
    l.change id edit =
      match l.row? id with
      | some row => (.ok ⟨id, edit row.record⟩, l.put id (edit row.record))
      | none => (.error (.rowNotFound e.label), l) := by
  rw [change, row?]
  cases l.records id with
  | none => rfl
  | some record => rfl

/-- An operation leaves the greatest identifier alone, unless it asks for a new row. -/
theorem last_serve (op : Operation e) (l : Ledger e) :
    (serve op l).2.last = l.last + if op.isCreate then 1 else 0 := by
  -- Replacing and patching differ in the edit alone.
  have hchange : ∀ id edit, (l.change id edit).2.last = l.last := by
    intro id edit
    rw [change_eq]
    cases l.row? id with
    | none => rfl
    | some row => rfl
  cases op with
  | list predicates request => exact (Int.add_zero _).symm
  | get id =>
    simp only [serve]
    cases l.row? id with
    | none => exact (Int.add_zero _).symm
    | some row => exact (Int.add_zero _).symm
  | create record => rfl
  | replace id record => exact (hchange id _).trans (Int.add_zero _).symm
  | patch id changes => exact (hchange id _).trans (Int.add_zero _).symm
  | delete id =>
    simp only [serve]
    cases l.records id with
    | none => exact (Int.add_zero _).symm
    | some record => exact (Int.add_zero _).symm

/-- An operation leaves what stands under an identifier alone, unless it hands the identifier out or
names it and finds a row there. -/
theorem row?_serve (op : Operation e) (l : Ledger e) (id : Int64) :
    (serve op l).2.row? id = l.row? id ∨ (op.isCreate ∧ id = Int64.ofInt (l.last + 1)) ∨
      (op.target? = some id ∧ (l.row? id).isSome) := by
  -- A change finds a row under its own identifier or leaves the ledger as it is.
  have hchange : ∀ id' edit, (l.change id' edit).2.row? id = l.row? id ∨
      id' = id ∧ (l.row? id).isSome := by
    intro id' edit
    rw [change_eq]
    cases hrow : l.row? id' with
    | none => exact Or.inl rfl
    | some row =>
      by_cases heq : id = id'
      · exact Or.inr ⟨heq.symm, heq ▸ Option.isSome_of_eq_some hrow⟩
      · exact Or.inl ((row?_put l id' id _).trans (if_neg heq))
  cases op with
  | list predicates request => exact Or.inl rfl
  | get id' =>
    refine Or.inl ?_
    simp only [serve]
    cases l.row? id' with
    | none => rfl
    | some row => rfl
  | create record =>
    by_cases heq : id = Int64.ofInt (l.last + 1)
    · exact Or.inr (Or.inl ⟨rfl, heq⟩)
    · exact Or.inl ((row?_put l _ id record).trans (if_neg heq))
  | replace id' record => exact (hchange id' _).imp_right fun h => Or.inr ⟨congrArg some h.1, h.2⟩
  | patch id' changes => exact (hchange id' _).imp_right fun h => Or.inr ⟨congrArg some h.1, h.2⟩
  | delete id' =>
    simp only [serve]
    cases hrecord : l.records id' with
    | none => exact Or.inl rfl
    | some record =>
      by_cases heq : id = id'
      · refine Or.inr (Or.inr ⟨congrArg some heq.symm, ?_⟩)
        rw [heq, row?, hrecord]
        rfl
      · exact Or.inl ((row?_remove l id' id).trans (if_neg heq))

/-! ### Runs within the identifiers -/

/-- The identifiers suffice for the new rows that operations ask for. -/
def HasRoom (l : Ledger e) (ops : List (Operation e)) : Prop :=
  l.last + ops.countP Operation.isCreate < Int64.maxValue.toInt

theorem HasRoom.last_lt {l : Ledger e} {ops : List (Operation e)} (h : l.HasRoom ops) :
    l.last + 1 < 0x8000000000000000 := by
  rw [HasRoom, Int64.toInt_maxValue] at h
  omega

theorem HasRoom.toInt_next {l : Ledger e} {ops : List (Operation e)} (h : l.HasRoom ops)
    (hl : l.IsBounded) : (Int64.ofInt (l.last + 1)).toInt = l.last + 1 := by
  have hlow := hl.low
  exact Int64.toInt_ofInt_of_le (by omega) h.last_lt

theorem HasRoom.serve {l : Ledger e} {op : Operation e} {ops : List (Operation e)}
    (h : l.HasRoom (op :: ops)) : (serve op l).2.HasRoom ops := by
  rw [HasRoom, List.countP_cons] at h
  rw [HasRoom, last_serve]
  split_ifs at h ⊢
  · omega
  · omega

theorem HasRoom.of_append {l : Ledger e} {ops ops' : List (Operation e)}
    (h : l.HasRoom (ops ++ ops')) : l.HasRoom ops := by
  rw [HasRoom, List.countP_append] at h
  rw [HasRoom]
  omega

/-- The identifier handed out next is free. -/
theorem HasRoom.row?_next {l : Ledger e} {ops : List (Operation e)} (h : l.HasRoom ops)
    (hl : l.IsBounded) : l.row? (Int64.ofInt (l.last + 1)) = none := by
  cases hrow : l.row? (Int64.ofInt (l.last + 1)) with
  | none => rfl
  | some row =>
    have hle := hl.id_le _ (Option.isSome_of_eq_some hrow)
    rw [h.toInt_next hl] at hle
    omega

theorem IsBounded.serve {l : Ledger e} {op : Operation e} {ops : List (Operation e)}
    (hl : l.IsBounded) (h : l.HasRoom (op :: ops)) : (serve op l).2.IsBounded where
  id_le id hid := by
    rw [last_serve]
    rcases row?_serve op l id with hsame | ⟨hcreate, rfl⟩ | ⟨-, hheld⟩
    · -- what stood there before
      rw [hsame] at hid
      have hle := hl.id_le id hid
      split_ifs
      · omega
      · omega
    · -- the new row, which has the greatest identifier now
      rw [if_pos hcreate]
      exact Int.le_of_eq (h.toInt_next hl)
    · -- a changed row, whose identifier was there before
      have hle := hl.id_le id hheld
      split_ifs
      · omega
      · omega
  low := by
    have hlow := hl.low
    rw [last_serve]
    split_ifs
    · omega
    · omega

/-- After a part of a run the identifiers suffice for the rest. -/
theorem isBounded_answerAll (ops rest : List (Operation e)) {l : Ledger e} (hl : l.IsBounded)
    (h : l.HasRoom (ops ++ rest)) :
    (Plan.answerAll Ledger.serve ops l).2.IsBounded ∧
      (Plan.answerAll Ledger.serve ops l).2.HasRoom rest := by
  induction ops generalizing l with
  | nil => exact ⟨hl, h⟩
  | cons op ops ih =>
    rw [Plan.answerAll_cons]
    exact ih (hl.serve h) h.serve

/-- An operation keeps every row that it does not name. -/
theorem serve_keeps {l : Ledger e} {op : Operation e} {ops : List (Operation e)} (hl : l.IsBounded)
    (h : l.HasRoom ops) {id : Int64} {row : Row e} (hrow : l.row? id = some row)
    (hop : op.target? ≠ some id) : (Ledger.serve op l).2.row? id = some row := by
  rcases row?_serve op l id with hsame | ⟨-, rfl⟩ | ⟨htarget, -⟩
  · rw [hsame, hrow]
  · -- an identifier that is handed out was free, so no row stood there
    rw [h.row?_next hl] at hrow
    exact absurd hrow (by simp)
  · exact absurd htarget hop

end Ledger

/-! ### New rows -/

/-- The new rows among the answers to a run. -/
def created {e : Entity} (answers : List ((op : Operation e) × op.Answer)) : List (Row e) :=
  answers.filterMap fun
    | ⟨.create _, .ok row⟩ => some row
    | _ => none

namespace Ledger

variable {e : Entity}

/-- The new rows of a run: their identifiers ascend from the greatest that was used. -/
theorem created_pairwise (ops : List (Operation e)) {l : Ledger e} (hl : l.IsBounded)
    (h : l.HasRoom ops) :
    (∀ row ∈ created (Plan.answerAll serve ops l).1, l.last < row.id.toInt) ∧
      (created (Plan.answerAll serve ops l).1).Pairwise fun a b => a.id < b.id := by
  induction ops generalizing l with
  | nil => exact ⟨fun row hrow => absurd hrow List.not_mem_nil, List.Pairwise.nil⟩
  | cons op ops ih =>
    obtain ⟨habove, hascending⟩ := ih (hl.serve h) h.serve
    rw [Plan.answerAll_cons]
    rw [last_serve] at habove
    by_cases hcreate : op.isCreate
    · -- the new row stands before all later ones
      cases op with
      | create record =>
        have hnext := h.toInt_next hl
        refine ⟨fun row hrow => ?_, List.pairwise_cons.mpr ⟨fun row hrow => ?_, hascending⟩⟩
        · rcases List.mem_cons.mp hrow with rfl | hrow
          · rw [hnext]
            omega
          · have := habove row hrow
            rw [if_pos hcreate] at this
            omega
        · have := habove row hrow
          rw [if_pos hcreate] at this
          rw [Int64.lt_iff_toInt_lt, hnext]
          exact this
      | _ => exact absurd hcreate Bool.false_ne_true
    · have hskip : created (⟨op, (serve op l).1⟩ :: (Plan.answerAll serve ops (serve op l).2).1) =
          created (Plan.answerAll serve ops (serve op l).2).1 := by
        cases op with
        | create record => exact absurd rfl hcreate
        | _ => rfl
      rw [if_neg hcreate, Int.add_zero] at habove
      rw [hskip]
      exact ⟨habove, hascending⟩

end Ledger

end ExchangeCatalog
