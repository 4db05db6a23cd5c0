import ExchangeCatalog.Proofs.Service.Refinement

/-!
# Identifiers near the greatest word

A store counts its identifiers up from the greatest one that it begins with. There is none after the
greatest word: rows that hold it cannot be begun with, and a counter that has passed it goes on from
the least word. New rows then get identifiers from below, and one of these may still be held by an
old row, which the new row replaces.

## Main definitions

* `MemoryStore.StoresFresh` — a new row goes where no row stands
* `nextIdAfter` — the identifier that the next new row gets after some questions
* `IsHeld` — a row stands under an identifier after some questions
* `HandsOutIds` — what becomes of the identifiers of a store that begins with some rows

## Main results

* `MemoryStore.isSome_find?_answerAll_iff` — which rows are there after some questions
* `not_isHeld_of_room` — identifiers are free as long as the words suffice
* `identifiers_free_iff` — when rows can be begun with, and when a new row replaces an old one
-/

namespace ExchangeCatalog

variable {e : Entity}

theorem Call.exists_of_isCreate {c : Call e} (h : c.isCreate) : ∃ record, c = .create record := by
  cases c with
  | create record => exact ⟨record, rfl⟩
  | _ => cases h

namespace MemoryStore

/-- A new row is stored as it was asked for, under an identifier that no row had at that moment. -/
def StoresFresh (record : Record e.columns) (s : MemoryStore e) : Prop :=
  ∃ row, (ask (.create record) s).1 = .ok row ∧ row.record = record ∧
    (ask (.create record) s).2.table.find? row.id = some row ∧ s.table.find? row.id = none

/-- A new row goes to the counter's identifier, whatever stands there. -/
theorem storesFresh_iff {record : Record e.columns} {s : MemoryStore e} :
    StoresFresh record s ↔ s.table.find? s.nextId = none := by
  rw [StoresFresh, ask_create]
  constructor
  · rintro ⟨row, hrow, -, -, hfree⟩
    obtain rfl := Except.ok.inj hrow
    exact hfree
  · intro hfree
    exact ⟨_, rfl, rfl, (Table.find?_insert _ _ _).trans (if_pos rfl), hfree⟩

/-! ### What stands under an identifier -/

theorem nextId_ask (c : Call e) (s : MemoryStore e) :
    (ask c s).2.nextId = s.nextId + Int64.ofNat (if c.isCreate then 1 else 0) := by
  cases c with
  | find id => exact (Int64.add_zero _).symm
  | page filters request =>
    rw [ask_page]
    exact (Int64.add_zero _).symm
  | create record => rfl
  | update row =>
    rw [ask_update]
    split
    all_goals exact (Int64.add_zero _).symm
  | delete id =>
    rw [ask_delete]
    split
    all_goals exact (Int64.add_zero _).symm

/-- The counter goes up by one with each new row, from the greatest word to the least. -/
theorem nextId_answerAll (calls : List (Call e)) (s : MemoryStore e) :
    (Plan.answerAll ask calls s).2.nextId =
      s.nextId + Int64.ofNat (calls.countP Call.isCreate) := by
  induction calls generalizing s with
  | nil => exact (Int64.add_zero _).symm
  | cons c calls ih =>
    rw [Plan.answerAll_cons, ih, nextId_ask, List.countP_cons, Nat.add_comm, Int64.ofNat_add,
      Int64.add_assoc]

/-- After a question a row stands under an identifier if it was made there, or if one stood there
that was not deleted. -/
theorem isSome_find?_ask_iff (c : Call e) (s : MemoryStore e) (id : Int64) :
    ((ask c s).2.table.find? id).isSome ↔
      (c.isCreate ∧ s.nextId = id) ∨ ((s.table.find? id).isSome ∧ c ≠ .delete id) := by
  cases c with
  | find id' => simp [Call.isCreate]
  | page filters request => simp [ask_page, Call.isCreate]
  | create record =>
    simp only [ask_create, Table.find?_insert, Call.isCreate]
    by_cases hid : id = s.nextId
    · simp [hid]
    · simp [hid, Ne.symm hid]
  | update row =>
    rw [ask_update]
    split
    · rename_i hthere
      by_cases hid : id = row.id
      · simp [Table.find?_insert, Call.isCreate, hid, hthere]
      · simp [Table.find?_insert, Call.isCreate, hid]
    · simp [Call.isCreate]
  | delete id' =>
    rw [ask_delete]
    split
    · by_cases hid : id = id'
      · simp [Table.find?_erase, Call.isCreate, hid]
      · simp [Table.find?_erase, Call.isCreate, hid, Ne.symm hid]
    · rename_i hthere
      by_cases hid : id = id'
      · simp_all [Call.isCreate]
      · simp [Call.isCreate, Ne.symm hid]

/-- After some questions a row stands under an identifier if one stood there from the beginning or
was made there on the way, and has not been deleted since. -/
theorem isSome_find?_answerAll_iff (calls : List (Call e)) (s : MemoryStore e) (id : Int64) :
    ((Plan.answerAll ask calls s).2.table.find? id).isSome ↔
      ((s.table.find? id).isSome ∧ .delete id ∉ calls) ∨
        ∃ before record after, calls = before ++ .create record :: after ∧
          (Plan.answerAll ask before s).2.nextId = id ∧ .delete id ∉ after := by
  induction calls generalizing s with
  | nil => simp
  | cons c calls ih =>
    rw [Plan.answerAll_cons, ih, isSome_find?_ask_iff]
    constructor
    · rintro (⟨⟨hcreate, hid⟩ | ⟨hthere, hne⟩, hkept⟩ | ⟨before, record, after, rfl, hid, hkept⟩)
      · obtain ⟨record, rfl⟩ := Call.exists_of_isCreate hcreate
        exact Or.inr ⟨[], record, calls, rfl, hid, hkept⟩
      · exact Or.inl ⟨hthere, List.not_mem_cons_of_ne_of_not_mem hne.symm hkept⟩
      · exact Or.inr ⟨c :: before, record, after, rfl, hid, hkept⟩
    · rintro (⟨hthere, hkept⟩ | ⟨before, record, after, hcalls, hid, hkept⟩)
      · exact Or.inl ⟨Or.inr ⟨hthere, (List.ne_of_not_mem_cons hkept).symm⟩,
          List.not_mem_of_not_mem_cons hkept⟩
      · cases before with
        | nil =>
          obtain ⟨rfl, rfl⟩ := List.cons.inj hcalls
          exact Or.inl ⟨Or.inl ⟨rfl, hid⟩, hkept⟩
        | cons c' before =>
          obtain ⟨rfl, rfl⟩ := List.cons.inj hcalls
          exact Or.inr ⟨before, record, after, rfl, hid, hkept⟩

end MemoryStore

/-! ### Identifiers counted up from the greatest one -/

/-- The identifier that the next new row gets after some questions: the one that follows the
greatest of the first rows and all that have been handed out since. Behind the greatest word stands
the least. -/
def nextIdAfter (rows : List (Row e)) (calls : List (Call e)) : Int64 :=
  Int64.ofInt (greatestId rows + 1 + calls.countP Call.isCreate)

/-- After some questions a row stands under an identifier: one of the first rows or one that was
made on the way, and it has not been deleted since. -/
def IsHeld (rows : List (Row e)) (calls : List (Call e)) (id : Int64) : Prop :=
  ((∃ r ∈ rows, r.id = id) ∧ .delete id ∉ calls) ∨
    ∃ before record after, calls = before ++ .create record :: after ∧
      nextIdAfter rows before = id ∧ .delete id ∉ after

variable {rows : List (Row e)} {s : MemoryStore e}

theorem greatestId_lt_iff :
    greatestId rows < Int64.maxValue.toInt ↔ ∀ r ∈ rows, r.id ≠ Int64.maxValue := by
  constructor
  · intro h r hr hid
    have hle := Ledger.le_greatestId hr
    rw [hid] at hle
    exact absurd h (Int.not_lt.mpr hle)
  · intro h
    by_cases hrows : rows = []
    · rw [hrows]
      exact show (0 : Int) < 0x7FFFFFFFFFFFFFFF by decide
    · obtain ⟨r, hr, hid⟩ := Ledger.greatestId_mem hrows
      have hle := Int64.toInt_le r.id
      have hne : r.id.toInt ≠ Int64.maxValue.toInt := mt Int64.toInt_inj.mp (h r hr)
      rw [← hid]
      exact Int.lt_iff_le_and_ne.mpr ⟨hle, hne⟩

namespace MemoryStore

/-- Under the identifier of one of the rows that a store begins with stands a row. -/
theorem isSome_find?_of_ofRows? (h : ofRows? rows = some s) {id : Int64} :
    (s.table.find? id).isSome ↔ ∃ r ∈ rows, r.id = id := by
  rw [table_of_ofRows? h, Table.isSome_find?_ofRows]

/-- Rows can be begun with unless one of them has the greatest identifier. -/
theorem isSome_ofRows?_iff : (ofRows? rows).isSome ↔ ∀ r ∈ rows, r.id ≠ Int64.maxValue := by
  constructor
  · intro h r hr
    obtain ⟨s, hs⟩ := Option.isSome_iff_exists.mp h
    obtain ⟨row, hrow⟩ := Option.isSome_iff_exists.mp
      ((isSome_find?_of_ofRows? hs).mpr ⟨r, hr, rfl⟩)
    obtain ⟨hmem, hid⟩ := Table.find?_eq_some_iff.mp hrow
    -- The counter stands above every row, and no word stands above the greatest.
    have hlt := Int64.lt_iff_toInt_lt.mp (lt_nextId_of_ofRows? hs row hmem)
    have hnext := Int64.toInt_le s.nextId
    rw [hid] at hlt
    intro hmax
    rw [hmax] at hlt
    exact absurd hlt (Int.not_lt.mpr hnext)
  · intro h
    obtain ⟨s, hs, -⟩ := Ledger.exists_tracks_ofRows (greatestId_lt_iff.mpr h)
    rw [hs]
    rfl

/-- The counter of a store after some questions. -/
theorem nextId_answerAll_of_ofRows? (h : ofRows? rows = some s) (calls : List (Call e)) :
    (Plan.answerAll ask calls s).2.nextId = nextIdAfter rows calls := by
  have hgreatest := isSome_ofRows?_iff.mp (Option.isSome_of_eq_some h)
  obtain ⟨s', hs', htracks⟩ := Ledger.exists_tracks_ofRows (greatestId_lt_iff.mpr hgreatest)
  obtain rfl := Option.some.inj (h.symm.trans hs')
  rw [nextId_answerAll, htracks.nextId_eq, nextIdAfter, Int64.ofInt_add _ (calls.countP _ : Int),
    Int64.ofInt_eq_ofNat]
  rfl

/-- A row stands under an identifier exactly when what has been asked says so. -/
theorem isSome_find?_answerAll_iff_isHeld (h : ofRows? rows = some s) (calls : List (Call e))
    (id : Int64) :
    ((Plan.answerAll ask calls s).2.table.find? id).isSome ↔ IsHeld rows calls id := by
  rw [isSome_find?_answerAll_iff, isSome_find?_of_ofRows? h]
  simp only [nextId_answerAll_of_ofRows? h]
  rfl

end MemoryStore

theorem toInt_nextIdAfter {calls : List (Call e)}
    (room : greatestId rows + calls.countP Call.isCreate < Int64.maxValue.toInt) :
    (nextIdAfter rows calls).toInt = greatestId rows + 1 + calls.countP Call.isCreate := by
  have hlow : -0x8000000000000000 ≤ greatestId rows := (Ledger.isBounded_ofRows rows).low
  rw [Int64.toInt_maxValue] at room
  exact Int64.toInt_ofInt_of_le (by omega) (by omega)

/-- As long as the words suffice the next identifier is free: it stands above the first rows and
above all that were handed out before. -/
theorem not_isHeld_of_room {calls : List (Call e)}
    (room : greatestId rows + calls.countP Call.isCreate < Int64.maxValue.toInt) :
    ¬ IsHeld rows calls (nextIdAfter rows calls) := by
  have hnext := toInt_nextIdAfter room
  rintro (⟨⟨r, hr, hid⟩, -⟩ | ⟨before, record, after, rfl, hid, -⟩)
  · have hle := Ledger.le_greatestId hr
    rw [hid, hnext] at hle
    omega
  · rw [List.countP_append, List.countP_cons_of_pos (by rfl)] at room hnext
    have hbefore : (nextIdAfter rows before).toInt =
        greatestId rows + 1 + before.countP Call.isCreate := toInt_nextIdAfter (by omega)
    rw [← hid, hbefore] at hnext
    omega

/-- What becomes of the identifiers of a store that begins with some rows. -/
structure HandsOutIds (rows : List (Row e)) : Prop where
  /-- There is such a store unless a row has the greatest identifier. -/
  usable_iff : (MemoryStore.ofRows? rows).isSome ↔ ∀ r ∈ rows, r.id ≠ Int64.maxValue
  /-- It begins with the rows under their own identifiers, of two with one the later. -/
  begins : ∀ s, MemoryStore.ofRows? rows = some s →
    ∀ id, s.table.find? id = rows.reverse.find? fun r => r.id == id
  /-- After any questions a new row goes to the next identifier, -/
  created : ∀ s, MemoryStore.ofRows? rows = some s → ∀ calls record,
    (MemoryStore.ask (.create record) (Plan.answerAll MemoryStore.ask calls s).2).1 =
      .ok ⟨nextIdAfter rows calls, record⟩
  /-- which is free unless a row has come there before and has not been deleted. -/
  fresh_iff : ∀ s, MemoryStore.ofRows? rows = some s → ∀ calls record,
    MemoryStore.StoresFresh record (Plan.answerAll MemoryStore.ask calls s).2 ↔
      ¬ IsHeld rows calls (nextIdAfter rows calls)
  /-- It always is as long as the words suffice. -/
  fresh_of_room : ∀ s, MemoryStore.ofRows? rows = some s → ∀ calls record,
    greatestId rows + calls.countP Call.isCreate < Int64.maxValue.toInt →
      MemoryStore.StoresFresh record (Plan.answerAll MemoryStore.ask calls s).2

/-- When rows can be begun with, and when a new row goes where no row stands. -/
theorem identifiers_free_iff (rows : List (Row e)) : HandsOutIds rows := by
  have hfresh : ∀ s, MemoryStore.ofRows? rows = some s → ∀ calls (record : Record e.columns),
      MemoryStore.StoresFresh record (Plan.answerAll MemoryStore.ask calls s).2 ↔
        ¬ IsHeld rows calls (nextIdAfter rows calls) := by
    intro s hs calls record
    rw [MemoryStore.storesFresh_iff, MemoryStore.nextId_answerAll_of_ofRows? hs,
      ← MemoryStore.isSome_find?_answerAll_iff_isHeld hs, Option.not_isSome_iff_eq_none]
  refine ⟨MemoryStore.isSome_ofRows?_iff, fun s hs id => ?_, fun s hs calls record => ?_, hfresh,
    fun s hs calls record room => (hfresh s hs calls record).mpr (not_isHeld_of_room room)⟩
  · rw [MemoryStore.table_of_ofRows? hs, Table.find?_ofRows]
  · rw [MemoryStore.ask_create, MemoryStore.nextId_answerAll_of_ofRows? hs]

/-- A unit of measure with one text for both of its columns. -/
def unitNamed (name : String) : Record Catalog.measureUnit.columns :=
  .cons name (.cons name .nil)

/-- Two units, one under the least word and one under the last word but one. -/
def outermostUnits : List (Row Catalog.measureUnit) :=
  [⟨Int64.minValue, unitNamed "first"⟩, ⟨Int64.maxValue - 1, unitNamed "last"⟩]

/-- A unit under the greatest word cannot be begun with, and the second new unit after the outermost
ones replaces the first of these. -/
theorem outermostUnits_replaced :
    MemoryStore.ofRows? [(⟨Int64.maxValue, unitNamed "last"⟩ : Row Catalog.measureUnit)] = none ∧
      ∃ s, MemoryStore.ofRows? outermostUnits = some s ∧
        s.table.find? Int64.minValue = some ⟨Int64.minValue, unitNamed "first"⟩ ∧
        ¬ MemoryStore.StoresFresh (unitNamed "new")
          (Plan.answerAll MemoryStore.ask [.create (unitNamed "new")] s).2 ∧
        (Plan.answerAll MemoryStore.ask [.create (unitNamed "new"), .create (unitNamed "new")]
          s).2.table.find? Int64.minValue = some ⟨Int64.minValue, unitNamed "new"⟩ := by
  refine ⟨rfl, _, rfl, rfl, ?_, rfl⟩
  rw [MemoryStore.storesFresh_iff]
  exact Option.some_ne_none (⟨Int64.minValue, unitNamed "first"⟩ : Row Catalog.measureUnit)

end ExchangeCatalog
