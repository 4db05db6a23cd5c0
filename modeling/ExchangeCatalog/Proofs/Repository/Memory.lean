import ExchangeCatalog.Proofs.Repository.Table
import ExchangeCatalog.Proofs.Sequence
import ExchangeCatalog.Repository.Memory

/-!
# Questions to the repository in memory

A question to the repository is answered by steps on the store. With nothing happening in between,
the steps of one question amount to one change of the table and the counter, which is what this
module says of each question.

## Main definitions

* `MemoryStore.ask` — a question answered with nothing in between
* `Call.isCreate` — the questions that ask for a new row

## Main results

* `MemoryStore.run_eq_ask` — a session is run by asking its questions in turn
* `MemoryStore.ask_find`, `MemoryStore.ask_page`, `MemoryStore.ask_create`,
  `MemoryStore.ask_update`, `MemoryStore.ask_delete` — the answer to each question, and the store
  after it
* `MemoryStore.length_rows_answerAll_le` — there are at most as many more rows as were asked for
* `MemoryStore.lt_nextId_of_ofRows?` — a store that begins with rows hands out a greater identifier
-/

namespace ExchangeCatalog

/-- Whether a question asks for a new row. -/
def Call.isCreate {e : Entity} : Call e → Bool
  | .create _ => true
  | _ => false

namespace MemoryStore

variable {e : Entity}

/-- A question answered with nothing in between, and the store after it. -/
def ask (c : Call e) (s : MemoryStore e) : c.Answer × MemoryStore e := (answer c).run apply s

/-- A session is run by asking its questions in turn. -/
theorem run_eq_ask {α : Type} (s : MemoryStore e) (session : Plan (Call e) Call.Answer α) :
    s.run session = session.run ask s :=
  Plan.run_through apply answer session s

@[simp] theorem ask_find (id : Int64) (s : MemoryStore e) :
    ask (.find id) s = (.ok (s.table.find? id), s) := rfl

theorem ask_page (filters : List RetainedFilter) (request : PageRequest) (s : MemoryStore e) :
    ask (.page filters request) s =
      ((typedFilters filters).map fun typed => selectPage s.table typed request, s) := by
  simp only [ask, answer]
  cases typedFilters filters with
  | error fault => rfl
  | ok typed => rfl

@[simp] theorem ask_create (record : Record e.columns) (s : MemoryStore e) :
    ask (.create record) s =
      (.ok ⟨s.nextId, record⟩, ⟨s.table.insert ⟨s.nextId, record⟩, s.nextId + 1⟩) := rfl

theorem ask_update (row : Row e) (s : MemoryStore e) :
    ask (.update row) s =
      if (s.table.find? row.id).isSome then (.ok (some row), { s with table := s.table.insert row })
      else (.ok none, s) := by
  by_cases h : (s.table.find? row.id).isSome
  · simp only [ask, answer, Plan.run_ask, Plan.run_done, apply, if_pos h, if_true]
  · simp only [ask, answer, Plan.run_ask, Plan.run_done, apply, if_neg h, Bool.false_eq_true,
      if_false]

theorem ask_delete (id : Int64) (s : MemoryStore e) :
    ask (.delete id) s =
      if (s.table.find? id).isSome then (.ok true, { s with table := s.table.erase id })
      else (.ok false, s) := by
  by_cases h : (s.table.find? id).isSome
  · simp only [ask, answer, Plan.run_ask, Plan.run_done, apply, if_pos h]
  · simp only [ask, answer, Plan.run_ask, Plan.run_done, apply, if_neg h]

/-! ### The rows of a store -/

theorem length_rows_ask_le (c : Call e) (s : MemoryStore e) :
    (ask c s).2.table.rows.length ≤ s.table.rows.length + (if c.isCreate then 1 else 0) := by
  cases c with
  | find id => exact Nat.le_refl _
  | page filters request =>
    rw [ask_page]
    exact Nat.le_refl _
  | create record => exact s.table.length_insert_le _
  | update row =>
    rw [ask_update]
    cases hfind : s.table.find? row.id with
    | none => exact Nat.le_refl _
    | some old =>
      exact Nat.le_of_eq (s.table.length_insert_of_found (hfind ▸ Option.some_ne_none old))
  | delete id =>
    rw [ask_delete]
    cases s.table.find? id with
    | none => exact Nat.le_refl _
    | some row => exact List.length_filter_le _ _

/-- There are at most as many more rows as were asked for. -/
theorem length_rows_answerAll_le (calls : List (Call e)) (s : MemoryStore e) :
    (Plan.answerAll ask calls s).2.table.rows.length ≤
      s.table.rows.length + calls.countP Call.isCreate := by
  induction calls generalizing s with
  | nil => exact Nat.le_refl _
  | cons c calls ih =>
    have hone := length_rows_ask_le c s
    have hrest := ih (ask c s).2
    rw [Plan.answerAll_cons, List.countP_cons, Nat.add_comm (calls.countP _), ← Nat.add_assoc]
    exact Nat.le_trans hrest (Nat.add_le_add_right hone _)

variable {rows : List (Row e)} {s : MemoryStore e}

theorem table_of_ofRows? (h : ofRows? rows = some s) : s.table = Table.ofRows rows := by
  rw [ofRows?] at h
  repeat' split at h
  all_goals cases h
  all_goals rfl

/-- A store that begins with rows hands out an identifier greater than theirs. -/
theorem lt_nextId_of_ofRows? (h : ofRows? rows = some s) : ∀ r ∈ s.table.rows, r.id < s.nextId := by
  rw [table_of_ofRows? h]
  intro r hr
  rw [ofRows?] at h
  cases hlast : (Table.ofRows rows).lastId? with
  | none =>
    rw [Table.lastId?_eq_none_iff.mp hlast] at hr
    cases hr
  | some id =>
    rw [hlast] at h
    dsimp only at h
    split at h
    · cases h
    · rename_i hne
      cases h
      have hle := Int64.le_iff_toInt_le.mp ((Table.le_lastId? hlast).2 r hr)
      have hlast := Int64.toInt_le id
      have hlow := Int64.le_toInt id
      have hmax : Int64.maxValue.toInt = 0x7FFFFFFFFFFFFFFF := rfl
      have hbelow : id.toInt ≠ Int64.maxValue.toInt := mt Int64.toInt_inj.mp hne
      have hnext : id + 1 = Int64.ofInt (id.toInt + 1) := by
        rw [Int64.ofInt_add, Int64.ofInt_toInt]
        rfl
      rw [Int64.lt_iff_toInt_lt]
      change r.id.toInt < (id + 1).toInt
      rw [hnext, Int64.toInt_ofInt_of_le (by omega) (by omega)]
      omega

end MemoryStore

end ExchangeCatalog
