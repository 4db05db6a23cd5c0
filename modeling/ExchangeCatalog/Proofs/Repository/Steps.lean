import ExchangeCatalog.Proofs.Interleaving
import ExchangeCatalog.Proofs.Repository.Table
import ExchangeCatalog.Repository.Memory

/-!
# Steps on a store in any order

Sessions that use one store in memory may take its steps in any order. Whatever the order is, a row
disappears only by being removed, an identifier gets a row only by an insertion, and identifiers are
handed out in ascending order.

## Main definitions

* `MemoryStore.Step.takesId` — the step that hands out an identifier
* `MemoryStore.HasIds` — the counter has not wrapped around after some events

## Main results

* `MemoryStore.find?_apply` — all that a step can do to what stands under an identifier
* `MemoryStore.isSome_find?_of_interleaving`, `MemoryStore.find?_eq_none_of_interleaving`,
  `MemoryStore.find?_eq_some_of_interleaving` — what stands under an identifier after many steps
* `MemoryStore.le_of_taken`, `MemoryStore.session_eq_of_taken` — the identifiers that are handed out
-/

namespace ExchangeCatalog.MemoryStore

open Plan (Asked Event Interleaving)

variable {e : Entity}

/-- The step that hands out an identifier. -/
def Step.takesId : Step e → Bool
  | takeId => true
  | _ => false

/-- All that a step can do to what stands under an identifier: nothing, put a row there, put one in
the place of another, or remove what is there. -/
theorem find?_apply (q : Step e) (s : MemoryStore e) (id : Int64) :
    (apply q s).2.table.find? id = s.table.find? id ∨
      (∃ row, (⟨q, (apply q s).1⟩ : Asked Step.Answer) = ⟨.insert row, ()⟩ ∧ row.id = id ∧
        (apply q s).2.table.find? id = some row) ∨
      (∃ row, (⟨q, (apply q s).1⟩ : Asked Step.Answer) = ⟨.overwrite row, true⟩ ∧ row.id = id ∧
        (s.table.find? id).isSome ∧ (apply q s).2.table.find? id = some row) ∨
      ((⟨q, (apply q s).1⟩ : Asked Step.Answer) = ⟨.remove id, true⟩ ∧
        (s.table.find? id).isSome ∧ (apply q s).2.table.find? id = none) := by
  cases q with
  | takeId => exact Or.inl rfl
  | read _ => exact Or.inl rfl
  | select _ _ => exact Or.inl rfl
  | insert row =>
    simp only [apply, Table.find?_insert]
    by_cases hid : id = row.id
    · exact Or.inr (Or.inl ⟨row, rfl, hid.symm, if_pos hid⟩)
    · exact Or.inl (if_neg hid)
  | overwrite row =>
    simp only [apply]
    by_cases hthere : (s.table.find? row.id).isSome
    · rw [if_pos hthere]
      simp only [Table.find?_insert]
      by_cases hid : id = row.id
      · exact Or.inr (Or.inr (Or.inl ⟨row, rfl, hid.symm, hid ▸ hthere, if_pos hid⟩))
      · exact Or.inl (if_neg hid)
    · rw [if_neg hthere]
      exact Or.inl rfl
  | remove id' =>
    simp only [apply]
    by_cases hthere : (s.table.find? id').isSome
    · rw [if_pos hthere]
      simp only [Table.find?_erase]
      by_cases hid : id = id'
      · exact Or.inr (Or.inr (Or.inr ⟨by rw [hid], hid ▸ hthere, if_pos hid⟩))
      · exact Or.inl (if_neg hid)
    · rw [if_neg hthere]
      exact Or.inl rfl

/-! ### One step -/

variable {q : Step e} {s s' : MemoryStore e} {id : Int64} {row : Row e}

theorem isSome_find?_apply (h : (s.table.find? id).isSome)
    (hkeep : (⟨q, (apply q s).1⟩ : Asked Step.Answer) ≠ ⟨.remove id, true⟩) :
    ((apply q s).2.table.find? id).isSome := by
  rcases find?_apply q s id with hsame | ⟨row, -, -, hnew⟩ | ⟨row, -, -, -, hnew⟩ | ⟨hremoved, -, -⟩
  · rw [hsame]
    exact h
  · exact Option.isSome_of_eq_some hnew
  · exact Option.isSome_of_eq_some hnew
  · exact absurd hremoved hkeep

theorem find?_apply_eq_none (h : s.table.find? id = none)
    (hinsert : ∀ row : Row e, row.id = id →
      (⟨q, (apply q s).1⟩ : Asked Step.Answer) ≠ ⟨.insert row, ()⟩) :
    (apply q s).2.table.find? id = none := by
  rcases find?_apply q s id with hsame | ⟨row, hrow, hid, -⟩ | ⟨row, -, -, hold, -⟩ | ⟨-, -, hnew⟩
  · exact hsame.trans h
  · exact absurd hrow (hinsert row hid)
  · rw [h] at hold
    exact absurd hold Bool.false_ne_true
  · exact hnew

theorem find?_apply_eq_some (h : s.table.find? id = some row)
    (hinsert : ∀ row : Row e, row.id = id →
      (⟨q, (apply q s).1⟩ : Asked Step.Answer) ≠ ⟨.insert row, ()⟩)
    (hoverwrite : ∀ row : Row e, row.id = id →
      (⟨q, (apply q s).1⟩ : Asked Step.Answer) ≠ ⟨.overwrite row, true⟩)
    (hremove : (⟨q, (apply q s).1⟩ : Asked Step.Answer) ≠ ⟨.remove id, true⟩) :
    (apply q s).2.table.find? id = some row := by
  rcases find?_apply q s id with hsame | ⟨new, hnew, hid, -⟩ | ⟨new, hnew, hid, -⟩ | ⟨hgone, -⟩
  · exact hsame.trans h
  · exact absurd hnew (hinsert new hid)
  · exact absurd hnew (hoverwrite new hid)
  · exact absurd hgone hremove

theorem isSome_of_overwritten (h : (apply (.overwrite row) s).1 = true) :
    (s.table.find? row.id).isSome := by
  simp only [apply] at h
  split at h
  · assumption
  · cases h

theorem isSome_of_removed (h : (apply (.remove id) s).1 = true) : (s.table.find? id).isSome := by
  simp only [apply] at h
  split at h
  · assumption
  · cases h

theorem find?_apply_remove (s : MemoryStore e) (id : Int64) :
    (apply (.remove id) s).2.table.find? id = none := by
  simp only [apply]
  split
  · exact (Table.find?_erase _ _ _).trans (if_pos rfl)
  · rename_i h
    exact Option.not_isSome_iff_eq_none.mp h

/-- The counter goes up by one with each identifier that is handed out, until it wraps around. -/
theorem toInt_nextId_apply (h : q.takesId → s.nextId.toInt < Int64.maxValue.toInt) :
    (apply q s).2.nextId.toInt = s.nextId.toInt + if q.takesId then 1 else 0 := by
  cases q with
  | takeId =>
    have hlow := Int64.le_toInt s.nextId
    have hhigh : s.nextId.toInt < 0x7FFFFFFFFFFFFFFF := h rfl
    have hnext : s.nextId + 1 = Int64.ofInt (s.nextId.toInt + 1) := by
      rw [Int64.ofInt_add, Int64.ofInt_toInt]
      rfl
    change (s.nextId + 1).toInt = s.nextId.toInt + 1
    rw [hnext, Int64.toInt_ofInt_of_le (by omega) (by omega)]
  | insert _ => exact (Int.add_zero _).symm
  | read _ => exact (Int.add_zero _).symm
  | select _ _ => exact (Int.add_zero _).symm
  | overwrite row =>
    simp only [apply]
    split
    · exact (Int.add_zero _).symm
    · exact (Int.add_zero _).symm
  | remove id =>
    simp only [apply]
    split
    · exact (Int.add_zero _).symm
    · exact (Int.add_zero _).symm

/-! ### Many steps -/

section

variable {ι α : Type} [DecidableEq ι] {sessions sessions' : ι → Plan (Step e) Step.Answer α}
  {events : List (Event ι (@Step.Answer e))}

/-- A row disappears only by being removed. -/
theorem isSome_find?_of_interleaving (run : Interleaving apply sessions s events sessions' s')
    (h : (s.table.find? id).isSome) (hkeep : ∀ i, ⟨i, .remove id, true⟩ ∉ events) :
    (s'.table.find? id).isSome := by
  induction run with
  | stop => exact h
  | turn asks rest ih =>
    refine ih (isSome_find?_apply h ?_) fun i hi => hkeep i (List.mem_cons_of_mem _ hi)
    intro hremoved
    exact hkeep _ (Plan.mem_cons_of_asked hremoved)

/-- An identifier gets a row only by an insertion. -/
theorem find?_eq_none_of_interleaving (run : Interleaving apply sessions s events sessions' s')
    (h : s.table.find? id = none)
    (hinsert : ∀ i, ∀ row : Row e, row.id = id → ⟨i, .insert row, ()⟩ ∉ events) :
    s'.table.find? id = none := by
  induction run with
  | stop => exact h
  | turn asks rest ih =>
    refine ih (find?_apply_eq_none h ?_) fun i row hid hi =>
      hinsert i row hid (List.mem_cons_of_mem _ hi)
    intro row hid hrow
    exact hinsert _ row hid (Plan.mem_cons_of_asked hrow)

/-- A row that nobody writes or removes stays as it is. -/
theorem find?_eq_some_of_interleaving (run : Interleaving apply sessions s events sessions' s')
    (h : s.table.find? id = some row)
    (hinsert : ∀ i, ∀ row : Row e, row.id = id → ⟨i, .insert row, ()⟩ ∉ events)
    (hoverwrite : ∀ i, ∀ row : Row e, row.id = id → ⟨i, .overwrite row, true⟩ ∉ events)
    (hremove : ∀ i, ⟨i, .remove id, true⟩ ∉ events) :
    s'.table.find? id = some row := by
  induction run with
  | stop => exact h
  | turn asks rest ih =>
    refine ih (find?_apply_eq_some h ?_ ?_ ?_)
      (fun i row hid hi => hinsert i row hid (List.mem_cons_of_mem _ hi))
      (fun i row hid hi => hoverwrite i row hid (List.mem_cons_of_mem _ hi))
      fun i hi => hremove i (List.mem_cons_of_mem _ hi)
    · intro row hid hrow
      exact hinsert _ row hid (Plan.mem_cons_of_asked hrow)
    · intro row hid hrow
      exact hoverwrite _ row hid (Plan.mem_cons_of_asked hrow)
    · intro hremoved
      exact hremove _ (Plan.mem_cons_of_asked hremoved)

/-- After some events the counter of a store has not wrapped around. -/
def HasIds (s : MemoryStore e) (events : List (Event ι (@Step.Answer e))) : Prop :=
  s.nextId.toInt + events.countP (fun event => event.asked.1.takesId) ≤ Int64.maxValue.toInt

instance (s : MemoryStore e) (events : List (Event ι (@Step.Answer e))) :
    Decidable (s.HasIds events) :=
  inferInstanceAs (Decidable (_ ≤ _))

omit [DecidableEq ι] in
theorem HasIds.of_append {after : List (Event ι (@Step.Answer e))}
    (h : s.HasIds (events ++ after)) : s.HasIds events := by
  rw [HasIds, List.countP_append] at h
  rw [HasIds]
  omega

omit [DecidableEq ι] in
theorem HasIds.of_cons {i : ι} (h : s.HasIds (⟨i, q, (apply q s).1⟩ :: events)) :
    (apply q s).2.nextId.toInt = s.nextId.toInt + (if q.takesId then 1 else 0) ∧
      (apply q s).2.HasIds events := by
  rw [HasIds, List.countP_cons] at h
  have hnext := toInt_nextId_apply (q := q) (s := s) fun htakes => by
    rw [if_pos htakes] at h
    omega
  refine ⟨hnext, ?_⟩
  rw [HasIds, hnext]
  split_ifs at h ⊢
  · omega
  · omega

/-- Identifiers that are handed out are not below the counter. -/
theorem le_of_taken (run : Interleaving apply sessions s events sessions' s')
    (room : s.HasIds events) {i : ι} (h : ⟨i, .takeId, id⟩ ∈ events) :
    s.nextId.toInt ≤ id.toInt := by
  induction run with
  | stop => exact absurd h List.not_mem_nil
  | @turn _ _ s _ _ j q next asks rest ih =>
    obtain ⟨hnext, hroom⟩ := room.of_cons
    rcases List.mem_cons.mp h with heq | h
    · cases heq
      exact Int.le_refl _
    · have hle := ih hroom h
      rw [hnext] at hle
      split_ifs at hle
      · omega
      · omega

/-- An identifier that is handed out is none of those that the counter stood above. -/
theorem find?_eq_none_of_taken (run : Interleaving apply sessions s events sessions' s')
    (room : s.HasIds events) (below : ∀ r ∈ s.table.rows, r.id < s.nextId) {i : ι}
    (h : ⟨i, .takeId, id⟩ ∈ events) : s.table.find? id = none := by
  refine Table.find?_eq_none_iff.mpr fun r hr hid => ?_
  have hlt := Int64.lt_iff_toInt_lt.mp (below r hr)
  rw [hid] at hlt
  exact absurd (le_of_taken run room h) (Int.not_le.mpr hlt)

/-- Two sessions are never handed the same identifier. -/
theorem session_eq_of_taken (run : Interleaving apply sessions s events sessions' s')
    (room : s.HasIds events) {i j : ι} (hi : ⟨i, .takeId, id⟩ ∈ events)
    (hj : ⟨j, .takeId, id⟩ ∈ events) : i = j := by
  induction run with
  | stop => exact absurd hi List.not_mem_nil
  | @turn _ _ s _ later k q next asks rest ih =>
    obtain ⟨hnext, hroom⟩ := room.of_cons
    -- What is handed out later lies above the counter, which has gone up.
    have hlater : ∀ l, q = .takeId → s.nextId.toInt = id.toInt → ⟨l, .takeId, id⟩ ∉ later := by
      rintro l rfl hid hl
      have hle := le_of_taken rest hroom hl
      rw [hnext, hid] at hle
      exact absurd hle (Int.not_le.mpr (Int.lt_add_one_iff.mpr (Int.le_refl _)))
    rcases List.mem_cons.mp hi with heqi | hilater
    · rcases List.mem_cons.mp hj with heqj | hjlater
      · exact (congrArg Event.session heqi).trans (congrArg Event.session heqj).symm
      · cases heqi
        exact absurd hjlater (hlater j rfl rfl)
    · rcases List.mem_cons.mp hj with heqj | hjlater
      · cases heqj
        exact absurd hilater (hlater i rfl rfl)
      · exact ih hroom hilater hjlater

end

end ExchangeCatalog.MemoryStore
