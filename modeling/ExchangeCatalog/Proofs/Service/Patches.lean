import ExchangeCatalog.Catalog
import ExchangeCatalog.Proofs.Entity.Patch
import ExchangeCatalog.Proofs.Interleaving
import ExchangeCatalog.Proofs.Repository.Memory
import ExchangeCatalog.Service

/-!
# Two changes of one row

A change of some values of a row reads the row, puts the new values in its copy, and writes the
whole copy back. Two such changes of one row, which concern different columns, may take their
questions to the repository in six orders. When one of them has written before the other reads, the
row ends with the values of both. In the four other orders both have read the same row, and whoever
writes last puts back the old values of the columns that the other has changed: that change is lost,
unless it changed nothing.

## Main definitions

* `Service.writing` — a change that has read its row
* `Service.Finish` — two sessions take turns and come to their ends

## Main results

* `Service.Finish.of_patches` — what two changes leave behind, order by order
* `Service.patches_kept_iff` — the orders in which neither of two changes is lost
-/

namespace ExchangeCatalog

namespace Row

variable {e : Entity} {changes : Bool → Patch e.columns}

/-- Two changes of different columns may be made in either order. -/
theorem applyPatch_either (r : Row e) (h : (changes false).disjoint (changes true)) (b : Bool) :
    (r.applyPatch (changes b)).applyPatch (changes !b) =
      (r.applyPatch (changes false)).applyPatch (changes true) := by
  cases b with
  | false => rfl
  | true => exact congrArg (Row.mk r.id) (r.record.applyPatch_comm h).symm

/-- Of two changes of different columns the first does not show exactly when it changes nothing. -/
theorem applyPatch_eq_both_iff (r : Row e) (h : (changes false).disjoint (changes true))
    (b : Bool) :
    r.applyPatch (changes !b) = (r.applyPatch (changes false)).applyPatch (changes true) ↔
      r.applyPatch (changes b) = r := by
  have hb : (changes b).disjoint (changes !b) := by
    cases b with
    | false => exact h
    | true => exact (Patch.disjoint_comm _ _).trans h
  rw [← applyPatch_either r h b]
  obtain ⟨id, record⟩ := r
  simp only [applyPatch, Row.mk.injEq, true_and]
  exact eq_comm.trans (record.applyPatch_applyPatch_eq_iff hb)

end Row

namespace Service

open MemoryStore (ask)
open Plan (Event Interleaving)

variable {e : Entity} {id : Int64} {s s' : MemoryStore e}
  {sessions sessions' : Bool → Session e (Row e)} {events : List (Event Bool (@Call.Answer e))}
  {b : Bool} {p : Patch e.columns} {old new : Row e}

/-- A change that has read its row and is about to write it back. -/
def writing (new : Row e) : Session e (Row e) :=
  asking (.update new) fun r => .done (found r)

/-- Two sessions, taking turns in an order, come to their ends and leave a store behind. -/
def Finish (b : Bool) (x y : Session e (Row e)) (s : MemoryStore e) (order : List Bool)
    (s' : MemoryStore e) : Prop :=
  ∃ sessions events sessions', sessions b = x ∧ sessions (!b) = y ∧
    Interleaving ask sessions s events sessions' s' ∧ (∀ c, ∃ a, sessions' c = .done a) ∧
      events.map Event.session = order

/-! ### Turns -/

namespace Finish

variable {x y : Session e (Row e)} {order : List Bool}

theorem swap (h : Finish b x y s order s') : Finish (!b) y x s order s' := by
  obtain ⟨sessions, events, sessions', hx, hy, run, hend, horder⟩ := h
  exact ⟨sessions, events, sessions', hy, (Bool.not_not b).symm ▸ hx, run, hend, horder⟩

/-- The first turn is taken by one of the two, if it has a question left. -/
theorem turn (h : Finish b x y s order s') :
    ((∃ a, x = .done a) ∧ (∃ a, y = .done a) ∧ order = [] ∧ s' = s) ∨
      (∃ c next later, x = .ask c next ∧ order = b :: later ∧
        Finish b (next (ask c s).1) y (ask c s).2 later s') ∨
      ∃ c next later, y = .ask c next ∧ order = (!b) :: later ∧
        Finish b x (next (ask c s).1) (ask c s).2 later s' := by
  obtain ⟨sessions, events, sessions', rfl, rfl, run, hend, rfl⟩ := h
  cases run with
  | stop => exact Or.inl ⟨hend b, hend (!b), rfl, rfl⟩
  | @turn _ _ _ _ later i c next asks rest =>
    rcases Bool.eq_or_eq_not i b with rfl | rfl
    · refine Or.inr (Or.inl ⟨c, next, later.map Event.session, asks, rfl, _, later, sessions',
        Function.update_self .., Function.update_of_ne ?_ .., rest, hend, rfl⟩)
      exact Bool.not_ne_self i
    · refine Or.inr (Or.inr ⟨c, next, later.map Event.session, asks, rfl, _, later, sessions',
        Function.update_of_ne ?_ .., Function.update_self .., rest, hend, rfl⟩)
      exact (Bool.not_ne_self b).symm

theorem of_done_done {a a' : Except Fault (Row e)} (h : Finish b (.done a) (.done a') s order s') :
    order = [] ∧ s' = s := by
  rcases h.turn with ⟨-, -, hend⟩ | ⟨_, _, _, hx, -⟩ | ⟨_, _, _, hy, -⟩
  · exact hend
  · cases hx
  · cases hy

theorem of_ask_done {c : Call e} {next : c.Answer → Session e (Row e)} {a : Except Fault (Row e)}
    (h : Finish b (.ask c next) (.done a) s order s') :
    ∃ later, order = b :: later ∧ Finish b (next (ask c s).1) (.done a) (ask c s).2 later s' := by
  rcases h.turn with ⟨⟨_, hx⟩, -⟩ | ⟨_, _, later, hx, horder, hlater⟩ | ⟨_, _, _, hy, -⟩
  · cases hx
  · cases hx
    exact ⟨later, horder, hlater⟩
  · cases hy

theorem of_ask_ask {c c' : Call e} {next : c.Answer → Session e (Row e)}
    {next' : c'.Answer → Session e (Row e)}
    (h : Finish b (.ask c next) (.ask c' next') s order s') :
    (∃ later, order = b :: later ∧
      Finish b (next (ask c s).1) (.ask c' next') (ask c s).2 later s') ∨
      ∃ later, order = (!b) :: later ∧
        Finish b (.ask c next) (next' (ask c' s).1) (ask c' s).2 later s' := by
  rcases h.turn with
    ⟨⟨_, hx⟩, -⟩ | ⟨_, _, later, hx, horder, hlater⟩ | ⟨_, _, later, hy, horder, hlater⟩
  · cases hx
  · cases hx
    exact Or.inl ⟨later, horder, hlater⟩
  · cases hy
    exact Or.inr ⟨later, horder, hlater⟩

end Finish

/-! ### Orders -/

section

variable {a : Except Fault (Row e)} {order : List Bool} {q : Patch e.columns}

/-- Putting a row in the place of one that is there. -/
theorem ask_update_of_isSome (h : (s.table.find? new.id).isSome) :
    ask (.update new) s = (.ok (some new), { s with table := s.table.insert new }) := by
  rw [MemoryStore.ask_update, if_pos h]

theorem find?_insert_self (t : Table e) (new : Row e) : (t.insert new).find? new.id = some new :=
  (Table.find?_insert _ _ _).trans (if_pos rfl)

/-- One change has read its row, and the other session is at its end. -/
theorem Finish.writing_done (h : Finish b (writing new) (.done a) s order s')
    (hthere : (s.table.find? new.id).isSome) :
    order = [b] ∧ s'.table.find? new.id = some new := by
  obtain ⟨later, rfl, hlater⟩ := h.of_ask_done
  rw [ask_update_of_isSome hthere] at hlater
  obtain ⟨rfl, rfl⟩ := hlater.of_done_done
  exact ⟨rfl, find?_insert_self _ _⟩

/-- One change is to begin, and the other session is at its end. -/
theorem Finish.patch_done (h : Finish b (patch id p) (.done a) s order s')
    (hfind : s.table.find? id = some old) :
    order = [b, b] ∧ s'.table.find? id = some (old.applyPatch p) := by
  obtain ⟨later, rfl, hlater⟩ := Finish.of_ask_done h
  rw [MemoryStore.ask_find, hfind] at hlater
  have hid : old.id = id := Table.id_of_find? hfind
  subst hid
  obtain ⟨rfl, hstored⟩ := Finish.writing_done hlater (Option.isSome_of_eq_some hfind)
  exact ⟨rfl, hstored⟩

/-- Both changes have read their row. -/
theorem Finish.writing_writing {new' : Row e} (h : Finish b (writing new) (writing new') s order s')
    (hid : new'.id = new.id) (hthere : (s.table.find? new.id).isSome) :
    (order = [b, !b] ∧ s'.table.find? new.id = some new') ∨
      order = [!b, b] ∧ s'.table.find? new.id = some new := by
  rcases h.of_ask_ask with ⟨later, rfl, hlater⟩ | ⟨later, rfl, hlater⟩
  · rw [ask_update_of_isSome hthere] at hlater
    have hstored := find?_insert_self s.table new
    rw [← hid] at hstored
    obtain ⟨rfl, hlast⟩ := hlater.swap.writing_done (Option.isSome_of_eq_some hstored)
    exact Or.inl ⟨rfl, hid ▸ hlast⟩
  · rw [ask_update_of_isSome (hid ▸ hthere)] at hlater
    have hstored := find?_insert_self s.table new'
    rw [hid] at hstored
    obtain ⟨rfl, hlast⟩ := hlater.writing_done (Option.isSome_of_eq_some hstored)
    exact Or.inr ⟨rfl, hlast⟩

/-- One change has read its row, and the other is to begin. -/
theorem Finish.writing_patch (h : Finish b (writing new) (patch id q) s order s')
    (hfind : s.table.find? id = some old) (hid : new.id = id) :
    (order = [b, !b, !b] ∧ s'.table.find? id = some (new.applyPatch q)) ∨
      (order = [!b, b, !b] ∧ s'.table.find? id = some (old.applyPatch q)) ∨
      order = [!b, !b, b] ∧ s'.table.find? id = some new := by
  subst hid
  have hthere := Option.isSome_of_eq_some hfind
  have hold : old.id = new.id := Table.id_of_find? hfind
  rcases Finish.of_ask_ask h with ⟨later, rfl, hlater⟩ | ⟨later, rfl, hlater⟩
  · rw [ask_update_of_isSome hthere] at hlater
    obtain ⟨rfl, hstored⟩ := Finish.patch_done hlater.swap (find?_insert_self _ _)
    exact Or.inl ⟨rfl, hstored⟩
  · rw [MemoryStore.ask_find, hfind] at hlater
    rcases Finish.writing_writing hlater hold hthere with ⟨rfl, hstored⟩ | ⟨rfl, hstored⟩
    · exact Or.inr (Or.inl ⟨rfl, hstored⟩)
    · exact Or.inr (Or.inr ⟨rfl, hstored⟩)

end

/-! ### Two changes -/

section

variable {changes : Bool → Patch e.columns} {order : List Bool}

/-- One change has read the row, and the other is to begin. -/
theorem Finish.of_first_read
    (h : Finish b (writing (old.applyPatch (changes b))) (patch id (changes !b)) s order s')
    (hfind : s.table.find? id = some old) :
    (order = [b, !b, !b] ∧
        s'.table.find? id = some ((old.applyPatch (changes b)).applyPatch (changes !b))) ∨
      ∃ c, order = [!b, c, !c] ∧ s'.table.find? id = some (old.applyPatch (changes !c)) := by
  have hid : old.id = id := Table.id_of_find? hfind
  rcases h.writing_patch hfind hid with ⟨rfl, hstored⟩ | ⟨rfl, hstored⟩ | ⟨rfl, hstored⟩
  · exact Or.inl ⟨rfl, hstored⟩
  · exact Or.inr ⟨b, rfl, hstored⟩
  · refine Or.inr ⟨!b, ?_, ?_⟩
    · rw [Bool.not_not]
    · rw [Bool.not_not]
      exact hstored

/-- What two changes leave behind: the row with both, if one of them was written before the other
read, and otherwise the row with the one that was written last. -/
theorem Finish.of_patches (h : Finish b (patch id (changes b)) (patch id (changes !b)) s order s')
    (hfind : s.table.find? id = some old) :
    ∃ b, (order = [b, b, !b, !b] ∧
        s'.table.find? id = some ((old.applyPatch (changes b)).applyPatch (changes !b))) ∨
      ∃ c, order = [b, !b, c, !c] ∧ s'.table.find? id = some (old.applyPatch (changes !c)) := by
  rcases Finish.of_ask_ask h with ⟨later, rfl, hlater⟩ | ⟨later, rfl, hlater⟩
  · rw [MemoryStore.ask_find, hfind] at hlater
    rcases Finish.of_first_read hlater hfind with ⟨rfl, hstored⟩ | ⟨c, rfl, hstored⟩
    · exact ⟨b, Or.inl ⟨rfl, hstored⟩⟩
    · exact ⟨b, Or.inr ⟨c, rfl, hstored⟩⟩
  · rw [MemoryStore.ask_find, hfind] at hlater
    have hswap : Finish (!b) (writing (old.applyPatch (changes !b))) (patch id (changes !!b)) s
        later s' := by
      rw [Bool.not_not]
      exact hlater.swap
    rcases hswap.of_first_read hfind with ⟨rfl, hstored⟩ | ⟨c, rfl, hstored⟩
    · exact ⟨!b, Or.inl ⟨rfl, hstored⟩⟩
    · exact ⟨!b, Or.inr ⟨c, rfl, hstored⟩⟩

/-- Of two changes of one row that concern different columns, none is lost exactly when one of them
was written before the other read the row, or when the one that was written first changes
nothing. -/
theorem patches_kept_iff {events : List (Event Bool (@Call.Answer e))}
    {sessions' : Bool → Session e (Row e)}
    (run : Interleaving ask (fun b => patch id (changes b)) s events sessions' s')
    (answered : ∀ b, ∃ r, sessions' b = .done (.ok r))
    (apart : (changes false).disjoint (changes true)) (hfind : s.table.find? id = some old) :
    s'.table.find? id = some ((old.applyPatch (changes false)).applyPatch (changes true)) ↔
      (∃ b, events.map Event.session = [b, b, !b, !b]) ∨
        ∃ b c, events.map Event.session = [b, !b, c, !c] ∧ old.applyPatch (changes c) = old := by
  have hfinish : Finish false (patch id (changes false)) (patch id (changes !false)) s
      (events.map Event.session) s' := by
    refine ⟨_, events, sessions', rfl, rfl, run, fun b => ?_, rfl⟩
    obtain ⟨r, hr⟩ := answered b
    exact ⟨_, hr⟩
  obtain ⟨b, ⟨horder, hstored⟩ | ⟨c, horder, hstored⟩⟩ := hfinish.of_patches hfind
  · rw [hstored, old.applyPatch_either apart]
    exact ⟨fun _ => Or.inl ⟨b, horder⟩, fun _ => rfl⟩
  · rw [hstored, Option.some.injEq, old.applyPatch_eq_both_iff apart]
    constructor
    · exact fun hsame => Or.inr ⟨b, c, horder, hsame⟩
    · rintro (⟨b', horder'⟩ | ⟨b', c', horder', hsame⟩)
      · -- A session that asks twice in a row does not let the other one read in between.
        obtain ⟨rfl, hb, -⟩ : b = b' ∧ (!b) = b' ∧ _ := by simpa using horder.symm.trans horder'
        exact absurd hb (Bool.not_ne_self b)
      · obtain ⟨-, rfl⟩ : b = b' ∧ c = c' := by simpa using horder.symm.trans horder'
        exact hsame

end

/-- A unit of measure. -/
def measureUnitRow (description name : String) : Row Catalog.measureUnit :=
  ⟨1, .cons description (.cons name .nil)⟩

/-- A store with one unit of measure. -/
def measureUnitStore : MemoryStore Catalog.measureUnit :=
  ⟨.ofRows [measureUnitRow "old" "old"], 2⟩

/-- One change of the description of the unit, and one of its name. -/
def measureUnitChanges : Bool → Patch Catalog.measureUnit.columns
  | false => .cons (some "new" : Option String) (.cons (none : Option String) .nil)
  | true => .cons (none : Option String) (.cons (some "new" : Option String) .nil)

theorem measureUnitChanges_kept :
    ∃ events sessions' s',
      Interleaving ask (fun b => patch 1 (measureUnitChanges b)) measureUnitStore events sessions'
        s' ∧
      (∀ b, ∃ r, sessions' b = .done (.ok r)) ∧
      (measureUnitChanges false).disjoint (measureUnitChanges true) ∧
      measureUnitStore.table.find? 1 = some (measureUnitRow "old" "old") ∧
      events.map Event.session = [true, true, false, false] ∧
      s'.table.find? 1 = some (((measureUnitRow "old" "old").applyPatch
        (measureUnitChanges false)).applyPatch (measureUnitChanges true)) := by
  have run : Interleaving ask (fun b => patch 1 (measureUnitChanges b)) measureUnitStore _ _ _ :=
    .turn (i := true) rfl (.turn (i := true) rfl (.turn (i := false) rfl (.turn (i := false) rfl
      (.stop _ _))))
  refine ⟨_, _, _, run, fun b => ?_, rfl, rfl, rfl,
    (patches_kept_iff run (fun b => ?_) rfl rfl).mpr (Or.inl ⟨true, rfl⟩)⟩
  all_goals
    cases b with
    | false => exact ⟨_, rfl⟩
    | true => exact ⟨_, rfl⟩

/-- When both have read the row before either is written, the row ends with one of them. -/
theorem measureUnitChanges_one_lost :
    ∃ events sessions' s',
      Interleaving ask (fun b => patch 1 (measureUnitChanges b)) measureUnitStore events sessions'
        s' ∧
      (∀ b, ∃ r, sessions' b = .done (.ok r)) ∧
      (measureUnitChanges false).disjoint (measureUnitChanges true) ∧
      measureUnitStore.table.find? 1 = some (measureUnitRow "old" "old") ∧
      events.map Event.session = [false, true, false, true] ∧
      s'.table.find? 1 = some (measureUnitRow "old" "new") ∧
      s'.table.find? 1 ≠ some (((measureUnitRow "old" "old").applyPatch
        (measureUnitChanges false)).applyPatch (measureUnitChanges true)) := by
  refine ⟨_, _, _, .turn (i := false) rfl (.turn (i := true) rfl (.turn (i := false) rfl
    (.turn (i := true) rfl (.stop _ _)))), fun b => ?_, rfl, rfl, rfl, rfl, fun hkept => ?_⟩
  · cases b with
    | false => exact ⟨_, rfl⟩
    | true => exact ⟨_, rfl⟩
  · have hdescription : some (Value.text "old") = some (.text "new") :=
      congrArg (fun r => r.bind fun r : Row Catalog.measureUnit => r.valueOf? "description") hkept
    exact absurd hdescription (by decide)

end Service

end ExchangeCatalog
