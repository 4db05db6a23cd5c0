import ExchangeCatalog.Catalog
import ExchangeCatalog.Proofs.Lists
import ExchangeCatalog.Proofs.Repository.Steps
import ExchangeCatalog.Proofs.Service.Session

/-!
# Requests side by side

Any number of requests are answered from one store in memory, and their steps are taken in any
order. Two things could go wrong. A new row takes its identifier and its place in two steps, so
another request might get at the place in between; and a change holds a copy of the row while
another request removes it, so it might bring the row back.

Neither happens. An identifier gets a row at most once in a run, since whoever puts a row in was
handed the identifier, and no two requests are handed the same one. So a place that is about to be
taken is free, and a row that has been removed is gone for good: the only step that could bring it
back finds nothing in whose place to write.

## Main definitions

* `Service.Turns` — requests take turns on a store in memory
* `Service.KeepsRows` — what the requests and the store can rely on

## Main results

* `Service.not_inserted_of_inserting` — an identifier gets a row at most once
* `Service.find?_eq_none_of_removed` — a row that has been removed stays away
* `Service.concurrent_requests_keep_rows` — every run of requests in any order keeps the rows
-/

namespace ExchangeCatalog.Service

open MemoryStore (Step apply)
open Plan (Event Follows Interleaving mem_ownAsked_iff ownAsked)

variable {e : Entity} {ι : Type} [DecidableEq ι]

/-- Requests take turns on a store in memory. -/
abbrev Turns (ops : ι → Operation e) :
    MemoryStore e → List (Event ι (@Step.Answer e)) →
      (ι → Plan (Step e) Step.Answer ((op : Operation e) × op.Answer)) → MemoryStore e → Prop :=
  Interleaving apply fun i => (ops i).pending

variable {ops : ι → Operation e} {s s' : MemoryStore e}
  {events before after : List (Event ι (@Step.Answer e))}
  {sessions' : ι → Plan (Step e) Step.Answer ((op : Operation e) × op.Answer)}
  {i j : ι} {row : Row e} {id : Int64}

/-! ### Identifiers -/

/-- A row was put in under an identifier that the same request was handed. -/
theorem taken_of_mem_inserted (run : Turns ops s events sessions' s')
    (h : ⟨i, .insert row, ()⟩ ∈ events) : ⟨i, .takeId, row.id⟩ ∈ events :=
  mem_ownAsked_iff.mp (Operation.taken_of_inserted (run.follows i) (mem_ownAsked_iff.mpr h))

/-- An identifier that a row is about to be put in under stood for no row at the start, and no row
was put in under it since. -/
theorem not_inserted_of_inserting (run : Turns ops s events sessions' s') (room : s.HasIds events)
    (below : ∀ r ∈ s.table.rows, r.id < s.nextId)
    {next : Unit → Plan (Step e) Step.Answer ((op : Operation e) × op.Answer)}
    (h : sessions' i = .ask (.insert row) next) :
    s.table.find? row.id = none ∧
      ∀ j, ∀ other : Row e, other.id = row.id → ⟨j, .insert other, ()⟩ ∉ events := by
  have hfollows := run.follows i
  rw [h] at hfollows
  obtain ⟨htaken, hfirst⟩ := Operation.taken_of_inserting hfollows
  have htaken := mem_ownAsked_iff.mp htaken
  refine ⟨MemoryStore.find?_eq_none_of_taken run room below htaken, fun j other hid hj => ?_⟩
  -- Whoever put the other row in was handed the same identifier, so it was the same request.
  have hjtaken := taken_of_mem_inserted run hj
  rw [hid] at hjtaken
  obtain rfl := MemoryStore.session_eq_of_taken run room htaken hjtaken
  exact hfirst other (mem_ownAsked_iff.mpr hj)

/-- The place of a row that is about to be put in is free. -/
theorem find?_eq_none_of_inserting (run : Turns ops s events sessions' s') (room : s.HasIds events)
    (below : ∀ r ∈ s.table.rows, r.id < s.nextId)
    {next : Unit → Plan (Step e) Step.Answer ((op : Operation e) × op.Answer)}
    (h : sessions' i = .ask (.insert row) next) : s'.table.find? row.id = none := by
  obtain ⟨hstart, hfirst⟩ := not_inserted_of_inserting run room below h
  exact MemoryStore.find?_eq_none_of_interleaving run hstart hfirst

/-- An identifier gets a row at most once: it stood for none at the start, and none was put in under
it before. -/
theorem not_inserted_before
    (run : Turns ops s (before ++ ⟨j, .insert row, ()⟩ :: after) sessions' s')
    (room : s.HasIds (before ++ ⟨j, .insert row, ()⟩ :: after))
    (below : ∀ r ∈ s.table.rows, r.id < s.nextId) :
    s.table.find? row.id = none ∧
      ∀ i, ∀ other : Row e, other.id = row.id → ⟨i, .insert other, ()⟩ ∉ before := by
  obtain ⟨_, _, _, hbefore, hasks, -, -⟩ := run.exists_of_append_cons
  exact not_inserted_of_inserting hbefore room.of_append below hasks

/-! ### Removed rows -/

/-- A row that has been removed stays away. -/
theorem find?_eq_none_of_removed (run : Turns ops s events sessions' s') (room : s.HasIds events)
    (below : ∀ r ∈ s.table.rows, r.id < s.nextId) (h : ⟨i, .remove id, true⟩ ∈ events) :
    s'.table.find? id = none := by
  obtain ⟨before, after, rfl⟩ := List.append_of_mem h
  obtain ⟨_, t, _, hbefore, -, hremoved, hafter⟩ := run.exists_of_append_cons
  refine MemoryStore.find?_eq_none_of_interleaving hafter (MemoryStore.find?_apply_remove t id)
    fun j row hid hj => ?_
  -- A row put in later would be the first under its identifier, and then none could be removed.
  obtain ⟨upto, rest, hcut, -, hupto⟩ := exists_append_of_mem_after hj
  rw [hcut] at run room
  obtain ⟨hstart, hfirst⟩ := not_inserted_before run room below
  rw [hid] at hstart hfirst
  have hnone := MemoryStore.find?_eq_none_of_interleaving hbefore hstart fun k other hother hk =>
    hfirst k other hother (hupto hk)
  have hthere := MemoryStore.isSome_of_removed hremoved.symm
  rw [hnone] at hthere
  exact absurd hthere Bool.false_ne_true

/-- A row that has been removed is not removed again. -/
theorem not_removed_of_removed
    (run : Turns ops s (before ++ ⟨j, .remove id, true⟩ :: after) sessions' s')
    (room : s.HasIds (before ++ ⟨j, .remove id, true⟩ :: after))
    (below : ∀ r ∈ s.table.rows, r.id < s.nextId) : ⟨i, .remove id, true⟩ ∉ before := by
  intro hi
  obtain ⟨_, t, _, hbefore, -, hremoved, -⟩ := run.exists_of_append_cons
  have hthere := MemoryStore.isSome_of_removed hremoved.symm
  rw [find?_eq_none_of_removed hbefore room.of_append below hi] at hthere
  exact absurd hthere Bool.false_ne_true

/-- A row that has been removed is not written again. -/
theorem not_overwritten_of_removed
    (run : Turns ops s (before ++ ⟨j, .overwrite row, true⟩ :: after) sessions' s')
    (room : s.HasIds (before ++ ⟨j, .overwrite row, true⟩ :: after))
    (below : ∀ r ∈ s.table.rows, r.id < s.nextId) : ⟨i, .remove row.id, true⟩ ∉ before := by
  intro hi
  obtain ⟨_, t, _, hbefore, -, hwritten, -⟩ := run.exists_of_append_cons
  have hthere := MemoryStore.isSome_of_overwritten hwritten.symm
  rw [find?_eq_none_of_removed hbefore room.of_append below hi] at hthere
  exact absurd hthere Bool.false_ne_true

/-- A row is removed by one request only. -/
theorem session_eq_of_removed (run : Turns ops s events sessions' s') (room : s.HasIds events)
    (below : ∀ r ∈ s.table.rows, r.id < s.nextId) (hi : ⟨i, .remove id, true⟩ ∈ events)
    (hj : ⟨j, .remove id, true⟩ ∈ events) : i = j := by
  obtain ⟨before, after, rfl⟩ := List.append_of_mem hi
  rcases List.mem_append.mp hj with hj | hj
  · exact absurd hj (not_removed_of_removed run room below)
  · rcases List.mem_cons.mp hj with heq | hj
    · exact (congrArg Event.session heq).symm
    · obtain ⟨upto, rest, hcut, hremoved, -⟩ := exists_append_of_mem_after hj
      rw [hcut] at run room
      exact absurd hremoved (not_removed_of_removed run room below)

/-! ### New rows -/

/-- A row that was put in is there until it is removed. -/
theorem isSome_find?_of_inserted (run : Turns ops s events sessions' s')
    (h : ⟨i, .insert row, ()⟩ ∈ events) (hkeep : ∀ j, ⟨j, .remove row.id, true⟩ ∉ events) :
    (s'.table.find? row.id).isSome := by
  obtain ⟨before, after, rfl⟩ := List.append_of_mem h
  obtain ⟨_, t, _, -, -, -, hafter⟩ := run.exists_of_append_cons
  have hnow : (t.table.insert row).find? row.id = some row :=
    (Table.find?_insert _ _ _).trans (if_pos rfl)
  exact MemoryStore.isSome_find?_of_interleaving hafter (Option.isSome_of_eq_some hnow) fun j hj =>
    hkeep j (List.mem_append_right _ (List.mem_cons_of_mem _ hj))

/-- A row that was put in stays as it is until it is written or removed. -/
theorem find?_eq_some_of_inserted (run : Turns ops s events sessions' s') (room : s.HasIds events)
    (below : ∀ r ∈ s.table.rows, r.id < s.nextId) (h : ⟨i, .insert row, ()⟩ ∈ events)
    (hkeep : ∀ j, ⟨j, .remove row.id, true⟩ ∉ events)
    (hsame : ∀ j, ∀ other : Row e, other.id = row.id → ⟨j, .overwrite other, true⟩ ∉ events) :
    s'.table.find? row.id = some row := by
  obtain ⟨before, after, rfl⟩ := List.append_of_mem h
  obtain ⟨_, t, _, -, -, -, hafter⟩ := run.exists_of_append_cons
  have hnow : (t.table.insert row).find? row.id = some row :=
    (Table.find?_insert _ _ _).trans (if_pos rfl)
  refine MemoryStore.find?_eq_some_of_interleaving hafter hnow (fun j other hid hj => ?_)
    (fun j other hid hj => hsame j other hid (List.mem_append_right _ (List.mem_cons_of_mem _ hj)))
    fun j hj => hkeep j (List.mem_append_right _ (List.mem_cons_of_mem _ hj))
  obtain ⟨upto, rest, hcut, hinserted, -⟩ := exists_append_of_mem_after hj
  rw [hcut] at run room
  exact (not_inserted_before run room below).2 i row hid.symm hinserted

/-- The identifier of a new row was handed to the request that is answered with it. -/
theorem taken_of_created (run : Turns ops s events sessions' s') {record : Record e.columns}
    (h : sessions' i = .done ⟨.create record, .ok row⟩) : ⟨i, .takeId, row.id⟩ ∈ events := by
  have hfollows := run.follows i
  rw [h] at hfollows
  rw [← Operation.eq_of_done hfollows] at hfollows
  rcases Operation.inserted_of_create hfollows with ⟨_, _, hasks⟩ | ⟨id, hdone, hinserted⟩
  · cases hasks
  · cases hdone
    exact taken_of_mem_inserted run (mem_ownAsked_iff.mp hinserted)

/-! ### Changes in flight -/

/-- A change reads the row that it asks for. -/
theorem id_of_read {old : Row e} (run : Turns ops s events sessions' s')
    (h : ⟨i, .read id, some old⟩ ∈ events) : old.id = id := by
  obtain ⟨before, after, rfl⟩ := List.append_of_mem h
  obtain ⟨_, t, _, -, -, hread, -⟩ := run.exists_of_append_cons
  exact Table.id_of_find? hread.symm

/-- A change that has not been written when its row is removed finds no row any more. -/
theorem not_found_of_removed
    (run : Turns ops s (before ++ ⟨i, .remove id, true⟩ :: after) sessions' s')
    (room : s.HasIds (before ++ ⟨i, .remove id, true⟩ :: after))
    (below : ∀ r ∈ s.table.rows, r.id < s.nextId) (hop : (ops j).edited? = some id)
    (hlate : ∀ row, ⟨j, .overwrite row, true⟩ ∉ before) :
    (∃ q next, sessions' j = .ask q next) ∨
      sessions' j = .done ⟨ops j, .error (.rowNotFound e.label)⟩ := by
  rcases Operation.written_of_edited hop (run.follows j) with
    hasks | hdone | ⟨old, new, hid, hread, hnew⟩
  · exact Or.inl hasks
  · exact Or.inr hdone
  · obtain rfl : new.id = id := hid.trans (id_of_read run (mem_ownAsked_iff.mp hread))
    rcases List.mem_append.mp (mem_ownAsked_iff.mp hnew) with hj | hj
    · exact absurd hj (hlate new)
    · rcases List.mem_cons.mp hj with heq | hj
      · cases heq
      · -- The row would have been written after it was removed.
        obtain ⟨upto, rest, hcut, hremoved, -⟩ := exists_append_of_mem_after hj
        rw [hcut] at run room
        exact absurd hremoved (not_overwritten_of_removed run room below)

/-! ### Runs of requests -/

/-- What the requests and the store can rely on when requests take turns. -/
structure KeepsRows (ops : ι → Operation e) (s : MemoryStore e)
    (events : List (Event ι (@Step.Answer e)))
    (sessions' : ι → Plan (Step e) Step.Answer ((op : Operation e) × op.Answer))
    (s' : MemoryStore e) : Prop where
  /-- Every request can be brought to its end. -/
  ends : ∀ i, ∃ more sessions'' s'' answer, Interleaving apply sessions' s' more sessions'' s'' ∧
    (∀ event ∈ more, event.session = i) ∧ sessions'' i = .done ⟨ops i, answer⟩
  /-- A request for a new row is on its way, or has put in a row with its record and answered it;
  the identifier is none of those at the start. -/
  created : ∀ i record, ops i = .create record → (∃ q next, sessions' i = .ask q next) ∨
    ∃ id, sessions' i = .done ⟨.create record, .ok ⟨id, record⟩⟩ ∧
      ⟨i, .insert ⟨id, record⟩, ()⟩ ∈ events ∧ s.table.find? id = none
  /-- Different requests for new rows are answered with different identifiers. -/
  created_ne : ∀ i j record record' row row', i ≠ j →
    sessions' i = .done ⟨.create record, .ok row⟩ →
      sessions' j = .done ⟨.create record', .ok row'⟩ → row.id ≠ row'.id
  /-- A row that is about to be put in takes no other row's place. -/
  free_of_inserting : ∀ i row next, sessions' i = .ask (.insert row) next →
    s'.table.find? row.id = none
  /-- A row that was put in is there until it is removed. -/
  held_of_inserted : ∀ i row, ⟨i, .insert row, ()⟩ ∈ events →
    (∀ j, ⟨j, .remove row.id, true⟩ ∉ events) → (s'.table.find? row.id).isSome
  /-- It is the row that was put in until it is written or removed. -/
  kept_of_inserted : ∀ i row, ⟨i, .insert row, ()⟩ ∈ events →
    (∀ j, ⟨j, .remove row.id, true⟩ ∉ events) →
      (∀ j, ∀ other : Row e, other.id = row.id → ⟨j, .overwrite other, true⟩ ∉ events) →
        s'.table.find? row.id = some row
  /-- A deletion that is answered with success has removed the row. -/
  removed_of_deleted : ∀ i id, sessions' i = .done ⟨.delete id, .ok ()⟩ →
    ⟨i, .remove id, true⟩ ∈ events
  /-- A row is removed by one request only. -/
  removed_once : ∀ i j id, ⟨i, .remove id, true⟩ ∈ events → ⟨j, .remove id, true⟩ ∈ events → i = j
  /-- A row that has been removed stays away. -/
  absent_of_removed : ∀ i id, ⟨i, .remove id, true⟩ ∈ events → s'.table.find? id = none
  /-- A change that had not been written when its row was removed is on its way or is answered that
  there is no row. -/
  not_found_of_removed : ∀ before after i id, events = before ++ ⟨i, .remove id, true⟩ :: after →
    ∀ j, (ops j).edited? = some id → (∀ row, ⟨j, .overwrite row, true⟩ ∉ before) →
      (∃ q next, sessions' j = .ask q next) ∨
        sessions' j = .done ⟨ops j, .error (.rowNotFound e.label)⟩

/-- Requests to a repository that begins with some rows keep its rows, in whatever order their steps
are taken, as long as the counter does not wrap around. -/
theorem concurrent_requests_keep_rows {rows : List (Row e)}
    (start : MemoryStore.ofRows? rows = some s) (run : Turns ops s events sessions' s')
    (room : s.HasIds events) : KeepsRows ops s events sessions' s' := by
  have below := MemoryStore.lt_nextId_of_ofRows? start
  refine ⟨fun i => ?_, fun i record hop => ?_, ?_, ?_, fun i row => isSome_find?_of_inserted run,
    fun i row => find?_eq_some_of_inserted run room below, fun i id hdone => ?_,
    fun i j id => session_eq_of_removed run room below,
    fun i id => find?_eq_none_of_removed run room below, ?_⟩
  · obtain ⟨more, sessions'', s'', ⟨op, answer⟩, hmore, hown, hdone⟩ :=
      Interleaving.exists_done apply sessions' s' i
    have hfollows := (run.append hmore).follows i
    rw [hdone] at hfollows
    obtain rfl := Operation.eq_of_done hfollows
    exact ⟨more, sessions'', s'', answer, hmore, hown, hdone⟩
  · have hfollows := run.follows i
    rw [hop] at hfollows
    rcases Operation.inserted_of_create hfollows with hasks | ⟨id, hdone, hinserted⟩
    · exact Or.inl hasks
    · have hevent := mem_ownAsked_iff.mp hinserted
      exact Or.inr ⟨id, hdone, hevent,
        MemoryStore.find?_eq_none_of_taken run room below (taken_of_mem_inserted run hevent)⟩
  · intro i j record record' row row' hne hi hj hid
    have hitaken := taken_of_created run hi
    rw [hid] at hitaken
    exact hne (MemoryStore.session_eq_of_taken run room hitaken (taken_of_created run hj))
  · intro i row next
    exact find?_eq_none_of_inserting run room below
  · have hfollows := run.follows i
    rw [hdone] at hfollows
    rw [← Operation.eq_of_done hfollows] at hfollows
    exact mem_ownAsked_iff.mp (Operation.removed_of_deleted hfollows)
  · rintro before after i id rfl j
    exact not_found_of_removed run room below

/-- One row. -/
def soleGroupHall : List (Row Catalog.groupHall) :=
  [⟨1, .cons (3 : Int64) (.cons (4 : Int64) .nil)⟩]

/-- Two requests for new rows, a change of the row with identifier one, and its deletion. -/
def groupHallRequests : Fin 4 → Operation Catalog.groupHall
  | 0 => .create (.cons (5 : Int64) (.cons (6 : Int64) .nil))
  | 1 => .create (.cons (7 : Int64) (.cons (8 : Int64) .nil))
  | 2 => .patch 1 (.cons (none : Option Int64) (.cons (some 0 : Option Int64) .nil))
  | 3 => .delete 1

/-- An order in which the change reads its row before that is deleted, and in which the row that
takes its identifier first is put in last. -/
theorem groupHallRequests_take_turns :
    ∃ events sessions' s', Turns groupHallRequests ⟨.ofRows soleGroupHall, 2⟩ events sessions' s' ∧
      MemoryStore.HasIds ⟨.ofRows soleGroupHall, 2⟩ events ∧
      events.map Event.session = [0, 2, 1, 3, 1, 2, 0] ∧
      sessions' 2 = .done ⟨groupHallRequests 2, .error (.rowNotFound "group hall")⟩ ∧
      s'.table.rows.map Row.id = [2, 3] := by
  refine ⟨_, _, _, .turn (i := 0) rfl (.turn (i := 2) rfl (.turn (i := 1) rfl (.turn (i := 3) rfl
    (.turn (i := 1) rfl (.turn (i := 2) rfl (.turn (i := 0) rfl (.stop _ _))))))), ?_, rfl, rfl, ?_⟩
  · decide
  · decide

theorem groupHallRequests_keep_rows :
    ∃ s events sessions' s', MemoryStore.ofRows? soleGroupHall = some s ∧
      Turns groupHallRequests s events sessions' s' ∧ s.HasIds events ∧
      events.map Event.session = [0, 2, 1, 3, 1, 2, 0] ∧
      sessions' 2 = .done ⟨groupHallRequests 2, .error (.rowNotFound "group hall")⟩ ∧
      s'.table.rows.map Row.id = [2, 3] ∧ KeepsRows groupHallRequests s events sessions' s' := by
  obtain ⟨events, sessions', s', run, room, order, hlost, hrows⟩ := groupHallRequests_take_turns
  exact ⟨_, events, sessions', s', rfl, run, room, order, hlost, hrows,
    concurrent_requests_keep_rows (show MemoryStore.ofRows? soleGroupHall = _ from rfl) run room⟩

end ExchangeCatalog.Service
