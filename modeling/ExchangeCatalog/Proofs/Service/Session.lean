import ExchangeCatalog.Proofs.Interleaving
import ExchangeCatalog.Proofs.Service.Operation

/-!
# The steps of a request

A request to the service on a store in memory takes at most two steps. A new row takes its
identifier and is then put in under it; a change reads the row and then writes it back; every other
request takes one step. This module says what a request can have done when some of its steps are
done, whatever the store has answered.

## Main definitions

* `Service.Operation.pending` — the steps of a request, which end with the request and its answer
* `Service.Operation.edited?` — the identifier of the row that a request changes

## Main results

* `Service.Operation.taken_of_inserting`, `Service.Operation.taken_of_inserted` — a row is put in
  under an identifier that its own request was handed
* `Service.Operation.inserted_of_create`, `Service.Operation.removed_of_deleted`,
  `Service.Operation.written_of_edited` — what the steps of an answered request were
-/

namespace ExchangeCatalog.Service.Operation

open MemoryStore (Step)
open Plan (Asked Follows follows_ask_iff follows_done_iff)

variable {e : Entity}

/-- The steps that a request takes on a store in memory, ending with the request and its answer. -/
def pending (op : Operation e) : Plan (Step e) Step.Answer ((op : Operation e) × op.Answer) :=
  (op.session.through MemoryStore.answer).bind fun answer => .done ⟨op, answer⟩

/-- The identifier of the row that a request changes. -/
def edited? : Operation e → Option Int64
  | replace id _ | patch id _ => some id
  | list .. | get _ | create _ | delete _ => none

variable {op : Operation e} {asked : List (Asked (@Step.Answer e))}
  {rest : Plan (Step e) Step.Answer ((op : Operation e) × op.Answer)} {row : Row e} {id : Int64}

/-! ### Requests one by one -/

theorem follows_list {predicates : List Predicate} {request : PageRequest}
    (h : Follows (pending (.list predicates request)) asked rest) :
    (∃ typed next, asked = [] ∧ rest = .ask (.select typed request) next) ∨
      (∃ answer, asked = [] ∧ rest = .done ⟨.list predicates request, answer⟩) ∨
      ∃ typed page, asked = [⟨.select typed request, page⟩] ∧
        rest = .done ⟨.list predicates request, .ok page⟩ := by
  simp only [pending, session, Service.list, asking, Plan.through, MemoryStore.answer] at h
  cases htyped : typedFilters (e.retain predicates) with
  | error fault =>
    rw [htyped] at h
    obtain ⟨rfl, rfl⟩ := follows_done_iff.mp h
    exact Or.inr (Or.inl ⟨_, rfl, rfl⟩)
  | ok typed =>
    rw [htyped] at h
    rcases follows_ask_iff.mp h with ⟨rfl, rfl⟩ | ⟨page, more, rfl, hmore⟩
    · exact Or.inl ⟨_, _, rfl, rfl⟩
    · obtain ⟨rfl, rfl⟩ := follows_done_iff.mp hmore
      exact Or.inr (Or.inr ⟨_, _, rfl, rfl⟩)

theorem follows_get (h : Follows (pending (.get id)) asked rest) :
    (∃ next, asked = [] ∧ rest = .ask (.read id) next) ∨
      ∃ row?, asked = [⟨.read id, row?⟩] ∧ rest = .done ⟨.get id, found row?⟩ := by
  rcases follows_ask_iff.mp h with ⟨rfl, rfl⟩ | ⟨row?, more, rfl, hmore⟩
  · exact Or.inl ⟨_, rfl, rfl⟩
  · obtain ⟨rfl, rfl⟩ := follows_done_iff.mp hmore
    exact Or.inr ⟨_, rfl, rfl⟩

theorem follows_create {record : Record e.columns}
    (h : Follows (pending (.create record)) asked rest) :
    (∃ next, asked = [] ∧ rest = .ask .takeId next) ∨
      (∃ id next, asked = [⟨.takeId, id⟩] ∧ rest = .ask (.insert ⟨id, record⟩) next) ∨
      ∃ id, asked = [⟨.takeId, id⟩, ⟨.insert ⟨id, record⟩, ()⟩] ∧
        rest = .done ⟨.create record, .ok ⟨id, record⟩⟩ := by
  rcases follows_ask_iff.mp h with ⟨rfl, rfl⟩ | ⟨id, more, rfl, hmore⟩
  · exact Or.inl ⟨_, rfl, rfl⟩
  · rcases follows_ask_iff.mp hmore with ⟨rfl, rfl⟩ | ⟨_, more, rfl, hlast⟩
    · exact Or.inr (Or.inl ⟨_, _, rfl, rfl⟩)
    · obtain ⟨rfl, rfl⟩ := follows_done_iff.mp hlast
      exact Or.inr (Or.inr ⟨_, rfl, rfl⟩)

theorem follows_delete (h : Follows (pending (.delete id)) asked rest) :
    (∃ next, asked = [] ∧ rest = .ask (.remove id) next) ∨
      ∃ removed : Bool, asked = [⟨.remove id, removed⟩] ∧
        rest = .done ⟨.delete id, if removed then .ok () else .error (.rowNotFound e.label)⟩ := by
  rcases follows_ask_iff.mp h with ⟨rfl, rfl⟩ | ⟨removed, more, rfl, hmore⟩
  · exact Or.inl ⟨_, rfl, rfl⟩
  · obtain ⟨rfl, rfl⟩ := follows_done_iff.mp hmore
    exact Or.inr ⟨_, rfl, rfl⟩

/-- A change of a row, whatever it ends with. -/
theorem follows_change {α : Type} (result : Except Fault (Row e) → α) {edit : Row e → Row e}
    {rest : Plan (Step e) Step.Answer α}
    (h : Follows (((change id edit).through MemoryStore.answer).bind fun answer =>
      .done (result answer)) asked rest) :
    (∃ next, asked = [] ∧ rest = .ask (.read id) next) ∨
      (asked = [⟨.read id, none⟩] ∧ rest = .done (result (.error (.rowNotFound e.label)))) ∨
      (∃ r next, asked = [⟨.read id, some r⟩] ∧ rest = .ask (.overwrite (edit r)) next) ∨
      ∃ r, ∃ there : Bool, asked = [⟨.read id, some r⟩, ⟨.overwrite (edit r), there⟩] ∧
        rest = .done
          (result (if there then .ok (edit r) else .error (.rowNotFound e.label))) := by
  rcases follows_ask_iff.mp h with ⟨rfl, rfl⟩ | ⟨row?, more, rfl, hmore⟩
  · exact Or.inl ⟨_, rfl, rfl⟩
  · cases row? with
    | none =>
      obtain ⟨rfl, rfl⟩ := follows_done_iff.mp hmore
      exact Or.inr (Or.inl ⟨rfl, rfl⟩)
    | some r =>
      rcases follows_ask_iff.mp hmore with ⟨rfl, rfl⟩ | ⟨there, more, rfl, hlast⟩
      · exact Or.inr (Or.inr (Or.inl ⟨_, _, rfl, rfl⟩))
      · obtain ⟨rfl, rfl⟩ := follows_done_iff.mp hlast
        refine Or.inr (Or.inr (Or.inr ⟨_, there, rfl, ?_⟩))
        cases there with
        | false => rfl
        | true => rfl

/-- Replacing and patching differ in the edit alone, which leaves the identifier as it is. -/
theorem pending_of_edited (hop : op.edited? = some id) :
    ∃ (edit : Row e → Row e) (result : Except Fault (Row e) → op.Answer),
      (∀ r, (edit r).id = r.id) ∧
      result (.error (.rowNotFound e.label)) = .error (.rowNotFound e.label) ∧
      op.pending = ((change id edit).through MemoryStore.answer).bind fun answer =>
        .done ⟨op, result answer⟩ := by
  cases op with
  | replace id' record =>
    cases hop
    exact ⟨fun r => { r with record := record }, fun answer => answer, fun _ => rfl, rfl, rfl⟩
  | patch id' changes =>
    cases hop
    exact ⟨fun r => r.applyPatch changes, fun answer => answer, fun _ => rfl, rfl, rfl⟩
  | list _ _ => cases hop
  | get _ => cases hop
  | create _ => cases hop
  | delete _ => cases hop

/-- A request that changes a row writes it back under the identifier that it had. -/
theorem follows_edited (hop : op.edited? = some id) (h : Follows op.pending asked rest) :
    (∃ next, asked = [] ∧ rest = .ask (.read id) next) ∨
      (asked = [⟨.read id, none⟩] ∧ rest = .done ⟨op, .error (.rowNotFound e.label)⟩) ∨
      (∃ old new next, new.id = old.id ∧ asked = [⟨.read id, some old⟩] ∧
        rest = .ask (.overwrite new) next) ∨
      ∃ old new, ∃ there : Bool, ∃ answer : op.Answer, new.id = old.id ∧
        asked = [⟨.read id, some old⟩, ⟨.overwrite new, there⟩] ∧ rest = .done ⟨op, answer⟩ ∧
          (there = false → answer = .error (.rowNotFound e.label)) := by
  obtain ⟨edit, result, hedit, hresult, hpending⟩ := pending_of_edited hop
  rw [hpending] at h
  rcases follows_change
      (fun answer => (⟨op, result answer⟩ : (op : Operation e) × op.Answer)) h with
    hbegun | ⟨rfl, rfl⟩ | ⟨old, next, rfl, rfl⟩ | ⟨old, there, rfl, rfl⟩
  · exact Or.inl hbegun
  · exact Or.inr (Or.inl ⟨rfl, by rw [hresult]⟩)
  · exact Or.inr (Or.inr (Or.inl ⟨old, edit old, next, hedit old, rfl, rfl⟩))
  · refine Or.inr (Or.inr (Or.inr ⟨old, edit old, there, _, hedit old, rfl, rfl, ?_⟩))
    rintro rfl
    exact hresult

/-! ### What has been done -/

/-- A request ends with itself. -/
theorem eq_of_done {op' : Operation e} {answer : op'.Answer}
    (h : Follows op.pending asked (.done ⟨op', answer⟩)) : op' = op := by
  obtain ⟨_, hdone⟩ := Follows.exists_of_done h
  exact congrArg Sigma.fst hdone

/-- A row is about to be put in under an identifier that its own request was handed, and the request
has put in no row before. -/
theorem taken_of_inserting
    {next : Unit → Plan (Step e) Step.Answer ((op : Operation e) × op.Answer)}
    (h : Follows op.pending asked (.ask (.insert row) next)) :
    ⟨.takeId, row.id⟩ ∈ asked ∧ ∀ row', ⟨.insert row', ()⟩ ∉ asked := by
  cases op with
  | list predicates request =>
    rcases follows_list h with ⟨_, _, -, hrest⟩ | ⟨_, -, hrest⟩ | ⟨_, _, -, hrest⟩
    all_goals cases hrest
  | get id =>
    rcases follows_get h with ⟨_, -, hrest⟩ | ⟨_, -, hrest⟩
    all_goals cases hrest
  | create record =>
    rcases follows_create h with ⟨_, -, hrest⟩ | ⟨id, _, rfl, hrest⟩ | ⟨_, -, hrest⟩
    · cases hrest
    · cases hrest
      exact ⟨List.mem_cons_self, fun row' hrow => by simp at hrow⟩
    · cases hrest
  | replace id record | patch id changes =>
    rcases follows_edited rfl h with
      ⟨_, -, hrest⟩ | ⟨-, hrest⟩ | ⟨_, _, _, -, -, hrest⟩ | ⟨_, _, _, _, -, -, hrest, -⟩
    all_goals cases hrest
  | delete id =>
    rcases follows_delete h with ⟨_, -, hrest⟩ | ⟨_, -, hrest⟩
    all_goals cases hrest

/-- A row was put in under an identifier that its own request was handed. -/
theorem taken_of_inserted (h : Follows op.pending asked rest) (hrow : ⟨.insert row, ()⟩ ∈ asked) :
    ⟨.takeId, row.id⟩ ∈ asked := by
  cases op with
  | list predicates request =>
    rcases follows_list h with ⟨_, _, rfl, -⟩ | ⟨_, rfl, -⟩ | ⟨_, _, rfl, -⟩
    all_goals simp at hrow
  | get id =>
    rcases follows_get h with ⟨_, rfl, -⟩ | ⟨_, rfl, -⟩
    all_goals simp at hrow
  | create record =>
    rcases follows_create h with ⟨_, rfl, -⟩ | ⟨id, _, rfl, -⟩ | ⟨id, rfl, -⟩
    · simp at hrow
    · simp at hrow
    · obtain rfl : row = ⟨id, record⟩ := by simpa using hrow
      exact List.mem_cons_self
  | replace id record | patch id changes =>
    rcases follows_edited rfl h with
      ⟨_, rfl, -⟩ | ⟨rfl, -⟩ | ⟨_, _, _, -, rfl, -⟩ | ⟨_, _, _, _, -, rfl, -⟩
    all_goals simp at hrow
  | delete id =>
    rcases follows_delete h with ⟨_, rfl, -⟩ | ⟨_, rfl, -⟩
    all_goals simp at hrow

/-- A request for a new row that is not at its end has a question left, and one that is at its end
has put the row in under the identifier that it was handed. -/
theorem inserted_of_create {record : Record e.columns}
    (h : Follows (create record).pending asked rest) :
    (∃ q next, rest = .ask q next) ∨
      ∃ id, rest = .done ⟨.create record, .ok ⟨id, record⟩⟩ ∧
        ⟨.insert ⟨id, record⟩, ()⟩ ∈ asked := by
  rcases follows_create h with ⟨_, -, hrest⟩ | ⟨_, _, -, hrest⟩ | ⟨id, rfl, hrest⟩
  · exact Or.inl ⟨_, _, hrest⟩
  · exact Or.inl ⟨_, _, hrest⟩
  · exact Or.inr ⟨id, hrest, by simp⟩

/-- A successful deletion has removed the row. -/
theorem removed_of_deleted (h : Follows (delete id).pending asked (.done ⟨.delete id, .ok ()⟩)) :
    ⟨.remove id, true⟩ ∈ asked := by
  rcases follows_delete h with ⟨_, -, hrest⟩ | ⟨removed, rfl, hrest⟩
  · cases hrest
  · cases removed with
    | false => cases hrest
    | true => exact List.mem_singleton.mpr rfl

/-- A change that is not at its end has a question left. One that is at its end has found no row, or
has written one under the identifier of the row that it had read. -/
theorem written_of_edited (hop : op.edited? = some id) (h : Follows op.pending asked rest) :
    (∃ q next, rest = .ask q next) ∨ rest = .done ⟨op, .error (.rowNotFound e.label)⟩ ∨
      ∃ old new : Row e, new.id = old.id ∧ ⟨.read id, some old⟩ ∈ asked ∧
        ⟨.overwrite new, true⟩ ∈ asked := by
  rcases follows_edited hop h with
    ⟨_, -, hrest⟩ | ⟨-, hrest⟩ | ⟨_, _, _, -, -, hrest⟩ |
      ⟨old, new, there, _, hid, rfl, hrest, hfailed⟩
  · exact Or.inl ⟨_, _, hrest⟩
  · exact Or.inr (Or.inl hrest)
  · exact Or.inl ⟨_, _, hrest⟩
  · cases there with
    | false => exact Or.inr (Or.inl (hfailed rfl ▸ hrest))
    | true => exact Or.inr (Or.inr ⟨old, new, hid, by simp, by simp⟩)

end ExchangeCatalog.Service.Operation
