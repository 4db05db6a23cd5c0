import ExchangeCatalog.Proofs.Filter.Registry
import ExchangeCatalog.Proofs.Interleaving
import ExchangeCatalog.Proofs.Service.Operation
import ExchangeCatalog.Proofs.Sql.Row
import ExchangeCatalog.Repository.Sql
import ExchangeCatalog.Sql.Connection

/-!
# Conversations with the database

Whatever the database replies, a request goes through one of a few conversations with it. A write
goes out only after the reply that it needs, nothing goes out after a statement that failed, and how
the request ends is settled by the last reply alone.

## Main definitions

* `Turn` — a statement with how it ended
* `Entity.ReadsRow`, `Entity.ReadsRows`, `Outcome.ReadsCount`, `Outcome.Touches` — what a reply says
* `Settled` — an answer says what the last reply says
* `Service.Operation.Conversation` — the conversations that a request can have
* `StopsAtFailure` — a conversation that ends with its first failure
* `Plan.transcript` — the turns that a run of a plan takes
* `Connection.Reaches` — the statements of a conversation that have reached the database

## Main results

* `Service.Operation.conversation_of_follows` — a request has no other conversation, whatever the
  replies
* `Service.Operation.Conversation.stops` — nothing is sent after a failure
* `Connection.exists_reaches` — over a connection at most a last statement gets lost
* `Service.Operation.statements_disciplined` — these together, for every row of replies
-/

namespace ExchangeCatalog

open Plan (Asked Follows follows_ask_iff follows_done_iff)
open SqlRepository (optionalRow oneRow allRows counted touched refusal)

/-- A statement with how it ended. -/
abbrev Turn := Asked fun _ : Statement => Outcome

/-! ### What a reply says -/

namespace Outcome

/-- The statement failed: it was refused, or the connection broke. -/
def Failed : Outcome → Prop
  | .refused .. | .lost => True
  | .rows _ | .affected _ => False

/-- The statement went well and came with no row. -/
def HasNoRow : Outcome → Prop
  | .rows r => r.rows = []
  | .affected _ => True
  | .refused .. | .lost => False

/-- The statement came with an integer in its first place. -/
def ReadsCount : Outcome → Int → Prop
  | .rows r, n => r.first? .bigint = some (.number n)
  | .affected _, _ | .refused .., _ | .lost, _ => False

/-- The statement went well and touched a number of rows. -/
def Touches : Outcome → Nat → Prop
  | .rows r, n => r.rows.length = n
  | .affected m, n => m = n
  | .refused .., _ | .lost, _ => False

end Outcome

namespace Entity

variable (e : Entity)

/-- The first row of a reply is a row of the entity. -/
def ReadsRow : Outcome → Row e → Prop
  | .rows ⟨columns, cells :: _⟩, row => e.rowOf? columns cells = some row
  | .rows ⟨_, []⟩, _ | .affected _, _ | .refused .., _ | .lost, _ => False

/-- The rows of a reply are these rows of the entity, in this order. -/
def ReadsRows : Outcome → List (Row e) → Prop
  | .rows r, rows => r.rows.map (e.rowOf? r.columns) = rows.map some
  | .affected _, rows => rows = []
  | .refused .., _ | .lost, _ => False

end Entity

/-- An answer says what the last reply says: it is a result that can be read in the reply, or the
fault that no row is there, or the conflict that the database reports, and in every other case the
fault of the database. -/
structure Settled {α : Type} (label : String) (activity : Activity) (last : Outcome)
    (reads : α → Prop) (absent : Prop) (answer : Except Fault α) : Prop where
  ok_iff : ∀ a, answer = .ok a ↔ reads a
  notFound_iff : answer = .error (.rowNotFound label) ↔ absent
  conflict_iff : ∀ text, answer = .error (.conflict label activity text) ↔
    ∃ code, (code = "23505" ∨ code = "23503") ∧ last = .refused code text
  covered : (∃ a, answer = .ok a) ∨ answer = .error (.rowNotFound label) ∨
    (∃ text, answer = .error (.conflict label activity text)) ∨
    answer = .error (.database label activity)

namespace Settled

variable {α : Type} {label : String} {activity : Activity} {last : Outcome} {reads : α → Prop}
  {absent : Prop} {answer : Except Fault α}

theorem ok (hlast : ¬ last.Failed) (a : α) (hreads : ∀ b, reads b ↔ b = a) (habsent : ¬ absent) :
    Settled label activity last reads absent (.ok a) where
  ok_iff b := by simp [hreads, eq_comm]
  notFound_iff := by simp [habsent]
  conflict_iff text := by
    suffices ∀ code, last ≠ .refused code text by simp [this]
    rintro code rfl
    exact hlast trivial
  covered := Or.inl ⟨a, rfl⟩

theorem notFound (hlast : ¬ last.Failed) (hreads : ∀ a, ¬ reads a) (habsent : absent) :
    Settled label activity last reads absent (.error (.rowNotFound label)) where
  ok_iff a := by simp [hreads]
  notFound_iff := by simp [habsent]
  conflict_iff text := by
    suffices ∀ code, last ≠ .refused code text by simp [this]
    rintro code rfl
    exact hlast trivial
  covered := Or.inr (Or.inl rfl)

theorem refused (code text : String) (hreads : ∀ a, ¬ reads a) (habsent : ¬ absent) :
    Settled label activity (.refused code text) reads absent
      (.error (refusal label activity code text)) := by
  rw [refusal]
  split_ifs with hkey
  · have hcode : code = "23505" ∨ code = "23503" := by
      simpa only [SqlRepository.isKeyViolation, Bool.or_eq_true, beq_iff_eq] using hkey
    refine ⟨by simp [hreads], by simp [habsent], ?_, Or.inr (Or.inr (Or.inl ⟨text, rfl⟩))⟩
    intro text'
    constructor
    · rintro ⟨⟩
      exact ⟨code, hcode, rfl⟩
    · rintro ⟨_, -, ⟨⟩⟩
      rfl
  · have hcode : ¬ (code = "23505" ∨ code = "23503") := by
      simpa only [SqlRepository.isKeyViolation, Bool.or_eq_true, beq_iff_eq] using hkey
    refine ⟨by simp [hreads], by simp [habsent], ?_, Or.inr (Or.inr (Or.inr rfl))⟩
    intro text'
    refine iff_of_false nofun ?_
    rintro ⟨_, hviolation, ⟨⟩⟩
    exact hcode hviolation

theorem database (hlast : ∀ code text, last ≠ .refused code text) (hreads : ∀ a, ¬ reads a)
    (habsent : ¬ absent) :
    Settled label activity last reads absent (.error (.database label activity)) where
  ok_iff a := by simp [hreads]
  notFound_iff := by simp [habsent]
  conflict_iff text := by simp [hlast]
  covered := Or.inr (Or.inr (Or.inr rfl))

/-- What a reply settles is no fault of the request. -/
theorem not_isValidation (h : Settled label activity last reads absent answer) :
    ¬ IsValidation answer := by
  rcases h.covered with ⟨a, rfl⟩ | rfl | ⟨text, rfl⟩ | rfl
  · exact not_isValidation_ok
  all_goals simp [Fault.kind]

end Settled

variable {e : Entity} {activity : Activity} {o : Outcome} {row : Row e}

theorem Entity.ReadsRow.not_failed (h : e.ReadsRow o row) : ¬ o.Failed := by
  cases o with
  | rows r => simp [Outcome.Failed]
  | affected n => simp [Outcome.Failed]
  | refused code text => simp [ReadsRow] at h
  | lost => simp [ReadsRow] at h

theorem Outcome.ReadsCount.not_failed {n : Int} (h : o.ReadsCount n) : ¬ o.Failed := by
  cases o with
  | rows r => simp [Failed]
  | affected m => simp [Failed]
  | refused code text => simp [ReadsCount] at h
  | lost => simp [ReadsCount] at h

theorem optionalRow_rows_cons (columns : List ResultColumn) (cells : List (Option Cell))
    (rest : List (List (Option Cell))) :
    optionalRow e activity (.rows ⟨columns, cells :: rest⟩) =
      (SqlRepository.readable e.label activity (e.rowOf? columns cells)).map some := rfl

/-- Of a reply the first row is read, if it has one. -/
theorem settled_optionalRow (e : Entity) (activity : Activity) (o : Outcome) :
    Settled e.label activity o (e.ReadsRow o) o.HasNoRow
      ((optionalRow e activity o).bind Service.found) := by
  cases o with
  | rows r =>
    obtain ⟨columns, rows⟩ := r
    cases rows with
    | nil => exact .notFound id (fun _ => id) rfl
    | cons cells rest =>
      rw [optionalRow_rows_cons]
      cases hrow : e.rowOf? columns cells with
      | none => exact .database nofun (by simp [Entity.ReadsRow, hrow]) (by simp [Outcome.HasNoRow])
      | some row =>
        exact .ok id row (by simp [Entity.ReadsRow, hrow, eq_comm]) (by simp [Outcome.HasNoRow])
  | affected n => exact .notFound id (fun _ => id) trivial
  | refused code text => exact .refused code text (fun _ => id) id
  | lost => exact .database nofun (fun _ => id) id

/-- Where a row must be there, it is a fault of the database that there is none. -/
theorem settled_oneRow (e : Entity) (activity : Activity) (o : Outcome) :
    Settled e.label activity o (e.ReadsRow o) False (oneRow e activity o) := by
  cases o with
  | rows r =>
    obtain ⟨columns, rows⟩ := r
    cases rows with
    | nil => exact .database nofun (fun _ => id) id
    | cons cells rest =>
      rw [oneRow, optionalRow_rows_cons]
      cases hrow : e.rowOf? columns cells with
      | none => exact .database nofun (by simp [Entity.ReadsRow, hrow]) id
      | some row => exact .ok id row (by simp [Entity.ReadsRow, hrow, eq_comm]) id
  | affected n => exact .database nofun (fun _ => id) id
  | refused code text => exact .refused code text (fun _ => id) id
  | lost => exact .database nofun (fun _ => id) id

/-- A removal has met a row exactly when it touched one. -/
theorem settled_touched (e : Entity) (o : Outcome) :
    Settled e.label .delete o (fun _ : Unit => ∃ n, 0 < n ∧ o.Touches n) (o.Touches 0)
      ((touched e .delete o).bind fun removed =>
        if removed then .ok () else .error (.rowNotFound e.label)) := by
  cases o with
  | rows r =>
    obtain ⟨columns, rows⟩ := r
    cases rows with
    | nil => exact .notFound id (by simp [Outcome.Touches]) rfl
    | cons cells rest => exact .ok id () (by simp [Outcome.Touches]) (by simp [Outcome.Touches])
  | affected n =>
    cases n with
    | zero => exact .notFound id (by simp [Outcome.Touches]) rfl
    | succ n => exact .ok id () (by simp [Outcome.Touches]) (by simp [Outcome.Touches])
  | refused code text => exact .refused code text (by simp [Outcome.Touches]) id
  | lost => exact .database nofun (by simp [Outcome.Touches]) id

theorem counted_rows (r : ResultSet) : counted e (.rows r) =
    match r.first? .bigint with
    | some (.number n) => .ok (UInt64.ofNat n.toNat)
    | _ => .error (.database e.label .count) := rfl

/-- A count that is read counts nothing below zero. -/
theorem exists_of_counted {total : UInt64} (h : counted e o = .ok total) :
    ∃ n, o.ReadsCount n ∧ total = UInt64.ofNat (max n 0).toNat := by
  cases o with
  | rows r =>
    rw [counted_rows] at h
    split at h
    case h_1 n hfirst =>
      cases h
      refine ⟨n, hfirst, congrArg UInt64.ofNat ?_⟩
      omega
    case h_2 => cases h
  | affected n => cases h
  | refused code text => cases h
  | lost => cases h

/-- Where no count can be read, the request ends with the fault of the database. -/
theorem settled_counted {α : Type} {fault : Fault} (h : counted e o = .error fault) :
    (∀ n, ¬ o.ReadsCount n) ∧
      Settled e.label .count o (fun _ : α => False) False (.error fault) := by
  cases o with
  | rows r =>
    rw [counted_rows] at h
    split at h
    case h_1 => cases h
    case h_2 hfirst =>
      cases h
      exact ⟨hfirst, .database nofun (fun _ => id) id⟩
  | affected n =>
    cases h
    exact ⟨fun _ => id, .database nofun (fun _ => id) id⟩
  | refused code text =>
    cases h
    exact ⟨fun _ => id, .refused code text (fun _ => id) id⟩
  | lost =>
    cases h
    exact ⟨fun _ => id, .database nofun (fun _ => id) id⟩

/-- Of a reply every row is read, or none. -/
theorem settled_allRows (e : Entity) (o : Outcome) (total : UInt64) :
    Settled e.label .list o (fun page : Page (Row e) => e.ReadsRows o page.items ∧
        page.total = total) False
      ((allRows e .list o).map fun items => ⟨items, total⟩) := by
  cases o with
  | rows r =>
    have hall : allRows e .list (.rows r) = SqlRepository.readable e.label .list
      (r.rows.mapM fun cells => e.rowOf? r.columns cells) := rfl
    rw [hall]
    cases hrows : r.rows.mapM fun cells => e.rowOf? r.columns cells with
    | none =>
      refine .database nofun ?_ id
      rintro ⟨items, _⟩ ⟨hitems, -⟩
      cases hrows.symm.trans (mapM_eq_some_iff.mpr hitems)
    | some rows =>
      change Settled _ _ _ _ _ (.ok (⟨rows, total⟩ : Page (Row e)))
      refine .ok id _ ?_ id
      rintro ⟨items, total'⟩
      have hitems : e.ReadsRows (.rows r) items ↔ items = rows := by
        rw [Entity.ReadsRows, ← mapM_eq_some_iff, hrows, Option.some.injEq, eq_comm]
      simp [hitems]
  | affected n =>
    change Settled _ _ _ _ _ (.ok (⟨[], total⟩ : Page (Row e)))
    refine .ok id _ ?_ id
    rintro ⟨items, total'⟩
    simp [Entity.ReadsRows]
  | refused code text => exact .refused code text (fun _ h => h.1) id
  | lost => exact .database nofun (fun _ h => h.1) id

/-! ### The conversations of a request -/

/-- The statement writes a record over the row with an identifier: it sets the columns in their
order, and has the values of the record and then the identifier for its places. -/
structure Statement.Overwrites (s : Statement) (e : Entity) (record : Record e.columns)
    (id : Int64) : Prop where
  eq_update : s = .update e.table ((e.columns.map Column.name).zip record.values) id
  binds_eq : s.binds = record.values ++ [.integer id]

theorem overwrites_updateStatement (row : Row e) :
    (e.updateStatement row).Overwrites e row.record row.id where
  eq_update := rfl
  binds_eq := by rw [Entity.updateStatement, Statement.binds, e.map_snd_assignments]

/-- Nothing is sent after a statement that failed. -/
def StopsAtFailure (turns : List Turn) : Prop := ∀ turn ∈ turns.dropLast, ¬ turn.2.Failed

namespace StopsAtFailure

variable {turn : Turn} {turns : List Turn}

theorem of_cons (h : StopsAtFailure (turn :: turns)) : StopsAtFailure turns := by
  cases turns with
  | nil => nofun
  | cons next turns => exact fun t ht => h t (List.mem_cons_of_mem turn ht)

theorem eq_nil_of_failed (h : StopsAtFailure (turn :: turns)) (hfailed : turn.2.Failed) :
    turns = [] := by
  cases turns with
  | nil => rfl
  | cons next turns => exact absurd hfailed (h turn List.mem_cons_self)

end StopsAtFailure

namespace Service

/-- A list is counted, and its page is asked for once a count has been read. With a filter whose
value cannot be read nothing is asked. -/
inductive ListConversation (predicates : List Predicate) (request : PageRequest) :
    List Turn → Except Fault (Page (Row e)) → Prop
  | unreadable {fault : Fault} (hfault : typedFilters (e.retain predicates) = .error fault) :
    ListConversation predicates request [] (.error fault)
  | uncounted {filters : List TypedFilter} {o : Outcome} {fault : Fault}
      (hfilters : typedFilters (e.retain predicates) = .ok filters) (hcount : ∀ n, ¬ o.ReadsCount n)
      (hsettled : Settled e.label .count o (fun _ : Page (Row e) => False) False (.error fault)) :
    ListConversation predicates request [⟨e.countStatement filters, o⟩] (.error fault)
  | counted {filters : List TypedFilter} {o o' : Outcome} {n : Int}
      {answer : Except Fault (Page (Row e))}
      (hfilters : typedFilters (e.retain predicates) = .ok filters) (hcount : o.ReadsCount n)
      (hsettled : Settled e.label .list o' (fun page => e.ReadsRows o' page.items ∧
        page.total = UInt64.ofNat (max n 0).toNat) False answer) :
    ListConversation predicates request
      [⟨e.countStatement filters, o⟩, ⟨e.pageStatement filters request, o'⟩] answer

/-- A change searches the row of the requested identifier, and writes only over a row that it could
read: the record of that row as the body changes it, under the identifier of that row. -/
inductive ChangeConversation (id : Int64) (body : Record e.columns → Record e.columns) :
    List Turn → Except Fault (Row e) → Prop
  | unread {o : Outcome} {fault : Fault} (hread : ∀ row, ¬ e.ReadsRow o row)
      (hsettled : Settled e.label .find o (e.ReadsRow o) o.HasNoRow (.error fault)) :
    ChangeConversation id body [⟨.find e.table id, o⟩] (.error fault)
  | read {o o' : Outcome} {row : Row e} {write : Statement} {answer : Except Fault (Row e)}
      (hread : e.ReadsRow o row) (hwrite : write.Overwrites e (body row.record) row.id)
      (hsettled : Settled e.label .update o' (e.ReadsRow o') o'.HasNoRow answer) :
    ChangeConversation id body [⟨.find e.table id, o⟩, ⟨write, o'⟩] answer

namespace Operation

/-- A request takes these turns with the database and ends with this answer. -/
def Conversation : (op : Operation e) → List Turn → op.Answer → Prop
  | list predicates request, turns, answer => ListConversation predicates request turns answer
  | get id, turns, answer => ∃ o, turns = [⟨.find e.table id, o⟩] ∧
    Settled e.label .find o (e.ReadsRow o) o.HasNoRow answer
  | create record, turns, answer => ∃ o, turns = [⟨e.insertStatement record, o⟩] ∧
    Settled e.label .create o (e.ReadsRow o) False answer
  | replace id record, turns, answer => ChangeConversation id (fun _ => record) turns answer
  | patch id changes, turns, answer =>
    ChangeConversation id (fun record => record.applyPatch changes) turns answer
  | delete id, turns, answer => ∃ o, turns = [⟨.delete e.table id, o⟩] ∧
    Settled e.label .delete o (fun _ => ∃ n, 0 < n ∧ o.Touches n) (o.Touches 0) answer

end Operation

variable {α : Type} {turns : List Turn}

/-- A question that takes one statement: what is read of its reply is gone on with, unless it is a
fault. -/
theorem exists_of_follows_asking {c : Call e} {next : c.Result → Session e α} {s : Statement}
    {read : Outcome → c.Answer} {answer : Except Fault α}
    (hc : SqlRepository.answer c = .ask s fun o => .done (read o))
    (h : Follows ((asking c next).through SqlRepository.answer) turns (.done answer)) :
    ∃ o more, turns = ⟨s, o⟩ :: more ∧
      ((∃ r, read o = .ok r ∧ Follows ((next r).through SqlRepository.answer) more (.done answer)) ∨
        ∃ fault, read o = .error fault ∧ more = [] ∧ answer = .error fault) := by
  rw [asking, Plan.through, hc] at h
  rcases follows_ask_iff.mp h with ⟨-, hdone⟩ | ⟨o, more, rfl, hmore⟩
  · cases hdone
  · refine ⟨o, more, rfl, ?_⟩
    rw [Plan.done_bind] at hmore
    cases hread : read o with
    | ok r =>
      rw [hread] at hmore
      exact Or.inl ⟨r, rfl, hmore⟩
    | error fault =>
      rw [hread] at hmore
      obtain ⟨rfl, hanswer⟩ := follows_done_iff.mp hmore
      exact Or.inr ⟨fault, rfl, rfl, Plan.done.inj hanswer⟩

/-- A request that is one question takes one turn, and ends as the question's answer says. -/
theorem exists_of_follows_question {c : Call e} {finish : c.Result → Except Fault α}
    {s : Statement} {read : Outcome → c.Answer} {answer : Except Fault α}
    (hc : SqlRepository.answer c = .ask s fun o => .done (read o))
    (h : Follows ((asking c fun r => .done (finish r)).through SqlRepository.answer) turns
      (.done answer)) :
    ∃ o, turns = [⟨s, o⟩] ∧ answer = (read o).bind finish := by
  obtain ⟨o, more, rfl, ⟨r, hread, hmore⟩ | ⟨fault, hread, rfl, rfl⟩⟩ :=
    exists_of_follows_asking hc h
  · obtain ⟨rfl, hanswer⟩ := follows_done_iff.mp hmore
    exact ⟨o, rfl, by rw [hread]; exact Plan.done.inj hanswer⟩
  · exact ⟨o, rfl, by rw [hread]; rfl⟩

theorem conversation_of_change {id : Int64} {edit : Row e → Row e}
    {body : Record e.columns → Record e.columns}
    (hedit : ∀ row, edit row = ⟨row.id, body row.record⟩) {answer : Except Fault (Row e)}
    (h : Follows ((change id edit).through SqlRepository.answer) turns (.done answer)) :
    ChangeConversation id body turns answer := by
  obtain ⟨o, more, rfl, hmore⟩ := exists_of_follows_asking rfl h
  have hsettled := settled_optionalRow e .find o
  rcases hmore with ⟨found?, hfound, hmore⟩ | ⟨fault, hfault, rfl, rfl⟩
  · rw [hfound] at hsettled
    cases found? with
    | none =>
      obtain ⟨rfl, hanswer⟩ := follows_done_iff.mp hmore
      cases hanswer
      exact .unread (fun row hrow => nomatch (hsettled.ok_iff row).mpr hrow) hsettled
    | some row =>
      obtain ⟨o', rfl, rfl⟩ := exists_of_follows_question rfl hmore
      have hwrite := overwrites_updateStatement (edit row)
      rw [hedit] at hwrite ⊢
      exact .read ((hsettled.ok_iff row).mp rfl) hwrite (settled_optionalRow e .update o')
  · rw [hfault] at hsettled
    exact .unread (fun row hrow => nomatch (hsettled.ok_iff row).mpr hrow) hsettled

theorem conversation_of_list {predicates : List Predicate} {request : PageRequest}
    {answer : Except Fault (Page (Row e))}
    (h : Follows ((list predicates request).through SqlRepository.answer) turns (.done answer)) :
    ListConversation predicates request turns answer := by
  rw [list, asking, Plan.through, SqlRepository.answer] at h
  cases hfilters : typedFilters (e.retain predicates) with
  | error fault =>
    rw [hfilters] at h
    obtain ⟨rfl, hanswer⟩ := follows_done_iff.mp h
    cases hanswer
    exact .unreadable hfilters
  | ok filters =>
    rw [hfilters] at h
    rcases follows_ask_iff.mp h with ⟨-, hdone⟩ | ⟨o, more, rfl, hmore⟩
    · cases hdone
    · dsimp only at hmore
      cases hcount : counted e o with
      | error fault =>
        rw [hcount] at hmore
        obtain ⟨rfl, hanswer⟩ := follows_done_iff.mp hmore
        cases hanswer
        obtain ⟨hnone, hsettled⟩ := settled_counted hcount
        exact .uncounted hfilters hnone hsettled
      | ok total =>
        rw [hcount] at hmore
        obtain ⟨n, hn, rfl⟩ := exists_of_counted hcount
        rcases follows_ask_iff.mp hmore with ⟨-, hdone⟩ | ⟨o', more', rfl, hend⟩
        · cases hdone
        · have hsettled := settled_allRows e o' (UInt64.ofNat (max n 0).toNat)
          dsimp only [Plan.done_bind] at hend
          cases hitems : allRows e .list o' with
          | ok items =>
            rw [hitems] at hend hsettled
            obtain ⟨rfl, hanswer⟩ := follows_done_iff.mp hend
            cases hanswer
            exact .counted hfilters hn hsettled
          | error fault =>
            rw [hitems] at hend hsettled
            obtain ⟨rfl, hanswer⟩ := follows_done_iff.mp hend
            cases hanswer
            exact .counted hfilters hn hsettled

/-- A request has no other conversation than these, whatever the replies. -/
theorem Operation.conversation_of_follows (op : Operation e) {answer : op.Answer}
    (h : Follows (op.session.through SqlRepository.answer) turns (.done answer)) :
    op.Conversation turns answer := by
  cases op with
  | list predicates request => exact conversation_of_list h
  | get id =>
    obtain ⟨o, rfl, rfl⟩ := exists_of_follows_question rfl h
    exact ⟨o, rfl, settled_optionalRow e .find o⟩
  | create record =>
    obtain ⟨o, rfl, rfl⟩ := exists_of_follows_question rfl h
    have hread : (oneRow e .create o).bind .ok = oneRow e .create o := by
      cases oneRow e .create o with
      | ok row => rfl
      | error fault => rfl
    exact ⟨o, rfl, hread.symm ▸ settled_oneRow e .create o⟩
  | replace id record => exact conversation_of_change (fun _ => rfl) h
  | patch id changes => exact conversation_of_change (fun _ => rfl) h
  | delete id =>
    obtain ⟨o, rfl, rfl⟩ := exists_of_follows_question rfl h
    exact ⟨o, rfl, settled_touched e o⟩

/-! ### What is sent -/

/-- A conversation stops at a failure. -/
theorem Operation.Conversation.stops {op : Operation e} {answer : op.Answer}
    (h : op.Conversation turns answer) : StopsAtFailure turns := by
  have hfirst : ∀ {s s' : Statement} {o o' : Outcome}, ¬ o.Failed →
      StopsAtFailure [⟨s, o⟩, ⟨s', o'⟩] := by
    intro s s' o o' ho turn hturn
    obtain rfl := List.mem_singleton.mp hturn
    exact ho
  have hchange : ∀ {id : Int64} {body : Record e.columns → Record e.columns}
      {answer : Except Fault (Row e)}, ChangeConversation id body turns answer →
        StopsAtFailure turns := by
    intro id body answer h
    cases h with
    | unread => nofun
    | read hread => exact hfirst hread.not_failed
  cases op with
  | list predicates request =>
    cases h with
    | unreadable => nofun
    | uncounted => nofun
    | counted _ hcount => exact hfirst hcount.not_failed
  | get id | create record | delete id =>
    obtain ⟨o, rfl, -⟩ := h
    nofun
  | replace id record => exact hchange h
  | patch id changes => exact hchange h

end Service

/-! ### Over a connection -/

namespace Plan

variable {Q α β σ : Type} {A : Q → Type}

theorem bind_assoc {γ : Type} (p : Plan Q A α) (f : α → Plan Q A β) (g : β → Plan Q A γ) :
    (p.bind f).bind g = p.bind fun a => (f a).bind g := by
  induction p with
  | done a => rfl
  | ask q next ih => simp only [ask_bind, ih]

/-- Two plans in a row are answered by plans in a row. -/
theorem through_bind {R : Type} {B : R → Type} (detail : (q : Q) → Plan R B (A q))
    (p : Plan Q A α) (f : α → Plan Q A β) :
    (p.bind f).through detail = (p.through detail).bind fun a => (f a).through detail := by
  induction p with
  | done a => rfl
  | ask q next ih => simp only [ask_bind, through, bind_assoc, ih]

/-- The questions that a run of a plan asks, with their answers. -/
def transcript (answer : (q : Q) → σ → A q × σ) : Plan Q A α → σ → List (Asked A)
  | .done _, _ => []
  | .ask q next, s =>
    ⟨q, (answer q s).1⟩ :: transcript answer (next (answer q s).1) (answer q s).2

@[simp] theorem transcript_done (answer : (q : Q) → σ → A q × σ) (a : α) (s : σ) :
    (Plan.done a).transcript answer s = [] := rfl

@[simp] theorem transcript_ask (answer : (q : Q) → σ → A q × σ) (q : Q)
    (next : A q → Plan Q A α) (s : σ) :
    (Plan.ask q next).transcript answer s =
      ⟨q, (answer q s).1⟩ :: (next (answer q s).1).transcript answer (answer q s).2 := rfl

/-- What is done with the result of a plan adds no question. -/
theorem transcript_bind_done (answer : (q : Q) → σ → A q × σ) (p : Plan Q A α) (f : α → β)
    (s : σ) : (p.bind fun a => .done (f a)).transcript answer s = p.transcript answer s := by
  induction p generalizing s with
  | done a => rfl
  | ask q next ih => rw [ask_bind, transcript_ask, transcript_ask, ih]

/-- A plan that is run follows its transcript to its end. -/
theorem follows_transcript (answer : (q : Q) → σ → A q × σ) (p : Plan Q A α) (s : σ) :
    Follows p (p.transcript answer s) (.done (p.run answer s).1) := by
  induction p generalizing s with
  | done a => exact .stop _
  | ask q next ih => exact .ask (ih _ _)

end Plan

namespace Connection

/-- All the statements of a conversation have reached the database, or all but the last, which
failed. -/
inductive Reaches : List Turn → List Statement → Prop
  | all (turns : List Turn) : Reaches turns (turns.map Sigma.fst)
  | missed (turns : List Turn) (s : Statement) {o : Outcome} (hfailed : o.Failed) :
    Reaches (turns ++ [⟨s, o⟩]) (turns.map Sigma.fst)

theorem statements_exchange (s : Statement) (c : Connection) :
    (c.exchange s).2.statements = c.statements ++ [s] := by
  rw [exchange]
  split
  all_goals exact List.reverse_cons

/-- A statement reaches the database, or it fails without having reached it. -/
theorem send_cases (s : Statement) (c : Connection) :
    (c.send s).2.statements = c.statements ++ [s] ∨
      (c.send s).2.statements = c.statements ∧ (c.send s).1.Failed := by
  rw [send]
  split_ifs
  · exact Or.inr ⟨rfl, trivial⟩
  · exact Or.inl (statements_exchange s c)
  · cases opening c.replies with
    | mk refusal replies =>
      cases refusal with
      | none => exact Or.inl (statements_exchange s { c with replies, isOpen := true })
      | some _ => exact Or.inr ⟨rfl, trivial⟩

variable {turns : List Turn} {reached : List Statement}

theorem Reaches.cons (h : Reaches turns reached) (turn : Turn) :
    Reaches (turn :: turns) (turn.1 :: reached) := by
  cases h with
  | all => exact .all _
  | missed turns s hfailed => exact .missed (turn :: turns) s hfailed

theorem eq_nil_of_reaches_nil (h : Reaches [] reached) : reached = [] := by
  generalize hturns : ([] : List Turn) = turns at h
  cases h with
  | all => rw [← hturns, List.map_nil]
  | missed turns s => simp at hturns

/-- Of a run that stops at a failure, what the database has seen is what has reached it. -/
theorem exists_reaches {α : Type} (p : StatementPlan α) (c : Connection)
    (h : StopsAtFailure (p.transcript send c)) :
    ∃ reached, Reaches (p.transcript send c) reached ∧
      (p.run send c).2.statements = c.statements ++ reached := by
  induction p generalizing c with
  | done a => exact ⟨[], .all [], by simp⟩
  | ask s next ih =>
    rw [Plan.transcript_ask] at h ⊢
    obtain ⟨reached, hreached, hstatements⟩ := ih (c.send s).1 (c.send s).2 h.of_cons
    rw [Plan.run_ask, hstatements]
    rcases send_cases s c with hsent | ⟨hmissed, hfailed⟩
    · exact ⟨s :: reached, hreached.cons _, by simp [hsent]⟩
    · -- A statement that has been missed was the last, for it failed.
      have hlast := h.eq_nil_of_failed hfailed
      rw [hlast] at hreached ⊢
      obtain rfl := eq_nil_of_reaches_nil hreached
      exact ⟨[], .missed [] s hfailed, by rw [hmissed]⟩

end Connection

/-- Whatever the database replies, a request has one of its conversations with it, which settles the
answer; it sends nothing after a failure; and the database sees the statements of the conversation,
but for a last one that did not reach it. -/
theorem Service.Operation.statements_disciplined (op : Service.Operation e) (c : Connection) :
    let plan := op.session.through SqlRepository.answer
    let turns := plan.transcript Connection.send c
    op.Conversation turns (plan.run Connection.send c).1 ∧ StopsAtFailure turns ∧
      ∃ reached, Connection.Reaches turns reached ∧
        (plan.run Connection.send c).2.statements = c.statements ++ reached := by
  intro plan turns
  have hconversation := op.conversation_of_follows (Plan.follows_transcript Connection.send plan c)
  exact ⟨hconversation, hconversation.stops, Connection.exists_reaches plan c hconversation.stops⟩

end ExchangeCatalog
