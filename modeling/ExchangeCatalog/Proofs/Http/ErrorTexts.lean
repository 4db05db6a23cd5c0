import ExchangeCatalog.Proofs.Http.Stores
import ExchangeCatalog.Proofs.Sql.Conversation
import ExchangeCatalog.Proofs.Sql.ErrorTexts

/-!
# What clients learn of the database

On a database the application answers every request through statements, and some of them are
refused. A client that meets a refusal because of a key is told what the database said, behind the
name of the activity that was refused. Of all other refusals a client learns no word: two databases
that differ in such words alone are answered for alike, in a run of any length and from the first
connection on.

## Main definitions

* `Statement.activity?` — what the repository is doing when it sends a statement
* `Application.answersOn` — the answers to requests on a database that replies in a given way
* `Application.KeepsErrorTexts` — which words of the database reach a client, and how

## Main results

* `Service.Operation.Conversation.eq_conflict` — a refusal because of a key settles the answer
* `Application.isDiscreet_statementPlan` — no request is answered by other words
* `Application.answersOn_alike` — so runs are answered alike
* `Application.error_texts_stay_inside` — these together
-/

namespace ExchangeCatalog

open Service (Operation ChangeConversation)
open StatementPlan (IsDiscreet)

/-- What the repository is doing when it sends a statement; the probe is none of its activities. -/
def Statement.activity? : Statement → Option Activity
  | probe => none
  | count .. => some .count
  | page .. => some .list
  | find .. => some .find
  | insert .. => some .create
  | update .. => some .update
  | delete .. => some .delete

/-! ### Refusals because of a key -/

variable {e : Entity} {turns : List Turn} {s : Statement} {code text : String}

theorem Settled.eq_conflict {α : Type} {label : String} {activity : Activity} {reads : α → Prop}
    {absent : Prop} {answer : Except Fault α}
    (h : Settled label activity (.refused code text) reads absent answer)
    (hkey : code = "23505" ∨ code = "23503") : answer = .error (.conflict label activity text) :=
  (h.conflict_iff text).mpr ⟨code, hkey, rfl⟩

namespace Service

theorem ChangeConversation.eq_conflict {id : Int64}
    {body : Record e.columns → Record e.columns} {answer : Except Fault (Row e)}
    (h : ChangeConversation id body turns answer) (hkey : code = "23505" ∨ code = "23503")
    (hturn : ⟨s, .refused code text⟩ ∈ turns) :
    ∃ activity, s.activity? = some activity ∧
      answer = .error (.conflict e.label activity text) := by
  cases h with
  | unread hread hsettled =>
    cases List.mem_singleton.mp hturn
    exact ⟨.find, rfl, hsettled.eq_conflict hkey⟩
  | read hread hwrite hsettled =>
    rcases List.mem_cons.mp hturn with hfirst | hlast
    · -- The row was read, so its statement was not refused.
      cases hfirst
      exact absurd trivial hread.not_failed
    · cases List.mem_singleton.mp hlast
      exact ⟨.update, by rw [hwrite.eq_update]; rfl, hsettled.eq_conflict hkey⟩

theorem ListConversation.eq_conflict {predicates : List Predicate} {request : PageRequest}
    {answer : Except Fault (Page (Row e))}
    (h : ListConversation predicates request turns answer)
    (hkey : code = "23505" ∨ code = "23503") (hturn : ⟨s, .refused code text⟩ ∈ turns) :
    ∃ activity, s.activity? = some activity ∧
      answer = .error (.conflict e.label activity text) := by
  cases h with
  | unreadable => cases hturn
  | uncounted hfilters hcount hsettled =>
    cases List.mem_singleton.mp hturn
    exact ⟨.count, rfl, hsettled.eq_conflict hkey⟩
  | counted hfilters hcount hsettled =>
    rcases List.mem_cons.mp hturn with hfirst | hlast
    · cases hfirst
      exact absurd trivial hcount.not_failed
    · cases List.mem_singleton.mp hlast
      exact ⟨.list, rfl, hsettled.eq_conflict hkey⟩

/-- A statement that is refused because of a key settles the answer: it is the conflict of what the
repository was doing, with the words of the database. -/
theorem Operation.Conversation.eq_conflict {op : Operation e} {answer : op.Answer}
    (h : op.Conversation turns answer) (hkey : code = "23505" ∨ code = "23503")
    (hturn : ⟨s, .refused code text⟩ ∈ turns) :
    ∃ activity, s.activity? = some activity ∧
      answer = .error (.conflict e.label activity text) := by
  cases op with
  | list predicates request => exact ListConversation.eq_conflict h hkey hturn
  | get id =>
    obtain ⟨o, rfl, hsettled⟩ := h
    cases List.mem_singleton.mp hturn
    exact ⟨.find, rfl, hsettled.eq_conflict hkey⟩
  | create record =>
    obtain ⟨o, rfl, hsettled⟩ := h
    cases List.mem_singleton.mp hturn
    exact ⟨.create, rfl, hsettled.eq_conflict hkey⟩
  | replace id record => exact ChangeConversation.eq_conflict h hkey hturn
  | patch id changes => exact ChangeConversation.eq_conflict h hkey hturn
  | delete id =>
    obtain ⟨o, rfl, hsettled⟩ := h
    cases List.mem_singleton.mp hturn
    exact ⟨.delete, rfl, hsettled.eq_conflict hkey⟩

end Service

namespace Entity

variable {scheme : String} {place : Place} {r : Request} {c : Connection}

/-- Of an exchange with an entity, a statement that is refused because of a key settles the
response. -/
theorem respond_eq_conflict (hkey : code = "23505" ∨ code = "23503")
    (hturn : ⟨s, .refused code text⟩ ∈
      ((e.respond scheme place r).through SqlRepository.answer).transcript Connection.send c) :
    r.method ≠ "OPTIONS" ∧ ∃ activity, s.activity? = some activity ∧
      (((e.respond scheme place r).through SqlRepository.answer).run Connection.send c).1 =
        faultResponse (.conflict e.label activity text) := by
  rw [respond_eq] at hturn ⊢
  cases hasked : e.asked place r with
  | error answer =>
    rw [hasked] at hturn
    cases hturn
  | ok op =>
    refine ⟨method_ne_options_of_asked hasked, ?_⟩
    rw [hasked, exchangeOf, Plan.through_bind] at hturn
    rw [exchangeOf, Plan.through_bind, Plan.run_bind]
    simp only [Plan.through] at hturn ⊢
    rw [Plan.transcript_bind_done] at hturn
    obtain ⟨activity, hactivity, hanswer⟩ :=
      (op.statements_disciplined c).1.eq_conflict hkey hturn
    exact ⟨activity, hactivity, congrArg (op.conclude scheme r) hanswer⟩

end Entity

/-! ### The application -/

namespace Application

variable {app : Application} {routes : List (String × Entity)} {r : Request} {c c' : Connection}

/-- No request is answered by the words of a refusal that has nothing to do with a key. -/
theorem isDiscreet_statementPlan (app : Application) (routes : List (String × Entity))
    (r : Request) : IsDiscreet (app.statementPlan routes r) := by
  refine IsDiscreet.bind ?_ fun answer => .done _
  split_ifs
  · exact SqlRepository.isDiscreet_probe.bind fun _ => .done _
  · exact .done _
  · split
    · exact .through SqlRepository.isDiscreet_answer _
    · exact .done _

/-- The answers to requests on a database that follows a row of replies, each beside its request;
none if it refuses the first connection. -/
def answersOn (app : Application) (routes : List (String × Entity)) (rs : List Request)
    (replies : List Reply) : Option (List ((_ : Request) × Response)) :=
  (Connection.open? replies).map fun c =>
    (Plan.answerAll (A := fun _ => Response) (app.onDatabase routes) rs c).1

theorem onDatabase_alike (h : c.Alike c') (r : Request) :
    (app.onDatabase routes r c).1 = (app.onDatabase routes r c').1 ∧
      (app.onDatabase routes r c).2.Alike (app.onDatabase routes r c').2 :=
  (isDiscreet_statementPlan app routes r).run_alike h

/-- A run is answered alike whatever the words of refusals that have nothing to do with a key. -/
theorem answersOn_alike (rs : List Request) {replies replies' : List Reply}
    (h : List.Forall₂ Reply.Alike replies replies') :
    app.answersOn routes rs replies = app.answersOn routes rs replies' := by
  rw [answersOn, answersOn]
  rcases Connection.open?_alike h with ⟨hnone, hnone'⟩ | ⟨c, c', hsome, hsome', hc⟩
  · rw [hnone, hnone']
  · rw [hsome, hsome']
    have hsteps := Plan.answerAll_simulation (A := fun _ => Response)
      (f := app.onDatabase routes) (g := app.onDatabase routes) (R := fun _ => Connection.Alike)
      (fun r _ _ _ h => onDatabase_alike h r) rs hc
    exact congrArg some hsteps.1

/-- A statement of a request that is refused because of a key settles the response. -/
theorem reports_conflict {activity : Activity} (hactivity : s.activity? = some activity)
    (hkey : code = "23505" ∨ code = "23503")
    (hturn : ⟨s, .refused code text⟩ ∈ (app.statementPlan routes r).transcript Connection.send c) :
    ∃ e place, routeOf? routes r.target.trimmed.path = some (e, place) ∧
      (app.onDatabase routes r c).1.status = 409 ∧
      (r.method ≠ "HEAD" → (app.onDatabase routes r c).1.Reports .conflict
        (activity.failure e.label ++ ": " ++ text)) := by
  rw [onDatabase]
  rw [statementPlan, Plan.transcript_bind_done] at hturn
  rw [statementPlan, Plan.run_bind]
  split_ifs at hturn ⊢ with hhealth hread
  · -- The probe is none of the repository's activities.
    have hprobe : s = .probe := congrArg Sigma.fst (List.mem_singleton.mp hturn)
    rw [hprobe] at hactivity
    cases hactivity
  · cases hturn
  · cases hroute : routeOf? routes r.target.trimmed.path with
    | none =>
      simp only [hroute] at hturn
      cases hturn
    | some found =>
      obtain ⟨e, place⟩ := found
      simp only [hroute] at hturn ⊢
      obtain ⟨hmethod, activity', hactivity', hanswer⟩ := Entity.respond_eq_conflict hkey hturn
      cases hactivity.symm.trans hactivity'
      refine ⟨e, place, rfl, ?_, ?_⟩
      · rw [hanswer]
        exact (status_complete app _ _).trans (if_neg fun hoptions => hmethod hoptions.2)
      · intro hhead
        rw [hanswer]
        exact reports_complete hmethod hhead (reports_faultResponse _)

/-- What the database says when it refuses something stays inside the application, but for refusals
because of a key. -/
structure KeepsErrorTexts (app : Application) (routes : List (String × Entity)) : Prop where
  /-- Databases that differ in other words alone are answered for alike, in every run and from the
  first connection on. -/
  others : ∀ (rs : List Request) (replies replies' : List Reply),
    List.Forall₂ Reply.Alike replies replies' →
      app.answersOn routes rs replies = app.answersOn routes rs replies'
  /-- The words of a refusal because of a key stand behind what the repository was doing, in a
  response with the status of a conflict. -/
  keys : ∀ (r : Request) (c : Connection) (s : Statement) (activity : Activity)
    (code text : String), s.activity? = some activity → (code = "23505" ∨ code = "23503") →
    ⟨s, .refused code text⟩ ∈ (app.statementPlan routes r).transcript Connection.send c →
      ∃ e place, routeOf? routes r.target.trimmed.path = some (e, place) ∧
        (app.onDatabase routes r c).1.status = 409 ∧
        (r.method ≠ "HEAD" → (app.onDatabase routes r c).1.Reports .conflict
          (activity.failure e.label ++ ": " ++ text))

/-- Whatever its routes, an application keeps the words of the database to itself, but for refusals
because of a key. -/
theorem error_texts_stay_inside (app : Application) (routes : List (String × Entity)) :
    app.KeepsErrorTexts routes where
  others rs _ _ h := answersOn_alike rs h
  keys _ _ _ _ _ _ hactivity hkey hturn := reports_conflict hactivity hkey hturn

/-- A database that gives up a first statement, in words of its own, and then refuses another
because of a key. -/
def refusals (text : String) : List Reply :=
  [.ends (.refused "57014" text), .ends (.refused "23503" "still referenced")]

/-- A request for the group with the identifier seven. -/
def groupSeven (method : String) : Request := ⟨method, .parse "/group/api/v1/7", [], []⟩

/-- Why the first statement was given up is not told, but that the group is still referred to is. -/
theorem refusals_stay_inside :
    List.Forall₂ Reply.Alike (refusals "canceled by backend 4711") (refusals "out of time") ∧
      (ofSettings {}).answersOn Catalog.routes [groupSeven "GET", groupSeven "DELETE"]
          (refusals "canceled by backend 4711") =
        (ofSettings {}).answersOn Catalog.routes [groupSeven "GET", groupSeven "DELETE"]
          (refusals "out of time") ∧
      ((ofSettings {}).onDatabase Catalog.routes (groupSeven "DELETE")
        ⟨(refusals "out of time").tail, true, false, []⟩).1.Reports .conflict
          "Failed to delete group: still referenced" := by
  have hstays := error_texts_stay_inside (ofSettings {}) Catalog.routes
  have halike : List.Forall₂ Reply.Alike (refusals "canceled by backend 4711")
      (refusals "out of time") :=
    .cons (.ends (.refused (by decide) (by decide) _ _)) (.cons (.ends (.refl _)) .nil)
  have hturn : ⟨.delete "groups" 7, .refused "23503" "still referenced"⟩ ∈
      ((ofSettings {}).statementPlan Catalog.routes (groupSeven "DELETE")).transcript
        Connection.send ⟨(refusals "out of time").tail, true, false, []⟩ :=
    List.mem_singleton_self _
  obtain ⟨e, place, hroute, -, hreport⟩ :=
    hstays.keys _ _ _ .delete "23503" _ rfl (Or.inr rfl) hturn
  obtain rfl : Catalog.group = e := by
    have hgroup : routeOf? Catalog.routes (groupSeven "DELETE").target.trimmed.path =
        some (Catalog.group, .item "7") := by decide +kernel
    exact congrArg Prod.fst (Option.some.inj (hgroup.symm.trans hroute))
  exact ⟨halike, hstays.others _ _ _ halike, hreport (by decide)⟩

end Application

end ExchangeCatalog
