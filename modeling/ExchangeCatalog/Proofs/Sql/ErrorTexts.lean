import ExchangeCatalog.Repository.Sql
import ExchangeCatalog.Sql.Connection
import Mathlib.Data.List.Forall2

/-!
# The texts of refusals

When the database refuses a statement it says why, in words that may tell of its inner life. Only a
refusal because of a key is passed on; the words of every other one go no further than the plan that
sent the statement. A plan is called discreet when it goes on in the same way after endings that
differ in such words alone. Two databases that differ in nothing else are then told apart neither by
the result of a discreet plan nor by the statements that it sends.

## Main definitions

* `Outcome.Alike`, `Reply.Alike`, `Connection.Alike` — the same but for the words of refusals that
  have nothing to do with a key
* `StatementPlan.IsDiscreet` — a plan that does not look at these words

## Main results

* `Connection.Alike.send`, `Connection.opening_alike` — statements and openings end alike
* `StatementPlan.IsDiscreet.run_alike` — a discreet plan has the same result on both
* `SqlRepository.isDiscreet_answer`, `SqlRepository.isDiscreet_probe` — the repository is discreet
-/

namespace ExchangeCatalog

/-- Two endings of a statement are the same but for the words of a refusal that has nothing to do
with a key. -/
inductive Outcome.Alike : Outcome → Outcome → Prop
  | refl (o : Outcome) : Alike o o
  | refused {code : String} (unique : code ≠ "23505") (foreign : code ≠ "23503")
    (text text' : String) : Alike (.refused code text) (.refused code text')

/-- Two replies are the same but for such words; a connection is refused in words as well. -/
inductive Reply.Alike : Reply → Reply → Prop
  | ends {o o' : Outcome} (h : o.Alike o') : Alike (.ends o) (.ends o')
  | refusesConnection {code code' text text' : String}
    (h : Outcome.Alike (.refused code text) (.refused code' text')) :
    Alike (.refusesConnection code text) (.refusesConnection code' text')

theorem Outcome.Alike.code_eq {code code' text text' : String}
    (h : Outcome.Alike (.refused code text) (.refused code' text')) : code = code' := by
  cases h with
  | refl => rfl
  | refused => rfl

/-! ### Connections -/

namespace Connection

/-- Two connections are the same but for replies to come that differ in such words alone. -/
inductive Alike : Connection → Connection → Prop
  | of_replies {replies replies' : List Reply} (h : List.Forall₂ Reply.Alike replies replies')
    (isOpen isClosed : Bool) (sent : List Statement) :
    Alike ⟨replies, isOpen, isClosed, sent⟩ ⟨replies', isOpen, isClosed, sent⟩

variable {c c' : Connection} {replies replies' : List Reply}

/-- An opening takes the same replies, and is refused in both cases or in neither. -/
theorem opening_alike (h : List.Forall₂ Reply.Alike replies replies') :
    ((opening replies).1 = none ∧ (opening replies').1 = none ∨
        ∃ code text text', (opening replies).1 = some (code, text) ∧
          (opening replies').1 = some (code, text') ∧
          Outcome.Alike (.refused code text) (.refused code text')) ∧
      List.Forall₂ Reply.Alike (opening replies).2 (opening replies').2 := by
  induction h with
  | nil => exact ⟨Or.inl ⟨rfl, rfl⟩, .nil⟩
  | cons hreply hrest ih =>
    cases hreply with
    | ends h => exact ⟨Or.inl ⟨rfl, rfl⟩, .cons (.ends h) hrest⟩
    | refusesConnection h =>
      -- Whether the opening is tried again depends on the code, which is the same.
      obtain rfl := h.code_eq
      rw [opening, opening]
      split_ifs
      · exact ih
      · exact ⟨Or.inr ⟨_, _, _, rfl, rfl, h⟩, hrest⟩

/-- A first connection comes about in both cases or in neither. -/
theorem open?_alike (h : List.Forall₂ Reply.Alike replies replies') :
    open? replies = none ∧ open? replies' = none ∨
      ∃ c c', open? replies = some c ∧ open? replies' = some c' ∧ c.Alike c' := by
  obtain ⟨hrefusal, hrest⟩ := opening_alike h
  rw [open?, open?]
  rcases hopening : opening replies with ⟨refusal, rest⟩
  rcases hopening' : opening replies' with ⟨refusal', rest'⟩
  rw [hopening, hopening'] at hrefusal hrest
  rcases hrefusal with ⟨rfl, rfl⟩ | ⟨code, text, text', rfl, rfl, -⟩
  · exact Or.inr ⟨_, _, rfl, rfl, .of_replies hrest true false []⟩
  · exact Or.inl ⟨rfl, rfl⟩

theorem Alike.exchange (h : c.Alike c') (s : Statement) :
    (c.exchange s).1.Alike (c'.exchange s).1 ∧ (c.exchange s).2.Alike (c'.exchange s).2 := by
  cases h with
  | of_replies hreplies isOpen isClosed sent =>
    cases hreplies with
    | nil => exact ⟨.refl _, .of_replies .nil _ _ _⟩
    | cons hreply hrest =>
      cases hreply with
      | refusesConnection h => exact ⟨h, .of_replies hrest _ _ _⟩
      | @ends o _ h =>
        cases h with
        | refl =>
          -- Only a connection that is lost is no longer open.
          cases o with
          | lost => exact ⟨.refl _, .of_replies hrest _ _ _⟩
          | _ => exact ⟨.refl _, .of_replies hrest _ _ _⟩
        | refused unique foreign text text' =>
          exact ⟨.refused unique foreign text text', .of_replies hrest _ _ _⟩

/-- A statement ends alike on connections that are alike, and leaves them alike. -/
theorem Alike.send (h : c.Alike c') (s : Statement) :
    (c.send s).1.Alike (c'.send s).1 ∧ (c.send s).2.Alike (c'.send s).2 := by
  cases h with
  | @of_replies replies replies' hreplies isOpen isClosed sent =>
    rw [Connection.send, Connection.send]
    split_ifs
    · exact ⟨.refl _, .of_replies hreplies _ _ _⟩
    · exact (Alike.of_replies hreplies _ _ _).exchange s
    · -- A new connection is opened first, and this either succeeds or fails for both.
      obtain ⟨hrefusal, hrest⟩ := opening_alike hreplies
      dsimp only
      rcases hopening : opening replies with ⟨refusal, rest⟩
      rcases hopening' : opening replies' with ⟨refusal', rest'⟩
      rw [hopening, hopening'] at hrefusal hrest
      rcases hrefusal with ⟨rfl, rfl⟩ | ⟨code, text, text', rfl, rfl, hrefused⟩
      · exact (Alike.of_replies hrest _ _ _).exchange s
      · exact ⟨hrefused, .of_replies hrest _ _ _⟩

end Connection

/-! ### Plans -/

namespace StatementPlan

/-- After endings that are alike the plan goes on in the same way, at each of its statements. -/
inductive IsDiscreet {α : Type} : StatementPlan α → Prop
  | done (a : α) : IsDiscreet (.done a)
  | ask {s : Statement} {next : Outcome → StatementPlan α}
    (same : ∀ o o', Outcome.Alike o o' → next o = next o') (rest : ∀ o, IsDiscreet (next o)) :
    IsDiscreet (.ask s next)

variable {α β : Type} {p : StatementPlan α}

/-- A plan of one statement is discreet when its result does not depend on the words. -/
theorem isDiscreet_ask_done {s : Statement} {read : Outcome → α}
    (hread : ∀ o o', Outcome.Alike o o' → read o = read o') :
    IsDiscreet (.ask s fun o => .done (read o)) := by
  refine .ask ?_ fun o => .done _
  intro o o' h
  rw [hread o o' h]

namespace IsDiscreet

theorem bind (hp : IsDiscreet p) {f : α → StatementPlan β} (hf : ∀ a, IsDiscreet (f a)) :
    IsDiscreet (Plan.bind p f) := by
  induction hp with
  | done a => exact hf a
  | ask same rest ih =>
    refine .ask ?_ ih
    intro o o' h
    rw [same o o' h]

/-- Whatever a plan asks, it becomes discreet when its questions are answered by discreet plans. -/
theorem through {Q : Type} {A : Q → Type} {detail : (q : Q) → StatementPlan (A q)}
    (hdetail : ∀ q, IsDiscreet (detail q)) (p : Plan Q A α) : IsDiscreet (p.through detail) := by
  induction p with
  | done a => exact .done a
  | ask q next ih => exact (hdetail q).bind ih

/-- A discreet plan has the same result on connections that are alike, and leaves them alike. -/
theorem run_alike (hp : IsDiscreet p) {c c' : Connection} (hc : c.Alike c') :
    (p.run Connection.send c).1 = (p.run Connection.send c').1 ∧
      (p.run Connection.send c).2.Alike (p.run Connection.send c').2 := by
  induction hp generalizing c c' with
  | done a => exact ⟨rfl, hc⟩
  | @ask s next same rest ih =>
    obtain ⟨houtcome, hnext⟩ := hc.send s
    rw [Plan.run_ask, Plan.run_ask, same _ _ houtcome]
    exact ih _ hnext

end IsDiscreet

end StatementPlan

/-! ### The repository -/

namespace SqlRepository

open StatementPlan (IsDiscreet isDiscreet_ask_done)

variable {o o' : Outcome}

theorem refusal_eq_database {code : String} (unique : code ≠ "23505") (foreign : code ≠ "23503")
    (label : String) (activity : Activity) (text : String) :
    refusal label activity code text = .database label activity := by
  simp [refusal, isKeyViolation, unique, foreign]

/-- A reply is read in the same way whatever the words of a refusal. -/
theorem resultSet_alike (h : o.Alike o') (label : String) (activity : Activity) :
    resultSet label activity o = resultSet label activity o' := by
  cases h with
  | refl => rfl
  | refused unique foreign text text' =>
    rw [resultSet, resultSet, refusal_eq_database unique foreign,
      refusal_eq_database unique foreign]

variable (e : Entity)

theorem optionalRow_alike (h : o.Alike o') (activity : Activity) :
    optionalRow e activity o = optionalRow e activity o' := by
  simp only [optionalRow, resultSet_alike h]

theorem oneRow_alike (h : o.Alike o') (activity : Activity) :
    oneRow e activity o = oneRow e activity o' := by
  simp only [oneRow, optionalRow_alike e h]

theorem allRows_alike (h : o.Alike o') (activity : Activity) :
    allRows e activity o = allRows e activity o' := by
  simp only [allRows, resultSet_alike h]

theorem counted_alike (h : o.Alike o') : counted e o = counted e o' := by
  simp only [counted, resultSet_alike h]

theorem touched_alike (h : o.Alike o') (activity : Activity) :
    touched e activity o = touched e activity o' := by
  cases h with
  | refl => rfl
  | refused unique foreign text text' =>
    rw [touched, touched, refusal_eq_database unique foreign, refusal_eq_database unique foreign]

variable {e}

/-- The repository does not look at the words of a refusal that has nothing to do with a key. -/
theorem isDiscreet_answer (c : Call e) : IsDiscreet (answer c) := by
  cases c with
  | find id => exact isDiscreet_ask_done fun o o' h => optionalRow_alike e h .find
  | create record => exact isDiscreet_ask_done fun o o' h => oneRow_alike e h .create
  | update row => exact isDiscreet_ask_done fun o o' h => optionalRow_alike e h .update
  | delete id => exact isDiscreet_ask_done fun o o' h => touched_alike e h .delete
  | page filters request =>
    rw [answer]
    cases typedFilters filters with
    | error fault => exact .done _
    | ok filters =>
      refine .ask ?_ ?_
      · intro o o' h
        rw [counted_alike e h]
      · intro o
        cases counted e o with
        | error fault => exact .done _
        | ok total =>
          refine isDiscreet_ask_done ?_
          intro o o' h
          rw [allRows_alike e h]

/-- Nor does the probe, which only tells whether the database answers. -/
theorem isDiscreet_probe : IsDiscreet probe := by
  refine isDiscreet_ask_done ?_
  intro o o' h
  cases h with
  | refl => rfl
  | refused => rfl

end SqlRepository

end ExchangeCatalog
