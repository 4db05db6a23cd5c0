import ExchangeCatalog.Plan
import Mathlib.Logic.Function.Basic

/-!
# Sessions side by side

Several sessions share one state. Each is a plan, and between two questions of one session any
number of questions of others may be answered; a single question is answered at once. Nothing is
assumed about whose turn it is, so an interleaving is any order in which the questions can be
asked.

An interleaving can be looked at from two sides. The state sees one row of questions, whoever asks
them. A session sees its own questions and their answers, and goes on as its plan says.

## Main definitions

* `Plan.Event` — a question that one of the sessions asked, with its answer
* `Plan.Interleaving` — what happens when sessions take turns in any order
* `Plan.Follows` — how far a plan has got with some questions answered
* `Plan.ownAsked` — the questions of one session with their answers

## Main results

* `Plan.Interleaving.exists_of_append` — an interleaving may be cut anywhere
* `Plan.Interleaving.exists_done` — a session can always be brought to its end
* `Plan.Interleaving.follows` — each session follows its own plan
-/

namespace ExchangeCatalog.Plan

variable {ι Q α σ : Type} {A : Q → Type}

/-- A question with its answer. -/
abbrev Asked (A : Q → Type) := (q : Q) × A q

/-- A question that one of several sessions asked, with its answer. -/
structure Event (ι : Type) (A : Q → Type) where
  session : ι
  asked : Asked A

/-- Sessions take turns: in each turn one of them asks its next question, which is answered from the
state that the turn before has left. -/
inductive Interleaving [DecidableEq ι] (answer : (q : Q) → σ → A q × σ) :
    (ι → Plan Q A α) → σ → List (Event ι A) → (ι → Plan Q A α) → σ → Prop
  | stop (sessions : ι → Plan Q A α) (s : σ) : Interleaving answer sessions s [] sessions s
  | turn {sessions sessions' : ι → Plan Q A α} {s s' : σ} {events : List (Event ι A)} {i : ι}
      {q : Q} {next : A q → Plan Q A α} (asks : sessions i = .ask q next)
      (rest : Interleaving answer (Function.update sessions i (next (answer q s).1)) (answer q s).2
        events sessions' s') :
      Interleaving answer sessions s (⟨i, q, (answer q s).1⟩ :: events) sessions' s'

/-- The questions of one session with their answers, in order. -/
def ownAsked [DecidableEq ι] (i : ι) (events : List (Event ι A)) : List (Asked A) :=
  (events.filter fun event => event.session = i).map Event.asked

/-- A plan with some questions answered, and what is left of it. -/
inductive Follows : Plan Q A α → List (Asked A) → Plan Q A α → Prop
  | stop (p : Plan Q A α) : Follows p [] p
  | ask {q : Q} {next : A q → Plan Q A α} {x : A q} {asked : List (Asked A)} {rest : Plan Q A α}
      (follows : Follows (next x) asked rest) : Follows (.ask q next) (⟨q, x⟩ :: asked) rest

theorem follows_done_iff {a : α} {asked : List (Asked A)} {rest : Plan Q A α} :
    Follows (.done a) asked rest ↔ asked = [] ∧ rest = .done a := by
  constructor
  · intro h
    cases h with
    | stop => exact ⟨rfl, rfl⟩
  · rintro ⟨rfl, rfl⟩
    exact .stop _

theorem follows_ask_iff {q : Q} {next : A q → Plan Q A α} {asked : List (Asked A)}
    {rest : Plan Q A α} :
    Follows (.ask q next) asked rest ↔ (asked = [] ∧ rest = .ask q next) ∨
      ∃ x more, asked = ⟨q, x⟩ :: more ∧ Follows (next x) more rest := by
  constructor
  · intro h
    cases h with
    | stop => exact Or.inl ⟨rfl, rfl⟩
    | ask h => exact Or.inr ⟨_, _, rfl, h⟩
  · rintro (⟨rfl, rfl⟩ | ⟨x, more, rfl, h⟩)
    · exact .stop _
    · exact .ask h

/-- A plan that hands its result on in some form can only end with a result of that form. -/
theorem Follows.exists_of_done {β : Type} {p : Plan Q A α} {f : α → β} {b : β}
    {asked : List (Asked A)} (h : Follows (p.bind fun a => .done (f a)) asked (.done b)) :
    ∃ a, b = f a := by
  induction p generalizing asked with
  | done a =>
    obtain ⟨-, hb⟩ := follows_done_iff.mp h
    exact ⟨a, Plan.done.inj hb⟩
  | ask q next ih =>
    rcases follows_ask_iff.mp h with ⟨-, hb⟩ | ⟨x, more, -, hmore⟩
    · cases hb
    · exact ih x hmore

/-! ### Both sides of an interleaving -/

theorem mem_cons_of_asked {i : ι} {asked asked' : Asked A} {events : List (Event ι A)}
    (h : asked = asked') : (⟨i, asked'⟩ : Event ι A) ∈ ⟨i, asked⟩ :: events :=
  h ▸ List.mem_cons_self

section

variable [DecidableEq ι] {answer : (q : Q) → σ → A q × σ} {sessions sessions' : ι → Plan Q A α}
  {s s' : σ} {events before after : List (Event ι A)} {i : ι}

theorem mem_ownAsked_iff {asked : Asked A} :
    asked ∈ ownAsked i events ↔ ⟨i, asked⟩ ∈ events := by
  simp only [ownAsked, List.mem_map, List.mem_filter, decide_eq_true_eq]
  constructor
  · rintro ⟨⟨j, asked⟩, ⟨hmem, rfl⟩, rfl⟩
    exact hmem
  · intro h
    exact ⟨_, ⟨h, rfl⟩, rfl⟩

theorem ownAsked_cons_self (i : ι) (asked : Asked A) (events : List (Event ι A)) :
    ownAsked i (⟨i, asked⟩ :: events) = asked :: ownAsked i events := by
  rw [ownAsked, List.filter_cons_of_pos (by simp), List.map_cons, ownAsked]

theorem ownAsked_cons_of_ne {i j : ι} (h : j ≠ i) (asked : Asked A) (events : List (Event ι A)) :
    ownAsked i (⟨j, asked⟩ :: events) = ownAsked i events := by
  rw [ownAsked, List.filter_cons_of_neg (by simpa using h), ownAsked]

namespace Interleaving

/-- An interleaving may be cut anywhere. -/
theorem exists_of_append
    (h : Interleaving answer sessions s (before ++ after) sessions' s') :
    ∃ between t, Interleaving answer sessions s before between t ∧
      Interleaving answer between t after sessions' s' := by
  induction before generalizing sessions s with
  | nil => exact ⟨sessions, s, .stop _ _, h⟩
  | cons event before ih =>
    cases h with
    | turn asks rest =>
      obtain ⟨between, t, hbefore, hafter⟩ := ih rest
      exact ⟨between, t, .turn asks hbefore, hafter⟩

/-- What happens first and what happens then. -/
theorem append {between : ι → Plan Q A α} {t : σ}
    (h : Interleaving answer sessions s before between t)
    (h' : Interleaving answer between t after sessions' s') :
    Interleaving answer sessions s (before ++ after) sessions' s' := by
  induction h with
  | stop sessions s => exact h'
  | turn asks rest ih => exact .turn asks (ih h')

/-- A session can always be brought to its end while the others wait. -/
theorem exists_done (answer : (q : Q) → σ → A q × σ) (sessions : ι → Plan Q A α) (s : σ) (i : ι) :
    ∃ events sessions' s' a, Interleaving answer sessions s events sessions' s' ∧
      (∀ event ∈ events, event.session = i) ∧ sessions' i = .done a := by
  generalize hp : sessions i = p
  induction p generalizing sessions s with
  | done a => exact ⟨[], sessions, s, a, .stop _ _, fun _ h => absurd h List.not_mem_nil, hp⟩
  | ask q next ih =>
    obtain ⟨events, sessions', s', a, rest, hevents, hdone⟩ :=
      ih (answer q s).1 (Function.update sessions i (next (answer q s).1)) (answer q s).2
        (Function.update_self ..)
    exact ⟨_, sessions', s', a, .turn hp rest, List.forall_mem_cons.mpr ⟨rfl, hevents⟩, hdone⟩

/-- The turn of an event: what the session was about to ask, and what happens before and after. -/
theorem exists_of_append_cons {asked : Asked A}
    (h : Interleaving answer sessions s (before ++ ⟨i, asked⟩ :: after) sessions' s') :
    ∃ between t next, Interleaving answer sessions s before between t ∧
      between i = .ask asked.1 next ∧ asked.2 = (answer asked.1 t).1 ∧
        Interleaving answer (Function.update between i (next asked.2)) (answer asked.1 t).2 after
          sessions' s' := by
  obtain ⟨between, t, hbefore, hafter⟩ := h.exists_of_append
  cases hafter with
  | turn asks rest => exact ⟨between, t, _, hbefore, asks, rfl, rest⟩

/-- Each session follows its own plan. -/
theorem follows (h : Interleaving answer sessions s events sessions' s') (i : ι) :
    Follows (sessions i) (ownAsked i events) (sessions' i) := by
  induction h with
  | stop sessions s => exact .stop _
  | @turn sessions _ s _ events j q next asks rest ih =>
    by_cases hj : j = i
    · subst hj
      rw [Function.update_self] at ih
      rw [ownAsked_cons_self, asks]
      exact .ask ih
    · rw [Function.update_of_ne (Ne.symm hj)] at ih
      rw [ownAsked_cons_of_ne hj]
      exact ih

end Interleaving

end

end ExchangeCatalog.Plan
