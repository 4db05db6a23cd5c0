/-!
# Plans

A plan is a computation that asks questions one at a time and goes on from each answer: a service
asks its repository, a repository asks its store, a store on a database asks for statements to be
run. What is answered, and what happens between two questions, is left to whoever runs the plan. One
plan can therefore be run against a store, against a script of replies, or step by step among other
plans.

## Main definitions

* `Plan` — a computation over questions `Q` whose answers have the types `A`
* `Plan.run` — answers every question in turn from a state
* `Plan.through` — asks, in place of each question, the questions of a plan that answers it
-/

namespace ExchangeCatalog

/-- A computation that asks questions and ends with a result. -/
inductive Plan (Q : Type) (A : Q → Type) (α : Type) : Type
  | done (a : α)
  | ask (q : Q) (next : A q → Plan Q A α)

namespace Plan

variable {Q : Type} {A : Q → Type} {α β : Type}

/-- First one plan, then the plan that its result calls for. -/
def bind : Plan Q A α → (α → Plan Q A β) → Plan Q A β
  | done a, f => f a
  | ask q next, f => ask q fun x => (next x).bind f

instance : Monad (Plan Q A) where
  pure := done
  bind := bind

/-- The plan that asks one question and ends with its answer. -/
def question (q : Q) : Plan Q A (A q) := ask q done

/-- Answers the questions of a plan in turn, each from the state that the one before has left. -/
def run {σ : Type} (answer : (q : Q) → σ → A q × σ) : Plan Q A α → σ → α × σ
  | done a, s => (a, s)
  | ask q next, s =>
    let (x, s) := answer q s
    run answer (next x) s

/-- The plan with every question answered by a plan over other questions. -/
def through {R : Type} {B : R → Type} (answer : (q : Q) → Plan R B (A q)) : Plan Q A α → Plan R B α
  | done a => done a
  | ask q next => (answer q).bind fun x => through answer (next x)

@[simp] theorem done_bind (a : α) (f : α → Plan Q A β) : (done a).bind f = f a := rfl

@[simp] theorem ask_bind (q : Q) (next : A q → Plan Q A α) (f : α → Plan Q A β) :
    (ask q next).bind f = ask q fun x => (next x).bind f := rfl

@[simp] theorem run_done {σ : Type} (answer : (q : Q) → σ → A q × σ) (a : α) (s : σ) :
    run answer (done a) s = (a, s) := rfl

@[simp] theorem run_ask {σ : Type} (answer : (q : Q) → σ → A q × σ) (q : Q)
    (next : A q → Plan Q A α) (s : σ) :
    run answer (ask q next) s = run answer (next (answer q s).1) (answer q s).2 := rfl

theorem run_bind {σ : Type} (answer : (q : Q) → σ → A q × σ) (p : Plan Q A α)
    (f : α → Plan Q A β) (s : σ) :
    run answer (p.bind f) s = run answer (f (run answer p s).1) (run answer p s).2 := by
  induction p generalizing s with
  | done a => rfl
  | ask q next ih => exact ih _ _

/-- Running a plan through another is running it with the other's runs as answers. -/
theorem run_through {R : Type} {B : R → Type} {σ : Type} (answer : (r : R) → σ → B r × σ)
    (detail : (q : Q) → Plan R B (A q)) (p : Plan Q A α) (s : σ) :
    run answer (p.through detail) s = run (fun q s => run answer (detail q) s) p s := by
  induction p generalizing s with
  | done a => rfl
  | ask q next ih => simp only [through, run_bind, run_ask, ih]

end Plan

end ExchangeCatalog
