import ExchangeCatalog.Plan

/-!
# Questions in a row

A repository or a service is used by asking it one question after the other, each from the state
that the one before has left. Two implementations that answer alike from related states, and are
related again afterwards, answer every row of questions alike. The relation may speak of the
questions still to come, so a budget that each question draws on can be part of it.

## Main definitions

* `Plan.answerAll` — the answers to a row of questions, and the state after them

## Main results

* `Plan.answerAll_append` — a row of questions may be cut anywhere
* `Plan.answerAll_simulation` — step by step agreement carries over to rows of questions
-/

namespace ExchangeCatalog.Plan

variable {Q : Type} {A : Q → Type} {σ τ : Type}

/-- Asks questions in turn, and pairs each with its answer. -/
def answerAll (answer : (q : Q) → σ → A q × σ) : List Q → σ → List ((q : Q) × A q) × σ
  | [], s => ([], s)
  | q :: qs, s =>
    let (as, t) := answerAll answer qs (answer q s).2
    (⟨q, (answer q s).1⟩ :: as, t)

@[simp] theorem answerAll_nil (answer : (q : Q) → σ → A q × σ) (s : σ) :
    answerAll answer [] s = ([], s) := rfl

theorem answerAll_cons (answer : (q : Q) → σ → A q × σ) (q : Q) (qs : List Q) (s : σ) :
    answerAll answer (q :: qs) s =
      (⟨q, (answer q s).1⟩ :: (answerAll answer qs (answer q s).2).1,
        (answerAll answer qs (answer q s).2).2) := rfl

/-- A row of questions may be cut anywhere. -/
theorem answerAll_append (answer : (q : Q) → σ → A q × σ) (qs qs' : List Q) (s : σ) :
    answerAll answer (qs ++ qs') s =
      ((answerAll answer qs s).1 ++ (answerAll answer qs' (answerAll answer qs s).2).1,
        (answerAll answer qs' (answerAll answer qs s).2).2) := by
  induction qs generalizing s with
  | nil => rfl
  | cons q qs ih => rw [List.cons_append, answerAll_cons, ih, answerAll_cons, List.cons_append]

/-- Step by step agreement carries over to rows of questions. The relation is given the questions
that are still to come. -/
theorem answerAll_simulation {f : (q : Q) → σ → A q × σ} {g : (q : Q) → τ → A q × τ}
    {R : List Q → σ → τ → Prop}
    (step : ∀ q qs s t, R (q :: qs) s t → (f q s).1 = (g q t).1 ∧ R qs (f q s).2 (g q t).2)
    (qs : List Q) {s : σ} {t : τ} (h : R qs s t) :
    (answerAll f qs s).1 = (answerAll g qs t).1 ∧
      R [] (answerAll f qs s).2 (answerAll g qs t).2 := by
  induction qs generalizing s t with
  | nil => exact ⟨rfl, h⟩
  | cons q qs ih =>
    obtain ⟨hanswer, hnext⟩ := step q qs s t h
    obtain ⟨hanswers, hend⟩ := ih hnext
    rw [answerAll_cons, answerAll_cons, hanswer, hanswers]
    exact ⟨rfl, hend⟩

end ExchangeCatalog.Plan
