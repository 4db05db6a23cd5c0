import ExchangeCatalog.Entity.Basic

/-!
# Entries of columns

A set of fields has one entry for each column, which is found by the column's position. Two sets of
fields with the same entries are one, and what is done entry by entry is seen entry by entry.

## Main definitions

* `Fields.get` — the entry of the column at a position
* `Fields.All` — something that holds of every entry

## Main results

* `Fields.ext_get` — fields with the same entries are equal
* `Fields.get_map`, `Fields.get_zipWith`, `Fields.get_fill` — the entries of what is built entry by
  entry
* `Fields.all_iff_get` — what holds of every entry holds at every position
-/

namespace ExchangeCatalog

namespace Fields

variable {F G H : Kind → Type} {c : Column} {cs : List Column}

/-! ### Positions -/

/-- The entry of the column at a position. -/
def get : {cs : List Column} → Fields F cs → (i : Fin cs.length) → F (cs.get i).kind
  | _, .cons x _, ⟨0, _⟩ => x
  | _, .cons _ xs, ⟨i + 1, h⟩ => xs.get ⟨i, Nat.lt_of_succ_lt_succ h⟩

/-- Fields with the same entries are equal. -/
theorem ext_get {xs ys : Fields F cs} (h : ∀ i, xs.get i = ys.get i) : xs = ys := by
  induction xs with
  | nil =>
    cases ys with
    | nil => rfl
  | cons x xs ih =>
    cases ys with
    | cons y ys =>
      have hfirst : x = y := h ⟨0, Nat.zero_lt_succ _⟩
      have hrest : xs = ys := ih fun i => h i.succ
      rw [hfirst, hrest]

theorem get_map (f : (k : Kind) → F k → G k) (xs : Fields F cs) (i : Fin cs.length) :
    (xs.map f).get i = f (cs.get i).kind (xs.get i) := by
  induction xs with
  | nil => exact i.elim0
  | cons x xs ih =>
    cases i using Fin.cases with
    | zero => rfl
    | succ i => exact ih i

theorem get_zipWith (f : (k : Kind) → F k → G k → H k) (xs : Fields F cs) (ys : Fields G cs)
    (i : Fin cs.length) : (xs.zipWith f ys).get i = f (cs.get i).kind (xs.get i) (ys.get i) := by
  induction xs with
  | nil => exact i.elim0
  | cons x xs ih =>
    cases ys with
    | cons y ys =>
      cases i using Fin.cases with
      | zero => rfl
      | succ i => exact ih ys i

theorem get_fill (f : (k : Kind) → F k) (cs : List Column) (i : Fin cs.length) :
    (fill f cs).get i = f (cs.get i).kind := by
  induction cs with
  | nil => exact i.elim0
  | cons c cs ih =>
    cases i using Fin.cases with
    | zero => rfl
    | succ i => exact ih i

/-- Fields can be put together entry by entry. -/
theorem exists_get {P : (i : Fin cs.length) → F (cs.get i).kind → Prop} (h : ∀ i, ∃ x, P i x) :
    ∃ xs : Fields F cs, ∀ i, P i (xs.get i) := by
  induction cs with
  | nil => exact ⟨.nil, fun i => i.elim0⟩
  | cons c cs ih =>
    obtain ⟨x, hx⟩ := h ⟨0, Nat.zero_lt_succ _⟩
    obtain ⟨xs, hxs⟩ := ih fun i => h i.succ
    refine ⟨.cons x xs, fun i => ?_⟩
    cases i using Fin.cases with
    | zero => exact hx
    | succ i => exact hxs i

/-! ### All entries -/

/-- Something holds of every entry and its column. -/
def All (P : (c : Column) → F c.kind → Prop) : {cs : List Column} → Fields F cs → Prop
  | _, .nil => True
  | _, @cons _ c _ x xs => P c x ∧ xs.All P

theorem All.imp {P Q : (c : Column) → F c.kind → Prop} {xs : Fields F cs}
    (h : ∀ c ∈ cs, ∀ x, P c x → Q c x) (hxs : xs.All P) : xs.All Q := by
  induction xs with
  | nil => trivial
  | cons x xs ih =>
    obtain ⟨hx, hxs⟩ := hxs
    exact ⟨h _ List.mem_cons_self x hx, ih (fun c hc => h c (List.mem_cons_of_mem _ hc)) hxs⟩

/-- What holds of every entry holds at every position. -/
theorem all_iff_get {P : (c : Column) → F c.kind → Prop} {xs : Fields F cs} :
    xs.All P ↔ ∀ i, P (cs.get i) (xs.get i) := by
  induction xs with
  | nil => exact iff_of_true trivial fun i => i.elim0
  | @cons c cs x xs ih =>
    rw [All, ih]
    constructor
    · rintro ⟨hx, hxs⟩ i
      cases i using Fin.cases with
      | zero => exact hx
      | succ i => exact hxs i
    · exact fun h => ⟨h ⟨0, Nat.zero_lt_succ _⟩, fun i => h i.succ⟩

@[simp] theorem map_nil (f : (k : Kind) → F k → G k) :
    (Fields.nil : Fields F []).map f = .nil := rfl

@[simp] theorem map_cons (f : (k : Kind) → F k → G k) (x : F c.kind) (xs : Fields F cs) :
    (Fields.cons x xs : Fields F (c :: cs)).map f = .cons (f c.kind x) (xs.map f) := rfl

/-- What holds of the entries of a mapped set of fields. -/
theorem all_map_iff {f : (k : Kind) → F k → G k}
    {P : (c : Column) → G c.kind → Prop} {xs : Fields F cs} :
    (xs.map f).All P ↔ xs.All fun c x => P c (f c.kind x) := by
  induction xs with
  | nil => rfl
  | cons x xs ih => exact and_congr Iff.rfl ih

end Fields

end ExchangeCatalog
