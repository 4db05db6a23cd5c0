import ExchangeCatalog.Proofs.Entity.Fields
import Mathlib.Data.Bool.Basic

/-!
# Changes of a record

A change gives new values to some of the columns. Made one after the other, two changes are one: it
has the later value of each column that either of them sets. Changes so form a monoid in which every
element is idempotent, and making them is its action on records. Changes of different columns
commute, and a change of every column leaves nothing of the record that was there.

## Main definitions

* `Patch.empty`, `Patch.merge` — the change of nothing, and one change after another
* `Patch.disjoint` — two changes concern different columns
* `Patch.valueOf?` — the new value of the column with a name

## Main results

* `Record.get_applyPatch` — the entries of a changed record
* `Record.applyPatch_merge` — one change after another is a single change
* `Record.applyPatch_comm` — changes of different columns may be made in either order
* `Record.applyPatch_applyPatch_eq_iff` — what it takes for a change to leave no trace
* `Patch.exists_eq_map_some` — a change of every column is a record
-/

namespace ExchangeCatalog

variable {cs : List Column}

namespace Patch

/-- The change of nothing. -/
def empty : Patch cs := Fields.fill (fun _ => none) cs

/-- One change after another, as a single change: of two values for one column the later counts. -/
def merge (p q : Patch cs) : Patch cs := p.zipWith (fun _ earlier later => later.or earlier) q

/-- Two changes concern different columns. -/
def disjoint : {cs : List Column} → Patch cs → Patch cs → Bool
  | _, .nil, .nil => true
  | _, .cons x p, .cons y q => (x.isNone || y.isNone) && disjoint p q

/-- The new value of the first column with a name, if it has one. -/
def valueOf? (name : String) : {cs : List Column} → Patch cs → Option Value
  | _, .nil => none
  | _, @Fields.cons _ c _ x p => if c.name = name then x.map c.kind.value else valueOf? name p

@[simp] theorem get_empty (i : Fin cs.length) : (empty : Patch cs).get i = none :=
  Fields.get_fill _ cs i

@[simp] theorem get_merge (p q : Patch cs) (i : Fin cs.length) :
    (p.merge q).get i = (q.get i).or (p.get i) :=
  Fields.get_zipWith _ p q i

/-! ### Laws of one change after another -/

theorem empty_merge (p : Patch cs) : empty.merge p = p :=
  Fields.ext_get fun i => by rw [get_merge, get_empty, Option.or_none]

theorem merge_empty (p : Patch cs) : p.merge empty = p :=
  Fields.ext_get fun i => by rw [get_merge, get_empty, Option.none_or]

theorem merge_assoc (p q s : Patch cs) : (p.merge q).merge s = p.merge (q.merge s) :=
  Fields.ext_get fun i => by rw [get_merge, get_merge, get_merge, get_merge, Option.or_assoc]

theorem merge_self (p : Patch cs) : p.merge p = p :=
  Fields.ext_get fun i => by rw [get_merge, Option.or_self]

/-! ### Different columns -/

theorem disjoint_iff_get {p q : Patch cs} :
    p.disjoint q ↔ ∀ i, p.get i = none ∨ q.get i = none := by
  induction cs with
  | nil =>
    cases p; cases q
    exact iff_of_true rfl fun i => i.elim0
  | cons c cs ih =>
    cases p with | cons x p =>
    cases q with | cons y q =>
    rw [disjoint, Bool.and_eq_true, Bool.or_eq_true, Option.isNone_iff_eq_none,
      Option.isNone_iff_eq_none, ih]
    constructor
    · rintro ⟨hfirst, hrest⟩ i
      cases i using Fin.cases with
      | zero => exact hfirst
      | succ i => exact hrest i
    · exact fun h => ⟨h ⟨0, Nat.zero_lt_succ _⟩, fun i => h i.succ⟩

theorem disjoint_comm (p q : Patch cs) : p.disjoint q = q.disjoint p := by
  rw [Bool.eq_iff_iff, disjoint_iff_get, disjoint_iff_get]
  exact forall_congr' fun i => or_comm

/-- Of changes of different columns neither has to come first. -/
theorem merge_comm {p q : Patch cs} (h : p.disjoint q) : p.merge q = q.merge p := by
  refine Fields.ext_get fun i => ?_
  rw [get_merge, get_merge]
  rcases disjoint_iff_get.mp h i with hp | hq
  · rw [hp, Option.or_none, Option.none_or]
  · rw [hq, Option.none_or, Option.or_none]

/-! ### Every column -/

/-- A change of every column is a record. -/
theorem exists_eq_map_some {p : Patch cs} (h : ∀ i, (p.get i).isSome) :
    ∃ record : Record cs, p = record.map fun _ => some := by
  induction cs with
  | nil =>
    cases p
    exact ⟨.nil, rfl⟩
  | cons c cs ih =>
    cases p with | cons x p =>
    obtain ⟨v, rfl⟩ : ∃ v, x = some v := Option.isSome_iff_exists.mp (h ⟨0, Nat.zero_lt_succ _⟩)
    obtain ⟨record, rfl⟩ := ih fun i => h i.succ
    exact ⟨.cons v record, rfl⟩

end Patch

namespace Record

theorem applyPatch_cons {c : Column} (old : c.kind.Carrier) (r : Record cs)
    (new : Option c.kind.Carrier) (p : Patch cs) :
    Record.applyPatch (.cons old r : Record (c :: cs)) (.cons new p : Patch (c :: cs)) =
      .cons (new.getD old) (r.applyPatch p) :=
  rfl

/-- Every entry is the change's where it has one, and the old one where it has none. -/
@[simp] theorem get_applyPatch (r : Record cs) (p : Patch cs) (i : Fin cs.length) :
    (r.applyPatch p).get i = (p.get i).getD (r.get i) :=
  Fields.get_zipWith _ r p i

/-- So it is with the value under a name. -/
theorem valueOf?_applyPatch (r : Record cs) (p : Patch cs) (name : String) :
    (r.applyPatch p).valueOf? name = (p.valueOf? name).or (r.valueOf? name) := by
  induction cs with
  | nil => cases r; cases p; rfl
  | cons c cs ih =>
    cases r with | cons old r =>
    cases p with | cons new p =>
    rw [applyPatch_cons, valueOf?, valueOf?, Patch.valueOf?, ih]
    split_ifs with hname
    · cases new with
      | none => rfl
      | some v => rfl
    · rfl

/-- One change after another is a single change. -/
theorem applyPatch_merge (r : Record cs) (p q : Patch cs) :
    r.applyPatch (p.merge q) = (r.applyPatch p).applyPatch q := by
  refine Fields.ext_get fun i => ?_
  rw [get_applyPatch, get_applyPatch, get_applyPatch, Patch.get_merge]
  cases q.get i with
  | none => rfl
  | some v => rfl

@[simp] theorem applyPatch_empty (r : Record cs) : r.applyPatch Patch.empty = r :=
  Fields.ext_get fun i => by rw [get_applyPatch, Patch.get_empty, Option.getD_none]

/-- Changes of different columns may be made in either order. -/
theorem applyPatch_comm (r : Record cs) {p q : Patch cs} (h : p.disjoint q) :
    (r.applyPatch p).applyPatch q = (r.applyPatch q).applyPatch p := by
  rw [← applyPatch_merge, ← applyPatch_merge, Patch.merge_comm h]

/-- A change of other columns before does not show exactly when it is no change. -/
theorem applyPatch_applyPatch_eq_iff (r : Record cs) {p q : Patch cs} (h : p.disjoint q) :
    (r.applyPatch p).applyPatch q = r.applyPatch q ↔ r.applyPatch p = r := by
  constructor
  · intro hsame
    refine Fields.ext_get fun i => ?_
    have hentry := congrArg (fun s => Fields.get s i) hsame
    rw [get_applyPatch, get_applyPatch, get_applyPatch] at hentry
    rw [get_applyPatch]
    -- Where the later change has no entry, the equation is about the earlier one.
    rcases Patch.disjoint_iff_get.mp h i with hp | hq
    · rw [hp, Option.getD_none]
    · rwa [hq, Option.getD_none, Option.getD_none] at hentry
  · exact fun hsame => by rw [hsame]

/-- A change of every column leaves nothing of the old record. -/
theorem applyPatch_map_some (old r : Record cs) : old.applyPatch (r.map fun _ => some) = r :=
  Fields.ext_get fun i => by rw [get_applyPatch, Fields.get_map, Option.getD_some]

theorem map_id (r : Record cs) : r.map (fun _ x => x) = r :=
  Fields.ext_get fun i => Fields.get_map _ r i

end Record

end ExchangeCatalog
