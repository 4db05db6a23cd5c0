import ExchangeCatalog.Proofs.Filter.Shown
import ExchangeCatalog.Proofs.Page.Partition
import ExchangeCatalog.Proofs.Time.Micros
import Mathlib.Data.List.Basic

/-!
# The three ways to stand to a value

A column holds a value of its kind in every row, and the values of one kind are totally ordered. A
row is therefore below, at or above any value that a filter can name, and exactly one of these: the
three lists share all rows out among them, and the other two operators join two of the lists.

## Main definitions

* `MemoryStore.listed` — the rows that a list request with a single predicate shows
* `PageRequest.ShowsAll` — a page with room for every row of a store
* `OperatorsPartition` — how the lists of the five operators fit together

## Main results

* `Value.exists_compare?_iff`, `Value.compare?_trans` — the values of one kind are ordered
* `MemoryStore.listed_eq_filter` — which rows a single predicate shows
* `operators_partition_rows` — the lists for any value of any column that a filter may name
-/

namespace ExchangeCatalog

/-! ### The order of values -/

/-- The order of the values of a kind. -/
def Kind.compare : (k : Kind) → k.Carrier → k.Carrier → Ordering
  | .integer => compareOn Int64.toInt
  | .text => Ord.compare
  | .boolean => Ord.compare
  | .timestamp => Instant.compare

instance : (k : Kind) → Std.TransCmp k.compare
  | .integer => inferInstanceAs (Std.TransCmp (compareOn Int64.toInt))
  | .text => inferInstanceAs (Std.TransCmp (Ord.compare : String → String → Ordering))
  | .boolean => inferInstanceAs (Std.TransCmp (Ord.compare : Bool → Bool → Ordering))
  | .timestamp => inferInstanceAs (Std.TransCmp Instant.compare)

theorem Kind.value_injective (k : Kind) : Function.Injective k.value := by
  intro a b h
  cases k <;> cases h <;> rfl

namespace Value

variable {u v w : Value} {o : Ordering}

/-- Two values are ordered exactly when they are of one kind, and as this kind orders them. -/
theorem compare?_eq_some_iff : v.compare? w = some o ↔
    ∃ (k : Kind) (a b : k.Carrier), v = k.value a ∧ w = k.value b ∧ k.compare a b = o := by
  constructor
  · intro h
    cases v with
    | integer a => cases w <;> cases h; exact ⟨.integer, _, _, rfl, rfl, rfl⟩
    | text a => cases w <;> cases h; exact ⟨.text, _, _, rfl, rfl, rfl⟩
    | boolean a => cases w <;> cases h; exact ⟨.boolean, _, _, rfl, rfl, rfl⟩
    | timestamp a => cases w <;> cases h; exact ⟨.timestamp, _, _, rfl, rfl, rfl⟩
  · rintro ⟨k, a, b, rfl, rfl, rfl⟩
    cases k <;> rfl

theorem exists_value {k : Kind} (h : v.kind = k) : ∃ a : k.Carrier, v = k.value a := by
  subst h
  cases v <;> exact ⟨_, rfl⟩

/-- Values of one kind are ordered. -/
theorem exists_compare? (h : v.kind = w.kind) : ∃ o, v.compare? w = some o := by
  obtain ⟨a, ha⟩ := exists_value h
  obtain ⟨b, hb⟩ := exists_value (rfl : w.kind = w.kind)
  exact ⟨_, compare?_eq_some_iff.mpr ⟨w.kind, a, b, ha, hb, rfl⟩⟩

/-- What comes before a value comes before all that the value comes before. -/
theorem compare?_trans (huv : u.compare? v = some .lt) (hvw : v.compare? w = some .lt) :
    u.compare? w = some .lt := by
  obtain ⟨k, a, b, rfl, rfl, hab⟩ := compare?_eq_some_iff.mp huv
  obtain ⟨k', b', c, hb, rfl, hbc⟩ := compare?_eq_some_iff.mp hvw
  obtain rfl : k = k' := by rw [← k.kind_value b, hb, k'.kind_value]
  obtain rfl := k.value_injective hb
  exact compare?_eq_some_iff.mpr ⟨k, a, c, rfl, rfl, Std.TransCmp.lt_trans hab hbc⟩

end Value

/-! ### What a single predicate shows -/

variable {e : Entity} {c : Column} {name raw : String} {v : Value} {request : PageRequest}

/-- In the column of a filter that can be read every row holds a value of the filter's kind. Only
how this value stands to the filter's decides which operators the row passes. -/
theorem Row.exists_order (r : Row e) (hc : c ∈ e.fields) (hkind : v.kind = c.kind) :
    ∃ held o, r.valueOf? c.name = some held ∧ held.kind = c.kind ∧ held.compare? v = some o ∧
      ∀ op : Operator, TypedFilter.accepts ⟨c.name, op, v⟩ r = op.accepts o := by
  obtain ⟨held, hheld, hkind', -⟩ := r.exists_valueOf? hc
  obtain ⟨o, ho⟩ := Value.exists_compare? (hkind'.trans hkind.symm)
  refine ⟨held, o, hheld, hkind', ho, fun op => ?_⟩
  simp only [TypedFilter.accepts, hheld, Option.bind_some, ho]

theorem Value.kind_of_read? {k : Kind} (h : read? k raw = some v) : v.kind = k := by
  obtain ⟨x, -, rfl⟩ := Option.map_eq_some_iff.mp h
  exact k.kind_value x

/-- A page that begins with the first row and has room for every row of a store. -/
structure PageRequest.ShowsAll (request : PageRequest) (s : MemoryStore e) : Prop where
  offset_eq : request.offset = 0
  length_le : s.table.rows.length ≤ request.limit.toNat

/-- The first page of the greatest size has room for every row that a word can count. -/
theorem PageRequest.showsAll_of_length_lt {s : MemoryStore e}
    (h : s.table.rows.length < UInt64.size) :
    (⟨1, 0xFFFFFFFFFFFFFFFF⟩ : PageRequest).ShowsAll s :=
  ⟨by decide, Nat.le_of_lt_succ h⟩

namespace MemoryStore

/-- The rows that a list request with a single predicate shows, none if it is refused. -/
def listed (s : MemoryStore e) (request : PageRequest) (name raw : String) (op : Operator) :
    List (Row e) :=
  match (Service.serve (.list [⟨name, op, raw⟩] request) s).1 with
  | .ok page => page.items
  | .error _ => []

/-- A list request with a single predicate is answered with the rows that stand so to its value. -/
theorem serve_predicate (s : MemoryStore e) (hc : e.resolve? name = some c)
    (hv : Value.read? c.kind raw = some v) (request : PageRequest) (op : Operator) :
    (Service.serve (.list [⟨name, op, raw⟩] request) s).1 =
      .ok (selectPage s.table [⟨c.name, op, v⟩] request) := by
  rw [Service.serve_list, typedFilters_retain_singleton hc, hv]
  rfl

theorem listed_eq_filter {s : MemoryStore e} (hc : e.resolve? name = some c)
    (hv : Value.read? c.kind raw = some v) (hall : request.ShowsAll s) (op : Operator) :
    s.listed request name raw op =
      s.table.rows.filter fun r => TypedFilter.accepts ⟨c.name, op, v⟩ r := by
  have hpasses : passes [⟨c.name, op, v⟩] =
      fun r : Row e => TypedFilter.accepts ⟨c.name, op, v⟩ r := by
    funext r
    rw [passes, List.all_cons, List.all_nil, Bool.and_true]
  have hlength := Nat.le_trans (List.length_filter_le (passes [⟨c.name, op, v⟩]) s.table.rows)
    hall.length_le
  rw [listed, s.serve_predicate hc hv]
  simp only [selectPage, hall.offset_eq]
  rw [UInt64.toNat_zero, List.drop_zero, List.take_of_length_le hlength, hpasses]

end MemoryStore

/-! ### The lists of the five operators -/

/-- The operator that asks for exactly one order. -/
def Operator.ofOrdering : Ordering → Operator
  | .lt => lessThan
  | .eq => equal
  | .gt => greaterThan

/-- Of the operators for one order each, an order passes its own alone. -/
theorem Operator.accepts_iff_of_mem {op : Operator} (h : op ∈ [lessThan, equal, greaterThan])
    (o : Ordering) : op.accepts o ↔ op = ofOrdering o := by
  cases op <;> cases o <;> revert h <;> decide

/-- What one of two tests keeps that exclude each other, put behind what the other keeps. -/
theorem perm_filter_append {α : Type} {xs : List α} {p q r : α → Bool}
    (h : ∀ x ∈ xs, (r x ↔ p x ∨ q x) ∧ ¬ (p x ∧ q x)) :
    (xs.filter p ++ xs.filter q).Perm (xs.filter r) := by
  have hp : (xs.filter r).filter p = xs.filter p := by
    rw [List.filter_filter]
    refine List.filter_congr fun x hx => ?_
    have := h x hx
    grind
  have hq : (xs.filter r).filter (fun x => !p x) = xs.filter q := by
    rw [List.filter_filter]
    refine List.filter_congr fun x hx => ?_
    have := h x hx
    grind
  have hperm := List.filter_append_perm p (xs.filter r)
  rwa [hp, hq] at hperm

/-- How the lists fit together that the five operators show for one value of a column. -/
structure OperatorsPartition (s : MemoryStore e) (request : PageRequest) (name raw : String)
    (c : Column) (v : Value) : Prop where
  /-- No list is refused. -/
  answered : ∀ op, ∃ total, (Service.serve (.list [⟨name, op, raw⟩] request) s).1 =
    .ok ⟨s.listed request name raw op, total⟩
  /-- Every row holds a value in the column, which can be compared with the filter's. -/
  comparable : ∀ r ∈ s.table.rows, ∃ held o, r.valueOf? c.name = some held ∧
    held.kind = c.kind ∧ held.compare? v = some o
  /-- Every row is in exactly one of the lists of the rows below, at and above the value. -/
  unique : ∀ r ∈ s.table.rows, ∃! op, op ∈ [.lessThan, .equal, .greaterThan] ∧
    r ∈ s.listed request name raw op
  /-- No row is in two of them, -/
  disjoint : [Operator.lessThan, .equal, .greaterThan].Pairwise fun op op' =>
    List.Disjoint (s.listed request name raw op) (s.listed request name raw op')
  /-- and together they have every row once. -/
  perm : (s.listed request name raw .lessThan ++ s.listed request name raw .equal ++
    s.listed request name raw .greaterThan).Perm s.table.rows
  /-- The other two operators join the rows at the value to those below it -/
  atMost : (s.listed request name raw .lessThan ++ s.listed request name raw .equal).Perm
    (s.listed request name raw .lessThanOrEqual)
  /-- or above it. -/
  atLeast : (s.listed request name raw .greaterThan ++ s.listed request name raw .equal).Perm
    (s.listed request name raw .greaterThanOrEqual)
  /-- The rows below a value are below every greater value. -/
  grows : ∀ raw' w, Value.read? c.kind raw' = some w → v.compare? w = some .lt →
    s.listed request name raw .lessThan ⊆ s.listed request name raw' .lessThan

section Lists

variable {s : MemoryStore e}

/-- A row is in the lists of those operators that its order to the value passes. -/
theorem exists_mem_listed_iff (hc : e.resolve? name = some c)
    (hv : Value.read? c.kind raw = some v) (hall : request.ShowsAll s) {r : Row e}
    (hr : r ∈ s.table.rows) :
    ∃ o, ∀ op : Operator, r ∈ s.listed request name raw op ↔ op.accepts o := by
  obtain ⟨held, o, -, -, -, haccepts⟩ :=
    r.exists_order (Entity.mem_fields_of_resolve? hc) (Value.kind_of_read? hv)
  refine ⟨o, fun op => ?_⟩
  rw [MemoryStore.listed_eq_filter hc hv hall, List.mem_filter, haccepts, and_iff_right hr]

theorem mem_rows_of_mem_listed (hc : e.resolve? name = some c)
    (hv : Value.read? c.kind raw = some v) (hall : request.ShowsAll s) {r : Row e} {op : Operator}
    (hr : r ∈ s.listed request name raw op) : r ∈ s.table.rows := by
  rw [MemoryStore.listed_eq_filter hc hv hall] at hr
  exact (List.mem_filter.mp hr).1

/-- Two operators that exclude each other share out the list of the operator that joins them. -/
theorem perm_listed_append (hc : e.resolve? name = some c) (hv : Value.read? c.kind raw = some v)
    (hall : request.ShowsAll s) {op op' joined : Operator}
    (h : ∀ o, (joined.accepts o ↔ op.accepts o ∨ op'.accepts o) ∧
      ¬ (op.accepts o ∧ op'.accepts o)) :
    (s.listed request name raw op ++ s.listed request name raw op').Perm
      (s.listed request name raw joined) := by
  rw [MemoryStore.listed_eq_filter hc hv hall, MemoryStore.listed_eq_filter hc hv hall,
    MemoryStore.listed_eq_filter hc hv hall]
  refine perm_filter_append fun r _ => ?_
  obtain ⟨held, o, -, -, -, haccepts⟩ :=
    r.exists_order (Entity.mem_fields_of_resolve? hc) (Value.kind_of_read? hv)
  rw [haccepts, haccepts, haccepts]
  exact h o

/-- What is not above a value and what is above it are all rows. -/
theorem perm_listed_rows (hc : e.resolve? name = some c) (hv : Value.read? c.kind raw = some v)
    (hall : request.ShowsAll s) :
    (s.listed request name raw .lessThanOrEqual ++ s.listed request name raw .greaterThan).Perm
      s.table.rows := by
  have habove : (fun r : Row e => TypedFilter.accepts ⟨c.name, .greaterThan, v⟩ r) =
      fun r => !TypedFilter.accepts ⟨c.name, .lessThanOrEqual, v⟩ r := by
    funext r
    obtain ⟨held, o, -, -, -, haccepts⟩ :=
      r.exists_order (Entity.mem_fields_of_resolve? hc) (Value.kind_of_read? hv)
    rw [haccepts, haccepts]
    cases o <;> rfl
  rw [MemoryStore.listed_eq_filter hc hv hall, MemoryStore.listed_eq_filter hc hv hall, habove]
  exact List.filter_append_perm _ _

theorem disjoint_listed (hc : e.resolve? name = some c) (hv : Value.read? c.kind raw = some v)
    (hall : request.ShowsAll s) {op op' : Operator}
    (hop : op ∈ [Operator.lessThan, .equal, .greaterThan])
    (hop' : op' ∈ [Operator.lessThan, .equal, .greaterThan]) (hne : op ≠ op') :
    List.Disjoint (s.listed request name raw op) (s.listed request name raw op') := by
  intro r hr hr'
  obtain ⟨o, ho⟩ := exists_mem_listed_iff hc hv hall (mem_rows_of_mem_listed hc hv hall hr)
  have heq := (Operator.accepts_iff_of_mem hop o).mp ((ho op).mp hr)
  have heq' := (Operator.accepts_iff_of_mem hop' o).mp ((ho op').mp hr')
  exact hne (heq.trans heq'.symm)

/-- What is below a value is below every value that comes after it. -/
theorem listed_lessThan_subset (hc : e.resolve? name = some c)
    (hv : Value.read? c.kind raw = some v) (hall : request.ShowsAll s) {raw' : String} {w : Value}
    (hw : Value.read? c.kind raw' = some w) (hvw : v.compare? w = some .lt) :
    s.listed request name raw .lessThan ⊆ s.listed request name raw' .lessThan := by
  intro r hr
  have hfield := Entity.mem_fields_of_resolve? hc
  rw [MemoryStore.listed_eq_filter hc hv hall] at hr
  obtain ⟨hrow, hbelow⟩ := List.mem_filter.mp hr
  obtain ⟨held, o, hheld, -, ho, haccepts⟩ := r.exists_order hfield (Value.kind_of_read? hv)
  obtain ⟨held', o', hheld', -, ho', haccepts'⟩ := r.exists_order hfield (Value.kind_of_read? hw)
  obtain rfl : held = held' := Option.some.inj (hheld.symm.trans hheld')
  -- The row's value comes before the first one, so it comes before the second one as well.
  rw [haccepts, Operator.accepts, beq_iff_eq] at hbelow
  have hlt := Value.compare?_trans (ho.trans (congrArg some hbelow)) hvw
  rw [MemoryStore.listed_eq_filter hc hw hall]
  refine List.mem_filter.mpr ⟨hrow, ?_⟩
  rw [haccepts', Option.some.inj (ho'.symm.trans hlt)]
  rfl

end Lists

/-- The lists of the five operators fit together for every text that names a value, in every column
that a filter may name. -/
theorem operators_partition_rows (s : MemoryStore e) (hc : e.resolve? name = some c)
    (hv : Value.read? c.kind raw = some v) (hall : request.ShowsAll s) :
    OperatorsPartition s request name raw c v where
  answered op := by
    refine ⟨(MemoryStore.selectPage s.table [⟨c.name, op, v⟩] request).total, ?_⟩
    rw [MemoryStore.listed, s.serve_predicate hc hv]
  comparable r _ := by
    obtain ⟨held, o, hheld, hkind, ho, -⟩ :=
      r.exists_order (Entity.mem_fields_of_resolve? hc) (Value.kind_of_read? hv)
    exact ⟨held, o, hheld, hkind, ho⟩
  unique r hr := by
    obtain ⟨o, ho⟩ := exists_mem_listed_iff hc hv hall hr
    have hop : Operator.ofOrdering o ∈ [Operator.lessThan, .equal, .greaterThan] := by
      cases o <;> decide
    refine ⟨_, ⟨hop, (ho _).mpr ((Operator.accepts_iff_of_mem hop o).mpr rfl)⟩, ?_⟩
    rintro op ⟨hmem, hlisted⟩
    exact (Operator.accepts_iff_of_mem hmem o).mp ((ho op).mp hlisted)
  disjoint := by
    have hdistinct : [Operator.lessThan, .equal, .greaterThan].Nodup := by decide
    exact hdistinct.imp_of_mem fun hop hop' hne => disjoint_listed hc hv hall hop hop' hne
  perm := by
    have hbelow : (s.listed request name raw .lessThan ++ s.listed request name raw .equal).Perm
        (s.listed request name raw .lessThanOrEqual) :=
      perm_listed_append hc hv hall fun o => by cases o <;> decide
    exact (hbelow.append_right _).trans (perm_listed_rows hc hv hall)
  atMost := perm_listed_append hc hv hall fun o => by cases o <;> decide
  atLeast := perm_listed_append hc hv hall fun o => by cases o <;> decide
  grows _ _ hw hvw := listed_lessThan_subset hc hv hall hw hvw

theorem groupHallStore_operators_partition :
    Catalog.groupHall.resolve? "group_id" = some ⟨"group_id", .integer⟩ ∧
      Value.read? .integer " 7 " = some (.integer 7) ∧
      PageRequest.ShowsAll ⟨1, 0xFFFFFFFFFFFFFFFF⟩ groupHallStore ∧
      OperatorsPartition groupHallStore ⟨1, 0xFFFFFFFFFFFFFFFF⟩ "group_id" " 7 "
        ⟨"group_id", .integer⟩ (.integer 7) :=
  have hall : PageRequest.ShowsAll _ groupHallStore := PageRequest.showsAll_of_length_lt (by decide)
  ⟨rfl, by decide, hall, operators_partition_rows groupHallStore rfl (by decide) hall⟩

end ExchangeCatalog
