import ExchangeCatalog.Proofs.Sql.Row

/-!
# Leap seconds in the database

In memory a leap second belongs to the second before it: all of it comes before the next second. The
database has no leap seconds, and counts one as the second that follows, so that its later parts are
counted past the earlier parts of that second. These are the only instants that memory and database
do not order alike; a fraction below a microsecond is lost in the database, which may make two
instants equal but never turns them around.

## Main definitions

* `Instant.countedFraction` — the part of a count of microseconds that a fraction makes
* `Instant.RunsPast` — an instant inside a leap second that is counted past one of the next second

## Main results

* `Instant.micros_eq`, `Instant.micros_eq_of_leap` — the count of an instant in parts
* `Instant.micros_le_iff` — counts are ordered like their instants unless one runs past the other
* `bounds_kept_iff` — so are rows and the bounds that a filter sets
-/

namespace ExchangeCatalog

namespace Instant

variable {s t : Instant}

/-- The microseconds that are counted for a fraction of a second: what is below a microsecond is cut
off toward the beginning of the count, so it is rounded up before it. -/
def countedFraction (second : Int) (nano : Nat) : Nat :=
  if 0 ≤ second then nano / 1000 else (nano + 999) / 1000

/-- An instant does not come after another if its second is earlier, or the same with a fraction
that is no greater. -/
theorem compare_ne_gt_iff :
    s.compare t ≠ .gt ↔ s.seconds < t.seconds ∨ s.seconds = t.seconds ∧ s.nano ≤ t.nano := by
  rw [compare_eq_then]
  rcases Int.lt_trichotomy s.seconds t.seconds with hlt | heq | hgt
  · rw [compare_lt_iff_lt.mpr hlt]
    exact iff_of_true nofun (Or.inl hlt)
  · rw [compare_eq_iff_eq.mpr heq, Ordering.then, ne_eq, compare_gt_iff_gt]
    omega
  · rw [compare_gt_iff_gt.mpr hgt]
    exact iff_of_false (fun h => h rfl) (by omega)

private theorem tdiv_eq_add_countedFraction {second : Int} {nano : Nat}
    (h : nano < 1000000000) :
    (second * 1000000000 + nano).tdiv 1000 = second * 1000000 + countedFraction second nano := by
  rw [countedFraction]
  split_ifs with hsecond
  · rw [Int.tdiv_eq_ediv_of_nonneg (by omega)]
    omega
  · -- Before the beginning of the count a division rounds up.
    have hneg : second * 1000000000 + nano = -(-(second * 1000000000 + nano)) := by omega
    rw [hneg, Int.neg_tdiv, Int.tdiv_eq_ediv_of_nonneg (by omega)]
    omega

/-- The count of an instant outside leap seconds. -/
theorem micros_eq (h : t.nano < 1000000000) :
    t.micros = t.seconds * 1000000 + countedFraction t.seconds t.nano :=
  tdiv_eq_add_countedFraction h

/-- The count of an instant inside a leap second is that of an instant of the next second. -/
theorem micros_eq_of_leap (h : 1000000000 ≤ t.nano) :
    t.micros = (t.seconds + 1) * 1000000 +
      countedFraction (t.seconds + 1) (t.nano - 1000000000) := by
  have hnano := t.nano_lt
  have hnanos : t.nanosSinceEpoch =
      (t.seconds + 1) * 1000000000 + (t.nano - 1000000000 : Nat) := by
    rw [nanosSinceEpoch, seconds]
    omega
  rw [micros, hnanos, tdiv_eq_add_countedFraction (by omega)]

/-- An instant that comes before another is counted past it: it lies inside a leap second, the other
one in the second after it, and of these two fractions more microseconds are counted for the first
one. -/
structure RunsPast (s t : Instant) : Prop where
  leap : 1000000000 ≤ s.nano
  next : t.seconds = s.seconds + 1
  fraction_lt : countedFraction t.seconds t.nano <
    countedFraction t.seconds (s.nano - 1000000000)

theorem runsPast_iff : s.RunsPast t ↔ 1000000000 ≤ s.nano ∧ t.seconds = s.seconds + 1 ∧
    countedFraction t.seconds t.nano < countedFraction t.seconds (s.nano - 1000000000) :=
  ⟨fun h => ⟨h.leap, h.next, h.fraction_lt⟩, fun ⟨hleap, hnext, hlt⟩ => ⟨hleap, hnext, hlt⟩⟩

instance (s t : Instant) : Decidable (s.RunsPast t) := decidable_of_iff _ runsPast_iff.symm

/-- The second after a leap second is the first of a minute, so it is none itself. -/
theorem nano_lt_of_next (hleap : 1000000000 ≤ s.nano) (hnext : t.seconds = s.seconds + 1) :
    t.nano < 1000000000 := by
  have hs := s.leap_at_end hleap
  have ht := t.leap_at_end
  rw [seconds, seconds] at hnext
  omega

/-- Counts are ordered like their instants, unless the earlier one runs past the other. -/
theorem micros_le_iff (h : s.compare t ≠ .gt) : s.micros ≤ t.micros ↔ ¬ s.RunsPast t := by
  by_cases hnext : 1000000000 ≤ s.nano ∧ t.seconds = s.seconds + 1
  · -- Both are counted for one second, so their fractions decide.
    obtain ⟨hleap, hnext⟩ := hnext
    rw [micros_eq_of_leap hleap, micros_eq (nano_lt_of_next hleap hnext), runsPast_iff, ← hnext]
    omega
  · have hnano := s.nano_lt
    have hcount : s.nanosSinceEpoch ≤ t.nanosSinceEpoch := by
      change s.seconds * 1000000000 + s.nano ≤ t.seconds * 1000000000 + t.nano
      have horder := compare_ne_gt_iff.mp h
      omega
    refine iff_of_true (Int.tdiv_le_tdiv (by decide) hcount) fun hpast => ?_
    exact hnext ⟨hpast.leap, hpast.next⟩

end Instant

/-! ### Bounds on a column -/

variable {e : Entity} {s t : Instant} {column : String}

/-- What a bound on a column of instants asks of a row and of what is stored of it. -/
theorem accepts_timestamp {r : Row e} (hr : r.valueOf? column = some (.timestamp s))
    (op : Operator) (t : Instant) :
    (⟨column, op, .timestamp t⟩ : TypedFilter).accepts r = op.accepts (s.compare t) ∧
      (⟨column, op, .timestamp t⟩ : TypedFilter).test r.stored =
        op.accepts (Ord.compare s.micros t.micros) := by
  refine ⟨?_, ?_⟩
  · rw [TypedFilter.accepts, hr]
    rfl
  · rw [TypedFilter.test, Row.stored, hr, ← Sql.holds_comparison]
    rfl

/-- What the order of two instants comes to in the database. -/
structure BoundsKept (s t : Instant) : Prop where
  /-- Their counts are ordered like them unless the earlier one runs past the other. -/
  micros_le_iff : s.micros ≤ t.micros ↔ ¬ s.RunsPast t
  /-- A row with the earlier one is kept in memory when the other is the greatest that is asked for,
  and in the database if it does not run past it. -/
  atMost : ∀ {e : Entity} (r : Row e) column, r.valueOf? column = some (.timestamp s) →
    (⟨column, .lessThanOrEqual, .timestamp t⟩ : TypedFilter).accepts r ∧
      ((⟨column, .lessThanOrEqual, .timestamp t⟩ : TypedFilter).test r.stored ↔ ¬ s.RunsPast t)
  /-- So is a row with the later one when the other is the least that is asked for. -/
  atLeast : ∀ {e : Entity} (r : Row e) column, r.valueOf? column = some (.timestamp t) →
    (⟨column, .greaterThanOrEqual, .timestamp s⟩ : TypedFilter).accepts r ∧
      ((⟨column, .greaterThanOrEqual, .timestamp s⟩ : TypedFilter).test r.stored ↔ ¬ s.RunsPast t)

/-- Memory and database order two instants alike, and keep the same rows for a bound, unless the
earlier one lies inside a leap second and runs past the other. -/
theorem bounds_kept_iff (h : s.compare t ≠ .gt) : BoundsKept s t where
  micros_le_iff := Instant.micros_le_iff h
  atMost r column hr := by
    obtain ⟨haccepts, htest⟩ := accepts_timestamp hr .lessThanOrEqual t
    rw [haccepts, htest, ← Instant.micros_le_iff h]
    refine ⟨bne_iff_ne.mpr h, ?_⟩
    rw [Operator.accepts, bne_iff_ne, ne_eq, compare_gt_iff_gt]
    exact Int.not_lt
  atLeast r column hr := by
    obtain ⟨haccepts, htest⟩ := accepts_timestamp hr .greaterThanOrEqual s
    have hnot : t.compare s ≠ .lt := fun hlt => h (Std.OrientedCmp.gt_of_lt hlt)
    rw [haccepts, htest, ← Instant.micros_le_iff h]
    refine ⟨bne_iff_ne.mpr hnot, ?_⟩
    rw [Operator.accepts, bne_iff_ne, ne_eq, compare_lt_iff_lt]
    exact Int.not_lt

/-- The middle of the leap second that ends the year 2016 comes before the middle of the first
second of 2017, and both are counted alike, so that they are no harm to each other. -/
theorem leapInstant_bounds_kept : ∃ s t,
    Value.read? .timestamp "2016-12-31T23:59:60.5Z" = some (.timestamp s) ∧
      Value.read? .timestamp "2017-01-01T00:00:00.5Z" = some (.timestamp t) ∧
      s.compare t ≠ .gt ∧ ¬ s.RunsPast t ∧ BoundsKept s t :=
  ⟨⟨6209, 86399, 1500000000, by decide, by decide, by decide, by decide, by decide⟩,
    ⟨6210, 0, 500000000, by decide, by decide, by decide, by decide, by decide⟩,
    by decide +kernel, by decide +kernel, by decide, by decide, bounds_kept_iff (by decide)⟩

/-- A filter can name an instant inside a leap second and one in the second after it. The first one
comes before the other, and is counted past it. -/
theorem leapInstant_runs_past : ∃ s t,
    Value.read? .timestamp "2016-12-31T23:59:60.5Z" = some (.timestamp s) ∧
      Value.read? .timestamp "2017-01-01T00:00:00.2Z" = some (.timestamp t) ∧
      s.compare t = .lt ∧ t.micros < s.micros :=
  ⟨⟨6209, 86399, 1500000000, by decide, by decide, by decide, by decide, by decide⟩,
    ⟨6210, 0, 200000000, by decide, by decide, by decide, by decide, by decide⟩,
    by decide +kernel, by decide +kernel, by decide, by decide⟩

end ExchangeCatalog
