import ExchangeCatalog.Time.Instant
import Mathlib.Data.Int.Order.Basic
import Mathlib.Tactic.Linarith

/-!
# Instants as counts of microseconds

The database keeps an instant as a count of microseconds. An instant with a finer fraction loses it
there, and a leap second runs into the second after it; every other instant is read back as it was,
and such instants are ordered as their counts.

## Main definitions

* `Instant.IsPrecise` — a count of microseconds says all about an instant
* `Instant.seconds`, `Instant.IsBefore` — the order of time, by seconds and then by fractions

## Main results

* `Instant.ofMicros?_micros` — a precise instant is read back from its count
* `Instant.ofMicros?_eq_some_iff` — and only precise instants are read from counts
* `Instant.compare_eq_lt_iff`, `Instant.compare_eq_eq_iff` — instants are compared in this order
* `Instant.compare_micros` — the order of precise instants is the order of their counts
-/

namespace ExchangeCatalog.Instant

variable {s t : Instant}

instance : Std.TransCmp compare :=
  inferInstanceAs (Std.TransCmp (compareLex (compareOn day)
    (compareLex (compareOn second) (compareOn nano))))

/-- An instant with whole microseconds that lies outside leap seconds. -/
def IsPrecise (t : Instant) : Prop := t.nano < 1000000000 ∧ t.nano % 1000 = 0

instance (t : Instant) : Decidable t.IsPrecise := by unfold IsPrecise; infer_instance

theorem IsPrecise.micros_eq (h : t.IsPrecise) :
    t.micros = (t.day * 86400 + t.second) * 1000000 + (t.nano / 1000 : Nat) := by
  obtain ⟨-, hnano⟩ := h
  have hnanos : t.nanosSinceEpoch =
      1000 * ((t.day * 86400 + t.second) * 1000000 + (t.nano / 1000 : Nat)) := by
    rw [nanosSinceEpoch]
    omega
  rw [micros, hnanos, Int.mul_tdiv_cancel_left _ (by decide)]

/-- A precise instant is read back from its count of microseconds. -/
theorem ofMicros?_micros (h : t.IsPrecise) : ofMicros? t.micros = some t := by
  obtain ⟨hlt, hnano⟩ := h
  have hsecond := t.second_lt
  have hcount := IsPrecise.micros_eq ⟨hlt, hnano⟩
  have hseconds : t.micros / 1000000 = t.day * 86400 + t.second := by omega
  have hday : (t.day * 86400 + t.second) / 86400 = t.day := by omega
  have hclock : ((t.day * 86400 + t.second) % 86400).toNat = t.second := by omega
  have hfraction : (t.micros % 1000000).toNat * 1000 = t.nano := by omega
  rw [ofMicros?, hseconds, hday, hclock, hfraction, ofParts?,
    dif_pos ⟨t.firstDay_le, t.day_le, t.second_lt, t.nano_lt, t.leap_at_end⟩]

/-- A count of microseconds is read as the precise instant that it counts. -/
theorem ofMicros?_eq_some_iff {n : Int} : ofMicros? n = some t ↔ t.IsPrecise ∧ t.micros = n := by
  constructor
  · intro h
    rw [ofMicros?, ofParts?] at h
    obtain ⟨_, ht⟩ := Option.dite_none_right_eq_some.mp h
    obtain rfl := Option.some.inj ht
    have hprecise : (n % 1000000).toNat * 1000 < 1000000000 ∧
        (n % 1000000).toNat * 1000 % 1000 = 0 := by omega
    refine ⟨hprecise, (IsPrecise.micros_eq ?_).trans ?_⟩
    · exact hprecise
    · dsimp only
      omega
  · rintro ⟨hprecise, rfl⟩
    exact ofMicros?_micros hprecise

/-- Two numbers in mixed notation are compared by their leading parts first. -/
theorem compare_mul_add {k : Nat} (x y : Int) {m n : Nat} (hm : m < k) (hn : n < k) :
    Ord.compare (x * k + m) (y * k + n) = (Ord.compare x y).then (Ord.compare m n) := by
  rcases Int.lt_trichotomy x y with hlt | rfl | hgt
  · have hless : x * k + m < y * k + n := by nlinarith
    rw [compare_lt_iff_lt.mpr hlt, compare_lt_iff_lt.mpr hless]
    rfl
  · rw [compare_eq_iff_eq.mpr (rfl : x = x)]
    rcases Nat.lt_trichotomy m n with hlt | rfl | hgt
    · rw [compare_lt_iff_lt.mpr hlt, compare_lt_iff_lt.mpr (by omega)]
      rfl
    · rw [compare_eq_iff_eq.mpr rfl, compare_eq_iff_eq.mpr rfl]
      rfl
    · rw [compare_gt_iff_gt.mpr hgt, compare_gt_iff_gt.mpr (by omega)]
      rfl
  · have hgreater : y * k + n < x * k + m := by nlinarith
    rw [compare_gt_iff_gt.mpr hgt, compare_gt_iff_gt.mpr hgreater]
    rfl

/-! ### The order of time -/

/-- Seconds from 2000-01-01, a leap second not counted. -/
def seconds (t : Instant) : Int := t.day * 86400 + t.second

/-- An instant is before another one if its second is, or in the same second if its fraction is. -/
def IsBefore (s t : Instant) : Prop :=
  s.seconds < t.seconds ∨ s.seconds = t.seconds ∧ s.nano < t.nano

/-- Instants are ordered by their seconds, then by their fractions. -/
theorem compare_eq_then (s t : Instant) :
    s.compare t = (Ord.compare s.seconds t.seconds).then (Ord.compare s.nano t.nano) := by
  rw [compare, ← Ordering.then_assoc, ← compare_mul_add s.day t.day s.second_lt t.second_lt]
  rfl

theorem compare_eq_lt_iff : s.compare t = .lt ↔ s.IsBefore t := by
  rw [compare_eq_then, Ordering.then_eq_lt, compare_lt_iff_lt, compare_eq_iff_eq, compare_lt_iff_lt,
    IsBefore]

theorem compare_eq_gt_iff : s.compare t = .gt ↔ t.IsBefore s := by
  rw [Std.OrientedCmp.gt_iff_lt, compare_eq_lt_iff]

/-- Neither of two instants is before the other only if they are the same. -/
theorem compare_eq_eq_iff : s.compare t = .eq ↔ s = t := by
  rw [compare_eq_then, Ordering.then_eq_eq, compare_eq_iff_eq, compare_eq_iff_eq]
  constructor
  · rintro ⟨hseconds, hnano⟩
    have hs := s.second_lt
    have ht := t.second_lt
    rw [seconds, seconds] at hseconds
    have hday : s.day = t.day := by omega
    have hsecond : s.second = t.second := by omega
    cases s
    cases t
    simp_all
  · rintro rfl
    exact ⟨rfl, rfl⟩

/-- Outside leap seconds this is the order of the counts of nanoseconds. -/
theorem isBefore_iff_nanosSinceEpoch_lt (hs : s.nano < 1000000000) (ht : t.nano < 1000000000) :
    s.IsBefore t ↔ s.nanosSinceEpoch < t.nanosSinceEpoch := by
  rw [IsBefore, nanosSinceEpoch, nanosSinceEpoch, seconds, seconds]
  omega

/-- The order of precise instants is the order of their counts of microseconds. -/
theorem compare_micros (hs : s.IsPrecise) (ht : t.IsPrecise) :
    Ord.compare s.micros t.micros = s.compare t := by
  have hnanos : Ord.compare s.nano t.nano = Ord.compare (s.nano / 1000) (t.nano / 1000) := by
    obtain ⟨-, hs⟩ := hs
    obtain ⟨-, ht⟩ := ht
    rcases Nat.lt_trichotomy s.nano t.nano with hlt | heq | hgt
    · rw [compare_lt_iff_lt.mpr hlt, compare_lt_iff_lt.mpr (by omega)]
    · rw [heq, compare_eq_iff_eq.mpr rfl, compare_eq_iff_eq.mpr rfl]
    · rw [compare_gt_iff_gt.mpr hgt, compare_gt_iff_gt.mpr (by omega)]
  have hsnano := hs.1
  have htnano := ht.1
  rw [hs.micros_eq, ht.micros_eq, compare_eq_then, hnanos]
  exact compare_mul_add (k := 1000000) _ _ (by omega) (by omega)

end ExchangeCatalog.Instant
