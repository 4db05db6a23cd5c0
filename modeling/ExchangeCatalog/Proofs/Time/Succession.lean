import ExchangeCatalog.Proofs.Time.Calendar
import Mathlib.Tactic.IntervalCases

/-!
# One date after another

Day numbers count the dates of the calendar: the date of a day number is followed by the date of the
next, the day after the last of a month being the first of the next month. Counted from March, a
year begins on the day after all the days of the years before it, and a month on the day after all
the days of the months before it, so no two dates share a day number.

## Main definitions

* `Date.next` — the date that follows a date in the calendar
* `Date.yearStart`, `Date.monthStart` — the days before a year, and before a month of a year

## Main results

* `Date.toDay_next` — the date that follows has the next day number
* `Date.ofDay_toDay` — a date that exists is the date of its day number
* `Date.ofDay_add_one` — the date of the next day number follows
-/

namespace ExchangeCatalog.Date

variable {d d' : Date}

/-- The date that follows in the calendar. -/
def next (d : Date) : Date :=
  if d.day < daysInMonth d.year d.month then ⟨d.year, d.month, d.day + 1⟩
  else if d.month < 12 then ⟨d.year, d.month + 1, 1⟩
  else ⟨d.year + 1, 1, 1⟩

/-! ### Years and months from March -/

/-- The year that began in the last March. -/
def yearFromMarch (d : Date) : Int := if d.month ≤ 2 then d.year - 1 else d.year

/-- The months since the last March. -/
def monthFromMarch (d : Date) : Int := (d.month + 9) % 12

/-- The days from 0000-03-01 to the beginning of a year in March. -/
def yearStart (year : Int) : Int := 365 * year + year / 4 - year / 100 + year / 400

/-- The days from the beginning of a year in March to a month of it. -/
def monthStart (fromMarch : Int) : Int := (153 * fromMarch + 2) / 5

theorem toDay_eq (d : Date) :
    d.toDay =
      yearStart d.yearFromMarch + monthStart d.monthFromMarch + d.day - 1 - dayZeroOffset := by
  simp only [toDay, yearStart, monthStart, monthFromMarch, yearFromMarch]
  omega

theorem yearStart_le {y y' : Int} (h : y ≤ y') : yearStart y ≤ yearStart y' := by
  rw [yearStart, yearStart]
  omega

theorem monthStart_le {m m' : Int} (h : m ≤ m') : monthStart m ≤ monthStart m' := by
  rw [monthStart, monthStart]
  omega

theorem monthFromMarch_bounds (d : Date) : 0 ≤ d.monthFromMarch ∧ d.monthFromMarch ≤ 11 := by
  rw [monthFromMarch]
  omega

theorem IsValid.monthOf_monthFromMarch (h : d.IsValid) : monthOf d.monthFromMarch = d.month := by
  have hmonth := h.month_bounds
  rw [monthOf, monthFromMarch]
  omega

/-- A month ends before the next one begins. -/
theorem IsValid.monthStart_add_day_le (h : d.IsValid) (hearly : d.monthFromMarch ≤ 10) :
    monthStart d.monthFromMarch + d.day ≤ monthStart (d.monthFromMarch + 1) := by
  have hlength := daysInMonth_monthOf d.year d.monthFromMarch_bounds.1 hearly
  rw [h.monthOf_monthFromMarch] at hlength
  have hday := h.2
  rw [monthStart, monthStart]
  omega

/-- The leap day makes a year from March longer, if it is in the February that ends it. -/
theorem yearStart_add_one (year : Int) :
    yearStart (year + 1) = yearStart year + (if isLeapYear (year + 1) then 366 else 365) := by
  have hleap : isLeapYear (year + 1) = true ↔
      (year + 1) % 4 = 0 ∧ ((year + 1) % 100 ≠ 0 ∨ (year + 1) % 400 = 0) := by
    rw [isLeapYear, Bool.and_eq_true, Bool.or_eq_true, beq_iff_eq, bne_iff_ne, beq_iff_eq]
  rw [yearStart, yearStart]
  split_ifs with h
  · rw [hleap] at h
    omega
  · rw [hleap] at h
    omega

/-- A year ends before the next one begins. -/
theorem IsValid.yearStart_add_day_le (h : d.IsValid) :
    yearStart d.yearFromMarch + monthStart d.monthFromMarch + d.day ≤
      yearStart (d.yearFromMarch + 1) := by
  rw [yearStart_add_one]
  rcases Int.lt_or_eq_of_le d.monthFromMarch_bounds.2 with hearly | hlast
  · have hday := h.monthStart_add_day_le (Int.le_of_lt_add_one hearly)
    have hmonth := monthStart_le (Int.add_one_le_iff.mpr hearly)
    have hfebruary : monthStart 11 = 337 := rfl
    split_ifs
    all_goals omega
  · have hmonth : d.month = 2 := by rw [← h.monthOf_monthFromMarch, hlast]; rfl
    have hfebruary : monthStart d.monthFromMarch = 337 := by rw [hlast]; rfl
    have hyear : d.yearFromMarch + 1 = d.year := by
      rw [yearFromMarch, if_pos (by omega)]
      omega
    have hday : d.day ≤ if isLeapYear d.year then 29 else 28 := by
      have hlast := h.2
      rwa [hmonth] at hlast
    rw [hyear, hfebruary]
    split_ifs at hday ⊢
    all_goals omega

/-! ### Dates and day numbers -/

/-- No two dates share a day number. -/
theorem eq_of_toDay_eq (h : d.IsValid) (h' : d'.IsValid) (heq : d.toDay = d'.toDay) : d = d' := by
  -- A date of an earlier year, and then of an earlier month, would lie before the other begins.
  have hyear : ∀ {d d' : Date}, d.IsValid → d'.IsValid → d.toDay = d'.toDay →
      ¬d.yearFromMarch < d'.yearFromMarch := by
    intro d d' h h' heq hlt
    have hend := h.yearStart_add_day_le
    have hbegin := yearStart_le (Int.add_one_le_iff.mpr hlt)
    have hstart := monthStart_le d'.monthFromMarch_bounds.1
    have hzero : monthStart 0 = 0 := rfl
    have hday := h'.1
    rw [toDay_eq, toDay_eq] at heq
    omega
  have hyears : d.yearFromMarch = d'.yearFromMarch := by
    have hle := hyear h h' heq
    have hge := hyear h' h heq.symm
    omega
  have hmonth : ∀ {d d' : Date}, d.IsValid → d'.IsValid → d.toDay = d'.toDay →
      d.yearFromMarch = d'.yearFromMarch → ¬d.monthFromMarch < d'.monthFromMarch := by
    intro d d' h h' heq hyears hlt
    have hend := h.monthStart_add_day_le (by have := d'.monthFromMarch_bounds; omega)
    have hbegin := monthStart_le (Int.add_one_le_iff.mpr hlt)
    have hday := h'.1
    rw [toDay_eq, toDay_eq, hyears] at heq
    omega
  have hmonths : d.monthFromMarch = d'.monthFromMarch := by
    have hle := hmonth h h' heq hyears
    have hge := hmonth h' h heq.symm hyears.symm
    omega
  have hdays : d.day = d'.day := by
    rw [toDay_eq, toDay_eq, hyears, hmonths] at heq
    omega
  have hmonths' : d.month = d'.month := by
    rw [← h.monthOf_monthFromMarch, ← h'.monthOf_monthFromMarch, hmonths]
  have hyears' : d.year = d'.year := by
    rw [yearFromMarch, yearFromMarch, hmonths'] at hyears
    split_ifs at hyears
    · omega
    · exact hyears
  obtain ⟨year, month, day⟩ := d
  obtain ⟨year', month', day'⟩ := d'
  simp_all

/-- A date that exists is the date of its day number. -/
theorem ofDay_toDay (h : d.IsValid) : ofDay d.toDay = d :=
  eq_of_toDay_eq (isValid_ofDay _) h (toDay_ofDay _)

/-! ### The next date -/

theorem daysInMonth_pos {month : Nat} (year : Int) (hlow : 1 ≤ month) (hhigh : month ≤ 12) :
    1 ≤ daysInMonth year month := by
  interval_cases month
  case «2» =>
    rw [daysInMonth]
    split_ifs
    all_goals decide
  all_goals exact Nat.le_add_left 1 _

theorem IsValid.next (h : d.IsValid) : d.next.IsValid := by
  obtain ⟨hmonth, hmonth'⟩ := h.month_bounds
  rw [Date.next]
  split_ifs with hday hyear
  · exact ⟨Nat.le_add_left 1 _, hday⟩
  · exact ⟨Nat.le_refl 1, daysInMonth_pos _ (Nat.le_add_left 1 _) hyear⟩
  · exact ⟨Nat.le_refl 1, daysInMonth_pos _ (Nat.le_refl 1) (Nat.le_add_left 1 11)⟩

/-- The first of the next month in a year from March. -/
theorem toDay_first_of_next (h : d.IsValid) (hlast : d.day = daysInMonth d.year d.month)
    (hearly : d.monthFromMarch ≤ 10) (hday : d'.day = 1)
    (hyear : d'.yearFromMarch = d.yearFromMarch)
    (hmonth : d'.monthFromMarch = d.monthFromMarch + 1) : d'.toDay = d.toDay + 1 := by
  have hlength := daysInMonth_monthOf d.year d.monthFromMarch_bounds.1 hearly
  rw [h.monthOf_monthFromMarch, ← hlast] at hlength
  rw [toDay_eq, toDay_eq, hyear, hmonth, hday, monthStart, monthStart]
  omega

/-- The first of March, which begins the next year from March. -/
theorem toDay_first_of_march (year : Int) :
    toDay ⟨year, 3, 1⟩ = toDay ⟨year, 2, daysInMonth year 2⟩ + 1 := by
  have hstart := yearStart_add_one (year - 1)
  rw [Int.sub_add_cancel] at hstart
  have hfebruary : monthStart (monthFromMarch ⟨year, 2, daysInMonth year 2⟩) = 337 := by
    simp [monthFromMarch, monthStart]
  have hmarch : monthStart (monthFromMarch ⟨year, 3, 1⟩) = 0 := by
    simp [monthFromMarch, monthStart]
  have hyear : yearFromMarch ⟨year, 2, daysInMonth year 2⟩ = year - 1 := rfl
  have hyear' : yearFromMarch ⟨year, 3, 1⟩ = year := rfl
  rw [toDay_eq, toDay_eq, hfebruary, hmarch, hyear, hyear', hstart]
  simp only [daysInMonth]
  split_ifs
  all_goals omega

/-- The date that follows has the next day number. -/
theorem toDay_next (h : d.IsValid) : d.next.toDay = d.toDay + 1 := by
  obtain ⟨year, month, day⟩ := d
  obtain ⟨hmonth, hmonth'⟩ := h.month_bounds
  have hday := h.2
  rw [next]
  dsimp only at hmonth hmonth' hday ⊢
  split_ifs with hinner hyear
  · rw [toDay_eq, toDay_eq]
    simp only [yearFromMarch, monthFromMarch]
    omega
  · have hlast : day = daysInMonth year month := Nat.le_antisymm hday (Nat.le_of_not_lt hinner)
    by_cases hfebruary : month = 2
    · subst hfebruary
      rw [hlast]
      exact toDay_first_of_march year
    · exact toDay_first_of_next h hlast (by simp only [monthFromMarch]; omega) rfl
        (by simp only [yearFromMarch]; omega) (by simp only [monthFromMarch]; omega)
  · have hlast : day = daysInMonth year month := Nat.le_antisymm hday (Nat.le_of_not_lt hinner)
    obtain rfl : month = 12 := by omega
    exact toDay_first_of_next h hlast (by simp [monthFromMarch]) rfl (by simp [yearFromMarch])
      (by simp [monthFromMarch])

/-- The date of the next day number follows. -/
theorem ofDay_add_one (n : Int) : ofDay (n + 1) = (ofDay n).next := by
  have hnext := toDay_next (isValid_ofDay n)
  rw [toDay_ofDay] at hnext
  rw [← hnext, ofDay_toDay (isValid_ofDay n).next]

end ExchangeCatalog.Date
