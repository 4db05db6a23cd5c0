import ExchangeCatalog.Time.Calendar
import Mathlib.Algebra.Order.Ring.Int

/-!
# Dates of day numbers

The date of a day number exists in the calendar, and its day number is the one that it came from.
Years are counted from March within an era of four hundred, so a day number is taken apart into its
era, the year of the era, the day of the year and the month, and each part is within its bounds.

## Main definitions

* `Date.Parts` — era, year of the era and day of the year, counted from March

## Main results

* `Date.exists_parts` — every day number has parts, from which its date follows
* `Date.toDay_ofDay` — the date of a day number has this day number
* `Date.isValid_ofDay` — the date of a day number exists
-/

namespace ExchangeCatalog.Date

/-! ### Years -/

/-- A year of the era that ends with a leap day: every fourth, but of the last years of centuries
only that of the era. -/
def EndsWithLeapDay (year : Int) : Prop :=
  (year + 1) % 4 = 0 ∧ ((year + 1) % 100 ≠ 0 ∨ year = 399)

/-- The year of a day within a century. Of the four centuries only the last has a day more. -/
private theorem year_of_century {d c century : Int} (hquad : d / 1460 = c)
    (hcentury : century = 0 ∨ century = 1 ∨ century = 2 ∨ century = 3)
    (hlow : 36524 * century ≤ d) (hhigh : d ≤ 36524 * century + 36524)
    (hlast : century ≤ 2 → d < 36524 * century + 36524) {year : Int}
    (hyear : (d - c + century) / 365 = year) :
    (100 * century ≤ year ∧ year < 100 * century + 100) ∧
      365 * year + year / 4 - century ≤ d ∧
        (year + 1 < 100 * century + 100 → d < 365 * (year + 1) + (year + 1) / 4 - century) := by
  rcases hcentury with rfl | rfl | rfl | rfl
  all_goals refine ⟨?_, ?_, fun _ => ?_⟩
  all_goals omega

/-- The year of a day of the era begins on or before the day, and ends on or after it. -/
theorem year_of_day {d year : Int} (hlow : 0 ≤ d) (hhigh : d < 146097)
    (hyear : year = (d - d / 1460 + d / 36524 - d / 146096) / 365) :
    (0 ≤ year ∧ year ≤ 399) ∧ 365 * year + year / 4 - year / 100 ≤ d ∧
      (d ≤ 365 * year + year / 4 - year / 100 + 364 ∨
        d = 365 * year + year / 4 - year / 100 + 365 ∧ EndsWithLeapDay year) := by
  obtain ⟨century, hcentury⟩ : ∃ century, century = d / 36524 - d / 146096 := ⟨_, rfl⟩
  have hbounds : century = 0 ∨ century = 1 ∨ century = 2 ∨ century = 3 := by omega
  have hbegin : 36524 * century ≤ d := by omega
  have hend : d ≤ 36524 * century + 36524 := by omega
  have hlast : century ≤ 2 → d < 36524 * century + 36524 := by omega
  have hyear' : (d - d / 1460 + century) / 365 = year := by
    rw [hyear, hcentury, Int.add_sub_assoc]
  obtain ⟨⟨hfirst, hnext⟩, hstart, hstop⟩ :=
    year_of_century rfl hbounds hbegin hend hlast hyear'
  have hdiv : year / 100 = century := by omega
  rw [hdiv, EndsWithLeapDay]
  refine ⟨by omega, hstart, ?_⟩
  by_cases hinner : year + 1 < 100 * century + 100
  · have hstop := hstop hinner
    omega
  · -- the last year of a century, which has the leap day in the last century only
    obtain rfl : year = 100 * century + 99 := by omega
    rcases hbounds with rfl | rfl | rfl | rfl
    all_goals omega

/-! ### Months -/

/-- The month that comes a number of months after March. -/
def monthOf (fromMarch : Int) : Nat :=
  (if fromMarch < 10 then fromMarch + 3 else fromMarch - 9).toNat

/-- A day of a year from March on lies in one of twelve months, on or after its first day. -/
theorem month_of_day {d month : Int} (hlow : 0 ≤ d) (hhigh : d ≤ 365)
    (hmonth : month = (5 * d + 2) / 153) :
    (0 ≤ month ∧ month ≤ 11) ∧ (153 * month + 2) / 5 ≤ d := by
  omega

theorem isLeapYear_of_endsWithLeapDay {year : Int} (h : EndsWithLeapDay year) (era : Int) :
    isLeapYear (year + 1 + era * 400) := by
  obtain ⟨hfour, hcentury⟩ := h
  rw [isLeapYear, Bool.and_eq_true, Bool.or_eq_true, beq_iff_eq, bne_iff_ne, beq_iff_eq]
  omega

/-- From March to January the lengths of the months follow one linear rule. -/
theorem daysInMonth_monthOf (year : Int) {month : Int} (hlow : 0 ≤ month) (hhigh : month ≤ 10) :
    (daysInMonth year (monthOf month) : Int) =
      (153 * (month + 1) + 2) / 5 - (153 * month + 2) / 5 := by
  have hcases : month = 0 ∨ month = 1 ∨ month = 2 ∨ month = 3 ∨ month = 4 ∨ month = 5 ∨ month = 6 ∨
    month = 7 ∨ month = 8 ∨ month = 9 ∨ month = 10 := by omega
  rcases hcases with rfl | rfl | rfl | rfl | rfl | rfl | rfl | rfl | rfl | rfl | rfl
  all_goals rfl

/-- No month is exceeded, since February has its leap day when the year ends with it. -/
theorem day_le_daysInMonth (era : Int) {d month year : Int} (hlow : 0 ≤ d) (hhigh : d ≤ 365)
    (hleap : d = 365 → EndsWithLeapDay year) (hmonth : month = (5 * d + 2) / 153) :
    d - (153 * month + 2) / 5 + 1 ≤
      daysInMonth (if monthOf month ≤ 2 then year + era * 400 + 1 else year + era * 400)
        (monthOf month) := by
  obtain ⟨⟨hfirst, hlast⟩, -⟩ := month_of_day hlow hhigh hmonth
  rcases Int.lt_or_eq_of_le hlast with hearly | rfl
  · rw [daysInMonth_monthOf _ hfirst (Int.le_of_lt_add_one hearly)]
    omega
  · change _ ≤ (((if isLeapYear (year + era * 400 + 1) then 29 else 28) : Nat) : Int)
    split
    · omega
    · -- without a leap day the year ends a day earlier
      rename_i hcommon
      have hshort : d ≠ 365 := by
        rintro rfl
        have hlong := isLeapYear_of_endsWithLeapDay (hleap rfl) era
        rw [Int.add_right_comm] at hlong
        exact hcommon hlong
      omega

/-! ### Days -/

/-- A day number in its era, with the year of the era and the day of the year from March on. -/
structure Parts (n : Int) where
  era : Int
  year : Int
  day : Int
  year_nonneg : 0 ≤ year
  year_le : year ≤ 399
  day_nonneg : 0 ≤ day
  day_le : day ≤ 365
  leap : day = 365 → EndsWithLeapDay year
  number_eq : n = era * 146097 + (year * 365 + year / 4 - year / 100 + day) - dayZeroOffset
  date_eq : ofDay n =
    ⟨if monthOf ((5 * day + 2) / 153) ≤ 2 then year + era * 400 + 1 else year + era * 400,
      monthOf ((5 * day + 2) / 153), (day - (153 * ((5 * day + 2) / 153) + 2) / 5 + 1).toNat⟩

/-- Every day number has its parts. -/
def parts (n : Int) : Parts n :=
  let dayOfEra := n + dayZeroOffset - (n + dayZeroOffset) / 146097 * 146097
  let year := (dayOfEra - dayOfEra / 1460 + dayOfEra / 36524 - dayOfEra / 146096) / 365
  have hera : 0 ≤ dayOfEra ∧ dayOfEra < 146097 := by omega
  have hyear := year_of_day hera.1 hera.2 (rfl : year = _)
  { era := (n + dayZeroOffset) / 146097
    year := year
    day := dayOfEra - (365 * year + year / 4 - year / 100)
    year_nonneg := hyear.1.1
    year_le := hyear.1.2
    day_nonneg := by omega
    day_le := by omega
    leap := fun h => hyear.2.2.elim (fun hshort => absurd h (by omega)) And.right
    number_eq := by omega
    date_eq := by
      have hmonth : ∀ m : Int, (monthOf m ≤ 2) = ((if m < 10 then m + 3 else m - 9) ≤ 2) := fun m =>
        propext Int.toNat_le
      simp only [hmonth]
      rfl }

/-- The date of a day number has this day number. -/
theorem toDay_ofDay (n : Int) : toDay (ofDay n) = n := by
  obtain ⟨era, year, day, hyear, hyear', hday, hday', -, hnumber, hdate⟩ := parts n
  rw [hdate]
  obtain ⟨month, hmonth⟩ : ∃ month, month = (5 * day + 2) / 153 := ⟨_, rfl⟩
  obtain ⟨hbounds, hfirst⟩ := month_of_day hday hday' hmonth
  rw [← hmonth]
  have hyearback : (if monthOf month ≤ 2 then
      (if monthOf month ≤ 2 then year + era * 400 + 1 else year + era * 400) - 1 else
      (if monthOf month ≤ 2 then year + era * 400 + 1 else year + era * 400)) =
        year + era * 400 := by
    split_ifs
    · omega
    · rfl
  have hmonthback : ((monthOf month : Int) + 9) % 12 = month := by
    rw [monthOf]
    omega
  have hdayback : ((day - (153 * month + 2) / 5 + 1).toNat : Int) =
      day - (153 * month + 2) / 5 + 1 := Int.toNat_of_nonneg (by omega)
  simp only [toDay]
  rw [hyearback, hmonthback, hdayback, hnumber]
  omega

/-- The date of a day number exists. -/
theorem isValid_ofDay (n : Int) : (ofDay n).IsValid := by
  obtain ⟨era, year, day, hyear, hyear', hday, hday', hleap, -, hdate⟩ := parts n
  obtain ⟨hbounds, hfirst⟩ := month_of_day hday hday' rfl
  have hlast := day_le_daysInMonth era hday hday' hleap rfl
  rw [hdate]
  refine ⟨?_, ?_⟩
  · dsimp only
    omega
  · exact Int.toNat_le.mpr hlast

/-! ### Dates that exist -/

variable {d : Date}

theorem IsValid.month_bounds (h : d.IsValid) : 1 ≤ d.month ∧ d.month ≤ 12 := by
  have hpositive := Nat.le_trans h.1 h.2
  unfold daysInMonth at hpositive
  split at hpositive
  all_goals omega

theorem IsValid.day_le (h : d.IsValid) : d.day ≤ 31 := by
  have hlast := h.2
  unfold daysInMonth at hlast
  repeat' split at hlast
  all_goals omega

end ExchangeCatalog.Date
