import ExchangeCatalog.Proofs.Lists
import ExchangeCatalog.Proofs.Time.Text
import ExchangeCatalog.Time.Lenient

/-!
# Reading the text of an instant in a document

The loose form of a document takes every text that an instant is written as: a signed year as well
as a plain one, a leap second, and a fraction of any length that is written.

## Main results

* `Date.year_bounds_ofDay` — the days that are represented have represented years
* `Instant.readLenient_text` — the text of an instant is read as the instant
-/

namespace ExchangeCatalog

/-! ### Years of days -/

namespace Date

theorem monthOf_le_two_iff {month : Int} (hlow : 0 ≤ month) (hhigh : month ≤ 11) :
    monthOf month ≤ 2 ↔ 10 ≤ month := by
  rw [monthOf]
  omega

/-- The days that are represented have represented years. -/
theorem year_bounds_ofDay {n : Int} (hlow : firstDay ≤ n) (hhigh : n ≤ lastDay) :
    -262143 ≤ (ofDay n).year ∧ (ofDay n).year ≤ 262142 := by
  obtain ⟨era, year, day, hyear, hyear', hday, hday', -, hnumber, hdate⟩ := parts n
  obtain ⟨⟨hmonth, hmonth'⟩, -⟩ := month_of_day hday hday' rfl
  have hfirst : firstDay = -96476249 := by decide
  have hlast : lastDay = 95015279 := by decide
  have hoffset : dayZeroOffset = 730425 := rfl
  rw [hdate]
  simp only [monthOf_le_two_iff hmonth hmonth']
  split_ifs with hspring
  · -- January and February end the year that began in March.
    have hlate : 306 ≤ day := by omega
    have hera : era ≤ 655 := by omega
    rcases Int.lt_or_eq_of_le hera with hera | rfl
    · omega
    · omega
  · omega

end Date

/-! ### Parts of the text -/

namespace Instant

variable {n width : Nat} {ds cs : List Char}

/-- Digits are read as a number up to where the digits or their greatest count end. -/
theorem number_append {most : Option Nat} (hne : ds ≠ [])
    (hlt : Decimal.ofDigits ds < 0x8000000000000000)
    (htake : ((most.map (ds ++ cs).take).getD (ds ++ cs)).takeWhile Decimal.isDigit = ds) :
    number most (ds ++ cs) = .ok (Decimal.ofDigits ds, cs) := by
  rw [number]
  simp only [htake]
  rw [if_neg (List.append_ne_nil_of_left_ne_nil hne cs), if_neg hne, if_neg (Nat.not_le.mpr hlt),
    List.drop_left' rfl]

/-- A padded number is read by the width that it was padded to. -/
theorem number_padded_append (hwidth : 0 < width) (h : n < 10 ^ width)
    (hlt : n < 0x8000000000000000) (cs : List Char) :
    number (some width) (Decimal.padded width n ++ cs) = .ok (n, cs) := by
  have hlength := Decimal.length_padded hwidth h
  have hdigits : ∀ c ∈ Decimal.padded width n, Decimal.isDigit c := Decimal.isDigit_of_mem_padded
  have hread : number (some width) (Decimal.padded width n ++ cs) =
      .ok (Decimal.ofDigits (Decimal.padded width n), cs) := by
    refine number_append ?_ ?_ ?_
    · rintro hnil
      rw [hnil] at hlength
      exact hwidth.ne hlength
    · rwa [Decimal.ofDigits_padded]
    · rw [Option.map_some, Option.getD_some, List.take_left' hlength]
      exact List.takeWhile_eq_self_iff.mpr hdigits
  rw [hread, Decimal.ofDigits_padded]

/-- A number of any width is read up to the hyphen after it. -/
theorem number_padded_append_hyphen (hlt : n < 0x8000000000000000) (cs : List Char) :
    number none (Decimal.padded width n ++ '-' :: cs) = .ok (n, '-' :: cs) := by
  have hdigits : ∀ c ∈ Decimal.padded width n, Decimal.isDigit c := Decimal.isDigit_of_mem_padded
  have hread : number none (Decimal.padded width n ++ '-' :: cs) =
      .ok (Decimal.ofDigits (Decimal.padded width n), '-' :: cs) := by
    refine number_append ?_ ?_ ?_
    · exact Decimal.padded_ne_nil
    · rwa [Decimal.ofDigits_padded]
    · rw [Option.map_none, Option.getD_none, List.takeWhile_append_of_pos hdigits]
      exact List.append_nil _
  rw [hread, Decimal.ofDigits_padded]

/-- A padded number within bounds is read. -/
theorem shortNumber_padded_append {least greatest : Nat} (hleast : least ≤ n)
    (hgreatest : n ≤ greatest) (hlt : n < 100) (cs : List Char) :
    shortNumber least greatest (Decimal.padded 2 n ++ cs) = .ok (n, cs) := by
  rw [shortNumber, Decimal.trimStart_padded_append,
    number_padded_append (by decide) hlt (by omega) cs]
  exact if_pos ⟨hleast, hgreatest⟩

/-- A year is read as it is written, with or without a sign. -/
theorem yearNumber_yearText_append {year : Int} (hlow : -262143 ≤ year) (hhigh : year ≤ 262142)
    (cs : List Char) :
    yearNumber (Date.yearText year ++ '-' :: cs) = .ok (year, '-' :: cs) := by
  have hword : ∀ n : Int, n = year →
      (if -0x80000000 ≤ n ∧ n < 0x80000000 then .ok (n, '-' :: cs) else .error .outOfRange :
        Except ReadFault (Int × List Char)) = .ok (year, '-' :: cs) := by
    rintro n rfl
    exact if_pos ⟨by omega, by omega⟩
  have hsign : ∀ c rest, Text.isBlank c = false → Text.trimStart (c :: rest) = c :: rest := by
    intro c rest hc
    refine Decimal.trimStart_eq_self ?_
    rintro _ ⟨⟩
    exact hc
  have hsigned : number none (Decimal.padded 4 year.natAbs ++ '-' :: cs) =
      .ok (year.natAbs, '-' :: cs) :=
    number_padded_append_hyphen (by omega) cs
  rw [Date.yearText, yearNumber]
  split_ifs with hplain hnegative
  · rw [Decimal.trimStart_padded_append]
    split
    case h_1 heq => exact absurd heq (Decimal.padded_append_ne_cons rfl _ _)
    case h_2 heq => exact absurd heq (Decimal.padded_append_ne_cons rfl _ _)
    case h_3 =>
      refine (bind_of_eq_ok (number_padded_append (by decide) (by omega) (by omega) _) _).trans ?_
      simp only [pure_bind]
      exact hword _ (by omega)
  · rw [List.cons_append, hsign _ _ rfl]
    refine (bind_of_eq_ok hsigned _).trans ?_
    simp only [pure_bind]
    exact hword _ (by omega)
  · rw [List.cons_append, hsign _ _ rfl]
    refine (bind_of_eq_ok hsigned _).trans ?_
    simp only [pure_bind]
    exact hword _ (by omega)

/-- What the strict form reads as a fraction, the loose form reads as well. -/
theorem fractionPart_of_fraction? {r : Nat × List Char} (h : fraction? cs = some r) :
    fractionPart cs = .ok r := by
  rw [fraction?.eq_def] at h
  split at h
  case h_1 rest =>
    dsimp only at h
    split_ifs at h with hdigits
    cases h
    have hne : rest ≠ [] := by
      rintro rfl
      exact hdigits rfl
    simp only [fractionPart, if_neg hne, if_neg hdigits]
  case h_2 hpoint =>
    cases h
    rw [fractionPart.eq_def]
    split
    case h_1 rest => exact absurd rfl (hpoint rest)
    case h_2 => rfl

/-- What the loose form is read as, given what is read of it step by step. -/
theorem readLenient_eq
    {cs afterYear afterMonth afterDay afterHour afterMinute afterSecond : List Char} {year : Int}
    {month day hour minute second fraction : Nat} {t : Instant}
    (hyear : yearNumber cs = .ok (year, '-' :: afterYear))
    (hmonth : shortNumber 1 12 afterYear = .ok (month, '-' :: afterMonth))
    (hday : shortNumber 1 31 afterMonth = .ok (day, 'T' :: afterDay))
    (hhour : shortNumber 0 23 afterDay = .ok (hour, ':' :: afterHour))
    (hminute : shortNumber 0 59 afterHour = .ok (minute, ':' :: afterMinute))
    (hsecond : shortNumber 0 60 afterMinute = .ok (second, afterSecond))
    (hfraction : fractionPart afterSecond = .ok (fraction, ['Z']))
    (hvalid : (⟨year, month, day⟩ : Date).IsValid ∧ -262143 ≤ year ∧ year ≤ 262142)
    (ht : ofLocal? ⟨year, month, day⟩ hour minute second fraction 0 = some t) :
    readLenient cs = .ok t := by
  have hhyphen : ∀ cs, separator '-' ('-' :: cs) = .ok cs := fun _ => rfl
  have hcolon : ∀ cs, separator ':' (':' :: cs) = .ok cs := fun _ => rfl
  have hdateEnd : ∀ cs, dateEnd ('T' :: cs) = .ok cs := fun _ => rfl
  have hoffset : offsetPart ['Z'] = .ok (0, []) := rfl
  refine (bind_of_eq_ok hyear _).trans ?_
  refine (bind_of_eq_ok (hhyphen _) _).trans ?_
  refine (bind_of_eq_ok hmonth _).trans ?_
  refine (bind_of_eq_ok (hhyphen _) _).trans ?_
  refine (bind_of_eq_ok hday _).trans ?_
  refine (bind_of_eq_ok (hdateEnd _) _).trans ?_
  refine (bind_of_eq_ok hhour _).trans ?_
  refine (bind_of_eq_ok (hcolon _) _).trans ?_
  refine (bind_of_eq_ok hminute _).trans ?_
  refine (bind_of_eq_ok (hcolon _) _).trans ?_
  refine (bind_of_eq_ok hsecond _).trans ?_
  refine (bind_of_eq_ok hfraction _).trans ?_
  refine (bind_of_eq_ok hoffset _).trans ?_
  have hnothing : Text.trimStart [] = [] := rfl
  dsimp only
  rw [if_neg (not_not.mpr hnothing), if_neg (not_not.mpr hvalid), if_neg (by decide), ht]

/-- The text of an instant is read as the instant, whatever its year. -/
theorem readLenient_text (t : Instant) : readLenient t.text.toList = .ok t := by
  have hvalid := Date.isValid_ofDay t.day
  have hmonth := hvalid.month_bounds
  have hday := hvalid.day_le
  have hsecond := t.second_lt
  have hshown := shownSecond_le t.second t.nano
  obtain ⟨hlow, hhigh⟩ := Date.year_bounds_ofDay t.firstDay_le t.day_le
  rw [toList_text, textAfterYear]
  exact readLenient_eq (yearNumber_yearText_append hlow hhigh _)
    (shortNumber_padded_append hmonth.1 hmonth.2 (by omega) _)
    (shortNumber_padded_append hvalid.1 hday (by omega) _)
    (shortNumber_padded_append (by omega) (by omega) (by omega) _)
    (shortNumber_padded_append (by omega) (by omega) (by omega) _)
    (shortNumber_padded_append (by omega) hshown (by omega) _)
    (fractionPart_of_fraction? (fraction?_fractionText_append t.shownFraction_lt))
    ⟨hvalid, hlow, hhigh⟩ (ofLocal?_shown t)

end Instant

end ExchangeCatalog
