import ExchangeCatalog.Proofs.Text.Decimal
import ExchangeCatalog.Proofs.Time.Calendar
import ExchangeCatalog.Time.Printer
import ExchangeCatalog.Time.Reader
import Mathlib.Data.List.TakeWhile

/-!
# Reading the text of an instant back

The text of an instant is read by a filter as the instant, leap seconds and all digits of the
fraction included, as long as its year has four digits. Any other year is written with a sign, which
the strict form does not allow; and a bare date may have a signed year but no clock.

## Main definitions

* `Instant.HasPlainYear` — the year of an instant is written without a sign

## Main results

* `Instant.read?_text` — the text of an instant is read as the instant
* `Instant.read?_text_eq_none` — the text of an instant with another year is refused
-/

namespace ExchangeCatalog

variable {n width : Nat} {cs : List Char}

/-- A padded number is read back by the width that it was padded to. -/
theorem fixedNumber?_padded_append (hwidth : 0 < width) (h : n < 10 ^ width) (cs : List Char) :
    fixedNumber? width (Decimal.padded width n ++ cs) = some (n, cs) := by
  have hlength := Decimal.length_padded hwidth h
  simp only [fixedNumber?]
  rw [List.take_left' hlength, List.drop_left' hlength,
    if_pos ⟨hlength, List.all_eq_true.mpr Decimal.isDigit_of_mem_padded⟩, Decimal.ofDigits_padded]

/-- A fraction of up to nine digits is read back in nanoseconds, where its digits end. -/
theorem fraction?_padded_append (hwidth : 0 < width) (hmost : width ≤ 9) (h : n < 10 ^ width)
    {rest : List Char} (hrest : ∀ c, rest.head? = some c → Decimal.isDigit c = false) :
    fraction? ('.' :: (Decimal.padded width n ++ rest)) = some (n * 10 ^ (9 - width), rest) := by
  have hlength := Decimal.length_padded hwidth h
  have hdigits : ∀ c ∈ Decimal.padded width n, Decimal.isDigit c := Decimal.isDigit_of_mem_padded
  have hne : Decimal.padded width n ≠ [] := by
    intro hnil
    rw [hnil] at hlength
    exact absurd hlength hwidth.ne
  have hends : rest.takeWhile Decimal.isDigit = [] ∧ rest.dropWhile Decimal.isDigit = rest := by
    cases rest with
    | nil => exact ⟨rfl, rfl⟩
    | cons c rest =>
      have hc : ¬Decimal.isDigit c = true := Bool.eq_false_iff.mp (hrest c rfl)
      exact ⟨List.takeWhile_cons_of_neg hc, List.dropWhile_cons_of_neg hc⟩
  simp only [fraction?]
  rw [List.takeWhile_append_of_pos hdigits, List.dropWhile_append_of_pos hdigits, hends.1, hends.2,
    List.append_nil, if_neg hne, fractionNanos, List.take_of_length_le (hlength.trans_le hmost),
    Decimal.ofDigits_padded, hlength]
  rfl

/-- A plan of readings goes on with what the first of them gives. -/
theorem bind_of_eq_some {α β : Type} {x : Option α} {a : α} (h : x = some a) (f : α → Option β) :
    (x >>= f) = f a :=
  h ▸ rfl

namespace Instant

/-- The fraction of a second is read back in nanoseconds. -/
theorem fraction?_fractionText_append {nano : Nat} (h : nano < 1000000000) :
    fraction? (fractionText nano ++ ['Z']) = some (nano, ['Z']) := by
  have hends : ∀ c, ['Z'].head? = some c → Decimal.isDigit c = false := by
    rintro _ ⟨⟩
    rfl
  rw [fractionText]
  split_ifs with hzero hmillis hmicros
  · rw [hzero]
    rfl
  · rw [List.cons_append, fraction?_padded_append (by decide) (by decide) (by omega) hends]
    exact congrArg (fun n => some (n, ['Z'])) (Nat.div_mul_cancel (Nat.dvd_of_mod_eq_zero hmillis))
  · rw [List.cons_append, fraction?_padded_append (by decide) (by decide) (by omega) hends]
    exact congrArg (fun n => some (n, ['Z'])) (Nat.div_mul_cancel (Nat.dvd_of_mod_eq_zero hmicros))
  · rw [List.cons_append, fraction?_padded_append (by decide) (by decide) h hends]
    exact congrArg (fun n => some (n, ['Z'])) (Nat.mul_one nano)

/-- What the strict form is read as, given what is read of it step by step. -/
theorem ofRfc3339?_eq
    {cs afterYear afterMonth afterDay afterHour afterMinute afterSecond zone : List Char}
    {year month day hour minute second fraction : Nat} {offset : Int}
    (hyear : fixedNumber? 4 cs = some (year, '-' :: afterYear))
    (hmonth : fixedNumber? 2 afterYear = some (month, '-' :: afterMonth))
    (hday : fixedNumber? 2 afterMonth = some (day, 'T' :: afterDay))
    (hhour : fixedNumber? 2 afterDay = some (hour, ':' :: afterHour))
    (hminute : fixedNumber? 2 afterHour = some (minute, ':' :: afterMinute))
    (hsecond : fixedNumber? 2 afterMinute = some (second, afterSecond))
    (hfraction : fraction? afterSecond = some (fraction, zone))
    (hoffset : strictOffset? zone = some offset)
    (hvalid : (⟨year, month, day⟩ : Date).IsValid ∧ hour < 24 ∧ minute < 60 ∧ second ≤ 60) :
    ofRfc3339? cs = ofLocal? ⟨year, month, day⟩ hour minute second fraction offset := by
  have hafter : ∀ c cs, afterChar? c (c :: cs) = some cs := fun _ _ => if_pos rfl
  refine (bind_of_eq_some hyear _).trans ?_
  refine (bind_of_eq_some (hafter _ _) _).trans ?_
  refine (bind_of_eq_some hmonth _).trans ?_
  refine (bind_of_eq_some (hafter _ _) _).trans ?_
  refine (bind_of_eq_some hday _).trans ?_
  refine (bind_of_eq_some hhour _).trans ?_
  refine (bind_of_eq_some (hafter _ _) _).trans ?_
  refine (bind_of_eq_some hminute _).trans ?_
  refine (bind_of_eq_some (hafter _ _) _).trans ?_
  refine (bind_of_eq_some hsecond _).trans ?_
  refine (bind_of_eq_some hfraction _).trans ?_
  refine (bind_of_eq_some hoffset _).trans ?_
  exact if_pos hvalid

/-- The second that a clock shows, which is sixty in a leap second. -/
def shownSecond (second nano : Nat) : Nat := second % 60 + if 1000000000 ≤ nano then 1 else 0

/-- The fraction that a clock shows, which begins again in a leap second. -/
def shownFraction (nano : Nat) : Nat := if 1000000000 ≤ nano then nano - 1000000000 else nano

theorem shownSecond_le (second nano : Nat) : shownSecond second nano ≤ 60 := by
  have hlt := Nat.mod_lt second (show 0 < 60 by decide)
  rw [shownSecond]
  split_ifs
  all_goals omega

theorem shownFraction_lt (t : Instant) : shownFraction t.nano < 1000000000 := by
  have hnano := t.nano_lt
  rw [shownFraction]
  split_ifs
  all_goals omega

section

variable {second nano : Nat} (hleap : 1000000000 ≤ nano → second % 60 = 59)
include hleap

theorem second_of_shown :
    (if shownSecond second nano = 60 then 59 else shownSecond second nano) = second % 60 := by
  have hlt := Nat.mod_lt second (show 0 < 60 by decide)
  rw [shownSecond]
  split_ifs
  all_goals omega

theorem clockNano_shown : clockNano (shownSecond second nano) (shownFraction nano) = nano := by
  have hlt := Nat.mod_lt second (show 0 < 60 by decide)
  rw [clockNano, shownSecond, shownFraction]
  split_ifs
  all_goals omega

end

/-! ### Local time -/

/-- The seconds from universal midnight that a clock shows which is some minutes ahead. -/
def localClock (t : Instant) (offset : Int) : Int := t.second + offset * 60

/-- The day of this clock. -/
def localDay (t : Instant) (offset : Int) : Int := t.day + t.localClock offset / 86400

/-- The second of the day of this clock. -/
def localSecond (t : Instant) (offset : Int) : Nat := (t.localClock offset % 86400).toNat

/-- The date and the clock that an instant shows at an offset are those of this instant. -/
theorem ofLocal?_local (t : Instant) (offset : Int) :
    ofLocal? (Date.ofDay (t.localDay offset)) (t.localSecond offset / 3600)
      (t.localSecond offset / 60 % 60) (shownSecond (t.localSecond offset) t.nano)
      (shownFraction t.nano) offset = some t := by
  have hsecond := t.second_lt
  have hlocal : (t.localSecond offset : Int) = (t.second + offset * 60) % 86400 :=
    Int.toNat_of_nonneg (Int.emod_nonneg _ (by decide))
  -- An offset of whole minutes leaves the seconds of a minute as they are.
  have hleap : 1000000000 ≤ t.nano → t.localSecond offset % 60 = 59 := by
    have hlast := t.leap_at_end
    omega
  have hclock : ((t.localSecond offset / 3600 : Nat) : Int) * 3600 +
      (t.localSecond offset / 60 % 60 : Nat) * 60 + (t.localSecond offset % 60 : Nat) -
        offset * 60 = t.localSecond offset - offset * 60 := by omega
  have hday : t.localDay offset + ((t.localSecond offset : Int) - offset * 60) / 86400 = t.day := by
    rw [localDay, localClock]
    omega
  have hinday : (((t.localSecond offset : Int) - offset * 60) % 86400).toNat = t.second := by omega
  simp only [ofLocal?]
  rw [Date.toDay_ofDay, clockNano_shown hleap, second_of_shown hleap, hclock, hday, hinday]
  exact dif_pos ⟨t.firstDay_le, t.day_le, t.second_lt, t.nano_lt, t.leap_at_end⟩

/-- So it is in universal time. -/
theorem ofLocal?_shown (t : Instant) :
    ofLocal? (Date.ofDay t.day) (t.second / 3600) (t.second / 60 % 60)
      (shownSecond t.second t.nano) (shownFraction t.nano) 0 = some t := by
  have hsecond := t.second_lt
  have hday : t.localDay 0 = t.day := by
    rw [localDay, localClock]
    omega
  have hclock : t.localSecond 0 = t.second := by
    rw [localSecond, localClock]
    omega
  have hlocal := t.ofLocal?_local 0
  rwa [hday, hclock] at hlocal

/-- An instant whose year is written without a sign. -/
def HasPlainYear (t : Instant) : Prop :=
  0 ≤ (Date.ofDay t.day).year ∧ (Date.ofDay t.day).year ≤ 9999

instance (t : Instant) : Decidable t.HasPlainYear := by unfold HasPlainYear; infer_instance

/-- The text of an instant after its year. -/
def textAfterYear (t : Instant) : List Char :=
  '-' :: (Decimal.padded 2 (Date.ofDay t.day).month ++
    '-' :: (Decimal.padded 2 (Date.ofDay t.day).day ++ 'T' :: (Decimal.padded 2 (t.second / 3600) ++
      ':' :: (Decimal.padded 2 (t.second / 60 % 60) ++
        ':' :: (Decimal.padded 2 (shownSecond t.second t.nano) ++
          (fractionText (shownFraction t.nano) ++ ['Z']))))))

theorem toList_text (t : Instant) :
    t.text.toList = Date.yearText (Date.ofDay t.day).year ++ t.textAfterYear := by
  simp only [text, clockText, textAfterYear, shownSecond, shownFraction, String.toList_ofList,
    List.append_assoc, List.cons_append]

/-- The text of an instant is an instant in the strict form. -/
theorem ofRfc3339?_text {t : Instant} (h : t.HasPlainYear) : ofRfc3339? t.text.toList = some t := by
  obtain ⟨hlow, hhigh⟩ := h
  have hvalid := Date.isValid_ofDay t.day
  have hmonth := hvalid.month_bounds
  have hday := hvalid.day_le
  have hsecond := t.second_lt
  have hshown := shownSecond_le t.second t.nano
  have hread : ∀ n < 100, ∀ cs, fixedNumber? 2 (Decimal.padded 2 n ++ cs) = some (n, cs) :=
    fun n hn => fixedNumber?_padded_append (by decide) hn
  have hyear : ((Date.ofDay t.day).year.natAbs : Int) = (Date.ofDay t.day).year :=
    Int.natAbs_of_nonneg hlow
  rw [toList_text, Date.yearText, if_pos ⟨hlow, hhigh⟩]
  refine (ofRfc3339?_eq (fixedNumber?_padded_append (by decide) (by omega) _) (hread _ (by omega) _)
    (hread _ (by omega) _) (hread _ (by omega) _) (hread _ (by omega) _) (hread _ (by omega) _)
    (fraction?_fractionText_append t.shownFraction_lt) rfl ?_).trans ?_
  · rw [hyear]
    exact ⟨hvalid, by omega, by omega, hshown⟩
  · rw [hyear]
    exact ofLocal?_shown t

/-! ### Blanks -/

theorem isBlank_of_head?_yearText {year : Int} {c : Char}
    (h : (Date.yearText year).head? = some c) : Text.isBlank c = false := by
  rw [Date.yearText] at h
  split_ifs at h
  · exact Decimal.isBlank_of_isDigit (Decimal.isDigit_of_mem_padded c (List.mem_of_head? h))
  · cases h
    rfl
  · cases h
    rfl

theorem head?_yearText_append (year : Int) (cs : List Char) :
    (Date.yearText year ++ cs).head? = (Date.yearText year).head? := by
  have hne : Date.yearText year ≠ [] := by
    rw [Date.yearText]
    split_ifs
    · exact Decimal.padded_ne_nil
    · exact List.cons_ne_nil _ _
    · exact List.cons_ne_nil _ _
  rw [List.head?_append, Option.or_of_isSome (List.isSome_head?.mpr hne)]

/-- The text of an instant begins and ends without blanks. -/
theorem trim_text (t : Instant) : Text.trim t.text.toList = t.text.toList := by
  refine Decimal.trim_eq_self (fun c hc => ?_) fun c hc => ?_
  · rw [toList_text, head?_yearText_append] at hc
    exact isBlank_of_head?_yearText hc
  · rw [text, String.toList_ofList, List.getLast?_concat] at hc
    cases hc
    rfl

/-- The text of an instant is read as the instant. -/
theorem read?_text {t : Instant} (h : t.HasPlainYear) : read? t.text.toList = some t := by
  rw [read?, ofRfc3339?_text h]

/-! ### Years with a sign -/

/-- The strict form has no sign in front. -/
theorem ofRfc3339?_eq_none {c : Char} (h : Decimal.isDigit c = false) (cs : List Char) :
    ofRfc3339? (c :: cs) = none := by
  have hyear : fixedNumber? 4 (c :: cs) = none := by
    refine if_neg fun hdigits => ?_
    have hc := List.all_eq_true.mp hdigits.2 c List.mem_cons_self
    rw [h] at hc
    exact absurd hc Bool.false_ne_true
  rw [ofRfc3339?, hyear]
  rfl

end Instant

/-- A padded number is read in a date by the width that it was padded to. -/
theorem blankNumber?_padded_append (hwidth : 0 < width) (h : n < 10 ^ width) (cs : List Char) :
    blankNumber? width (Decimal.padded width n ++ cs) = some (n, cs) := by
  have hlength := Decimal.length_padded hwidth h
  have hdigits : ∀ c ∈ Decimal.padded width n, Decimal.isDigit c := Decimal.isDigit_of_mem_padded
  have hne : Decimal.padded width n ≠ [] := Decimal.padded_ne_nil
  simp only [blankNumber?]
  rw [Decimal.trimStart_padded_append, List.take_left' hlength,
    List.takeWhile_eq_self_iff.mpr hdigits, if_neg hne, List.drop_left' rfl,
    Decimal.ofDigits_padded]

/-- A sign and digits are read as a year. -/
theorem blankYear?_sign {sign : Char} (hsign : sign = '+' ∨ sign = '-') (width n : Nat)
    (cs : List Char) :
    blankYear? (sign :: (Decimal.padded width n ++ '-' :: cs)) =
      some (if sign = '-' then -(n : Int) else n, '-' :: cs) := by
  have hdigits : ∀ c ∈ Decimal.padded width n, Decimal.isDigit c := Decimal.isDigit_of_mem_padded
  have hne : Decimal.padded width n ≠ [] := Decimal.padded_ne_nil
  have hblank : ∀ cs, Text.trimStart (sign :: cs) = sign :: cs := by
    rcases hsign with rfl | rfl
    all_goals exact fun _ => rfl
  have htake : (Decimal.padded width n ++ '-' :: cs).takeWhile Decimal.isDigit =
      Decimal.padded width n := by
    rw [List.takeWhile_append_of_pos hdigits]
    exact List.append_nil _
  have hdrop : (Decimal.padded width n ++ '-' :: cs).dropWhile Decimal.isDigit = '-' :: cs :=
    List.dropWhile_append_of_pos hdigits
  rw [blankYear?, hblank]
  dsimp only
  rw [if_pos hsign, htake, hdrop, if_neg hne, Decimal.ofDigits_padded]

/-- A year is read in a date as it is written, with or without a sign. -/
theorem blankYear?_yearText_append (year : Int) (cs : List Char) :
    blankYear? (Date.yearText year ++ '-' :: cs) = some (year, '-' :: cs) := by
  rw [Date.yearText]
  split_ifs with hplain hnegative
  · have hyear : (year.natAbs : Int) = year := by omega
    have hread : blankNumber? 4 (Decimal.padded 4 year.natAbs ++ '-' :: cs) =
        some (year.natAbs, '-' :: cs) := blankNumber?_padded_append (by decide) (by omega) _
    rw [blankYear?, Decimal.trimStart_padded_append]
    split
    case h_1 c rest heq =>
      have hsign : ¬(c = '+' ∨ c = '-') := by
        rintro (rfl | rfl)
        · exact Decimal.padded_append_ne_cons rfl _ _ heq
        · exact Decimal.padded_append_ne_cons rfl _ _ heq
      rw [if_neg hsign, ← heq, hread]
      exact congrArg (fun year => some (year, '-' :: cs)) hyear
    case h_2 heq =>
      exact absurd heq (List.append_ne_nil_of_left_ne_nil Decimal.padded_ne_nil _)
  · have hyear : -(year.natAbs : Int) = year := by omega
    rw [List.cons_append, blankYear?_sign (Or.inr rfl), if_pos rfl, hyear]
  · have hyear : (year.natAbs : Int) = year := by omega
    rw [List.cons_append, blankYear?_sign (Or.inl rfl), if_neg (by decide), hyear]

/-- The text of a date, with a month and a day of two digits. -/
def Date.text (d : Date) : List Char :=
  yearText d.year ++ '-' :: (Decimal.padded 2 d.month ++ '-' :: Decimal.padded 2 d.day)

/-- The text of a date is read as a date if the date exists and nothing follows. -/
theorem Date.read?_text_append {d : Date} (hmonth : d.month < 100) (hday : d.day < 100)
    (cs : List Char) :
    Date.read? (d.text ++ cs) = if cs = [] ∧ d.IsValid then some d else none := by
  have hafter : ∀ cs, afterChar? '-' ('-' :: cs) = some cs := fun _ => rfl
  rw [text, List.append_assoc, List.cons_append, List.append_assoc, List.cons_append]
  refine (bind_of_eq_some (blankYear?_yearText_append _ _) _).trans ?_
  refine (bind_of_eq_some (hafter _) _).trans ?_
  refine (bind_of_eq_some (blankNumber?_padded_append (by decide) hmonth _) _).trans ?_
  refine (bind_of_eq_some (hafter _) _).trans ?_
  exact bind_of_eq_some (blankNumber?_padded_append (by decide) hday _) _

/-- The text of an instant whose year is written with a sign is refused. -/
theorem Instant.read?_text_eq_none {t : Instant} (h : ¬ t.HasPlainYear) :
    Instant.read? t.text.toList = none := by
  have hvalid := Date.isValid_ofDay t.day
  have hmonth := hvalid.month_bounds
  have hday := hvalid.day_le
  have hdate : Date.read? t.text.toList = none := by
    have htext : t.text.toList = (Date.ofDay t.day).text ++ 'T' ::
        (clockText t.second t.nano ++ ['Z']) := by
      simp only [text, Date.text, String.toList_ofList, List.append_assoc, List.cons_append]
    rw [htext, Date.read?_text_append (by omega) (by omega)]
    exact if_neg fun h => List.cons_ne_nil _ _ h.1
  have hstrict : ofRfc3339? t.text.toList = none := by
    rw [HasPlainYear] at h
    rw [toList_text, Date.yearText, if_neg h]
    split_ifs
    · exact ofRfc3339?_eq_none rfl _
    · exact ofRfc3339?_eq_none rfl _
  rw [read?, hstrict, hdate]
  rfl

end ExchangeCatalog
