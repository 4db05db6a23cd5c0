import ExchangeCatalog.Proofs.Text.Blank
import ExchangeCatalog.Proofs.Time.Micros
import ExchangeCatalog.Proofs.Time.Succession
import ExchangeCatalog.Proofs.Time.Text
import ExchangeCatalog.Value
import Mathlib.Data.List.Basic

/-!
# One instant in many texts

An instant is written by the date and the clock of any place on earth: the offset of the place from
universal time follows the clock, and the fraction of the second has as many digits as the writer
likes. A filter reads each of these texts as the same instant, so filters compare instants and not
the texts that they are written in. A bare date is written for its midnight in universal time, and
the text of a date that the calendar does not have is read as nothing.

## Main definitions

* `Zone` — an offset from universal time, as it is written
* `Instant.rfc3339` — the text of an instant at an offset, with a number of fractional digits
* `Instant.IsWritten` — a text is one of those of an instant, with blanks around it
* `Instant.IsBefore` — the order of time

## Main results

* `Instant.read?_rfc3339` — every text of an instant is read as the instant
* `Date.read?_text_append_eq_none` — the text of a date that does not exist is not read
* `instants_are_read` — what filters read
-/

namespace ExchangeCatalog

variable {cs : List Char}

/-! ### Offsets -/

/-- An offset from universal time of whole minutes, as it is written. -/
inductive Zone
  /-- Universal time itself, written as a letter. -/
  | zulu
  /-- A clock that is some minutes ahead. -/
  | ahead (minutes : Nat)
  /-- A clock that is some minutes behind. -/
  | behind (minutes : Nat)
  deriving DecidableEq

namespace Zone

/-- The minutes that the clock of the zone is ahead. -/
def minutes : Zone → Int
  | zulu => 0
  | ahead n => n
  | behind n => -n

/-- Hours and minutes of two digits each. -/
def clock (minutes : Nat) : List Char :=
  Decimal.padded 2 (minutes / 60) ++ ':' :: Decimal.padded 2 (minutes % 60)

/-- The text of an offset. -/
def text : Zone → List Char
  | zulu => ['Z']
  | ahead n => '+' :: clock n
  | behind n => '-' :: clock n

/-- The offset is smaller than a day. -/
def IsWithinDay (z : Zone) : Prop := z.minutes.natAbs < 24 * 60

instance (z : Zone) : Decidable z.IsWithinDay := inferInstanceAs (Decidable (_ < _))

/-- What an offset is read as, given what is read of it step by step. -/
theorem strictOffset?_eq {c : Char} {afterHours : List Char} {sign : Int} {hours minutes : Nat}
    (hsign : offsetSign? c = some sign)
    (hhours : fixedNumber? 2 cs = some (hours, ':' :: afterHours))
    (hminutes : fixedNumber? 2 afterHours = some (minutes, []))
    (hvalid : hours < 24 ∧ minutes < 60) :
    strictOffset? (c :: cs) = some (sign * (hours * 60 + minutes)) := by
  have hcolon : afterChar? ':' (':' :: afterHours) = some afterHours := rfl
  cases cs with
  | nil => cases hhours
  | cons d cs =>
    refine (bind_of_eq_some hsign _).trans ?_
    refine (bind_of_eq_some hhours _).trans ?_
    refine (bind_of_eq_some hcolon _).trans ?_
    refine (bind_of_eq_some hminutes _).trans ?_
    exact if_pos ⟨rfl, hvalid⟩

theorem strictOffset?_clock {c : Char} {sign : Int} {n : Nat} (hsign : offsetSign? c = some sign)
    (h : n < 24 * 60) : strictOffset? (c :: clock n) = some (sign * n) := by
  have hminutes : ((n / 60 : Nat) : Int) * 60 + (n % 60 : Nat) = n := by omega
  have hend := fixedNumber?_padded_append (show 0 < 2 by decide) (show n % 60 < 10 ^ 2 by omega) []
  rw [List.append_nil] at hend
  rw [clock, strictOffset?_eq hsign (fixedNumber?_padded_append (by decide) (by omega) _) hend
    (by omega), hminutes]

/-- The text of an offset is read as its minutes. -/
theorem strictOffset?_text {z : Zone} (h : z.IsWithinDay) :
    strictOffset? z.text = some z.minutes := by
  rw [IsWithinDay] at h
  cases z with
  | zulu => rfl
  | ahead n =>
    rw [text, strictOffset?_clock rfl (by simpa [minutes] using h), minutes, Int.one_mul]
  | behind n =>
    rw [text, strictOffset?_clock rfl (by simpa [minutes] using h), minutes, Int.neg_one_mul]

/-- The text of an offset begins with a letter or a sign. -/
theorem head?_text (z : Zone) {c : Char} (h : z.text.head? = some c) :
    Decimal.isDigit c = false ∧ c ≠ '.' := by
  cases z
  all_goals cases h; decide

/-- The text of an offset ends with a letter or a digit. -/
theorem getLast?_text (z : Zone) {c : Char} (h : z.text.getLast? = some c) :
    Text.isBlank c = false := by
  have hclock : ∀ (sign : Char) (n : Nat), (sign :: clock n).getLast? = some c →
      Text.isBlank c = false := by
    intro sign n h
    have hend : sign :: clock n =
        (sign :: Decimal.padded 2 (n / 60) ++ [':']) ++ Decimal.padded 2 (n % 60) := by
      rw [clock, List.append_assoc]
      rfl
    rw [hend, List.getLast?_append_of_ne_nil _ Decimal.padded_ne_nil] at h
    exact Decimal.isBlank_of_isDigit (Decimal.isDigit_of_mem_padded c (List.mem_of_getLast? h))
  cases z with
  | zulu =>
    cases h
    rfl
  | ahead n => exact hclock _ _ h
  | behind n => exact hclock _ _ h

theorem text_ne_nil (z : Zone) : z.text ≠ [] := by
  cases z
  all_goals exact List.cons_ne_nil _ _

end Zone

/-! ### Texts of an instant -/

namespace Instant

variable {t : Instant} {places nanos : Nat} {z : Zone}

/-- The date that a clock in a zone shows. -/
def localDate (t : Instant) (z : Zone) : Date := Date.ofDay (t.localDay z.minutes)

/-- A point and the first digits of the nanoseconds of a second; no digits need no point. -/
def fractionDigits (places nanos : Nat) : List Char :=
  if places = 0 then [] else '.' :: Decimal.padded places (nanos / 10 ^ (9 - places))

/-- The text of an instant in the strict form, by the clock of a zone. -/
def rfc3339 (t : Instant) (places : Nat) (z : Zone) : List Char :=
  let second := t.localSecond z.minutes
  (t.localDate z).text ++ 'T' :: (Decimal.padded 2 (second / 3600) ++
    ':' :: (Decimal.padded 2 (second / 60 % 60) ++
      ':' :: (Decimal.padded 2 (shownSecond second t.nano) ++
        (fractionDigits places (shownFraction t.nano) ++ z.text))))

/-- The strict form has room for the instant: the year has four digits, the offset is smaller than a
day, and the digits of the fraction lose nothing. -/
structure IsWritable (t : Instant) (places : Nat) (z : Zone) : Prop where
  zone : z.IsWithinDay
  year : 0 ≤ (t.localDate z).year ∧ (t.localDate z).year ≤ 9999
  places_le : places ≤ 9
  lossless : 10 ^ (9 - places) ∣ shownFraction t.nano

/-- A text is an instant's in the strict form, with blanks around it. -/
def IsWritten (t : Instant) (raw : String) : Prop :=
  ∃ places z, t.IsWritable places z ∧ Text.Pads raw.toList (t.rfc3339 places z)

/-- Digits that lose nothing of the nanoseconds are read back as the nanoseconds. -/
theorem fraction?_fractionDigits_append (hplaces : places ≤ 9) (hlt : nanos < 1000000000)
    (hlossless : 10 ^ (9 - places) ∣ nanos) (z : Zone) :
    fraction? (fractionDigits places nanos ++ z.text) = some (nanos, z.text) := by
  have hends : ∀ c, z.text.head? = some c → Decimal.isDigit c = false := fun _ hc =>
    (z.head?_text hc).1
  rw [fractionDigits]
  split_ifs with hzero
  · -- Without digits the fraction is nothing, and what follows is not a point.
    subst hzero
    obtain rfl : nanos = 0 := Nat.eq_zero_of_dvd_of_lt hlossless hlt
    rw [List.nil_append, fraction?.eq_def]
    split
    case h_1 rest heq => exact absurd rfl (z.head?_text (congrArg List.head? heq)).2
    case h_2 => rfl
  · have hdigits : nanos / 10 ^ (9 - places) < 10 ^ places := by
      refine Nat.div_lt_of_lt_mul (hlt.trans_eq ?_)
      rw [← Nat.pow_add, Nat.sub_add_cancel hplaces]
    rw [List.cons_append,
      fraction?_padded_append (Nat.pos_of_ne_zero hzero) hplaces hdigits hends,
      Nat.div_mul_cancel hlossless]

/-- The strict form of an instant is read as the instant. -/
theorem ofRfc3339?_rfc3339 (h : t.IsWritable places z) :
    ofRfc3339? (t.rfc3339 places z) = some t := by
  obtain ⟨hzone, ⟨hlow, hhigh⟩, hplaces, hlossless⟩ := h
  have hvalid : (t.localDate z).IsValid := Date.isValid_ofDay _
  have hmonth := hvalid.month_bounds
  have hday := hvalid.day_le
  have hsecond : t.localSecond z.minutes < 86400 := by rw [localSecond]; omega
  have hshown := shownSecond_le (t.localSecond z.minutes) t.nano
  have hread : ∀ n < 100, ∀ cs, fixedNumber? 2 (Decimal.padded 2 n ++ cs) = some (n, cs) :=
    fun n hn => fixedNumber?_padded_append (by decide) hn
  have hyear : ((t.localDate z).year.natAbs : Int) = (t.localDate z).year :=
    Int.natAbs_of_nonneg hlow
  rw [rfc3339, Date.text, Date.yearText, if_pos ⟨hlow, hhigh⟩]
  simp only [List.append_assoc, List.cons_append]
  refine (ofRfc3339?_eq (fixedNumber?_padded_append (by decide) (by omega) _) (hread _ (by omega) _)
    (hread _ (by omega) _) (hread _ (by omega) _) (hread _ (by omega) _) (hread _ (by omega) _)
    (fraction?_fractionDigits_append hplaces t.shownFraction_lt hlossless z)
    (Zone.strictOffset?_text hzone) ?_).trans ?_
  · rw [hyear]
    exact ⟨hvalid, by omega, by omega, hshown⟩
  · -- what the clock of the zone shows is taken back to universal time
    rw [hyear]
    exact t.ofLocal?_local z.minutes

/-- Every text of an instant is read as the instant. -/
theorem read?_rfc3339 (h : t.IsWritable places z) : read? (t.rfc3339 places z) = some t := by
  rw [read?, ofRfc3339?_rfc3339 h]

theorem getLast?_rfc3339 (t : Instant) (places : Nat) (z : Zone) :
    (t.rfc3339 places z).getLast? = z.text.getLast? := by
  obtain ⟨c, hc⟩ := Option.isSome_iff_exists.mp (List.getLast?_isSome.mpr z.text_ne_nil)
  simp [rfc3339, List.getLast?_cons, hc]

end Instant

/-! ### Dates -/

namespace Date

variable {d : Date}

theorem text_ne_nil (d : Date) : d.text ≠ [] :=
  List.append_ne_nil_of_right_ne_nil _ (List.cons_ne_nil _ _)

/-- A text that begins with a date begins without a blank. -/
theorem isBlank_of_head?_text {c : Char} (h : (d.text ++ cs).head? = some c) :
    Text.isBlank c = false := by
  rw [text, List.append_assoc, Instant.head?_yearText_append] at h
  exact Instant.isBlank_of_head?_yearText h

/-- The text of a date neither begins nor ends with a blank. -/
theorem isBare_text (d : Date) : Text.IsBare d.text := by
  refine ⟨fun c hc => ?_, fun c hc => ?_⟩
  · rw [← List.append_nil d.text] at hc
    exact isBlank_of_head?_text hc
  · have hday : d.text.getLast? = (Decimal.padded 2 d.day).getLast? := by
      obtain ⟨c, hc⟩ := Option.isSome_iff_exists.mp
        (List.getLast?_isSome.mpr (Decimal.padded_ne_nil : Decimal.padded 2 d.day ≠ []))
      simp [text, List.getLast?_cons, hc]
    rw [hday] at hc
    exact Decimal.isBlank_of_isDigit (Decimal.isDigit_of_mem_padded c (List.mem_of_getLast? hc))

/-- A text that ends after its date, or whose date does not exist, is not in the strict form. -/
theorem ofRfc3339?_text_append_eq_none (hmonth : d.month < 100) (hday : d.day < 100)
    (h : cs = [] ∨ ¬d.IsValid) : Instant.ofRfc3339? (d.text ++ cs) = none := by
  have hafter : ∀ cs, afterChar? '-' ('-' :: cs) = some cs := fun _ => rfl
  have hread : ∀ n < 100, ∀ cs, fixedNumber? 2 (Decimal.padded 2 n ++ cs) = some (n, cs) :=
    fun n hn => fixedNumber?_padded_append (by decide) hn
  rw [text, yearText, List.append_assoc, List.cons_append, List.append_assoc, List.cons_append]
  split_ifs with hyear
  · have hyear' : (d.year.natAbs : Int) = d.year := Int.natAbs_of_nonneg hyear.1
    refine (bind_of_eq_some (fixedNumber?_padded_append (by decide) (by omega) _) _).trans ?_
    refine (bind_of_eq_some (hafter _) _).trans ?_
    refine (bind_of_eq_some (hread _ hmonth _) _).trans ?_
    refine (bind_of_eq_some (hafter _) _).trans ?_
    refine (bind_of_eq_some (hread _ hday _) _).trans ?_
    rcases h with rfl | hinvalid
    · -- the strict form has a clock after its date
      rfl
    · -- whatever is read of the clock, the date is looked at in the end
      cases cs
      all_goals simp [hyear', hinvalid]
  · exact Instant.ofRfc3339?_eq_none rfl _
  · exact Instant.ofRfc3339?_eq_none rfl _

/-- The text of a date that does not exist is not read, whatever stands around it. -/
theorem read?_text_append_eq_none (hmonth : d.month < 100) (hday : d.day < 100)
    (h : ¬d.IsValid) (cs : List Char) : Instant.read? (d.text ++ cs) = none := by
  have hdate : Date.read? (d.text ++ cs) = none := by
    rw [read?_text_append hmonth hday, if_neg fun hboth => h hboth.2]
  rw [Instant.read?, ofRfc3339?_text_append_eq_none hmonth hday (Or.inr h), hdate]
  rfl

/-- Dates of years without a sign are represented. -/
theorem IsValid.toDay_bounds (h : d.IsValid) (hlow : 0 ≤ d.year) (hhigh : d.year ≤ 9999) :
    firstDay ≤ d.toDay ∧ d.toDay ≤ lastDay := by
  have hfirst : firstDay = -96476249 := by decide
  have hlast : lastDay = 95015279 := by decide
  have hoffset : dayZeroOffset = 730425 := rfl
  have hday := h.day_le
  have hmonth := d.monthFromMarch_bounds
  have hyear : d.year - 1 ≤ d.yearFromMarch ∧ d.yearFromMarch ≤ d.year := by
    rw [yearFromMarch]
    omega
  rw [toDay_eq, yearStart, monthStart]
  omega

end Date

namespace Instant

variable {t : Instant} {d : Date}

/-- An instant is the midnight that begins a date. -/
def IsMidnightOf (t : Instant) (d : Date) : Prop :=
  Date.ofDay t.day = d ∧ t.second = 0 ∧ t.nano = 0

theorem exists_midnight (h : d.IsValid) (hlow : 0 ≤ d.year) (hhigh : d.year ≤ 9999) :
    ∃ t : Instant, t.IsMidnightOf d ∧ ofLocal? d 0 0 0 0 0 = some t := by
  obtain ⟨hfirst, hlast⟩ := h.toDay_bounds hlow hhigh
  have hleap : 1000000000 ≤ 0 → 0 % 60 = 59 := by decide
  refine ⟨⟨d.toDay, 0, 0, hfirst, hlast, by decide, by decide, hleap⟩,
    ⟨Date.ofDay_toDay h, rfl, rfl⟩, ?_⟩
  have hclock : ofLocal? d 0 0 0 0 0 = ofParts? d.toDay 0 0 := by simp [ofLocal?, clockNano]
  rw [hclock]
  exact dif_pos ⟨hfirst, hlast, by decide, by decide, hleap⟩

/-- The midnight of a date is written as the date with an empty clock. -/
theorem IsMidnightOf.rfc3339_eq (h : t.IsMidnightOf d) :
    t.rfc3339 0 .zulu = d.text ++ "T00:00:00Z".toList := by
  obtain ⟨rfl, hsecond, hnano⟩ := h
  have hzero : Decimal.padded 2 0 = ['0', '0'] := by
    simp [Decimal.padded, Decimal.digits_of_lt, Decimal.digitChar]
  have hday : t.localDay 0 = t.day := by simp [localDay, localClock, hsecond]
  have hclock : t.localSecond 0 = 0 := by simp [localSecond, localClock, hsecond]
  rw [rfc3339, localDate, Zone.minutes, hday, hclock, hnano]
  simp [shownSecond, fractionDigits, hzero, Zone.text]

end Instant

/-! ### What filters read -/

theorem Value.read?_timestamp_eq_some_iff {raw : String} {v : Value} :
    read? .timestamp raw = some v ↔
      ∃ t, Instant.read? (Text.trim raw.toList) = some t ∧ timestamp t = v :=
  Option.map_eq_some_iff

/-- The text of an instant, with blanks around it or without, is read as the instant. -/
theorem Instant.IsWritten.read?_eq {t : Instant} {raw : String} (h : t.IsWritten raw) :
    Value.read? .timestamp raw = some (.timestamp t) := by
  obtain ⟨places, z, hwritable, hpads⟩ := h
  have hbare : Text.IsBare (t.rfc3339 places z) := by
    refine ⟨fun c hc => Date.isBlank_of_head?_text hc, fun c hc => ?_⟩
    rw [getLast?_rfc3339] at hc
    exact z.getLast?_text hc
  refine Value.read?_timestamp_eq_some_iff.mpr ⟨t, ?_, rfl⟩
  rw [hpads.trim_eq hbare, read?_rfc3339 hwritable]

/-- A bare date is read as its midnight, and so is the date with an empty clock. -/
theorem Date.read?_midnight {d : Date} (h : d.IsValid) (hlow : 0 ≤ d.year) (hhigh : d.year ≤ 9999)
    {raw raw' : String} (hraw : Text.Pads raw.toList d.text)
    (hraw' : Text.Pads raw'.toList (d.text ++ "T00:00:00Z".toList)) :
    ∃ t : Instant, t.IsMidnightOf d ∧ Value.read? .timestamp raw = some (.timestamp t) ∧
      Value.read? .timestamp raw' = some (.timestamp t) := by
  obtain ⟨t, ht, hlocal⟩ := Instant.exists_midnight h hlow hhigh
  have hmonth := h.month_bounds
  have hday := h.day_le
  have hdate : Date.read? d.text = some d := by
    rw [← List.append_nil d.text, read?_text_append (by omega) (by omega)]
    exact if_pos ⟨rfl, h⟩
  have hstrict : Instant.ofRfc3339? d.text = none := by
    rw [← List.append_nil d.text]
    exact ofRfc3339?_text_append_eq_none (by omega) (by omega) (Or.inl rfl)
  have hwritten : t.IsWritten raw' := by
    have hyear : t.localDate .zulu = d := by
      rw [Instant.localDate, ← ht.1, Zone.minutes, Instant.localDay, Instant.localClock, ht.2.1]
      simp
    refine ⟨0, .zulu, ⟨by decide, hyear ▸ ⟨hlow, hhigh⟩, by decide, ?_⟩, ?_⟩
    · rw [ht.2.2]
      exact Nat.dvd_zero _
    · rwa [ht.rfc3339_eq]
  refine ⟨t, ht, Value.read?_timestamp_eq_some_iff.mpr ⟨t, ?_, rfl⟩, hwritten.read?_eq⟩
  rw [hraw.trim_eq d.isBare_text, Instant.read?, hstrict, hdate]
  exact hlocal

/-- What a filter on a column of instants reads. -/
structure ReadsInstants : Prop where
  /-- Every text of an instant is read as the instant, whatever zone its clock is in and however
  many digits its fraction has. -/
  instant : ∀ {t : Instant} {raw : String}, t.IsWritten raw →
    Value.read? .timestamp raw = some (.timestamp t)
  /-- What is read of two texts is equal if they are texts of one instant, and is in the order of
  their instants. -/
  order : ∀ {s t : Instant} {raw raw' : String}, s.IsWritten raw → t.IsWritten raw' →
    ∃ v w, Value.read? .timestamp raw = some v ∧ Value.read? .timestamp raw' = some w ∧
      (v = w ↔ s = t) ∧ (v.compare? w = some .eq ↔ s = t) ∧
        (v.compare? w = some .lt ↔ s.IsBefore t) ∧ (v.compare? w = some .gt ↔ t.IsBefore s)
  /-- This order is that of the nanoseconds from 2000-01-01, as long as no leap second is
  counted. -/
  elapsed : ∀ {s t : Instant}, s.nano < 1000000000 → t.nano < 1000000000 →
    (s.IsBefore t ↔ s.nanosSinceEpoch < t.nanosSinceEpoch)
  /-- A bare date is read as its midnight in universal time, and so is the date with this clock. -/
  date : ∀ {d : Date} {raw raw' : String}, d.IsValid → 0 ≤ d.year → d.year ≤ 9999 →
    Text.Pads raw.toList d.text → Text.Pads raw'.toList (d.text ++ "T00:00:00Z".toList) →
      ∃ t : Instant, t.IsMidnightOf d ∧ Value.read? .timestamp raw = some (.timestamp t) ∧
        Value.read? .timestamp raw' = some (.timestamp t)
  /-- A date that does not exist is not read, neither bare nor with anything after it. -/
  nowhere : ∀ {d : Date} {raw : String} {before rest : List Char}, d.month < 100 → d.day < 100 →
    ¬d.IsValid → (∀ c ∈ before, Text.isBlank c) → raw.toList = before ++ d.text ++ rest →
      Value.read? .timestamp raw = none
  /-- The days of instants are the dates of the calendar, one after another. -/
  calendar : Date.ofDay 0 = ⟨2000, 1, 1⟩ ∧ ∀ n, Date.ofDay (n + 1) = (Date.ofDay n).next

/-- Filters read instants by what is meant, whichever text it is written in. -/
theorem instants_are_read : ReadsInstants where
  instant h := h.read?_eq
  order := by
    intro s t raw raw' hs ht
    have hcompare : ∀ o, Value.compare? (.timestamp s) (.timestamp t) = some o ↔ s.compare t = o :=
      fun o => Option.some_inj
    refine ⟨_, _, hs.read?_eq, ht.read?_eq, ?_, ?_, ?_, ?_⟩
    · rw [Value.timestamp.injEq]
    · rw [hcompare, Instant.compare_eq_eq_iff]
    · rw [hcompare, Instant.compare_eq_lt_iff]
    · rw [hcompare, Instant.compare_eq_gt_iff]
  elapsed := Instant.isBefore_iff_nanosSinceEpoch_lt
  date h hlow hhigh hraw hraw' := Date.read?_midnight h hlow hhigh hraw hraw'
  nowhere := by
    intro d raw before rest hmonth hday hinvalid hbefore hraw
    obtain ⟨rest', hrest⟩ :=
      Text.exists_trim_append hbefore d.text_ne_nil d.isBare_text rest
    rw [Value.read?, Kind.read?, hraw, hrest, Date.read?_text_append_eq_none hmonth hday hinvalid]
    rfl
  calendar := ⟨by decide, Date.ofDay_add_one⟩

/-- Half past ten on the evening of a leap day, in universal time. -/
def leapEvening : Instant :=
  ⟨8825, 81030, 500000000, by decide, by decide, by decide, by decide, by decide⟩

/-- A clock in Nepal shows a quarter past four on the first of March by then, and a year without a
leap day has no such evening. -/
theorem leapEvening_read_in_nepal :
    Value.read? .timestamp " 2024-03-01T04:15:30.50+05:45\n" = some (.timestamp leapEvening) ∧
      Value.read? .timestamp "2023-02-29T22:30:30.50Z" = none := by
  have hwritable : leapEvening.IsWritable 2 (.ahead 345) :=
    ⟨by decide, by decide, by decide, by decide⟩
  have hpads : Text.Pads " 2024-03-01T04:15:30.50+05:45\n".toList
      (leapEvening.rfc3339 2 (.ahead 345)) :=
    ⟨[' '], ['\n'], List.forall_mem_singleton.mpr rfl, List.forall_mem_singleton.mpr rfl,
      by decide +kernel⟩
  have hcommon : "2023-02-29T22:30:30.50Z".toList =
      [] ++ Date.text ⟨2023, 2, 29⟩ ++ "T22:30:30.50Z".toList := by decide +kernel
  exact ⟨instants_are_read.instant ⟨2, .ahead 345, hwritable, hpads⟩,
    instants_are_read.nowhere (by decide) (by decide) (by decide)
      (fun _ h => absurd h List.not_mem_nil) hcommon⟩

end ExchangeCatalog
