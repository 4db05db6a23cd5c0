import ExchangeCatalog.Json.Printer
import ExchangeCatalog.Json.Token
import ExchangeCatalog.Proofs.Text.Decimal
import ExchangeCatalog.Proofs.Text.Utf8
import Mathlib.Data.List.TakeWhile

/-!
# Reading JSON integers back

An integer that is written as a JSON number is read as the integer, as long as it fits a word of 64
bits: its digits are taken into an unsigned word, and a minus sign makes a signed one of it.

## Main definitions

* `Json.EndsNumber` — what may follow a number for the number to end there

## Main results

* `Json.takeDigits_digits` — the digits of a word are taken into the word
* `Json.nextToken?_ofInt_append` — a written integer is the token of the integer
-/

namespace ExchangeCatalog

namespace Decimal

variable {n : Nat}

/-- Only zero begins with the digit zero. -/
theorem eq_zero_of_head?_digits (h : (digits n).head? = some '0') : n = 0 := by
  induction n using digits.induct with
  | case1 n hlt =>
    rw [digits_of_lt hlt, List.head?_cons, Option.some.injEq] at h
    have hvalue := digitValue_digitChar n hlt
    rw [h] at hvalue
    exact hvalue.symm
  | case2 n hle ih =>
    rw [digits_of_le (Nat.not_lt.mp hle), List.head?_append,
      Option.or_of_isSome (List.isSome_head?.mpr (digits_ne_nil _))] at h
    have hquotient := ih h
    omega

theorem toNat_lt_of_isDigit {c : Char} (h : isDigit c) : c.toNat < 0x80 := by
  have hbounds := isDigit_iff.mp h
  omega

end Decimal

namespace Json

open Utf8 (encodeChars)

variable {ds : List Char} {rest : List UInt8}

/-- A number ends before the rest of a text. -/
def EndsNumber (rest : List UInt8) : Prop :=
  ∀ b ∈ rest.head?, Decimal.isDigit (asChar b) = false ∧ b ≠ 0x2E ∧ b ≠ 0x65 ∧ b ≠ 0x45

theorem asChar_ofNat {c : Char} (h : c.toNat < 0x80) : asChar (.ofNat c.toNat) = c := by
  rw [asChar, Utf8.toNat_ofNat (by omega), Char.ofNat_toNat]

/-- A run of digits ends where none follows. -/
theorem digitRun_append (h : ∀ c ∈ ds, Decimal.isDigit c) (hrest : EndsNumber rest) :
    digitRun (encodeChars ds ++ rest) = (ds, rest) := by
  induction ds with
  | nil =>
    cases rest with
    | nil => rfl
    | cons b rest => simp [digitRun, (hrest b rfl).1]
  | cons c ds ih =>
    obtain ⟨hc, hds⟩ := List.forall_mem_cons.mp h
    have hascii := Decimal.toNat_lt_of_isDigit hc
    have hrun := ih hds
    rw [digitRun, Prod.mk.injEq] at hrun
    rw [Utf8.encodeChars_cons, Utf8.utf8EncodeChar_of_lt hascii, List.append_assoc,
      List.singleton_append]
    simp only [digitRun, List.takeWhile_cons, List.dropWhile_cons, asChar_ofNat hascii, hc, if_true,
      List.map_cons, hrun.1, hrun.2]

/-- Digits are taken as long as what they spell fits an unsigned word. -/
theorem takeDigits_of_lt {significand : Nat}
    (h : ds.foldl (fun n c => n * 10 + Decimal.digitValue c) significand < UInt64.size) :
    takeDigits significand ds =
      (ds.foldl (fun n c => n * 10 + Decimal.digitValue c) significand, []) := by
  induction ds generalizing significand with
  | nil => rfl
  | cons c ds ih =>
    have hgrows : ∀ (ds : List Char) (n : Nat),
        n ≤ ds.foldl (fun n c => n * 10 + Decimal.digitValue c) n := by
      intro ds
      induction ds with
      | nil => exact fun n => Nat.le_refl n
      | cons d ds ih =>
        intro n
        exact Nat.le_trans (show n ≤ n * 10 + Decimal.digitValue d by omega) (ih _)
    rw [List.foldl_cons] at h ⊢
    rw [takeDigits, if_pos (Nat.lt_of_le_of_lt (hgrows ds _) h), ih h]

/-- The digits of a word are taken into the word. -/
theorem takeDigits_digits {n : Nat} (h : n < UInt64.size) :
    takeDigits 0 (Decimal.digits n) = (n, []) := by
  have hspelled : (Decimal.digits n).foldl (fun n c => n * 10 + Decimal.digitValue c) 0 = n :=
    Decimal.ofDigits_digits n
  rw [takeDigits_of_lt (hspelled.symm ▸ h), hspelled]

theorem wholeDigits?_digits_append (n : Nat) (hrest : EndsNumber rest) :
    wholeDigits? (encodeChars (Decimal.digits n) ++ rest) = some (Decimal.digits n, rest) := by
  rw [wholeDigits?, digitRun_append (Decimal.isDigit_of_mem_digits n) hrest]
  refine if_neg ?_
  rintro (hnil | ⟨hzero, hlength⟩)
  · exact Decimal.digits_ne_nil n hnil
  · obtain rfl := Decimal.eq_zero_of_head?_digits hzero
    exact hlength (by rw [Decimal.digits_of_lt (by decide), List.length_singleton])

theorem fractionDigits?_of_endsNumber (hrest : EndsNumber rest) :
    fractionDigits? rest = some (none, rest) := by
  rw [fractionDigits?.eq_def]
  split
  case h_1 => exact absurd rfl (hrest _ rfl).2.1
  case h_2 => rfl

theorem exponent?_of_endsNumber (hrest : EndsNumber rest) :
    exponent? rest = some (none, rest) := by
  cases rest with
  | nil => rfl
  | cons b rest =>
    obtain ⟨-, -, hlower, hupper⟩ := hrest b rfl
    exact if_pos ⟨hlower, hupper⟩

/-- The value of an integer's sign and digits. -/
theorem ofText?_digits {n : Nat} {negative : Bool} {i : Int}
    (h : if negative then 0 < n ∧ n ≤ 0x8000000000000000 ∧ i = -n else n < UInt64.size ∧ i = n) :
    Number.ofText? negative (Decimal.digits n) none none = some (.integer i) := by
  cases negative with
  | false =>
    obtain ⟨hlt, rfl⟩ := h
    simp only [Number.ofText?, takeDigits_digits hlt, Bool.false_eq_true, not_false_iff, if_true]
  | true =>
    obtain ⟨hpos, hle, rfl⟩ := h
    have hlt : n < UInt64.size := Nat.lt_of_le_of_lt hle (by decide)
    simp only [Number.ofText?, takeDigits_digits hlt, not_true_eq_false, if_false,
      if_pos (And.intro hpos hle)]

/-- A sign and the digits of an integer are the token of the integer. -/
theorem numberToken?_of_takeSign {bs : List UInt8} {n : Nat} {negative : Bool} {i : Int}
    (hsign : takeSign false bs = (negative, encodeChars (Decimal.digits n) ++ rest))
    (hrest : EndsNumber rest)
    (hvalue : Number.ofText? negative (Decimal.digits n) none none = some (.integer i)) :
    numberToken? bs = some (.scalar (.number (.integer i)), rest) := by
  simp only [numberToken?, hsign, wholeDigits?_digits_append n hrest,
    fractionDigits?_of_endsNumber hrest, exponent?_of_endsNumber hrest, hvalue, Option.bind_eq_bind,
    Option.bind_some, Option.map_some, Option.getD_some]

/-- A byte that begins no other token begins a number. -/
theorem nextToken?_eq_numberToken? {c : Char} (hc : Decimal.isDigit c ∨ c = '-')
    (bs : List UInt8) :
    nextToken? (.ofNat c.toNat :: bs) = numberToken? (.ofNat c.toNat :: bs) := by
  have hascii : c.toNat < 0x80 := by
    rcases hc with hc | rfl
    · exact Decimal.toNat_lt_of_isDigit hc
    · decide
  rw [nextToken?, asChar_ofNat hascii]
  split
  case h_11 => rfl
  all_goals exact absurd hc (by decide)

/-- A written integer is the token of the integer, where a number may end. -/
theorem nextToken?_ofInt_append {i : Int} (hlow : -0x8000000000000000 ≤ i) (hhigh : i < UInt64.size)
    (hrest : EndsNumber rest) :
    nextToken? (encodeChars (Decimal.ofInt i) ++ rest) =
      some (.scalar (.number (.integer i)), rest) := by
  rw [Decimal.ofInt]
  split_ifs with hnegative
  · have hvalue : Number.ofText? true (Decimal.digits i.natAbs) none none = some (.integer i) :=
      ofText?_digits (show 0 < i.natAbs ∧ _ from by omega)
    rw [Utf8.encodeChars_cons, Utf8.utf8EncodeChar_of_lt (by decide), List.append_assoc,
      List.singleton_append, nextToken?_eq_numberToken? (Or.inr rfl)]
    exact numberToken?_of_takeSign rfl hrest hvalue
  · have hvalue : Number.ofText? false (Decimal.digits i.natAbs) none none = some (.integer i) :=
      ofText?_digits (show i.natAbs < UInt64.size ∧ _ from by omega)
    -- The first digit is neither a sign nor the beginning of another token.
    obtain ⟨c, cs, hdigits⟩ := List.exists_cons_of_ne_nil (Decimal.digits_ne_nil i.natAbs)
    have hc : Decimal.isDigit c :=
      Decimal.isDigit_of_mem_digits i.natAbs c (hdigits ▸ List.mem_cons_self)
    have hascii := Decimal.toNat_lt_of_isDigit hc
    have hbytes : encodeChars (Decimal.digits i.natAbs) ++ rest =
        .ofNat c.toNat :: (encodeChars cs ++ rest) := by
      rw [hdigits, Utf8.encodeChars_cons, Utf8.utf8EncodeChar_of_lt hascii, List.append_assoc,
        List.singleton_append]
    have hminus : UInt8.ofNat c.toNat ≠ 0x2D := by
      intro h
      have hchar := congrArg asChar h
      rw [asChar_ofNat hascii] at hchar
      subst hchar
      exact absurd hc (by decide)
    rw [hbytes, nextToken?_eq_numberToken? (Or.inl hc), ← hbytes]
    refine numberToken?_of_takeSign ?_ hrest hvalue
    rw [hbytes, takeSign, if_neg hminus]
    rfl

end Json

end ExchangeCatalog
