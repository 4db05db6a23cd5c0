import ExchangeCatalog.Proofs.Text.Decimal
import Mathlib.Data.List.Induction

/-!
# The grammar of whole numbers

A numeral is a run of digits, and each digit more makes ten times what it was, and the digit, of its
number. A whole number is spelled by a numeral, with one sign in front or without. This is all that
the readers of numbers take, zeros in front and all; and the text of a number, which has neither a
plus nor a zero in front, is one of the texts that spell it.

## Main definitions

* `Decimal.Numeral` — a run of digits, and its number
* `Decimal.Spells` — a numeral with a sign or without, and its number

## Main results

* `Decimal.nat?_eq_some_iff`, `Decimal.int?_eq_some_iff` — what is read is what is spelled
* `Decimal.int64?_eq_some_iff` — and in a signed word, if it fits
* `Decimal.toList_toString` — the text of a number is the usual one
-/

namespace ExchangeCatalog.Decimal

variable {c : Char} {cs : List Char} {k n : Nat} {i : Int}

/-- A run of digits, with its number. -/
inductive Numeral : List Char → Nat → Prop
  /-- One digit. -/
  | digit {k : Nat} (hk : k < 10) : Numeral [digitChar k] k
  /-- One digit more, at the end. -/
  | concat {cs : List Char} {n k : Nat} (h : Numeral cs n) (hk : k < 10) :
    Numeral (cs ++ [digitChar k]) (10 * n + k)

/-- A numeral with a sign or without, with its number. -/
inductive Spells : List Char → Int → Prop
  | unsigned {cs : List Char} {n : Nat} (h : Numeral cs n) : Spells cs n
  | plus {cs : List Char} {n : Nat} (h : Numeral cs n) : Spells ('+' :: cs) n
  | minus {cs : List Char} {n : Nat} (h : Numeral cs n) : Spells ('-' :: cs) (-n)

/-! ### Numerals -/

theorem digitValue_lt (h : isDigit c) : digitValue c < 10 := by
  obtain ⟨hlow, hhigh⟩ := isDigit_iff.mp h
  have hzero : '0'.toNat = 48 := rfl
  rw [digitValue, hzero]
  omega

/-- A digit is the digit of its value. -/
theorem digitChar_digitValue (h : isDigit c) : digitChar (digitValue c) = c := by
  obtain ⟨hlow, hhigh⟩ := isDigit_iff.mp h
  have hzero : '0'.toNat = 48 := rfl
  have hvalue : '0'.toNat + digitValue c = c.toNat := by
    rw [digitValue, hzero]
    omega
  rw [digitChar, hvalue, Char.ofNat_toNat]

/-- A numeral is made of digits, and its number is the one that they are read as. -/
theorem Numeral.nat?_eq (h : Numeral cs n) : nat? cs = some n := by
  have hdigits : cs ≠ [] ∧ (∀ c ∈ cs, isDigit c) ∧ ofDigits cs = n := by
    induction h with
    | @digit k hk =>
      refine ⟨List.cons_ne_nil _ _, List.forall_mem_singleton.mpr (isDigit_digitChar k hk), ?_⟩
      rw [← List.nil_append [digitChar k], ofDigits_append_singleton, digitValue_digitChar k hk]
      exact Nat.zero_add k
    | @concat cs n k h hk ih =>
      obtain ⟨-, hall, hvalue⟩ := ih
      refine ⟨List.append_ne_nil_of_right_ne_nil _ (List.cons_ne_nil _ _), ?_, ?_⟩
      · exact List.forall_mem_append.mpr
          ⟨hall, List.forall_mem_singleton.mpr (isDigit_digitChar k hk)⟩
      · rw [ofDigits_append_singleton, hvalue, digitValue_digitChar k hk, Nat.mul_comm]
  rw [nat?, if_pos ⟨hdigits.1, List.all_eq_true.mpr hdigits.2.1⟩, hdigits.2.2]

/-- Every run of digits is a numeral. -/
theorem numeral_ofDigits (hne : cs ≠ []) (h : ∀ c ∈ cs, isDigit c) : Numeral cs (ofDigits cs) := by
  -- Numerals grow at the end, so the last digit is the one that is taken off.
  induction cs using List.reverseRecOn with
  | nil => exact absurd rfl hne
  | append_singleton cs c ih =>
    obtain ⟨hall, hc⟩ := List.forall_mem_append.mp h
    have hdigit : isDigit c := hc c List.mem_cons_self
    rw [ofDigits_append_singleton, Nat.mul_comm]
    rcases eq_or_ne cs [] with rfl | hcs
    · -- the first digit of all
      have hone := Numeral.digit (digitValue_lt hdigit)
      rw [digitChar_digitValue hdigit] at hone
      exact (Nat.zero_add (digitValue c)).symm ▸ hone
    · have hmore := Numeral.concat (ih hcs hall) (digitValue_lt hdigit)
      rwa [digitChar_digitValue hdigit] at hmore

/-- Exactly numerals are read as numbers without a sign, each as its own number. -/
theorem nat?_eq_some_iff : nat? cs = some n ↔ Numeral cs n := by
  constructor
  · intro h
    obtain ⟨⟨hne, hall⟩, hn⟩ := Option.ite_none_right_eq_some.mp h
    obtain rfl := Option.some.inj hn
    exact numeral_ofDigits hne (List.all_eq_true.mp hall)
  · exact Numeral.nat?_eq

theorem Numeral.isDigit_head (h : Numeral (c :: cs) n) : isDigit c := by
  obtain ⟨⟨-, hall⟩, -⟩ := Option.ite_none_right_eq_some.mp h.nat?_eq
  exact List.all_eq_true.mp hall c List.mem_cons_self

/-! ### Whole numbers -/

/-- A text is read as a whole number exactly if it spells the number. -/
theorem int?_eq_some_iff : int? cs = some i ↔ Spells cs i := by
  constructor
  · intro h
    rw [int?.eq_def] at h
    split at h
    all_goals
      obtain ⟨n, hn, rfl⟩ := Option.map_eq_some_iff.mp h
      have hnumeral := nat?_eq_some_iff.mp hn
    · exact .plus hnumeral
    · exact .minus hnumeral
    · exact .unsigned hnumeral
  · rintro (hnumeral | hnumeral | hnumeral)
    · -- A numeral begins with a digit and hence with neither sign.
      rw [int?.eq_def]
      split
      · exact absurd hnumeral.isDigit_head (by decide)
      · exact absurd hnumeral.isDigit_head (by decide)
      · rw [hnumeral.nat?_eq]
        rfl
    · rw [int?, hnumeral.nat?_eq]
      rfl
    · rw [int?, hnumeral.nat?_eq]
      rfl

/-- A text is read as a signed word exactly if it spells the number of the word. -/
theorem int64?_eq_some_iff {x : Int64} : int64? cs = some x ↔ Spells cs x.toInt := by
  rw [int64?, Option.bind_eq_some_iff]
  constructor
  · rintro ⟨i, hi, hx⟩
    rw [← toInt64?_eq_some_iff.mp hx]
    exact int?_eq_some_iff.mp hi
  · intro h
    exact ⟨x.toInt, int?_eq_some_iff.mpr h, toInt64?_toInt x⟩

/-- No text spells two numbers. -/
theorem Spells.unique {j : Int} (hi : Spells cs i) (hj : Spells cs j) : i = j :=
  Option.some.inj ((int?_eq_some_iff.mpr hi).symm.trans (int?_eq_some_iff.mpr hj))

/-! ### The text of a number -/

/-- The digits of a number are the usual ones. -/
theorem toDigits_eq_digits (n : Nat) : Nat.toDigits 10 n = digits n := by
  have hchar : ∀ k < 10, Nat.digitChar k = digitChar k := by decide
  induction n using digits.induct with
  | case1 n hlt => rw [digits_of_lt hlt, Nat.toDigits_of_lt_base hlt, hchar n hlt]
  | case2 n hle ih =>
    rw [digits_of_le (Nat.not_lt.mp hle), Nat.toDigits_eq_if (by decide), if_neg hle, ih,
      hchar _ (Nat.mod_lt n (by decide))]

/-- The text of a natural number is the usual one. -/
theorem toList_toString_nat (n : Nat) : (toString n).toList = digits n := by
  rw [Nat.toString_eq_repr, Nat.repr_eq_ofList_toDigits, String.toList_ofList, toDigits_eq_digits]

/-- So is the text of an integer. -/
theorem toList_toString (i : Int) : (toString i).toList = ofInt i := by
  cases i with
  | ofNat n =>
    have hnonneg : ¬Int.ofNat n < 0 := Int.not_lt.mpr (Int.natCast_nonneg n)
    rw [ofInt, if_neg hnonneg]
    exact toList_toString_nat n
  | negSucc n =>
    rw [ofInt, if_pos (Int.negSucc_lt_zero n), Int.toString_eq_repr, Int.repr, String.toList_append,
      ← Nat.toString_eq_repr, toList_toString_nat]
    rfl

theorem numeral_digits (n : Nat) : Numeral (digits n) n := nat?_eq_some_iff.mp (nat?_digits n)

/-- The text of a number spells it. -/
theorem spells_ofInt (i : Int) : Spells (ofInt i) i := by
  rw [ofInt]
  split_ifs with hnegative
  · have hminus := Spells.minus (numeral_digits i.natAbs)
    rwa [Int.ofNat_natAbs_of_nonpos (Int.le_of_lt hnegative), Int.neg_neg] at hminus
  · have hunsigned := Spells.unsigned (numeral_digits i.natAbs)
    rwa [Int.natAbs_of_nonneg (Int.not_lt.mp hnegative)] at hunsigned

/-- The text of a signed word is read as the word. -/
theorem int64?_ofInt (x : Int64) : int64? (ofInt x.toInt) = some x :=
  int64?_eq_some_iff.mpr (spells_ofInt x.toInt)

/-- The text of an integer begins with a minus sign or a digit. -/
theorem exists_ofInt_eq_cons (i : Int) :
    ∃ c cs, ofInt i = c :: cs ∧ (c = '-' ∨ isDigit c) := by
  rw [ofInt]
  split_ifs
  · exact ⟨'-', _, rfl, .inl rfl⟩
  · obtain ⟨c, cs, hcs⟩ := List.exists_cons_of_ne_nil (digits_ne_nil i.natAbs)
    exact ⟨c, cs, hcs, .inr (isDigit_of_mem_digits _ c (hcs ▸ List.mem_cons_self))⟩

/-- The text of an integer begins and ends without blanks. -/
theorem trim_ofInt (i : Int) : Text.trim (ofInt i) = ofInt i := by
  have hdigits := isDigit_of_mem_digits i.natAbs
  rw [ofInt]
  split_ifs
  · refine trim_eq_self (fun c hc => ?_) fun c hc => ?_
    · cases hc
      rfl
    · rw [List.getLast?_cons_of_ne_nil (digits_ne_nil _)] at hc
      exact isBlank_of_isDigit (hdigits c (List.mem_of_getLast? hc))
  · exact trim_of_forall_isDigit hdigits

end ExchangeCatalog.Decimal
