import ExchangeCatalog.Text.Blank
import ExchangeCatalog.Text.Decimal
import Mathlib.Algebra.Group.Nat.Defs

/-!
# Reading decimal text back

The decimal text of a number is read as that number. It is made of digits alone, so it holds nothing
that trimming takes away and nothing that an address or a statement gives a meaning of its own.

## Main results

* `Decimal.isDigit_of_mem_digits` — the text of a number is made of digits
* `Decimal.nat?_digits` — the text of a number is read as the number
-/

namespace ExchangeCatalog.Decimal

variable {c : Char} {cs : List Char} {n : Nat}

/-- The digits are the characters from 48 to 57. -/
theorem isDigit_iff : isDigit c ↔ 48 ≤ c.toNat ∧ c.toNat ≤ 57 := by
  rw [isDigit, Bool.and_eq_true, decide_eq_true_iff, decide_eq_true_iff]
  exact Iff.rfl

theorem isDigit_digitChar : ∀ n < 10, isDigit (digitChar n) := by decide

theorem digitValue_digitChar : ∀ n < 10, digitValue (digitChar n) = n := by decide

theorem digits_of_lt (h : n < 10) : digits n = [digitChar n] := by rw [digits, if_pos h]

theorem digits_of_le (h : 10 ≤ n) : digits n = digits (n / 10) ++ [digitChar (n % 10)] := by
  rw [digits, if_neg (Nat.not_lt.mpr h)]

theorem digits_ne_nil (n : Nat) : digits n ≠ [] := by
  rcases Nat.lt_or_ge n 10 with h | h
  · rw [digits_of_lt h]
    exact List.cons_ne_nil _ _
  · rw [digits_of_le h]
    exact List.append_ne_nil_of_right_ne_nil _ (List.cons_ne_nil _ _)

/-- The text of a number is made of digits. -/
theorem isDigit_of_mem_digits (n : Nat) : ∀ c ∈ digits n, isDigit c := by
  induction n using digits.induct with
  | case1 n h =>
    rw [digits_of_lt h]
    exact List.forall_mem_singleton.mpr (isDigit_digitChar n h)
  | case2 n h ih =>
    rw [digits_of_le (Nat.not_lt.mp h)]
    intro c hc
    rcases List.mem_append.mp hc with hc | hc
    · exact ih c hc
    · rw [List.mem_singleton.mp hc]
      exact isDigit_digitChar _ (Nat.mod_lt n (by decide))

theorem ofDigits_append_singleton (cs : List Char) (c : Char) :
    ofDigits (cs ++ [c]) = ofDigits cs * 10 + digitValue c := by
  rw [ofDigits, List.foldl_append]
  rfl

/-- The digits of a number spell it. -/
theorem ofDigits_digits (n : Nat) : ofDigits (digits n) = n := by
  induction n using digits.induct with
  | case1 n h =>
    rw [digits_of_lt h, ofDigits, List.foldl_cons, List.foldl_nil, digitValue_digitChar n h,
      Nat.zero_mul, Nat.zero_add]
  | case2 n h ih =>
    rw [digits_of_le (Nat.not_lt.mp h), ofDigits_append_singleton, ih,
      digitValue_digitChar _ (Nat.mod_lt n (by decide)), Nat.mul_comm, Nat.div_add_mod]

/-- The text of a number is read as the number. -/
theorem nat?_digits (n : Nat) : nat? (digits n) = some n := by
  rw [nat?, if_pos ⟨digits_ne_nil n, List.all_eq_true.mpr (isDigit_of_mem_digits n)⟩,
    ofDigits_digits]

/-- A signed word fits a signed word. -/
theorem toInt64?_toInt (n : Int64) : toInt64? n.toInt = some n := by
  rw [toInt64?, if_pos ⟨Int64.le_toInt n, Int64.toInt_lt n⟩, Int64.ofInt_toInt]

theorem toInt64?_eq_some_iff {i : Int} {x : Int64} : toInt64? i = some x ↔ i = x.toInt := by
  constructor
  · intro h
    obtain ⟨⟨hlow, hhigh⟩, hx⟩ := Option.ite_none_right_eq_some.mp h
    obtain rfl := Option.some.inj hx
    exact (Int64.toInt_ofInt_of_le hlow (by omega)).symm
  · rintro rfl
    exact toInt64?_toInt x

/-! ### Padding -/

theorem length_digits_le {width : Nat} (hwidth : 0 < width) (h : n < 10 ^ width) :
    (digits n).length ≤ width := by
  induction n using digits.induct generalizing width with
  | case1 n hlt =>
    rw [digits_of_lt hlt]
    exact hwidth
  | case2 n hle ih =>
    obtain ⟨width, rfl⟩ := Nat.exists_eq_add_one.mpr hwidth
    have hpower : 0 < width := by
      refine Nat.pos_of_ne_zero ?_
      rintro rfl
      exact hle h
    have hquotient : n / 10 < 10 ^ width := Nat.div_lt_of_lt_mul (by rwa [← Nat.pow_succ'])
    rw [digits_of_le (Nat.not_lt.mp hle), List.length_append]
    exact Nat.succ_le_succ (ih hpower hquotient)

/-- Digits padded to a width that they do not exceed have this width. -/
theorem length_padded {width : Nat} (hwidth : 0 < width) (h : n < 10 ^ width) :
    (padded width n).length = width := by
  rw [padded, List.length_append, List.length_replicate]
  exact Nat.sub_add_cancel (length_digits_le hwidth h)

theorem isDigit_of_mem_padded {width : Nat} : ∀ c ∈ padded width n, isDigit c := by
  intro c hc
  rcases List.mem_append.mp hc with hc | hc
  · rw [List.eq_of_mem_replicate hc]
    decide
  · exact isDigit_of_mem_digits n c hc

theorem padded_ne_nil {width : Nat} : padded width n ≠ [] :=
  List.append_ne_nil_of_right_ne_nil _ (digits_ne_nil n)

/-- A text that begins with a padded number begins with a digit. -/
theorem isDigit_of_head?_padded_append {width : Nat}
    (h : (padded width n ++ cs).head? = some c) : isDigit c := by
  rw [List.head?_append, Option.or_of_isSome (List.isSome_head?.mpr padded_ne_nil)] at h
  exact isDigit_of_mem_padded c (List.mem_of_head? h)

/-- No padded number begins with a sign. -/
theorem padded_append_ne_cons {width : Nat} (hc : isDigit c = false) (cs rest : List Char) :
    padded width n ++ cs ≠ c :: rest := by
  intro h
  have hdigit : isDigit c := isDigit_of_head?_padded_append (congrArg List.head? h)
  rw [hc] at hdigit
  exact absurd hdigit Bool.false_ne_true

/-- Zeros in front do not change what digits spell. -/
theorem ofDigits_padded (width n : Nat) : ofDigits (padded width n) = n := by
  have hzeros : ∀ k, ofDigits (List.replicate k '0' ++ digits n) = ofDigits (digits n) := by
    intro k
    induction k with
    | zero => rfl
    | succ k ih => exact ih
  rw [padded, hzeros, ofDigits_digits]

/-! ### Blanks -/

theorem isBlank_of_isDigit (h : isDigit c) : Text.isBlank c = false := by
  obtain ⟨hlow, hhigh⟩ := isDigit_iff.mp h
  simp only [Text.isBlank, Bool.or_eq_false_iff, Bool.and_eq_false_iff, decide_eq_false_iff_not,
    beq_eq_false_iff_ne]
  omega

/-- Trimming the front takes nothing away in front of a character that is no blank. -/
theorem trimStart_eq_self (h : ∀ c, cs.head? = some c → Text.isBlank c = false) :
    Text.trimStart cs = cs := by
  cases cs with
  | nil => rfl
  | cons c cs =>
    exact List.dropWhile_cons_of_neg (Bool.eq_false_iff.mp (h c rfl))

theorem trimStart_padded_append {width : Nat} (cs : List Char) :
    Text.trimStart (padded width n ++ cs) = padded width n ++ cs :=
  trimStart_eq_self fun _ hc => isBlank_of_isDigit (isDigit_of_head?_padded_append hc)

/-- Trimming takes nothing away from between two characters that are no blanks. -/
theorem trim_eq_self (hfirst : ∀ c, cs.head? = some c → Text.isBlank c = false)
    (hlast : ∀ c, cs.getLast? = some c → Text.isBlank c = false) : Text.trim cs = cs := by
  have hreverse : Text.trimStart cs.reverse = cs.reverse :=
    trimStart_eq_self fun c hc => hlast c (List.head?_reverse.symm.trans hc)
  rw [Text.trim, trimStart_eq_self hfirst, ← Text.trimStart, hreverse, List.reverse_reverse]

/-- Trimming takes nothing away from a run of digits. -/
theorem trim_of_forall_isDigit (h : ∀ c ∈ cs, isDigit c) : Text.trim cs = cs :=
  trim_eq_self (fun c hc => isBlank_of_isDigit (h c (List.mem_of_head? hc)))
    fun c hc => isBlank_of_isDigit (h c (List.mem_of_getLast? hc))

end ExchangeCatalog.Decimal
