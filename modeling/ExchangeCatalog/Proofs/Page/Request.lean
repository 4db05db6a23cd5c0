import ExchangeCatalog.Page.Request
import ExchangeCatalog.Proofs.Text.Numeral

/-!
# The numbers of a page request

A parameter that spells a positive signed word asks for that number; every other parameter, and a
missing one, leaves the default. Whatever a page request is made of, neither of its numbers is zero.

## Main definitions

* `PageRequest.Asks` — a parameter asks for a number
* `PageRequest.IsMade` — the page requests that the service makes

## Main results

* `PageRequest.toNat_positiveOr`, `PageRequest.positiveOr_eq_standard` — what a parameter is read as
* `PageRequest.positiveOr_bounds` — a positive number of a signed word, in either case
* `PageRequest.IsMade.pos` — neither number of a page request is zero
-/

namespace ExchangeCatalog.PageRequest

variable {standard : UInt64} {raw : Option String} {n : Int64}

/-- A parameter asks for a positive number. -/
def Asks (raw : Option String) (n : Int64) : Prop :=
  1 ≤ n.toInt ∧ ∃ s, raw = some s ∧ Decimal.int64? (Text.trim s.toList) = some n

theorem one_le_iff : 1 ≤ n ↔ 1 ≤ n.toInt := by
  rw [Int64.le_iff_toInt_le]
  rfl

theorem Asks.positiveOr_eq (h : Asks raw n) : positiveOr standard raw = n.toUInt64 := by
  obtain ⟨hpos, s, rfl, hread⟩ := h
  rw [positiveOr, Option.bind_some, hread]
  exact if_pos (one_le_iff.mpr hpos)

theorem toNat_toUInt64 (hpos : 1 ≤ n.toInt) : (n.toUInt64.toNat : Int) = n.toInt := by
  have hzero : 0 ≤ n := Int64.le_trans (by decide) (one_le_iff.mpr hpos)
  rw [Int64.toNat_toUInt64_of_le hzero]
  exact Int.toNat_of_nonneg (Int.le_trans (by decide) hpos)

/-- A parameter is read as the number that it asks for. -/
theorem toNat_positiveOr (standard : UInt64) (h : Asks raw n) :
    ((positiveOr standard raw).toNat : Int) = n.toInt := by
  rw [h.positiveOr_eq, toNat_toUInt64 h.1]

/-- A parameter that asks for no number leaves the default. -/
theorem positiveOr_eq_standard (h : ∀ n, ¬Asks raw n) : positiveOr standard raw = standard := by
  rw [positiveOr]
  split
  · rename_i n hread
    obtain ⟨s, hs, hn⟩ := Option.bind_eq_some_iff.mp hread
    exact if_neg fun hone => h n ⟨one_le_iff.mp hone, s, hs, hn⟩
  · rfl

/-- What is read as a page number or a page size is a positive number of a signed word. -/
theorem positiveOr_bounds (hstandard : 1 ≤ standard ∧ standard.toNat < 0x8000000000000000)
    (raw : Option String) :
    1 ≤ positiveOr standard raw ∧ (positiveOr standard raw).toNat < 0x8000000000000000 := by
  by_cases hasks : ∃ n, Asks raw n
  · obtain ⟨n, hn⟩ := hasks
    have hvalue := toNat_positiveOr standard hn
    have hpos := hn.1
    have hlt := n.toInt_lt
    rw [UInt64.le_iff_toNat_le]
    change 1 ≤ _ ∧ _
    omega
  · rwa [positiveOr_eq_standard (not_exists.mp hasks)]

/-- The text of a positive number asks for it. -/
theorem asks_ofInt (hpos : 1 ≤ n.toInt) : Asks (some (String.ofList (Decimal.ofInt n.toInt))) n :=
  ⟨hpos, _, rfl, by rw [String.toList_ofList, Decimal.trim_ofInt, Decimal.int64?_ofInt]⟩

/-- A page number is read from the digits that spell it. -/
theorem positiveOr_digits {n : UInt64} (hpos : 1 ≤ n) (h : n.toNat < 0x8000000000000000) :
    positiveOr standard (some (String.ofList (Decimal.digits n.toNat))) = n := by
  have hvalue : (Int64.ofInt n.toNat).toInt = n.toNat :=
    Int64.toInt_ofInt_of_le (by omega) (by omega)
  have hone : (1 : Int) ≤ n.toNat := Int.ofNat_le.mpr (UInt64.le_iff_toNat_le.mp hpos)
  have htext : Decimal.ofInt n.toNat = Decimal.digits n.toNat := by
    rw [Decimal.ofInt, if_neg (by omega), Int.natAbs_natCast]
  have hasks := asks_ofInt (n := Int64.ofInt n.toNat) (by rwa [hvalue])
  rw [hvalue, htext] at hasks
  refine UInt64.toNat_inj.mp (Int.ofNat_inj.mp ?_)
  rw [toNat_positiveOr standard hasks, hvalue]

/-! ### Page requests -/

/-- The page requests that are made: of numbers, of the texts of a query, or without either. -/
inductive IsMade : PageRequest → Prop
  | ofNumbers (page limit : UInt64) : IsMade (.ofNumbers page limit)
  | ofQuery (page limit : Option String) : IsMade (.ofQuery page limit)
  | standard : IsMade .standard

theorem one_le_or_default {n standard : UInt64} (hstandard : 1 ≤ standard) :
    1 ≤ if n = 0 then standard else n := by
  split_ifs with hzero
  · exact hstandard
  · rw [UInt64.le_iff_toNat_le, UInt64.toNat_one]
    exact Nat.one_le_iff_ne_zero.mpr fun h => hzero (UInt64.toNat_inj.mp h)

/-- Neither the number of a page nor its size is zero. -/
theorem IsMade.pos {request : PageRequest} (h : request.IsMade) :
    0 < request.page.toNat ∧ 0 < request.limit.toNat := by
  suffices hone : 1 ≤ request.page ∧ 1 ≤ request.limit by
    rwa [UInt64.le_iff_toNat_le, UInt64.le_iff_toNat_le] at hone
  cases h with
  | ofNumbers page limit => exact ⟨one_le_or_default (by decide), one_le_or_default (by decide)⟩
  | ofQuery page limit =>
    exact ⟨(positiveOr_bounds (by decide) page).1, (positiveOr_bounds (by decide) limit).1⟩
  | standard => exact ⟨by decide, by decide⟩

end ExchangeCatalog.PageRequest
