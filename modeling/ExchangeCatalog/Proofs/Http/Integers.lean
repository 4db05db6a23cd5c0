import ExchangeCatalog.Http.Routes
import ExchangeCatalog.Proofs.Page.Request
import ExchangeCatalog.Proofs.Text.Blank

/-!
# One grammar for all integers of a request

A request has integers in three places: the identifier in its path, the values of filters, and the
page parameters of its query. All three are read by the grammar of whole numbers, within a signed
word. They differ in what stands around a number and in what is made of a text that spells none: the
identifier allows no blanks, and any text but a number is a fault that shows it; the others allow
blanks, and a page parameter that is not a positive number counts for nothing.

## Main definitions

* `PageRequest.IsAskedFor` — a number of a page request is what its parameter asks for
* `ReadsIntegers` — what is read in the three places

## Main results

* `readId_eq_ok_iff` — which texts are identifiers
* `Value.read?_integer_eq` — an integer in a filter is an identifier with blanks around it
* `integers_are_read` — the three places agree
-/

namespace ExchangeCatalog

variable {s : String} {n : Int64}

/-- An identifier is read from exactly the texts that spell it. -/
theorem readId_eq_ok_iff : readId s = .ok n ↔ Decimal.Spells s.toList n.toInt := by
  rw [← Decimal.int64?_eq_some_iff, readId]
  split
  · rename_i hread
    simp [hread]
  · rename_i hread
    simp [hread]

/-- A text that spells no signed word is refused as it stands. -/
theorem readId_eq_error
    (h : ∀ i, Decimal.Spells s.toList i → i < -0x8000000000000000 ∨ 0x8000000000000000 ≤ i) :
    readId s = .error (.invalidId s) := by
  rw [readId]
  split
  · rename_i n hread
    have hout := h n.toInt (Decimal.int64?_eq_some_iff.mp hread)
    have hlow := n.le_toInt
    have hhigh := n.toInt_lt
    omega
  · rfl

/-- An integer in a filter is an identifier with blanks around it. -/
theorem Value.read?_integer_eq {core : String} (hbare : Text.IsBare core.toList)
    (hpads : Text.Pads s.toList core.toList) :
    read? .integer s = (readId core).toOption.map .integer := by
  rw [read?, Kind.read?, hpads.trim_eq hbare, readId]
  cases Decimal.int64? core.toList with
  | none => rfl
  | some n => rfl

namespace PageRequest

/-- A parameter asks for the positive number that a filter would read. -/
theorem asks_iff {raw : Option String} :
    Asks raw n ↔ 1 ≤ n.toInt ∧ ∃ s, raw = some s ∧ Value.read? .integer s = some (.integer n) := by
  have hread : ∀ s, Value.read? .integer s = some (.integer n) ↔
      Decimal.int64? (Text.trim s.toList) = some n := by
    intro s
    refine Option.map_eq_some_iff.trans ⟨?_, fun h => ⟨n, h, rfl⟩⟩
    rintro ⟨m, hm, heq⟩
    cases heq
    exact hm
  simp only [Asks, hread]

/-- A number of a page request is the positive number that a filter would read of its parameter, and
the default if there is none. -/
structure IsAskedFor (standard : UInt64) (raw : Option String) (number : UInt64) : Prop where
  asked : ∀ {s : String} {n : Int64}, raw = some s → Value.read? .integer s = some (.integer n) →
    1 ≤ n.toInt → (number.toNat : Int) = n.toInt
  standard : (∀ (s : String) (n : Int64), raw = some s →
    Value.read? .integer s = some (.integer n) → n.toInt < 1) → number = standard
  positive : 1 ≤ number.toNat
  fits : number.toNat < 0x8000000000000000

theorem isAskedFor_positiveOr {standard : UInt64} (hpos : 1 ≤ standard)
    (hlt : standard.toNat < 0x8000000000000000) (raw : Option String) :
    IsAskedFor standard raw (positiveOr standard raw) where
  asked hs hread hone := toNat_positiveOr standard (asks_iff.mpr ⟨hone, _, hs, hread⟩)
  standard h := by
    refine positiveOr_eq_standard fun n hasks => ?_
    obtain ⟨hone, s, hs, hread⟩ := asks_iff.mp hasks
    exact absurd (h s n hs hread) (Int.not_lt.mpr hone)
  positive := UInt64.le_iff_toNat_le.mp (positiveOr_bounds ⟨hpos, hlt⟩ raw).1
  fits := (positiveOr_bounds ⟨hpos, hlt⟩ raw).2

theorem isAskedFor_ofQuery (page limit : Option String) :
    IsAskedFor 1 page (ofQuery page limit).page ∧ IsAskedFor 10 limit (ofQuery page limit).limit :=
  ⟨isAskedFor_positiveOr (by decide) (by decide) page,
    isAskedFor_positiveOr (by decide) (by decide) limit⟩

end PageRequest

/-- What the integers of a request are read as. -/
structure ReadsIntegers : Prop where
  /-- An identifier is read from exactly the texts that spell it. -/
  id : ∀ {s : String} {n : Int64}, readId s = .ok n ↔ Decimal.Spells s.toList n.toInt
  /-- Any other text, and a number beyond the signed words, is a fault that shows it. -/
  refused : ∀ {s : String},
    (∀ i, Decimal.Spells s.toList i → i < -0x8000000000000000 ∨ 0x8000000000000000 ≤ i) →
      ∃ fault, readId s = .error fault ∧ fault.kind = .validation ∧
        fault.message = "Invalid id: " ++ s
  /-- Every text is a bare text with blanks around it, and no other one. -/
  bare : ∀ s : String, ∃! core : String, Text.IsBare core.toList ∧ Text.Pads s.toList core.toList
  /-- A filter reads this bare text as an identifier. -/
  filter : ∀ {s core : String}, Text.IsBare core.toList → Text.Pads s.toList core.toList →
    Value.read? .integer s = (readId core).toOption.map .integer
  /-- The page parameters are read as a filter reads integers. -/
  page : ∀ page limit : Option String,
    PageRequest.IsAskedFor 1 page (PageRequest.ofQuery page limit).page ∧
      PageRequest.IsAskedFor 10 limit (PageRequest.ofQuery page limit).limit
  /-- The text of a signed word is read as the word wherever the word is allowed. -/
  text : ∀ n : Int64, readId (toString n.toInt) = .ok n ∧
    Value.read? .integer (toString n.toInt) = some (.integer n) ∧
      (1 ≤ n.toInt → ∀ other,
        ((PageRequest.ofQuery (some (toString n.toInt)) other).page.toNat : Int) = n.toInt ∧
          ((PageRequest.ofQuery other (some (toString n.toInt))).limit.toNat : Int) = n.toInt)

/-- The integers of a request are read by one grammar. -/
theorem integers_are_read : ReadsIntegers where
  id := readId_eq_ok_iff
  refused h := ⟨_, readId_eq_error h, rfl, rfl⟩
  bare s := by
    refine ⟨String.ofList (Text.trim s.toList), ?_, fun core hcore => ?_⟩
    · dsimp only
      rw [String.toList_ofList]
      exact Text.trim_eq_iff.mp rfl
    · rw [Text.trim_eq_iff.mpr hcore, String.ofList_toList]
  filter := Value.read?_integer_eq
  page := PageRequest.isAskedFor_ofQuery
  text n := by
    have htext : toString n.toInt = String.ofList (Decimal.ofInt n.toInt) := by
      rw [← Decimal.toList_toString, String.ofList_toList]
    have hread : Value.read? .integer (toString n.toInt) = some (.integer n) := by
      rw [htext, Value.read?, Kind.read?, String.toList_ofList, Decimal.trim_ofInt,
        Decimal.int64?_ofInt]
      rfl
    refine ⟨?_, hread, fun hpos other => ?_⟩
    · rw [htext, readId_eq_ok_iff, String.toList_ofList]
      exact Decimal.spells_ofInt n.toInt
    · exact ⟨(PageRequest.isAskedFor_ofQuery _ other).1.asked rfl hread hpos,
        (PageRequest.isAskedFor_ofQuery other _).2.asked rfl hread hpos⟩

/-- The greatest word is read with a plus and zeros in front, and the number after it is refused. -/
theorem greatest_word_read :
    readId "+009223372036854775807" = .ok Int64.maxValue ∧
      ∃ fault, readId "9223372036854775808" = .error fault ∧ fault.kind = .validation ∧
        fault.message = "Invalid id: 9223372036854775808" := by
  have hgreatest : Decimal.Spells "+009223372036854775807".toList Int64.maxValue.toInt :=
    Decimal.int?_eq_some_iff.mp (by decide)
  have hbeyond : Decimal.Spells "9223372036854775808".toList 9223372036854775808 :=
    Decimal.int?_eq_some_iff.mp (by decide)
  -- the second text spells this number and no other
  have hout : ∀ i, Decimal.Spells "9223372036854775808".toList i → 0x8000000000000000 ≤ i :=
    fun i hi => Int.le_of_eq (hi.unique hbeyond).symm
  exact ⟨integers_are_read.id.mpr hgreatest,
    integers_are_read.refused fun i hi => Or.inr (hout i hi)⟩

end ExchangeCatalog
