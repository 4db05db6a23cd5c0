import ExchangeCatalog.Filter.Predicate
import ExchangeCatalog.Proofs.Text.Split
import Mathlib.Logic.Function.Defs

/-!
# The keys of filters

A key is cut at its last underscore, and only what stands behind that can be a suffix. Since no
suffix has an underscore, the cut finds the suffix that was put on a field, whatever underscores the
field has and whatever it ends in itself; and a key that is not cut stands for itself. So keys are
another way to write fields and operators, and nothing is lost between the two.

## Main definitions

* `operatorSuffixes` — the four suffixes with their operators
* `EndsInOperator` — a key that is a field with a suffix on it
* `SplitsLosslessly` — all that the splitting of keys amounts to

## Main results

* `splitKey_append` — the suffix on a field is found
* `splitKey_cases` — all that a key can be split into
* `joinKey_splitKey`, `splitKey_injective` — no key is lost
* `keys_split_losslessly` — the splitting and the joining of keys
-/

namespace ExchangeCatalog

variable {field suffix : String} {op : Operator}

/-! ### Suffixes -/

/-- The suffixes of keys with their operators. -/
def operatorSuffixes : List (String × Operator) :=
  [("lt", .lessThan), ("lte", .lessThanOrEqual), ("gt", .greaterThan),
    ("gte", .greaterThanOrEqual)]

theorem suffix?_of_mem_operatorSuffixes :
    ∀ p ∈ operatorSuffixes, p.2.suffix? = some p.1 := by decide

theorem ofSuffix?_of_mem_operatorSuffixes :
    ∀ p ∈ operatorSuffixes, Operator.ofSuffix? p.1 = some p.2 := by decide

theorem underscore_not_mem_of_mem_operatorSuffixes :
    ∀ p ∈ operatorSuffixes, '_' ∉ p.1.toList := by decide

/-- Nothing else is read as a suffix. -/
theorem mem_operatorSuffixes_of_ofSuffix? (h : Operator.ofSuffix? suffix = some op) :
    (suffix, op) ∈ operatorSuffixes := by
  rw [Operator.ofSuffix?] at h
  repeat' split at h
  all_goals cases h
  all_goals subst_vars; decide

/-- Every operator but equality has a suffix. -/
theorem exists_mem_operatorSuffixes (h : op ≠ .equal) :
    ∃ suffix, (suffix, op) ∈ operatorSuffixes := by
  cases op with
  | equal => exact absurd rfl h
  | lessThan => exact ⟨"lt", by decide⟩
  | lessThanOrEqual => exact ⟨"lte", by decide⟩
  | greaterThan => exact ⟨"gt", by decide⟩
  | greaterThanOrEqual => exact ⟨"gte", by decide⟩

theorem ne_equal_of_mem_operatorSuffixes (h : (suffix, op) ∈ operatorSuffixes) : op ≠ .equal := by
  rintro rfl
  cases suffix?_of_mem_operatorSuffixes _ h

/-! ### Splitting -/

theorem toList_append_suffix (field suffix : String) :
    (field ++ "_" ++ suffix).toList = field.toList ++ '_' :: suffix.toList := by
  rw [String.toList_append, String.toList_append, List.append_assoc]
  rfl

theorem joinKey_of_mem (field : String) (h : (suffix, op) ∈ operatorSuffixes) :
    joinKey field op = field ++ "_" ++ suffix := by
  rw [joinKey, suffix?_of_mem_operatorSuffixes _ h]

/-- The suffix on a field is found, whatever the field is like. -/
theorem splitKey_append (hfield : field ≠ "") (h : (suffix, op) ∈ operatorSuffixes) :
    splitKey (field ++ "_" ++ suffix) = (field, op) := by
  have hne : field.toList ≠ [] := mt String.toList_eq_nil_iff.mp hfield
  rw [splitKey, toList_append_suffix,
    Text.cutLast?_append _ (underscore_not_mem_of_mem_operatorSuffixes _ h)]
  dsimp only
  rw [if_neg hne, String.ofList_toList, String.ofList_toList,
    ofSuffix?_of_mem_operatorSuffixes _ h]

/-- A key stands for itself, or it is a field with the suffix of the operator that it names. -/
theorem splitKey_cases (key : String) : splitKey key = (key, .equal) ∨
    ∃ field op suffix, splitKey key = (field, op) ∧ field ≠ "" ∧ (suffix, op) ∈ operatorSuffixes ∧
      key = field ++ "_" ++ suffix := by
  rw [splitKey]
  split
  · rename_i field suffix hcut
    split
    · exact Or.inl rfl
    · rename_i hfield
      cases hop : Operator.ofSuffix? (String.ofList suffix) with
      | none => exact Or.inl rfl
      | some op =>
        refine Or.inr ⟨String.ofList field, op, String.ofList suffix, rfl,
          mt String.ofList_eq_empty_iff.mp hfield, mem_operatorSuffixes_of_ofSuffix? hop, ?_⟩
        -- The cut has left out nothing but the underscore.
        refine String.toList_inj.mp ?_
        rw [toList_append_suffix, String.toList_ofList, String.toList_ofList,
          Text.eq_of_cutLast? hcut]
  · exact Or.inl rfl

/-- Field and operator put together are the key again. -/
theorem joinKey_splitKey (key : String) : joinKey (splitKey key).1 (splitKey key).2 = key := by
  rcases splitKey_cases key with hplain | ⟨field, op, suffix, hsplit, -, hop, hkey⟩
  · rw [hplain]
    rfl
  · rw [hsplit, joinKey_of_mem field hop, ← hkey]

/-- Two keys are never split alike. -/
theorem splitKey_injective : Function.Injective splitKey := by
  intro key key' h
  rw [← joinKey_splitKey key, ← joinKey_splitKey key', h]

/-- A field and an operator with a suffix are found again. -/
theorem splitKey_joinKey (hfield : field ≠ "") (hop : op ≠ .equal) :
    splitKey (joinKey field op) = (field, op) := by
  obtain ⟨suffix, hsuffix⟩ := exists_mem_operatorSuffixes hop
  rw [joinKey_of_mem field hsuffix, splitKey_append hfield hsuffix]

/-- A key that is a field with a suffix on it. -/
def EndsInOperator (key : String) : Prop :=
  ∃ field, field ≠ "" ∧ ∃ p ∈ operatorSuffixes, key = field ++ "_" ++ p.1

/-- Every other key stands for itself. -/
theorem splitKey_eq_self_iff (key : String) :
    splitKey key = (key, .equal) ↔ ¬ EndsInOperator key := by
  constructor
  · rintro hplain ⟨field, hfield, p, hp, rfl⟩
    rw [splitKey_append hfield hp] at hplain
    exact ne_equal_of_mem_operatorSuffixes hp (Prod.mk.inj hplain).2
  · intro hends
    rcases splitKey_cases key with hplain | ⟨field, op, suffix, -, hfield, hop, hkey⟩
    · exact hplain
    · exact absurd ⟨field, hfield, _, hop, hkey⟩ hends

/-- With equality only a key that stands for itself is named, and with any other operator every
field. -/
theorem exists_splitKey_eq_iff :
    (∃ key, splitKey key = (field, op)) ↔
      (op = .equal ∧ ¬ EndsInOperator field) ∨ (op ≠ .equal ∧ field ≠ "") := by
  constructor
  · rintro ⟨key, hkey⟩
    rcases splitKey_cases key with hplain | ⟨field', op', suffix, hsplit, hfield, hop, -⟩
    · obtain ⟨rfl, rfl⟩ := Prod.mk.inj (hplain.symm.trans hkey)
      exact Or.inl ⟨rfl, (splitKey_eq_self_iff key).mp hplain⟩
    · obtain ⟨rfl, rfl⟩ := Prod.mk.inj (hsplit.symm.trans hkey)
      exact Or.inr ⟨ne_equal_of_mem_operatorSuffixes hop, hfield⟩
  · rintro (⟨rfl, hends⟩ | ⟨hop, hfield⟩)
    · exact ⟨field, (splitKey_eq_self_iff field).mpr hends⟩
    · exact ⟨_, splitKey_joinKey hfield hop⟩

/-! ### Keys and what they name -/

/-- All that the splitting of keys amounts to. -/
structure SplitsLosslessly : Prop where
  /-- A field and an operator are put together with the operator's suffix; equality has none. -/
  joins : ∀ field, joinKey field .equal = field ∧
    ∀ p ∈ operatorSuffixes, joinKey field p.2 = field ++ "_" ++ p.1
  /-- What a key is split into is the key when it is put together, -/
  joined : ∀ key, joinKey (splitKey key).1 (splitKey key).2 = key
  /-- so no two keys are split alike. -/
  injective : Function.Injective splitKey
  /-- What is put together of a field and an operator with a suffix is split into these, -/
  split : ∀ field op, field ≠ "" → op ≠ .equal → splitKey (joinKey field op) = (field, op)
  /-- and every key that is not so put together stands for itself. -/
  plain_iff : ∀ field, splitKey field = (field, .equal) ↔ ¬ EndsInOperator field
  /-- There are no other fields and operators that a key is split into. -/
  range_iff : ∀ field op, (∃ key, splitKey key = (field, op)) ↔
    (op = .equal ∧ ¬ EndsInOperator field) ∨ (op ≠ .equal ∧ field ≠ "")

/-- Keys are split without loss, and what is put together is split into the same. -/
theorem keys_split_losslessly : SplitsLosslessly where
  joins field := ⟨rfl, fun _ hp => joinKey_of_mem field hp⟩
  joined := joinKey_splitKey
  injective := splitKey_injective
  split _ _ := splitKey_joinKey
  plain_iff := splitKey_eq_self_iff
  range_iff _ _ := exists_splitKey_eq_iff

example : ["delivery_place", "spot_id_gte", "price_gt_x", "price_gt_lt", "_gt", "__gt"].map
      splitKey =
    [("delivery_place", .equal), ("spot_id", .greaterThanOrEqual), ("price_gt_x", .equal),
      ("price_gt", .lessThan), ("_gt", .equal), ("_", .greaterThan)] := by
  decide

end ExchangeCatalog
