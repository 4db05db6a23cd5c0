import ExchangeCatalog.Json.Outline
import Mathlib.Data.List.Induction
import Mathlib.Data.List.Nodup
import Mathlib.Data.List.TakeWhile

/-!
# Members by name

An object may have several members of one name. Looked up by name, or put in the order of names, it
shows the last of them; a reader that goes through its text meets them all.

## Main definitions

* `Json.valuesOf` — the values of the members with a name
* `Json.toItem` — a value as the outline of the array or object around it shows it

## Main results

* `Json.get?_object` — the member that is found is the last of its name
* `Json.valuesOf_orderedMembers` — of the members with a name the last is kept
* `Json.toOutline_sorted_object` — the outline of an object with its members in order
-/

namespace ExchangeCatalog.Json

variable {α β : Type} {name : String} {members : List (String × α)}

/-! ### Members with a name -/

/-- The values of the members with a name. -/
def valuesOf (name : String) (members : List (String × α)) : List α :=
  (members.filter fun m => m.1 = name).map Prod.snd

@[simp] theorem valuesOf_nil (name : String) : valuesOf name ([] : List (String × α)) = [] := rfl

theorem valuesOf_append (name : String) (before after : List (String × α)) :
    valuesOf name (before ++ after) = valuesOf name before ++ valuesOf name after := by
  rw [valuesOf, List.filter_append, List.map_append]
  rfl

theorem valuesOf_cons_self (name : String) (x : α) (members : List (String × α)) :
    valuesOf name ((name, x) :: members) = x :: valuesOf name members := by
  rw [valuesOf, List.filter_cons_of_pos (by simp)]
  rfl

theorem valuesOf_cons_of_ne {m : String × α} (h : m.1 ≠ name) (members : List (String × α)) :
    valuesOf name (m :: members) = valuesOf name members := by
  rw [valuesOf, List.filter_cons_of_neg (by rwa [decide_eq_true_eq])]
  rfl

theorem valuesOf_eq_nil_iff : valuesOf name members = [] ↔ ∀ m ∈ members, m.1 ≠ name := by
  simp [valuesOf]

/-- Members of another name make no difference. -/
theorem valuesOf_filter {p : String × α → Bool} (h : ∀ m, m.1 = name → p m)
    (members : List (String × α)) :
    valuesOf name (members.filter p) = valuesOf name members := by
  rw [valuesOf, List.filter_filter]
  refine congrArg (List.map Prod.snd) (List.filter_congr fun m _ => ?_)
  by_cases hm : m.1 = name
  · simp [hm, h m hm]
  · simp [hm]

theorem valuesOf_map (name : String) (f : α → β) (members : List (String × α)) :
    valuesOf name (members.map fun m => (m.1, f m.2)) = (valuesOf name members).map f := by
  rw [valuesOf, List.filter_map, List.map_map, valuesOf, List.map_map]
  rfl

/-- Among members of different names there is one of each. -/
theorem valuesOf_of_mem {x : α} (hnodup : (members.map Prod.fst).Nodup) (h : (name, x) ∈ members) :
    valuesOf name members = [x] := by
  obtain ⟨before, after, rfl⟩ := List.append_of_mem h
  rw [List.map_append, List.map_cons, List.nodup_middle, List.nodup_cons, List.mem_append,
    not_or] at hnodup
  have hbefore : valuesOf name before = [] :=
    valuesOf_eq_nil_iff.mpr fun m hm heq => hnodup.1.1 (List.mem_map.mpr ⟨m, hm, heq⟩)
  have hafter : valuesOf name after = [] :=
    valuesOf_eq_nil_iff.mpr fun m hm heq => hnodup.1.2 (List.mem_map.mpr ⟨m, hm, heq⟩)
  rw [valuesOf_append, valuesOf_cons_self, hbefore, hafter, List.nil_append]

/-- The member that is found is the last of its name. -/
theorem get?_object (name : String) (members : List (String × Json)) :
    (object members).get? name = (valuesOf name members).getLast? := by
  rw [get?, valuesOf, List.getLast?_map, List.getLast?_eq_head?_reverse, ← List.filter_reverse,
    List.head?_filter]
  rfl

/-! ### The order of members -/

/-- A member put in its place among members in the order of their names. -/
def putMember (kept : List (String × α)) (m : String × α) : List (String × α) :=
  kept.takeWhile (fun k => k.1 < m.1) ++
    m :: (kept.dropWhile (fun k => k.1 < m.1)).filter (fun k => k.1 ≠ m.1)

/-- A member replaces those of its name, and leaves those of another. -/
theorem valuesOf_putMember (kept : List (String × α)) (m : String × α) :
    valuesOf name (putMember kept m) = if m.1 = name then [m.2] else valuesOf name kept := by
  rw [putMember, valuesOf_append]
  split_ifs with hname
  · obtain ⟨key, x⟩ := m
    cases hname
    have hbefore : valuesOf key (kept.takeWhile fun k => k.1 < key) = [] := by
      refine valuesOf_eq_nil_iff.mpr fun k hk => ?_
      have hlt := List.mem_takeWhile_imp hk
      exact String.ne_of_lt (of_decide_eq_true hlt)
    have hafter :
        valuesOf key ((kept.dropWhile fun k => k.1 < key).filter fun k => k.1 ≠ key) = [] :=
      valuesOf_eq_nil_iff.mpr fun k hk => of_decide_eq_true (List.mem_filter.mp hk).2
    rw [hbefore, valuesOf_cons_self, hafter, List.nil_append]
  · rw [valuesOf_cons_of_ne hname, valuesOf_filter, ← valuesOf_append,
      List.takeWhile_append_dropWhile]
    rintro k rfl
    exact decide_eq_true fun heq => hname heq.symm

/-- Of the members with a name the last is kept. -/
theorem valuesOf_orderedMembers (name : String) (members : List (String × α)) :
    valuesOf name (orderedMembers members) = (valuesOf name members).getLast?.toList := by
  induction members using List.reverseRecOn with
  | nil => rfl
  | append_singleton members m ih =>
    have hput : orderedMembers (members ++ [m]) = putMember (orderedMembers members) m :=
      List.foldl_append
    rw [hput, valuesOf_putMember, ih, valuesOf_append]
    split_ifs with hname
    · obtain ⟨key, x⟩ := m
      cases hname
      rw [valuesOf_cons_self, valuesOf_nil, List.getLast?_append, List.getLast?_singleton,
        Option.some_or]
      rfl
    · rw [valuesOf_cons_of_ne hname, valuesOf_nil, List.append_nil]

/-! ### Values in order -/

theorem sortedMembers_eq_map (members : List (String × Json)) :
    sortedMembers members = members.map fun m => (m.1, m.2.sorted) := by
  induction members with
  | nil => rw [List.map_nil, sortedMembers]
  | cons m members ih => rw [List.map_cons, sortedMembers, ih]

theorem sortedItems_eq_map (items : List Json) : sortedItems items = items.map sorted := by
  induction items with
  | nil => rw [List.map_nil, sortedItems]
  | cons v items ih => rw [List.map_cons, sortedItems, ih]

@[simp] theorem head_sorted (v : Json) : v.sorted.head = v.head := by
  cases v with
  | scalar s => rw [sorted]
  | array items => rw [sorted]; rfl
  | object members => rw [sorted]; rfl

/-! ### Outlines -/

/-- A value as the outline of the array or object around it shows it. -/
def toItem (v : Json) : Item := ⟨v.head, true⟩

/-- With its members in order, an object shows the last member of each name. -/
theorem toOutline_sorted_object (members : List (String × Json)) :
    ∃ items, (object members).sorted.toOutline = ⟨.object items true, true⟩ ∧
      (∀ m ∈ items, m.2.complete) ∧
      ∀ name, valuesOf name items = (((object members).get? name).map toItem).toList := by
  refine ⟨(orderedMembers (sortedMembers members)).map fun m => (m.1, toItem m.2), ?_, ?_, ?_⟩
  · rw [sorted]
    rfl
  · intro m hm
    obtain ⟨m, -, rfl⟩ := List.mem_map.mp hm
    rfl
  · intro name
    rw [valuesOf_map, valuesOf_orderedMembers, sortedMembers_eq_map, valuesOf_map, get?_object,
      List.getLast?_map]
    cases (valuesOf name members).getLast? with
    | none => rfl
    | some v => rw [Option.map_some, Option.map_some, Option.toList_some, Option.toList_some,
        List.map_singleton, toItem, head_sorted, toItem]

end ExchangeCatalog.Json
