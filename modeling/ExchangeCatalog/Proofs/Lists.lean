import Mathlib.Data.List.Nodup
import Mathlib.Data.List.Pairwise

/-!
# Joining, looking up, reading and sorting lists

## Main results

* `not_mem_intercalate` — what no part of a list holds
* `filterMap_intercalate`, `filterMap_intercalate_zipIdx` — what is picked out of a joined list
* `find?_of_nodup_map` — among things with different names, the one with a name
* `find?_append_cons_of_mem` — the first of some kind is not the repetition of an earlier element
* `exists_append_of_mem_after` — what stands before a later element
* `mapM_eq_some_map`, `mapM_map_zipIdx` — a list of which every element can be read
* `bind_of_eq_ok`, `bind_eq_ok_iff` — readings one after the other
* `mergeSort_eq_of_perm` — a list that can be sorted in one way only
-/

namespace ExchangeCatalog

variable {α β γ : Type}

/-- What is neither in the parts nor between them is not in the whole. -/
theorem not_mem_intercalate {sep x : α} {parts : List (List α)} (hx : x ≠ sep)
    (h : ∀ p ∈ parts, x ∉ p) :
    x ∉ [sep].intercalate parts := by
  induction parts with
  | nil => exact List.not_mem_nil
  | cons p parts ih =>
    obtain ⟨hp, hparts⟩ := List.forall_mem_cons.mp h
    cases parts with
    | nil => rwa [List.intercalate_singleton]
    | cons q parts =>
      rw [List.intercalate_cons_cons, List.append_assoc, List.singleton_append, List.mem_append,
        List.mem_cons]
      rintro (hmem | rfl | hmem)
      · exact hp hmem
      · exact hx rfl
      · exact ih hparts hmem

/-- Where nothing is picked out of what stands between the parts, it is picked out part by part. -/
theorem filterMap_intercalate {f : α → Option β} {sep : List α} (hsep : sep.filterMap f = [])
    (parts : List (List α)) :
    (sep.intercalate parts).filterMap f = parts.flatMap (List.filterMap f) := by
  induction parts with
  | nil => rfl
  | cons p parts ih =>
    cases parts with
    | nil => rw [List.intercalate_singleton, List.flatMap_singleton]
    | cons q parts =>
      rw [List.intercalate_cons_cons, List.filterMap_append, List.filterMap_append, hsep,
        List.append_nil, ih]
      rfl

/-- The positions counted from one. -/
theorem map_zipIdx_add_one (xs : List α) :
    (xs.zipIdx.map fun x => x.2 + 1) = List.range' 1 xs.length := by
  have hmap : (fun x : α × Nat => x.2 + 1) = (1 + ·) ∘ Prod.snd := by
    funext x
    exact Nat.add_comm x.2 1
  rw [hmap, ← List.map_map, List.zipIdx_map_snd, List.map_add_range']

/-- Parts with one number each, which is their position counted from one. -/
theorem filterMap_intercalate_zipIdx {f : β → Option Nat} {g : α × Nat → List β} {sep : List β}
    (hsep : sep.filterMap f = []) (hg : ∀ x, (g x).filterMap f = [x.2 + 1]) (xs : List α) :
    (sep.intercalate (xs.zipIdx.map g)).filterMap f = List.range' 1 xs.length := by
  rw [filterMap_intercalate hsep, List.flatMap_map]
  simp only [hg]
  rw [← List.map_eq_flatMap, map_zipIdx_add_one]

/-- The numbers from one on, with the next two. -/
theorem range'_one_append_two (n : Nat) :
    List.range' 1 n ++ [n + 1, n + 2] = List.range' 1 (n + 2) := by
  have hnext : [n + 1, n + 2] = List.range' (1 + n) 2 := by
    rw [Nat.add_comm 1]
    rfl
  rw [hnext]
  exact List.range'_append_1

/-- Before a later element there is an earlier one, and all that stands before that. -/
theorem exists_append_of_mem_after {before after : List α} {x y : α} (h : y ∈ after) :
    ∃ upto rest, before ++ x :: after = upto ++ y :: rest ∧ x ∈ upto ∧ before ⊆ upto := by
  obtain ⟨between, rest, rfl⟩ := List.append_of_mem h
  refine ⟨before ++ x :: between, rest, ?_, List.mem_append_right _ List.mem_cons_self,
    List.subset_append_left _ _⟩
  rw [List.append_assoc, List.cons_append]

/-- Among things with different names, the one with a name is found. -/
theorem find?_of_nodup_map {f : α → String} {xs : List α} (hnodup : (xs.map f).Nodup) {x : α}
    (hx : x ∈ xs) : (xs.find? fun y => f y == f x) = some x := by
  induction xs with
  | nil => cases hx
  | cons y ys ih =>
    rw [List.map_cons, List.nodup_cons] at hnodup
    rw [List.find?_cons]
    rcases List.mem_cons.mp hx with rfl | hx
    · rw [beq_self_eq_true]
    · have hne : f y ≠ f x := fun heq => hnodup.1 (heq ▸ List.mem_map_of_mem hx)
      rw [beq_eq_false_iff_ne.mpr hne]
      exact ih hnodup.2 hx

/-- What stands first in pairs of two lists comes from the first list. -/
theorem map_fst_zip_sublist (xs : List α) (ys : List β) :
    ((xs.zip ys).map Prod.fst).Sublist xs := by
  rw [List.zip_eq_zip_take_min, List.map_fst_zip (by simp)]
  exact List.take_sublist _ _

/-- The first of some kind is not the repetition of an earlier element. -/
theorem find?_append_cons_of_mem {before : List α} {x : α} (h : x ∈ before) (p : α → Bool)
    (after : List α) : (before ++ x :: after).find? p = (before ++ after).find? p := by
  rw [List.find?_append, List.find?_append, List.find?_cons]
  cases hx : p x with
  | false => rfl
  | true =>
    obtain ⟨y, hy⟩ := Option.isSome_iff_exists.mp (List.find?_isSome.mpr ⟨x, h, hx⟩)
    rw [hy]
    rfl

theorem lookup_cons_eq_ite (name key : String) (x : α) (xs : List (String × α)) :
    ((key, x) :: xs).lookup name = if name = key then some x else xs.lookup name := by
  rw [List.lookup_cons]
  by_cases h : name = key
  · simp [h]
  · simp [h, beq_false_of_ne h]

theorem mem_of_lookup {name : String} {x : α} {xs : List (String × α)}
    (h : xs.lookup name = some x) : (name, x) ∈ xs := by
  obtain ⟨before, after, rfl, -⟩ := List.lookup_eq_some_iff.1 h
  simp

theorem lookup_eq_none_iff_not_mem {name : String} {xs : List (String × α)} :
    xs.lookup name = none ↔ name ∉ xs.map Prod.fst := by
  rw [List.lookup_eq_none_iff, List.mem_map]
  constructor
  · rintro h ⟨x, hx, rfl⟩
    simpa using h x hx
  · intro h x hx
    simpa using fun heq : name = x.1 => h ⟨x, hx, heq.symm⟩

/-- Looking for an entry by its name is looking up the name. -/
theorem find?_fst_eq_lookup (name : String) (xs : List (String × α)) :
    (xs.find? fun x => x.1 == name).map Prod.snd = xs.lookup name := by
  induction xs with
  | nil => rfl
  | cons x xs ih =>
    rw [lookup_cons_eq_ite, List.find?_cons, ← ih]
    by_cases h : name = x.1
    · simp [h]
    · simp [h, beq_false_of_ne (Ne.symm h)]

theorem lookup_map_snd (f : α → β) (xs : List (String × α)) (name : String) :
    (xs.map fun p => (p.1, f p.2)).lookup name = (xs.lookup name).map f := by
  induction xs with
  | nil => rfl
  | cons x xs ih =>
    rw [List.map_cons, List.lookup_cons, List.lookup_cons, ih]
    cases name == x.1
    · rfl
    · rfl

/-- Sorting finds the one order in which no element may stand before an earlier one. -/
theorem mergeSort_eq_of_perm {le : α → α → Bool} (trans : ∀ a b c, le a b → le b c → le a c)
    (total : ∀ a b, le a b || le b a) {xs ys : List α} (hperm : xs.Perm ys)
    (hys : ys.Pairwise fun a b => le a b ∧ ¬ le b a) : xs.mergeSort le = ys := by
  have hsort := (List.mergeSort_perm xs le).trans hperm
  have hsorted := List.pairwise_mergeSort trans total xs
  -- Two elements that may stand before each other are one.
  have hantisymm : ∀ a ∈ ys, ∀ b ∈ ys, le a b → le b a → a = b := by
    refine List.Pairwise.forall_of_forall_of_flip ?_ ?_ ?_
    · intro a _ _ _
      rfl
    · exact hys.imp fun h _ hba => absurd hba h.2
    · exact hys.imp fun h hba _ => absurd hba h.2
  refine List.Perm.eq_of_pairwise ?_ hsorted (hys.imp And.left) hsort
  intro a b ha hb hab hba
  exact hantisymm a (hsort.mem_iff.mp ha) b hb hab hba

theorem mapM_eq_some_iff {f : α → Option β} {xs : List α} {ys : List β} :
    xs.mapM f = some ys ↔ xs.map f = ys.map some := by
  induction xs generalizing ys with
  | nil => cases ys <;> simp
  | cons x xs ih =>
    rw [List.mapM_cons, List.map_cons]
    cases f x with
    | none => cases ys <;> simp
    | some y =>
      cases hxs : xs.mapM f with
      | none => cases ys <;> simp [← ih, hxs]
      | some zs => cases ys <;> simp [← ih, hxs]

theorem mapM_eq_some_map {f : α → Option β} {g : α → β} {xs : List α}
    (h : ∀ x ∈ xs, f x = some (g x)) :
    xs.mapM f = some (xs.map g) := by
  rw [mapM_eq_some_iff, List.map_map]
  exact List.map_congr_left h

/-- Elements that are read by their positions. -/
theorem mapM_map_zipIdx {f : γ → Option β} {p : α × Nat → γ} {g : α → β} (xs : List α)
    (h : ∀ x i, xs[i]? = some x → f (p (x, i)) = some (g x)) :
    (xs.zipIdx.map p).mapM f = some (xs.map g) := by
  have hread : ∀ x ∈ xs.zipIdx, (f ∘ p) x = some ((g ∘ Prod.fst) x) :=
    fun x hx => h x.1 x.2 (List.mem_zipIdx_iff_getElem?.mp hx)
  rw [List.mapM_map, mapM_eq_some_map hread, ← List.map_map, List.zipIdx_map_fst]

/-- A plan of readings goes on with what the first of them gives. -/
theorem bind_of_eq_ok {ε : Type} {x : Except ε α} {a : α} (h : x = .ok a) (f : α → Except ε β) :
    (x >>= f) = f a :=
  h ▸ rfl

/-- A plan of readings succeeds when the first of them does and the rest goes on to success. -/
theorem bind_eq_ok_iff {ε : Type} {x : Except ε α} {f : α → Except ε β} {b : β} :
    (x >>= f) = .ok b ↔ ∃ a, x = .ok a ∧ f a = .ok b := by
  cases x with
  | error e => exact iff_of_false nofun nofun
  | ok a => exact ⟨fun h => ⟨a, rfl, h⟩, fun ⟨_, ha, h⟩ => Except.ok.inj ha ▸ h⟩

end ExchangeCatalog
